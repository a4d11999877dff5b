import Rsadb.Services.Refused

/-! Whether a reply survives the close that follows it. `shell_v2` loses the output
that comes while it sends its stdin, and a push the failure that comes before the
acknowledgement of its last message. -/
namespace Rsadb

open Dialogue

namespace Session

open SyncClient Sync

/-- A write that the device interrupts loses the answer. If the device closes the
stream while `shell_v2` is sending its frames and the last write is not
acknowledged, then nothing that was delivered before makes a difference: the call
returns `StreamClosed`. A push that the device closes before it has returned, with
a whole failure before it to read, returns that failure exactly if the close finds
it with all its messages sent and the last acknowledgement bound to be seen, and no
`recv` fails behind that, which none does while the writer runs. Left alone, both
return after steps of their own. -/
theorem interrupted_write_loses_reply (maxPayload : UInt32) (ref : Ref) (earlier prior trace : List Event)
    (before now s : Session) :
    (∀ command stdin : Bytes,
      ClosedAt (shellV2 command stdin) maxPayload ref earlier before prior now trace s →
      before.owners ref = .unborn → CutShort (shellV2 command stdin) ref earlier prior →
      (∀ result, outcome (shellV2 command stdin) ref trace = some result →
        result = .error .streamClosed) ∧
      ReturnsWithin 5 (shellV2 command stdin) ref earlier trace s (.error .streamClosed)) ∧
    (∀ (features : SyncFeatures) (path : Bytes) (mode mtime : UInt32) (source : List SourceRead)
      (buffer message rest : Bytes), let client := SyncClient.pushing features path mode mtime source buffer
      ClosedAt client maxPayload ref earlier before prior now trace s → before.owners ref = .idle →
      (∀ e, .error e ∈ source → ∃ text, e = .io text) → outcome client ref prior = none →
      message.length < 2 ^ 32 → unread buffer ref before prior = failFrame message ++ rest →
      (∀ result, outcome client ref trace = some result →
        (result = .error (.remoteFailure (Utf8.lossy message)) ↔
          Sent (stage client ref prior) (now.streams ref) (now.owners ref) ∧ NoRecvError ref trace)) ∧
      (s.outboxOpen = true → NoRecvError ref trace) ∧
      ∃ n result, ReturnsWithin n client ref earlier trace s result) := by
  refine ⟨fun command stdin hClosed hUnborn hCut => ?_,
    fun features path mode mtime source buffer message rest => ?_⟩
  · obtain ⟨hReached, hRegistered⟩ := hClosed.reached
    obtain ⟨data, left, hStage, hDoomed⟩ :=
      @doomed_of_cut _ _ (shellV2Dialogue stdin) _ _ _ _ _ _ _ (· = .streamClosed) hReached (by
        rw [hUnborn]
        unfold checkCommand
        split_ifs
        · exact id
        · trivial) hCut hRegistered
    have hSevered := @severed_of_closed _ _ _ _ _ _ _ _ _ _ _ _ (· = .streamClosed) hClosed _ _ rfl hStage hDoomed
    refine ⟨fun result hOutcome => ?_, ?_⟩
    · obtain ⟨e, rfl, hResult⟩ := severed_outcome hSevered hOutcome
      exact hResult
    · obtain ⟨e, rfl, hReturns⟩ :=
        @severed_returns _ _ _ _ _ earlier _ _ (· = .streamClosed) rfl hSevered
      exact hReturns
  · intro client hClosed hIdle hSource hUnreturned hFits hReply
    refine refused_outcome hClosed hIdle (fun e hMember text hSame => ?_) hUnreturned hFits hReply
    obtain ⟨io, rfl⟩ := hSource e hMember
    cases hSame

/-- The execution up to a close and of what follows it. -/
private def closing {ρ α : Type} (client : Client (Stage ρ α) α) (ref : Ref) (earlier : List Event)
    (before : Session) (first : List Action) (msg : Message) (second : List Action) :
    Option ((List Event × Session) × (List Event × Session)) := do
  let reached ← Transition.execute step (Serving client ref earlier) [] before first
  let closed ← reached.2.step (.arrive msg)
  if closed.2 = [.dispatched msg (some ref)] then
    let last ← Transition.execute step (Serving client ref earlier) (reached.1 ++ closed.2) closed.1 second
    pure (reached, last)
  else none

/-- What was executed is a run with a close in it. -/
private theorem closed_of_closing {ρ α Seen : Type} {client : Client (Stage ρ α) α} {maxPayload : UInt32}
    {ref : Ref} {earlier : List Event} {before : Session}
    (hCalled : Transition.Runs step (Courteous ref) (start maxPayload) earlier before) (first second : List Action)
    {msg : Message} (hCommand : msg.command = .close)
    (observe : (List Event × Session) × (List Event × Session) → Seen) (seen : Seen)
    (h : (closing client ref earlier before first msg second).map observe = some seen) :
    ∃ prior now trace s, ClosedAt client maxPayload ref earlier before prior now trace s ∧
      observe ((prior, now), (trace, s)) = seen := by
  obtain ⟨⟨⟨prior, now⟩, ⟨trace, s⟩⟩, hClosing, hSeen⟩ := Option.map_eq_some_iff.mp h
  refine ⟨prior, now, trace, s, ?_, hSeen⟩
  obtain ⟨⟨prior', now'⟩, hFirst, hRest⟩ := Option.bind_eq_some_iff.mp hClosing
  obtain ⟨⟨next, events⟩, hTaken, hLater⟩ := Option.bind_eq_some_iff.mp hRest
  simp only at hLater
  split_ifs at hLater with hEvents
  obtain ⟨last, hSecond, hPair⟩ := Option.bind_eq_some_iff.mp hLater
  cases hPair
  obtain rfl : events = _ := hEvents
  refine ClosedAt.executed ?_ second hSecond
  exact .close ⟨hCalled, Transition.Runs.start.execute first hFirst⟩ hCommand hTaken

/-- Open a stream, the device's number 5. -/
private def connected (service : Bytes) : List Action :=
  [.openStream service, .advance 0, .advance 0, .hand, .handed, .arrive (.empty .okay 5 1), .advance 0,
    .advance 0]

/-- Begin to send a message, up to the hand-over of its write. -/
private def sendBegun (message : Bytes) : List Action :=
  [.call 0 (.send message), .advance 0, .advance 0, .advance 0, .hand, .handed]

/-- The device acknowledges the message, and the `send` returns. -/
private def acknowledged : List Action := [.arrive (.empty .okay 5 1), .advance 0]

private def replied (reply : Bytes) : Action := .arrive ⟨.write, 5, 1, reply⟩

/-- The output of a command that reads no input: `hi`, and the exit code 0. -/
private def wholeOutput : Bytes := [1, 2, 0, 0, 0, 104, 105, 3, 1, 0, 0, 0, 0]

/-- The device runs a command that reads no input, and is done while its stdin is sent. -/
private theorem shell_cut : ∃ prior now trace s,
    ClosedAt (shellV2 (ascii "echo hi") [120]) 4096 0 [] (start 4096) prior now trace s ∧
    (CutShort (shellV2 (ascii "echo hi") [120]) 0 [] prior ∧ delivered 0 prior = wholeOutput ∧
      outcome (shellV2 (ascii "echo hi") [120]) 0 trace = some (.error .streamClosed)) := by
  obtain ⟨prior, now, trace, s, hClosed, hSeen⟩ := @closed_of_closing _ _ _
    (shellV2 (ascii "echo hi") [120]) 4096 0 [] _ .start
    (connected (ascii "shell,v2:echo hi") ++ sendBegun [0, 1, 0, 0, 0, 120] ++ [replied wholeOutput])
    [.advance 0, .advance 0, .call 0 .drop] (.empty .close 5 1) rfl
    (fun seen => decide (CutShort (shellV2 (ascii "echo hi") [120]) 0 [] seen.1.1 ∧
      delivered 0 seen.1.1 = wholeOutput ∧
      outcome (shellV2 (ascii "echo hi") [120]) 0 seen.2.1 = some (.error .streamClosed)))
    true (by decide +kernel)
  exact ⟨prior, now, trace, s, hClosed, of_decide_eq_true hSeen⟩

/-- A session with an open `sync:` stream. -/
private def syncOpened : List Event × Session :=
  (Transition.execute step (Courteous 0) [] (start 4096) (connected (ascii "sync:"))).get (by decide)

private theorem syncOpened_run :
    Transition.Runs step (Courteous 0) (start 4096) syncOpened.1 syncOpened.2 :=
  Transition.Runs.executed _ _

/-- A push of the byte 7 to the file `a`. -/
private def onePush : Client (Stage ChannelReader Unit) Unit :=
  SyncClient.pushing ⟨false, false, false⟩ (ascii "a") 0 0 [.ok ⟨[7], by decide⟩] []

private def pushRequest : Bytes := Sync.id.SEND ++ toLeBytes 3 ++ ascii "a,0"

private def pushData : Bytes := Sync.word Sync.id.DATA 1 ++ [7]

private def pushDone : Bytes := Sync.word Sync.id.DONE 0

/-- The device refuses the file with the message `no` and closes the stream. The
push stands where `first` leads to, and goes on with `second`. -/
private def Refuses (first second : List Action) (sent : Bool) (result : Result Unit) : Prop :=
  (closing onePush 0 syncOpened.1 syncOpened.2 (first ++ [replied (failFrame (ascii "no"))])
    (.empty .close 5 1) second).map (fun seen => (outcome onePush 0 seen.1.1,
      decide (unread [] 0 syncOpened.2 seen.1.1 = failFrame (ascii "no")),
      decide (Sent (stage onePush 0 seen.1.1) (seen.1.2.streams 0) (seen.1.2.owners 0)), outcome onePush 0 seen.2.1)) =
    some (none, true, sent, some result)

private theorem push_cut {first second : List Action} {sent : Bool} {result : Result Unit}
    (h : Refuses first second sent result) : ∃ prior now trace s,
    ClosedAt onePush 4096 0 syncOpened.1 syncOpened.2 prior now trace s ∧ outcome onePush 0 prior = none ∧
      unread [] 0 syncOpened.2 prior = failFrame (ascii "no") ++ [] ∧
      decide (Sent (stage onePush 0 prior) (now.streams 0) (now.owners 0)) = sent ∧
      outcome onePush 0 trace = some result := by
  obtain ⟨prior, now, trace, s, hClosed, hSeen⟩ := closed_of_closing syncOpened_run _ _ rfl _ _ h
  simp only [Prod.mk.injEq, decide_eq_true_eq] at hSeen
  obtain ⟨hUnreturned, hUnread, hSent, hResult⟩ := hSeen
  exact ⟨prior, now, trace, s, hClosed, hUnreturned, hUnread.trans (List.append_nil _).symm, hSent, hResult⟩

/-- The file is refused while its data is sent. -/
private theorem refused_data : Refuses (sendBegun pushRequest ++ acknowledged ++ sendBegun pushData)
    [.advance 0, .advance 0] false (.error .streamClosed) := by
  unfold Refuses
  decide +kernel

/-- The file is refused when its request is acknowledged and its data is still to be sent. -/
private theorem refused_between : Refuses (sendBegun pushRequest ++ acknowledged)
    [.call 0 (.send pushData), .advance 0] false (.error .streamClosed) := by
  unfold Refuses
  decide +kernel

/-- The file is refused when all of it is acknowledged, before the last `send` has returned. -/
private theorem refused_done : Refuses (sendBegun pushRequest ++ acknowledged ++ sendBegun pushData ++
      acknowledged ++ sendBegun pushDone ++ [.arrive (.empty .okay 5 1)])
    [.advance 0, .call 0 .recv, .advance 0] true (.error (.remoteFailure (ascii "no"))) := by
  unfold Refuses
  decide +kernel

/-- A command that is done before its input is acknowledged, a push that is refused
between two messages, and one that is refused behind its last. -/
theorem interrupted_write_loses_both :
    (∃ prior trace, CutShort (shellV2 (ascii "echo hi") [120]) 0 [] prior ∧
      ∀ result, outcome (shellV2 (ascii "echo hi") [120]) 0 trace = some result →
        result = .error .streamClosed) ∧
    (∃ (prior trace : List Event) (now : Session), outcome onePush 0 trace = some (.error .streamClosed) ∧
      ¬(Sent (stage onePush 0 prior) (now.streams 0) (now.owners 0) ∧ NoRecvError 0 trace)) ∧
    ∃ (prior trace : List Event) (now : Session),
      outcome onePush 0 trace = some (.error (.remoteFailure (ascii "no"))) ∧
      Sent (stage onePush 0 prior) (now.streams 0) (now.owners 0) ∧ NoRecvError 0 trace := by
  have hSource : ∀ e, (.error e : SourceRead) ∈ [.ok ⟨[7], by decide⟩] → ∃ text, e = .io text := by simp
  obtain ⟨prior, now, trace, s, hClosed, hCut, -, -⟩ := shell_cut
  obtain ⟨prior', now', trace', s', hBetween, hUnreturned, hUnread, -, hResult⟩ := push_cut refused_between
  obtain ⟨prior'', now'', trace'', s'', hDone, hUnreturned', hUnread', -, hResult'⟩ := push_cut refused_done
  have hShell := (interrupted_write_loses_reply _ _ _ _ _ _ _ _).1 _ _ hClosed rfl hCut
  have hLost := ((interrupted_write_loses_reply _ _ _ _ _ _ _ _).2 _ _ _ _ _ _ _ _ hBetween
    (by decide +kernel) hSource hUnreturned (by decide) hUnread).1 _ hResult
  have hTold := ((interrupted_write_loses_reply _ _ _ _ _ _ _ _).2 _ _ _ _ _ _ _ _ hDone
    (by decide +kernel) hSource hUnreturned' (by decide) hUnread').1 _ hResult'
  refine ⟨⟨prior, trace, hCut, hShell.1⟩, ⟨prior', trace', now', hResult, fun hBoth => ?_⟩,
    prior'', trace'', now'', hResult', hTold.mp (by decide +kernel)⟩
  cases hLost.mpr hBoth

/-- A complete output was delivered and `shell_v2` returns an error; the message of
a failure was delivered and the push returns another error. -/
theorem complete_replies_are_lost :
    (¬∀ (command stdin : Bytes) (maxPayload : UInt32) (ref : Ref) (earlier prior trace : List Event)
      (before now s : Session) (frames : List ShellV2.Frame) (code : Bytes),
      ClosedAt (shellV2 command stdin) maxPayload ref earlier before prior now trace s →
      before.owners ref = .unborn → CutShort (shellV2 command stdin) ref earlier prior →
      ShellV2.Encodes frames (delivered ref prior) → frames.getLast? = some ⟨.exit, code⟩ →
      ∀ result, outcome (shellV2 command stdin) ref trace = some result →
        result = .ok (frames.foldl ShellV2.ShellOutput.apply ShellV2.ShellOutput.default)) ∧
    ¬∀ (features : SyncFeatures) (path : Bytes) (mode mtime : UInt32) (source : List SourceRead)
      (maxPayload : UInt32) (ref : Ref) (earlier prior trace : List Event) (before now s : Session)
      (message : Bytes), let client := SyncClient.pushing features path mode mtime source []
      ClosedAt client maxPayload ref earlier before prior now trace s → before.owners ref = .idle →
      outcome client ref prior = none → unread [] ref before prior = failFrame message ++ [] →
      ∀ result, outcome client ref trace = some result →
        result = .error (.remoteFailure (Utf8.lossy message)) := by
  refine ⟨fun hClaim => ?_, fun hClaim => ?_⟩
  · obtain ⟨prior, now, trace, s, hClosed, hCut, hOutput, hResult⟩ := shell_cut
    have hFrames : ShellV2.Encodes [⟨.stdout, [104, 105]⟩, ⟨.exit, [0]⟩]
        ([1, 2, 0, 0, 0, 104, 105] ++ ([3, 1, 0, 0, 0, 0] ++ [])) :=
      .cons (by decide) (.cons (by decide) .nil)
    have hKept := hClaim _ _ _ _ _ _ _ _ _ _ _ [0] hClosed rfl hCut (by rw [hOutput]; exact hFrames)
      rfl _ hResult
    cases hKept
  · obtain ⟨prior, now, trace, s, hClosed, hUnreturned, hUnread, -, hResult⟩ := push_cut refused_data
    have hKept := hClaim ⟨false, false, false⟩ (ascii "a") 0 0 [.ok ⟨[7], by decide⟩] _ _ _ _ _ _ _ _ _ hClosed
      (by decide +kernel) hUnreturned hUnread _ hResult
    cases hKept

end Session
end Rsadb
