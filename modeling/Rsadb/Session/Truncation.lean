import Rsadb.Session.Integrity
import Rsadb.Services.Shell

/-! Services that read a stream to its end. They take `Ok(None)` for the end
that the device gave the stream, and so does this module wherever no `close_all`
interferes; the last theorem shows what a `close_all` does to them. -/
namespace Rsadb

/-- What an event answers to a `recv` on the stream. -/
def Event.answerOf (ref : Ref) : Event → Option (Result (Option Bytes))
  | .owner other report => if other = ref then report.answer else none
  | _ => none

/-- What the calls of `recv` on a stream have returned. -/
def answers (ref : Ref) (trace : List Event) : List (Result (Option Bytes)) :=
  trace.filterMap (Event.answerOf ref)

/-- A stream as a service sees it that has made these calls. -/
def Channel.ofAnswers : List (Result (Option Bytes)) → Channel
  | [] => ⟨[], false, [], fun _ => none, false⟩
  | .ok none :: _ => ⟨[], true, [], fun _ => none, false⟩
  | .ok (some chunk) :: rest =>
      { ofAnswers rest with incoming := .ok chunk :: (ofAnswers rest).incoming }
  | .error e :: rest => { ofAnswers rest with incoming := .error e :: (ofAnswers rest).incoming }

/-- A channel that ends after some chunks has answered with them and then with its end. -/
theorem Channel.answers_of_ends {answers : List (Result (Option Bytes))} {chunks : List Bytes}
    (h : ChannelReader.Ends (ofAnswers answers) chunks) :
    ∃ rest, answers = chunks.map (fun chunk => .ok (some chunk)) ++ .ok none :: rest := by
  obtain ⟨hIncoming, hEnded⟩ := h
  induction answers generalizing chunks with
  | nil => cases hEnded
  | cons answer rest ih =>
      rcases answer with e | (_ | chunk)
      · cases chunks <;> cases hIncoming
      · cases chunks with
        | nil => exact ⟨rest, rfl⟩
        | cons chunk more => cases hIncoming
      · cases chunks with
        | nil => cases hIncoming
        | cons first more =>
            obtain ⟨hFirst, hMore⟩ := List.cons.inj hIncoming
            obtain ⟨later, rfl⟩ := ih hMore hEnded
            cases hFirst
            exact ⟨later, rfl⟩

/-- Where the chunks stop is determined by the answers. -/
private theorem chunks_unique {chunks more : List Bytes} {x y : Result (Option Bytes)}
    {rest after : List (Result (Option Bytes))} (hx : ∀ chunk, x ≠ .ok (some chunk))
    (hy : ∀ chunk, y ≠ .ok (some chunk))
    (h : chunks.map (fun chunk => .ok (some chunk)) ++ x :: rest =
      more.map (fun chunk => .ok (some chunk)) ++ y :: after) : chunks = more ∧ x = y := by
  induction chunks generalizing more with
  | nil =>
      cases more with
      | nil => exact ⟨rfl, (List.cons.inj h).1⟩
      | cons chunk _ => exact absurd (List.cons.inj h).1 (hx chunk)
  | cons chunk chunks ih =>
      cases more with
      | nil => exact absurd (List.cons.inj h).1.symm (hy chunk)
      | cons other more =>
          obtain ⟨hFirst, hRest⟩ := List.cons.inj h
          obtain ⟨rfl, hStop⟩ := ih hRest
          cases hFirst
          exact ⟨rfl, hStop⟩

@[simp] theorem answers_append (ref : Ref) (trace events : List Event) :
    answers ref (trace ++ events) = answers ref trace ++ answers ref events :=
  List.filterMap_append

theorem mem_answers {ref : Ref} {trace : List Event} {answer : Result (Option Bytes)} :
    answer ∈ answers ref trace ↔ ∃ report, .owner ref report ∈ trace ∧ report.answer = some answer := by
  simp only [answers, List.mem_filterMap]
  constructor
  · rintro ⟨event, hMember, hAnswer⟩
    cases event with
    | owner other report =>
        simp only [Event.answerOf] at hAnswer
        split_ifs at hAnswer with hOther
        exact ⟨report, hOther ▸ hMember, hAnswer⟩
    | _ => cases hAnswer
  · rintro ⟨report, hMember, hAnswer⟩
    exact ⟨.owner ref report, hMember, by simpa [Event.answerOf] using hAnswer⟩

theorem endSeen_iff {ref : Ref} {trace : List Event} :
    EndSeen ref trace ↔ .ok none ∈ answers ref trace := by
  rw [mem_answers]
  constructor
  · exact fun hEnd => ⟨_, hEnd, rfl⟩
  · rintro ⟨report, hMember, hAnswer⟩
    rcases report with chunk | _ | (_ | _ | _ | _ | _ | _ | _ | _) <;> cases hAnswer
    exact hMember

theorem noRecvError_iff {ref : Ref} {trace : List Event} :
    NoRecvError ref trace ↔ ∀ e, .error e ∉ answers ref trace := by
  refine ⟨fun h e hMember => ?_, fun h e hMember => h e (mem_answers.mpr ⟨_, hMember, rfl⟩)⟩
  obtain ⟨report, hReport, hAnswer⟩ := mem_answers.mp hMember
  rcases report with chunk | _ | (_ | _ | _ | _ | _ | _ | _ | _) <;> cases hAnswer
  exact h e hReport

/-- The chunks among the answers are the chunks received. -/
theorem received_eq (ref : Ref) (trace : List Event) :
    received ref trace = (answers ref trace).filterMap fun
      | .ok chunk => chunk
      | .error _ => none := by
  rw [received, answers, List.filterMap_filterMap]
  refine List.filterMap_congr fun event _ => ?_
  cases event with
  | owner other report =>
      by_cases hOther : other = ref <;>
        rcases report with chunk | _ | (_ | _ | (_ | chunk) | _ | _ | _ | _ | _) <;>
        simp [Event.receivedBy, Event.answerOf, hOther]
  | _ => rfl

/-- `recv` gives chunks until it reports the end, or fails before that. -/
def Orderly (ref : Ref) (trace : List Event) : Prop :=
  (∃ (chunks : List Bytes) (n : Nat), answers ref trace =
    chunks.map (fun chunk => .ok (some chunk)) ++ List.replicate n (.ok none)) ∨
  ∃ (chunks : List Bytes) (e : Error) (rest : List (Result (Option Bytes))),
    answers ref trace = chunks.map (fun chunk => .ok (some chunk)) ++ .error e :: rest

private theorem answers_events (ref : Ref) (p : OwnerStep) :
    answers ref (Session.events ref p) = p.reports.filterMap Report.answer := by
  have hOwner : answers ref (p.reports.map (Event.owner ref)) = p.reports.filterMap Report.answer := by
    rw [answers, List.filterMap_map]
    refine List.filterMap_congr fun report _ => ?_
    simp [Event.answerOf]
  unfold Session.events
  rw [answers_append, hOwner]
  cases p.effect <;> rfl

private theorem answers_other {ref : Ref} {events : List Event}
    (h : ∀ report, .owner ref report ∉ events) : answers ref events = [] := by
  rw [List.eq_nil_iff_forall_not_mem]
  intro answer hMember
  obtain ⟨report, hReport, -⟩ := mem_answers.mp hMember
  exact h report hReport

/-- One more step answers at most once more, and with a chunk or a failure only
while the end has not been reported. -/
private theorem Orderly.step {maxPayload : UInt32} {clash : Prop} {ref : Ref} {trace events : List Event}
    {v v' : StreamView} (h : Orderly ref trace) (hFlow : NoRecvError ref trace → Flow ref trace v)
    (hStep : ViewStep maxPayload clash ref v events v') : Orderly ref (trace ++ events) := by
  rcases h with ⟨chunks, n, hAnswers⟩ | ⟨chunks, e, rest, hAnswers⟩
  · have hNothing : answers ref events = [] → Orderly ref (trace ++ events) := fun hNone =>
      Or.inl ⟨chunks, n, by rw [answers_append, hNone, List.append_nil, hAnswers]⟩
    have hSilent : ∀ held, v.owner.held = [held] → n = 0 := by
      intro held hHeld
      by_contra hSome
      have hNoError : NoRecvError ref trace := noRecvError_iff.mpr (by simp [hAnswers])
      have hEnd : EndSeen ref trace := endSeen_iff.mpr (by simp [hAnswers, hSome])
      have hNone := ((hFlow hNoError).ended hEnd).2.2.2.1
      rw [hHeld] at hNone
      cases hNone
    cases hStep with
    | other hEvents => exact hNothing (answers_other fun report hMember => hEvents _ hMember rfl)
    | refused hCommand hTarget hId hDeliver hMore =>
        refine hNothing (answers_other fun report hMember => ?_)
        rcases List.mem_cons.mp hMember with hFirst | hRest
        · cases hFirst
        · obtain ⟨refusal, hPosted⟩ := hMore _ hRest
          cases hPosted
    | @own _ p _ hMoves =>
        rw [Orderly, answers_append, hAnswers, answers_events]
        cases hMoves.flow with
        | quiet hQueue hTx hRx hHeld hOwner hEffect hReports =>
            refine Or.inl ⟨chunks, n, ?_⟩
            rcases hReports with hNone | ⟨result, hOne, hNot⟩
            · simp [hNone]
            · rw [hOne, List.filterMap_cons_none hNot]
              simp
        | insert hOwner hMove => exact Or.inl ⟨chunks, n, by simp [hMove]⟩
        | take hOwner hQueue hMove => exact Or.inl ⟨chunks, n, by simp [hMove]⟩
        | close hOwner hMove => exact Or.inl ⟨chunks, n, by simp [hMove]⟩
        | finish hOwner hQueue hTx hMove =>
            refine Or.inl ⟨chunks, n + 1, ?_⟩
            simp [hMove, List.replicate_succ']
        | @give chunk hHeld hState hOwner hEffect hReports =>
            obtain rfl := hSilent chunk hHeld
            exact Or.inl ⟨chunks ++ [chunk], 0, by simp [hReports]⟩
        | @fail chunk e hHeld hOwner hReports =>
            obtain rfl := hSilent chunk hHeld
            exact Or.inr ⟨chunks, e, [], by simp [hReports]⟩
    | _ => exact hNothing (answers_other (by simp))
  · exact Or.inr ⟨chunks, e, rest ++ answers ref events, by simp [hAnswers]⟩

namespace Session

/-- While the owner has not closed the stream and `recv` does not fail, its data is in order. -/
theorem flow_of_unclosed {allowed : List Event → Session → Action → Prop} {maxPayload : UInt32}
    {trace : List Event} {s : Session} {ref : Ref}
    (hRun : Transition.Runs step allowed (start maxPayload) trace s)
    (hUnclosed : .owner ref .closed ∉ trace) (hFailed : NoRecvError ref trace) :
    Flow ref trace (s.view ref) := by
  induction hRun with
  | start => exact Flow.start
  | @next trace s s' _ events hRun hAllowed hTaken ih =>
      rw [List.mem_append, not_or] at hUnclosed
      refine (ih hUnclosed.1 fun e hMember => hFailed e (List.mem_append_left _ hMember)).step
        (step_view (named_of_runs hRun).1 hTaken ref)
        (fun e hMember => hFailed e (List.mem_append_right _ hMember)) fun hClosed => ?_
      exact absurd hClosed hUnclosed.2

theorem orderly_of_runs {allowed : List Event → Session → Action → Prop} {maxPayload : UInt32}
    {trace : List Event} {s : Session} {ref : Ref}
    (hRun : Transition.Runs step allowed (start maxPayload) trace s)
    (hUnclosed : .owner ref .closed ∉ trace) : Orderly ref trace := by
  induction hRun with
  | start => exact Or.inl ⟨[], 0, rfl⟩
  | @next trace s s' _ events hRun hAllowed hTaken ih =>
      rw [List.mem_append, not_or] at hUnclosed
      exact (ih hUnclosed.1).step (flow_of_unclosed hRun hUnclosed.1)
        (step_view (named_of_runs hRun).1 hTaken ref)

end Session

/-- Whether an action starts a `close_all`. -/
def Action.closesAll : Action → Bool
  | .drain => true
  | .close _ => true
  | _ => false

namespace Session

/-- No `close_all` finds the stream in the registry. -/
def Unheld (ref : Ref) (_ : List Event) (s : Session) (action : Action) : Prop :=
  action.closesAll = true → ¬s.Registered ref

instance (ref : Ref) (trace : List Event) (s : Session) (action : Action) :
    Decidable (Unheld ref trace s action) :=
  inferInstanceAs (Decidable (action.closesAll = true → ¬s.get (s.streams ref).localId = some ref))

/-- Only a `close_all` takes streams out of the registry all at once. -/
theorem closesAll_of_drained {s s' : Session} {action : Action} {events : List Event} {refs : List Ref}
    (h : s.step action = some (s', events)) (hMember : .drained refs ∈ events) :
    action.closesAll = true := by
  have hPerform : ∀ ref p, .drained refs ∉ Session.events ref p := by
    intro ref p
    unfold Session.events
    cases p.effect <;> simp
  cases step_cases h with
  | drained | closing => rfl
  | called | advanced => exact absurd hMember (hPerform _ _)
  | @arrived msg =>
      rcases List.mem_cons.mp hMember with hFirst | hRest
      · cases hFirst
      · obtain ⟨refusal, hPosted⟩ := (route_routed s msg).frame.2.2.2.2.2.1 _ hRest
        cases hPosted
  | _ => simp at hMember

/-- The device ended the stream: its close for the stream was dispatched. -/
def DeviceClosed (s : Session) (ref : Ref) (trace : List Event) : Prop :=
  ∃ msg, msg.command = .close ∧ msg.arg1 = (s.streams ref).localId ∧
    .dispatched msg (some ref) ∈ trace

/-- A service that read the stream to its end successfully has all that the
device sent, and the device has closed the stream. -/
def NoTruncation (s : Session) (ref : Ref) (trace : List Event) : Prop :=
  let channel := Channel.ofAnswers (answers ref trace)
  (∀ bytes, Rsadb.drain channel = some (.ok bytes) →
    s.DeviceClosed ref trace ∧ bytes = (inflow ref trace).payloads.flatten) ∧
  ∀ out, collectV2 channel = some (.ok out) →
    s.DeviceClosed ref trace ∧ ∃ frames, ShellV2.Encodes frames (inflow ref trace).payloads.flatten ∧
      out = frames.foldl ShellV2.ShellOutput.apply ShellV2.ShellOutput.default

/-- Nobody but the device has taken the sender of a stream. -/
private def EndedByDevice (ref : Ref) (trace : List Event) (v : StreamView) : Prop :=
  ¬v.pending ∧ (v.state.dataTx = false → ∃ msg, msg.command = .close ∧ msg.arg1 = v.state.localId ∧
    .dispatched msg (some ref) ∈ trace)

/-- As long as the sender stays, nothing has to be shown; a close found before stays. -/
private theorem EndedByDevice.keep {ref : Ref} {trace events : List Event} {v v' : StreamView}
    (h : EndedByDevice ref trace v) (hPending : v'.pending → v.pending)
    (hTx : v'.state.dataTx = false → v.state.dataTx = false) (hId : v'.state.localId = v.state.localId) :
    EndedByDevice ref (trace ++ events) v' := by
  obtain ⟨hNotPending, hDevice⟩ := h
  refine ⟨fun hNow => hNotPending (hPending hNow), fun hLost => ?_⟩
  obtain ⟨msg, hCommand, hArg, hMember⟩ := hDevice (hTx hLost)
  exact ⟨msg, hCommand, hArg.trans hId.symm, List.mem_append_left _ hMember⟩

private theorem EndedByDevice.step {maxPayload : UInt32} {clash : Prop} {ref : Ref}
    {trace events : List Event} {v v' : StreamView} (h : EndedByDevice ref trace v)
    (hStep : ViewStep maxPayload clash ref v events v') (hUnclosed : .owner ref .closed ∉ events)
    (hUnheld : ∀ refs, .drained refs ∈ events → ¬v.registered) :
    EndedByDevice ref (trace ++ events) v' := by
  cases hStep with
  | other hEvents hMissed hState hOwner hLost hStays hPending =>
      exact h.keep hPending.mp (by rw [hState]; exact id) (by rw [hState])
  | born hUnborn hState hOwner hUnregistered hPending =>
      exact ⟨hPending, by rw [hState]; exact Bool.noConfusion⟩
  | @own _ p _ hMoves hState hOwner hRegistered hPending =>
      refine h.keep hPending.mp ?_ (by rw [hState, hMoves.move.localId])
      rw [hState]
      rcases hMoves.custody.flag with ⟨-, hTx⟩ | ⟨-, hReported⟩
      · rw [hTx]
        exact id
      · exact absurd (List.mem_append_right _ (List.mem_map_of_mem hReported)) hUnclosed
  | cancelled hCancel hState hOwner hRegistered hPending =>
      obtain ⟨purpose, seen, hWaiting, hLeft⟩ := Owner.cancel_cases hCancel
      have hSame : v'.state.dataTx = v.state.dataTx ∧ v'.state.localId = v.state.localId := by
        rw [hState]
        rcases hLeft with rfl | rfl <;> exact ⟨rfl, rfl⟩
      exact h.keep hPending.mp (by rw [hSame.1]; exact id) hSame.2
  | acked hCommand hTarget hId hState hOwner hRegistered hPending =>
      exact h.keep hPending.mp (by rw [hState]; exact id) (by rw [hState]; rfl)
  | delivered hCommand hTarget hId hState hOwner hRegistered hPending =>
      obtain ⟨-, -, hSame⟩ := StreamState.deliver_eq hState
      exact h.keep hPending.mp (by rw [hSame]; exact id) (by rw [hSame])
  | refused hCommand hTarget hId hDeliver hMore hState hOwner hRegistered hPending
  | ignored hCommand hTarget hId hState hOwner hRegistered hPending
  | handed hState hOwner hRegistered hPending =>
      exact h.keep hPending.mp (by rw [hState]; exact id) (by rw [hState])
  | ended hCommand hTarget hId hState hOwner hRegistered hPending =>
      refine ⟨fun hNow => h.1 (hPending.mp hNow), fun _ => ?_⟩
      exact ⟨_, hCommand, by rw [hState, hId]; rfl, List.mem_append_right _ List.mem_cons_self⟩
  | drained hMember hTarget => exact absurd hTarget (hUnheld _ List.mem_cons_self)
  | marked hWaited => exact absurd hWaited h.1

/-- A stream that no `close_all` finds and that its owner does not close loses
its sender to nobody but the device. -/
private theorem deviceClosed_of_runs {maxPayload : UInt32} {trace : List Event} {s : Session} {ref : Ref}
    (hRun : Transition.Runs step (Unheld ref) (start maxPayload) trace s)
    (hUnclosed : .owner ref .closed ∉ trace) : EndedByDevice ref trace (s.view ref) := by
  induction hRun with
  | start =>
      exact ⟨by simp [view, Pending, start, Reader.unmarked, Closer.unmarked],
        by simp [view, start, StreamState.fresh]⟩
  | @next trace s s' action events hRun hAllowed hTaken ih =>
      rw [List.mem_append, not_or] at hUnclosed
      apply (ih hUnclosed.1).step (step_view (named_of_runs hRun).1 hTaken ref) hUnclosed.2
      exact fun refs hMember => hAllowed (closesAll_of_drained hTaken hMember)

/-- A service that has read the stream to its end has been told so by `recv`,
after the chunks that it has read. -/
theorem answered_of_ends {maxPayload : UInt32} {allowed : List Event → Session → Action → Prop}
    {trace : List Event} {s : Session} {ref : Ref} {chunks : List Bytes}
    (hRun : Transition.Runs step allowed (start maxPayload) trace s)
    (hUnclosed : .owner ref .closed ∉ trace)
    (hEnds : ChannelReader.Ends (Channel.ofAnswers (answers ref trace)) chunks) :
    chunks = received ref trace ∧ NoRecvError ref trace ∧ EndSeen ref trace := by
  obtain ⟨rest, hAnswers⟩ := Channel.answers_of_ends hEnds
  rcases orderly_of_runs hRun hUnclosed with ⟨received, n, hOrder⟩ | ⟨received, e, after, hOrder⟩
  · rw [hOrder] at hAnswers
    obtain ⟨hChunks, hSome⟩ : received = chunks ∧ n ≠ 0 := by
      cases n with
      | zero =>
          have hStop : .ok none ∈ received.map (fun chunk => (.ok (some chunk) : Result (Option Bytes))) := by
            rw [← List.append_nil (received.map _), ← List.replicate_zero, hAnswers]
            simp
          simp at hStop
      | succ n =>
          rw [List.replicate_succ] at hAnswers
          exact ⟨(chunks_unique (by simp) (by simp) hAnswers).1, Nat.succ_ne_zero n⟩
    have hFailed : NoRecvError ref trace := noRecvError_iff.mpr (by simp [hOrder])
    have hEnd : EndSeen ref trace := endSeen_iff.mpr (by simp [hOrder, hSome])
    refine ⟨?_, hFailed, hEnd⟩
    rw [received_eq, hOrder, hChunks]
    simp
  · rw [hOrder] at hAnswers
    cases (chunks_unique (by simp) (by simp) hAnswers).2

/-- What a service has read to the end is all that was sent to the stream. -/
private theorem received_of_ends {maxPayload : UInt32} {allowed : List Event → Session → Action → Prop}
    {trace : List Event} {s : Session} {ref : Ref} {chunks : List Bytes}
    (hRun : Transition.Runs step allowed (start maxPayload) trace s)
    (hUnclosed : .owner ref .closed ∉ trace)
    (hEnds : ChannelReader.Ends (Channel.ofAnswers (answers ref trace)) chunks) :
    chunks = (inflow ref trace).payloads ∧ (s.streams ref).dataTx = false := by
  obtain ⟨rfl, hFailed, hEnd⟩ := answered_of_ends hRun hUnclosed hEnds
  obtain ⟨hAll, -, -, -, hTx⟩ := (flow_of_unclosed hRun hUnclosed hFailed).ended hEnd
  exact ⟨hAll, hTx⟩

/-- In every run in which no `close_all` finds the stream in the registry, what
was read to the end is complete. -/
theorem no_silent_truncation {maxPayload : UInt32} {trace : List Event} {s : Session} {ref : Ref}
    (hRun : Transition.Runs step (Unheld ref) (start maxPayload) trace s)
    (hUnclosed : .owner ref .closed ∉ trace) : s.NoTruncation ref trace := by
  have hDevice := (deviceClosed_of_runs hRun hUnclosed).2
  constructor
  · intro bytes hDrain
    obtain ⟨chunks, hEnds, rfl⟩ := (drain_ok_iff _ _).mp hDrain
    obtain ⟨rfl, hTx⟩ := received_of_ends hRun hUnclosed hEnds
    exact ⟨hDevice hTx, rfl⟩
  · intro out hCollect
    obtain ⟨chunks, frames, hEnds, hEncodes, hOut⟩ := collectV2_ok hCollect
    obtain ⟨rfl, hTx⟩ := received_of_ends hRun hUnclosed hEnds
    exact ⟨hDevice hTx, frames, hEncodes, hOut⟩

/-- A device opens a stream as its number 5 and sends two bytes. -/
private def opened : List Action :=
  [.openStream (ascii "exec:id"), .advance 0, .advance 0, .arrive (.empty .okay 5 1), .advance 0,
    .advance 0, .arrive ⟨.write, 5, 1, ascii "ab"⟩]

/-- The two bytes, read to the end of the stream. -/
private theorem drain_two_bytes :
    Rsadb.drain (Channel.ofAnswers [.ok (some (ascii "ab")), .ok none]) = some (.ok (ascii "ab")) := by
  decide

/-- The device closes the stream, and its two bytes are the output. -/
theorem no_silent_truncation_closed : ∃ trace s,
    Transition.Runs step (Unheld 0) (start 4096) trace s ∧ s.DeviceClosed 0 trace ∧
      Rsadb.drain (Channel.ofAnswers (answers 0 trace)) = some (.ok (ascii "ab")) := by
  obtain ⟨trace, s, hRun, hTrace⟩ := Transition.Runs.of_execute step (Unheld 0) (start 4096)
    (opened ++ [.call 0 .recv, .advance 0, .advance 0, .arrive (.empty .close 5 1), .call 0 .recv])
    (fun result => result.1) [.registered 0 1, .posted (some 0) ⟨.open, 1, 0, ascii "exec:id" ++ [0]⟩,
      .dispatched (.empty .okay 5 1) (some 0), .owner 0 (.returned .opened),
      .dispatched ⟨.write, 5, 1, ascii "ab"⟩ (some 0), .owner 0 (.took (ascii "ab")),
      .posted (some 0) (.empty .okay 1 5), .owner 0 (.returned (.received (some (ascii "ab")))),
      .dispatched (.empty .close 5 1) (some 0), .owner 0 (.returned (.received none))] (by decide)
  obtain rfl : trace = _ := hTrace
  have hDrain := drain_two_bytes
  exact ⟨_, s, hRun, ((no_silent_truncation hRun (by decide)).1 _ hDrain).1, hDrain⟩

/-- The transport fails, and the two bytes received so far are a success all the same. -/
theorem failed_transport_truncates :
    ¬∀ (maxPayload : UInt32) (trace : List Event) (s : Session), Run maxPayload trace s →
      ∀ ref, .owner ref .closed ∉ trace → s.NoTruncation ref trace := by
  intro hClaim
  obtain ⟨trace, s, hRun, hTrace⟩ := Transition.Runs.of_execute step (fun _ _ _ => True) (start 4096)
    (opened ++ [.fail, .drain, .mark 0, .finish, .call 0 .recv, .advance 0, .call 0 .recv])
    (fun result => result.1) [.registered 0 1, .posted (some 0) ⟨.open, 1, 0, ascii "exec:id" ++ [0]⟩,
      .dispatched (.empty .okay 5 1) (some 0), .owner 0 (.returned .opened),
      .dispatched ⟨.write, 5, 1, ascii "ab"⟩ (some 0), .drained [0], .readerEnded,
      .owner 0 (.took (ascii "ab")), .owner 0 (.returned (.received (some (ascii "ab")))),
      .owner 0 (.returned (.received none))] (by decide)
  obtain rfl : trace = _ := hTrace
  obtain ⟨⟨msg, hCommand, -, hMember⟩, -⟩ :=
    (hClaim 4096 _ s hRun 0 (by decide)).1 _ drain_two_bytes
  simp only [List.mem_cons, Event.dispatched.injEq, reduceCtorEq, List.not_mem_nil, false_or,
    or_false, and_true] at hMember
  rcases hMember with rfl | rfl <;> cases hCommand

end Session
end Rsadb
