import Rsadb.Services.Clients

/-! Two flow controls against each other. A dialogue that sends does not read,
and a device may wait with its acknowledgement until its own payload is
acknowledged. Then each side waits for the other. -/
namespace Rsadb

open Dialogue

/-- The owner sleeps until its write is acknowledged. The device has the write,
and has sent a payload for which no acknowledgement was posted. -/
structure Stuck (l : Ledger) (state : StreamState) (owner : Owner) : Prop where
  parked : ∃ rest seen, owner = .waiting (.writing rest) seen .parked
  asleep : state.wake = false
  unclosed : state.closed = false
  unanswered : l.okays < l.asked
  withheld : l.acknowledgements < l.arrivals

namespace Session

/-- While a payload of the device is not acknowledged, it acknowledges no write and
does not close the stream. The session stays up, and the call is not dropped. -/
def Withholding (ref : Ref) (trace : List Event) (s : Session) : Action → Prop
  | .arrive msg => s.get msg.arg1 = some ref →
      (ledger ref trace).acknowledged < (ledger ref trace).arrivals →
      msg.command ≠ .okay ∧ msg.command ≠ .close
  | .mark other => other ≠ ref
  | .closeMark _ other => other ≠ ref
  | .cancel other => other ≠ ref
  | _ => True

variable {maxPayload : UInt32} {ref : Ref} {earlier trace : List Event} {before s : Session}
  {allowed : List Event → Session → Action → Prop}

private theorem stuck_step {action : Action} {l : Ledger} {state : StreamState} {owner : Owner}
    (hRun : Transition.Runs step allowed (start maxPayload) trace s)
    (hAllowed : Withholding ref trace s action)
    (hStep : AccountStep s ref action (ledger ref trace) l state owner)
    (hStuck : Stuck (ledger ref trace) (s.streams ref) (s.owners ref)) : Stuck l state owner := by
  obtain ⟨⟨rest, seen, hParked⟩, hAsleep, hOpen, hUnanswered, hWithheld⟩ := id hStuck
  have hWaits : (ledger ref trace).acknowledged < (ledger ref trace).arrivals :=
    Nat.lt_of_le_of_lt (handed_counts hRun ref).2 hWithheld
  cases hStep with
  | same => exact hStuck
  | born hUnborn =>
      rw [hParked] at hUnborn
      cases hUnborn
  | moved hMove =>
      rw [hParked] at hMove
      cases hMove with
      | woken hWake =>
          rw [hAsleep] at hWake
          cases hWake
  | cancelled hCancel hAction =>
      rw [hAction] at hAllowed
      exact absurd rfl hAllowed
  | acked hCommand hAction hTarget =>
      rw [hAction] at hAllowed
      exact absurd hCommand (hAllowed hTarget hWaits).1
  | ended hCommand hAction hTarget =>
      rw [hAction] at hAllowed
      exact absurd hCommand (hAllowed hTarget hWaits).2
  | delivered | refused =>
      exact ⟨⟨rest, seen, hParked⟩, hAsleep, hOpen, hUnanswered, Nat.lt_succ_of_lt hWithheld⟩
  | @handed msg =>
      refine ⟨⟨rest, seen, hParked⟩, hAsleep, hOpen, Nat.lt_of_lt_of_le hUnanswered ?_, hWithheld⟩
      simp only [Ledger.asked, Ledger.hand, List.countP_append]
      exact Nat.le_add_right _ _
  | marked hAction =>
      cases action <;> cases hAction <;> exact absurd rfl hAllowed

/-- A stuck stream stays stuck as long as the device withholds its acknowledgement,
whatever the session does meanwhile. -/
theorem stuck_stays (hRun : Transition.Runs step allowed (start maxPayload) earlier before)
    (hStuck : Stuck (ledger ref earlier) (before.streams ref) (before.owners ref))
    (hMore : Transition.Runs step (fun trace s action => Withholding ref (earlier ++ trace) s action)
      before trace s) :
    Stuck (ledger ref (earlier ++ trace)) (s.streams ref) (s.owners ref) := by
  induction hMore with
  | start =>
      rw [List.append_nil]
      exact hStuck
  | next hSoFar hAllowed hTaken ih =>
      have hWhole : Transition.Runs step (fun _ _ _ => True) (start maxPayload) _ _ :=
        (hRun.mono fun _ _ _ _ => trivial).append (hSoFar.mono fun _ _ _ _ => trivial)
      rw [← List.append_assoc]
      exact stuck_step hWhole hAllowed (step_account (named_of_runs hWhole).1 hTaken ref _) ih

/-- A session with one stream. -/
private def solo (maxPayload : UInt32) (state : StreamState) (owner : Owner) (registry : Registry)
    (outbox : List (Option Ref × Message)) (writer : Writer) : Session :=
  { start maxPayload with
    streams := Function.update (start maxPayload).streams 0 state
    owners := Function.update (start maxPayload).owners 0 owner
    nextRef := 1
    nextId := 2
    registry := registry
    outbox := outbox
    writer := writer }

section

variable {state : StreamState} {owner : Owner} {registry : Registry}
  {outbox : List (Option Ref × Message)} {writer : Writer}

private theorem solo_open {service : Bytes} (hService : 0 ∉ service) :
    (start maxPayload).step (.openStream service) =
      some (solo maxPayload (.fresh 1) (.inserting service) ∅ [] .waiting, []) := by
  simp only [step, if_neg hService]
  rfl

private theorem solo_perform (p : OwnerStep) :
    (solo maxPayload state owner registry outbox writer).perform 0 p =
      (solo maxPayload p.state p.owner
        (match p.effect with
          | .insert => registry.insert p.state.localId 0
          | .remove => registry.erase p.state.localId
          | _ => registry)
        (match p.effect with
          | .post msg => outbox ++ [(some 0, msg)]
          | _ => outbox) writer, events 0 p) := by
  cases hEffect : p.effect <;>
    simp [perform, solo, setStream, setOwner, hEffect, Function.update_idem]

private theorem solo_advance {p : OwnerStep}
    (h : owner.advance maxPayload (decide (writer ≠ .ended)) state = some p) :
    (solo maxPayload state owner registry outbox writer).step (.advance 0) =
      some ((solo maxPayload state owner registry outbox writer).perform 0 p) := by
  let s := solo maxPayload state owner registry outbox writer
  have hAdvance : (s.owners 0).advance s.maxPayload s.outboxOpen (s.streams 0) = some p := h
  simp only [step]
  rw [hAdvance]
  rfl

private theorem solo_call {call : StreamCall} {p : OwnerStep} (h : Owner.begin state call = some p) :
    (solo maxPayload state .idle registry outbox writer).step (.call 0 call) =
      some ((solo maxPayload state .idle registry outbox writer).perform 0 p) := by
  let s := solo maxPayload state .idle registry outbox writer
  have hBegin : Owner.begin (s.streams 0) call = some p := h
  have hIdle : s.owners 0 = .idle := rfl
  simp only [step]
  rw [if_pos hIdle, hBegin]
  rfl

private theorem solo_okay (remote : UInt32) :
    (solo maxPayload state owner ((∅ : Registry).insert 1 0) outbox writer).step
      (.arrive (.empty .okay remote 1)) =
      some (solo maxPayload (state.ack remote) owner ((∅ : Registry).insert 1 0) outbox writer,
        [.dispatched (.empty .okay remote 1) (some 0)]) := by
  have hGet : (solo maxPayload state owner ((∅ : Registry).insert 1 0) outbox writer).get 1 = some 0 := rfl
  have hReading : (solo maxPayload state owner ((∅ : Registry).insert 1 0) outbox writer).reader =
    .reading := rfl
  simp only [step, hReading, ↓reduceIte, dispatch, route, Message.empty, hGet]
  simp [solo, setStream]

private theorem solo_deliver {remote : UInt32} {payload : Bytes} (hTx : state.dataTx = true)
    (hRx : state.dataRx = true) :
    (solo maxPayload state owner ((∅ : Registry).insert 1 0) outbox writer).step
      (.arrive ⟨.write, remote, 1, payload⟩) =
      some (solo maxPayload { state with queue := state.queue ++ [payload] } owner
        ((∅ : Registry).insert 1 0) outbox writer, [.dispatched ⟨.write, remote, 1, payload⟩ (some 0)]) := by
  have hGet : (solo maxPayload state owner ((∅ : Registry).insert 1 0) outbox writer).get 1 = some 0 := rfl
  have hReading : (solo maxPayload state owner ((∅ : Registry).insert 1 0) outbox writer).reader =
    .reading := rfl
  simp only [step, hReading, ↓reduceIte, dispatch, route, hGet]
  simp [solo, setStream, StreamState.deliver, hTx, hRx]

private theorem solo_hand {source : Option Ref} {msg : Message} :
    (solo maxPayload state owner registry ((source, msg) :: outbox) .waiting).step .hand =
      some (solo maxPayload state owner registry outbox .sending, [.handed source msg]) := rfl

private theorem solo_handed : (solo maxPayload state owner registry outbox .sending).step .handed =
    some (solo maxPayload state owner registry outbox .waiting, []) := rfl

/-- A run with one stream and its client. -/
private def Alone {ρ α : Type} (client : Client (Stage ρ α) α) (maxPayload : UInt32) (trace : List Event)
    (s : Session) : Prop :=
  Transition.Runs step (Serving client 0 []) (start maxPayload) trace s

namespace Alone

variable {ρ α : Type} {client : Client (Stage ρ α) α}

private theorem advance (h : Alone client maxPayload trace (solo maxPayload state owner registry outbox writer))
    {p : OwnerStep} (hAdvance : owner.advance maxPayload (decide (writer ≠ .ended)) state = some p) :
    Alone client maxPayload (trace ++ events 0 p) (solo maxPayload p.state p.owner
      (match p.effect with
        | .insert => registry.insert p.state.localId 0
        | .remove => registry.erase p.state.localId
        | _ => registry)
      (match p.effect with
        | .post msg => outbox ++ [(some 0, msg)]
        | _ => outbox) writer) := by
  have hAllowed : Serving client 0 [] trace (solo maxPayload state owner registry outbox writer)
      (.advance 0) := ⟨trivial, fun c hMember => by cases hMember⟩
  exact Transition.Runs.next h hAllowed ((solo_advance hAdvance).trans (congrArg some (solo_perform p)))

private theorem hand {msg : Message}
    (h : Alone client maxPayload trace (solo maxPayload state owner registry ((some 0, msg) :: outbox) .waiting)) :
    Alone client maxPayload (trace ++ [.handed (some 0) msg] ++ [])
      (solo maxPayload state owner registry outbox .waiting) := by
  have hHand : ∀ {trace : List Event} {s : Session}, Serving client 0 [] trace s .hand :=
    ⟨trivial, fun c hMember => by cases hMember⟩
  have hHanded : ∀ {trace : List Event} {s : Session}, Serving client 0 [] trace s .handed :=
    ⟨trivial, fun c hMember => by cases hMember⟩
  exact (Transition.Runs.next h hHand solo_hand).next hHanded solo_handed

private theorem call {call : StreamCall} {p : OwnerStep}
    (h : Alone client maxPayload trace (solo maxPayload state .idle registry outbox writer))
    (hAsks : client.asks (stage client 0 trace) = some (.use call))
    (hBegin : Owner.begin state call = some p) :
    Alone client maxPayload (trace ++ events 0 p) (solo maxPayload p.state p.owner
      (match p.effect with
        | .insert => registry.insert p.state.localId 0
        | .remove => registry.erase p.state.localId
        | _ => registry)
      (match p.effect with
        | .post msg => outbox ++ [(some 0, msg)]
        | _ => outbox) writer) := by
  have hAllowed : Serving client 0 [] trace (solo maxPayload state .idle registry outbox writer)
      (.call 0 call) := by
    refine ⟨trivial, fun c hMember => ?_⟩
    cases hMember
    exact hAsks
  exact Transition.Runs.next h hAllowed ((solo_call hBegin).trans (congrArg some (solo_perform p)))

private theorem okay (remote : UInt32)
    (h : Alone client maxPayload trace (solo maxPayload state owner ((∅ : Registry).insert 1 0) outbox writer))
    (hAsked : (ledger 0 trace).okays < (ledger 0 trace).asked) :
    Alone client maxPayload (trace ++ [.dispatched (.empty .okay remote 1) (some 0)])
      (solo maxPayload (state.ack remote) owner ((∅ : Registry).insert 1 0) outbox writer) := by
  have hAllowed : Serving client 0 [] trace (solo maxPayload state owner ((∅ : Registry).insert 1 0) outbox
      writer) (.arrive (.empty .okay remote 1)) := by
    refine ⟨fun _ => ⟨fun _ => hAsked, fun hWrite => ?_⟩, fun c hMember => ?_⟩
    · cases hWrite
    · cases hMember
  exact Transition.Runs.next h hAllowed (solo_okay remote)

private theorem deliver (remote : UInt32) (payload : Bytes)
    (h : Alone client maxPayload trace (solo maxPayload state owner ((∅ : Registry).insert 1 0) outbox writer))
    (hTx : state.dataTx = true) (hRx : state.dataRx = true)
    (hSettled : (ledger 0 trace).arrivals ≤ (ledger 0 trace).acknowledged) :
    Alone client maxPayload (trace ++ [.dispatched ⟨.write, remote, 1, payload⟩ (some 0)])
      (solo maxPayload { state with queue := state.queue ++ [payload] } owner
        ((∅ : Registry).insert 1 0) outbox writer) := by
  have hAllowed : Serving client 0 [] trace (solo maxPayload state owner ((∅ : Registry).insert 1 0) outbox
      writer) (.arrive ⟨.write, remote, 1, payload⟩) := by
    refine ⟨fun _ => ⟨fun hOkay => ?_, fun _ => hSettled⟩, fun c hMember => ?_⟩
    · cases hOkay
    · cases hMember
  exact Transition.Runs.next h hAllowed (solo_deliver hTx hRx)

end Alone

end

/-- What happens while the device opens the stream as its number 5. -/
private def openingTrace (service : Bytes) : List Event :=
  [.registered 0 1, .posted (some 0) ⟨.open, 1, 0, service ++ [0]⟩,
    .handed (some 0) ⟨.open, 1, 0, service ++ [0]⟩, .dispatched (.empty .okay 5 1) (some 0),
    .owner 0 (.returned .opened)]

/-- A frame of output: the prompt of a command that will read its stdin. -/
private def prompt : Bytes := [1, 2, 0, 0, 0, 36, 32]

/-- What happens until the first write is handed over. The device has spoken before. -/
private def writingTrace (service chunk : Bytes) : List Event :=
  openingTrace service ++ [.dispatched ⟨.write, 5, 1, prompt⟩ (some 0),
    .posted (some 0) ⟨.write, 1, 5, chunk⟩, .handed (some 0) ⟨.write, 1, 5, chunk⟩]

private theorem alone_opened {ρ α : Type} {d : Dialogue ρ α} {service : Bytes} (maxPayload : UInt32)
    (hService : 0 ∉ service) :
    Alone (d.client (.opening service)) maxPayload (openingTrace service)
      (solo maxPayload ⟨1, 5, false, 1, true, true, [], true⟩ .idle ((∅ : Registry).insert 1 0) []
        .waiting) := by
  have hStart : Alone (d.client (.opening service)) maxPayload [] (start maxPayload) := .start
  have hAsks : Serving (d.client (.opening service)) 0 [] [] (start maxPayload) (.openStream service) := by
    refine ⟨trivial, fun c hMember => ?_⟩
    cases hMember
    rfl
  have hBorn : Alone (d.client (.opening service)) maxPayload []
      (solo maxPayload (.fresh 1) (.inserting service) ∅ [] .waiting) :=
    hStart.next hAsks (solo_open hService)
  have hRequested := ((hBorn.advance rfl).advance rfl).hand
  exact ((hRequested.okay 5 Nat.zero_lt_one).advance rfl).advance rfl

/-- Whatever a dialogue sends first, there is a run in which it is stuck with it. -/
private theorem stuck_in_first_send {ρ α : Type} {d : Dialogue ρ α} {service data : Bytes}
    {rest : List (Result Bytes)} (maxPayload : UInt32) (hService : 0 ∉ service)
    (hScript : d.script = .ok data :: rest) (hData : data ≠ []) :
    ∃ trace s, ClientRun (d.client (.opening service)) maxPayload 0 [] (start maxPayload) trace s ∧
      Stuck (ledger 0 trace) (s.streams 0) (s.owners 0) ∧
      stage (d.client (.opening service)) 0 trace = .sending data rest := by
  -- The command has something to say before it reads.
  have hDelivered := (@alone_opened _ _ d _ maxPayload hService).deliver 5 prompt rfl rfl (Nat.le_refl 0)
  have hSpoken : d.speak d.script = .sending data rest := by rw [hScript]; rfl
  obtain ⟨head, tail, rfl⟩ := List.exists_cons_of_ne_nil hData
  have hBegin : ∀ state, Owner.begin state (.send (head :: tail)) =
      some ⟨state, .writing (head :: tail), .nothing, []⟩ := fun _ => rfl
  have hSending := hDelivered.call (by
    show asks (d.speak d.script) = _
    rw [hSpoken]
    rfl) (hBegin _)
  have hWritten : Alone (d.client (.opening service)) maxPayload
      (writingTrace service ((head :: tail).take (min (head :: tail).length maxPayload.toNat)))
      (solo maxPayload ⟨1, 5, false, 1, true, true, [prompt], true⟩
        (.waiting (.writing ((head :: tail).drop (min (head :: tail).length maxPayload.toNat))) 1 .acks)
        ((∅ : Registry).insert 1 0) [] .waiting) :=
    (((hSending.advance rfl).advance rfl).advance rfl).hand
  -- The permit of the first acknowledgement is still there, so the owner looks twice.
  have hWoken := ((hWritten.advance rfl).advance rfl).advance rfl
  have hParked : Alone (d.client (.opening service)) maxPayload
      (writingTrace service ((head :: tail).take (min (head :: tail).length maxPayload.toNat)))
      (solo maxPayload ⟨1, 5, false, 1, false, true, [prompt], true⟩
        (.waiting (.writing ((head :: tail).drop (min (head :: tail).length maxPayload.toNat))) 1 .parked)
        ((∅ : Registry).insert 1 0) [] .waiting) := (hWoken.advance rfl).advance rfl
  refine ⟨_, _, ⟨.start, hParked⟩, ⟨⟨_, _, rfl⟩, rfl, rfl, ?_, ?_⟩, ?_⟩
  · exact Nat.one_lt_two
  · exact Nat.zero_lt_one
  · exact hSpoken

/-- A stuck owner is in a `send`, and so is its dialogue. -/
private theorem sending_of_stuck {ρ α : Type} {d : Dialogue ρ α} {initial : Stage ρ α}
    (h : ClientRun (d.client initial) maxPayload ref earlier before trace s)
    (hInitial : Fits initial (before.owners ref))
    (hStuck : Stuck (ledger ref (earlier ++ trace)) (s.streams ref) (s.owners ref)) :
    ∃ data rest, stage (d.client initial) ref trace = .sending data rest := by
  have hFits := fits_of_runs h hInitial
  obtain ⟨unsent, seen, hParked⟩ := hStuck.parked
  rw [hParked] at hFits
  revert hFits
  cases stage (d.client initial) ref trace with
  | sending data rest => exact fun _ => ⟨data, rest, rfl⟩
  | opening service => exact fun hFits => hFits.elim
  | _ => exact fun hFits => absurd trivial hFits

private theorem fits_shellV2 (command : Bytes) : Fits (match checkCommand command with
    | .ok () => (.opening (ascii "shell,v2:" ++ command) : Stage (ShellV2.Parser × ShellV2.ShellOutput)
        ShellV2.ShellOutput)
    | .error e => .returned (.error e)) .unborn := by
  unfold checkCommand
  split_ifs
  · exact id
  · trivial

/-- A call of `shell_v2` that is stuck has a command without a NUL, and is at a
message that no error of its script precedes. -/
private theorem script_of_stuck {command stdin : Bytes}
    (h : ClientRun (shellV2 command stdin) maxPayload ref earlier before trace s)
    (hUnborn : before.owners ref = .unborn)
    (hStuck : Stuck (ledger ref (earlier ++ trace)) (s.streams ref) (s.owners ref)) :
    0 ∉ command ∧ ∃ data rest, stage (shellV2 command stdin) ref trace = .sending data rest ∧
      ∃ sent : List Bytes, stdinScript stdin = sent.map .ok ++ .ok data :: rest := by
  obtain ⟨data, rest, hStage⟩ := sending_of_stuck h (hUnborn ▸ fits_shellV2 command) hStuck
  refine ⟨fun hNul => ?_, data, rest, hStage, sending_of_script ?_ _ hStage⟩
  · have hReturned : ∀ given, (shellV2 command stdin).after given =
        .returned (.error (.invalidArgument "command contains NUL")) := by
      refine @Process.after_invariant _ _ _ _ (shellV2 command stdin) (· = .returned _) ?_
        fun stage result hStage => ?_
      · show (match checkCommand command with | .ok () => _ | .error e => _) = _
        rw [checkCommand, if_pos hNul]
      · rw [hStage]
        cases result <;> rfl
    have hNow := (hReturned (returns ref trace)).symm.trans hStage
    cases hNow
  · intro data rest hSending
    unfold checkCommand at hSending
    split_ifs at hSending

/-- Unless the stdin is too long, `shell_v2` has something to send. -/
private theorem stdinScript_first {stdin : Bytes} (hFits : stdin.length < 2 ^ 32) :
    ∃ data rest, stdinScript stdin = .ok data :: rest ∧ data ≠ [] ∧
      (stdin ≠ [] → ShellV2.encode .stdin stdin = .ok data) := by
  unfold stdinScript
  split_ifs with hNone
  · exact ⟨_, [], rfl, by simp, fun hSome => absurd hNone hSome⟩
  · have hEncode : ShellV2.encode .stdin stdin = .ok _ := if_pos hFits
    exact ⟨_, [ShellV2.encode .closeStdin []], by rw [hEncode]; rfl, by simp, fun _ => hEncode⟩

/-- A call of `shell_v2` that sends anything can be stuck with its first frame. -/
private theorem shellV2_stuck {command stdin : Bytes} (maxPayload : UInt32) (hCommand : 0 ∉ command)
    {data : Bytes} {rest : List (Result Bytes)} (hScript : stdinScript stdin = .ok data :: rest)
    (hData : data ≠ []) :
    ∃ trace s, ClientRun (shellV2 command stdin) maxPayload 0 [] (start maxPayload) trace s ∧
      Stuck (ledger 0 trace) (s.streams 0) (s.owners 0) ∧
      stage (shellV2 command stdin) 0 trace = .sending data rest := by
  have hService : 0 ∉ ascii "shell,v2:" ++ command := by
    rw [List.mem_append, not_or]
    exact ⟨by decide, hCommand⟩
  have hClient : shellV2 command stdin =
      (shellV2Dialogue stdin).client (.opening (ascii "shell,v2:" ++ command)) := by
    rw [shellV2, checkCommand, if_neg hCommand]
  rw [hClient]
  exact stuck_in_first_send maxPayload hService hScript hData

/-- When `shell_v2` can be stuck on its stdin: whenever it sends anything. It sends
nothing for a command with a NUL and for a stdin that does not fit into a frame;
the frame of the stdin itself is left out when there is none. -/
theorem shellV2_stuck_iff (command stdin : Bytes) (maxPayload : UInt32) :
    ((∀ {ref : Ref} {earlier trace : List Event} {before s : Session},
      ClientRun (shellV2 command stdin) maxPayload ref earlier before trace s →
      before.owners ref = .unborn →
      ¬Stuck (ledger ref (earlier ++ trace)) (s.streams ref) (s.owners ref)) ↔
      0 ∈ command ∨ 2 ^ 32 ≤ stdin.length) ∧
    ((∀ {ref : Ref} {earlier trace : List Event} {before s : Session} {frame : Bytes}
      {rest : List (Result Bytes)},
      ClientRun (shellV2 command stdin) maxPayload ref earlier before trace s →
      before.owners ref = .unborn → ShellV2.encode .stdin stdin = .ok frame →
      stage (shellV2 command stdin) ref trace = .sending frame rest →
      ¬Stuck (ledger ref (earlier ++ trace)) (s.streams ref) (s.owners ref)) ↔
      0 ∈ command ∨ 2 ^ 32 ≤ stdin.length ∨ stdin = []) := by
  have hLong : 2 ^ 32 ≤ stdin.length → ∀ (sent : List Bytes) (data : Bytes) (rest : List (Result Bytes)),
      stdinScript stdin ≠ sent.map .ok ++ .ok data :: rest := by
    intro hLength sent data rest hScript
    have hSome : stdin ≠ [] := by
      rintro rfl
      simp at hLength
    rw [stdinScript, if_neg hSome, ShellV2.encode, if_neg (Nat.not_lt.mpr hLength)] at hScript
    cases sent <;> cases hScript
  refine ⟨⟨fun hNever => ?_, ?_⟩, ⟨fun hNever => ?_, ?_⟩⟩
  · by_contra hSends
    obtain ⟨hCommand, hLength⟩ := not_or.mp hSends
    obtain ⟨data, rest, hScript, hData, -⟩ := stdinScript_first (Nat.lt_of_not_le hLength)
    obtain ⟨trace, s, hRun, hStuck, -⟩ := shellV2_stuck maxPayload hCommand hScript hData
    exact hNever hRun rfl hStuck
  · intro hSilent ref earlier trace before s hRun hUnborn hStuck
    obtain ⟨hCommand, data, rest, -, sent, hScript⟩ := script_of_stuck hRun hUnborn hStuck
    rcases hSilent with hNul | hLength
    · exact hCommand hNul
    · exact hLong hLength sent data rest hScript
  · by_contra hSends
    obtain ⟨hCommand, hRest⟩ := not_or.mp hSends
    obtain ⟨hLength, hSome⟩ := not_or.mp hRest
    obtain ⟨data, rest, hScript, hData, hFrame⟩ := stdinScript_first (Nat.lt_of_not_le hLength)
    obtain ⟨trace, s, hRun, hStuck, hStage⟩ := shellV2_stuck maxPayload hCommand hScript hData
    exact hNever hRun rfl (hFrame hSome) hStage hStuck
  · intro hSilent ref earlier trace before s frame rest hRun hUnborn hFrame hStage hStuck
    obtain ⟨hCommand, data, rest', hNow, sent, hScript⟩ := script_of_stuck hRun hUnborn hStuck
    rw [hStage] at hNow
    cases hNow
    rcases hSilent with hNul | hLength | rfl
    · exact hCommand hNul
    · exact hLong hLength sent _ _ hScript
    · have hClose : stdinScript [] = [.ok [4, 0, 0, 0, 0]] := rfl
      have hEmpty : ShellV2.encode .stdin [] = .ok [0, 0, 0, 0, 0] := rfl
      rw [hClose] at hScript
      rw [hEmpty] at hFrame
      cases hFrame
      rcases sent with _ | ⟨first, more⟩
      · cases hScript
      · cases more <;> cases hScript

/-- Twelve bytes of stdin, one more than the first write takes behind the header of the frame. -/
private def catInput : Bytes := ascii "hello, hello"

/-- `cat` takes the first write and echoes it, and takes no more until its echo is read. -/
private def catRun : List Action :=
  [.openStream (ascii "shell,v2:cat"), .advance 0, .advance 0, .hand, .handed, .arrive (.empty .okay 5 1),
    .advance 0, .advance 0, .call 0 (.send ([0, 12, 0, 0, 0] ++ catInput)), .advance 0, .advance 0,
    .advance 0, .hand, .handed, .arrive (.empty .okay 5 1), .advance 0,
    .arrive ⟨.write, 5, 1, [1, 11, 0, 0, 0] ++ catInput.take 11⟩, .advance 0, .advance 0, .advance 0,
    .hand, .handed, .advance 0, .advance 0, .advance 0, .advance 0, .advance 0]

/-- An echoing command and a stdin of two writes: the second one is never acknowledged. -/
theorem cat_is_stuck : ¬∀ (command stdin : Bytes) (maxPayload : UInt32) (ref : Ref)
    (earlier trace : List Event) (before s : Session),
    ClientRun (shellV2 command stdin) maxPayload ref earlier before trace s →
    before.owners ref = .unborn →
    ¬Stuck (ledger ref (earlier ++ trace)) (s.streams ref) (s.owners ref) := by
  intro hClaim
  obtain ⟨trace, s, hRun, hSeen⟩ := Transition.Runs.of_execute step
    (Serving (shellV2 (ascii "cat") catInput) 0 []) (start 16) catRun
    (fun result => (result.2.owners 0, result.2.streams 0, ledger 0 result.1))
    (.waiting (.writing []) 2 .parked,
      ⟨1, 5, false, 2, false, true, [[1, 11, 0, 0, 0] ++ catInput.take 11], true⟩,
      ⟨[⟨.open, 1, 0, ascii "shell,v2:cat" ++ [0]⟩,
          ⟨.write, 1, 5, [0, 12, 0, 0, 0] ++ catInput.take 11⟩, ⟨.write, 1, 5, catInput.drop 11⟩],
        [⟨.open, 1, 0, ascii "shell,v2:cat" ++ [0]⟩,
          ⟨.write, 1, 5, [0, 12, 0, 0, 0] ++ catInput.take 11⟩, ⟨.write, 1, 5, catInput.drop 11⟩],
        2, 1, 0, 2⟩) (by decide +kernel)
  obtain ⟨hOwner, hState⟩ := Prod.mk.inj hSeen
  obtain ⟨hStream, hLedger⟩ := Prod.mk.inj hState
  refine hClaim _ _ _ 0 [] trace _ s ⟨.start, hRun⟩ rfl ?_
  rw [List.nil_append, show ledger 0 trace = _ from hLedger, show s.streams 0 = _ from hStream,
    show s.owners 0 = _ from hOwner]
  exact ⟨⟨_, _, rfl⟩, rfl, rfl, by decide, by decide⟩

end Session
end Rsadb
