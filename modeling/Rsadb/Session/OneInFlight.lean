import Rsadb.Session.FlowControl

/-! One payload in flight in each direction, with a device that keeps to it. A
dropped `send` leaves a write behind, and the next one does not wait for it. -/
namespace Rsadb.Session

/-- The device acknowledges what reached it, each message at most once, and sends
a payload only when its last one was acknowledged. No pending call is dropped.
What a device sends after its CLSE reaches no stream and needs no rule. -/
def Mannered (trace : List Event) (s : Session) : Action → Prop
  | .arrive msg => ∀ ref ∈ s.get msg.arg1,
      (msg.command = .okay → (ledger ref trace).okays < (ledger ref trace).asked) ∧
      (msg.command = .write → (ledger ref trace).arrivals ≤ (ledger ref trace).acknowledged)
  | .cancel _ => False
  | _ => True

/-- The device acknowledges what reached it, each message at most once. Calls are
dropped at will, but a `send` of something on an open stream begins only when all
that was posted before on the stream is acknowledged. -/
def Cautious (trace : List Event) (s : Session) : Action → Prop
  | .arrive msg => ∀ ref ∈ s.get msg.arg1, msg.command = .okay →
      (ledger ref trace).okays < (ledger ref trace).asked
  | .call ref (.send data) => data ≠ [] → (s.streams ref).closed = false → (ledger ref trace).outstanding = 0
  | _ => True

/-- The device of `Cautious`, with owners that do as they like. -/
def Answered (trace : List Event) (s : Session) : Action → Prop
  | .arrive msg => ∀ ref ∈ s.get msg.arg1, msg.command = .okay →
      (ledger ref trace).okays < (ledger ref trace).asked
  | _ => True

instance (trace : List Event) (s : Session) (action : Action) : Decidable (Mannered trace s action) := by
  rcases action <;> unfold Mannered <;> infer_instance

instance (trace : List Event) (s : Session) (action : Action) : Decidable (Cautious trace s action) := by
  rcases action with _ | ⟨_, _ | _ | _ | _⟩ <;> unfold Cautious <;> infer_instance

instance (trace : List Event) (s : Session) (action : Action) : Decidable (Answered trace s action) := by
  rcases action <;> unfold Answered <;> infer_instance

variable {maxPayload : UInt32} {trace : List Event} {s : Session}

/-- With a mannered device flow control holds, and everything is settled between calls. -/
theorem settled_of_mannered (hRun : Transition.Runs step Mannered (start maxPayload) trace s) (ref : Ref) :
    Regulated (ledger ref trace) (s.streams ref) (s.owners ref) ∧
      Settled (ledger ref trace) (s.streams ref) (s.owners ref) :=
  settled_of_answers (fun _ _ _ hAllowed hTarget => (hAllowed ref hTarget).1) (fun _ _ => id) hRun

/-- With a mannered device at most one payload more arrives than was acknowledged. -/
theorem arrivals_of_mannered (hRun : Transition.Runs step Mannered (start maxPayload) trace s) (ref : Ref) :
    (ledger ref trace).arrivals ≤ (ledger ref trace).acknowledged + 1 := by
  refine @account_invariant _ _ (fun l _ _ => l.arrivals ≤ l.acknowledged + 1) ref (Nat.zero_le _) ?_ _ _ hRun
  intro trace s action l state owner hRun hAllowed hStep hArrivals
  cases hStep with
  | same | born | cancelled | acked | ended | marked => exact hArrivals
  | @moved _ p =>
      obtain ⟨-, hSame, hHanded⟩ := (ledger ref trace).enter_frame p
      rw [hSame, Ledger.acknowledged, hHanded]
      exact hArrivals
  | delivered hCommand hAction hTarget | refused hCommand hAction hTarget =>
      subst hAction
      exact Nat.succ_le_succ ((hAllowed ref hTarget).2 hCommand)
  | @handed msg =>
      refine Nat.le_trans hArrivals (Nat.succ_le_succ ?_)
      simp only [Ledger.acknowledged, Ledger.hand, List.countP_append]
      exact Nat.le_add_right _ _

/-- Outgoing flow control. With a mannered device and no dropped calls, in every
state of every run and for every stream: its owner has posted OPEN, then WRTE and
OKAY with the adopted remote id, then at most one CLSE; at most one of its
messages waits for an OKAY; a `send` that returned `ok` has had each of its WRTEs
acknowledged; an OKAY was posted only for a payload that `recv` had taken; and
at most one payload is queued. -/
theorem outgoing_flow_control (hRun : Transition.Runs step Mannered (start maxPayload) trace s) (ref : Ref) :
    InOrder (s.streams ref) (ledger ref trace).posted ∧
    (ledger ref trace).outstanding ≤ 1 ∧
    (∀ before after, trace = before ++ .owner ref (.returned .sent) :: after →
      (ledger ref before).callWrites = 0 ∨ (ledger ref before).outstanding = 0) ∧
    (ledger ref trace).acknowledgements ≤ (ledger ref trace).taken ∧
    (s.streams ref).queue.length ≤ 1 := by
  have hLimited := (settled_of_mannered hRun ref).1.limited
  obtain ⟨hOwed, hQueued⟩ := consumed_of_runs hRun ref
  have hArrivals := arrivals_of_mannered hRun ref
  have hHanded := (handed_counts hRun ref).2
  refine ⟨(said_of_runs hRun ref).inOrder, ?_, ?_, ?_, ?_⟩
  · rw [Ledger.outstanding]
    omega
  · intro before after hSplit
    exact sent_acknowledged (fun hRun => (settled_of_mannered hRun ref).1) hRun before _ after hSplit rfl
  · omega
  · omega

/-- Where each `send` begins with nothing left to acknowledge flow control holds,
and each later chunk of it finds the same, whichever calls are dropped. -/
theorem poised_of_cautious (hRun : Transition.Runs step Cautious (start maxPayload) trace s) (ref : Ref) :
    Regulated (ledger ref trace) (s.streams ref) (s.owners ref) ∧
      Poised (ledger ref trace) (s.streams ref) (s.owners ref) := by
  refine @account_invariant _ _ (fun l state owner => Regulated l state owner ∧ Poised l state owner)
    ref ⟨regulated_start, trivial⟩ ?_ _ _ hRun
  rintro trace s action l state owner hRun hAllowed hStep ⟨hRegulated, hPoised⟩
  refine ⟨hStep.regulated hRegulated ?_ ?_, hStep.poised hRegulated hPoised ?_⟩
  · rintro msg rfl hTarget hCommand
    exact Nat.lt_of_lt_of_le (hAllowed ref hTarget hCommand) (handed_counts hRun ref).1
  · intro hAction hCounting
    cases hOwner : s.owners ref with
    | counting rest remote =>
        rw [hOwner] at hPoised
        exact hPoised
    | _ =>
        rw [hOwner] at hCounting
        exact hCounting.elim
  · rintro data rfl hData
    cases hClosed : (s.streams ref).closed with
    | true => exact Or.inl rfl
    | false => exact Or.inr (Nat.le_of_sub_eq_zero (hAllowed hData hClosed))

/-- Cancelled writes. Whichever pending calls are dropped, and whenever: if a
`send` is begun on an open stream only when no earlier message of the stream waits
for its acknowledgement, then at most one message waits at any time, and a `send`
that returned `ok` has had each of its WRTEs acknowledged. -/
theorem cancelled_flow_control (hRun : Transition.Runs step Cautious (start maxPayload) trace s) (ref : Ref) :
    (ledger ref trace).outstanding ≤ 1 ∧
    ∀ before after, trace = before ++ .owner ref (.returned .sent) :: after →
      (ledger ref before).callWrites = 0 ∨ (ledger ref before).outstanding = 0 := by
  refine ⟨?_, fun before after hSplit => ?_⟩
  · have hLimited := (poised_of_cautious hRun ref).1.limited
    rw [Ledger.outstanding]
    omega
  · exact sent_acknowledged (fun hRun => (poised_of_cautious hRun ref).1) hRun before _ after hSplit rfl

/-- Open a stream, the device's number 5. -/
private def opening : List Action :=
  [.openStream (ascii "exec:cat"), .advance 0, .advance 0, .hand, .handed, .arrive (.empty .okay 5 1),
    .advance 0, .advance 0]

/-- The next chunk goes out, up to the wait for its acknowledgement. -/
private def chunk : List Action :=
  [.advance 0, .advance 0, .advance 0, .advance 0, .advance 0, .hand, .handed]

/-- Begin to send, up to the wait for the first acknowledgement. -/
private def writing (data : Bytes) : List Action := .call 0 (.send data) :: chunk

/-- The acknowledgement arrives, and the call returns. -/
private def written : List Action := [.arrive (.empty .okay 5 1), .advance 0, .advance 0]

/-- One chunk goes out, one comes back, and the stream is closed. -/
private def echo : List Action :=
  opening ++ writing (ascii "hi") ++ written ++
    [.arrive ⟨.write, 5, 1, ascii "hi"⟩, .call 0 .recv, .advance 0, .advance 0, .hand, .handed,
      .call 0 .close, .advance 0, .advance 0]

/-- After an echoed chunk all is acknowledged in both directions. -/
theorem outgoing_flow_control_echo : ∃ trace s, Transition.Runs step Mannered (start 4096) trace s ∧
    ((ledger 0 trace).posted.map Message.command = [.open, .write, .okay, .close] ∧
      .owner 0 (.returned .sent) ∈ trace) ∧ (s.streams 0).queue.length ≤ 1 := by
  obtain ⟨trace, s, hRun, hSeen⟩ := Transition.Runs.of_execute step Mannered (start 4096) echo
    (fun result => ((ledger 0 result.1).posted.map Message.command,
      decide (.owner 0 (.returned .sent) ∈ result.1)))
    ([.open, .write, .okay, .close], true) (by decide)
  rw [Prod.mk.injEq, decide_eq_true_eq] at hSeen
  exact ⟨trace, s, hRun, hSeen, (outgoing_flow_control hRun 0).2.2.2.2⟩

/-- A write is dropped and its acknowledgement comes late. The next call writes
two chunks, and each waits for its own. -/
theorem cancelled_flow_control_late : ∃ trace s, Transition.Runs step Cautious (start 1) trace s ∧
    .owner 0 (.returned .sent) ∈ trace ∧ (ledger 0 trace).outstanding ≤ 1 := by
  obtain ⟨trace, s, hRun, hSeen⟩ := Transition.Runs.of_execute step Cautious (start 1)
    (opening ++ writing (ascii "a") ++ [.cancel 0, .arrive (.empty .okay 5 1)] ++ writing (ascii "bc") ++
      written ++ chunk ++ written)
    (fun result => decide (.owner 0 (.returned .sent) ∈ result.1)) true (by decide)
  exact ⟨trace, s, hRun, of_decide_eq_true hSeen, (cancelled_flow_control hRun 0).1⟩

/-- A write is dropped before its acknowledgement arrives. The next one goes out
at once, so that two wait. -/
theorem dropped_write_is_counted : ¬∀ (maxPayload : UInt32) (trace : List Event) (s : Session),
    Transition.Runs step Answered (start maxPayload) trace s → ∀ ref,
      (ledger ref trace).outstanding ≤ 1 ∧
      ∀ before after, trace = before ++ .owner ref (.returned .sent) :: after →
        (ledger ref before).callWrites = 0 ∨ (ledger ref before).outstanding = 0 := by
  intro hClaim
  obtain ⟨trace, s, hRun, hSeen⟩ := Transition.Runs.of_execute step Answered (start 4096)
    (opening ++ writing (ascii "a") ++ [.cancel 0] ++ writing (ascii "b"))
    (fun result => (ledger 0 result.1).outstanding) 2 (by decide)
  have hLimited := (hClaim 4096 trace s hRun 0).1
  have hTwo : (ledger 0 trace).outstanding = 2 := hSeen
  omega

end Rsadb.Session
