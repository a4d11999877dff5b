import Rsadb.Services.Clients

/-! What becomes of an answer that arrives while the service is still sending.
The write that waits fails when the device closes the stream, and the service
returns at once: what the device has sent before is never read. -/
namespace Rsadb

open Dialogue

instance {ρ α : Type} (stage : Stage ρ α) : Decidable stage.Sending := by
  cases stage <;> first | exact isTrue trivial | exact isFalse id

/-- What follows a `send` that succeeds is no reading: there is more to send, or
the script goes on with an error that counts as lost. -/
def Further (lost : Error → Prop) : List (Result Bytes) → Prop
  | [] => False
  | .ok data :: _ => data ≠ []
  | .error e :: _ => lost e

/-- Where the owner of a closed stream stands in a `send` of `data` that fails,
or that the dialogue does not follow by reading. -/
inductive Owner.Doomed (lost : Error → Prop) (data : Bytes) (rest : List (Result Bytes))
    (state : StreamState) : Owner → Prop
  | unanswered {unsent : Bytes} {seen : UInt64} {step : WaitStep} (hAcks : ¬state.acks > seen)
      (hWake : step = .parked → state.wake = true) :
      Doomed lost data rest state (.waiting (.writing unsent) seen step)
  | late {unsent : Bytes} {seen : UInt64} : Doomed lost data rest state (.waiting (.writing unsent) seen .closed)
  | answered {unsent : Bytes} {seen : UInt64} {step : WaitStep} (hMore : unsent ≠ [] ∨ Further lost rest)
      (hWake : step = .parked → state.wake = true) :
      Doomed lost data rest state (.waiting (.writing unsent) seen step)
  | between (hData : data ≠ []) : Doomed lost data rest state .idle
  | writing {unsent : Bytes} : Doomed lost data rest state (.writing unsent)
  | counting {unsent : Bytes} {remote : UInt32} (hLost : lost .disconnected) :
      Doomed lost data rest state (.counting unsent remote)
  | sending {unsent : Bytes} {remote : UInt32} {seen : UInt64} (hLost : lost .disconnected)
      (hAcks : ¬state.acks > seen) : Doomed lost data rest state (.sending unsent remote seen)

/-- Where a dialogue stands that is past hearing an answer: in a `send` behind
which nothing is read, or on its way out with an error that counts as lost. -/
def Severed {ρ α : Type} (lost : Error → Prop) (v : StreamView) : Stage ρ α → Prop
  | .sending data rest => ¬v.registered ∧ v.state.closed = true ∧ v.owner.Doomed lost data rest v.state
  | .dropping result => (∃ e, lost e ∧ result = .error e) ∧ v.owner = .idle ∧ v.state.closed = true
  | .returned result => ∃ e, lost e ∧ result = .error e
  | _ => False

/-- The runs of a client whose stream the device has closed. The close arrived
behind `prior`, in the state `now`. -/
inductive ClosedAt {ρ α : Type} (client : Client (Stage ρ α) α) (maxPayload : UInt32) (ref : Ref)
    (earlier : List Event) (before : Session) (prior : List Event) (now : Session) :
    List Event → Session → Prop
  | close {msg : Message} {next : Session}
      (hReached : Session.ClientRun client maxPayload ref earlier before prior now)
      (hCommand : msg.command = .close)
      (hTaken : now.step (.arrive msg) = some (next, [.dispatched msg (some ref)])) :
      ClosedAt client maxPayload ref earlier before prior now (prior ++ [.dispatched msg (some ref)]) next
  | after {trace events : List Event} {s s' : Session} {action : Action}
      (hClosed : ClosedAt client maxPayload ref earlier before prior now trace s)
      (hAllowed : Session.Serving client ref earlier trace s action)
      (hTaken : s.step action = some (s', events)) :
      ClosedAt client maxPayload ref earlier before prior now (trace ++ events) s'

/-- The whole message is sent and its acknowledgement is counted, and the `send`
has still to look at the count, or to be woken for it. -/
def Owner.Concluding (state : StreamState) : Owner → Prop
  | .waiting (.writing []) seen step => state.acks > seen ∧ step ≠ .closed
  | _ => False

instance (state : StreamState) (owner : Owner) : Decidable (owner.Concluding state) := by
  unfold Owner.Concluding
  split <;> infer_instance

/-- The client is in the midst of a `send`, and the last write is not acknowledged. -/
def CutShort {ρ α : Type} (client : Client (Stage ρ α) α) (ref : Ref) (earlier prior : List Event) : Prop :=
  (Session.stage client ref prior).Sending ∧ (ledger ref (earlier ++ prior)).outstanding ≠ 0

/-- Only an owner that is about to register its stream does so. -/
theorem Move.inserting {maxPayload : UInt32} {outboxOpen : Bool} {state : StreamState} {owner : Owner} {p : OwnerStep}
    (h : Move maxPayload outboxOpen state owner p) (hInsert : p.effect = .insert) :
    ∃ service, owner = .inserting service := by
  cases h with
  | inserted => exact ⟨_, rfl⟩
  | parted | left => cases outboxOpen <;> cases hInsert
  | _ => cases hInsert

/-- Between its own moves a doomed owner stays doomed. -/
theorem Owner.Doomed.keep {lost : Error → Prop} {data : Bytes} {rest : List (Result Bytes)}
    {state state' : StreamState} {owner : Owner} (h : owner.Doomed lost data rest state)
    (hState : state' = state ∨ state' = state.markClosed) : owner.Doomed lost data rest state' := by
  rcases hState with rfl | rfl
  · exact h
  · cases h with
    | unanswered hAcks hWake => exact .unanswered hAcks fun _ => rfl
    | late => exact .late
    | answered hMore hWake => exact .answered hMore fun _ => rfl
    | between hData => exact .between hData
    | writing => exact .writing
    | counting hLost => exact .counting hLost
    | sending hLost hAcks => exact .sending hLost hAcks

theorem Owner.Doomed.born {lost : Error → Prop} {data : Bytes} {rest : List (Result Bytes)}
    {state : StreamState} {owner : Owner} (h : owner.Doomed lost data rest state) :
    owner ≠ .unborn ∧ ∀ service, owner ≠ .inserting service := by
  cases h <;> simp

section

variable {ρ α : Type} {client : Client (Stage ρ α) α} {maxPayload : UInt32} {ref : Ref}
  {earlier trace prior : List Event} {before now s : Session}

/-- What happened up to the close and after it is one run of the client. -/
theorem ClosedAt.run (h : ClosedAt client maxPayload ref earlier before prior now trace s) :
    Session.ClientRun client maxPayload ref earlier before trace s := by
  induction h with
  | @close msg next hReached hCommand hTaken =>
      have hAllowed : Session.Serving client ref earlier prior now (.arrive msg) := by
        refine ⟨fun _ => ⟨fun hOkay => ?_, fun hWrite => ?_⟩, fun c hMember => by cases hMember⟩
        · rw [hCommand] at hOkay
          cases hOkay
        · rw [hCommand] at hWrite
          cases hWrite
      exact ⟨hReached.called, hReached.served.next hAllowed hTaken⟩
  | after hClosed hAllowed hTaken ih => exact ⟨ih.called, ih.served.next hAllowed hTaken⟩

/-- What is executed after the close goes on behind it. -/
theorem ClosedAt.executed [∀ trace s action, Decidable (Session.Serving client ref earlier trace s action)]
    (h : ClosedAt client maxPayload ref earlier before prior now trace s) (actions : List Action)
    {trace' : List Event} {s' : Session}
    (hExecute : Transition.execute Session.step (Session.Serving client ref earlier) trace s actions =
      some (trace', s')) : ClosedAt client maxPayload ref earlier before prior now trace' s' := by
  induction actions generalizing trace s with
  | nil =>
      cases hExecute
      exact h
  | cons action rest ih =>
      unfold Transition.execute at hExecute
      split at hExecute
      · rename_i hAllowed
        split at hExecute
        · rename_i hTaken
          exact ih (h.after hAllowed hTaken) hExecute
        · cases hExecute
      · cases hExecute

/-- The close found the stream in the registry. -/
theorem ClosedAt.reached (h : ClosedAt client maxPayload ref earlier before prior now trace s) :
    Session.ClientRun client maxPayload ref earlier before prior now ∧ now.Registered ref := by
  induction h with
  | @close msg next hReached hCommand hTaken =>
      obtain ⟨hNamed, -⟩ := Session.named_of_runs hReached.whole
      have hGet := ((Session.step_cause hNamed hTaken).dispatched msg (some ref) List.mem_cons_self).2
      refine ⟨hReached, ?_⟩
      rw [Session.Registered, hNamed.names _ ref hGet, hGet]
  | after _ _ _ ih => exact ih

/-- What is kept by every step of the client from the close on holds in every state that is reached. -/
theorem ClosedAt.invariant {Inv : List Event → Stage ρ α → Session → Prop}
    (hClose : ∀ msg next, Session.ClientRun client maxPayload ref earlier before prior now →
      msg.command = .close → now.step (.arrive msg) = some (next, [.dispatched msg (some ref)]) →
      Inv (prior ++ [.dispatched msg (some ref)]) (Session.stage client ref prior) next)
    (hStep : ∀ {trace events s s' action}, Session.ClientRun client maxPayload ref earlier before trace s →
      Session.Courteous ref (earlier ++ trace) s action →
      (∀ c ∈ Session.clientCall ref s action, client.asks (Session.stage client ref trace) = some c) →
      s.step action = some (s', events) → Inv trace (Session.stage client ref trace) s →
      Inv (trace ++ events)
        ((events.filterMap (Event.returns ref)).foldl client.resume (Session.stage client ref trace)) s')
    (h : ClosedAt client maxPayload ref earlier before prior now trace s) :
    Inv trace (Session.stage client ref trace) s := by
  induction h with
  | @close msg next hReached hCommand hTaken =>
      rw [Session.stage_append]
      exact hClose msg next hReached hCommand hTaken
  | after hClosed hAllowed hTaken ih =>
      rw [Session.stage_append]
      exact hStep hClosed.run hAllowed.1 hAllowed.2 hTaken ih

end

instance {ρ α : Type} (client : Client (Stage ρ α) α) (ref : Ref) (earlier prior : List Event) :
    Decidable (CutShort client ref earlier prior) := inferInstanceAs (Decidable (_ ∧ _))

namespace Session

variable {ρ α : Type} {d : Dialogue ρ α} {initial : Stage ρ α} {maxPayload : UInt32} {ref : Ref}
  {earlier trace prior : List Event} {before now s : Session} {lost : Error → Prop}

/-- The result within a few steps that the client takes alone. -/
def ReturnsWithin (n : Nat) (client : Client (Stage ρ α) α) (ref : Ref) (earlier trace : List Event)
    (s : Session) (result : Result α) : Prop :=
  ∃ actions trace' s', actions.length ≤ n ∧ (∀ action ∈ actions, action.actor = some ref) ∧
    Transition.execute step (Serving client ref earlier) trace s actions = some (trace', s') ∧
    outcome client ref trace' = some result

/-- A closed stream stays closed. -/
private theorem closed_step {clash : Prop} {v v' : StreamView} {events : List Event}
    (hStep : ViewStep maxPayload clash ref v events v') (hBorn : v.owner ≠ .unborn)
    (hClosed : v.state.closed = true) : v'.state.closed = true := by
  cases hStep with
  | born hUnborn => exact absurd hUnborn hBorn
  | @own _ p _ hMoves hState =>
      rw [hState]
      rcases hMoves.custody.flag with ⟨hSame, -⟩ | ⟨hMarked, -⟩
      · exact hSame.trans hClosed
      · rw [hMarked]
        rfl
  | cancelled hCancel hState =>
      rw [hState]
      obtain ⟨purpose, seen, -, rfl | rfl⟩ := Owner.cancel_cases hCancel <;> exact hClosed
  | delivered hCommand hTarget hId hState =>
      obtain ⟨-, -, hQueued⟩ := StreamState.deliver_eq hState
      rw [hQueued]
      exact hClosed
  | other hEvents hMissed hState | acked hCommand hTarget hId hState
  | refused hCommand hTarget hId hDeliver hMore hState | ended hCommand hTarget hId hState
  | ignored hCommand hTarget hId hState | handed hState | drained hMember hTarget hState
  | marked hWaited hState =>
      rw [hState]
      first | exact hClosed | rfl

/-- A closed stream that is out of the registry stays out. -/
theorem outside_step {clash : Prop} {v v' : StreamView} {events : List Event}
    (hStep : ViewStep maxPayload clash ref v events v') (hBorn : v.owner ≠ .unborn)
    (hNew : ∀ service, v.owner ≠ .inserting service) (hOut : ¬v.registered) (hClosed : v.state.closed = true) :
    ¬v'.registered ∧ v'.state.closed = true := by
  refine ⟨?_, closed_step hStep hBorn hClosed⟩
  cases hStep with
  | born _ _ _ hUnregistered => exact hUnregistered
  | @own _ p _ hMoves hState hOwner hRegistered =>
      cases hEffect : p.effect with
      | insert =>
          obtain ⟨service, hInserting⟩ := hMoves.move.inserting hEffect
          exact absurd hInserting (hNew service)
      | remove =>
          rw [hEffect] at hRegistered
          exact hRegistered
      | nothing | post =>
          rw [hEffect] at hRegistered
          exact mt hRegistered.mp hOut
  | cancelled _ _ _ hRegistered => exact mt hRegistered.mp hOut
  | other _ _ _ _ hLost => exact mt hLost hOut
  | acked _ hTarget | delivered _ hTarget | refused _ hTarget | ended _ hTarget | ignored _ hTarget
  | drained _ hTarget => exact absurd hTarget hOut
  | handed _ _ hRegistered | marked _ _ _ hRegistered => exact mt hRegistered.mp hOut

/-- A dialogue that leaves with an error is on its way out. -/
private theorem severed_leave {v : StreamView} {e : Error} (hLost : lost e) (hOwner : v.owner = .idle)
    (hClosed : v.state.closed = true) : Severed lost v (d.leave (.error e)) := by
  unfold leave
  split
  · exact ⟨⟨e, hLost, rfl⟩, hOwner, hClosed⟩
  · exact ⟨e, hLost, rfl⟩

/-- What a dialogue says next, if it has more to say. -/
private theorem severed_speak {v : StreamView} {rest : List (Result Bytes)} (hFurther : Further lost rest)
    (hOut : ¬v.registered) (hOwner : v.owner = .idle) (hClosed : v.state.closed = true) :
    Severed lost v (d.speak rest) := by
  rcases rest with _ | ⟨e | data, rest⟩
  · exact hFurther.elim
  · exact severed_leave hFurther hOwner hClosed
  · refine ⟨hOut, hClosed, ?_⟩
    rw [hOwner]
    exact .between hFurther

/-- A move within a `send` behind which nothing is read. -/
private theorem Move.severed {outboxOpen : Bool} {v v' : StreamView} {p : OwnerStep} {data : Bytes}
    {rest : List (Result Bytes)} (h : Move maxPayload outboxOpen v.state v.owner p)
    (hBusy : v.owner ≠ .idle) (hLost : lost .streamClosed)
    (hSevered : Severed lost v (.sending data rest : Stage ρ α)) (hState : v'.state = p.state)
    (hOwner : v'.owner = p.owner) (hAfter : ¬v'.registered ∧ v'.state.closed = true) :
    Severed lost v' (p.returns.foldl d.resume (.sending data rest)) := by
  obtain ⟨hOut', hClosed'⟩ := hAfter
  obtain ⟨-, hClosed, hDoomed⟩ := hSevered
  have hStay : v'.owner.Doomed lost data rest v'.state → Severed lost v' (.sending data rest : Stage ρ α) :=
    fun hNext => ⟨hOut', hClosed', hNext⟩
  obtain ⟨state, owner, registered, pending⟩ := v
  obtain ⟨state', owner', registered', pending'⟩ := v'
  subst hState hOwner
  cases hDoomed with
  | unanswered hAcks hWake =>
      cases h with
      | completed hMore | continued hMore => exact absurd hMore hAcks
      | unanswered => exact hStay .late
      | interrupted => exact severed_leave hLost rfl hClosed
      | parked hOpen =>
          rw [hClosed] at hOpen
          cases hOpen
      | woken => exact hStay (.unanswered hAcks (by simp))
  | late =>
      cases h with
      | interrupted => exact severed_leave hLost rfl hClosed
      | parked hOpen =>
          rw [hClosed] at hOpen
          cases hOpen
  | answered hMore hWake =>
      cases h with
      | completed => exact severed_speak (hMore.resolve_left (by simp)) hOut' rfl hClosed
      | continued => exact hStay .writing
      | unanswered => exact hStay .late
      | interrupted => exact severed_leave hLost rfl hClosed
      | parked hOpen =>
          rw [hClosed] at hOpen
          cases hOpen
      | woken => exact hStay (.answered hMore (by simp))
  | between => exact absurd rfl hBusy
  | writing =>
      cases h with
      | addressed hOpen =>
          rw [hClosed] at hOpen
          cases hOpen
      | shutOut => exact severed_leave hLost rfl hClosed
  | counting hGone =>
      cases h with
      | counted => exact hStay (.sending hGone (UInt64.lt_irrefl _))
  | sending hGone hAcks =>
      cases h with
      | wrote => exact hStay (.unanswered hAcks (by simp))
      | unwritten => exact severed_leave hGone rfl hClosed

/-- A dialogue between two calls on the closed stream: the next one fails, or begins a `send` that fails. -/
private theorem idle_step {s' : Session} {action : Action} {events : List Event} {stage : Stage ρ α}
    (hNamed : s.Named) (hCourteous : Courteous ref trace s action)
    (hCalls : ∀ c ∈ clientCall ref s action, asks stage = some c)
    (hTaken : s.step action = some (s', events)) (hIdle : s.owners ref = .idle)
    (hSevered : Severed lost (s.view ref) stage) (hAfter : ¬(s'.view ref).registered ∨ ¬stage.Sending)
    (hStill : (s'.view ref).state.closed = true) :
    Severed lost (s'.view ref) ((events.filterMap (Event.returns ref)).foldl d.resume stage) := by
  have hStep := step_client hNamed hTaken ref
  change Severed lost ⟨s'.streams ref, s'.owners ref, (s'.view ref).registered, _⟩ _
  generalize (s'.view ref).registered = registered at hAfter ⊢
  change (s'.streams ref).closed = true at hStill
  generalize events.filterMap (Event.returns ref) = given at hStep ⊢
  generalize s'.streams ref = state at hStep hStill ⊢
  generalize s'.owners ref = owner at hStep ⊢
  cases hStep with
  | born hUnborn =>
      rw [hIdle] at hUnborn
      cases hUnborn
  | advanced hAction hAdvance =>
      rw [hIdle] at hAdvance
      cases hAdvance
  | cancelled hAction =>
      rw [hAction] at hCourteous
      exact absurd rfl hCourteous
  | apart =>
      cases stage with
      | opening | reading | closing => exact hSevered.elim
      | returned => exact hSevered
      | dropping => exact ⟨hSevered.1, hIdle, hStill⟩
      | sending data rest =>
          refine ⟨hAfter.resolve_right (not_not_intro trivial), hStill, ?_⟩
          have hDoomed : (s.owners ref).Doomed lost data rest (s.streams ref) := hSevered.2.2
          rw [hIdle] at hDoomed
          change (s.owners ref).Doomed lost data rest state
          rw [hIdle]
          cases hDoomed with
          | between hData => exact .between hData
  | @began call p hAction _ hBegin =>
      have hAsks := hCalls (.use call) (by simp [clientCall, hAction])
      cases stage with
      | opening | reading | closing => exact hSevered.elim
      | returned => cases hAsks
      | dropping =>
          obtain ⟨hResult, -, hClosed⟩ := hSevered
          cases hAsks
          rw [Owner.begin, if_pos (show (s.streams ref).closed = true from hClosed)] at hBegin
          cases hBegin
          exact hResult
      | sending data rest =>
          obtain ⟨-, -, hDoomed⟩ := hSevered
          change (s.owners ref).Doomed lost data rest (s.streams ref) at hDoomed
          rw [hIdle] at hDoomed
          cases hAsks
          cases hDoomed with
          | between hData =>
              obtain ⟨head, tail, rfl⟩ := List.exists_cons_of_ne_nil hData
              cases hBegin
              exact ⟨hAfter.resolve_right (not_not_intro trivial), hStill, .writing⟩

/-- Only its own moves take the dialogue out of a `send` behind which nothing is read. -/
private theorem sending_step {s' : Session} {action : Action} {events : List Event} {data : Bytes}
    {rest : List (Result Bytes)} (hNamed : s.Named) (hCourteous : Courteous ref trace s action)
    (hTaken : s.step action = some (s', events)) (hBusy : s.owners ref ≠ .idle) (hLost : lost .streamClosed)
    (hSevered : Severed lost (s.view ref) (.sending data rest : Stage ρ α))
    (hAfter : ¬(s'.view ref).registered ∧ (s'.view ref).state.closed = true) :
    Severed lost (s'.view ref)
      ((events.filterMap (Event.returns ref)).foldl d.resume (.sending data rest : Stage ρ α)) := by
  have hKeep : ∀ {v' : StreamView}, ¬v'.registered ∧ v'.state.closed = true → v'.owner = s.owners ref →
      v'.state = s.streams ref ∨ v'.state = (s.streams ref).markClosed →
      Severed lost v' (.sending data rest : Stage ρ α) := by
    rintro v' ⟨hOut, hClosed⟩ hOwner hState
    have hDoomed : (s.owners ref).Doomed lost data rest (s.streams ref) := hSevered.2.2
    exact ⟨hOut, hClosed, hOwner ▸ hDoomed.keep hState⟩
  have hCause := step_cause hNamed hTaken
  have hView := step_view hNamed hTaken ref
  cases hView with
  | other hEvents hMissed hState hOwner hGone =>
      rw [returns_other hEvents]
      exact hKeep hAfter hOwner (Or.inl hState)
  | born hUnborn =>
      exact absurd hUnborn hSevered.2.2.born.1
  | @own _ p _ hMoves hState hOwner hRegistered =>
      rw [returns_events]
      exact Move.severed hMoves.move hBusy hLost hSevered hState hOwner hAfter
  | cancelled =>
      rw [(hCause.cancelled ref).mp List.mem_cons_self] at hCourteous
      exact absurd rfl hCourteous
  | acked hCommand hTarget | delivered hCommand hTarget | refused hCommand hTarget
  | ended hCommand hTarget | ignored hCommand hTarget | drained hMember hTarget =>
      exact absurd hTarget hSevered.1
  | handed hState hOwner hRegistered => exact hKeep hAfter hOwner (Or.inl hState)
  | marked hWaited hState hOwner hRegistered => exact hKeep hAfter hOwner (Or.inr hState)

/-- Every step leaves a dialogue that is past hearing an answer there. -/
private theorem severed_step {s' : Session} {action : Action} {events : List Event} {stage : Stage ρ α}
    (hNamed : s.Named) (hCourteous : Courteous ref trace s action) (hLost : lost .streamClosed)
    (hCalls : ∀ c ∈ clientCall ref s action, asks stage = some c)
    (hTaken : s.step action = some (s', events)) (hSevered : Severed lost (s.view ref) stage) :
    Severed lost (s'.view ref) ((events.filterMap (Event.returns ref)).foldl d.resume stage) := by
  have hView := step_view hNamed hTaken ref
  cases stage with
  | opening | reading | closing => exact hSevered.elim
  | returned result =>
      generalize events.filterMap (Event.returns ref) = given
      induction given with
      | nil => exact hSevered
      | cons first more ih => exact ih
  | dropping result =>
      have hIdle : s.owners ref = .idle := hSevered.2.1
      have hStill := closed_step hView (by rw [hSevered.2.1]; simp) hSevered.2.2
      exact idle_step hNamed hCourteous hCalls hTaken hIdle hSevered (Or.inr id) hStill
  | sending data rest =>
      obtain ⟨hOut, hClosed, hDoomed⟩ := id hSevered
      have hAfter := outside_step hView hDoomed.born.1 hDoomed.born.2 hOut hClosed
      by_cases hIdle : s.owners ref = .idle
      · exact idle_step hNamed hCourteous hCalls hTaken hIdle hSevered (Or.inl hAfter.1) hAfter.2
      · exact sending_step hNamed hCourteous hTaken hIdle hLost hSevered hAfter

/-- A dialogue that the close finds in a `send` behind which nothing is read never hears an answer. -/
theorem severed_of_closed (h : ClosedAt (d.client initial) maxPayload ref earlier before prior now trace s)
    {data : Bytes} {rest : List (Result Bytes)} (hLost : lost .streamClosed)
    (hStage : stage (d.client initial) ref prior = .sending data rest)
    (hDoomed : (now.owners ref).Doomed lost data rest (now.streams ref).markClosed) :
    Severed lost (s.view ref) (stage (d.client initial) ref trace) := by
  refine @ClosedAt.invariant _ _ _ _ _ _ _ _ _ _ _ (fun _ stage s => Severed lost (s.view ref) stage) ?_ ?_ h
  · intro msg next hReached hCommand hTaken
    obtain ⟨hNamed, -⟩ := named_of_runs hReached.whole
    obtain ⟨-, hState, hOwner, hOut⟩ :=
      ended_of_dispatched (step_view hNamed hTaken ref) hCommand List.mem_cons_self
    rw [hStage]
    refine ⟨hOut, by rw [hState]; rfl, ?_⟩
    rw [hState, hOwner]
    exact hDoomed
  · intro trace events s s' action hRun hCourteous hCalls hTaken hSevered
    exact severed_step (named_of_runs hRun.whole).1 hCourteous hLost hCalls hTaken hSevered

/-- A close that comes while a write is not acknowledged finds the dialogue waiting for it. -/
theorem doomed_of_cut (h : ClientRun (d.client initial) maxPayload ref earlier before prior now)
    (hInitial : Fits initial (before.owners ref)) (hCut : CutShort (d.client initial) ref earlier prior)
    (hRegistered : (now.view ref).registered) :
    ∃ data rest, stage (d.client initial) ref prior = .sending data rest ∧
      (now.owners ref).Doomed lost data rest (now.streams ref).markClosed := by
  obtain ⟨hSending, hOutstanding⟩ := hCut
  have hFits := fits_of_runs h hInitial
  obtain ⟨hRegulated, hSettled⟩ := settled_of_courteous h.whole
  have hBehind : ¬(ledger ref (earlier ++ prior)).asks ≤ (ledger ref (earlier ++ prior)).okays := fun hAll =>
    hOutstanding (Nat.sub_eq_zero_of_le hAll)
  -- Between two writes everything is acknowledged, because the stream is still open.
  have hOpen : (∀ remote final, now.owners ref ≠ .removing remote final) →
      (now.streams ref).closed = false := fun hStays =>
    ((intact_of_runs h.whole ref).unclosed hRegistered).resolve_right fun ⟨remote, final, hRemoving⟩ =>
      hStays remote final hRemoving
  cases hStage : stage (d.client initial) ref prior with
  | sending data rest =>
      refine ⟨data, rest, rfl, ?_⟩
      rw [hStage] at hFits
      generalize hCase : now.owners ref = owner at hFits hRegulated hSettled ⊢
      cases owner with
      | waiting purpose seen step =>
          cases purpose with
          | opening service => exact (hFits.resolve_left (by simp)).elim
          | writing unsent =>
              exact .unanswered (fun hMore => hBehind (hRegulated.caught_up hMore)) fun _ => rfl
      | idle | writing unsent =>
          rcases hSettled with hClosed | hAll
          · rw [hOpen (by simp [hCase])] at hClosed
            cases hClosed
          · exact absurd hAll hBehind
      | counting unsent remote => exact absurd hSettled hBehind
      | sending unsent remote seen => exact absurd hRegulated.paced.1 hBehind
      | _ => exact (hFits.resolve_left (by simp)).elim
  | _ =>
      rw [hStage] at hSending
      exact hSending.elim

/-- A close that comes before the last `send` has seen its acknowledgement finds
the dialogue where nothing is read any more. -/
theorem doomed_of_unsent (h : ClientRun (d.client initial) maxPayload ref earlier before prior now)
    (hInitial : Fits initial (before.owners ref)) {data : Bytes} {rest : List (Result Bytes)}
    (hStage : stage (d.client initial) ref prior = .sending data rest) (hData : data ≠ [])
    (hUnsent : ¬(rest = [] ∧ (now.owners ref).Concluding (now.streams ref)))
    (hFurther : rest ≠ [] → Further lost rest) (hGone : lost .disconnected) :
    (now.owners ref).Doomed lost data rest (now.streams ref).markClosed := by
  have hFits := fits_of_runs h hInitial
  have hRegulated := (settled_of_courteous h.whole).1
  rw [hStage] at hFits
  generalize now.owners ref = owner at hFits hRegulated hUnsent ⊢
  cases owner with
  | idle => exact .between hData
  | writing unsent => exact .writing
  | counting unsent remote => exact .counting hGone
  | sending unsent remote seen =>
      obtain ⟨-, hSeen⟩ := hRegulated.paced
      refine .sending hGone ?_
      change ¬(now.streams ref).acks > seen
      rw [hSeen, hRegulated.counted]
      exact UInt64.lt_irrefl _
  | waiting purpose seen step =>
      cases purpose with
      | opening service => exact (hFits.resolve_left (by simp)).elim
      | writing unsent =>
          by_cases hAcks : (now.streams ref).acks > seen
          · by_cases hClosed : step = .closed
            · rw [hClosed]
              exact .late
            · refine .answered ?_ fun _ => rfl
              by_cases hLast : unsent = []
              · refine Or.inr (hFurther fun hRest => hUnsent ⟨hRest, ?_⟩)
                rw [hLast]
                exact ⟨hAcks, hClosed⟩
              · exact Or.inl hLast
          · exact .unanswered hAcks fun _ => rfl
  | _ => exact (hFits.resolve_left (by simp)).elim

/-- One step of the client before it returns. -/
private theorem ReturnsWithin.step {client : Client (Stage ρ α) α} {n : Nat} {s' : Session} {action : Action}
    {events : List Event} {result : Result α} (hActor : action.actor = some ref)
    (hAllowed : Serving client ref earlier trace s action) (hTaken : s.step action = some (s', events))
    (h : ReturnsWithin n client ref earlier (trace ++ events) s' result) :
    ReturnsWithin (n + 1) client ref earlier trace s result := by
  obtain ⟨actions, trace', last, hFew, hOwn, hExecute, hOutcome⟩ := h
  refine ⟨action :: actions, trace', last, Nat.succ_le_succ hFew, ?_, ?_, hOutcome⟩
  · intro other hMember
    rcases List.mem_cons.mp hMember with rfl | hMore
    · exact hActor
    · exact hOwn other hMore
  · rw [Transition.execute, if_pos hAllowed, hTaken]
    exact hExecute

theorem ReturnsWithin.mono {client : Client (Stage ρ α) α} {n m : Nat} {result : Result α}
    (h : ReturnsWithin n client ref earlier trace s result) (hLess : n ≤ m) :
    ReturnsWithin m client ref earlier trace s result := by
  obtain ⟨actions, trace', last, hFew, hRest⟩ := h
  exact ⟨actions, trace', last, Nat.le_trans hFew hLess, hRest⟩

/-- One step of the pending call. A client that returns afterwards returns one step later. -/
theorem returns_advance {client : Client (Stage ρ α) α} {p : OwnerStep}
    (hAdvance : (s.owners ref).advance s.maxPayload s.outboxOpen (s.streams ref) = some p) :
    ∃ trace' s', s'.streams ref = p.state ∧ s'.owners ref = p.owner ∧
      stage client ref trace' = p.returns.foldl client.resume (stage client ref trace) ∧
      ∀ n result, ReturnsWithin n client ref earlier trace' s' result →
        ReturnsWithin (n + 1) client ref earlier trace s result := by
  obtain ⟨hState, hOwner⟩ := perform_self s ref p
  have hTaken : s.step (.advance ref) = some ((s.perform ref p).1, events ref p) := by
    simp only [Session.step, hAdvance, Option.map_some]
    rfl
  have hAllowed : Serving client ref earlier trace s (.advance ref) :=
    ⟨trivial, fun c hMember => by cases hMember⟩
  refine ⟨trace ++ events ref p, _, hState, hOwner, ?_, fun n result => ReturnsWithin.step rfl hAllowed hTaken⟩
  rw [stage_append, returns_events]

/-- The next call. A client that returns afterwards returns one step later. -/
theorem returns_call {client : Client (Stage ρ α) α} {call : StreamCall} {p : OwnerStep}
    (hIdle : s.owners ref = .idle) (hAsks : client.asks (stage client ref trace) = some (.use call))
    (hBegin : Owner.begin (s.streams ref) call = some p) :
    ∃ trace' s', s'.streams ref = p.state ∧ s'.owners ref = p.owner ∧
      stage client ref trace' = p.returns.foldl client.resume (stage client ref trace) ∧
      ∀ n result, ReturnsWithin n client ref earlier trace' s' result →
        ReturnsWithin (n + 1) client ref earlier trace s result := by
  obtain ⟨hState, hOwner⟩ := perform_self s ref p
  have hTaken : s.step (.call ref call) = some ((s.perform ref p).1, events ref p) := by
    simp only [Session.step, hIdle, ↓reduceIte, hBegin, Option.map_some]
    rfl
  have hAllowed : Serving client ref earlier trace s (.call ref call) := by
    refine ⟨trivial, fun c hMember => ?_⟩
    obtain rfl : ClientCall.use call = c := by simpa [clientCall] using hMember
    exact hAsks
  refine ⟨trace ++ events ref p, _, hState, hOwner, ?_, fun n result => ReturnsWithin.step rfl hAllowed hTaken⟩
  rw [stage_append, returns_events]

theorem returned_returns {result : Result α} {n : Nat}
    (hStage : stage (d.client initial) ref trace = .returned result) :
    ReturnsWithin n (d.client initial) ref earlier trace s result := by
  refine ⟨[], trace, s, Nat.zero_le _, by simp, rfl, ?_⟩
  rw [outcome, hStage]
  rfl

/-- On its way out a dialogue has at most its stream left to drop. -/
private theorem dropping_returns {result : Result α}
    (hStage : stage (d.client initial) ref trace = .dropping result) (hIdle : s.owners ref = .idle)
    (hClosed : (s.streams ref).closed = true) :
    ReturnsWithin 1 (d.client initial) ref earlier trace s result := by
  have hBegin : Owner.begin (s.streams ref) .drop = some (Owner.leave (s.streams ref) .nothing .dropped) :=
    if_pos hClosed
  obtain ⟨trace', s', -, -, hNow, hThen⟩ :=
    @returns_call _ _ _ earlier trace s (d.client initial) _ _ hIdle (congrArg asks hStage) hBegin
  refine hThen 0 result (returned_returns ?_)
  rw [hNow, hStage]
  rfl

private theorem leaving_returns {result : Result α}
    (hStage : stage (d.client initial) ref trace = d.leave result) (hIdle : s.owners ref = .idle)
    (hClosed : (s.streams ref).closed = true) :
    ReturnsWithin 1 (d.client initial) ref earlier trace s result := by
  unfold leave at hStage
  split at hStage
  · exact dropping_returns hStage hIdle hClosed
  · exact returned_returns hStage

/-- A step with which a `send` fails on the closed stream. -/
private theorem failing_returns {data : Bytes} {rest : List (Result Bytes)} {e : Error}
    (hStage : stage (d.client initial) ref trace = .sending data rest) (hClosed : (s.streams ref).closed = true)
    (hAdvance : (s.owners ref).advance s.maxPayload s.outboxOpen (s.streams ref) =
      some ⟨s.streams ref, .idle, .nothing, [.returned (.sendFailed e)]⟩) :
    ReturnsWithin 2 (d.client initial) ref earlier trace s (.error e) := by
  obtain ⟨trace', s', hState, hIdle, hNow, hThen⟩ :=
    @returns_advance _ _ _ earlier trace s (d.client initial) _ hAdvance
  refine hThen 1 _ (leaving_returns ?_ hIdle (by rw [hState]; exact hClosed))
  rw [hNow, hStage]
  rfl

private theorem closing_returns {data unsent : Bytes} {rest : List (Result Bytes)} {seen : UInt64}
    (hStage : stage (d.client initial) ref trace = .sending data rest)
    (hOwner : s.owners ref = .waiting (.writing unsent) seen .closed) (hClosed : (s.streams ref).closed = true) :
    ReturnsWithin 2 (d.client initial) ref earlier trace s (.error .streamClosed) := by
  refine failing_returns hStage hClosed ?_
  rw [hOwner]
  exact if_pos hClosed

private theorem writing_returns {data unsent : Bytes} {rest : List (Result Bytes)}
    (hStage : stage (d.client initial) ref trace = .sending data rest)
    (hOwner : s.owners ref = .writing unsent) (hClosed : (s.streams ref).closed = true) :
    ReturnsWithin 2 (d.client initial) ref earlier trace s (.error .streamClosed) := by
  refine failing_returns hStage hClosed ?_
  rw [hOwner]
  simp [Owner.advance, StreamState.ids, hClosed]

private theorem unanswered_returns {data unsent : Bytes} {rest : List (Result Bytes)} {seen : UInt64}
    (hStage : stage (d.client initial) ref trace = .sending data rest)
    (hOwner : s.owners ref = .waiting (.writing unsent) seen .acks)
    (hClosed : (s.streams ref).closed = true) (hAcks : ¬(s.streams ref).acks > seen) :
    ReturnsWithin 3 (d.client initial) ref earlier trace s (.error .streamClosed) := by
  have hAdvance : (s.owners ref).advance s.maxPayload s.outboxOpen (s.streams ref) =
      some ⟨s.streams ref, .waiting (.writing unsent) seen .closed, .nothing, []⟩ := by
    rw [hOwner]
    exact if_neg hAcks
  obtain ⟨trace', s', hState, hStands, hNow, hThen⟩ :=
    @returns_advance _ _ _ earlier trace s (d.client initial) _ hAdvance
  exact hThen 2 _ (closing_returns (hNow.trans hStage) hStands (by rw [hState]; exact hClosed))

private theorem between_returns {data : Bytes} {rest : List (Result Bytes)}
    (hStage : stage (d.client initial) ref trace = .sending data rest) (hIdle : s.owners ref = .idle)
    (hData : data ≠ []) (hClosed : (s.streams ref).closed = true) :
    ReturnsWithin 3 (d.client initial) ref earlier trace s (.error .streamClosed) := by
  obtain ⟨head, tail, rfl⟩ := List.exists_cons_of_ne_nil hData
  have hBegin : Owner.begin (s.streams ref) (.send (head :: tail)) =
      some ⟨s.streams ref, .writing (head :: tail), .nothing, []⟩ := rfl
  obtain ⟨trace', s', hState, hOwner, hNow, hThen⟩ :=
    @returns_call _ _ _ earlier trace s (d.client initial) _ _ hIdle (congrArg asks hStage) hBegin
  exact hThen 2 _ (writing_returns (hNow.trans hStage) hOwner (by rw [hState]; exact hClosed))

/-- A dialogue that has more to send fails with that, or returns the error of its script. -/
private theorem further_returns {rest : List (Result Bytes)} (hFurther : Further lost rest)
    (hStage : stage (d.client initial) ref trace = d.speak rest) (hIdle : s.owners ref = .idle)
    (hClosed : (s.streams ref).closed = true) (hLost : lost .streamClosed) :
    ∃ e, lost e ∧ ReturnsWithin 3 (d.client initial) ref earlier trace s (.error e) := by
  rcases rest with _ | ⟨e | data, rest⟩
  · exact hFurther.elim
  · exact ⟨e, hFurther, (leaving_returns hStage hIdle hClosed).mono (by decide)⟩
  · exact ⟨_, hLost, between_returns hStage hIdle hFurther hClosed⟩

private theorem answered_returns {data unsent : Bytes} {rest : List (Result Bytes)} {seen : UInt64}
    (hMore : unsent ≠ [] ∨ Further lost rest)
    (hStage : stage (d.client initial) ref trace = .sending data rest)
    (hOwner : s.owners ref = .waiting (.writing unsent) seen .acks)
    (hClosed : (s.streams ref).closed = true) (hLost : lost .streamClosed) :
    ∃ e, lost e ∧ ReturnsWithin 4 (d.client initial) ref earlier trace s (.error e) := by
  by_cases hAcks : (s.streams ref).acks > seen
  · have hAdvance : (s.owners ref).advance s.maxPayload s.outboxOpen (s.streams ref) =
        some (Owner.acknowledged (s.streams ref) (.writing unsent)) := by
      rw [hOwner]
      exact if_pos hAcks
    obtain ⟨trace', s', hState, hStands, hNow, hThen⟩ :=
      @returns_advance _ _ _ earlier trace s (d.client initial) _ hAdvance
    rw [hStage] at hNow
    rcases unsent with _ | ⟨head, tail⟩
    · obtain ⟨e, hError, hReturns⟩ := further_returns (hMore.resolve_left (by simp)) hNow hStands
        (by rw [hState]; exact hClosed) hLost
      exact ⟨e, hError, hThen 3 _ hReturns⟩
    · have hReturns := @writing_returns _ _ _ _ _ earlier _ _ _ _ _ hNow hStands (by rw [hState]; exact hClosed)
      exact ⟨_, hLost, (hThen 2 _ hReturns).mono (by decide)⟩
  · exact ⟨_, hLost, (unanswered_returns hStage hOwner hClosed hAcks).mono (by decide)⟩

private theorem sending_returns {data unsent : Bytes} {rest : List (Result Bytes)} {remote : UInt32}
    {seen : UInt64} (hStage : stage (d.client initial) ref trace = .sending data rest)
    (hOwner : s.owners ref = .sending unsent remote seen) (hClosed : (s.streams ref).closed = true)
    (hAcks : ¬(s.streams ref).acks > seen) (hLost : lost .streamClosed) (hGone : lost .disconnected) :
    ∃ e, lost e ∧ ReturnsWithin 4 (d.client initial) ref earlier trace s (.error e) := by
  by_cases hOutbox : s.outboxOpen = true
  · have hAdvance : (s.owners ref).advance s.maxPayload s.outboxOpen (s.streams ref) =
        some ⟨s.streams ref,
          .waiting (.writing (unsent.drop (min unsent.length s.maxPayload.toNat))) seen .acks,
          .post ⟨.write, (s.streams ref).localId, remote,
            unsent.take (min unsent.length s.maxPayload.toNat)⟩, []⟩ := by
      rw [hOwner]
      exact if_pos hOutbox
    obtain ⟨trace', s', hState, hStands, hNow, hThen⟩ :=
      @returns_advance _ _ _ earlier trace s (d.client initial) _ hAdvance
    refine ⟨_, hLost, hThen 3 _ (unanswered_returns (hNow.trans hStage) hStands ?_ ?_)⟩ <;> rw [hState]
    · exact hClosed
    · exact hAcks
  · refine ⟨_, hGone, ReturnsWithin.mono (failing_returns hStage hClosed ?_) (show 2 ≤ 4 by decide)⟩
    rw [hOwner]
    exact if_neg hOutbox

/-- A dialogue that is past hearing an answer returns its error in at most five steps of its own. -/
theorem severed_returns (hLost : lost .streamClosed)
    (hSevered : Severed lost (s.view ref) (stage (d.client initial) ref trace)) :
    ∃ e, lost e ∧ ReturnsWithin 5 (d.client initial) ref earlier trace s (.error e) := by
  cases hStage : stage (d.client initial) ref trace with
  | opening | reading | closing =>
      rw [hStage] at hSevered
      exact hSevered.elim
  | returned result =>
      rw [hStage] at hSevered
      obtain ⟨e, hError, rfl⟩ := hSevered
      exact ⟨e, hError, returned_returns hStage⟩
  | dropping result =>
      rw [hStage] at hSevered
      obtain ⟨⟨e, hError, rfl⟩, hIdle, hClosed⟩ := hSevered
      exact ⟨e, hError, (dropping_returns hStage hIdle hClosed).mono (by decide)⟩
  | sending data rest =>
      rw [hStage] at hSevered
      obtain ⟨-, hClosed, hDoomed⟩ := hSevered
      change (s.streams ref).closed = true at hClosed
      change (s.owners ref).Doomed lost data rest (s.streams ref) at hDoomed
      -- A parked owner is woken, because the close has left its permit.
      have hWoken : ∀ {unsent : Bytes} {seen : UInt64}, s.owners ref = .waiting (.writing unsent) seen .parked →
          (s.streams ref).wake = true → ∃ trace' s', (s'.streams ref).closed = true ∧
            (s'.streams ref).acks = (s.streams ref).acks ∧
            s'.owners ref = .waiting (.writing unsent) seen .acks ∧
            stage (d.client initial) ref trace' = .sending data rest ∧
            ∀ n result, ReturnsWithin n (d.client initial) ref earlier trace' s' result →
              ReturnsWithin (n + 1) (d.client initial) ref earlier trace s result := by
        intro unsent seen hParked hWake
        have hAdvance : (s.owners ref).advance s.maxPayload s.outboxOpen (s.streams ref) =
            some ⟨{ s.streams ref with wake := false }, .waiting (.writing unsent) seen .acks, .nothing, []⟩ := by
          rw [hParked]
          exact if_pos hWake
        obtain ⟨trace', s', hState, hStands, hNow, hThen⟩ :=
          @returns_advance _ _ _ earlier trace s (d.client initial) _ hAdvance
        refine ⟨trace', s', ?_, ?_, hStands, hNow.trans hStage, hThen⟩ <;> rw [hState]
        exact hClosed
      generalize hOwner : s.owners ref = owner at hDoomed
      cases hDoomed with
      | between hData => exact ⟨_, hLost, (between_returns hStage hOwner hData hClosed).mono (by decide)⟩
      | late => exact ⟨_, hLost, (closing_returns hStage hOwner hClosed).mono (by decide)⟩
      | writing => exact ⟨_, hLost, (writing_returns hStage hOwner hClosed).mono (by decide)⟩
      | sending hGone hAcks =>
          obtain ⟨e, hError, hReturns⟩ := sending_returns hStage hOwner hClosed hAcks hLost hGone
          exact ⟨e, hError, hReturns.mono (by decide)⟩
      | @counting unsent remote hGone =>
          have hAdvance : (s.owners ref).advance s.maxPayload s.outboxOpen (s.streams ref) =
              some ⟨s.streams ref, .sending unsent remote (s.streams ref).acks, .nothing, []⟩ := by
            rw [hOwner]
            rfl
          obtain ⟨trace', s', hState, hStands, hNow, hThen⟩ :=
            @returns_advance _ _ _ earlier trace s (d.client initial) _ hAdvance
          obtain ⟨e, hError, hReturns⟩ := @sending_returns _ _ d _ _ earlier _ s' _ _ _ _ _ _
            (hNow.trans hStage) hStands (by rw [hState]; exact hClosed) (by rw [hState]; exact UInt64.lt_irrefl _)
            hLost hGone
          exact ⟨e, hError, hThen 4 _ hReturns⟩
      | @unanswered unsent seen step hAcks hWake =>
          cases step with
          | closed => exact ⟨_, hLost, (closing_returns hStage hOwner hClosed).mono (by decide)⟩
          | acks => exact ⟨_, hLost, (unanswered_returns hStage hOwner hClosed hAcks).mono (by decide)⟩
          | parked =>
              obtain ⟨trace', s', hStill, hSame, hStands, hNow, hThen⟩ := hWoken hOwner (hWake rfl)
              have hReturns := hThen 3 _ (unanswered_returns hNow hStands hStill (by rwa [hSame]))
              exact ⟨_, hLost, hReturns.mono (by decide)⟩
      | @answered unsent seen step hMore hWake =>
          cases step with
          | closed => exact ⟨_, hLost, (closing_returns hStage hOwner hClosed).mono (by decide)⟩
          | acks =>
              obtain ⟨e, hError, hReturns⟩ := answered_returns hMore hStage hOwner hClosed hLost
              exact ⟨e, hError, hReturns.mono (by decide)⟩
          | parked =>
              obtain ⟨trace', s', hStill, -, hStands, hNow, hThen⟩ := hWoken hOwner (hWake rfl)
              obtain ⟨e, hError, hReturns⟩ := answered_returns hMore hNow hStands hStill hLost
              exact ⟨e, hError, hThen 4 _ hReturns⟩

/-- What a dialogue has returned that is past hearing an answer. -/
theorem severed_outcome (hSevered : Severed lost (s.view ref) (stage (d.client initial) ref trace))
    {result : Result α} (hOutcome : outcome (d.client initial) ref trace = some result) :
    ∃ e, lost e ∧ result = .error e := by
  rw [outcome] at hOutcome
  revert hSevered hOutcome
  cases stage (d.client initial) ref trace with
  | returned answer =>
      intro hSevered hOutcome
      cases hOutcome
      exact hSevered
  | _ => exact fun _ hOutcome => by cases hOutcome

end Session
end Rsadb
