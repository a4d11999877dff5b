import Rsadb.Session.FlowControl
import Rsadb.Session.Refusal
import Rsadb.Library.Process

/-! Services as clients of a session. A client opens a stream, or takes over an
open one, and makes one call after the other on it. The other streams and the
tasks of the session act as they like in between. -/
namespace Rsadb

/-- What a service asks of its connection. -/
inductive ClientCall where
  | connect (service : Bytes)
  | use (call : StreamCall)
  deriving DecidableEq, Repr

abbrev Client (State α : Type) : Type := Process State ClientCall Returned (Result α)

/-- What a call on the stream returns. -/
def Event.returns (ref : Ref) : Event → Option Returned
  | .owner other (.returned result) => if other = ref then some result else none
  | _ => none

/-- What the calls on the stream have returned, in order. -/
def returns (ref : Ref) (trace : List Event) : List Returned := trace.filterMap (Event.returns ref)

/-- What a report says that a call returns. -/
def Report.returns : Report → Option Returned
  | .returned result => some result
  | _ => none

/-- What a step of the owner returns. -/
def OwnerStep.returns (p : OwnerStep) : List Returned := p.reports.filterMap Report.returns

/-- A step of the owner returns at most once, and ends the call. -/
theorem Move.returns {maxPayload : UInt32} {outboxOpen : Bool} {state : StreamState} {owner : Owner}
    {p : OwnerStep} (h : Move maxPayload outboxOpen state owner p) :
    p.returns = [] ∨ ∃ result, p.returns = [result] ∧ (p.owner = .idle ∨ p.owner = .gone) := by
  cases h <;> first
    | exact Or.inl rfl
    | exact Or.inr ⟨_, rfl, Or.inl rfl⟩
    | exact Or.inr ⟨_, rfl, Or.inr rfl⟩

/-- The payload that an event delivers to the stream. -/
def Event.delivery (ref : Ref) : Event → Option Bytes
  | .dispatched msg target =>
      if target = some ref ∧ msg.command = .write then some msg.payload else none
  | _ => none

/-- The bytes that the device has sent to the stream. -/
def delivered (ref : Ref) (trace : List Event) : Bytes :=
  (trace.filterMap (Event.delivery ref)).flatten

/-- A stream in the registry is open, unless its owner is about to remove it. -/
structure StreamView.Intact (v : StreamView) : Prop where
  alone : v.registered → ¬v.pending
  unclosed : v.registered → v.state.closed = false ∨ ∃ remote final, v.owner = .removing remote final
  fresh : v.owner = .unborn ∨ (∃ service, v.owner = .inserting service) →
    ¬v.registered ∧ ¬v.pending ∧ v.state.closed = false

namespace StreamView.Intact

variable {v v' : StreamView}

/-- What neither closes the stream nor registers it leaves it intact. -/
private theorem keep (h : v.Intact) (hRegistered : v'.registered → v.registered)
    (hPending : v'.pending → v.pending) (hClosed : v'.state.closed = v.state.closed)
    (hOwner : v'.owner = v.owner) : v'.Intact where
  alone hNow := mt hPending (h.alone (hRegistered hNow))
  unclosed hNow := by
    rw [hClosed, hOwner]
    exact h.unclosed (hRegistered hNow)
  fresh hFresh := by
    rw [hOwner] at hFresh
    obtain ⟨hOut, hLeft, hOpen⟩ := h.fresh hFresh
    exact ⟨mt hRegistered hOut, mt hPending hLeft, hClosed.trans hOpen⟩

private theorem move (h : v.Intact) {maxPayload : UInt32} {outboxOpen : Bool} {p : OwnerStep}
    (hMove : Move maxPayload outboxOpen v.state v.owner p) (hState : v'.state = p.state)
    (hOwner : v'.owner = p.owner)
    (hRegistered : match p.effect with
      | .insert => v'.registered
      | .remove => ¬v'.registered
      | _ => (v'.registered ↔ v.registered))
    (hPending : v'.pending ↔ v.pending) : v'.Intact := by
  obtain ⟨hAlone, hUnclosed, hFresh⟩ := h
  obtain ⟨state, owner, registered, pending⟩ := v
  obtain ⟨state', owner', registered', pending'⟩ := v'
  subst hState hOwner
  have hNew : p.owner ≠ .unborn ∧ ∀ service, p.owner ≠ .inserting service := by
    cases hMove <;> exact ⟨by simp [Owner.leave], by simp [Owner.leave]⟩
  have hPast : ¬(p.owner = .unborn ∨ ∃ service, p.owner = .inserting service) := by
    rintro (hSame | ⟨service, hSame⟩)
    · exact hNew.1 hSame
    · exact hNew.2 service hSame
  suffices hBoth : registered' → ¬pending ∧ (p.state.closed = false ∨
      ∃ remote final, p.owner = .removing remote final) from
    ⟨fun hNow => mt hPending.mp (hBoth hNow).1, fun hNow => (hBoth hNow).2, fun hCase => absurd hCase hPast⟩
  intro hNow
  cases hMove with
  | inserted =>
      obtain ⟨-, hLeft, hOpen⟩ := hFresh (Or.inr ⟨_, rfl⟩)
      exact ⟨hLeft, Or.inl hOpen⟩
  | removed | refused => exact absurd hNow hRegistered
  | closing => exact ⟨hAlone (hRegistered.mp hNow), Or.inr ⟨_, _, rfl⟩⟩
  | parted | left =>
      cases outboxOpen <;>
        exact ⟨hAlone (hRegistered.mp hNow), (hUnclosed (hRegistered.mp hNow)).imp_right (by simp)⟩
  | _ => exact ⟨hAlone (hRegistered.mp hNow), (hUnclosed (hRegistered.mp hNow)).imp_right (by simp)⟩

private theorem step {maxPayload : UInt32} {clash : Prop} {ref : Ref} {events : List Event}
    (h : v.Intact) (hStep : ViewStep maxPayload clash ref v events v') : v'.Intact := by
  cases hStep with
  | other hEvents hMissed hState hOwner hLost hKept hPending =>
      exact h.keep hLost hPending.mp (congrArg _ hState) hOwner
  | born hUnborn hState hOwner hUnregistered hPending =>
      refine ⟨fun hNow => absurd hNow hUnregistered, fun hNow => absurd hNow hUnregistered, fun _ => ?_⟩
      exact ⟨hUnregistered, hPending, by rw [hState]; rfl⟩
  | own hMoves hState hOwner hRegistered hPending =>
      exact h.move hMoves.move hState hOwner hRegistered hPending
  | cancelled hCancel hState hOwner hRegistered hPending =>
      obtain ⟨purpose, seen, hWaiting, hCases⟩ := Owner.cancel_cases hCancel
      have hAfter : v'.state.closed = v.state.closed ∧ v'.owner ≠ .unborn ∧
          ∀ service, v'.owner ≠ .inserting service := by
        rw [hState, hOwner]
        rcases hCases with rfl | rfl <;> exact ⟨rfl, by simp, by simp⟩
      refine ⟨fun hNow => mt hPending.mp (h.alone (hRegistered.mp hNow)), fun hNow => Or.inl ?_,
        fun hCase => (hCase.elim hAfter.2.1 fun ⟨service, hSame⟩ => hAfter.2.2 service hSame).elim⟩
      rw [hAfter.1]
      refine (h.unclosed (hRegistered.mp hNow)).resolve_right ?_
      rintro ⟨remote, final, hRemoving⟩
      rw [hWaiting] at hRemoving
      cases hRemoving
  | acked hCommand hTarget hId hState hOwner hRegistered hPending =>
      exact h.keep (fun _ => hTarget) hPending.mp (by rw [hState]; rfl) hOwner
  | delivered hCommand hTarget hId hState hOwner hRegistered hPending =>
      obtain ⟨-, -, hQueued⟩ := StreamState.deliver_eq hState
      exact h.keep (fun _ => hTarget) hPending.mp (by rw [hQueued]) hOwner
  | refused hCommand hTarget hId hDeliver hMore hState hOwner hRegistered hPending =>
      exact h.keep (fun _ => hTarget) hPending.mp (congrArg _ hState) hOwner
  | ended hCommand hTarget hId hState hOwner hRegistered hPending =>
      refine ⟨fun hNow => absurd hNow hRegistered, fun hNow => absurd hNow hRegistered, fun hCase => ?_⟩
      rw [hOwner] at hCase
      exact absurd hTarget (h.fresh hCase).1
  | ignored hCommand hTarget hId hState hOwner hRegistered hPending =>
      exact h.keep (fun _ => hTarget) hPending.mp (congrArg _ hState) hOwner
  | handed hState hOwner hRegistered hPending =>
      exact h.keep hRegistered.mp hPending.mp (congrArg _ hState) hOwner
  | drained hMember hTarget hState hOwner hRegistered hPending =>
      refine ⟨fun hNow => absurd hNow hRegistered, fun hNow => absurd hNow hRegistered, fun hCase => ?_⟩
      rw [hOwner] at hCase
      exact absurd hTarget (h.fresh hCase).1
  | marked hWaited hState hOwner hRegistered hPending =>
      have hOut : ¬v'.registered := fun hNow => h.alone (hRegistered.mp hNow) hWaited
      refine ⟨fun hNow => absurd hNow hOut, fun hNow => absurd hNow hOut, fun hCase => ?_⟩
      rw [hOwner] at hCase
      exact absurd hWaited (h.fresh hCase).2.1

end StreamView.Intact

namespace Session

/-- The call of the client that an action carries out. The stream that is opened
next gets the next number. -/
def clientCall (ref : Ref) (s : Session) : Action → Option ClientCall
  | .openStream service => if s.nextRef = ref then some (.connect service) else none
  | .call other call => if other = ref then some (.use call) else none
  | _ => none

/-- On this stream the device acknowledges what reached it, each message at most
once, and sends a payload only when its last one was acknowledged. The client
waits for the answers to its calls. -/
def Courteous (ref : Ref) (trace : List Event) (s : Session) : Action → Prop
  | .arrive msg => s.get msg.arg1 = some ref →
      (msg.command = .okay → (ledger ref trace).okays < (ledger ref trace).asked) ∧
      (msg.command = .write → (ledger ref trace).arrivals ≤ (ledger ref trace).acknowledged)
  | .cancel other => other ≠ ref
  | _ => True

instance (ref : Ref) (trace : List Event) (s : Session) (action : Action) :
    Decidable (Courteous ref trace s action) := by
  rcases action <;> unfold Courteous <;> infer_instance

variable {State α : Type}

/-- What may happen while the client has the stream. `earlier` happened before that. -/
def Serving (client : Client State α) (ref : Ref) (earlier trace : List Event) (s : Session)
    (action : Action) : Prop :=
  Courteous ref (earlier ++ trace) s action ∧
    client.Hosts (Event.returns ref) (clientCall ref) trace s action

instance (client : Client State α) (ref : Ref) (earlier trace : List Event) (s : Session)
    (action : Action) : Decidable (Serving client ref earlier trace s action) :=
  inferInstanceAs (Decidable (_ ∧ _))

/-- A run of the session up to the call of the client, and from there on with the client. -/
structure ClientRun (client : Client State α) (maxPayload : UInt32) (ref : Ref) (earlier : List Event)
    (before : Session) (trace : List Event) (s : Session) : Prop where
  called : Transition.Runs step (Courteous ref) (start maxPayload) earlier before
  served : Transition.Runs step (Serving client ref earlier) before trace s

/-- Where the client stands after a trace. -/
def stage (client : Client State α) (ref : Ref) (trace : List Event) : State :=
  client.after (returns ref trace)

/-- The result of the client, once it has returned. -/
def outcome (client : Client State α) (ref : Ref) (trace : List Event) : Option (Result α) :=
  client.outcome (stage client ref trace)

variable {client : Client State α} {maxPayload : UInt32} {ref : Ref} {earlier trace : List Event}
  {before s : Session} {allowed : List Event → Session → Action → Prop}

/-- In every run every stream is intact. -/
theorem intact_of_runs (hRun : Transition.Runs step allowed (start maxPayload) trace s) (ref : Ref) :
    (s.view ref).Intact := by
  refine @view_invariant _ _ (fun _ v => v.Intact) ref ?_ (fun _ _ _ hStep h => h.step hStep) _ _ hRun
  refine ⟨fun hNow => ?_, fun hNow => ?_, fun _ => ⟨?_, ?_, rfl⟩⟩
  · cases hNow
  · cases hNow
  · exact fun hNow => by cases hNow
  · rintro (hHeld | ⟨closer, hHeld⟩) <;> cases hHeld

/-- Both parts together are one run. -/
theorem ClientRun.whole (h : ClientRun client maxPayload ref earlier before trace s) :
    Transition.Runs step (Courteous ref) (start maxPayload) (earlier ++ trace) s :=
  h.called.append (h.served.mono fun _ _ _ hServing => hServing.1)

/-- Where the client stands after further events. -/
theorem stage_append (client : Client State α) (ref : Ref) (trace events : List Event) :
    stage client ref (trace ++ events) =
      (events.filterMap (Event.returns ref)).foldl client.resume (stage client ref trace) := by
  rw [stage, returns, List.filterMap_append, Process.after_append]
  rfl

/-- What holds when the client is called and is kept by every step from there on always holds. -/
theorem ClientRun.invariant {Inv : List Event → State → Session → Prop}
    (hStart : Inv [] client.initial before)
    (hStep : ∀ {trace events s s' action}, ClientRun client maxPayload ref earlier before trace s →
      Courteous ref (earlier ++ trace) s action →
      (∀ c ∈ clientCall ref s action, client.asks (stage client ref trace) = some c) →
      s.step action = some (s', events) → Inv trace (stage client ref trace) s →
      Inv (trace ++ events)
        ((events.filterMap (Event.returns ref)).foldl client.resume (stage client ref trace)) s')
    (h : ClientRun client maxPayload ref earlier before trace s) : Inv trace (stage client ref trace) s := by
  obtain ⟨hCalled, hServed⟩ := h
  induction hServed with
  | start => exact hStart
  | next hRun hAllowed hTaken ih =>
      rw [stage_append]
      exact hStep ⟨hCalled, hRun⟩ hAllowed.1 hAllowed.2 hTaken ih

/-- With a courteous device flow control holds, and everything is settled between calls. -/
theorem settled_of_courteous (hRun : Transition.Runs step (Courteous ref) (start maxPayload) trace s) :
    Regulated (ledger ref trace) (s.streams ref) (s.owners ref) ∧
      Settled (ledger ref trace) (s.streams ref) (s.owners ref) :=
  settled_of_answers (fun _ _ _ hAllowed hTarget => (hAllowed hTarget).1)
    (fun _ _ hAllowed => hAllowed rfl) hRun

/-- What one step of the session is to the owner of a stream, and what its call returns. -/
inductive ClientStep (s : Session) (ref : Ref) (action : Action) :
    List Returned → StreamState → Owner → Prop
  | apart {state : StreamState} : ClientStep s ref action [] state (s.owners ref)
  | born {state : StreamState} {service : Bytes} (hUnborn : s.owners ref = .unborn)
      (hAction : action = .openStream service) (hNext : s.nextRef = ref) :
      ClientStep s ref action [] state (.inserting service)
  | began {call : StreamCall} {p : OwnerStep} (hAction : action = .call ref call)
      (hIdle : s.owners ref = .idle) (hBegin : Owner.begin (s.streams ref) call = some p) :
      ClientStep s ref action p.returns p.state p.owner
  | advanced {p : OwnerStep} (hAction : action = .advance ref)
      (hAdvance : (s.owners ref).advance s.maxPayload s.outboxOpen (s.streams ref) = some p) :
      ClientStep s ref action p.returns p.state p.owner
  | cancelled {given : List Returned} {state : StreamState} {owner : Owner}
      (hAction : action = .cancel ref) : ClientStep s ref action given state owner

/-- The calls on a stream return what its owner reports. -/
theorem returns_events (ref : Ref) (p : OwnerStep) :
    (events ref p).filterMap (Event.returns ref) = p.returns := by
  have hReports : (p.reports.map (Event.owner ref)).filterMap (Event.returns ref) = p.returns := by
    rw [List.filterMap_map]
    refine List.filterMap_congr fun report _ => ?_
    cases report <;> simp [Event.returns, Report.returns]
  rw [events, List.filterMap_append, hReports]
  cases p.effect <;> rfl

/-- Events about other streams return nothing on this one. -/
theorem returns_other {ref : Ref} {events : List Event} (hEvents : ∀ event ∈ events, ¬event.Concerns ref) :
    events.filterMap (Event.returns ref) = [] := by
  refine List.filterMap_eq_nil_iff.mpr fun event hMember => ?_
  have hOther := hEvents event hMember
  cases event with
  | owner other report =>
      cases report with
      | returned result => exact if_neg hOther
      | _ => rfl
  | _ => rfl

/-- Every step is one of these to every stream. -/
theorem step_client {s s' : Session} {action : Action} {events : List Event} (hNamed : s.Named)
    (h : s.step action = some (s', events)) (ref : Ref) :
    ClientStep s ref action (events.filterMap (Event.returns ref)) (s'.streams ref) (s'.owners ref) := by
  have hCause := step_cause hNamed h
  by_cases hActor : action.actor = some ref
  · cases action with
    | call other call =>
        cases hActor
        obtain ⟨hIdle, p, hBegin, rfl, rfl⟩ := step_call h
        rw [perform_streams, perform_owners, Function.update_self, Function.update_self, returns_events]
        exact .began rfl hIdle hBegin
    | advance other =>
        cases hActor
        obtain ⟨p, hAdvance, rfl, rfl⟩ := step_advance h
        rw [perform_streams, perform_owners, Function.update_self, Function.update_self, returns_events]
        exact .advanced rfl hAdvance
    | cancel other =>
        cases hActor
        exact .cancelled rfl
    | _ => cases hActor
  · have hQuiet : events.filterMap (Event.returns ref) = [] := by
      refine List.filterMap_eq_nil_iff.mpr fun event hMember => ?_
      cases event with
      | owner other report =>
          cases report with
          | returned result =>
              refine if_neg fun hSame => hActor ?_
              exact hSame ▸ hCause.acted other _ hMember
          | _ => rfl
      | _ => rfl
    rw [hQuiet]
    rcases hCause.owner ref with hSame | hActed | hUnborn
    · rw [hSame]
      exact .apart
    · exact absurd hActed hActor
    · rcases step_births h with ⟨service, rfl, rfl⟩ | ⟨-, -, -, hOwners⟩
      · by_cases hRef : s.nextRef = ref
        · have hOwner : (s.allocate service).owners ref = .inserting service := by
            simp [allocate, setStream, setOwner, hRef]
          rw [hOwner]
          exact .born hUnborn rfl hRef
        · have hOwner : (s.allocate service).owners ref = s.owners ref := by
            simp [allocate, setStream, setOwner, Ne.symm hRef]
          rw [hOwner]
          exact .apart
      · rw [(hOwners ref).mpr hUnborn, ← hUnborn]
        exact .apart

/-- What an owner does on its own stream, unless its call is dropped. -/
theorem step_own {s s' : Session} {action : Action} {events : List Event} {ref : Ref}
    (h : s.step action = some (s', events)) (hActor : action.actor = some ref) (hKept : action ≠ .cancel ref) :
    ∃ p, s' = (s.perform ref p).1 ∧ events = Session.events ref p ∧
      ((∃ call, action = .call ref call ∧ s.owners ref = .idle ∧ Owner.begin (s.streams ref) call = some p) ∨
        (s.owners ref).advance s.maxPayload s.outboxOpen (s.streams ref) = some p) := by
  cases action with
  | call other call =>
      cases hActor
      obtain ⟨hIdle, p, hBegin, hAfter, hEvents⟩ := step_call h
      exact ⟨p, hAfter, hEvents, Or.inl ⟨call, rfl, hIdle, hBegin⟩⟩
  | advance other =>
      cases hActor
      obtain ⟨p, hAdvance, hAfter, hEvents⟩ := step_advance h
      exact ⟨p, hAfter, hEvents, Or.inr hAdvance⟩
  | cancel other =>
      cases hActor
      exact absurd rfl hKept
  | _ => cases hActor

/-- What the others do leaves the owner where it is. It can close its stream,
acknowledge its message and add to its queue. -/
theorem step_apart {s s' : Session} {action : Action} {events : List Event} (hNamed : s.Named)
    (h : s.step action = some (s', events)) {ref : Ref} (hActor : action.actor ≠ some ref)
    (hBorn : s.owners ref ≠ .unborn) :
    s'.owners ref = s.owners ref ∧ (∀ report, .owner ref report ∉ events) ∧
      (s'.streams ref).dataRx = (s.streams ref).dataRx ∧
      ((s.Registered ref → ((s.streams ref).dataTx && (s.streams ref).dataRx) = true) →
        (s'.streams ref).queue = (s.streams ref).queue ++ events.filterMap (Event.delivery ref)) ∧
      (¬s.Registered ref → s'.streams ref = s.streams ref ∨ s'.streams ref = (s.streams ref).markClosed) := by
  have hCause := step_cause hNamed h
  have hOwner : s'.owners ref = s.owners ref := (hCause.owner ref).resolve_right (not_or.mpr ⟨hActor, hBorn⟩)
  have hSilent : ∀ report, .owner ref report ∉ events := fun report hMember =>
    hActor (hCause.acted ref report hMember)
  refine ⟨hOwner, hSilent, ?_⟩
  have hView := step_view hNamed h ref
  have hKeep : ∀ {v' : StreamView} {events : List Event}, v'.state = s.streams ref →
      (∀ event ∈ events, event.delivery ref = none) → v'.state.dataRx = (s.streams ref).dataRx ∧
      ((s.Registered ref → ((s.streams ref).dataTx && (s.streams ref).dataRx) = true) →
        v'.state.queue = (s.streams ref).queue ++ events.filterMap (Event.delivery ref)) ∧
      (¬s.Registered ref → v'.state = s.streams ref ∨ v'.state = (s.streams ref).markClosed) := by
    rintro v' events hState hNothing
    rw [List.filterMap_eq_nil_iff.mpr hNothing, hState, List.append_nil]
    exact ⟨rfl, fun _ => rfl, fun _ => Or.inl rfl⟩
  change (s'.view ref).state.dataRx = _ ∧ (_ → (s'.view ref).state.queue = _) ∧
    (_ → (s'.view ref).state = _ ∨ (s'.view ref).state = _)
  generalize hAfter : s'.view ref = v' at hView
  have hStands : v'.owner = s.owners ref := by
    rw [← hAfter]
    exact hOwner
  cases hView with
  | other hEvents hMissed hState =>
      refine hKeep hState fun event hMember => ?_
      have hOther := hEvents event hMember
      cases event with
      | dispatched msg target => exact if_neg fun hBoth => hOther hBoth.1
      | _ => rfl
  | born hUnborn => exact absurd hUnborn hBorn
  | @own _ p _ hMoves hState hNext =>
      rcases hMoves.move.seen with hElsewhere | ⟨report, hReport⟩
      · exact absurd (hNext.symm.trans hStands) hElsewhere
      · exact absurd (List.mem_append_right _ (List.mem_map_of_mem hReport)) (hSilent report)
  | cancelled =>
      refine absurd ?_ hActor
      rw [(hCause.cancelled ref).mp List.mem_cons_self]
      rfl
  | acked hCommand hTarget hId hState =>
      rw [hState]
      exact ⟨rfl, fun _ => by simp [Event.delivery, hCommand, StreamState.ack, StreamState.count,
        StreamState.adopt, StreamState.notifyOne, view], fun hOut => absurd hTarget hOut⟩
  | delivered hCommand hTarget hId hState =>
      obtain ⟨-, -, hQueued⟩ := StreamState.deliver_eq hState
      rw [hQueued]
      exact ⟨rfl, fun _ => by simp [Event.delivery, hCommand, view], fun hOut => absurd hTarget hOut⟩
  | @refused _ msg _ hCommand hTarget hId hDeliver hMore hState =>
      rw [hState]
      refine ⟨rfl, fun hListens => ?_, fun hOut => absurd hTarget hOut⟩
      have hTaken : (s.view ref).state.deliver msg.payload = (_, true) := if_pos (hListens hTarget)
      rw [hTaken] at hDeliver
      exact Bool.noConfusion (congrArg Prod.snd hDeliver)
  | ended hCommand hTarget hId hState =>
      rw [hState]
      exact ⟨rfl, fun _ => by simp [Event.delivery, hCommand, StreamState.markClosed, StreamState.shut,
        StreamState.release, StreamState.notifyOne, view], fun hOut => absurd hTarget hOut⟩
  | ignored hCommand hTarget hId hState =>
      exact hKeep hState fun event hMember => by
        rw [List.mem_singleton.mp hMember]
        exact if_neg fun hBoth => hCommand.2.1 hBoth.2
  | handed hState | drained _ _ hState =>
      exact hKeep hState fun event hMember => by
        rw [List.mem_singleton.mp hMember]
        rfl
  | marked hWaited hState =>
      rw [hState]
      exact ⟨rfl, fun _ => (List.append_nil _).symm, fun _ => Or.inr rfl⟩

/-- An owner delivers nothing to itself. -/
theorem delivery_events (ref : Ref) (p : OwnerStep) :
    (events ref p).filterMap (Event.delivery ref) = [] := by
  refine List.filterMap_eq_nil_iff.mpr fun event hMember => ?_
  rcases List.mem_append.mp hMember with hEffect | hReport
  · cases hCase : p.effect <;> simp only [hCase, List.mem_singleton, List.not_mem_nil] at hEffect <;>
      rw [hEffect] <;> rfl
  · obtain ⟨report, -, rfl⟩ := List.mem_map.mp hReport
    rfl

/-- Nothing is delivered to a stream that the registry does not hold. -/
theorem delivery_outside {s s' : Session} {action : Action} {events : List Event} (hNamed : s.Named)
    (h : s.step action = some (s', events)) {ref : Ref} (hOut : ¬s.Registered ref) :
    events.filterMap (Event.delivery ref) = [] := by
  refine List.filterMap_eq_nil_iff.mpr fun event hMember => ?_
  cases event with
  | dispatched msg target =>
      refine if_neg fun ⟨hTarget, _⟩ => hOut ?_
      subst hTarget
      have hGet := ((step_cause hNamed h).dispatched msg (some ref) hMember).2
      rw [Registered, hNamed.names _ ref hGet, hGet]
  | _ => rfl

/-- An owner that keeps its stream keeps its receiver. -/
private theorem Move.listening {outboxOpen : Bool} {state : StreamState} {owner : Owner} {p : OwnerStep}
    (h : Move maxPayload outboxOpen state owner p) (hAlive : p.owner.Alive) : p.state.dataRx = state.dataRx := by
  cases h with
  | unrequested | refused | droppedClosed | left => exact hAlive.elim
  | _ => rfl

/-- An owner that holds its stream has its receiver. -/
theorem listening_of_runs (hRun : Transition.Runs step allowed (start maxPayload) trace s) (ref : Ref)
    (hAlive : (s.owners ref).Alive) : (s.streams ref).dataRx = true := by
  revert hAlive
  refine @view_invariant _ _ (fun _ v => v.owner.Alive → v.state.dataRx = true) ref (fun _ => rfl) ?_ _ _ hRun
  intro trace s s' action events hRun hAllowed hTaken hStep hListens hAlive
  cases hStep with
  | born _ hState =>
      rw [hState]
      rfl
  | own hMoves hState hOwner =>
      rw [hOwner] at hAlive
      rw [hState, Move.listening hMoves.move hAlive]
      exact hListens hMoves.alive
  | cancelled hCancel hState hOwner =>
      rw [hOwner] at hAlive
      rw [hState]
      obtain ⟨purpose, seen, hWaiting, rfl | rfl⟩ := Owner.cancel_cases hCancel
      · exact hAlive.elim
      · refine hListens ?_
        rw [hWaiting]
        trivial
  | delivered _ _ _ hState hOwner =>
      rw [hOwner] at hAlive
      obtain ⟨-, -, hQueued⟩ := StreamState.deliver_eq hState
      rw [hQueued]
      exact hListens hAlive
  | other _ _ hState hOwner | acked _ _ _ hState hOwner | refused _ _ _ _ _ hState hOwner
  | ended _ _ _ hState hOwner | ignored _ _ _ hState hOwner | handed hState hOwner
  | drained _ _ hState hOwner | marked _ hState hOwner =>
      rw [hOwner] at hAlive
      rw [hState]
      exact hListens hAlive

/-- The flag of a stream tells whether its sender is in place. -/
theorem flag_of_runs (hRun : Transition.Runs step allowed (start maxPayload) trace s) (ref : Ref) :
    (s.streams ref).closed = !(s.streams ref).dataTx := by
  refine @view_invariant _ _ (fun _ v => v.state.closed = !v.state.dataTx) ref rfl ?_ _ _ hRun
  intro trace s s' action events hRun hAllowed hTaken hStep hFlag
  cases hStep with
  | own hMoves hState =>
      rw [hState]
      rcases hMoves.custody.flag with ⟨hClosed, hTx⟩ | ⟨hMarked, -⟩
      · rw [hClosed, hTx]
        exact hFlag
      · rw [hMarked]
        rfl
  | cancelled hCancel hState =>
      rw [hState]
      obtain ⟨purpose, seen, -, rfl | rfl⟩ := Owner.cancel_cases hCancel <;> exact hFlag
  | delivered _ _ _ hState =>
      obtain ⟨-, -, hQueued⟩ := StreamState.deliver_eq hState
      rw [hQueued]
      exact hFlag
  | born _ hState | ended _ _ _ hState | marked _ hState =>
      rw [hState]
      rfl
  | other _ _ hState | acked _ _ _ hState | refused _ _ _ _ _ hState | ignored _ _ _ hState | handed hState
  | drained _ _ hState =>
      rw [hState]
      exact hFlag

end Session
end Rsadb
