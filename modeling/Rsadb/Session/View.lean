import Rsadb.Session.Moves
import Rsadb.Session.Steps

/-! What one step of the session does to one stream. The state of a stream, its
owner and its place in the registry form a view; `step_view` says once what can
happen to it, and every property of single streams is derived from that. -/
namespace Rsadb

/-- Whether an event speaks of a stream. -/
def Event.Concerns (ref : Ref) : Event → Prop
  | .registered other _ => other = ref
  | .dispatched _ target => target = some ref
  | .posted source _ => source = some ref
  | .handed source _ => source = some ref
  | .owner other _ => other = ref
  | .drained refs => ref ∈ refs
  | .cancelled other => other = ref
  | .readerEnded => False

/-- A step of the pending call, or the first step of a new one. -/
inductive OwnerMoves (maxPayload : UInt32) (outboxOpen : Bool) (state : StreamState) :
    Owner → OwnerStep → Prop
  | begin {call : StreamCall} {p : OwnerStep} :
      Owner.begin state call = some p → OwnerMoves maxPayload outboxOpen state .idle p
  | advance {owner : Owner} {p : OwnerStep} :
      owner.advance maxPayload outboxOpen state = some p →
      OwnerMoves maxPayload outboxOpen state owner p

/-- One stream: its state, its owner, whether the registry holds it under its
local id, and whether some `close_all` has drained but not yet marked it. -/
structure StreamView where
  state : StreamState
  owner : Owner
  registered : Prop
  pending : Prop

/-- Whether the next step of the owner inserts its stream into the registry, or
removes what is there under its id. -/
def Owner.Writes : Owner → Prop
  | .inserting _ => True
  | .refusing _ => True
  | .removing _ _ => True
  | _ => False

/-- What can happen to one stream. `clash` says that the step writes to the
registry for another stream with the same local id: only then can the registry
lose the stream by accident. -/
inductive ViewStep (maxPayload : UInt32) (clash : Prop) (ref : Ref) :
    StreamView → List Event → StreamView → Prop
  | other {v v' : StreamView} {events : List Event} (hEvents : ∀ event ∈ events, ¬event.Concerns ref)
      (hMissed : v.registered → ∀ msg target, .dispatched msg target ∈ events →
        msg.arg1 ≠ v.state.localId)
      (hState : v'.state = v.state) (hOwner : v'.owner = v.owner)
      (hLost : v'.registered → v.registered) (hKept : v.registered → v'.registered ∨ clash)
      (hPending : v'.pending ↔ v.pending) : ViewStep maxPayload clash ref v events v'
  | born {v v' : StreamView} {id : UInt32} {service : Bytes} (hUnborn : v.owner = .unborn)
      (hState : v'.state = StreamState.fresh id) (hOwner : v'.owner = .inserting service)
      (hUnregistered : ¬v'.registered) (hPending : ¬v'.pending) :
      ViewStep maxPayload clash ref v [] v'
  | own {v v' : StreamView} {p : OwnerStep} {outboxOpen : Bool}
      (hStep : OwnerMoves maxPayload outboxOpen v.state v.owner p)
      (hState : v'.state = p.state) (hOwner : v'.owner = p.owner)
      (hRegistered : match p.effect with
        | .insert => v'.registered
        | .remove => ¬v'.registered
        | _ => (v'.registered ↔ v.registered))
      (hPending : v'.pending ↔ v.pending) : ViewStep maxPayload clash ref v (Session.events ref p) v'
  | cancelled {v v' : StreamView} {p : OwnerStep} (hStep : v.owner.cancel v.state = some p)
      (hState : v'.state = p.state) (hOwner : v'.owner = p.owner)
      (hRegistered : v'.registered ↔ v.registered) (hPending : v'.pending ↔ v.pending) :
      ViewStep maxPayload clash ref v [.cancelled ref] v'
  | acked {v v' : StreamView} {msg : Message} (hCommand : msg.command = .okay)
      (hTarget : v.registered) (hId : msg.arg1 = v.state.localId)
      (hState : v'.state = v.state.ack msg.arg0) (hOwner : v'.owner = v.owner)
      (hRegistered : v'.registered) (hPending : v'.pending ↔ v.pending) :
      ViewStep maxPayload clash ref v [.dispatched msg (some ref)] v'
  | delivered {v v' : StreamView} {msg : Message} (hCommand : msg.command = .write)
      (hTarget : v.registered) (hId : msg.arg1 = v.state.localId)
      (hState : v.state.deliver msg.payload = (v'.state, true)) (hOwner : v'.owner = v.owner)
      (hRegistered : v'.registered) (hPending : v'.pending ↔ v.pending) :
      ViewStep maxPayload clash ref v [.dispatched msg (some ref)] v'
  | refused {v v' : StreamView} {msg : Message} {more : List Event} (hCommand : msg.command = .write)
      (hTarget : v.registered) (hId : msg.arg1 = v.state.localId)
      (hDeliver : v.state.deliver msg.payload = (v.state, false))
      (hMore : ∀ event ∈ more, ∃ refusal, event = .posted none refusal)
      (hState : v'.state = v.state) (hOwner : v'.owner = v.owner) (hRegistered : v'.registered)
      (hPending : v'.pending ↔ v.pending) :
      ViewStep maxPayload clash ref v (.dispatched msg (some ref) :: more) v'
  | ended {v v' : StreamView} {msg : Message} (hCommand : msg.command = .close)
      (hTarget : v.registered) (hId : msg.arg1 = v.state.localId)
      (hState : v'.state = v.state.markClosed) (hOwner : v'.owner = v.owner)
      (hRegistered : ¬v'.registered) (hPending : v'.pending ↔ v.pending) :
      ViewStep maxPayload clash ref v [.dispatched msg (some ref)] v'
  | ignored {v v' : StreamView} {msg : Message}
      (hCommand : msg.command ≠ .okay ∧ msg.command ≠ .write ∧ msg.command ≠ .close)
      (hTarget : v.registered) (hId : msg.arg1 = v.state.localId)
      (hState : v'.state = v.state) (hOwner : v'.owner = v.owner) (hRegistered : v'.registered)
      (hPending : v'.pending ↔ v.pending) :
      ViewStep maxPayload clash ref v [.dispatched msg (some ref)] v'
  | handed {v v' : StreamView} {msg : Message} (hState : v'.state = v.state)
      (hOwner : v'.owner = v.owner) (hRegistered : v'.registered ↔ v.registered)
      (hPending : v'.pending ↔ v.pending) :
      ViewStep maxPayload clash ref v [.handed (some ref) msg] v'
  | drained {v v' : StreamView} {refs : List Ref} (hMember : ref ∈ refs) (hTarget : v.registered)
      (hState : v'.state = v.state) (hOwner : v'.owner = v.owner)
      (hRegistered : ¬v'.registered) (hPending : v'.pending) :
      ViewStep maxPayload clash ref v [.drained refs] v'
  | marked {v v' : StreamView} (hWaited : v.pending) (hState : v'.state = v.state.markClosed)
      (hOwner : v'.owner = v.owner) (hRegistered : v'.registered ↔ v.registered)
      (hPending : v'.pending → v.pending) : ViewStep maxPayload clash ref v [] v'

namespace Session

/-- The registry holds the stream under its local id. -/
def Registered (s : Session) (ref : Ref) : Prop := s.get (s.streams ref).localId = some ref

/-- Some `close_all` has taken the stream out of the registry and not yet marked it. -/
def Pending (s : Session) (ref : Ref) : Prop :=
  ref ∈ s.reader.unmarked ∨ ∃ closer, ref ∈ (s.closers closer).unmarked

def view (s : Session) (ref : Ref) : StreamView :=
  ⟨s.streams ref, s.owners ref, s.Registered ref, s.Pending ref⟩

/-- The action writes to the registry for another stream that has the local id of this one. -/
def Clash (s : Session) (action : Action) (ref : Ref) : Prop :=
  ∃ other, action = .advance other ∧ other ≠ ref ∧ (s.owners other).Writes ∧
    (s.streams other).localId = (s.streams ref).localId

/-- The registry knows every stream by its local id, and nobody speaks of a
stream that does not exist yet. -/
structure Named (s : Session) : Prop where
  names : ∀ id ref, s.get id = some ref → (s.streams ref).localId = id
  registered_born : ∀ id ref, s.get id = some ref → ref < s.nextRef
  pending_born : ∀ ref, s.Pending ref → ref < s.nextRef
  unborn : ∀ ref, s.owners ref = .unborn ↔ s.nextRef ≤ ref

end Session

theorem OwnerMoves.move {maxPayload : UInt32} {outboxOpen : Bool} {state : StreamState}
    {owner : Owner} {p : OwnerStep} (h : OwnerMoves maxPayload outboxOpen state owner p) :
    Move maxPayload outboxOpen state owner p := by
  cases h with
  | begin hBegin => exact Owner.begin_move hBegin
  | advance hAdvance => exact Owner.advance_move hAdvance

/-- An owner that changes the registry is one whose next step writes to it. -/
theorem Move.writes {maxPayload : UInt32} {outboxOpen : Bool} {state : StreamState}
    {owner : Owner} {p : OwnerStep} (h : Move maxPayload outboxOpen state owner p)
    (hEffect : p.effect = .insert ∨ p.effect = .remove) : owner.Writes := by
  cases h with
  | inserted | refused | removed => trivial
  | parted | left => cases outboxOpen <;> simp [Owner.leave] at hEffect
  | _ => simp [Owner.leave] at hEffect

theorem Owner.cancel_born {state : StreamState} {owner : Owner} {p : OwnerStep}
    (h : owner.cancel state = some p) :
    owner ≠ .unborn ∧ p.owner ≠ .unborn ∧ p.effect = .nothing ∧ p.reports = [] ∧
      p.state.localId = state.localId := by
  unfold Owner.cancel at h
  split at h <;> cases h <;> simp [StreamState.dropReceiver]

namespace Session

variable {clash : Prop}

theorem pending_congr {s s' : Session} (hReader : s'.reader.unmarked = s.reader.unmarked)
    (hClosers : ∀ closer, (s'.closers closer).unmarked = (s.closers closer).unmarked) (ref : Ref) :
    s'.Pending ref ↔ s.Pending ref := by
  simp only [Pending, hReader, hClosers]

/-- The registry's content, stream by stream. -/
theorem mem_registered {s : Session} (hNamed : s.Named) (ref : Ref) :
    ref ∈ s.registered ↔ s.Registered ref := by
  simp only [registered, Registered, List.mem_map]
  constructor
  · rintro ⟨⟨id, other⟩, hEntry, rfl⟩
    have hGet : s.get id = some other := AList.mem_lookup_iff.mpr hEntry
    rwa [hNamed.names id other hGet]
  · intro hGet
    exact ⟨⟨(s.streams ref).localId, ref⟩, AList.mem_lookup_iff.mp hGet, rfl⟩

/-- A message reaches a stream exactly when the registry holds the stream under that id. -/
theorem get_eq_some_iff {s : Session} (hNamed : s.Named) (id : UInt32) (ref : Ref) :
    s.get id = some ref ↔ s.Registered ref ∧ id = (s.streams ref).localId := by
  constructor
  · intro hGet
    have hId := hNamed.names id ref hGet
    exact ⟨by rw [Registered, hId, hGet], hId.symm⟩
  · rintro ⟨hRegistered, rfl⟩
    exact hRegistered

/-- The view of a stream that the step neither owns nor names. -/
private theorem view_perform_other {s : Session} (ref : Ref) {p : OwnerStep} (maxPayload : UInt32)
    (hId : p.state.localId = (s.streams ref).localId) {other : Ref} (hOther : other ≠ ref)
    (hClash : p.effect = .insert ∨ p.effect = .remove →
      (s.streams ref).localId = (s.streams other).localId → clash) {events : List Event}
    (hEvents : ∀ event ∈ events, ¬event.Concerns other)
    (hQuiet : ∀ msg target, .dispatched msg target ∉ events) :
    ViewStep maxPayload clash other (s.view other) events ((s.perform ref p).1.view other) := by
  have hState : ((s.perform ref p).1.view other).state = (s.view other).state := by
    simp [view, hOther]
  have hOwner : ((s.perform ref p).1.view other).owner = (s.view other).owner := by
    simp [view, hOther]
  have hPending : ((s.perform ref p).1.view other).pending ↔ (s.view other).pending := by
    obtain ⟨hReader, -, hClosers, -⟩ := perform_frame s ref p
    exact pending_congr (by rw [hReader]) (fun closer => by rw [hClosers]) other
  have hSame : (s.perform ref p).1.streams other = s.streams other := hState
  suffices hRegistered : (s.perform ref p).1.Registered other ↔ s.Registered other ∧
      (p.effect = .insert ∨ p.effect = .remove → (s.streams other).localId ≠ p.state.localId) by
    refine ViewStep.other hEvents (fun _ msg target hMember => absurd hMember (hQuiet msg target))
      hState hOwner (fun h => (hRegistered.mp h).1) (fun h => ?_) hPending
    by_cases hLost : (p.effect = .insert ∨ p.effect = .remove) ∧
        (s.streams ref).localId = (s.streams other).localId
    · exact Or.inr (hClash hLost.1 hLost.2)
    · refine Or.inl (hRegistered.mpr ⟨h, fun hEffect hEq => hLost ⟨hEffect, ?_⟩⟩)
      rw [← hId, hEq]
  simp only [Registered, hSame]
  by_cases hEq : (s.streams other).localId = p.state.localId <;> cases hEffect : p.effect <;>
    simp [perform, get, setStream, setOwner, hEffect, hEq, Registry.find_insert,
      Registry.find_erase, Ne.symm hOther]

/-- The view of a stream that a step leaves alone. -/
private theorem view_same {s s' : Session} {ref : Ref} (maxPayload : UInt32) {events : List Event}
    (hEvents : ∀ event ∈ events, ¬event.Concerns ref)
    (hMissed : s.Registered ref → ∀ msg target, .dispatched msg target ∈ events →
      msg.arg1 ≠ (s.streams ref).localId)
    (hState : s'.streams ref = s.streams ref) (hOwner : s'.owners ref = s.owners ref) (hRegistered : s'.Registered ref ↔ s.Registered ref)
    (hPending : s'.Pending ref ↔ s.Pending ref) :
    ViewStep maxPayload clash ref (s.view ref) events (s'.view ref) :=
  ViewStep.other hEvents hMissed hState hOwner hRegistered.mp
    (fun h => Or.inl (hRegistered.mpr h)) hPending

/-- The view of the stream whose owner takes a step. -/
private theorem view_perform_self {s : Session} (ref : Ref) {p : OwnerStep} {outboxOpen : Bool}
    (hStep : OwnerMoves s.maxPayload outboxOpen (s.streams ref) (s.owners ref) p) :
    ViewStep s.maxPayload clash ref (s.view ref) (s.perform ref p).2
      ((s.perform ref p).1.view ref) := by
  have hId := hStep.move.localId
  obtain ⟨hReader, -, hClosers, -⟩ := perform_frame s ref p
  refine ViewStep.own hStep (by simp [view]) (by simp [view]) ?_
    (pending_congr (by rw [hReader]) (fun closer => by rw [hClosers]) ref)
  cases hEffect : p.effect <;>
    simp [perform, view, Registered, get, setStream, setOwner, hEffect, Registry.find_insert,
      Registry.find_erase, hId]

/-- The view of the stream whose pending call is dropped. -/
private theorem view_cancel_self {s : Session} (ref : Ref) {p : OwnerStep}
    (hCancel : (s.owners ref).cancel (s.streams ref) = some p) :
    ViewStep s.maxPayload clash ref (s.view ref) [.cancelled ref]
      ((s.perform ref p).1.view ref) := by
  obtain ⟨-, -, hEffect, -, hId⟩ := Owner.cancel_born hCancel
  obtain ⟨hReader, -, hClosers, -⟩ := perform_frame s ref p
  refine ViewStep.cancelled hCancel (by simp [view]) (by simp [view]) ?_
    (pending_congr (by rw [hReader]) (fun closer => by rw [hClosers]) ref)
  simp [perform, view, Registered, get, setStream, setOwner, hEffect, hId]

/-- What an owner's step reports concerns its own stream only. -/
private theorem events_concerns {ref other : Ref} (hOther : other ≠ ref) (p : OwnerStep) :
    ∀ event ∈ events ref p, ¬event.Concerns other := by
  intro event hMember
  simp only [events, List.mem_append, List.mem_map] at hMember
  rcases hMember with hEffect | ⟨report, -, rfl⟩
  · cases hCase : p.effect <;> simp only [hCase, List.mem_singleton, List.not_mem_nil] at hEffect <;>
      subst event <;> simp [Event.Concerns, Ne.symm hOther]
  · simp [Event.Concerns, Ne.symm hOther]

@[simp] theorem setStream_self (s : Session) (ref : Ref) (state : StreamState) :
    (s.setStream ref state).streams ref = state := by
  simp [setStream]

theorem setStream_registered {s : Session} {ref : Ref} {state : StreamState}
    (h : state.localId = (s.streams ref).localId) :
    (s.setStream ref state).Registered ref ↔ s.Registered ref := by
  unfold Registered
  rw [setStream_self, h]
  rfl

theorem deliver_localId {state next : StreamState} {data : Bytes} {taken : Bool}
    (h : state.deliver data = (next, taken)) : next.localId = state.localId := by
  unfold StreamState.deliver at h
  split at h <;> cases h <;> rfl

/-- What routing a message can do. -/
inductive Routed (s : Session) (msg : Message) : Session → List Event → Prop
  | acked {ref : Ref} (hCommand : msg.command = .okay) (hTarget : s.get msg.arg1 = some ref) :
      Routed s msg (s.setStream ref ((s.streams ref).ack msg.arg0)) []
  | delivered {ref : Ref} {state : StreamState} (hCommand : msg.command = .write)
      (hTarget : s.get msg.arg1 = some ref)
      (hDeliver : (s.streams ref).deliver msg.payload = (state, true)) :
      Routed s msg (s.setStream ref state) []
  | refused (hCommand : msg.command = .write)
      (hDeliver : ∀ ref, s.get msg.arg1 = some ref →
        (s.streams ref).deliver msg.payload = (s.streams ref, false)) (hOpen : s.outboxOpen) :
      Routed s msg { s with outbox := s.outbox ++ [(none, .empty .close msg.arg1 msg.arg0)] }
        [.posted none (.empty .close msg.arg1 msg.arg0)]
  | broken (hCommand : msg.command = .write)
      (hDeliver : ∀ ref, s.get msg.arg1 = some ref →
        (s.streams ref).deliver msg.payload = (s.streams ref, false)) :
      Routed s msg { s with reader := .stopping } []
  | ended {ref : Ref} (hCommand : msg.command = .close) (hTarget : s.get msg.arg1 = some ref) :
      Routed s msg { s.setStream ref (s.streams ref).markClosed with
        registry := s.registry.erase msg.arg1 } []
  | unknown (hCommand : msg.command = .okay ∨ msg.command = .close)
      (hTarget : s.get msg.arg1 = none) : Routed s msg s []
  | ignored (hCommand : msg.command ≠ .okay ∧ msg.command ≠ .write ∧ msg.command ≠ .close) :
      Routed s msg s []
  | unsupported (hCommand : msg.command ≠ .okay ∧ msg.command ≠ .write ∧ msg.command ≠ .close) :
      Routed s msg { s with reader := .stopping } []

/-- A payload that is not delivered leaves the stream as it is. -/
private theorem deliver_false {state : StreamState} {data : Bytes}
    (h : ¬(state.deliver data).2 = true) : state.deliver data = (state, false) := by
  unfold StreamState.deliver at h ⊢
  split at h
  · exact absurd rfl h
  · rename_i hClosed
    rw [if_neg hClosed]

theorem route_routed (s : Session) (msg : Message) :
    Routed s msg (s.route msg).1 (s.route msg).2 := by
  have hRefuse : msg.command = .write → (∀ ref, s.get msg.arg1 = some ref →
      (s.streams ref).deliver msg.payload = (s.streams ref, false)) →
      Routed s msg (s.refuse msg).1 (s.refuse msg).2 := by
    intro hCommand hDeliver
    unfold refuse
    split
    · rename_i hOpen
      exact .refused hCommand hDeliver hOpen
    · exact .broken hCommand hDeliver
  unfold route
  split
  · rename_i ref hCommand hTarget
    exact .acked hCommand hTarget
  · rename_i hCommand hTarget
    exact .unknown (Or.inl hCommand) hTarget
  · rename_i ref hCommand hTarget
    split
    · rename_i hTaken
      exact .delivered hCommand hTarget (Prod.ext rfl hTaken)
    · rename_i hTaken
      refine hRefuse hCommand (fun other hOther => ?_)
      rw [hTarget, Option.some.injEq] at hOther
      subst other
      exact deliver_false hTaken
  · rename_i hCommand hTarget
    exact hRefuse hCommand (fun ref hRef => by rw [hTarget] at hRef; cases hRef)
  · rename_i ref hCommand hTarget
    exact .ended hCommand hTarget
  · rename_i hCommand hTarget
    exact .unknown (Or.inr hCommand) hTarget
  · rename_i hCommand
    exact .unsupported (by simp [hCommand])
  · rename_i hCommand
    exact .unsupported (by simp [hCommand])
  all_goals
    rename_i hCommand
    exact .ignored (by simp [hCommand])

/-- Routing leaves the owners, the closers and the streams it does not reach alone. -/
theorem Routed.frame {s s' : Session} {msg : Message} {events : List Event}
    (h : Routed s msg s' events) :
    s'.owners = s.owners ∧ s'.closers = s.closers ∧ s'.nextRef = s.nextRef ∧
    s'.maxPayload = s.maxPayload ∧
    (s.reader = .reading → s'.reader = .reading ∨ s'.reader = .stopping) ∧
    (∀ event ∈ events, ∃ refusal, event = .posted none refusal) ∧
    ∀ ref, s.get msg.arg1 ≠ some ref → s'.streams ref = s.streams ref := by
  cases h with
  | acked hCommand hTarget | delivered hCommand hTarget | ended hCommand hTarget =>
      refine ⟨rfl, rfl, rfl, rfl, Or.inl, by simp, fun ref hRef => ?_⟩
      have hNe : ref ≠ _ := fun hEq => hRef (hEq ▸ hTarget)
      simp [setStream, hNe]
  | refused => exact ⟨rfl, rfl, rfl, rfl, Or.inl, by simp, fun _ _ => rfl⟩
  | broken => exact ⟨rfl, rfl, rfl, rfl, fun _ => Or.inr rfl, by simp, fun _ _ => rfl⟩
  | unknown => exact ⟨rfl, rfl, rfl, rfl, Or.inl, by simp, fun _ _ => rfl⟩
  | ignored => exact ⟨rfl, rfl, rfl, rfl, Or.inl, by simp, fun _ _ => rfl⟩
  | unsupported => exact ⟨rfl, rfl, rfl, rfl, fun _ => Or.inr rfl, by simp, fun _ _ => rfl⟩

theorem Routed.nextId {s s' : Session} {msg : Message} {events : List Event}
    (h : Routed s msg s' events) : s'.nextId = s.nextId := by
  cases h <;> rfl

/-- A stream that the message does not reach stays registered or unregistered. -/
theorem Routed.registered_other {s s' : Session} {msg : Message} {events : List Event}
    (h : Routed s msg s' events) {ref : Ref} (hRef : s.get msg.arg1 ≠ some ref) :
    s'.Registered ref ↔ s.Registered ref := by
  have hState := h.frame.2.2.2.2.2.2 ref hRef
  unfold Registered
  rw [hState]
  cases h with
  | ended hCommand hTarget =>
      simp only [get, Registry.find_erase]
      split_ifs with hId
      · rw [hId]
        simpa [get] using hRef
      · rfl
  | _ => rfl

/-- What an owner's step reports is no dispatch. -/
private theorem events_quiet (ref : Ref) (p : OwnerStep) (msg : Message) (target : Option Ref) :
    .dispatched msg target ∉ events ref p := by
  intro hMember
  simp only [events, List.mem_append, List.mem_map, reduceCtorEq, and_false, exists_false,
    or_false] at hMember
  cases hCase : p.effect <;> simp [hCase] at hMember

/-- What a message does to the stream that it is for. -/
private theorem view_routed {s s' : Session} {msg : Message} {events : List Event} {ref : Ref}
    (hNamed : s.Named) (hRouted : Routed s msg s' events) (hTarget : s.get msg.arg1 = some ref)
    (hOwner : (s'.view ref).owner = (s.view ref).owner) (hPending : s'.Pending ref ↔ s.Pending ref)
    (hMore : ∀ event ∈ events, ∃ refusal, event = .posted none refusal) :
    ViewStep s.maxPayload clash ref (s.view ref) (.dispatched msg (some ref) :: events) (s'.view ref) := by
  obtain ⟨hRegistered, hId⟩ := (get_eq_some_iff hNamed msg.arg1 ref).mp hTarget
  have hSame : ∀ {other : Ref}, s.get msg.arg1 = some other → other = ref := fun hGet =>
    Option.some.inj (hGet.symm.trans hTarget)
  cases hRouted with
  | acked hCommand hGet =>
      obtain rfl := hSame hGet
      refine ViewStep.acked hCommand hRegistered hId ?_ hOwner ?_ hPending
      · exact setStream_self s _ _
      · refine (setStream_registered ?_).mpr hRegistered
        rfl
  | delivered hCommand hGet hDeliver =>
      obtain rfl := hSame hGet
      refine ViewStep.delivered hCommand hRegistered hId ?_ hOwner ?_ hPending
      · rw [show ((s.setStream _ _).view _).state = _ from setStream_self s _ _]
        exact hDeliver
      · exact (setStream_registered (deliver_localId hDeliver)).mpr hRegistered
  | refused hCommand hDeliver hOpen =>
      exact ViewStep.refused hCommand hRegistered hId (hDeliver ref hTarget) hMore rfl rfl
        hRegistered hPending
  | broken hCommand hDeliver =>
      exact ViewStep.refused hCommand hRegistered hId (hDeliver ref hTarget) hMore rfl rfl
        hRegistered hPending
  | @ended other hCommand hGet =>
      have hOther : other = ref := hSame hGet
      subst other
      refine ViewStep.ended hCommand hRegistered hId ?_ hOwner ?_ hPending
      · exact setStream_self s _ _
      · have hErased : (s.streams ref).markClosed.localId = msg.arg1 := hId.symm
        simp [view, Registered, get, hErased, Registry.find_erase]
  | unknown hCommand hGet => rw [hTarget] at hGet; cases hGet
  | ignored hCommand => exact ViewStep.ignored hCommand hRegistered hId rfl hOwner hRegistered hPending
  | unsupported hCommand =>
      exact ViewStep.ignored hCommand hRegistered hId rfl hOwner hRegistered hPending

/-- Dispatching a message moves the stream that it reaches, and no other. -/
private theorem view_dispatch {s : Session} (hNamed : s.Named) (hReading : s.reader = .reading)
    (msg : Message) (ref : Ref) :
    ViewStep s.maxPayload clash ref (s.view ref) (s.dispatch msg).2
      ((s.dispatch msg).1.view ref) := by
  have hRouted := route_routed s msg
  obtain ⟨hOwners, hClosers, -, -, hReader, hMore, hStreams⟩ := hRouted.frame
  have hOwner : ((s.route msg).1.view ref).owner = (s.view ref).owner := congrFun hOwners ref
  have hPending : (s.route msg).1.Pending ref ↔ s.Pending ref := by
    refine pending_congr ?_ (fun closer => by rw [hClosers]) ref
    rcases hReader hReading with hAfter | hAfter <;> simp [hAfter, hReading, Reader.unmarked]
  simp only [dispatch]
  by_cases hTarget : s.get msg.arg1 = some ref
  · rw [hTarget]
    exact view_routed hNamed hRouted hTarget hOwner hPending hMore
  · refine view_same s.maxPayload ?_ ?_ (hStreams ref hTarget) hOwner (hRouted.registered_other hTarget)
      hPending
    · intro event hMember
      rcases List.mem_cons.mp hMember with rfl | hRest
      · exact hTarget
      · obtain ⟨refusal, rfl⟩ := hMore event hRest
        simp [Event.Concerns]
    · intro hHeld other target hMember hId
      rcases List.mem_cons.mp hMember with hFirst | hRest
      · obtain ⟨rfl, -⟩ := Event.dispatched.inj hFirst
        exact hTarget ((get_eq_some_iff hNamed _ _).mpr ⟨hHeld, hId⟩)
      · obtain ⟨refusal, hRefusal⟩ := hMore _ hRest
        cases hRefusal

/-- What is still to be marked when one `close` call has moved on. -/
private theorem exists_setCloser (s : Session) (closer : Nat) (state : Closer) (ref : Ref) :
    (∃ other, ref ∈ ((s.setCloser closer state).closers other).unmarked) ↔
      ref ∈ state.unmarked ∨ ∃ other, other ≠ closer ∧ ref ∈ (s.closers other).unmarked := by
  constructor
  · rintro ⟨other, hMember⟩
    by_cases hOther : other = closer
    · subst other
      exact Or.inl (by simpa [setCloser] using hMember)
    · exact Or.inr ⟨other, hOther, by simpa [setCloser, hOther] using hMember⟩
  · rintro (hMember | ⟨other, hOther, hMember⟩)
    · exact ⟨closer, by simpa [setCloser] using hMember⟩
    · exact ⟨other, by simpa [setCloser, hOther] using hMember⟩

/-- A `close` call that moves on without touching its list changes nothing to be marked. -/
private theorem setCloser_unmarked {s : Session} {closer : Nat} {state : Closer}
    (hSame : state.unmarked = (s.closers closer).unmarked) (other : Nat) :
    ((s.setCloser closer state).closers other).unmarked = (s.closers other).unmarked := by
  by_cases hOther : other = closer
  · subst other
    simp [setCloser, hSame]
  · simp [setCloser, hOther]

/-- A step of a task that touches neither streams nor registry. -/
private theorem view_tasks {s s' : Session} {events : List Event} (ref : Ref)
    (hEvents : ∀ event ∈ events, ¬event.Concerns ref ∧ ∀ msg target, event ≠ .dispatched msg target)
    (hStreams : s'.streams = s.streams)
    (hOwners : s'.owners = s.owners) (hRegistry : s'.registry = s.registry)
    (hReader : s'.reader.unmarked = s.reader.unmarked)
    (hClosers : ∀ closer, (s'.closers closer).unmarked = (s.closers closer).unmarked) :
    ViewStep s.maxPayload clash ref (s.view ref) events (s'.view ref) := by
  refine view_same s.maxPayload (fun event hMember => (hEvents event hMember).1)
    (fun _ msg target hMember => absurd rfl ((hEvents _ hMember).2 msg target))
    (by rw [hStreams]) (by rw [hOwners]) ?_ (pending_congr hReader hClosers ref)
  simp only [Registered, get, hStreams, hRegistry]

/-- Draining the registry leaves every stream that was in it to be marked. -/
private theorem view_drained {s s' : Session} (hNamed : s.Named) (ref : Ref)
    (hStreams : s'.streams = s.streams) (hOwners : s'.owners = s.owners) (hRegistry : s'.registry = ∅)
    (hPending : s'.Pending ref ↔ ref ∈ s.registered ∨ s.Pending ref) :
    ViewStep s.maxPayload clash ref (s.view ref) [.drained s.registered] (s'.view ref) := by
  have hEmpty : ¬s'.Registered ref := by
    simp [Registered, get, hRegistry, Registry.find_empty]
  by_cases hRegistered : s.Registered ref
  · have hMember := (mem_registered hNamed ref).mpr hRegistered
    exact ViewStep.drained hMember hRegistered (by simp [view, hStreams]) (by simp [view, hOwners])
      hEmpty (hPending.mpr (Or.inl hMember))
  · have hMember : ref ∉ s.registered := fun h => hRegistered ((mem_registered hNamed ref).mp h)
    refine view_same s.maxPayload (by simpa [Event.Concerns] using hMember) (by simp) (by rw [hStreams])
      (by rw [hOwners]) (iff_of_false hEmpty hRegistered) ?_
    simp [hPending, hMember]

/-- Marking a drained stream closes it and leaves the others alone. -/
private theorem view_marked {s s' : Session} (ref target : Ref) (hWaited : s.Pending target)
    (hStreams : s'.streams = (s.mark target).streams) (hOwners : s'.owners = s.owners)
    (hRegistry : s'.registry = s.registry) (hLeft : s'.Pending ref → s.Pending ref)
    (hOthers : ref ≠ target → s.Pending ref → s'.Pending ref) :
    ViewStep s.maxPayload clash ref (s.view ref) [] (s'.view ref) := by
  by_cases hRef : ref = target
  · subst target
    have hState : s'.streams ref = (s.streams ref).markClosed := by simp [hStreams, mark]
    refine ViewStep.marked hWaited hState (by simp [view, hOwners]) ?_ hLeft
    simp only [view, Registered, get, hState, hRegistry]
    rfl
  · have hState : s'.streams ref = s.streams ref := by simp [hStreams, mark, setStream, hRef]
    refine view_same s.maxPayload (by simp) (by simp) hState (by rw [hOwners]) ?_ ⟨hLeft, hOthers hRef⟩
    simp only [Registered, get, hState, hRegistry]

/-- A `close` call has the registry to mark on top of what was left. -/
private theorem pending_closing {s : Session} {closer : Nat} (hReady : s.closers closer = .ready) (ref : Ref) :
    Pending (({ s with registry := ∅ } : Session).setCloser closer (.marking s.registered)) ref ↔
      ref ∈ s.registered ∨ s.Pending ref := by
  have hOthers : (∃ other, other ≠ closer ∧ ref ∈ (s.closers other).unmarked) ↔
      ∃ other, ref ∈ (s.closers other).unmarked := by
    constructor
    · rintro ⟨other, -, hMember⟩
      exact ⟨other, hMember⟩
    · rintro ⟨other, hMember⟩
      refine ⟨other, fun hEq => ?_, hMember⟩
      rw [hEq, hReady] at hMember
      cases hMember
  rw [Pending, exists_setCloser]
  show ref ∈ s.reader.unmarked ∨ ref ∈ s.registered ∨ (∃ other, other ≠ closer ∧ _) ↔ _
  rw [show (∃ other, other ≠ closer ∧ ref ∈ (s.closers other).unmarked) ↔ _ from hOthers]
  exact or_left_comm

/-- What the reader has left to mark is one less. -/
private theorem view_readerMarked {s : Session} (ref : Ref) {target : Ref} {refs : List Ref}
    (hMarking : s.reader = .marking refs) (hMember : target ∈ refs) :
    ViewStep s.maxPayload clash ref (s.view ref) []
      (({ s.mark target with reader := .marking (refs.erase target) } : Session).view ref) := by
  refine view_marked ref target (Or.inl (by simpa [hMarking, Reader.unmarked])) rfl rfl rfl ?_
    (fun hRef => ?_)
  · rintro (hLeft | hLeft)
    · exact Or.inl (by simpa [hMarking, Reader.unmarked] using List.mem_of_mem_erase hLeft)
    · exact Or.inr hLeft
  · rintro (hLeft | hLeft)
    · refine Or.inl ?_
      rw [hMarking] at hLeft
      exact (List.mem_erase_of_ne hRef).mpr hLeft
    · exact Or.inr hLeft

/-- What a closer has left to mark is one less. -/
private theorem view_closeMarked {s : Session} (ref : Ref) {closer : Nat} {target : Ref} {refs : List Ref}
    (hMarking : s.closers closer = .marking refs) (hMember : target ∈ refs) :
    ViewStep s.maxPayload clash ref (s.view ref) []
      (((s.mark target).setCloser closer (.marking (refs.erase target))).view ref) := by
  refine view_marked ref target (Or.inr ⟨closer, by simpa [hMarking, Closer.unmarked]⟩) rfl rfl rfl ?_
    (fun hRef => ?_)
  · rintro (hLeft | hLeft)
    · exact Or.inl hLeft
    · rcases (exists_setCloser _ _ _ _).mp hLeft with hList | ⟨other, -, hList⟩
      · exact Or.inr ⟨closer, by simpa [hMarking, Closer.unmarked] using List.mem_of_mem_erase hList⟩
      · exact Or.inr ⟨other, hList⟩
  · rintro (hLeft | ⟨other, hList⟩)
    · exact Or.inl hLeft
    · refine Or.inr ((exists_setCloser _ _ _ _).mpr ?_)
      by_cases hOther : other = closer
      · subst other
        rw [hMarking] at hList
        exact Or.inl ((List.mem_erase_of_ne hRef).mpr hList)
      · exact Or.inr ⟨other, hOther, hList⟩

/-- An owner moves its own stream, and clashes with another only where it writes to the registry. -/
private theorem view_performed {s : Session} {action : Action} (ref : Ref) {target : Ref} {p : OwnerStep}
    {outboxOpen : Bool} (hMoves : OwnerMoves s.maxPayload outboxOpen (s.streams target) (s.owners target) p)
    (hWrites : p.effect = .insert ∨ p.effect = .remove →
      action = .advance target ∧ (s.owners target).Writes) :
    ViewStep s.maxPayload (s.Clash action ref) ref (s.view ref) (events target p)
      ((s.perform target p).1.view ref) := by
  by_cases hRef : ref = target
  · subst target
    exact view_perform_self ref hMoves
  · exact view_perform_other target s.maxPayload hMoves.move.localId hRef
      (fun hEffect hEq => ⟨target, (hWrites hEffect).1, Ne.symm hRef, (hWrites hEffect).2, hEq⟩)
      (events_concerns hRef p) (events_quiet target p)

/-- The new stream of an `open_stream`. -/
private theorem view_allocate {s : Session} (hNamed : s.Named) (service : Bytes) (ref : Ref) :
    ViewStep s.maxPayload clash ref (s.view ref) [] ((s.allocate service).view ref) := by
  have hPending : (s.allocate service).Pending ref ↔ s.Pending ref := pending_congr rfl (fun _ => rfl) ref
  by_cases hRef : ref = s.nextRef
  · subst ref
    have hNotGet : ∀ id, s.get id ≠ some s.nextRef := fun id hGet =>
      Nat.lt_irrefl _ (hNamed.registered_born id _ hGet)
    have hNotPending : ¬s.Pending s.nextRef := fun h => Nat.lt_irrefl _ (hNamed.pending_born _ h)
    have hState : (s.allocate service).streams s.nextRef =
        StreamState.fresh (if s.nextId = 0 then s.nextId + 1 else s.nextId) := by
      simp [allocate, setStream, setOwner]
    have hOwner : (s.allocate service).owners s.nextRef = .inserting service := by
      simp [allocate, setStream, setOwner]
    exact ViewStep.born ((hNamed.unborn _).mpr (Nat.le_refl _)) hState hOwner (fun h => hNotGet _ h)
      (fun h => hNotPending (hPending.mp h))
  · have hState : (s.allocate service).streams ref = s.streams ref := by
      simp [allocate, setStream, setOwner, hRef]
    refine view_same s.maxPayload (by simp) (by simp) hState ?_ ?_ hPending
    · simp [allocate, setStream, setOwner, hRef]
    · simp only [Registered, hState]
      rfl

end Session

/-- What one step of the session does to one stream. -/
theorem step_view {s s' : Session} {action : Action} {events : List Event} (hNamed : s.Named)
    (h : s.step action = some (s', events)) (ref : Ref) :
    ViewStep s.maxPayload (s.Clash action ref) ref (s.view ref) events (s'.view ref) := by
  cases Session.step_cases h with
  | opened => exact Session.view_allocate hNamed _ ref
  | called hIdle hBegin =>
      apply Session.view_performed ref (hIdle ▸ @OwnerMoves.begin _ true _ _ _ hBegin)
      simp [Owner.begin_effect hBegin]
  | advanced hAdvance =>
      apply Session.view_performed ref (.advance hAdvance)
      exact fun hEffect => ⟨rfl, (Owner.advance_move hAdvance).writes hEffect⟩
  | @cancelled target p hCancel =>
      obtain ⟨-, -, hEffect, -, hId⟩ := Owner.cancel_born hCancel
      by_cases hRef : ref = target
      · subst target
        exact Session.view_cancel_self ref hCancel
      · exact Session.view_perform_other target s.maxPayload hId hRef (by simp [hEffect])
          (by simp [Event.Concerns, Ne.symm hRef]) (by simp)
  | arrived hReading => exact Session.view_dispatch hNamed hReading _ ref
  | failed hReading =>
      exact Session.view_tasks ref (by simp) rfl rfl rfl (by simp [hReading, Reader.unmarked])
        (fun _ => rfl)
  | drained hStopping =>
      refine Session.view_drained hNamed ref rfl rfl rfl ?_
      simp [Session.Pending, hStopping, Reader.unmarked]
  | marked hMarking hMember => exact Session.view_readerMarked ref hMarking hMember
  | finished hMarking =>
      exact Session.view_tasks ref (by simp [Event.Concerns]) rfl rfl rfl
        (by simp [hMarking, Reader.unmarked]) (fun _ => rfl)
  | readerAborted hAborted hReading =>
      exact Session.view_tasks ref (by simp [Event.Concerns]) rfl rfl rfl
        (by simp [hReading, Reader.unmarked]) (fun _ => rfl)
  | @handing source msg rest =>
      by_cases hSource : source = some ref
      · subst source
        exact ViewStep.handed rfl rfl Iff.rfl Iff.rfl
      · exact Session.view_tasks ref (by simpa [Event.Concerns] using hSource) rfl rfl rfl rfl
          (fun _ => rfl)
  | handed | sinkFailed | writerAborted =>
      exact Session.view_tasks ref (by simp) rfl rfl rfl rfl (fun _ => rfl)
  | closing hReady =>
      exact Session.view_drained hNamed ref rfl rfl rfl (Session.pending_closing hReady ref)
  | closeMarked hMarking hMember => exact Session.view_closeMarked ref hMarking hMember
  | readerStopped hMarking =>
      exact Session.view_tasks ref (by simp) rfl rfl rfl rfl
        (Session.setCloser_unmarked (by simp [hMarking, Closer.unmarked]))
  | writerStopped hStopping =>
      exact Session.view_tasks ref (by simp) rfl rfl rfl rfl
        (Session.setCloser_unmarked (by simp [hStopping, Closer.unmarked]))

end Rsadb
