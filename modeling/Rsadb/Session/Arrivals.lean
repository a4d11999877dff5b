import Rsadb.Session.Integrity
import Rsadb.Session.Peer

/-! The payloads that a stream should receive, among all that come under its
name. A peer that sends none before the stream is registered, and none after it
has closed the stream, has all of them received. -/
namespace Rsadb

/-- The end of the stream with this id. -/
def Message.ClosesTo (id : UInt32) (msg : Message) : Prop := msg.command = .close ∧ msg.arg1 = id

/-- Nothing for a stream comes after its end. -/
def EndsLast (id : UInt32) (msgs : List Message) : Prop :=
  msgs.Pairwise fun first later => first.ClosesTo id → ¬later.CarriesTo id

/-- Nobody but the device ends the stream, and nothing comes for it after that. -/
structure Undisturbed (ref : Ref) (id : UInt32) (trace : List Event) : Prop where
  unclosed : .owner ref .closed ∉ trace
  kept : ∀ refs, .drained refs ∈ trace → ref ∉ refs
  ends : EndsLast id (dispatches trace)

/-- The inflow of a stream as against all that has come under its name. Where
the stream is undisturbed nothing is missing. -/
def Inflow.Traced (undisturbed : Prop) (id : UInt32) (f : Inflow) (msgs : List Message) : Prop :=
  match f.phase with
  | .unborn => f.payloads = []
  | .live other => other = id ∧ f.payloads = carried id msgs
  | .shut => f.payloads <+: carried id msgs ∧
      (undisturbed → f.payloads = carried id msgs ∧ ∃ msg ∈ msgs, msg.ClosesTo id)

namespace Inflow

variable {ref : Ref} {id : UInt32} {f : Inflow} {undisturbed : Prop} {msgs : List Message}

theorem Traced.front (h : f.Traced undisturbed id msgs) : f.payloads <+: carried id msgs := by
  unfold Traced at h
  split at h
  · rw [h]
    exact List.nil_prefix
  · exact h.2 ▸ List.prefix_rfl
  · exact h.1

/-- An event enters what comes for the stream as long as the stream is live. -/
private theorem Traced.next (h : f.Traced undisturbed id msgs) (event : Event)
    (hRegistered : ∀ other, event = .registered ref other →
      f.phase = .unborn ∧ carried id msgs = [] ∧ other = id)
    (hUndisturbed : undisturbed → event ≠ .owner ref .closed ∧ (∀ refs, event = .drained refs → ref ∉ refs) ∧
      EndsLast id (msgs ++ dispatches [event])) :
    (f.next ref event).Traced undisturbed id (msgs ++ dispatches [event]) := by
  obtain ⟨phase, entered⟩ := f
  have hSame : dispatches [event] = [] →
      (⟨phase, entered⟩ : Inflow).Traced undisturbed id (msgs ++ dispatches [event]) := fun hNone => by
    rw [hNone, List.append_nil]
    exact h
  have hDisturbed : ¬undisturbed → (⟨.shut, entered⟩ : Inflow).Traced undisturbed id
      (msgs ++ dispatches [event]) := by
    intro hNot
    rw [Traced, carried_append]
    exact ⟨(Traced.front h).trans (List.prefix_append _ _), fun hThis => absurd hThis hNot⟩
  cases event with
  | registered other registered =>
      by_cases hOther : other = ref
      · subst hOther
        obtain ⟨hPhase, hNone, rfl⟩ := hRegistered registered rfl
        obtain rfl : phase = .unborn := hPhase
        simp only [next, ↓reduceIte]
        refine ⟨rfl, ?_⟩
        rw [show dispatches [.registered other registered] = [] from rfl, List.append_nil, hNone]
        exact h
      · simp only [next, hOther, ↓reduceIte]
        exact hSame rfl
  | dispatched msg target =>
      rw [show dispatches [.dispatched msg target] = [msg] from rfl] at hUndisturbed ⊢
      cases phase with
      | unborn => exact h
      | shut =>
          obtain ⟨hPrefix, hAll⟩ := h
          simp only [next, Traced, carried_append]
          refine ⟨hPrefix.trans (List.prefix_append _ _), fun hThis => ?_⟩
          obtain ⟨hSent, first, hFirst, hCloses⟩ := hAll hThis
          obtain ⟨-, -, hEnds⟩ := hUndisturbed hThis
          have hLast := (List.pairwise_append.mp hEnds).2.2 first hFirst msg List.mem_cons_self hCloses
          rw [carried_singleton, if_neg hLast, List.append_nil]
          exact ⟨hSent, first, List.mem_append_left _ hFirst, hCloses⟩
      | live other =>
          obtain ⟨rfl, rfl⟩ := h
          by_cases hId : msg.arg1 = other <;> cases hCommand : msg.command <;>
            simp [next, hCommand, hId, Message.CarriesTo, Message.ClosesTo, Traced, carried_singleton]
  | owner other report =>
      cases report with
      | closed =>
          by_cases hOther : other = ref
          · simp only [next, hOther, ↓reduceIte]
            apply hDisturbed
            intro hThis
            exact absurd (by rw [hOther]) (hUndisturbed hThis).1
          · simp only [next, hOther, ↓reduceIte]
            exact hSame rfl
      | took chunk | returned result => exact hSame rfl
  | drained refs =>
      by_cases hMember : ref ∈ refs
      · simp only [next, hMember, ↓reduceIte]
        apply hDisturbed
        intro hThis
        exact absurd hMember ((hUndisturbed hThis).2.1 refs rfl)
      · simp only [next, hMember, ↓reduceIte]
        exact hSame rfl
  | posted | handed | cancelled | readerEnded => exact hSame rfl

/-- The events of a step do, if a registration comes alone. -/
theorem Traced.events {events : List Event} (h : f.Traced undisturbed id msgs)
    (hRegistered : ∀ other, .registered ref other ∈ events →
      events = [.registered ref other] ∧ f.phase = .unborn ∧ carried id msgs = [] ∧ other = id)
    (hUndisturbed : undisturbed → .owner ref .closed ∉ events ∧ (∀ refs, .drained refs ∈ events → ref ∉ refs) ∧
      EndsLast id (msgs ++ dispatches events)) :
    (events.foldl (Inflow.next ref) f).Traced undisturbed id (msgs ++ dispatches events) := by
  by_cases hAny : ∃ other, .registered ref other ∈ events
  · obtain ⟨other, hMem⟩ := hAny
    obtain ⟨rfl, hFirst⟩ := hRegistered other hMem
    rw [List.foldl_cons, List.foldl_nil]
    apply h.next
    · intro registered hSame
      obtain ⟨-, rfl⟩ := Event.registered.inj hSame
      exact hFirst
    · intro hThis
      exact ⟨by simp, by simp, (hUndisturbed hThis).2.2⟩
  · have hNone : ∀ other, .registered ref other ∉ events := fun other hMem => hAny ⟨other, hMem⟩
    clear hRegistered hAny
    induction events generalizing f msgs with
    | nil => simpa [dispatches] using h
    | cons event rest ih =>
        have hSplit : dispatches (event :: rest) = dispatches [event] ++ dispatches rest :=
          dispatches_append [event] rest
        rw [hSplit, ← List.append_assoc] at hUndisturbed ⊢
        have hHere := h.next event (fun other hSame => absurd (hSame ▸ List.mem_cons_self) (hNone other))
          fun hThis => by
            obtain ⟨hUnclosed, hKept, hEnds⟩ := hUndisturbed hThis
            refine ⟨fun hSame => hUnclosed (hSame ▸ List.mem_cons_self), ?_,
              (List.pairwise_append.mp hEnds).1⟩
            exact fun refs hSame => hKept refs (hSame ▸ List.mem_cons_self)
        apply ih hHere
        · exact fun other hMem => hNone other (List.mem_cons_of_mem _ hMem)
        · intro hThis
          obtain ⟨hUnclosed, hKept, hEnds⟩ := hUndisturbed hThis
          exact ⟨fun hMem => hUnclosed (List.mem_cons_of_mem _ hMem),
            fun refs hMem => hKept refs (List.mem_cons_of_mem _ hMem), hEnds⟩

end Inflow

/-- A stream is registered by a step of its own, under its own id. -/
theorem ViewStep.registered_alone {maxPayload : UInt32} {clash : Prop} {ref : Ref} {v v' : StreamView}
    {events : List Event} (h : ViewStep maxPayload clash ref v events v') {id : UInt32}
    (hMem : .registered ref id ∈ events) : events = [.registered ref id] ∧
    (∃ service, v.owner = .inserting service) ∧ id = v.state.localId := by
  cases h with
  | other hEvents => exact absurd rfl (hEvents _ hMem)
  | @own _ p _ hMoves =>
      have hEffect : p.effect = .insert := by
        unfold Session.events at hMem
        cases hCase : p.effect <;> simp [hCase] at hMem
        rfl
      generalize v.owner = owner at hMoves ⊢
      cases hMoves.move with
      | @inserted service =>
          obtain ⟨-, rfl⟩ := Event.registered.inj (List.mem_singleton.mp hMem)
          exact ⟨rfl, ⟨service, rfl⟩, rfl⟩
      | parted | left =>
          simp only [Owner.leave] at hEffect
          split at hEffect <;> cases hEffect
      | _ => cases hEffect
  | refused hCommand hTarget hId hDeliver hMore =>
      rcases List.mem_cons.mp hMem with hFirst | hRest
      · cases hFirst
      · obtain ⟨refusal, hPosted⟩ := hMore _ hRest
        cases hPosted
  | _ => simp at hMem

namespace Session

/-- Nothing has come under the name of a stream that is about to be registered. -/
def Fresh (trace : List Event) (s : Session) : Prop :=
  ∀ ref service, s.owners ref = .inserting service → carried (s.streams ref).localId (dispatches trace) = []

/-- If nothing comes for a stream too early, its inflow is all that comes under its name. -/
theorem traced_of_runs {maxPayload : UInt32} {trace : List Event} {s : Session}
    (hRun : Transition.Runs step (fun trace s _ => Fresh trace s) (start maxPayload) trace s)
    (hLimit : s.nextRef < openLimit) {ref : Ref} (hFailed : NoRecvError ref trace) {undisturbed : Prop}
    (hUndisturbed : undisturbed → Undisturbed ref (s.streams ref).localId trace) :
    (inflow ref trace).Traced undisturbed (s.streams ref).localId (dispatches trace) := by
  induction hRun with
  | start => rfl
  | @next trace s s' action events hRun hFresh hTaken ih =>
      have hBefore := Nat.lt_of_le_of_lt (nextRef_mono hTaken) hLimit
      have hNoError : NoRecvError ref trace := fun e hMember => hFailed e (List.mem_append_left _ hMember)
      have hFlow := flow_of_run (hRun.mono fun _ _ _ _ => trivial) hBefore hNoError
      have hView := step_view (named_of_runs hRun).1 hTaken ref
      have hYoung : ∀ {trace}, (inflow ref trace).phase = .unborn → (inflow ref trace).payloads = [] →
          (inflow ref trace).Traced undisturbed (s'.streams ref).localId (dispatches trace) := by
        intro trace hPhase hNone
        rwa [Inflow.Traced, hPhase]
      by_cases hUnborn : s.owners ref = .unborn
      · rcases step_births hTaken with ⟨service, rfl, hSame⟩ | ⟨-, -, -, hOwners⟩
        · obtain rfl : events = [] := by
            simp only [step] at hTaken
            split at hTaken <;> cases hTaken
            rfl
          have hPhase := (hFlow.unborn hUnborn).1
          rw [List.append_nil]
          exact hYoung hPhase (hFlow.silent hPhase).1
        · have hNext := flow_of_run ((hRun.next hFresh hTaken).mono fun _ _ _ _ => trivial) hLimit hFailed
          have hPhase := (hNext.unborn ((hOwners ref).mpr hUnborn)).1
          exact hYoung hPhase (hNext.silent hPhase).1
      · have hId : (s'.streams ref).localId = (s.streams ref).localId := hView.localId_eq hUnborn
        rw [hId] at hUndisturbed ⊢
        rw [inflow_append, dispatches_append]
        have hEarlier : undisturbed → Undisturbed ref (s.streams ref).localId trace := by
          intro hThis
          obtain ⟨hUnclosed, hKept, hEnds⟩ := hUndisturbed hThis
          rw [dispatches_append] at hEnds
          exact ⟨fun hMem => hUnclosed (List.mem_append_left _ hMem),
            fun refs hMem => hKept refs (List.mem_append_left _ hMem), (List.pairwise_append.mp hEnds).1⟩
        apply (ih hBefore hNoError hEarlier).events
        · intro other hMem
          obtain ⟨hAlone, ⟨service, hInserting⟩, hOwn⟩ := hView.registered_alone hMem
          exact ⟨hAlone, (hFlow.inserting service hInserting).1, hFresh ref service hInserting, hOwn⟩
        · intro hThis
          obtain ⟨hUnclosed, hKept, hEnds⟩ := hUndisturbed hThis
          rw [dispatches_append] at hEnds
          exact ⟨fun hMem => hUnclosed (List.mem_append_right _ hMem),
            fun refs hMem => hKept refs (List.mem_append_right _ hMem), hEnds⟩

end Session
end Rsadb
