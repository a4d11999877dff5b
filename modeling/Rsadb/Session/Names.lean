import Rsadb.Session.View

/-! In every run the registry knows its streams by their names, so that the
view of one stream can be followed through the whole run. -/
namespace Rsadb

namespace ViewStep

variable {maxPayload : UInt32} {clash : Prop} {ref : Ref} {v v' : StreamView} {events : List Event}

/-- A local id is given once. -/
theorem localId_eq (h : ViewStep maxPayload clash ref v events v') (hBorn : v.owner ≠ .unborn) :
    v'.state.localId = v.state.localId := by
  cases h with
  | other hEvents hMissed hState | refused hCommand hTarget hId hDeliver hMore hState
  | ignored hCommand hTarget hId hState | handed hState | drained hMember hTarget hState =>
      rw [hState]
  | born hUnborn => exact absurd hUnborn hBorn
  | own hStep hState => rw [hState, hStep.move.localId]
  | cancelled hStep hState => rw [hState, (Owner.cancel_born hStep).2.2.2.2]
  | acked hCommand hTarget hId hState => rw [hState]; rfl
  | delivered hCommand hTarget hId hState => exact Session.deliver_localId hState
  | ended hCommand hTarget hId hState => rw [hState]; rfl
  | marked hWaited hState => rw [hState]; rfl

/-- No stream is born twice. -/
theorem owner_born (h : ViewStep maxPayload clash ref v events v') (hBorn : v.owner ≠ .unborn) :
    v'.owner ≠ .unborn := by
  cases h with
  | born hUnborn => exact absurd hUnborn hBorn
  | own hStep hState hOwner => rw [hOwner]; exact hStep.move.born.2
  | cancelled hStep hState hOwner => rw [hOwner]; exact (Owner.cancel_born hStep).2.1
  | other hEvents hMissed hState hOwner | acked hCommand hTarget hId hState hOwner
  | delivered hCommand hTarget hId hState hOwner | handed hState hOwner
  | refused hCommand hTarget hId hDeliver hMore hState hOwner
  | ended hCommand hTarget hId hState hOwner | ignored hCommand hTarget hId hState hOwner
  | drained hMember hTarget hState hOwner | marked hWaited hState hOwner =>
      rw [hOwner]
      exact hBorn

/-- Only a registered stream comes to be marked. -/
theorem pending_of (h : ViewStep maxPayload clash ref v events v') (hPending : v'.pending) :
    v.pending ∨ v.registered := by
  cases h with
  | born hUnborn hState hOwner hUnregistered hNot => exact absurd hPending hNot
  | drained hMember hTarget => exact Or.inr hTarget
  | marked hWaited => exact Or.inl hWaited
  | own hStep hState hOwner hRegistered hSame | cancelled hStep hState hOwner hRegistered hSame
  | other hEvents hMissed hState hOwner hLost hKept hSame | handed hState hOwner hRegistered hSame
  | acked hCommand hTarget hId hState hOwner hRegistered hSame
  | delivered hCommand hTarget hId hState hOwner hRegistered hSame
  | refused hCommand hTarget hId hDeliver hMore hState hOwner hRegistered hSame
  | ended hCommand hTarget hId hState hOwner hRegistered hSame
  | ignored hCommand hTarget hId hState hOwner hRegistered hSame =>
      exact Or.inl (hSame.mp hPending)

end ViewStep

namespace Session

/-- A step registers at most the stream of its owner, under its own id. -/
private theorem step_get {s s' : Session} {action : Action} {events : List Event}
    (h : s.step action = some (s', events)) {id : UInt32} {ref : Ref} (hGet : s'.get id = some ref) :
    s.get id = some ref ∨ (id = (s.streams ref).localId ∧ s.owners ref ≠ .unborn) := by
  have hPerform : ∀ target p, s.owners target ≠ .unborn →
      p.state.localId = (s.streams target).localId → (s.perform target p).1.get id = some ref →
      s.get id = some ref ∨ (id = (s.streams ref).localId ∧ s.owners ref ≠ .unborn) := by
    intro target p hBorn hId hGet
    unfold get at hGet ⊢
    cases hEffect : p.effect with
    | nothing => exact Or.inl (by simpa [perform, setStream, setOwner, hEffect] using hGet)
    | post msg => exact Or.inl (by simpa [perform, setStream, setOwner, hEffect] using hGet)
    | insert =>
        simp only [perform, setStream, setOwner, hEffect, Registry.find_insert] at hGet
        split_ifs at hGet with hSame
        · obtain rfl := Option.some.inj hGet
          exact Or.inr ⟨hSame.trans hId, hBorn⟩
        · exact Or.inl hGet
    | remove =>
        simp only [perform, setStream, setOwner, hEffect, Registry.find_erase] at hGet
        split_ifs at hGet
        exact Or.inl hGet
  cases step_cases h with
  | called hIdle hBegin =>
      exact hPerform _ _ (by simp [hIdle]) (@Owner.begin_move 0 true _ _ _ hBegin).localId hGet
  | advanced hAdvance =>
      have hMove := Owner.advance_move hAdvance
      exact hPerform _ _ hMove.born.1 hMove.localId hGet
  | cancelled hCancel =>
      obtain ⟨hBorn, -, -, -, hId⟩ := Owner.cancel_born hCancel
      exact hPerform _ _ hBorn hId hGet
  | @arrived msg =>
      have hRouted := route_routed s msg
      generalize (s.route msg).1 = after at hRouted hGet
      generalize (s.route msg).2 = more at hRouted
      cases hRouted with
      | ended hCommand hTarget =>
          simp only [get, Registry.find_erase] at hGet
          split_ifs at hGet
          exact Or.inl hGet
      | _ => exact Or.inl hGet
  | drained | closing => cases hGet
  | _ => exact Or.inl hGet

/-- A step allocates the next stream or leaves the streams that exist as they are. -/
theorem step_births {s s' : Session} {action : Action} {events : List Event}
    (h : s.step action = some (s', events)) :
    (∃ service, action = .openStream service ∧ s' = s.allocate service) ∨
    (s'.maxPayload = s.maxPayload ∧ s'.nextRef = s.nextRef ∧ s'.nextId = s.nextId ∧
      ∀ ref, s'.owners ref = .unborn ↔ s.owners ref = .unborn) := by
  have hPerform : ∀ target p, s.owners target ≠ .unborn → p.owner ≠ .unborn →
      (s.perform target p).1.maxPayload = s.maxPayload ∧
      (s.perform target p).1.nextRef = s.nextRef ∧ (s.perform target p).1.nextId = s.nextId ∧
      ∀ ref, (s.perform target p).1.owners ref = .unborn ↔ s.owners ref = .unborn := by
    intro target p hBorn hStill
    obtain ⟨-, -, -, hLimit, hNext, hId⟩ := perform_frame s target p
    refine ⟨hLimit, hNext, hId, fun ref => ?_⟩
    rw [perform_owners]
    by_cases hRef : ref = target
    · subst target
      simp [hBorn, hStill]
    · simp [hRef]
  cases step_cases h with
  | @opened service => exact Or.inl ⟨service, rfl, rfl⟩
  | called hIdle hBegin =>
      exact Or.inr (hPerform _ _ (by simp [hIdle]) (@Owner.begin_move 0 true _ _ _ hBegin).born.2)
  | advanced hAdvance =>
      have hMove := Owner.advance_move hAdvance
      exact Or.inr (hPerform _ _ hMove.born.1 hMove.born.2)
  | cancelled hCancel =>
      obtain ⟨hBorn, hStill, -⟩ := Owner.cancel_born hCancel
      exact Or.inr (hPerform _ _ hBorn hStill)
  | @arrived msg =>
      obtain ⟨hOwners, -, hNext, hLimit, -⟩ := (route_routed s msg).frame
      exact Or.inr ⟨hLimit, hNext, (route_routed s msg).nextId, fun ref => by rw [hOwners]⟩
  | _ => exact Or.inr ⟨rfl, rfl, rfl, fun _ => Iff.rfl⟩

/-- A stream is born of the `open_stream` that names its service, as the next one. -/
theorem born_service {s s' : Session} {action : Action} {events : List Event}
    (h : s.step action = some (s', events)) {ref : Ref} {service : Bytes}
    (hUnborn : s.owners ref = .unborn) (hOwner : s'.owners ref = .inserting service) :
    action = .openStream service ∧ ref = s.nextRef := by
  rcases step_births h with ⟨name, rfl, rfl⟩ | ⟨-, -, -, hOwners⟩
  · by_cases hRef : ref = s.nextRef
    · subst ref
      have hName : (s.allocate name).owners s.nextRef = .inserting name := by
        simp [allocate, setStream, setOwner]
      rw [hName] at hOwner
      cases hOwner
      exact ⟨rfl, rfl⟩
    · have hSame : (s.allocate name).owners ref = s.owners ref := by
        simp [allocate, setStream, setOwner, hRef]
      rw [hSame, hUnborn] at hOwner
      cases hOwner
  · have hStill := (hOwners ref).mpr hUnborn
    rw [hOwner] at hStill
    cases hStill

/-- The allocation of a stream makes one more, and no other. -/
private theorem step_owners {s s' : Session} {action : Action} {events : List Event}
    (h : s.step action = some (s', events)) :
    s'.maxPayload = s.maxPayload ∧
    ((s'.nextRef = s.nextRef ∧ ∀ ref, s'.owners ref = .unborn ↔ s.owners ref = .unborn) ∨
      (s'.nextRef = s.nextRef + 1 ∧
        ∀ ref, s'.owners ref = .unborn ↔ ref ≠ s.nextRef ∧ s.owners ref = .unborn)) := by
  rcases step_births h with ⟨service, -, rfl⟩ | ⟨hLimit, hNext, -, hOwners⟩
  · refine ⟨rfl, Or.inr ⟨rfl, fun ref => ?_⟩⟩
    by_cases hRef : ref = s.nextRef
    · subst ref
      simp [allocate, setStream, setOwner]
    · simp [allocate, setStream, setOwner, hRef]
  · exact ⟨hLimit, Or.inl ⟨hNext, hOwners⟩⟩

/-- The number of streams never falls. -/
theorem nextRef_mono {s s' : Session} {action : Action} {events : List Event}
    (h : s.step action = some (s', events)) : s.nextRef ≤ s'.nextRef := by
  rcases step_births h with ⟨service, -, rfl⟩ | ⟨-, hNext, -⟩
  · exact Nat.le_succ _
  · exact Nat.le_of_eq hNext.symm

theorem named_start (maxPayload : UInt32) : (start maxPayload).Named where
  names := by simp [start, get, Registry.find_empty]
  registered_born := by simp [start, get, Registry.find_empty]
  pending_born := by simp [start, Pending, Reader.unmarked, Closer.unmarked]
  unborn := by simp [start]

theorem named_step {s s' : Session} {action : Action} {events : List Event} (hNamed : s.Named)
    (h : s.step action = some (s', events)) : s'.Named := by
  have hView := step_view hNamed h
  have hMono := nextRef_mono h
  have hBorn : ∀ ref, s.owners ref ≠ .unborn ↔ ref < s.nextRef := fun ref => by
    rw [Ne, hNamed.unborn, Nat.not_le]
  have hOld : ∀ id ref, s'.get id = some ref → s.owners ref ≠ .unborn ∧ id = (s.streams ref).localId := by
    intro id ref hGet
    rcases step_get h hGet with hBefore | ⟨hId, hOwner⟩
    · exact ⟨(hBorn ref).mpr (hNamed.registered_born id ref hBefore), (hNamed.names id ref hBefore).symm⟩
    · exact ⟨hOwner, hId⟩
  refine ⟨?_, ?_, ?_, ?_⟩
  · intro id ref hGet
    obtain ⟨hOwner, hId⟩ := hOld id ref hGet
    rw [hId]
    exact (hView ref).localId_eq hOwner
  · intro id ref hGet
    exact Nat.lt_of_lt_of_le ((hBorn ref).mp (hOld id ref hGet).1) hMono
  · intro ref hPending
    rcases (hView ref).pending_of hPending with hBefore | hRegistered
    · exact Nat.lt_of_lt_of_le (hNamed.pending_born ref hBefore) hMono
    · exact Nat.lt_of_lt_of_le (hNamed.registered_born _ ref hRegistered) hMono
  · intro ref
    rcases (step_owners h).2 with ⟨hNext, hOwners⟩ | ⟨hNext, hOwners⟩
    · rw [hOwners, hNamed.unborn, hNext]
    · rw [hOwners, hNamed.unborn, hNext, Nat.succ_le_iff, Nat.lt_iff_le_and_ne]
      exact ⟨fun hBoth => ⟨hBoth.2, Ne.symm hBoth.1⟩, fun hBoth => ⟨Ne.symm hBoth.2, hBoth.1⟩⟩

variable {allowed : List Event → Session → Action → Prop} {maxPayload : UInt32}

/-- Whatever the environment allows, the registry stays in order. -/
theorem named_of_runs {trace : List Event} {s : Session}
    (h : Transition.Runs step allowed (start maxPayload) trace s) :
    s.Named ∧ s.maxPayload = maxPayload := by
  refine @Transition.Runs.invariant _ _ _ _ _ _ (fun _ s => s.Named ∧ s.maxPayload = maxPayload)
    ⟨named_start maxPayload, rfl⟩ (fun _ _ _ _ _ _ hBefore _ hTaken => ?_) _ _ h
  exact ⟨named_step hBefore.1 hTaken, (step_owners hTaken).1.trans hBefore.2⟩

/-- What the view of a stream keeps at every allowed step holds in every run. -/
theorem view_invariant {Inv : List Event → StreamView → Prop} (ref : Ref)
    (hStart : Inv [] ((start maxPayload).view ref))
    (hStep : ∀ {trace s s' action events}, Transition.Runs step allowed (start maxPayload) trace s →
      allowed trace s action → s.step action = some (s', events) →
      ViewStep maxPayload (s.Clash action ref) ref (s.view ref) events (s'.view ref) →
      Inv trace (s.view ref) → Inv (trace ++ events) (s'.view ref))
    {trace : List Event} {s : Session}
    (h : Transition.Runs step allowed (start maxPayload) trace s) : Inv trace (s.view ref) := by
  refine @Transition.Runs.invariant _ _ _ _ _ _ (fun trace s => Inv trace (s.view ref)) hStart
    (fun _ _ _ _ _ hRun hBefore hAllowed hTaken => ?_) _ _ h
  obtain ⟨hNamed, hLimit⟩ := named_of_runs hRun
  exact hStep hRun hAllowed hTaken (hLimit ▸ step_view hNamed hTaken ref) hBefore

end Session
end Rsadb
