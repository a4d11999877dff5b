import Rsadb.Session.Custody
import Mathlib.Data.List.Induction

/-! Whom the reader leaves behind. When it ends, `close_all` has closed every
stream that it found in the registry; a stream that comes into the registry
later has no task that would ever close it or wake its owner. -/
namespace Rsadb

namespace ViewStep

variable {maxPayload : UInt32} {clash : Prop} {ref : Ref} {v v' : StreamView} {events : List Event}

/-- Nobody holds a stream that was not held before, except that it is born. -/
theorem alive_of (h : ViewStep maxPayload clash ref v events v') (hAlive : v'.owner.Alive) :
    v.owner.Alive ∨ v.owner = .unborn := by
  cases h with
  | born hUnborn => exact Or.inr hUnborn
  | own hMoves => exact Or.inl hMoves.alive
  | cancelled hCancel =>
      obtain ⟨purpose, seen, hWaiting, -⟩ := Owner.cancel_cases hCancel
      rw [hWaiting]
      exact Or.inl trivial
  | other hEvents hMissed hState hOwner | acked hCommand hTarget hId hState hOwner
  | delivered hCommand hTarget hId hState hOwner | handed hState hOwner
  | refused hCommand hTarget hId hDeliver hMore hState hOwner
  | ended hCommand hTarget hId hState hOwner | ignored hCommand hTarget hId hState hOwner
  | drained hMember hTarget hState hOwner | marked hWaited hState hOwner =>
      rw [hOwner] at hAlive
      exact Or.inl hAlive

/-- A closed stream stays closed. -/
theorem closed_of (h : ViewStep maxPayload clash ref v events v') (hBorn : v.owner ≠ .unborn)
    (hClosed : v.state.closed = true) : v'.state.closed = true := by
  cases h with
  | born hUnborn => exact absurd hUnborn hBorn
  | own hMoves hState =>
      rw [hState]
      rcases hMoves.custody.flag with ⟨hFlag, -⟩ | ⟨hMarked, -⟩
      · rw [hFlag, hClosed]
      · rw [hMarked]
        rfl
  | cancelled hCancel hState =>
      obtain ⟨purpose, seen, -, hLeft⟩ := Owner.cancel_cases hCancel
      rw [hState]
      rcases hLeft with rfl | rfl <;> exact hClosed
  | delivered hCommand hTarget hId hState =>
      obtain ⟨-, -, hSame⟩ := StreamState.deliver_eq hState
      rw [hSame]
      exact hClosed
  | acked hCommand hTarget hId hState =>
      rw [hState]
      exact hClosed
  | ended hCommand hTarget hId hState | marked hWaited hState =>
      rw [hState]
      rfl
  | other hEvents hMissed hState | refused hCommand hTarget hId hDeliver hMore hState
  | ignored hCommand hTarget hId hState | handed hState | drained hMember hTarget hState =>
      rw [hState]
      exact hClosed

end ViewStep

/-- Whoever waits on a closed stream has a wakeup pending. -/
def StreamView.Woken (v : StreamView) : Prop :=
  ∀ purpose seen, v.owner = .waiting purpose seen .parked → v.state.closed = true → v.state.wake = true

/-- An owner parks on an open stream only, and takes no permit while it parks. -/
private theorem OwnerMoves.parks {maxPayload : UInt32} {outboxOpen : Bool} {state : StreamState}
    {owner : Owner} {p : OwnerStep} (h : OwnerMoves maxPayload outboxOpen state owner p)
    {purpose : Purpose} {seen : UInt64} (hParked : p.owner = .waiting purpose seen .parked) :
    p.state.closed = false := by
  cases h.move with
  | parked hClosed => exact hClosed
  | _ => cases hParked

theorem StreamView.Woken.step {maxPayload : UInt32} {clash : Prop} {ref : Ref} {v v' : StreamView}
    {events : List Event} (h : v.Woken) (hStep : ViewStep maxPayload clash ref v events v') :
    v'.Woken := by
  intro purpose seen hParked hClosed
  cases hStep with
  | born hUnborn hState hOwner =>
      rw [hOwner] at hParked
      cases hParked
  | own hMoves hState hOwner =>
      rw [hState, hMoves.parks (hOwner ▸ hParked)] at hClosed
      cases hClosed
  | cancelled hCancel hState hOwner =>
      obtain ⟨purpose, seen, -, hLeft⟩ := Owner.cancel_cases hCancel
      rw [hOwner] at hParked
      rcases hLeft with rfl | rfl <;> cases hParked
  | delivered hCommand hTarget hId hState hOwner =>
      obtain ⟨-, -, hSame⟩ := StreamState.deliver_eq hState
      rw [hSame] at hClosed ⊢
      exact h purpose seen (hOwner ▸ hParked) hClosed
  | acked hCommand hTarget hId hState | ended hCommand hTarget hId hState | marked hWaited hState =>
      rw [hState]
      rfl
  | other hEvents hMissed hState hOwner | refused hCommand hTarget hId hDeliver hMore hState hOwner
  | ignored hCommand hTarget hId hState hOwner | handed hState hOwner
  | drained hMember hTarget hState hOwner =>
      rw [hState] at hClosed ⊢
      exact h purpose seen (hOwner ▸ hParked) hClosed

/-- Whether the action is the last step of the reader. -/
def Action.endsReader : Action → Bool
  | .finish => true
  | .abortReader => true
  | _ => false

namespace Session

/-- No stream outlives the reader: once it has ended, every stream that is held
is closed, and nobody waits on one without a wakeup pending. -/
def NobodyStranded (s : Session) : Prop :=
  s.reader = .ended → ∀ ref, (s.owners ref).Alive →
    (s.streams ref).closed = true ∧
    ∀ purpose seen, s.owners ref = .waiting purpose seen .parked → (s.streams ref).wake = true

/-- The streams that have been registered since a `close_all` has last emptied the registry. -/
def sinceDrain (trace : List Event) : List Ref :=
  trace.foldl (fun refs event => match event with
    | .registered ref _ => ref :: refs
    | .drained _ => []
    | _ => refs) []

/-- Of the streams that are in use and not closed none has been registered since
the last `close_all` began, none is one that a `close_all` has yet to mark, and no
`open_stream` is between the two halves of `register`. -/
def Swept (trace : List Event) (s : Session) : Prop :=
  ∀ ref, (s.owners ref).Alive → (s.streams ref).closed = false →
    ref ∉ sinceDrain trace ∧ ¬s.Pending ref ∧ ∀ service, s.owners ref ≠ .inserting service

/-- The reader ends only when everything is swept, no stream is opened after
that, and whoever writes to the registry finds there at most its own stream. -/
def Sheltered (trace : List Event) (s : Session) : Action → Prop
  | .finish => Swept trace s
  | .abortReader => Swept trace s
  | .openStream _ => s.reader ≠ .ended
  | .advance ref => (s.owners ref).Writes →
      ∀ other, s.get (s.streams ref).localId = some other → other = ref
  | _ => True

/-- The reader ends by its last step only, and stays as it is then. -/
theorem reader_ended {s s' : Session} {action : Action} {events : List Event}
    (h : s.step action = some (s', events)) (hEnded : s'.reader = .ended) :
    action.endsReader = true ∨ s.reader = .ended := by
  cases step_cases h with
  | finished | readerAborted => exact Or.inl rfl
  | called | advanced | cancelled =>
      rw [(perform_frame s _ _).1] at hEnded
      exact Or.inr hEnded
  | @arrived msg hReading =>
      rcases (route_routed s msg).frame.2.2.2.2.1 hReading with hAfter | hAfter <;>
        exact absurd (hAfter.symm.trans hEnded) (by simp)
  | failed | drained | marked => cases hEnded
  | _ => exact Or.inr hEnded

/-- What has been registered stays so in a trace that empties nothing. -/
private theorem mem_sinceDrain {ref : Ref} {trace events : List Event} (hKept : ∀ refs, .drained refs ∉ events)
    (h : ref ∈ sinceDrain trace ∨ ∃ id, .registered ref id ∈ events) : ref ∈ sinceDrain (trace ++ events) := by
  induction events using List.reverseRecOn with
  | nil =>
      rcases h with hOld | ⟨id, hNew⟩
      · rwa [List.append_nil]
      · cases hNew
  | append_singleton events event ih =>
      have hEarlier := ih fun refs hMember => hKept refs (List.mem_append_left _ hMember)
      rw [← List.append_assoc, sinceDrain, List.foldl_append, ← sinceDrain]
      have hSplit : ref ∈ sinceDrain (trace ++ events) ∨ ∃ id, event = .registered ref id := by
        rcases h with hOld | ⟨id, hNew⟩
        · exact Or.inl (hEarlier (Or.inl hOld))
        · rcases List.mem_append.mp hNew with hBefore | hHere
          · exact Or.inl (hEarlier (Or.inr ⟨id, hBefore⟩))
          · exact Or.inr ⟨id, (List.mem_singleton.mp hHere).symm⟩
      cases event with
      | registered other id => simpa [eq_comm] using hSplit.symm
      | drained refs => exact absurd (List.mem_append_right _ (List.mem_singleton.mpr rfl)) (hKept refs)
      | _ => simpa using hSplit

/-- A step that leaves a stream in the registry does not empty it. It finds the
stream there or registers it. -/
private theorem step_found {s s' : Session} {action : Action} {events : List Event}
    (h : s.step action = some (s', events)) {id : UInt32} {ref : Ref} (hGet : s'.get id = some ref) :
    (∀ refs, .drained refs ∉ events) ∧ (s.get id = some ref ∨ ∃ other, .registered ref other ∈ events) := by
  have hQuiet : ∀ target p refs, .drained refs ∉ Session.events target p := by
    intro target p refs
    cases hEffect : p.effect <;> simp [Session.events, hEffect]
  have hPerform : ∀ target p, (s.perform target p).1.get id = some ref →
      s.get id = some ref ∨ ∃ other, .registered ref other ∈ Session.events target p := by
    intro target p hGet
    unfold get at hGet ⊢
    cases hEffect : p.effect with
    | nothing | post => exact Or.inl (by simpa [perform, setStream, setOwner, hEffect] using hGet)
    | insert =>
        simp only [perform, setStream, setOwner, hEffect, Registry.find_insert] at hGet
        split_ifs at hGet
        · obtain rfl := Option.some.inj hGet
          exact Or.inr ⟨p.state.localId, by simp [Session.events, hEffect]⟩
        · exact Or.inl hGet
    | remove =>
        simp only [perform, setStream, setOwner, hEffect, Registry.find_erase] at hGet
        split_ifs at hGet
        exact Or.inl hGet
  cases step_cases h with
  | called | advanced => exact ⟨hQuiet _ _, hPerform _ _ hGet⟩
  | cancelled hCancel =>
      refine ⟨by simp, (hPerform _ _ hGet).imp_right ?_⟩
      rintro ⟨other, hMember⟩
      obtain ⟨purpose, seen, -, rfl | rfl⟩ := Owner.cancel_cases hCancel <;> cases hMember
  | @arrived msg =>
      have hRouted := route_routed s msg
      generalize (s.route msg).1 = after at hRouted hGet
      generalize (s.route msg).2 = more at hRouted ⊢
      cases hRouted with
      | ended hCommand hTarget =>
          simp only [get, Registry.find_erase] at hGet
          split_ifs at hGet
          exact ⟨by simp, Or.inl hGet⟩
      | _ => exact ⟨by simp, Or.inl hGet⟩
  | drained | closing => cases hGet
  | _ => exact ⟨by simp, Or.inl hGet⟩

variable {maxPayload : UInt32}

/-- The registry holds only what was registered since it was last emptied. -/
theorem sinceDrain_of_get {allowed : List Event → Session → Action → Prop} {trace : List Event} {s : Session}
    (hRun : Transition.Runs step allowed (start maxPayload) trace s) {id : UInt32} {ref : Ref}
    (hGet : s.get id = some ref) : ref ∈ sinceDrain trace := by
  induction hRun with
  | start => cases hGet
  | next hRun hAllowed hTaken ih =>
      obtain ⟨hKept, hFound⟩ := step_found hTaken hGet
      exact mem_sinceDrain hKept (hFound.imp_left ih)

/-- In every run whoever waits on a closed stream has a wakeup pending. -/
theorem woken_of_runs {allowed : List Event → Session → Action → Prop} {trace : List Event}
    {s : Session} (hRun : Transition.Runs step allowed (start maxPayload) trace s) (ref : Ref) :
    (s.view ref).Woken :=
  @view_invariant _ _ (fun _ v => v.Woken) ref (fun _ _ hWaiting => by cases hWaiting)
    (fun _ _ _ hStep h => h.step hStep) _ _ hRun

/-- In every run whose steps are sheltered, no stream outlives the reader. -/
theorem nobody_stranded {trace : List Event} {s : Session}
    (hRun : Transition.Runs step Sheltered (start maxPayload) trace s) : s.NobodyStranded := by
  suffices hClosed : s.reader = .ended → ∀ ref, (s.owners ref).Alive → (s.streams ref).closed = true by
    intro hEnded ref hAlive
    have hFlag := hClosed hEnded ref hAlive
    exact ⟨hFlag, fun purpose seen hParked => woken_of_runs hRun ref purpose seen hParked hFlag⟩
  induction hRun with
  | start => intro hEnded; cases hEnded
  | @next trace s s' action events hRun hAllowed hTaken ih =>
      intro hEnded ref hAlive
      obtain ⟨hNamed, -⟩ := named_of_runs hRun
      have hView := step_view hNamed hTaken ref
      -- Streams that are born after the end of the reader are excluded.
      have hBefore : s.reader = .ended ∨ action.endsReader = true → (s.owners ref).Alive := by
        intro hLate
        rcases hView.alive_of hAlive with hHeld | hUnborn
        · exact hHeld
        · rcases step_births hTaken with ⟨service, rfl, -⟩ | ⟨-, -, -, hSame⟩
          · rcases hLate with hAlready | hLast
            · exact absurd hAlready hAllowed
            · cases hLast
          · rw [(hSame ref).mpr hUnborn] at hAlive
            exact hAlive.elim
      have hBorn : (s.owners ref).Alive → (s.view ref).owner ≠ .unborn := fun hHeld hUnborn => by
        rw [show s.owners ref = .unborn from hUnborn] at hHeld
        exact hHeld
      rcases reader_ended hTaken hEnded with hLast | hAlready
      · have hHeld := hBefore (Or.inr hLast)
        have hSwept : Swept trace s := by
          cases action <;> first | exact hAllowed | cases hLast
        refine hView.closed_of (hBorn hHeld) ?_
        by_contra hOpen
        have hOpened : (s.streams ref).closed = false := Bool.eq_false_iff.mpr hOpen
        obtain ⟨hUnregistered, hMarked, hInserted⟩ := hSwept ref hHeld hOpened
        have hTracked := tracked_of_apart (fun hAllowed => hAllowed) hRun ref
        rcases hTracked.tracked hHeld hInserted hOpened with hIn | hWaits
        · exact hUnregistered (sinceDrain_of_get hRun hIn)
        · exact hMarked hWaits
      · have hHeld := hBefore (Or.inl hAlready)
        exact hView.closed_of (hBorn hHeld) (ih hAlready ref hHeld)

/-- A check for `Sheltered` on the steps before the reader ends. -/
private def sheltered (s : Session) : Action → Bool
  | .finish => false
  | .abortReader => false
  | .openStream _ => s.reader ≠ .ended
  | .advance ref => (s.get (s.streams ref).localId).all (· = ref)
  | _ => true

private theorem sheltered_of_check {trace : List Event} {s : Session} {action : Action}
    (h : s.sheltered action = true) : s.Sheltered trace action := by
  cases action with
  | finish | abortReader => cases h
  | openStream service => exact (of_decide_eq_true h : s.reader ≠ .ended)
  | advance ref =>
      intro _ other hGet
      simpa [sheltered, hGet] using h
  | _ => trivial

/-- The transport fails while an open is pending, which `close_all` finds. -/
private def failedInTime : List Action :=
  [.openStream (ascii "exec:id"), .advance 0, .advance 0, .advance 0, .advance 0, .fail, .drain, .mark 0]

private theorem failedInTime_executes :
    (Transition.execute step (fun _ s action => s.sheltered action = true) [] (start 4096)
      failedInTime).isSome := by
  decide

private def beforeEnd : List Event × Session :=
  (Transition.execute step (fun _ s action => s.sheltered action = true) [] (start 4096)
    failedInTime).get failedInTime_executes

private theorem swept_beforeEnd (hNamed : beforeEnd.2.Named) : Swept beforeEnd.1 beforeEnd.2 := by
  intro ref hAlive hOpen
  by_cases hRef : ref = 0
  · subst ref
    have hClosed : (beforeEnd.2.streams 0).closed = true := by decide
    rw [hClosed] at hOpen
    cases hOpen
  · have hUnborn : beforeEnd.2.owners ref = .unborn :=
      (hNamed.unborn ref).mpr (Nat.one_le_iff_ne_zero.mpr hRef)
    rw [hUnborn] at hAlive
    exact hAlive.elim

/-- The pending open is closed and its wakeup is pending when the reader has ended. -/
theorem nobody_stranded_pending_open : ∃ trace s,
    Transition.Runs step Sheltered (start 4096) trace s ∧ s.reader = .ended ∧
      s.owners 0 = .waiting (.opening (ascii "exec:id")) 0 .parked ∧ (s.streams 0).closed = true ∧
      (s.streams 0).wake = true := by
  have hBefore : Transition.Runs step Sheltered (start 4096) beforeEnd.1 beforeEnd.2 :=
    (Transition.Runs.start.execute failedInTime (Option.some_get failedInTime_executes).symm).mono
      fun _ _ _ => sheltered_of_check
  have hTaken : beforeEnd.2.step .finish = some ({ beforeEnd.2 with reader := .ended }, [.readerEnded]) := by
    have hMarked : beforeEnd.2.reader = .marking [] := by decide
    simp only [step, readerStep, if_pos hMarked]
  have hSwept : Sheltered beforeEnd.1 beforeEnd.2 .finish := swept_beforeEnd (named_of_runs hBefore).1
  have hRun := hBefore.next hSwept hTaken
  have hWaiting : beforeEnd.2.owners 0 = .waiting (.opening (ascii "exec:id")) 0 .parked := by decide
  obtain ⟨hClosed, hWake⟩ := nobody_stranded hRun rfl 0 (show (beforeEnd.2.owners 0).Alive by
    rw [hWaiting]
    trivial)
  exact ⟨_, _, hRun, rfl, hWaiting, hClosed, hWake _ _ hWaiting⟩

/-- The transport fails before an open, which then waits for ever: its stream
is registered after `close_all` and nobody is left to close it. -/
theorem late_open_stranded :
    ¬∀ (maxPayload : UInt32) (trace : List Event) (s : Session), Run maxPayload trace s →
      s.NobodyStranded := by
  intro hClaim
  obtain ⟨trace, s, hRun, hSeen⟩ := Transition.Runs.of_execute step (fun _ _ _ => True) (start 4096)
    [.fail, .drain, .finish, .openStream (ascii "exec:id"), .advance 0, .advance 0, .advance 0, .advance 0]
    (fun result => (result.2.reader, result.2.owners 0, result.2.streams 0))
    (.ended, .waiting (.opening (ascii "exec:id")) 0 .parked, ⟨1, 0, false, 0, false, true, [], true⟩)
    (by decide)
  rw [Prod.mk.injEq, Prod.mk.injEq] at hSeen
  obtain ⟨hEnded, hWaiting, hStream⟩ := hSeen
  have hClosed := (hClaim 4096 trace s hRun hEnded 0 (by rw [hWaiting]; trivial)).1
  rw [hStream] at hClosed
  cases hClosed

end Session
end Rsadb
