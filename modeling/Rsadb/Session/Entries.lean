import Rsadb.Session.Client

/-! Whose entries the registry holds. A stream enters when it is registered and
leaves when it is closed, refused or drained. An `open_stream` that finds the outbox
closed, or that is dropped while it waits, leaves without taking its entry along. -/
namespace Rsadb

namespace Owner

/-- Whether a `Stream` value or an `open_stream` past `register` holds the stream. -/
def Holds : Owner → Prop
  | .unborn => False
  | .inserting _ => False
  | .gone => False
  | _ => True

/-- The owner is about to post its OPEN. -/
def Requests : Owner → Prop
  | .posting _ => True
  | _ => False

instance (owner : Owner) : Decidable owner.Requests := by
  rcases owner <;> first | exact isTrue trivial | exact isFalse not_false

instance (owner : Owner) : Decidable owner.Writes := by
  rcases owner <;> first | exact isTrue trivial | exact isFalse not_false

theorem Holds.alive {owner : Owner} (h : owner.Holds) :
    owner.Alive ∧ ∀ service, owner ≠ .inserting service := by
  cases owner with
  | unborn | inserting | gone => exact h.elim
  | _ => exact ⟨trivial, by simp⟩

end Owner

/-- Whoever is in the registry is held. -/
def StreamView.Entered (v : StreamView) : Prop := v.registered → v.owner.Holds

/-- An open that may end where it stands, without a look at the registry. -/
def Owner.Leaves : Owner → Prop
  | .posting _ => True
  | .waiting (.opening _) _ .parked => True
  | _ => False

/-- A step keeps the entries in order, if an open that ends in it without a look at
the registry has no entry there. -/
theorem StreamView.Entered.step {maxPayload : UInt32} {clash : Prop} {ref : Ref} {v v' : StreamView}
    {events : List Event} (h : v.Entered) (hStep : ViewStep maxPayload clash ref v events v')
    (hIntact : v.Intact) (hParting : ∀ remote final, v.owner = .farewell remote final → v.state.closed = true)
    (hLeft : v.owner.Leaves → v'.owner = .gone → ¬v.registered) : v'.Entered := by
  intro hNow
  have hOpen : v.state.closed = true → (∀ remote final, v.owner ≠ .removing remote final) → ¬v.registered := by
    intro hClosed hNot hIn
    rcases hIntact.unclosed hIn with hStill | ⟨remote, final, hRemoving⟩
    · rw [hClosed] at hStill
      cases hStill
    · exact hNot remote final hRemoving
  cases hStep with
  | other hEvents hMissed hState hOwner hLost =>
      rw [hOwner]
      exact h (hLost hNow)
  | born hUnborn hState hOwner hUnregistered => exact absurd hNow hUnregistered
  | @own _ p outboxOpen hMoves hState hOwner hRegistered =>
      have hMove := hMoves.move
      rw [hOwner] at hLeft ⊢
      generalize hBefore : v.owner = owner at hMove hOpen hLeft hParting
      cases hMove with
      | inserted => trivial
      | unrequested => exact absurd (hRegistered.mp hNow) (hLeft trivial rfl)
      | refused | removed => exact absurd hNow hRegistered
      | droppedClosed hClosed => exact absurd (hRegistered.mp hNow) (hOpen hClosed (by simp))
      | left =>
          have hOut := hOpen (hParting _ _ rfl) (by simp)
          cases outboxOpen <;> exact absurd (hRegistered.mp hNow) hOut
      | _ => trivial
  | cancelled hCancel hState hOwner hRegistered =>
      rcases Owner.cancel_purpose hCancel with ⟨service, seen, hWaiting, rfl⟩ | ⟨rest, seen, -, rfl⟩
      · exact absurd (hRegistered.mp hNow) (hLeft (by rw [hWaiting]; trivial) hOwner)
      · rw [hOwner]
        trivial
  | acked hCommand hTarget hId hState hOwner | delivered hCommand hTarget hId hState hOwner
  | refused hCommand hTarget hId hDeliver hMore hState hOwner
  | ignored hCommand hTarget hId hState hOwner =>
      rw [hOwner]
      exact h hTarget
  | ended hCommand hTarget hId hState hOwner hRegistered
  | drained hMember hTarget hState hOwner hRegistered => exact absurd hNow hRegistered
  | handed hState hOwner hRegistered | marked hWaited hState hOwner hRegistered =>
      rw [hOwner]
      exact h (hRegistered.mp hNow)

namespace Session

instance (s : Session) (ref : Ref) : Decidable (s.Registered ref) := inferInstanceAs (Decidable (_ = _))

/-- An open that finds the outbox closed, or that is dropped, is not in the registry
any more, and whoever writes to the registry finds there at most its own stream. -/
def Tidy (_ : List Event) (s : Session) : Action → Prop
  | .advance ref => ((s.owners ref).Requests → s.outboxOpen = true ∨ ¬s.Registered ref) ∧
      ((s.owners ref).Writes → ∀ other ∈ s.get (s.streams ref).localId, other = ref)
  | .cancel ref => (s.owners ref).Opening → ¬s.Registered ref
  | _ => True

instance (trace : List Event) (s : Session) (action : Action) : Decidable (Tidy trace s action) := by
  rcases action <;> unfold Tidy <;> infer_instance

/-- No close is half executed: no owner has marked its stream and not yet removed it,
and no `close_all` has yet to mark a stream. -/
structure Calm (s : Session) : Prop where
  removed : ∀ ref remote final, s.owners ref ≠ .removing remote final
  marked : ∀ ref, ¬s.Pending ref

/-- The keys of the registry are the local ids of the streams that are held and not
closed, and nobody who is gone has left an entry behind. -/
def RegistryExact (s : Session) : Prop :=
  (s.Calm → ∀ id, id ∈ s.registry.keys ↔
    ∃ ref, (s.owners ref).Holds ∧ (s.streams ref).closed = false ∧ (s.streams ref).localId = id) ∧
  ∀ ref, s.owners ref = .gone → ∀ id, s.get id ≠ some ref

variable {maxPayload : UInt32} {trace : List Event} {s : Session}

/-- In a tidy run an open that ends without a look at the registry has no entry there. -/
private theorem left_of_tidy {s' : Session} {action : Action} {events : List Event} (hNamed : s.Named)
    (hTidy : s.Tidy trace action) (hTaken : s.step action = some (s', events)) {ref : Ref}
    (hLeaves : (s.owners ref).Leaves) (hGone : s'.owners ref = .gone) : ¬s.Registered ref := by
  have hCause := step_cause hNamed hTaken
  have hActor : action.actor = some ref := by
    rcases hCause.owner ref with hSame | hActor | hUnborn
    · rw [hGone] at hSame
      rw [← hSame] at hLeaves
      exact hLeaves.elim
    · exact hActor
    · rw [hUnborn] at hLeaves
      exact hLeaves.elim
  cases action with
  | call other call =>
      cases hActor
      rw [(step_call hTaken).1] at hLeaves
      exact hLeaves.elim
  | advance other =>
      cases hActor
      obtain ⟨p, hAdvance, rfl, -⟩ := step_advance hTaken
      have hOwner : p.owner = .gone := by rw [← hGone, (perform_self s ref p).2]
      have hMove := Owner.advance_move hAdvance
      generalize hBefore : s.owners ref = owner at hMove hLeaves
      cases hMove with
      | unrequested hShut =>
          refine (hTidy.1 (by rw [hBefore]; trivial)).resolve_left fun hOpen => ?_
          rw [hShut] at hOpen
          cases hOpen
      | requested | woken | unanswered | parked => cases hOwner
      | _ => exact hLeaves.elim
  | cancel other =>
      cases hActor
      refine hTidy ?_
      obtain ⟨p, hCancel, -⟩ := step_cancel hTaken
      rcases Owner.cancel_purpose hCancel with ⟨service, seen, hWaiting, -⟩ | ⟨rest, seen, hWaiting, -⟩
      · rw [hWaiting]
        trivial
      · rw [hWaiting] at hLeaves
        exact hLeaves.elim
  | _ => cases hActor

/-- In a tidy run whoever is in the registry is held. -/
theorem entered_of_tidy (hRun : Transition.Runs step Tidy (start maxPayload) trace s) (ref : Ref) :
    (s.view ref).Entered := by
  refine @view_invariant _ _ (fun _ v => v.Entered) ref (fun hNow => by cases hNow) ?_ _ _ hRun
  intro trace s s' action events hRun hTidy hTaken hView hBefore
  refine hBefore.step hView (intact_of_runs hRun ref) ?_
    (left_of_tidy (named_of_runs hRun).1 hTidy hTaken)
  intro remote final hParting
  have hSaid := said_of_runs hRun ref
  rw [show s.owners ref = .farewell remote final from hParting] at hSaid
  exact hSaid.2.1

/-- In every run whose steps are tidy, the registry holds exactly the live streams. -/
theorem registry_exact (hRun : Transition.Runs step Tidy (start maxPayload) trace s) :
    s.RegistryExact := by
  obtain ⟨hNamed, -⟩ := named_of_runs hRun
  refine ⟨fun hCalm id => ?_, fun ref hGone id hGet => ?_⟩
  · have hKeys : id ∈ s.registry.keys ↔ ∃ ref, s.get id = some ref := by
      rw [← AList.mem_keys, ← AList.lookup_isSome, Option.isSome_iff_exists]
      rfl
    rw [hKeys]
    constructor
    · rintro ⟨ref, hGet⟩
      obtain ⟨hRegistered, hId⟩ := (get_eq_some_iff hNamed id ref).mp hGet
      refine ⟨ref, entered_of_tidy hRun ref hRegistered, ?_, hId.symm⟩
      refine ((intact_of_runs hRun ref).unclosed hRegistered).resolve_right ?_
      rintro ⟨remote, final, hRemoving⟩
      exact hCalm.removed ref remote final hRemoving
    · rintro ⟨ref, hHolds, hOpen, hId⟩
      obtain ⟨hAlive, hInserted⟩ := hHolds.alive
      have hTracked := tracked_of_apart (fun hTidy => hTidy.2) hRun ref
      have hRegistered := (hTracked.tracked hAlive hInserted hOpen).resolve_right (hCalm.marked ref)
      exact ⟨ref, (get_eq_some_iff hNamed id ref).mpr ⟨hRegistered, hId.symm⟩⟩
  · have hHolds := entered_of_tidy hRun ref ((get_eq_some_iff hNamed id ref).mp hGet).1
    rw [show (s.view ref).owner = .gone from hGone] at hHolds
    exact hHolds

/-- Register a stream and post its OPEN. -/
private def posted (ref : Ref) : List Action :=
  [.openStream (ascii "exec:id"), .advance ref, .advance ref]

/-- One open is refused, one is accepted and closed, and one is accepted and kept. -/
private def threeOpens : List Action :=
  posted 0 ++ [.arrive (.empty .close 0 1), .advance 0, .advance 0, .advance 0] ++
    posted 1 ++ [.arrive (.empty .okay 5 2), .advance 1, .advance 1, .call 1 .close, .advance 1, .advance 1] ++
    posted 2 ++ [.arrive (.empty .okay 6 3), .advance 2, .advance 2]

private theorem threeOpens_executes :
    (Transition.execute step Tidy [] (start 4096) threeOpens).isSome := by
  decide

private def afterOpens : Session :=
  ((Transition.execute step Tidy [] (start 4096) threeOpens).get threeOpens_executes).2

private theorem calm_afterOpens (hNamed : afterOpens.Named) : afterOpens.Calm := by
  refine ⟨fun ref remote final hRemoving => ?_, fun ref hPending => ?_⟩
  · have hFew : ref < 3 := hNamed.born (by rw [hRemoving]; simp)
    have hNobody : ∀ ref < 3, afterOpens.owners ref = .gone ∨ afterOpens.owners ref = .idle := by decide
    rcases hNobody ref hFew with hOwner | hOwner <;> rw [hOwner] at hRemoving <;> cases hRemoving
  · have hClosers : ∀ closer, afterOpens.closers closer = .ready := fun closer => rfl
    rcases hPending with hReader | ⟨closer, hCloser⟩
    · exact absurd hReader (by rw [show afterOpens.reader = .reading by decide]; simp [Reader.unmarked])
    · rw [hClosers] at hCloser
      cases hCloser

/-- Of three opens one is left in the registry. -/
theorem registry_exact_three_opens : ∃ trace, Transition.Runs step Tidy (start 4096) trace afterOpens ∧
    afterOpens.owners 0 = .gone ∧ afterOpens.owners 1 = .idle ∧ afterOpens.owners 2 = .idle ∧
    3 ∈ afterOpens.registry.keys ∧ 2 ∉ afterOpens.registry.keys ∧ afterOpens.get 1 ≠ some 0 := by
  have hRun : Transition.Runs step Tidy (start 4096) _ afterOpens :=
    Transition.Runs.executed threeOpens threeOpens_executes
  have hNamed := (named_of_runs hRun).1
  obtain ⟨hExact, hGone⟩ := registry_exact hRun
  have hKeys := hExact (calm_afterOpens hNamed)
  have hOwners : afterOpens.owners 0 = .gone ∧ afterOpens.owners 1 = .idle ∧ afterOpens.owners 2 = .idle := by
    decide
  refine ⟨_, hRun, hOwners.1, hOwners.2.1, hOwners.2.2, ?_, ?_, hGone 0 hOwners.1 1⟩
  · exact (hKeys 3).mpr ⟨2, by rw [hOwners.2.2]; trivial, by decide, by decide⟩
  · intro hMember
    obtain ⟨ref, hHolds, hOpen, hId⟩ := (hKeys 2).mp hMember
    have hFew : ref < 3 := hNamed.born fun hUnborn => by
      rw [hUnborn] at hHolds
      exact hHolds
    have hClosed : ∀ ref < 3, (afterOpens.streams ref).localId = 2 → (afterOpens.streams ref).closed = true := by
      decide
    rw [hClosed ref hFew hId] at hOpen
    cases hOpen

/-- An open is dropped while it waits, and its entry stays. -/
theorem dropped_open_leaks : ¬∀ (maxPayload : UInt32) (trace : List Event) (s : Session),
    Run maxPayload trace s → s.RegistryExact := by
  intro hClaim
  obtain ⟨trace, s, hRun, hSeen⟩ := Transition.Runs.of_execute step (fun _ _ _ => True) (start 4096)
    (posted 0 ++ [.advance 0, .advance 0, .cancel 0])
    (fun result => (result.2.owners 0, result.2.get 1)) (.gone, some 0) (by decide)
  obtain ⟨hGone, hGet⟩ := Prod.mk.inj hSeen
  exact (hClaim 4096 trace s hRun).2 0 hGone 1 hGet

end Session
end Rsadb
