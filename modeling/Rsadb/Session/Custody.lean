import Rsadb.Session.Names

/-! Who accounts for a stream. A stream that its owner holds and that is not
closed is in the registry, or a `close_all` has yet to mark it, unless another
stream with its local id took its place. Local ids are distinct until the
counter wraps. -/
namespace Rsadb

/-- The custody of one stream: the flag agrees with the sender, a call that is
about to remove the stream has closed it, and an open stream is accounted for. -/
structure StreamView.Tracked (v : StreamView) : Prop where
  flag : v.state.closed = !v.state.dataTx
  leaving : ∀ remote final, v.owner = .removing remote final → v.state.closed = true
  tracked : v.owner.Alive → (∀ service, v.owner ≠ .inserting service) → v.state.closed = false →
    v.registered ∨ v.pending

theorem OwnerMoves.alive {maxPayload : UInt32} {outboxOpen : Bool} {state : StreamState}
    {owner : Owner} {p : OwnerStep} (h : OwnerMoves maxPayload outboxOpen state owner p) :
    owner.Alive := by
  cases h with
  | begin => trivial
  | advance hAdvance =>
      cases owner with
      | unborn | gone => cases hAdvance
      | _ => trivial

/-- What a step of an owner does to the custody of its stream. -/
structure CustodyMove (state : StreamState) (owner : Owner) (p : OwnerStep) : Prop where
  flag : (p.state.closed = state.closed ∧ p.state.dataTx = state.dataTx) ∨
    (p.state = state.markClosed ∧ .closed ∈ p.reports)
  leaving : ∀ remote final, p.owner = .removing remote final → p.state.closed = true
  removed : p.effect = .remove → ¬p.owner.Alive ∨ ∃ remote final, owner = .removing remote final
  inserted : ∀ service, owner = .inserting service → p.effect = .insert

theorem OwnerMoves.custody {maxPayload : UInt32} {outboxOpen : Bool} {state : StreamState}
    {owner : Owner} {p : OwnerStep} (h : OwnerMoves maxPayload outboxOpen state owner p) :
    CustodyMove state owner p := by
  -- Most steps leave the flag alone, head for no removal and have no effect on the registry.
  have hQuiet : ∀ {p : OwnerStep}, p.state.closed = state.closed ∧ p.state.dataTx = state.dataTx →
      (∀ remote final, p.owner ≠ .removing remote final) → p.effect ≠ .remove →
      (∀ service, owner ≠ .inserting service) → CustodyMove state owner p :=
    fun hState hOwner hEffect hNot => ⟨Or.inl hState, fun remote final hLeaving =>
      absurd hLeaving (hOwner remote final), fun hRemoved => absurd hRemoved hEffect,
      fun service hInserting => absurd hInserting (hNot service)⟩
  cases h.move with
  | inserted => exact ⟨Or.inl ⟨rfl, rfl⟩, by simp, by simp, fun _ _ => rfl⟩
  | refused => exact ⟨Or.inl ⟨rfl, rfl⟩, by simp [Owner.leave], fun _ => Or.inl id, by simp⟩
  | @removed remote final =>
      exact ⟨Or.inl ⟨rfl, rfl⟩, by simp, fun _ => Or.inr ⟨remote, final, rfl⟩, by simp⟩
  | closing => exact ⟨Or.inr ⟨rfl, List.mem_cons_self⟩, fun _ _ _ => rfl, by simp, by simp⟩
  | parted | left =>
      cases outboxOpen <;>
        exact hQuiet ⟨rfl, rfl⟩ (by simp [Owner.leave]) (by simp [Owner.leave]) (by simp)
  | _ => exact hQuiet ⟨rfl, rfl⟩ (by simp [Owner.leave]) (by simp [Owner.leave]) (by simp)

/-- Only a call that waits is dropped: a pending open with its stream, or a pending send. -/
theorem Owner.cancel_purpose {state : StreamState} {owner : Owner} {p : OwnerStep}
    (h : owner.cancel state = some p) :
    (∃ service seen, owner = .waiting (.opening service) seen .parked ∧
      p = ⟨state.dropReceiver, .gone, .nothing, []⟩) ∨
    (∃ rest seen, owner = .waiting (.writing rest) seen .parked ∧ p = ⟨state, .idle, .nothing, []⟩) := by
  unfold Owner.cancel at h
  split at h <;> cases h
  · exact Or.inl ⟨_, _, rfl, rfl⟩
  · exact Or.inr ⟨_, _, rfl, rfl⟩

/-- Only a call that waits is dropped, and its stream goes with a pending open only. -/
theorem Owner.cancel_cases {state : StreamState} {owner : Owner} {p : OwnerStep}
    (h : owner.cancel state = some p) : ∃ purpose seen, owner = .waiting purpose seen .parked ∧
      (p = ⟨state.dropReceiver, .gone, .nothing, []⟩ ∨ p = ⟨state, .idle, .nothing, []⟩) := by
  rcases Owner.cancel_purpose h with ⟨service, seen, hOwner, hLeft⟩ | ⟨rest, seen, hOwner, hLeft⟩
  · exact ⟨_, seen, hOwner, Or.inl hLeft⟩
  · exact ⟨_, seen, hOwner, Or.inr hLeft⟩

theorem StreamState.deliver_eq {state state' : StreamState} {data : Bytes}
    (h : state.deliver data = (state', true)) :
    state.dataTx = true ∧ state.dataRx = true ∧
      state' = { state with queue := state.queue ++ [data] } := by
  unfold StreamState.deliver at h
  split at h
  · rename_i hOpen
    obtain ⟨hTx, hRx⟩ := Bool.and_eq_true_iff.mp hOpen
    exact ⟨hTx, hRx, (congrArg Prod.fst h).symm⟩
  · exact Bool.noConfusion (congrArg Prod.snd h)

namespace StreamView.Tracked

variable {maxPayload : UInt32} {clash : Prop} {ref : Ref} {v v' : StreamView} {events : List Event}

/-- Where neither the stream's flags nor its owner change, custody moves with the registry. -/
private theorem keep (h : v.Tracked) (hFlag : v'.state.closed = v.state.closed)
    (hTx : v'.state.dataTx = v.state.dataTx) (hOwner : v'.owner = v.owner)
    (hCustody : v.owner.Alive → v.registered ∨ v.pending → v'.registered ∨ v'.pending) :
    v'.Tracked where
  flag := by rw [hFlag, hTx, h.flag]
  leaving remote final hLeaving := by
    rw [hFlag]
    exact h.leaving remote final (hOwner ▸ hLeaving)
  tracked hAlive hNot hOpen := by
    rw [hOwner] at hAlive hNot
    exact hCustody hAlive (h.tracked hAlive hNot (hFlag ▸ hOpen))

/-- A closed stream is nobody's concern. -/
private theorem closed (hState : v'.state.closed = true) (hFlag : v'.state.dataTx = false) :
    v'.Tracked where
  flag := by rw [hState, hFlag]; rfl
  leaving _ _ _ := hState
  tracked _ _ hOpen := by
    rw [hState] at hOpen
    cases hOpen

/-- An owner gives up its place in the registry only when it leaves, or when the stream is closed. -/
private theorem moved (h : v.Tracked) {p : OwnerStep} {outboxOpen : Bool}
    (hMoves : OwnerMoves maxPayload outboxOpen v.state v.owner p) (hState : v'.state = p.state)
    (hOwner : v'.owner = p.owner)
    (hRegistered : match p.effect with
      | .insert => v'.registered
      | .remove => ¬v'.registered
      | _ => (v'.registered ↔ v.registered))
    (hPending : v'.pending ↔ v.pending) : v'.Tracked := by
  obtain ⟨hFlag, hLeaving, hRemoved, hInserted⟩ := hMoves.custody
  rcases hFlag with ⟨hClosed, hTx⟩ | ⟨hMarked, -⟩
  · refine ⟨by rw [hState, hClosed, hTx, h.flag], by rw [hOwner, hState]; exact hLeaving, ?_⟩
    intro hAlive hNot hOpen
    rw [hState, hClosed] at hOpen
    have hBefore : (∀ service, v.owner ≠ .inserting service) → v.registered ∨ v.pending :=
      fun hNotYoung => h.tracked hMoves.alive hNotYoung hOpen
    cases hEffect : p.effect with
    | insert => exact Or.inl (by simpa [hEffect] using hRegistered)
    | remove =>
        rcases hRemoved hEffect with hGone | ⟨remote, final, hRemoving⟩
        · exact absurd (hOwner ▸ hAlive) hGone
        · rw [h.leaving remote final hRemoving] at hOpen
          cases hOpen
    | nothing | post msg =>
        have hNotYoung : ∀ service, v.owner ≠ .inserting service := fun service hYoung => by
          have hInsert := hInserted service hYoung
          rw [hEffect] at hInsert
          cases hInsert
        have hSame : v'.registered ↔ v.registered := by simpa [hEffect] using hRegistered
        rw [hSame, hPending]
        exact hBefore hNotYoung
  · exact closed (by rw [hState, hMarked]; rfl) (by rw [hState, hMarked]; rfl)

/-- A dropped call leaves the registry as it is. -/
private theorem cancelled (h : v.Tracked) {p : OwnerStep} (hCancel : v.owner.cancel v.state = some p)
    (hState : v'.state = p.state) (hOwner : v'.owner = p.owner)
    (hRegistered : v'.registered ↔ v.registered) (hPending : v'.pending ↔ v.pending) : v'.Tracked := by
  obtain ⟨purpose, seen, hWaiting, hLeft⟩ := Owner.cancel_cases hCancel
  rcases hLeft with rfl | rfl
  · refine ⟨by rw [hState]; exact h.flag, by simp [hOwner], fun hAlive => ?_⟩
    rw [hOwner] at hAlive
    exact hAlive.elim
  · refine ⟨by rw [hState]; exact h.flag, by simp [hOwner], fun _ _ hOpen => ?_⟩
    rw [hState] at hOpen
    rw [hRegistered, hPending]
    exact h.tracked (by rw [hWaiting]; trivial) (by simp [hWaiting]) hOpen

/-- Every step keeps track of its streams, as long as no two of them share an id. -/
theorem step (h : v.Tracked) (hStep : ViewStep maxPayload clash ref v events v')
    (hApart : v.owner.Alive → v.registered → ¬clash) : v'.Tracked := by
  cases hStep with
  | other hEvents hMissed hState hOwner hLost hKept hPending =>
      refine h.keep (by rw [hState]) (by rw [hState]) hOwner fun hAlive =>
        Or.imp (fun hNow => ?_) hPending.mpr
      exact (hKept hNow).resolve_right (hApart hAlive hNow)
  | born hUnborn hState hOwner hUnregistered hPending =>
      refine ⟨by rw [hState]; rfl, by simp [hOwner], fun _ hNot => ?_⟩
      exact absurd hOwner (hNot _)
  | own hMoves hState hOwner hRegistered hPending =>
      exact h.moved hMoves hState hOwner hRegistered hPending
  | cancelled hCancel hState hOwner hRegistered hPending =>
      exact h.cancelled hCancel hState hOwner hRegistered hPending
  | acked hCommand hTarget hId hState hOwner hRegistered hPending =>
      exact h.keep (by rw [hState]; rfl) (by rw [hState]; rfl) hOwner (fun _ _ => Or.inl hRegistered)
  | delivered hCommand hTarget hId hState hOwner hRegistered hPending =>
      obtain ⟨-, -, hSame⟩ := StreamState.deliver_eq hState
      exact h.keep (by rw [hSame]) (by rw [hSame]) hOwner (fun _ _ => Or.inl hRegistered)
  | refused hCommand hTarget hId hDeliver hMore hState hOwner hRegistered hPending
  | ignored hCommand hTarget hId hState hOwner hRegistered hPending =>
      exact h.keep (by rw [hState]) (by rw [hState]) hOwner (fun _ _ => Or.inl hRegistered)
  | ended hCommand hTarget hId hState hOwner hRegistered hPending =>
      exact closed (by rw [hState]; rfl) (by rw [hState]; rfl)
  | handed hState hOwner hRegistered hPending =>
      exact h.keep (by rw [hState]) (by rw [hState]) hOwner
        (fun _ => Or.imp hRegistered.mpr hPending.mpr)
  | drained hMember hTarget hState hOwner hRegistered hPending =>
      exact h.keep (by rw [hState]) (by rw [hState]) hOwner (fun _ _ => Or.inr hPending)
  | marked hWaited hState hOwner hRegistered hPending =>
      exact closed (by rw [hState]; rfl) (by rw [hState]; rfl)

theorem start : ((Session.start maxPayload).view ref).Tracked where
  flag := rfl
  leaving _ _ hLeaving := by cases hLeaving
  tracked hAlive := hAlive.elim

end StreamView.Tracked

namespace Session

/-- The local ids are the numbers from one on, in the order of the streams. -/
structure Numbered (s : Session) : Prop where
  next : s.nextId.toNat = s.nextRef + 1
  ids : ∀ ref < s.nextRef, (s.streams ref).localId.toNat = ref + 1

/-- How many streams a session can open before the counter wraps. -/
def openLimit : Nat := 2 ^ 32 - 1

theorem numbered_start (maxPayload : UInt32) : (start maxPayload).Numbered :=
  ⟨rfl, fun ref hRef => absurd hRef (Nat.not_lt_zero ref)⟩

theorem numbered_step {s s' : Session} {action : Action} {events : List Event} (hNamed : s.Named)
    (hNumbered : s.Numbered) (h : s.step action = some (s', events))
    (hLimit : s'.nextRef < openLimit) : s'.Numbered := by
  have hOld : ∀ ref < s.nextRef, (s'.streams ref).localId.toNat = ref + 1 := fun ref hRef => by
    have hBorn : s.owners ref ≠ .unborn := by
      rw [Ne, hNamed.unborn, Nat.not_le]
      exact hRef
    have hSame : (s'.streams ref).localId = (s.streams ref).localId :=
      (step_view hNamed h ref).localId_eq hBorn
    rw [hSame, hNumbered.ids ref hRef]
  rcases step_births h with ⟨service, -, rfl⟩ | ⟨-, hNext, hId, -⟩
  · have hPositive : s.nextId ≠ 0 := fun hZero => by
      have hNext := hNumbered.next
      rw [hZero] at hNext
      cases hNext
    have hBound : s.nextRef + 1 < 2 ^ 32 - 1 := hLimit
    constructor
    · simp only [allocate, setStream, setOwner, if_neg hPositive, UInt32.toNat_add,
        UInt32.reduceToNat, hNumbered.next]
      exact Nat.mod_eq_of_lt (Nat.lt_of_lt_of_le (Nat.succ_lt_succ hBound) (by decide))
    · intro ref hRef
      rcases Nat.lt_succ_iff_lt_or_eq.mp hRef with hBefore | rfl
      · exact hOld ref hBefore
      · simp [allocate, setStream, setOwner, StreamState.fresh, hPositive, hNumbered.next]
  · refine ⟨by rw [hId, hNext, hNumbered.next], fun ref hRef => hOld ref (hNext ▸ hRef)⟩

variable {allowed : List Event → Session → Action → Prop} {maxPayload : UInt32}

/-- Until the counter wraps, every local id is given once. -/
theorem numbered_of_runs {trace : List Event} {s : Session}
    (h : Transition.Runs step allowed (start maxPayload) trace s) (hLimit : s.nextRef < openLimit) :
    s.Numbered := by
  induction h with
  | start => exact numbered_start maxPayload
  | next hRun _ hTaken ih =>
      exact numbered_step (named_of_runs hRun).1
        (ih (Nat.lt_of_le_of_lt (nextRef_mono hTaken) hLimit)) hTaken hLimit

/-- Two streams with one local id are one stream. -/
theorem Numbered.eq_of_localId {s : Session} (hNumbered : s.Numbered) {ref other : Ref}
    (hBorn : ref < s.nextRef) (hOther : other < s.nextRef)
    (hId : (s.streams other).localId = (s.streams ref).localId) : other = ref := by
  have hSame := congrArg UInt32.toNat hId
  rw [hNumbered.ids other hOther, hNumbered.ids ref hBorn] at hSame
  exact Nat.succ.inj hSame

theorem Named.born {s : Session} (hNamed : s.Named) {ref : Ref} (hOwner : s.owners ref ≠ .unborn) :
    ref < s.nextRef := by
  rwa [Ne, hNamed.unborn, Nat.not_le] at hOwner

/-- Until the counter wraps, no stream takes another's place in the registry. -/
theorem tracked_of_runs {trace : List Event} {s : Session}
    (h : Transition.Runs step allowed (start maxPayload) trace s) (hLimit : s.nextRef < openLimit)
    (ref : Ref) : (s.view ref).Tracked := by
  induction h with
  | start => exact StreamView.Tracked.start
  | @next _ s s' _ _ hRun hAllowed hTaken ih =>
      have hBefore := Nat.lt_of_le_of_lt (nextRef_mono hTaken) hLimit
      obtain ⟨hNamed, -⟩ := named_of_runs hRun
      refine (ih hBefore).step (step_view hNamed hTaken ref) ?_
      rintro hAlive hRegistered ⟨other, -, hOther, hWrites, hId⟩
      have hOwner : s.owners other ≠ .unborn := fun hUnborn => by
        rw [hUnborn] at hWrites
        exact hWrites
      exact hOther ((numbered_of_runs hRun hBefore).eq_of_localId
        (hNamed.registered_born _ ref hRegistered) (hNamed.born hOwner) hId)

/-- Where nobody writes to the registry in place of another stream, no stream is lost. -/
theorem tracked_of_apart
    (hApart : ∀ {trace s ref}, allowed trace s (.advance ref) → (s.owners ref).Writes →
      ∀ other, s.get (s.streams ref).localId = some other → other = ref)
    {trace : List Event} {s : Session} (hRun : Transition.Runs step allowed (start maxPayload) trace s)
    (ref : Ref) : (s.view ref).Tracked := by
  refine @view_invariant _ _ (fun _ v => v.Tracked) ref StreamView.Tracked.start ?_ _ _ hRun
  intro trace s s' action events hRun hAllowed hTaken hStep hTracked
  refine hTracked.step hStep ?_
  rintro - hRegistered ⟨other, rfl, hOther, hWrites, hId⟩
  refine hOther (hApart hAllowed hWrites ref ?_).symm
  rw [hId]
  exact hRegistered

end Session
end Rsadb
