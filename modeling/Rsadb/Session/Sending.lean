import Rsadb.Session.Client
import Rsadb.Session.Limit
import Rsadb.Session.Stranding
import Rsadb.Library.Course
import Mathlib.Algebra.Order.Floor.Div

/-! A `send` from its call to its return. The data is cut into chunks of the
negotiated size, and a `send` whose writes are acknowledged goes through all of
them and returns. -/
namespace Rsadb

/-- The writes of a `send` so far and what is left of its data. -/
structure Chunked (limit : Nat) (data : Bytes) (writes : List Message) (rest : Bytes) : Prop where
  sized : ∀ msg ∈ writes, msg.command = .write ∧ msg.payload ≠ [] ∧ msg.payload.length ≤ limit
  joined : writes.flatMap Message.payload ++ rest = data
  counted : writes.length + rest.length ⌈/⌉ limit = data.length ⌈/⌉ limit

namespace Chunked

variable {limit : Nat} {data rest : Bytes} {writes : List Message}

theorem start : Chunked limit data [] data :=
  ⟨by simp, rfl, Nat.zero_add _⟩

/-- Cutting off one chunk leaves one chunk less to cut. -/
theorem ceilDiv_chunk (hLimit : 0 < limit) {length : Nat} (hLength : 0 < length) :
    length ⌈/⌉ limit = 1 + (length - min length limit) ⌈/⌉ limit := by
  rw [Nat.ceilDiv_eq_add_pred_div, Nat.ceilDiv_eq_add_pred_div]
  rcases Nat.le_total length limit with hLast | hMore
  · rw [Nat.min_eq_left hLast, Nat.sub_self, Nat.zero_add, Nat.div_eq_of_lt (Nat.sub_lt hLimit one_pos),
      Nat.div_eq_of_lt_le] <;> omega
  · have hSum : length + limit - 1 = (length - limit + limit - 1) + limit := by omega
    rw [Nat.min_eq_right hMore, hSum, Nat.add_div_right _ hLimit, Nat.add_comm 1]

/-- The next chunk is written. -/
theorem write (h : Chunked limit data writes rest) (hLimit : 0 < limit) (hRest : rest ≠ [])
    (localId remote : UInt32) :
    Chunked limit data (writes ++ [⟨.write, localId, remote, rest.take (min rest.length limit)⟩])
      (rest.drop (min rest.length limit)) := by
  have hLength : 0 < rest.length := List.length_pos_iff.mpr hRest
  refine ⟨fun msg hMember => ?_, ?_, ?_⟩
  · rcases List.mem_append.mp hMember with hOld | hNew
    · exact h.sized msg hOld
    · rw [List.mem_singleton.mp hNew]
      refine ⟨rfl, ?_, ?_⟩
      · rw [← List.length_pos_iff, List.length_take]
        omega
      · rw [List.length_take]
        omega
  · rw [List.flatMap_append, List.flatMap_singleton, List.append_assoc, List.take_append_drop, h.joined]
  · rw [List.length_append, List.length_singleton, List.length_drop, Nat.add_assoc,
      ← ceilDiv_chunk hLimit hLength, h.counted]

/-- When nothing is left, all chunks are written. -/
theorem done (h : Chunked limit data writes []) :
    writes.length = data.length ⌈/⌉ limit ∧ writes.flatMap Message.payload = data := by
  have hJoined := h.joined
  have hCounted := h.counted
  rw [List.append_nil] at hJoined
  rw [List.length_nil, zero_ceilDiv] at hCounted
  exact ⟨hCounted, hJoined⟩

end Chunked

/-- What the pending `send` has left to write. -/
def Owner.left : Owner → Option Bytes
  | .writing rest => some rest
  | .counting rest _ => some rest
  | .sending rest _ _ => some rest
  | .waiting (.writing rest) _ _ => some rest
  | _ => none

/-- Whether the owner waits for the acknowledgement of a write. -/
def Owner.Awaits : Owner → Prop
  | .waiting (.writing _) _ _ => True
  | _ => False

/-- How far a `send` is from its end, the waits aside. -/
def Owner.distance : Owner → Nat
  | .waiting (.writing rest) _ _ => 4 * rest.length + 3
  | .writing rest => 4 * rest.length + 2
  | .counting rest _ => 4 * rest.length + 1
  | .sending rest _ _ => 4 * rest.length
  | _ => 0

/-- A `send` under way: its owner has the rest of the data, and there is some
unless it waits for its last acknowledgement. -/
def Underway (limit : Nat) (data : Bytes) (writes : List Message) (owner : Owner) : Prop :=
  ∃ rest, owner.left = some rest ∧ (rest = [] → owner.Awaits) ∧ Chunked limit data writes rest

/-- How a `send` ends: with everything written, or where the stream or the writer has ended. -/
def Ended (limit : Nat) (data : Bytes) (writes : List Message) (closed outboxOpen : Bool)
    (result : Returned) : Prop :=
  ∃ rest, Chunked limit data writes rest ∧
    (result = .sent ∧ rest = [] ∨ ∃ e, result = .sendFailed e ∧ (closed = true ∨ outboxOpen = false))

/-- A move in a `send` ends it or brings it forward. -/
theorem Move.send {maxPayload : UInt32} {outboxOpen : Bool} {state : StreamState} {owner : Owner}
    {p : OwnerStep} (h : Move maxPayload outboxOpen state owner p) (hLimit : 0 < maxPayload.toNat)
    (hRemote : state.remote ≠ none) {data : Bytes} {writes : List Message}
    (hUnderway : Underway maxPayload.toNat data writes owner) :
    (p.returns = [] ∧ Underway maxPayload.toNat data (p.effect.after writes) p.owner ∧
        (p.owner.distance < owner.distance ∨
          ∃ rest seen stage next, owner = .waiting (.writing rest) seen stage ∧
            p.owner = .waiting (.writing rest) seen next ∧ p.effect.after writes = writes)) ∨
      ∃ result, p.returns = [result] ∧
        Ended maxPayload.toNat data (p.effect.after writes) state.closed outboxOpen result := by
  obtain ⟨rest, hLeft, hMore, hChunked⟩ := hUnderway
  cases h with
  | completed hAcks =>
      cases hLeft
      exact Or.inr ⟨_, rfl, [], hChunked, Or.inl ⟨rfl, rfl⟩⟩
  | continued hAcks hRest =>
      cases hLeft
      exact Or.inl ⟨rfl, ⟨_, rfl, fun hNone => absurd hNone hRest, hChunked⟩, Or.inl (Nat.lt_succ_self _)⟩
  | @unanswered purpose seen | @parked purpose seen | @woken purpose seen =>
      cases purpose with
      | opening service => cases hLeft
      | writing bytes =>
          cases hLeft
          exact Or.inl ⟨rfl, ⟨_, rfl, fun _ => trivial, hChunked⟩, Or.inr ⟨_, _, _, _, rfl, rfl, rfl⟩⟩
  | interrupted hClosed =>
      cases hLeft
      exact Or.inr ⟨_, rfl, _, hChunked, Or.inr ⟨_, rfl, Or.inl hClosed⟩⟩
  | addressed =>
      cases hLeft
      exact Or.inl ⟨rfl, ⟨_, rfl, hMore, hChunked⟩, Or.inl (Nat.lt_succ_self _)⟩
  | shutOut hIds =>
      cases hLeft
      exact Or.inr ⟨_, rfl, _, hChunked, Or.inr ⟨_, rfl, Or.inl (hIds.resolve_right hRemote)⟩⟩
  | counted =>
      cases hLeft
      exact Or.inl ⟨rfl, ⟨_, rfl, hMore, hChunked⟩, Or.inl (Nat.lt_succ_self _)⟩
  | wrote hOpen =>
      cases hLeft
      have hRest : rest ≠ [] := fun hNone => hMore hNone
      refine Or.inl ⟨rfl, ⟨_, rfl, fun _ => trivial, hChunked.write hLimit hRest _ _⟩, Or.inl ?_⟩
      have hLength : 0 < rest.length := List.length_pos_iff.mpr hRest
      simp only [Owner.distance, List.length_drop]
      omega
  | unwritten hOpen =>
      cases hLeft
      exact Or.inr ⟨_, rfl, _, hChunked, Or.inr ⟨_, rfl, Or.inr hOpen⟩⟩
  | _ => cases hLeft

/-- Whoever is past its look at the count without a wakeup pending has not been acknowledged. -/
def StreamView.Heedful (v : StreamView) : Prop :=
  ∀ purpose seen stage, v.owner = .waiting purpose seen stage → stage ≠ .acks → v.state.wake = false →
    ¬v.state.acks > seen

theorem StreamView.Heedful.step {maxPayload : UInt32} {clash : Prop} {ref : Ref} {v v' : StreamView}
    {events : List Event} (h : v.Heedful) (hStep : ViewStep maxPayload clash ref v events v') :
    v'.Heedful := by
  intro purpose seen stage hWaiting hStage hWake
  cases hStep with
  | born hUnborn hState hOwner =>
      rw [hOwner] at hWaiting
      cases hWaiting
  | @own _ p outboxOpen hMoves hState hOwner =>
      rw [hOwner] at hWaiting
      rw [hState] at hWake ⊢
      have hMove := hMoves.move
      generalize hBefore : v.owner = owner at hMove
      cases hMove with
      | unanswered hAcks =>
          cases hWaiting
          exact hAcks
      | parked =>
          cases hWaiting
          exact h _ _ _ hBefore (by simp) hWake
      | requested | wrote | woken =>
          cases hWaiting
          exact absurd rfl hStage
      | _ => cases hWaiting
  | cancelled hCancel hState hOwner =>
      obtain ⟨purpose, seen, -, hLeft⟩ := Owner.cancel_cases hCancel
      rw [hOwner] at hWaiting
      rcases hLeft with rfl | rfl <;> cases hWaiting
  | delivered hCommand hTarget hId hState hOwner =>
      obtain ⟨-, -, hSame⟩ := StreamState.deliver_eq hState
      rw [hSame] at hWake ⊢
      exact h purpose seen stage (hOwner ▸ hWaiting) hStage hWake
  | acked hCommand hTarget hId hState | ended hCommand hTarget hId hState | marked hWaited hState =>
      rw [hState] at hWake
      cases hWake
  | other hEvents hMissed hState hOwner | refused hCommand hTarget hId hDeliver hMore hState hOwner
  | ignored hCommand hTarget hId hState hOwner | handed hState hOwner
  | drained hMember hTarget hState hOwner =>
      rw [hState] at hWake ⊢
      exact h purpose seen stage (hOwner ▸ hWaiting) hStage hWake

/-- An owner with data left to write speaks to a stream that has been opened. -/
theorem Said.remote_of_left {state : StreamState} {posted : List Message} {owner : Owner}
    (h : Said state posted owner) {rest : Bytes} (hLeft : owner.left = some rest) :
    state.remote ≠ none := by
  cases owner with
  | writing bytes => exact h.1
  | counting bytes remote | sending bytes remote seen =>
      rw [h.1]
      exact Option.some_ne_none _
  | waiting purpose seen stage =>
      cases purpose with
      | opening service => cases hLeft
      | writing bytes => exact h.1
  | _ => cases hLeft

theorem Effect.after_append (effect : Effect) (earlier writes : List Message) :
    effect.after (earlier ++ writes) = earlier ++ effect.after writes := by
  cases effect <;> simp [Effect.after]

namespace Session

/-- In every run every owner that waits is heedful. -/
theorem heedful_of_runs {allowed : List Event → Session → Action → Prop} {maxPayload : UInt32}
    {trace : List Event} {s : Session} (hRun : Transition.Runs step allowed (start maxPayload) trace s)
    (ref : Ref) : (s.view ref).Heedful :=
  @view_invariant _ _ (fun _ v => v.Heedful) ref (fun _ _ _ hWaiting => by cases hWaiting)
    (fun _ _ _ hStep h => h.step hStep) _ _ hRun

/-- What concerns a call at one moment: where its owner stands, what the owner
has posted and what its calls have returned. -/
structure Moment where
  owner : Owner
  posted : List Message
  returned : List Returned

variable {limit : UInt32}

def moment (course : Transition.Course step (start limit)) (ref : Ref) (n : Nat) : Moment :=
  ⟨(course.state n).owners ref, (ledger ref (course.trace n)).posted, returns ref (course.trace n)⟩

/-- Every write of the stream is acknowledged: whenever its owner waits after a
write, the count of acknowledgements passes what the owner read before it, for as
long as the owner waits. -/
def Acknowledged (course : Transition.Course step (start limit)) (ref : Ref) : Prop :=
  ∀ n rest seen stage, (course.state n).owners ref = .waiting (.writing rest) seen stage →
    ∃ m ≥ n, ∀ k ≥ m,
      (∀ j, n ≤ j → j ≤ k → ∃ stage, (course.state j).owners ref = .waiting (.writing rest) seen stage) →
      ((course.state k).streams ref).acks > seen

/-- What an own step leaves in the account of the stream. -/
private theorem events_account (ref : Ref) (p : OwnerStep) (trace : List Event) :
    (ledger ref (trace ++ Session.events ref p)).posted = p.effect.after (ledger ref trace).posted ∧
      returns ref (trace ++ Session.events ref p) = returns ref trace ++ p.returns := by
  constructor
  · rw [ledger_append, Ledger.note_own, Ledger.enter_posted]
  · rw [returns, List.filterMap_append, returns_events]
    rfl

section

variable {course : Transition.Course step (start limit)} {ref : Ref}

/-- A pending call is advanced, or the moment passes it by. -/
private theorem moment_next {n : Nat} (hPending : (moment course ref n).owner ≠ .idle)
    (hBorn : (moment course ref n).owner ≠ .unborn) (hKept : course.action n ≠ some (.cancel ref)) :
    (course.action n ≠ some (.advance ref) ∧ moment course ref (n + 1) = moment course ref n) ∨
    (course.action n = some (.advance ref) ∧ ∃ p, Move limit (course.state n).outboxOpen
      ((course.state n).streams ref) (moment course ref n).owner p ∧
      moment course ref (n + 1) = ⟨p.owner, p.effect.after (moment course ref n).posted,
        (moment course ref n).returned ++ p.returns⟩) := by
  obtain ⟨hNamed, hLimit⟩ := named_of_runs (course.runs n)
  cases hAction : course.action n with
  | none =>
      obtain ⟨hState, hTrace⟩ := course.pause n hAction
      exact Or.inl ⟨by simp, by rw [moment, moment, hState, hTrace]⟩
  | some action =>
      obtain ⟨events, hTaken, hTrace⟩ := course.next n action hAction
      by_cases hAdvance : action = .advance ref
      · subst action
        obtain ⟨p, hMoves, hState, rfl⟩ := step_advance hTaken
        have hMove := Owner.advance_move hMoves
        rw [hLimit] at hMove
        obtain ⟨hPosted, hReturned⟩ := events_account ref p (course.trace n)
        refine Or.inr ⟨rfl, p, hMove, ?_⟩
        rw [moment, hTrace, hState, (perform_self _ ref p).2, hPosted, hReturned]
        rfl
      · refine Or.inl ⟨fun hSame => hAdvance (Option.some.inj hSame), ?_⟩
        have hCancel : action ≠ .cancel ref := fun hSame => hKept (by rw [hAction, hSame])
        have hAccount := step_account hNamed hTaken ref (course.trace n)
        have hClient := step_client hNamed hTaken ref
        have hPosted : (ledger ref (course.trace n ++ events)).posted =
            (ledger ref (course.trace n)).posted := by
          generalize ledger ref (course.trace n ++ events) = after at hAccount ⊢
          generalize (course.state (n + 1)).streams ref = state at hAccount
          generalize (course.state (n + 1)).owners ref = owner at hAccount
          cases hAccount with
          | moved _ _ hActor =>
              rcases hActor with hMine | ⟨hIdle, -⟩
              · exact absurd hMine hAdvance
              · exact absurd hIdle hPending
          | cancelled _ hMine => exact absurd hMine hCancel
          | _ => rfl
        have hBoth : (course.state (n + 1)).owners ref = (course.state n).owners ref ∧
            events.filterMap (Event.returns ref) = [] := by
          generalize events.filterMap (Event.returns ref) = given at hClient ⊢
          generalize (course.state (n + 1)).streams ref = state at hClient
          generalize (course.state (n + 1)).owners ref = owner at hClient ⊢
          cases hClient with
          | apart => exact ⟨rfl, rfl⟩
          | born hUnborn => exact absurd hUnborn hBorn
          | began _ hIdle => exact absurd hIdle hPending
          | advanced hMine => exact absurd hMine hAdvance
          | cancelled hMine => exact absurd hMine hCancel
        rw [moment, moment, hTrace, hPosted, hBoth.1, returns, List.filterMap_append, hBoth.2,
          List.append_nil]
        rfl

/-- What an owner remembers of the count was once the count. -/
private def Remembered (l : Ledger) : Owner → Prop
  | .sending _ _ seen | .waiting _ seen _ => ∃ count ≤ l.okays, seen = UInt64.ofNat count
  | _ => True

private theorem Remembered.mono {l l' : Ledger} {owner : Owner} (h : Remembered l owner)
    (hOkays : l.okays ≤ l'.okays) : Remembered l' owner := by
  cases owner with
  | sending | waiting =>
      obtain ⟨count, hCount, hSeen⟩ := h
      exact ⟨count, Nat.le_trans hCount hOkays, hSeen⟩
  | _ => trivial

private theorem remembered_of_runs {trace : List Event} {s : Session}
    (hRun : Transition.Runs step (fun _ _ _ => True) (start limit) trace s) (ref : Ref) :
    Remembered (ledger ref trace) (s.owners ref) := by
  refine @account_invariant _ _ (fun l _ owner => Remembered l owner) ref trivial ?_ _ _ hRun
  intro trace s action l state owner hRun hAllowed hStep hBefore
  cases hStep with
  | same | delivered | refused | ended | marked | handed => exact hBefore
  | acked => exact hBefore.mono (Nat.le_succ _)
  | born => trivial
  | @moved _ p hMove =>
      have hCount := (counted_of_runs hRun ref).acks
      have hOkays := ((ledger ref trace).enter_frame p).1
      generalize s.owners ref = owner at hMove hBefore
      cases hMove with
      | requested => exact ⟨0, Nat.zero_le _, rfl⟩
      | counted => exact ⟨_, Nat.le_of_eq hOkays.symm, hCount⟩
      | wrote | unanswered | parked | woken => exact hBefore.mono (Nat.le_of_eq hOkays.symm)
      | _ => trivial
  | cancelled hCancel =>
      obtain ⟨purpose, seen, -, rfl | rfl⟩ := Owner.cancel_cases hCancel <;> trivial

/-- The acknowledgements of a stream only become more. -/
private theorem okays_next (n : Nat) :
    (ledger ref (course.trace n)).okays ≤ (ledger ref (course.trace (n + 1))).okays := by
  obtain ⟨hNamed, -⟩ := named_of_runs (course.runs n)
  cases hAction : course.action n with
  | none => rw [(course.pause n hAction).2]
  | some action =>
      obtain ⟨events, hTaken, hTrace⟩ := course.next n action hAction
      have hAccount := step_account hNamed hTaken ref (course.trace n)
      rw [hTrace]
      generalize ledger ref (course.trace n ++ events) = after at hAccount ⊢
      generalize (course.state (n + 1)).streams ref = state at hAccount
      generalize (course.state (n + 1)).owners ref = owner at hAccount
      cases hAccount with
      | moved => rw [((ledger ref (course.trace n)).enter_frame _).1]
      | acked => exact Nat.le_succ _
      | _ => exact Nat.le_refl _

/-- A device that sends an OKAY for every write acknowledges it, as long as the
count of the stream does not wrap. -/
theorem acknowledged_of_okays (hBound : ∀ n, (ledger ref (course.trace n)).okays < 2 ^ 64)
    (hAnswers : ∀ n rest seen stage,
      (course.state n).owners ref = .waiting (.writing rest) seen stage →
      ∃ m ≥ n, ∃ msg, course.action m = some (.arrive msg) ∧ msg.command = .okay ∧
        (course.state m).get msg.arg1 = some ref) : Acknowledged course ref := by
  intro n rest seen stage hOwner
  obtain ⟨m, hLater, msg, hAction, hCommand, hTarget⟩ := hAnswers n rest seen stage hOwner
  have hRemembered := remembered_of_runs (course.runs n) ref
  rw [hOwner] at hRemembered
  obtain ⟨count, hCount, rfl⟩ := hRemembered
  refine ⟨m + 1, Nat.le_succ_of_le hLater, fun k hAfter _ => ?_⟩
  have hMono := monotone_nat_of_le_succ (@okays_next _ course ref)
  have hMore : (ledger ref (course.trace (m + 1))).okays = (ledger ref (course.trace m)).okays + 1 := by
    obtain ⟨events, hTaken, hTrace⟩ := course.next m _ hAction
    have hStep := step_cases hTaken
    generalize course.state (m + 1) = after at hStep
    cases hStep
    rw [hTrace, ledger_append]
    simp [route, hCommand, hTarget, Ledger.note, Ledger.dispatch]
  have hNow : (ledger ref (course.trace n)).okays ≤ (ledger ref (course.trace m)).okays := hMono hLater
  have hThen : (ledger ref (course.trace (m + 1))).okays ≤ (ledger ref (course.trace k)).okays :=
    hMono hAfter
  have hLess : count < (ledger ref (course.trace k)).okays := by omega
  rw [(counted_of_runs (course.runs k) ref).acks, gt_iff_lt, UInt64.lt_iff_toNat_lt,
    UInt64.toNat_ofNat', UInt64.toNat_ofNat', Nat.mod_eq_of_lt (hBound k),
    Nat.mod_eq_of_lt (Nat.lt_trans hLess (hBound k))]
  exact hLess

/-- A closed stream stays closed, and so does the outbox. -/
private theorem shut_next {n : Nat} (hBorn : (moment course ref n).owner ≠ .unborn) :
    (((course.state n).streams ref).closed = true → ((course.state (n + 1)).streams ref).closed = true) ∧
    ((course.state n).outboxOpen = false → (course.state (n + 1)).outboxOpen = false) := by
  obtain ⟨hNamed, -⟩ := named_of_runs (course.runs n)
  cases hAction : course.action n with
  | none =>
      rw [(course.pause n hAction).1]
      exact ⟨id, id⟩
  | some action =>
      obtain ⟨events, hTaken, -⟩ := course.next n action hAction
      refine ⟨(step_view hNamed hTaken ref).closed_of hBorn, fun hShut => ?_⟩
      have hEnded : (course.state n).writer = .ended := by simpa [outboxOpen] using hShut
      simpa [outboxOpen] using writer_ended hTaken hEnded

/-- A pending call whose next step stays possible takes it. -/
private theorem moves_on (hFair : course.Fair (.advance ref))
    (hAwaited : ∀ m, course.action m ≠ some (.cancel ref)) {n : Nat}
    (hPending : (moment course ref n).owner ≠ .idle) (hBorn : (moment course ref n).owner ≠ .unborn)
    (hEnabled : ∀ m ≥ n, (∀ k, n ≤ k → k ≤ m → moment course ref k = moment course ref n) →
      (moment course ref n).owner.advance limit (course.state m).outboxOpen
        ((course.state m).streams ref) ≠ none) :
    ∃ m ≥ n, (∀ k, n ≤ k → k ≤ m → moment course ref k = moment course ref n) ∧
      ∃ p, Move limit (course.state m).outboxOpen ((course.state m).streams ref)
          (moment course ref n).owner p ∧
        moment course ref (m + 1) = ⟨p.owner, p.effect.after (moment course ref n).posted,
          (moment course ref n).returned ++ p.returns⟩ := by
  have hNow : n ≤ n ∧ ∀ k, n ≤ k → k ≤ n → moment course ref k = moment course ref n :=
    ⟨Nat.le_refl n, fun k hFrom hTo => by rw [Nat.le_antisymm hTo hFrom]⟩
  have hTaken : ∃ m ≥ n, (n ≤ m ∧ ∀ k, n ≤ k → k ≤ m → moment course ref k = moment course ref n) ∧
      course.action m = some (.advance ref) := by
    refine hFair.taken (fun m hStill hOther => ?_) (fun m hStill => ?_) hNow
    · obtain ⟨hLater, hSame⟩ := hStill
      have hAt := hSame m hLater (Nat.le_refl m)
      refine ⟨Nat.le_succ_of_le hLater, fun k hFrom hTo => ?_⟩
      rcases Nat.le_succ_iff.mp hTo with hOld | rfl
      · exact hSame k hFrom hOld
      · rcases moment_next (hAt ▸ hPending) (hAt ▸ hBorn) (hAwaited m) with ⟨-, hPassed⟩ | ⟨hAction, -⟩
        · rw [hPassed, hAt]
        · exact absurd hAction hOther
    · obtain ⟨hLater, hSame⟩ := hStill
      have hAt : (course.state m).owners ref = (moment course ref n).owner :=
        congrArg Moment.owner (hSame m hLater (Nat.le_refl m))
      simp only [step, hAt, (named_of_runs (course.runs m)).2, ne_eq, Option.map_eq_none_iff]
      exact hEnabled m hLater hSame
  obtain ⟨m, -, ⟨hLater, hSame⟩, hAction⟩ := hTaken
  have hAt := hSame m hLater (Nat.le_refl m)
  refine ⟨m, hLater, hSame, ?_⟩
  rcases moment_next (hAt ▸ hPending) (hAt ▸ hBorn) (hAwaited m) with ⟨hOther, -⟩ | ⟨-, hMoved⟩
  · exact absurd hAction hOther
  · rwa [hAt] at hMoved

/-- A `send` of the data is pending, with what its owner had posted and returned before. -/
private def Going (limit : UInt32) (data : Bytes) (earlier : List Message) (given : List Returned)
    (now : Moment) : Prop :=
  now.returned = given ∧
    ∃ writes, now.posted = earlier ++ writes ∧ Underway limit.toNat data writes now.owner

/-- The `send` has returned. -/
private def Done (course : Transition.Course step (start limit)) (ref : Ref) (data : Bytes)
    (earlier : List Message) (given : List Returned) (n : Nat) : Prop :=
  ∃ result writes, (moment course ref n).returned = given ++ [result] ∧
    (moment course ref n).posted = earlier ++ writes ∧
    Ended limit.toNat data writes ((course.state n).streams ref).closed (course.state n).outboxOpen result

variable {data : Bytes} {earlier : List Message} {given : List Returned}

/-- One step of the `send` ends it, or brings it forward, or is one of the wait. -/
private theorem going_next (hLimit : 0 < limit.toNat) {n : Nat}
    (hGoing : Going limit data earlier given (moment course ref n)) {p : OwnerStep}
    (hMove : Move limit (course.state n).outboxOpen ((course.state n).streams ref)
      (moment course ref n).owner p)
    (hNext : moment course ref (n + 1) = ⟨p.owner, p.effect.after (moment course ref n).posted,
      (moment course ref n).returned ++ p.returns⟩) :
    Done course ref data earlier given (n + 1) ∨
    (Going limit data earlier given (moment course ref (n + 1)) ∧
      ((moment course ref (n + 1)).owner.distance < (moment course ref n).owner.distance ∨
        ∃ rest seen stage next, (moment course ref n).owner = .waiting (.writing rest) seen stage ∧
          (moment course ref (n + 1)).owner = .waiting (.writing rest) seen next)) := by
  obtain ⟨hReturned, writes, hPosted, hUnderway⟩ := hGoing
  obtain ⟨rest, hLeft, -⟩ := id hUnderway
  have hRemote : ((course.state n).streams ref).remote ≠ none :=
    (said_of_runs (course.runs n) ref).remote_of_left hLeft
  have hBorn : (moment course ref n).owner ≠ .unborn := fun hUnborn => by
    rw [hUnborn] at hLeft
    cases hLeft
  obtain ⟨hClosed, hOutbox⟩ := shut_next hBorn
  rw [hPosted, Effect.after_append, hReturned] at hNext
  rcases hMove.send hLimit hRemote hUnderway with ⟨hQuiet, hStill, hNearer⟩ | ⟨result, hResult, hEnd⟩
  · rw [hQuiet, List.append_nil] at hNext
    rw [hNext]
    refine Or.inr ⟨⟨rfl, _, rfl, hStill⟩, hNearer.imp_right ?_⟩
    rintro ⟨rest, seen, stage, next, hBefore, hAfter, -⟩
    exact ⟨rest, seen, stage, next, hBefore, hAfter⟩
  · rw [hResult] at hNext
    refine Or.inl ⟨result, _, congrArg Moment.returned hNext, congrArg Moment.posted hNext, ?_⟩
    obtain ⟨left, hChunked, hCase⟩ := hEnd
    exact ⟨left, hChunked, hCase.imp_right fun ⟨e, hFailed, hWhy⟩ => ⟨e, hFailed, hWhy.imp hClosed hOutbox⟩⟩

/-- How many looks a wait is away from its next look at the count. -/
private def lap : Owner → Nat
  | .waiting _ _ .closed => 2
  | .waiting _ _ .parked => 1
  | _ => 0

/-- Once the count is past what the owner remembers, each step of the wait brings it closer. -/
private theorem lap_move {maxPayload : UInt32} {outboxOpen : Bool} {state : StreamState} {rest : Bytes}
    {seen : UInt64} {stage next : WaitStep} {p : OwnerStep}
    (hMove : Move maxPayload outboxOpen state (.waiting (.writing rest) seen stage) p)
    (hAcks : state.acks > seen) (hNext : p.owner = .waiting (.writing rest) seen next) :
    lap p.owner < lap (.waiting (.writing rest) seen stage) := by
  cases hMove with
  | unanswered hNot => exact absurd hAcks hNot
  | parked | woken => exact Nat.lt_succ_self _
  | _ => cases hNext

/-- Once the count is past what the owner remembers, the wait is never stuck. -/
private theorem waiting_enabled {maxPayload : UInt32} {outboxOpen : Bool} {v : StreamView}
    (hHeedful : v.Heedful) {purpose : Purpose} {seen : UInt64} {stage : WaitStep}
    (hOwner : v.owner = .waiting purpose seen stage) (hAcks : v.state.acks > seen) :
    (Owner.waiting purpose seen stage).advance maxPayload outboxOpen v.state ≠ none := by
  cases stage with
  | acks | closed =>
      simp only [Owner.advance]
      split <;> exact Option.some_ne_none _
  | parked =>
      have hWake : v.state.wake = true := by
        by_contra hNot
        exact hHeedful purpose seen .parked hOwner (by simp) (by simpa using hNot) hAcks
      simp only [Owner.advance, if_pos hWake]
      exact Option.some_ne_none _

/-- The wait after a write comes to an end. -/
private theorem wait_over (hLimit : 0 < limit.toNat) (hFair : course.Fair (.advance ref))
    (hAwaited : ∀ m, course.action m ≠ some (.cancel ref)) (hAcknowledged : Acknowledged course ref)
    {n : Nat} (hGoing : Going limit data earlier given (moment course ref n)) {rest : Bytes}
    {seen : UInt64} {stage : WaitStep}
    (hOwner : (moment course ref n).owner = .waiting (.writing rest) seen stage) :
    ∃ m ≥ n, Done course ref data earlier given m ∨ Going limit data earlier given (moment course ref m) ∧
      (moment course ref m).owner.distance < (moment course ref n).owner.distance := by
  by_contra hNever
  have hHeld : ∀ m ≥ n, Going limit data earlier given (moment course ref m) ∧
      ∃ stage, (moment course ref m).owner = .waiting (.writing rest) seen stage := fun m hLater => by
    induction m, hLater using Nat.le_induction with
    | base => exact ⟨hGoing, stage, hOwner⟩
    | succ m hLater ih =>
        obtain ⟨hStill, stage, hWaiting⟩ := ih
        have hPending : (moment course ref m).owner ≠ .idle ∧ (moment course ref m).owner ≠ .unborn := by
          simp [hWaiting]
        rcases moment_next hPending.1 hPending.2 (hAwaited m) with ⟨-, hPassed⟩ | ⟨-, p, hMove, hNext⟩
        · rw [hPassed]
          exact ⟨hStill, stage, hWaiting⟩
        · have hSame : (moment course ref m).owner.distance = (moment course ref n).owner.distance := by
            rw [hWaiting, hOwner]
            rfl
          rcases going_next hLimit hStill hMove hNext with hDone | ⟨hOn, hNearer | ⟨_, _, _, next, hBefore, hAfter⟩⟩
          · exact absurd ⟨m + 1, Nat.le_succ_of_le hLater, Or.inl hDone⟩ hNever
          · exact absurd ⟨m + 1, Nat.le_succ_of_le hLater, Or.inr ⟨hOn, hSame ▸ hNearer⟩⟩ hNever
          · rw [hWaiting] at hBefore
            cases hBefore
            exact ⟨hOn, next, hAfter⟩
  obtain ⟨m₀, hFrom, hAcks⟩ := hAcknowledged n rest seen stage hOwner
  have hCount : ∀ k ≥ m₀, ((course.state k).streams ref).acks > seen := fun k hLater =>
    hAcks k hLater fun j hAfter _ => (hHeld j hAfter).2
  have hFalls : ∀ k ≥ m₀, ∃ m ≥ k, False ∨ m₀ ≤ m ∧
      lap (moment course ref m).owner < lap (moment course ref k).owner := fun k hLater => by
    obtain ⟨-, now, hWaiting⟩ := hHeld k (Nat.le_trans hFrom hLater)
    have hEnabled : ∀ m ≥ k, (∀ j, k ≤ j → j ≤ m → moment course ref j = moment course ref k) →
        (moment course ref k).owner.advance limit (course.state m).outboxOpen
          ((course.state m).streams ref) ≠ none := fun m hAfter hSame => by
      have hThen : (moment course ref m).owner = .waiting (.writing rest) seen now :=
        (congrArg Moment.owner (hSame m hAfter (Nat.le_refl m))).trans hWaiting
      rw [hWaiting]
      exact waiting_enabled (heedful_of_runs (course.runs m) ref) hThen
        (hCount m (Nat.le_trans hLater hAfter))
    obtain ⟨m, hAfter, -, p, hMove, hNext⟩ :=
      moves_on hFair hAwaited (by simp [hWaiting]) (by simp [hWaiting]) hEnabled
    obtain ⟨-, next, hStill⟩ := hHeld (m + 1) (by omega)
    refine ⟨m + 1, by omega, Or.inr ⟨by omega, ?_⟩⟩
    rw [hWaiting] at hMove ⊢
    rw [hNext] at hStill ⊢
    exact lap_move hMove (hCount m (Nat.le_trans hLater hAfter)) hStill
  obtain ⟨-, -, hFalse⟩ := Transition.eventually_of_rank
    (fun k => lap (moment course ref k).owner) hFalls (Nat.le_refl m₀)
  exact hFalse

/-- Where a `send` does not wait, its next step is possible. -/
private theorem left_enabled {maxPayload : UInt32} {outboxOpen : Bool} {state : StreamState}
    {owner : Owner} {rest : Bytes} (hLeft : owner.left = some rest) (hNot : ¬owner.Awaits) :
    owner.advance maxPayload outboxOpen state ≠ none := by
  cases owner with
  | writing bytes =>
      simp only [Owner.advance]
      split <;> exact Option.some_ne_none _
  | counting bytes remote => exact Option.some_ne_none _
  | sending bytes remote seen =>
      simp only [Owner.advance]
      split <;> exact Option.some_ne_none _
  | waiting purpose seen stage =>
      cases purpose with
      | opening service => cases hLeft
      | writing bytes => exact absurd trivial hNot
  | _ => cases hLeft

/-- A `send` returns. -/
private theorem send_returns (hLimit : 0 < limit.toNat) (hFair : course.Fair (.advance ref))
    (hAwaited : ∀ m, course.action m ≠ some (.cancel ref)) (hAcknowledged : Acknowledged course ref)
    {n : Nat} (hGoing : Going limit data earlier given (moment course ref n)) :
    ∃ m ≥ n, Done course ref data earlier given m := by
  have hNearer : ∀ n, Going limit data earlier given (moment course ref n) →
      ∃ m ≥ n, Done course ref data earlier given m ∨
        Going limit data earlier given (moment course ref m) ∧
          (moment course ref m).owner.distance < (moment course ref n).owner.distance := by
    intro n hGoing
    obtain ⟨-, -, -, rest, hLeft, -⟩ := id hGoing
    by_cases hWait : (moment course ref n).owner.Awaits
    · generalize hOwner : (moment course ref n).owner = owner at hWait
      unfold Owner.Awaits at hWait
      split at hWait
      · rw [← hOwner]
        exact wait_over hLimit hFair hAwaited hAcknowledged hGoing hOwner
      · exact hWait.elim
    · have hPending : (moment course ref n).owner ≠ .idle ∧ (moment course ref n).owner ≠ .unborn := by
        constructor <;> (intro hOwner; rw [hOwner] at hLeft; cases hLeft)
      obtain ⟨m, hLater, hSame, p, hMove, hNext⟩ := moves_on hFair hAwaited hPending.1 hPending.2
        fun _ _ _ => left_enabled hLeft hWait
      rw [← hSame m hLater (Nat.le_refl m)] at hGoing hMove hNext hWait ⊢
      refine ⟨m + 1, Nat.le_succ_of_le hLater, (going_next hLimit hGoing hMove hNext).imp_right ?_⟩
      refine And.imp_right fun hCase => hCase.resolve_right ?_
      rintro ⟨rest, seen, stage, next, hWaiting, -⟩
      rw [hWaiting] at hWait
      exact hWait trivial
  exact Transition.eventually_of_rank (fun n => (moment course ref n).owner.distance) hNearer hGoing

/-- The call of a `send` ends at once when there is nothing to send, or gets under way. -/
private theorem send_called {n : Nat} (hCall : course.action n = some (.call ref (.send data))) :
    Done course ref data (moment course ref n).posted (moment course ref n).returned (n + 1) ∨
      Going limit data (moment course ref n).posted (moment course ref n).returned
        (moment course ref (n + 1)) := by
  obtain ⟨events, hTaken, hTrace⟩ := course.next n _ hCall
  obtain ⟨-, p, hBegin, hState, rfl⟩ := step_call hTaken
  obtain ⟨hPosted, hReturned⟩ := events_account ref p (course.trace n)
  rw [← hTrace] at hPosted hReturned
  cases data with
  | nil =>
      cases hBegin
      exact Or.inl ⟨.sent, [], hReturned, hPosted.trans (List.append_nil _).symm, [], .start,
        Or.inl ⟨rfl, rfl⟩⟩
  | cons head tail =>
      cases hBegin
      refine Or.inr ⟨hReturned.trans (List.append_nil _), [], hPosted.trans (List.append_nil _).symm, ?_⟩
      rw [moment, hState, (perform_self _ ref _).2]
      exact ⟨_, rfl, by simp, .start⟩

end

end Session

/-- A peer that offers no limit gets the old one, so that there is always one. -/
theorem negotiate_positive {msg : Message} {negotiated : Negotiated}
    (h : negotiate msg = .ok negotiated) : 1 ≤ negotiated.maxPayload := by
  by_cases hOld : msg.arg0 < VERSION_MIN
  · simp [negotiate, hOld] at h
  · simp only [negotiate, hOld, ↓reduceIte, Except.ok.injEq] at h
    rw [← h]
    refine Std.le_min_iff.mpr ⟨?_, by decide⟩
    split
    · decide
    · rename_i hOffered
      exact UInt32.pos_iff_ne_zero.mpr hOffered

namespace Session

/-- `send` terminates and cuts exactly. The limit that a handshake agrees on is
positive and at most `MAX_PAYLOAD`. On a stream of a session with that limit, in
every course in which the writes of the stream are acknowledged, a `send` that is
not put off and not dropped returns. Each of its WRTEs is within the limit and not
empty, and together they are the beginning of the data. It returns `ok` unless the
stream or the writer has ended, and then there are as many WRTEs as the data needs
and they make up the data. -/
theorem send_exact {key : HostKey} {authWait now : Nat} {config : WireConfig}
    {incoming : List (Nat × Result Message)} {sendError : Nat → Option Error} {negotiated : Negotiated}
    {after : Transport}
    (hHandshake : handshake key authWait (Transport.fresh config now incoming sendError) =
      (some (.ok negotiated), after)) :
    (1 ≤ negotiated.maxPayload ∧ negotiated.maxPayload ≤ MAX_PAYLOAD) ∧
    ∀ (course : Transition.Course step (start negotiated.maxPayload)) (ref : Ref) (data : Bytes) (n : Nat),
      course.action n = some (.call ref (.send data)) → course.Fair (.advance ref) →
      (∀ m, course.action m ≠ some (.cancel ref)) → Acknowledged course ref →
      ∃ m > n, ∃ result writes,
        returns ref (course.trace m) = returns ref (course.trace n) ++ [result] ∧
        (ledger ref (course.trace m)).posted = (ledger ref (course.trace n)).posted ++ writes ∧
        (∀ msg ∈ writes, msg.command = .write ∧ msg.payload ≠ [] ∧
          msg.payload.length ≤ negotiated.maxPayload.toNat) ∧
        writes.flatMap Message.payload <+: data ∧
        (((course.state m).streams ref).closed = false → (course.state m).writer ≠ .ended →
          result = .sent) ∧
        (result = .sent → writes.length = data.length ⌈/⌉ negotiated.maxPayload.toNat ∧
          writes.flatMap Message.payload = data) := by
  have hSafe := (handshake_safe key authWait now config incoming sendError).1
  rw [hHandshake] at hSafe
  obtain ⟨-, banner, -, -, -, hNegotiate, -⟩ := hSafe.ok_on_banner negotiated rfl
  have hPositive := negotiate_positive hNegotiate
  refine ⟨⟨hPositive, negotiate_limit hNegotiate⟩, ?_⟩
  intro course ref data n hCall hFair hAwaited hAcknowledged
  have hLimit : 0 < negotiated.maxPayload.toNat := UInt32.le_iff_toNat_le.mp hPositive
  have hDone : ∃ m ≥ n + 1, Done course ref data (moment course ref n).posted
      (moment course ref n).returned m := by
    rcases send_called hCall with hNow | hGoing
    · exact ⟨n + 1, Nat.le_refl _, hNow⟩
    · exact send_returns hLimit hFair hAwaited hAcknowledged hGoing
  obtain ⟨m, hLater, result, writes, hReturned, hPosted, rest, hChunked, hEnd⟩ := hDone
  refine ⟨m, hLater, result, writes, hReturned, hPosted, hChunked.sized, ⟨rest, hChunked.joined⟩, ?_, ?_⟩
  · intro hOpen hWriter
    rcases hEnd with ⟨hSent, -⟩ | ⟨e, -, hClosed | hShut⟩
    · exact hSent
    · rw [hOpen] at hClosed
      cases hClosed
    · exact absurd (by simpa [outboxOpen] using hShut) hWriter
  · rintro rfl
    rcases hEnd with ⟨-, rfl⟩ | ⟨e, hFailed, -⟩
    · exact hChunked.done
    · cases hFailed

/-- A host that never needs its key. -/
private def unasked : HostKey := ⟨fun _ => .error .unauthorized, fun bytes => bytes, ⟨1, 1⟩, []⟩

private theorem tiny_handshake : ∃ negotiated after,
    handshake unasked 30 (Transport.fresh WireConfig.INITIAL 0 [(0, .ok ⟨.connect, VERSION, 4, []⟩)]
      fun _ => none) = (some (.ok negotiated), after) ∧ negotiated.maxPayload = 4 :=
  ⟨_, _, rfl, rfl⟩

/-- Write one chunk, from the call or the last acknowledgement to the next one. -/
private def acknowledgedChunk : List Action :=
  [.advance 0, .advance 0, .advance 0, .hand, .handed, .arrive (.empty .okay 5 1), .advance 0]

/-- Open a stream and send ten bytes on it, four at a time. -/
private def tenBytes : List Action :=
  [.openStream (ascii "exec:cat"), .advance 0, .advance 0, .hand, .handed, .arrive (.empty .okay 5 1),
    .advance 0, .advance 0, .call 0 (.send (ascii "0123456789"))] ++
    acknowledgedChunk ++ acknowledgedChunk ++ acknowledgedChunk

private theorem tenBytes_executes :
    (Transition.execute step (fun _ _ _ => True) [] (start 4) tenBytes).isSome := by
  decide

/-- Ten bytes go out in three chunks. -/
theorem send_exact_ten_bytes : ∃ (negotiated : Negotiated)
    (course : Transition.Course step (start negotiated.maxPayload)) (m : Nat) (writes : List Message),
    negotiated.maxPayload = 4 ∧ returns 0 (course.trace m) = [.opened, .sent] ∧
    (ledger 0 (course.trace m)).posted = ⟨.open, 1, 0, ascii "exec:cat" ++ [0]⟩ :: writes ∧
    writes.length = 3 ∧ writes.flatMap Message.payload = ascii "0123456789" := by
  obtain ⟨negotiated, after, hHandshake, hLimit⟩ := tiny_handshake
  obtain ⟨-, hExact⟩ := send_exact hHandshake
  rw [hLimit] at hExact
  have hDuring : ∀ n ≤ tenBytes.length, let s := (Transition.replayed step (start 4) tenBytes n).2
      (s.streams 0).closed = false ∧ s.writer ≠ .ended := by
    decide
  have hEnd : (Transition.replayed step (start 4) tenBytes tenBytes.length).2.owners 0 = .idle := by decide
  let course := Transition.Course.replay step (start 4) tenBytes tenBytes_executes
  have hOpen : ∀ n, ((course.state n).streams 0).closed = false ∧ (course.state n).writer ≠ .ended :=
    fun n => Transition.Course.replay_all (P := fun s : Session => (s.streams 0).closed = false ∧
      s.writer ≠ .ended) hDuring n
  have hFair : course.Fair (.advance 0) := Transition.Course.replay_fair (by simp [step, hEnd, Owner.advance])
  have hAwaited : ∀ m, course.action m ≠ some (.cancel 0) := fun m hCancel =>
    absurd (List.mem_of_getElem? hCancel) (by decide)
  have hAcknowledged : Acknowledged course 0 := by
    intro n rest seen stage hOwner
    refine ⟨max n tenBytes.length, Nat.le_max_left _ _, fun k hLater hWaits => ?_⟩
    obtain ⟨stage, hStill⟩ := hWaits k (Nat.le_trans (Nat.le_max_left _ _) hLater) (Nat.le_refl k)
    rw [Transition.Course.replay_end (Nat.le_trans (Nat.le_max_right _ _) hLater), hEnd] at hStill
    cases hStill
  obtain ⟨m, -, result, writes, hReturned, hPosted, -, -, hSent, hWhole⟩ :=
    hExact course 0 (ascii "0123456789") 8 (by decide) hFair hAwaited hAcknowledged
  obtain rfl := hSent (hOpen m).1 (hOpen m).2
  obtain ⟨hLength, hJoined⟩ := hWhole rfl
  have hBefore : returns 0 (course.trace 8) = [.opened] ∧ (ledger 0 (course.trace 8)).posted =
      [⟨.open, 1, 0, ascii "exec:cat" ++ [0]⟩] := by
    decide
  rw [hBefore.1] at hReturned
  rw [hBefore.2] at hPosted
  have hThree : writes.length = 3 := hLength
  refine ⟨negotiated, ?_⟩
  rw [hLimit]
  exact ⟨course, m, writes, rfl, hReturned, hPosted, hThree, hJoined⟩

end Session
end Rsadb
