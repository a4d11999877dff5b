import Rsadb.Session.Conversation
import Rsadb.Library.Trace

/-! Flow control in both directions. A stream has at most one message that waits
for an acknowledgement, and owes at most one itself. -/
namespace Rsadb

/-- The owner is about to read the count of acknowledgements. -/
def Owner.Counts : Owner → Prop
  | .counting _ _ => True
  | _ => False

instance (owner : Owner) : Decidable owner.Counts := by
  rcases owner <;> first | exact isTrue trivial | exact isFalse not_false

/-- How many payloads the pending `recv` has taken and not acknowledged. -/
def Owner.owes : Owner → Nat
  | .took _ => 1
  | .acking _ _ => 1
  | _ => 0

/-- The count that the owner remembers, where it remembers one: all that was
acknowledged before its last message. -/
def Paced (asks okays : Nat) : Owner → Prop
  | .unborn | .inserting _ | .posting _ => asks = 0
  | .waiting _ seen _ => 0 < asks ∧ seen = UInt64.ofNat (asks - 1)
  | .sending _ _ seen => asks ≤ okays ∧ seen = UInt64.ofNat okays
  | _ => True

/-- At most one message of the owner waits for its acknowledgement. -/
structure Regulated (l : Ledger) (state : StreamState) (owner : Owner) : Prop where
  counted : state.acks = UInt64.ofNat l.okays
  answered : l.okays ≤ l.asks
  limited : l.asks ≤ l.okays + 1
  paced : Paced l.asks l.okays owner
  rested : owner = .idle → l.callWrites = 0

/-- Between two calls everything is acknowledged, or the stream is closed. -/
def Settled (l : Ledger) (state : StreamState) : Owner → Prop
  | .idle | .took _ | .acking _ _ | .writing _ => state.closed = true ∨ l.asks ≤ l.okays
  | .judging _ | .counting _ _ => l.asks ≤ l.okays
  | .removing _ _ | .farewell _ _ => state.closed = true
  | _ => True

/-- What an open stream is about to write follows only what is acknowledged. -/
def Poised (l : Ledger) (state : StreamState) : Owner → Prop
  | .writing _ => state.closed = true ∨ l.asks ≤ l.okays
  | .counting _ _ => l.asks ≤ l.okays
  | _ => True

/-- The owner acknowledges what it took, and took what had arrived. -/
structure Consumed (l : Ledger) (state : StreamState) (owner : Owner) : Prop where
  owed : l.acknowledgements + owner.owes ≤ l.taken
  queued : l.taken + state.queue.length ≤ l.arrivals

/-- How many messages a step posts that ask for an acknowledgement. -/
def Effect.asks : Effect → Nat
  | .post msg => if Ledger.Asks msg then 1 else 0
  | _ => 0

/-- How many acknowledgements a step posts. -/
def Effect.acknowledgements : Effect → Nat
  | .post msg => if msg.command = .okay then 1 else 0
  | _ => 0

theorem Ledger.enter_asks (l : Ledger) (p : OwnerStep) :
    (l.enter p).asks = l.asks + p.effect.asks := by
  rw [asks, enter_posted]
  cases p.effect with
  | post msg => exact post_asks l msg
  | _ => rfl

theorem Ledger.enter_acknowledgements (l : Ledger) (p : OwnerStep) :
    (l.enter p).acknowledgements = l.acknowledgements + p.effect.acknowledgements := by
  rw [acknowledgements, enter_posted]
  cases p.effect with
  | post msg => exact post_acknowledgements l msg
  | _ => rfl

/-- The count has moved on: the last message is acknowledged. -/
theorem Regulated.caught_up {l : Ledger} {state : StreamState} {purpose : Purpose} {seen : UInt64}
    {stage : WaitStep} (h : Regulated l state (.waiting purpose seen stage)) (hAcks : state.acks > seen) :
    l.asks ≤ l.okays := by
  by_contra hBehind
  obtain ⟨hAsked, hSeen⟩ := h.paced
  have hOkays : l.okays = l.asks - 1 := by
    have hLimited := h.limited
    omega
  rw [h.counted, hSeen, hOkays] at hAcks
  exact UInt64.lt_irrefl _ hAcks

namespace Move

variable {maxPayload : UInt32} {outboxOpen : Bool} {state : StreamState} {owner : Owner}
  {p : OwnerStep} {l : Ledger}

/-- A call that is over leaves no count of its writes behind. -/
theorem rested (h : Move maxPayload outboxOpen state owner p) (hIdle : p.owner = .idle) :
    (l.enter p).callWrites = 0 := by
  cases h <;> first | rfl | cases hIdle

/-- A move keeps flow control, if it reads the count only when everything is acknowledged. -/
theorem regulated (h : Move maxPayload outboxOpen state owner p) (hRegulated : Regulated l state owner)
    (hCounts : owner.Counts → l.asks ≤ l.okays) : Regulated (l.enter p) p.state p.owner := by
  have hCounted := h.acks.trans hRegulated.counted
  obtain ⟨-, hAnswered, hLimited, hPaced, -⟩ := id hRegulated
  suffices hLast : l.asks + p.effect.asks ≤ l.okays + 1 ∧
      Paced (l.asks + p.effect.asks) l.okays p.owner by
    rw [← Ledger.enter_asks] at hLast
    rw [← (l.enter_frame p).1] at hCounted hLast hAnswered
    exact ⟨hCounted, Nat.le_trans hAnswered (by rw [Ledger.enter_asks]; omega), hLast.1, hLast.2,
      h.rested⟩
  cases h with
  | requested hOpen =>
      have hNone : l.asks = 0 := hPaced
      refine ⟨?_, ?_, ?_⟩
      · simp only [Effect.asks, Ledger.Asks, true_or, ↓reduceIte]
        omega
      · simp [Effect.asks, Ledger.Asks]
      · simp [Effect.asks, Ledger.Asks, hNone]
  | counted =>
      have hSettled := hCounts trivial
      exact ⟨hLimited, hSettled, hRegulated.counted⟩
  | wrote hOpen =>
      obtain ⟨hSettled, hSeen⟩ := hPaced
      have hAll : l.okays = l.asks := Nat.le_antisymm hAnswered hSettled
      refine ⟨?_, ?_, ?_⟩
      · simp only [Effect.asks, Ledger.Asks, or_true, ↓reduceIte]
        omega
      · simp [Effect.asks, Ledger.Asks]
      · simp [Effect.asks, Ledger.Asks, hSeen, hAll]
  | acknowledged hOpen => exact ⟨by simpa [Effect.asks, Ledger.Asks, Message.empty] using hLimited, trivial⟩
  | parted | left =>
      refine ⟨?_, trivial⟩
      cases outboxOpen <;> simpa [Effect.asks, Ledger.Asks, Message.empty, Owner.leave] using hLimited
  | inserted | unanswered | parked | woken => exact ⟨hLimited, hPaced⟩
  | _ => exact ⟨hLimited, trivial⟩

/-- A move leaves everything settled, unless it is a dropped call. -/
theorem settled (h : Move maxPayload outboxOpen state owner p) (hRegulated : Regulated l state owner)
    (hSettled : Settled l state owner) : Settled (l.enter p) p.state p.owner := by
  have hPaced := hRegulated.paced
  have hOkays := (l.enter_frame p).1
  have hAsks := l.enter_asks p
  cases h with
  | answered hAcks => exact hRegulated.caught_up hAcks
  | completed hAcks | continued hAcks => exact Or.inr (hRegulated.caught_up hAcks)
  | interrupted hClosed | closedAlready hClosed => exact Or.inl hClosed
  | opened hRemote => exact Or.inr hSettled
  | acknowledging | unacknowledging | unheard | shutOut | received | exhausted | sentNothing
  | sendBegun | removed => exact hSettled
  | acknowledged hOpen =>
      refine hSettled.imp_right fun hAll => ?_
      rw [hAsks, hOkays]
      simpa [Effect.asks, Ledger.Asks, Message.empty] using hAll
  | addressed hClosed =>
      refine hSettled.resolve_left fun hShut => ?_
      rw [hClosed] at hShut
      cases hShut
  | unwritten hOpen => exact Or.inr hPaced.1
  | parted => exact Or.inl hSettled
  | closing => rfl
  | _ => trivial

/-- A move leaves the owner poised, if what a call begins to write may be written. -/
theorem poised (h : Move maxPayload outboxOpen state owner p) (hRegulated : Regulated l state owner)
    (hPoised : Poised l state owner) (hBegun : ∀ data, owner = .idle → p.owner = .writing data →
      data ≠ [] → state.closed = true ∨ l.asks ≤ l.okays) : Poised (l.enter p) p.state p.owner := by
  cases h with
  | continued hAcks => exact Or.inr (hRegulated.caught_up hAcks)
  | addressed hClosed =>
      refine hPoised.resolve_left fun hShut => ?_
      rw [hClosed] at hShut
      cases hShut
  | sendBegun hData => exact hBegun _ rfl rfl hData
  | _ => trivial

/-- A move acknowledges at most what was taken, and takes at most what arrived. -/
theorem consumed (h : Move maxPayload outboxOpen state owner p) (hConsumed : Consumed l state owner) :
    Consumed (l.enter p) p.state p.owner := by
  obtain ⟨hOwed, hQueued⟩ := hConsumed
  have hAcknowledgements := l.enter_acknowledgements p
  have hArrivals := (l.enter_frame p).2.1
  cases h with
  | @received _ rest hQueue =>
      rw [hQueue, List.length_cons] at hQueued
      refine ⟨Nat.succ_le_succ hOwed, ?_⟩
      change l.taken + 1 + rest.length ≤ l.arrivals
      omega
  | acknowledged hOpen =>
      refine ⟨?_, hQueued⟩
      rw [hAcknowledgements]
      exact hOwed
  | acknowledging => exact ⟨hOwed, hQueued⟩
  | unacknowledging | unheard => exact ⟨Nat.le_of_succ_le hOwed, hQueued⟩
  | requested | wrote =>
      refine ⟨?_, hQueued⟩
      rw [hAcknowledgements]
      exact hOwed
  | parted | left =>
      refine ⟨?_, ?_⟩
      · rw [hAcknowledgements]
        cases outboxOpen <;> exact hOwed
      · cases outboxOpen <;> exact hQueued
  | _ => exact ⟨hOwed, hQueued⟩

end Move

namespace Session.AccountStep

variable {s : Session} {ref : Ref} {action : Action} {l l' : Ledger} {state : StreamState}
  {owner : Owner}

/-- A step keeps flow control if the device acknowledges only what it was asked
to, and the owner reads the count only when everything is acknowledged. -/
theorem regulated (h : AccountStep s ref action l l' state owner)
    (hRegulated : Regulated l (s.streams ref) (s.owners ref))
    (hAnswers : ∀ msg, action = .arrive msg → s.get msg.arg1 = some ref → msg.command = .okay →
      l.okays < l.asks)
    (hCounts : action = .advance ref → (s.owners ref).Counts → l.asks ≤ l.okays) :
    Regulated l' state owner := by
  obtain ⟨hCounted, hAnswered, hLimited, hPaced, hRested⟩ := id hRegulated
  cases h with
  | same | delivered | refused | ended | marked | handed =>
      exact ⟨hCounted, hAnswered, hLimited, hPaced, hRested⟩
  | born hUnborn =>
      have hNone : l.asks = 0 := by
        rw [hUnborn] at hPaced
        exact hPaced
      have hZero : l.okays = 0 := by omega
      refine ⟨?_, hAnswered, hLimited, hNone, by simp⟩
      rw [hZero]
      rfl
  | moved hMove hWriter hAction =>
      refine hMove.regulated hRegulated fun hCounting => ?_
      rcases hAction with hAdvance | ⟨hIdle, -⟩
      · exact hCounts hAdvance hCounting
      · rw [hIdle] at hCounting
        exact hCounting.elim
  | cancelled hCancel =>
      obtain ⟨purpose, seen, -, rfl | rfl⟩ := Owner.cancel_cases hCancel
      · exact ⟨hCounted, hAnswered, hLimited, trivial, fun _ => rfl⟩
      · exact ⟨hCounted, hAnswered, hLimited, trivial, fun _ => rfl⟩
  | acked hCommand hAction hTarget =>
      have hAsked := hAnswers _ hAction hTarget hCommand
      refine ⟨?_, hAsked, Nat.le_succ_of_le hLimited, ?_, hRested⟩
      · change (s.streams ref).acks + 1 = UInt64.ofNat (l.okays + 1)
        rw [hCounted, UInt64.ofNat_add]
        rfl
      · cases hOwner : s.owners ref with
        | sending rest remote seen =>
            rw [hOwner] at hPaced
            exact absurd hPaced.1 (Nat.not_le.mpr hAsked)
        | _ =>
            rw [hOwner] at hPaced
            exact hPaced

/-- A step leaves everything settled, unless it drops a call. -/
theorem settled (h : AccountStep s ref action l l' state owner)
    (hRegulated : Regulated l (s.streams ref) (s.owners ref))
    (hSettled : Settled l (s.streams ref) (s.owners ref)) (hKept : action ≠ .cancel ref) :
    Settled l' state owner := by
  -- What is settled stays so when acknowledgements come and the flag is set.
  have hMore : ∀ {l' : Ledger} {state : StreamState}, l'.asks = l.asks → l.okays ≤ l'.okays →
      ((s.streams ref).closed = true → state.closed = true) → Settled l' state (s.owners ref) := by
    intro l' state hAsks hOkays hClosed
    cases hOwner : s.owners ref with
    | idle | took | acking | writing =>
        rw [hOwner] at hSettled
        exact hSettled.imp hClosed fun hAll => by rw [hAsks]; exact Nat.le_trans hAll hOkays
    | judging | counting =>
        rw [hOwner] at hSettled
        change l'.asks ≤ l'.okays
        rw [hAsks]
        exact Nat.le_trans hSettled hOkays
    | removing | farewell =>
        rw [hOwner] at hSettled
        exact hClosed hSettled
    | _ => trivial
  cases h with
  | same => exact hSettled
  | born => trivial
  | moved hMove => exact hMove.settled hRegulated hSettled
  | cancelled hCancel hAction => exact absurd hAction hKept
  | acked => exact hMore rfl (Nat.le_succ _) id
  | delivered | refused | handed => exact hMore rfl (Nat.le_refl _) id
  | ended | marked => exact hMore rfl (Nat.le_refl _) fun _ => rfl

/-- A step leaves the owner poised, even one that drops a call, if a `send` begins
only where all is acknowledged or the stream is closed. -/
theorem poised (h : AccountStep s ref action l l' state owner)
    (hRegulated : Regulated l (s.streams ref) (s.owners ref))
    (hPoised : Poised l (s.streams ref) (s.owners ref))
    (hBegins : ∀ data, action = .call ref (.send data) → data ≠ [] →
      (s.streams ref).closed = true ∨ l.asks ≤ l.okays) : Poised l' state owner := by
  -- Who is poised stays so when acknowledgements come and the flag is set.
  have hMore : ∀ {l' : Ledger} {state : StreamState}, l'.asks = l.asks → l.okays ≤ l'.okays →
      ((s.streams ref).closed = true → state.closed = true) → Poised l' state (s.owners ref) := by
    intro l' state hAsks hOkays hClosed
    cases hOwner : s.owners ref with
    | writing =>
        rw [hOwner] at hPoised
        exact hPoised.imp hClosed fun hAll => by rw [hAsks]; exact Nat.le_trans hAll hOkays
    | counting =>
        rw [hOwner] at hPoised
        change l'.asks ≤ l'.okays
        rw [hAsks]
        exact Nat.le_trans hPoised hOkays
    | _ => trivial
  cases h with
  | same => exact hPoised
  | born => trivial
  | moved hMove hWriter hAction hBegun =>
      exact hMove.poised hRegulated hPoised fun data hIdle hWriting =>
        hBegins data (hBegun data hIdle hWriting)
  | cancelled hCancel =>
      obtain ⟨purpose, seen, -, rfl | rfl⟩ := Owner.cancel_cases hCancel
      · trivial
      · trivial
  | acked => exact hMore rfl (Nat.le_succ _) id
  | delivered | refused | handed => exact hMore rfl (Nat.le_refl _) id
  | ended | marked => exact hMore rfl (Nat.le_refl _) fun _ => rfl

/-- Every step keeps the account of what the owner takes. -/
theorem consumed (h : AccountStep s ref action l l' state owner)
    (hConsumed : Consumed l (s.streams ref) (s.owners ref)) : Consumed l' state owner := by
  obtain ⟨hOwed, hQueued⟩ := id hConsumed
  cases h with
  | same | acked | ended | marked | handed => exact ⟨hOwed, hQueued⟩
  | born hUnborn =>
      rw [hUnborn] at hOwed
      exact ⟨hOwed, Nat.le_trans (Nat.le_add_right _ _) hQueued⟩
  | moved hMove => exact hMove.consumed hConsumed
  | cancelled hCancel =>
      obtain ⟨purpose, seen, hOwner, rfl | rfl⟩ := Owner.cancel_cases hCancel <;>
        (rw [hOwner] at hOwed; exact ⟨hOwed, hQueued⟩)
  | delivered =>
      refine ⟨hOwed, ?_⟩
      rw [List.length_append, ← Nat.add_assoc]
      exact Nat.succ_le_succ hQueued
  | refused => exact ⟨hOwed, Nat.le_succ_of_le hQueued⟩

end Session.AccountStep

namespace Session

variable {allowed : List Event → Session → Action → Prop} {maxPayload : UInt32}

/-- The start of every account. -/
theorem regulated_start : Regulated .empty (.fresh 0) .unborn :=
  ⟨rfl, Nat.le_refl _, Nat.zero_le _, rfl, by simp⟩

/-- In every run the owners acknowledge at most what they took, and take at most what arrived. -/
theorem consumed_of_runs {trace : List Event} {s : Session}
    (hRun : Transition.Runs step allowed (start maxPayload) trace s) (ref : Ref) :
    Consumed (ledger ref trace) (s.streams ref) (s.owners ref) :=
  account_invariant ref ⟨Nat.le_refl _, Nat.le_refl _⟩ (fun _ _ hStep => hStep.consumed) hRun

/-- Where the device acknowledges what reached it, each message at most once, and
the calls of a stream are not dropped, flow control holds on it and everything is
settled between its calls. -/
theorem settled_of_answers {ref : Ref}
    (hAnswers : ∀ trace s msg, allowed trace s (.arrive msg) → s.get msg.arg1 = some ref →
      msg.command = .okay → (ledger ref trace).okays < (ledger ref trace).asked)
    (hAwaited : ∀ trace s, ¬allowed trace s (.cancel ref)) {trace : List Event} {s : Session}
    (hRun : Transition.Runs step allowed (start maxPayload) trace s) :
    Regulated (ledger ref trace) (s.streams ref) (s.owners ref) ∧
      Settled (ledger ref trace) (s.streams ref) (s.owners ref) := by
  refine @account_invariant _ _ (fun l state owner => Regulated l state owner ∧ Settled l state owner)
    ref ⟨regulated_start, trivial⟩ ?_ _ _ hRun
  rintro trace s action l state owner hRun hAllowed hStep ⟨hRegulated, hSettled⟩
  refine ⟨hStep.regulated hRegulated ?_ ?_, hStep.settled hRegulated hSettled ?_⟩
  · rintro msg rfl hTarget hCommand
    exact Nat.lt_of_lt_of_le (hAnswers _ _ _ hAllowed hTarget hCommand) (handed_counts hRun ref).1
  · intro hAction hCounting
    cases hOwner : s.owners ref with
    | counting rest remote =>
        rw [hOwner] at hSettled
        exact hSettled
    | _ =>
        rw [hOwner] at hCounting
        exact hCounting.elim
  · rintro rfl
    exact hAwaited _ _ hAllowed

/-- A `send` returns `ok` when its last write is acknowledged, or when it wrote nothing. -/
theorem Move.sent {maxPayload : UInt32} {outboxOpen : Bool} {state : StreamState} {owner : Owner}
    {p : OwnerStep} (h : Move maxPayload outboxOpen state owner p)
    (hSent : .returned .sent ∈ p.reports) {l : Ledger} (hRegulated : Regulated l state owner) :
    p.effect = .nothing ∧ p.reports = [.returned .sent] ∧ (l.callWrites = 0 ∨ l.outstanding = 0) := by
  cases h with
  | completed hAcks =>
      exact ⟨rfl, rfl, Or.inr (Nat.sub_eq_zero_of_le (hRegulated.caught_up hAcks))⟩
  | sentNothing => exact ⟨rfl, rfl, Or.inl (hRegulated.rested rfl)⟩
  | _ => simp [Owner.leave] at hSent

/-- Wherever flow control holds, a `send` that returns `ok` has had its writes acknowledged. -/
theorem sent_acknowledged {ref : Ref}
    (hRegulated : ∀ {trace s}, Transition.Runs step allowed (start maxPayload) trace s →
      Regulated (ledger ref trace) (s.streams ref) (s.owners ref))
    {trace : List Event} {s : Session} (hRun : Transition.Runs step allowed (start maxPayload) trace s) :
    ∀ before entry after, trace = before ++ entry :: after → entry = .owner ref (.returned .sent) →
      (ledger ref before).callWrites = 0 ∨ (ledger ref before).outstanding = 0 := by
  refine hRun.law ?_
  rintro trace s action s' events hRun - hTaken before entry after hSplit rfl
  have hMember : .owner ref (.returned .sent) ∈ events := by simp [hSplit]
  obtain ⟨outboxOpen, p, hMove, rfl, -, -, hReport⟩ :=
    step_reported (named_of_runs hRun).1 hTaken hMember
  obtain ⟨hEffect, hReports, hDone⟩ := Move.sent hMove hReport (hRegulated hRun)
  rw [Session.events, hEffect, hReports] at hSplit
  obtain ⟨rfl, -⟩ := Trace.split_singleton hSplit
  rw [List.append_nil]
  exact hDone

end Session
end Rsadb
