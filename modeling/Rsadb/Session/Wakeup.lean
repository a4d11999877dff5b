import Rsadb.Session.Stream
import Rsadb.Library.Transition
import Mathlib.Logic.Function.Basic

/-! Waiting for an acknowledgement, update by update. The owner of a stream
takes the single steps of `wait_ack`; between any two of them other tasks make
the single updates of `ack` and `mark_closed`. -/
namespace Rsadb

/-- One update of a stream state that other tasks can observe by itself. -/
inductive Update where
  | adopt (remoteId : UInt32)
  | count
  | shut
  | release
  | notifyOne
  deriving DecidableEq, Repr

def Update.apply (state : StreamState) : Update → StreamState
  | .adopt remoteId => state.adopt remoteId
  | .count => state.count
  | .shut => state.shut
  | .release => state.release
  | .notifyOne => state.notifyOne

/-- The updates of `ack`, in the order in which it makes them. -/
def ackUpdates (remoteId : UInt32) : List Update := [.adopt remoteId, .count, .notifyOne]

/-- The updates of `mark_closed`. -/
def markClosedUpdates : List Update := [.shut, .release, .notifyOne]

/-- Undisturbed, the updates are what the session does in one step. -/
theorem ack_eq_updates (state : StreamState) (remoteId : UInt32) :
    (ackUpdates remoteId).foldl Update.apply state = state.ack remoteId := rfl

theorem markClosed_eq_updates (state : StreamState) :
    markClosedUpdates.foldl Update.apply state = state.markClosed := rfl

/-- One stream, its owner, and what the calls of other tasks have still to do. -/
structure Rendezvous where
  state : StreamState
  owner : Owner
  calls : Nat → List Update

namespace Rendezvous

/-- The steps of the owner and of the other tasks. -/
inductive Action where
  | send (data : Bytes)
  | advance (outboxOpen : Bool)
  | ack (task : Nat) (remoteId : UInt32)
  | markClosed (task : Nat)
  | update (task : Nat)
  deriving DecidableEq, Repr

/-- The post of a message that awaits an acknowledgement, the count of an
acknowledgement and whether it came after the close, and the result of `wait_ack`. -/
inductive Event where
  | posted
  | counted (late : Bool)
  | waited (acknowledged : Bool)
  deriving DecidableEq, Repr

/-- What a step of the owner means for its waiting. -/
def observe : Owner → Owner → List Event
  | .waiting _ _ _, .waiting _ _ _ => []
  | .waiting _ _ .acks, _ => [.waited true]
  | .waiting _ _ .closed, _ => [.waited false]
  | _, .waiting _ _ _ => [.posted]
  | _, _ => []

def moved (s : Rendezvous) (p : OwnerStep) : Rendezvous × List Event :=
  ({ s with state := p.state, owner := p.owner }, observe s.owner p.owner)

/-- A task that has nothing left to do begins a call. -/
def calling (s : Rendezvous) (task : Nat) (updates : List Update) : Option (Rendezvous × List Event) :=
  if s.calls task = [] then some ({ s with calls := Function.update s.calls task updates }, []) else none

def step (maxPayload : UInt32) (s : Rendezvous) : Action → Option (Rendezvous × List Event)
  | .send data => if s.owner = .idle then (Owner.begin s.state (.send data)).map s.moved else none
  | .advance outboxOpen => (s.owner.advance maxPayload outboxOpen s.state).map s.moved
  | .ack task remoteId => s.calling task (ackUpdates remoteId)
  | .markClosed task => s.calling task markClosedUpdates
  | .update task =>
      match s.calls task with
      | [] => none
      | update :: rest =>
          some ({ s with state := update.apply s.state, calls := Function.update s.calls task rest },
            if update = .count then [.counted s.state.closed] else [])

/-- Nobody has begun anything, except that the owner may be about to wait. -/
structure Fresh (s : Rendezvous) : Prop where
  calls : ∀ task, s.calls task = []
  owner : s.owner = .idle ∨ ∃ purpose seen, s.owner = .waiting purpose seen .acks

/-- The call has changed the state and has yet to notify the owner. -/
def Due (updates : List Update) : Prop := updates = [.notifyOne] ∨ updates = [.release, .notifyOne]

instance (updates : List Update) : Decidable (Due updates) := inferInstanceAs (Decidable (_ ∨ _))

/-- Whether the message posted last has been acknowledged before the stream was closed. -/
def answer : List Event → Option Bool :=
  List.foldl (fun done event => match done, event with
    | _, .posted => some false
    | some done, .counted late => some (done || !late)
    | done, _ => done) none

/-- No lost wakeup, and written-then-closed, in one state. -/
structure Sound (maxPayload : UInt32) (trace : List Event) (s : Rendezvous) : Prop where
  parked : ∀ purpose seen, s.owner = .waiting purpose seen .parked → s.state.wake = false →
    (∀ task, ¬Due (s.calls task)) → s.state.acks ≤ seen ∧ s.state.closed = false
  returned : ∀ purpose seen stage outboxOpen s' events, s.owner = .waiting purpose seen stage →
    s.step maxPayload (.advance outboxOpen) = some (s', events) →
    (.waited true ∈ events → s.state.acks > seen) ∧ (.waited false ∈ events → s.state.closed = true)
  written : ∀ rest seen stage, s.owner = .waiting (.writing rest) seen stage → answer trace = some true →
    (∀ outboxOpen s' events, s.step maxPayload (.advance outboxOpen) = some (s', events) →
      .waited false ∉ events) ∧
    ((∀ task, ¬Due (s.calls task)) → ∃ steps s' events, steps ≤ 3 ∧
      Transition.execute (step maxPayload) (fun _ _ _ => True) [] s
        (List.replicate steps (.advance true)) = some (events, s') ∧ .waited true ∈ events)

/-- The stream is not closed while its owner stands between the two checks of
`wait_ack` with the acknowledgement already counted, and the count does not wrap. -/
def unraced (s : Rendezvous) : Action → Bool
  | .update task =>
      match s.calls task, s.owner with
      | .shut :: _, .waiting _ seen .closed => s.state.acks ≤ seen
      | .count :: _, _ => s.state.acks.toNat + 1 < 2 ^ 64
      | _, _ => true
  | _ => true

/-- What a step of the owner does to its waiting. -/
inductive WaitMove (state : StreamState) (owner : Owner) (p : OwnerStep) : Prop
  | opened {service : Bytes} {msg : Message} (hOwner : owner = .posting service)
      (hStep : p = ⟨state, .waiting (.opening service) 0 .acks, .post msg, []⟩)
  | posted {rest left : Bytes} {remote : UInt32} {seen : UInt64} {msg : Message}
      (hOwner : owner = .sending rest remote seen)
      (hStep : p = ⟨state, .waiting (.writing left) seen .acks, .post msg, []⟩)
  | behind {purpose : Purpose} {seen : UInt64} (hOwner : owner = .waiting purpose seen .acks)
      (hAcks : state.acks ≤ seen) (hStep : p = ⟨state, .waiting purpose seen .closed, .nothing, []⟩)
  | unclosed {purpose : Purpose} {seen : UInt64} (hOwner : owner = .waiting purpose seen .closed)
      (hOpen : state.closed = false) (hStep : p = ⟨state, .waiting purpose seen .parked, .nothing, []⟩)
  | woken {purpose : Purpose} {seen : UInt64} (hOwner : owner = .waiting purpose seen .parked)
      (hStep : p = ⟨{ state with wake := false }, .waiting purpose seen .acks, .nothing, []⟩)
  | acknowledged {purpose : Purpose} {seen : UInt64} (hOwner : owner = .waiting purpose seen .acks)
      (hAcks : seen < state.acks) (hStep : p = Owner.acknowledged state purpose)
  | unacknowledged {purpose : Purpose} {seen : UInt64} (hOwner : owner = .waiting purpose seen .closed)
      (hClosed : state.closed = true) (hStep : p = Owner.unacknowledged state purpose)
  | counted {rest : Bytes} {remote : UInt32} (hOwner : owner = .counting rest remote)
      (hStep : p = ⟨state, .sending rest remote state.acks, .nothing, []⟩)
  | other (hOwner : ∀ purpose seen stage, owner ≠ .waiting purpose seen stage)
      (hNext : ∀ purpose seen stage, p.owner ≠ .waiting purpose seen stage)
      (hSending : ∀ rest remote seen, p.owner ≠ .sending rest remote seen)

theorem advance_wait {maxPayload : UInt32} {outboxOpen : Bool} {state : StreamState} {owner : Owner}
    {p : OwnerStep} (h : owner.advance maxPayload outboxOpen state = some p) :
    WaitMove state owner p := by
  cases owner with
  | unborn | idle | gone => cases h
  | waiting purpose seen stage =>
      cases stage <;> simp only [Owner.advance] at h <;> split at h <;> cases h
      · rename_i hAcks
        exact .acknowledged rfl hAcks rfl
      · rename_i hAcks
        exact .behind rfl (UInt64.not_lt.mp hAcks) rfl
      · rename_i hClosed
        exact .unacknowledged rfl hClosed rfl
      · rename_i hOpen
        exact .unclosed rfl (eq_false_of_ne_true hOpen) rfl
      · exact .woken rfl rfl
  | posting service =>
      simp only [Owner.advance] at h
      split at h <;> cases h
      · exact .opened rfl rfl
      · exact .other (by simp) (by simp [Owner.leave]) (by simp [Owner.leave])
  | sending rest remote seen =>
      simp only [Owner.advance] at h
      split at h <;> cases h
      · exact .posted rfl rfl
      · exact .other (by simp) (by simp) (by simp)
  | counting rest remote =>
      cases h
      exact .counted rfl rfl
  | inserting service | refusing service | removing remote final =>
      cases h
      exact .other (by simp) (by simp [Owner.leave]) (by simp [Owner.leave])
  | farewell remote final =>
      cases final <;> cases h <;>
        exact .other (by simp) (by simp [Owner.leave]) (by simp [Owner.leave])
  | _ =>
      simp only [Owner.advance] at h
      split at h <;> cases h <;> exact .other (by simp) (by simp) (by simp)

/-- Where `wait_ack` has returned, nobody waits. -/
private theorem returned_idle (state : StreamState) (purpose : Purpose) :
    (∀ purpose' seen stage, (Owner.acknowledged state purpose).owner ≠ .waiting purpose' seen stage) ∧
    (∀ purpose' seen stage, (Owner.unacknowledged state purpose).owner ≠ .waiting purpose' seen stage) ∧
    (∀ rest remote seen, (Owner.acknowledged state purpose).owner ≠ .sending rest remote seen) ∧
    ∀ rest remote seen, (Owner.unacknowledged state purpose).owner ≠ .sending rest remote seen := by
  rcases purpose with service | ⟨_ | ⟨head, rest⟩⟩ <;>
    simp [Owner.acknowledged, Owner.unacknowledged]

private theorem begin_send {state : StreamState} {data : Bytes} {p : OwnerStep}
    (h : Owner.begin state (.send data) = some p) : WaitMove state .idle p := by
  cases data <;> cases h <;> exact .other (by simp) (by simp) (by simp)

private theorem observe_acknowledged {next : Owner} {purpose : Purpose} {seen : UInt64}
    (hNext : ∀ purpose seen stage, next ≠ .waiting purpose seen stage) :
    observe (.waiting purpose seen .acks) next = [.waited true] := by
  unfold observe
  split <;> simp_all

private theorem observe_unacknowledged {next : Owner} {purpose : Purpose} {seen : UInt64}
    (hNext : ∀ purpose seen stage, next ≠ .waiting purpose seen stage) :
    observe (.waiting purpose seen .closed) next = [.waited false] := by
  unfold observe
  split <;> simp_all

/-- What a call in progress has still to do. -/
inductive Underway : List Update → Prop
  | done : Underway []
  | acking (remoteId : UInt32) : Underway [.adopt remoteId, .count, .notifyOne]
  | counting : Underway [.count, .notifyOne]
  | closing : Underway [.shut, .release, .notifyOne]
  | releasing : Underway [.release, .notifyOne]
  | notifying : Underway [.notifyOne]

/-- The owner has a permit, or some call is about to give it one. -/
def Roused (s : Rendezvous) : Prop := s.state.wake = true ∨ ∃ task, Due (s.calls task)

/-- The invariant against lost wakeups: an owner past one of its checks is
roused as soon as the check would come out differently. -/
structure Alert (s : Rendezvous) : Prop where
  calls : ∀ task, Underway (s.calls task)
  acks : ∀ purpose seen stage, s.owner = .waiting purpose seen stage → stage ≠ .acks →
    s.state.acks ≤ seen ∨ s.Roused
  closed : ∀ purpose seen, s.owner = .waiting purpose seen .parked → s.state.closed = false ∨ s.Roused

theorem Alert.start {initial : Rendezvous} (h : initial.Fresh) : initial.Alert where
  calls task := by
    rw [h.calls task]
    exact .done
  acks purpose seen stage hOwner hStage := by
    rcases h.owner with hIdle | ⟨purpose', seen', hWaiting⟩
    · rw [hIdle] at hOwner
      cases hOwner
    · rw [hWaiting] at hOwner
      cases hOwner
      exact absurd rfl hStage
  closed purpose seen hOwner := by
    rcases h.owner with hIdle | ⟨purpose', seen', hWaiting⟩
    · rw [hIdle] at hOwner
      cases hOwner
    · rw [hWaiting] at hOwner
      cases hOwner

/-- The owner's own steps let no wakeup pass. -/
private theorem Alert.moved {s : Rendezvous} (h : s.Alert) {p : OwnerStep}
    (hMove : WaitMove s.state s.owner p) : (s.moved p).1.Alert := by
  have hNot : (∀ purpose seen stage, p.owner = .waiting purpose seen stage → stage = .acks) →
      (s.moved p).1.Alert := fun hStage => by
    refine ⟨h.calls, fun purpose seen stage hOwner hNext => absurd (hStage _ _ _ hOwner) hNext, ?_⟩
    intro purpose seen hOwner
    cases hStage _ _ _ hOwner
  cases hMove with
  | opened hOwner hStep | posted hOwner hStep | woken hOwner hStep =>
      refine hNot fun purpose seen stage hNext => ?_
      rw [hStep] at hNext
      cases hNext
      rfl
  | counted hOwner hStep =>
      refine hNot fun purpose seen stage hNext => ?_
      rw [hStep] at hNext
      cases hNext
  | acknowledged hOwner hAcks hStep =>
      exact hNot fun purpose seen stage hNext =>
        absurd (hStep ▸ hNext) ((returned_idle _ _).1 purpose seen stage)
  | unacknowledged hOwner hClosed hStep =>
      exact hNot fun purpose seen stage hNext =>
        absurd (hStep ▸ hNext) ((returned_idle _ _).2.1 purpose seen stage)
  | other hOwner hNext hSending =>
      exact hNot fun purpose seen stage hWaiting => absurd hWaiting (hNext purpose seen stage)
  | behind hOwner hAcks hStep =>
      subst hStep
      refine ⟨h.calls, ?_, ?_⟩
      · intro purpose seen stage hNext _
        cases hNext
        exact Or.inl hAcks
      · intro purpose seen hNext
        cases hNext
  | unclosed hOwner hOpen hStep =>
      subst hStep
      refine ⟨h.calls, ?_, ?_⟩
      · intro purpose seen stage hNext _
        cases hNext
        exact h.acks _ _ _ hOwner (by simp)
      · intro purpose seen hNext
        exact Or.inl hOpen

/-- A call that was not due leaves whoever is roused as it is. -/
private theorem Roused.keep {s : Rendezvous} (h : s.Roused) {task : Nat} (hTask : ¬Due (s.calls task))
    (updates : List Update) {state : StreamState} (hWake : state.wake = s.state.wake) :
    Roused { s with state := state, calls := Function.update s.calls task updates } := by
  rcases h with hPermit | ⟨other, hDue⟩
  · exact Or.inl (hWake.trans hPermit)
  · refine Or.inr ⟨other, ?_⟩
    have hOther : other ≠ task := fun hSame => hTask (hSame ▸ hDue)
    simpa [hOther] using hDue

private theorem Alert.calling {s s' : Rendezvous} (h : s.Alert) {task : Nat} {updates : List Update}
    {events : List Event} (hUpdates : Underway updates) (hStep : s.calling task updates = some (s', events)) :
    s'.Alert := by
  unfold Rendezvous.calling at hStep
  split_ifs at hStep with hDone
  cases hStep
  have hTask : ¬Due (s.calls task) := by simp [hDone, Due]
  refine ⟨fun other => ?_, fun purpose seen stage hOwner hStage => ?_, fun purpose seen hOwner => ?_⟩
  · by_cases hOther : other = task
    · subst other
      simpa using hUpdates
    · simpa [hOther] using h.calls other
  · exact (h.acks purpose seen stage hOwner hStage).imp_right fun hRoused => hRoused.keep hTask updates rfl
  · exact (h.closed purpose seen hOwner).imp_right fun hRoused => hRoused.keep hTask updates rfl

/-- Every update either rouses the owner or leaves both checks as they are. -/
private theorem Alert.updated {s : Rendezvous} (h : s.Alert) {task : Nat} {update : Update}
    {rest : List Update} (hCall : s.calls task = update :: rest) :
    Alert { s with state := update.apply s.state, calls := Function.update s.calls task rest } := by
  have hUnderway := h.calls task
  rw [hCall] at hUnderway
  have hCalls : Underway rest → ∀ other, Underway (Function.update s.calls task rest other) := by
    intro hRest other
    by_cases hOther : other = task
    · subst other
      simpa using hRest
    · simpa [hOther] using h.calls other
  have hRoused : Underway rest → Due rest ∨ update = .notifyOne →
      Alert { s with state := update.apply s.state, calls := Function.update s.calls task rest } := by
    intro hRest hNow
    have hAwake : Roused
        { s with state := update.apply s.state, calls := Function.update s.calls task rest } := by
      rcases hNow with hDue | rfl
      · exact Or.inr ⟨task, by simpa using hDue⟩
      · exact Or.inl rfl
    exact ⟨hCalls hRest, fun _ _ _ _ _ => Or.inr hAwake, fun _ _ _ => Or.inr hAwake⟩
  cases hUnderway with
  | counting => exact hRoused .notifying (Or.inl (Or.inl rfl))
  | closing => exact hRoused .releasing (Or.inl (Or.inr rfl))
  | releasing => exact hRoused .notifying (Or.inl (Or.inl rfl))
  | notifying => exact hRoused .done (Or.inr rfl)
  | acking remoteId =>
      have hTask : ¬Due (s.calls task) := by simp [hCall, Due]
      refine ⟨hCalls .counting, fun purpose seen stage hOwner hStage => ?_, fun purpose seen hOwner => ?_⟩
      · exact (h.acks purpose seen stage hOwner hStage).imp_right fun hAwake => hAwake.keep hTask _ rfl
      · exact (h.closed purpose seen hOwner).imp_right fun hAwake => hAwake.keep hTask _ rfl

theorem Alert.step {maxPayload : UInt32} {s s' : Rendezvous} {action : Action} {events : List Event}
    (h : s.Alert) (hStep : s.step maxPayload action = some (s', events)) : s'.Alert := by
  cases action with
  | send data =>
      simp only [Rendezvous.step] at hStep
      split at hStep
      · rename_i hIdle
        obtain ⟨p, hBegin, hPair⟩ := Option.map_eq_some_iff.mp hStep
        have hAlert := h.moved (hIdle ▸ begin_send hBegin)
        rwa [hPair] at hAlert
      · cases hStep
  | advance outboxOpen =>
      obtain ⟨p, hAdvance, hPair⟩ := Option.map_eq_some_iff.mp hStep
      have hAlert := h.moved (advance_wait hAdvance)
      rwa [hPair] at hAlert
  | ack task remoteId => exact h.calling (.acking remoteId) hStep
  | markClosed task => exact h.calling .closing hStep
  | update task =>
      simp only [Rendezvous.step] at hStep
      split at hStep <;> cases hStep
      rename_i hCall
      exact h.updated hCall

theorem answer_append (trace : List Event) (event : Event) :
    answer (trace ++ [event]) = match answer trace, event with
      | _, .posted => some false
      | some done, .counted late => some (done || !late)
      | done, _ => done := by
  simp [answer, List.foldl_append]

/-- The invariant of the acknowledged write: its count is behind, and it is not
overtaken by a close between its two checks. -/
structure Answered (trace : List Event) (s : Rendezvous) : Prop where
  sending : ∀ rest remote seen, s.owner = .sending rest remote seen → seen ≤ s.state.acks
  posted : ∀ purpose seen stage, s.owner = .waiting purpose seen stage → answer trace ≠ none →
    seen ≤ s.state.acks
  counted : ∀ purpose seen stage, s.owner = .waiting purpose seen stage → answer trace = some true →
    seen < s.state.acks
  unclosed : ∀ purpose seen, s.owner = .waiting purpose seen .closed → answer trace = some true →
    s.state.closed = false

theorem Answered.start {initial : Rendezvous} (h : initial.Fresh) : Answered [] initial where
  sending rest remote seen hOwner := by
    rcases h.owner with hIdle | ⟨purpose', seen', hWaiting⟩
    · rw [hIdle] at hOwner
      cases hOwner
    · rw [hWaiting] at hOwner
      cases hOwner
  posted _ _ _ _ hSome := absurd rfl hSome
  counted _ _ _ _ hSome := by cases hSome
  unclosed _ _ _ hSome := by cases hSome

/-- Outside a wait there is nothing to keep. -/
private theorem Answered.idle {trace : List Event} {s : Rendezvous}
    (hWaiting : ∀ purpose seen stage, s.owner ≠ .waiting purpose seen stage)
    (hSending : ∀ rest remote seen, s.owner ≠ .sending rest remote seen) : Answered trace s where
  sending rest remote seen hOwner := absurd hOwner (hSending rest remote seen)
  posted purpose seen stage hOwner := absurd hOwner (hWaiting purpose seen stage)
  counted purpose seen stage hOwner := absurd hOwner (hWaiting purpose seen stage)
  unclosed purpose seen hOwner := absurd hOwner (hWaiting purpose seen .closed)

/-- A wait that begins has been acknowledged by nobody yet. -/
private theorem Answered.begun {trace : List Event} {s : Rendezvous} {purpose : Purpose} {seen : UInt64}
    (hOwner : s.owner = .waiting purpose seen .acks) (hSeen : seen ≤ s.state.acks) :
    Answered (trace ++ [.posted]) s := by
  constructor
  · intro rest remote other hSending
    rw [hOwner] at hSending
    cases hSending
  · intro purpose' seen' stage hWaiting _
    rw [hOwner] at hWaiting
    cases hWaiting
    exact hSeen
  · intro purpose' seen' stage _ hAnswer
    rw [answer_append] at hAnswer
    cases hAnswer
  · intro purpose' seen' _ hAnswer
    rw [answer_append] at hAnswer
    cases hAnswer

/-- The checks of a pending wait change neither its count nor the state that it looks at. -/
private theorem Answered.still {trace : List Event} {s : Rendezvous} (h : Answered trace s) {p : OwnerStep}
    {purpose : Purpose} {seen : UInt64} {stage stage' : WaitStep} (hOwner : s.owner = .waiting purpose seen stage)
    (hNext : p.owner = .waiting purpose seen stage') (hAcks : p.state.acks = s.state.acks)
    (hStage : stage' = .closed → s.state.acks ≤ seen) : Answered (trace ++ (s.moved p).2) (s.moved p).1 := by
  have hQuiet : (s.moved p).2 = [] := by simp [Rendezvous.moved, hOwner, hNext, observe]
  rw [hQuiet, List.append_nil]
  constructor
  · intro rest remote other hSending
    rw [show (s.moved p).1.owner = _ from hNext] at hSending
    cases hSending
  · intro purpose' seen' stage'' hWaiting hSome
    rw [show (s.moved p).1.owner = _ from hNext] at hWaiting
    cases hWaiting
    rw [show (s.moved p).1.state.acks = _ from hAcks]
    exact h.posted _ _ _ hOwner hSome
  · intro purpose' seen' stage'' hWaiting hAnswer
    rw [show (s.moved p).1.owner = _ from hNext] at hWaiting
    cases hWaiting
    rw [show (s.moved p).1.state.acks = _ from hAcks]
    exact h.counted _ _ _ hOwner hAnswer
  · intro purpose' seen' hWaiting hAnswer
    rw [show (s.moved p).1.owner = _ from hNext] at hWaiting
    cases hWaiting
    exact absurd (h.counted _ _ _ hOwner hAnswer) (UInt64.not_lt.mpr (hStage rfl))

private theorem Answered.moved {trace : List Event} {s : Rendezvous} (h : Answered trace s) {p : OwnerStep}
    (hMove : WaitMove s.state s.owner p) : Answered (trace ++ (s.moved p).2) (s.moved p).1 := by
  cases hMove with
  | opened hOwner hStep =>
      have hEvents : (s.moved p).2 = [.posted] := by simp [Rendezvous.moved, hStep, hOwner, observe]
      rw [hEvents]
      exact Answered.begun (by rw [Rendezvous.moved, hStep]) UInt64.zero_le
  | posted hOwner hStep =>
      have hEvents : (s.moved p).2 = [.posted] := by simp [Rendezvous.moved, hStep, hOwner, observe]
      rw [hEvents]
      refine Answered.begun (by rw [Rendezvous.moved, hStep]) ?_
      simpa [Rendezvous.moved, hStep] using h.sending _ _ _ hOwner
  | behind hOwner hAcks hStep => exact h.still hOwner (by rw [hStep]) (by rw [hStep]) (fun _ => hAcks)
  | unclosed hOwner hOpen hStep => exact h.still hOwner (by rw [hStep]) (by rw [hStep]) (by simp)
  | woken hOwner hStep => exact h.still hOwner (by rw [hStep]) (by rw [hStep]) (by simp)
  | acknowledged hOwner hAcks hStep =>
      refine Answered.idle ?_ ?_ <;> rw [Rendezvous.moved, hStep]
      · exact (returned_idle _ _).1
      · exact (returned_idle _ _).2.2.1
  | unacknowledged hOwner hClosed hStep =>
      refine Answered.idle ?_ ?_ <;> rw [Rendezvous.moved, hStep]
      · exact (returned_idle _ _).2.1
      · exact (returned_idle _ _).2.2.2
  | other hOwner hNext hSending => exact Answered.idle hNext hSending
  | counted hOwner hStep =>
      rw [Rendezvous.moved, hStep]
      constructor
      · intro rest remote seen hSending
        cases hSending
        exact UInt64.le_refl _
      · intro purpose seen stage hWaiting
        cases hWaiting
      · intro purpose seen stage hWaiting
        cases hWaiting
      · intro purpose seen hWaiting
        cases hWaiting

/-- An update that changes neither the count nor the flag. -/
private theorem Answered.unchanged {trace : List Event} {s s' : Rendezvous} (h : Answered trace s)
    (hOwner : s'.owner = s.owner) (hAcks : s'.state.acks = s.state.acks)
    (hClosed : s'.state.closed = s.state.closed) : Answered trace s' where
  sending := by simpa only [hOwner, hAcks] using h.sending
  posted := by simpa only [hOwner, hAcks] using h.posted
  counted := by simpa only [hOwner, hAcks] using h.counted
  unclosed := by simpa only [hOwner, hClosed] using h.unclosed

private theorem Answered.updated {trace : List Event} {s : Rendezvous} (h : Answered trace s) {task : Nat}
    {update : Update} {rest : List Update} (hCall : s.calls task = update :: rest)
    (hUnraced : s.unraced (.update task) = true) :
    Answered (trace ++ if update = .count then [.counted s.state.closed] else [])
      { s with state := update.apply s.state, calls := Function.update s.calls task rest } := by
  cases update with
  | adopt remoteId | release | notifyOne =>
      rw [if_neg (by simp), List.append_nil]
      exact h.unchanged rfl rfl rfl
  | shut =>
      rw [if_neg (by simp), List.append_nil]
      refine ⟨h.sending, h.posted, h.counted, fun purpose seen hOwner hAnswer => ?_⟩
      -- The close between the two checks: it comes before the acknowledgement here.
      have hBehind : s.state.acks ≤ seen := by
        have hOwner : s.owner = .waiting purpose seen .closed := hOwner
        simpa [unraced, hCall, hOwner] using hUnraced
      exact absurd (h.counted _ _ _ hOwner hAnswer) (UInt64.not_lt.mpr hBehind)
  | count =>
      have hRoom : s.state.acks.toNat + 1 < 2 ^ 64 := by
        cases hOwner : s.owner <;> simpa [unraced, hCall, hOwner] using hUnraced
      have hNext : s.state.acks < s.state.acks + 1 := by
        rw [UInt64.lt_iff_toNat_lt, UInt64.toNat_add, UInt64.toNat_one, Nat.mod_eq_of_lt hRoom]
        exact Nat.lt_succ_self _
      rw [if_pos rfl]
      constructor
      · intro other remote seen hOwner
        exact UInt64.le_trans (h.sending _ _ _ hOwner) (UInt64.le_of_lt hNext)
      · intro purpose seen stage hOwner hSome
        refine UInt64.le_trans (h.posted _ _ _ hOwner fun hNone => ?_) (UInt64.le_of_lt hNext)
        rw [answer_append, hNone] at hSome
        exact hSome rfl
      · intro purpose seen stage hOwner hAnswer
        refine UInt64.lt_of_le_of_lt (h.posted _ _ _ hOwner fun hNone => ?_) hNext
        rw [answer_append, hNone] at hAnswer
        cases hAnswer
      · intro purpose seen hOwner hAnswer
        change s.state.closed = false
        rw [answer_append] at hAnswer
        cases hDone : answer trace with
        | none =>
            rw [hDone] at hAnswer
            cases hAnswer
        | some done =>
            cases done with
            | true => exact h.unclosed _ _ hOwner hDone
            | false =>
                rw [hDone] at hAnswer
                simpa using hAnswer

theorem Answered.step {maxPayload : UInt32} {trace : List Event} {s s' : Rendezvous} {action : Action}
    {events : List Event} (h : Answered trace s) (hUnraced : s.unraced action = true)
    (hStep : s.step maxPayload action = some (s', events)) : Answered (trace ++ events) s' := by
  cases action with
  | send data =>
      simp only [Rendezvous.step] at hStep
      split at hStep
      · rename_i hIdle
        obtain ⟨p, hBegin, hPair⟩ := Option.map_eq_some_iff.mp hStep
        have hAnswered := h.moved (hIdle ▸ begin_send hBegin)
        rwa [hPair] at hAnswered
      · cases hStep
  | advance outboxOpen =>
      obtain ⟨p, hAdvance, hPair⟩ := Option.map_eq_some_iff.mp hStep
      have hAnswered := h.moved (advance_wait hAdvance)
      rwa [hPair] at hAnswered
  | ack task remoteId | markClosed task =>
      simp only [Rendezvous.step, Rendezvous.calling] at hStep
      split_ifs at hStep
      cases hStep
      rw [List.append_nil]
      exact h.unchanged rfl rfl rfl
  | update task =>
      simp only [Rendezvous.step] at hStep
      split at hStep <;> cases hStep
      rename_i hCall
      exact h.updated hCall hUnraced

/-- An owner that looks at the count when it is past returns at once. -/
private theorem execute_acks (maxPayload : UInt32) (s : Rendezvous) {purpose : Purpose} {seen : UInt64}
    (hOwner : s.owner = .waiting purpose seen .acks) (hAcks : seen < s.state.acks) :
    ∃ s', Transition.execute (step maxPayload) (fun _ _ _ => True) [] s [.advance true] =
      some ([.waited true], s') := by
  have hEvents : observe (.waiting purpose seen .acks) (Owner.acknowledged s.state purpose).owner =
      [.waited true] := observe_acknowledged (returned_idle s.state purpose).1
  refine ⟨(s.moved (Owner.acknowledged s.state purpose)).1, ?_⟩
  simp [Transition.execute, step, Owner.advance, hOwner, hAcks, Rendezvous.moved, hEvents]

private theorem execute_parked (maxPayload : UInt32) (s : Rendezvous) {purpose : Purpose} {seen : UInt64}
    (hOwner : s.owner = .waiting purpose seen .parked) (hAcks : seen < s.state.acks)
    (hWake : s.state.wake = true) :
    ∃ s', Transition.execute (step maxPayload) (fun _ _ _ => True) [] s
      [.advance true, .advance true] = some ([.waited true], s') := by
  obtain ⟨s', hRest⟩ := execute_acks maxPayload ⟨{ s.state with wake := false },
    .waiting purpose seen .acks, s.calls⟩ rfl hAcks
  refine ⟨s', ?_⟩
  rw [Transition.execute]
  simpa [step, Owner.advance, hOwner, hWake, Rendezvous.moved, observe] using hRest

/-- Undisturbed, a `wait_ack` whose count is past returns within three steps. -/
private theorem waits_out {maxPayload : UInt32} {s : Rendezvous} {purpose : Purpose} {seen : UInt64}
    {stage : WaitStep} (hOwner : s.owner = .waiting purpose seen stage) (hAcks : seen < s.state.acks)
    (hOpen : stage = .closed → s.state.closed = false)
    (hWake : stage ≠ .acks → s.state.wake = true) :
    ∃ steps s' events, steps ≤ 3 ∧
      Transition.execute (step maxPayload) (fun _ _ _ => True) [] s
        (List.replicate steps (.advance true)) = some (events, s') ∧ .waited true ∈ events := by
  cases stage with
  | acks =>
      obtain ⟨s', hRun⟩ := execute_acks maxPayload s hOwner hAcks
      exact ⟨1, s', _, by decide, hRun, List.mem_cons_self⟩
  | parked =>
      obtain ⟨s', hRun⟩ := execute_parked maxPayload s hOwner hAcks (hWake (by simp))
      exact ⟨2, s', _, by decide, hRun, List.mem_cons_self⟩
  | closed =>
      obtain ⟨s', hRun⟩ := execute_parked maxPayload ⟨s.state, .waiting purpose seen .parked, s.calls⟩ rfl
        hAcks (hWake (by simp))
      refine ⟨3, s', [.waited true], by decide, ?_, List.mem_cons_self⟩
      rw [List.replicate_succ, Transition.execute]
      simpa [step, Owner.advance, hOwner, hOpen rfl, Rendezvous.moved, observe, List.replicate_succ]
        using hRun

/-- A wait returns what it has just seen. -/
private theorem waited_of_advance {maxPayload : UInt32} {s s' : Rendezvous} {purpose : Purpose}
    {seen : UInt64} {stage : WaitStep} {outboxOpen : Bool} {events : List Event}
    (hOwner : s.owner = .waiting purpose seen stage)
    (hStep : s.step maxPayload (.advance outboxOpen) = some (s', events)) :
    (.waited true ∈ events → seen < s.state.acks) ∧
    (.waited false ∈ events → stage = .closed ∧ s.state.closed = true) := by
  obtain ⟨p, hAdvance, hPair⟩ := Option.map_eq_some_iff.mp hStep
  obtain ⟨-, rfl⟩ := Prod.mk.inj hPair
  rw [hOwner]
  cases advance_wait hAdvance with
  | opened hOther | posted hOther | counted hOther =>
      rw [hOwner] at hOther
      cases hOther
  | other hOther => exact absurd hOwner (hOther _ _ _)
  | behind hOther hAcks hMove | woken hOther hMove | unclosed hOther hOpen hMove =>
      rw [hMove]
      simp [observe]
  | acknowledged hOther hAcks hMove =>
      rw [hOwner] at hOther
      cases hOther
      rw [hMove, observe_acknowledged (returned_idle _ _).1]
      simpa using hAcks
  | unacknowledged hOther hClosed hMove =>
      rw [hOwner] at hOther
      cases hOther
      rw [hMove, observe_unacknowledged (returned_idle _ _).2.1]
      simpa using hClosed

/-- In every run in which no close falls between the two checks of an
acknowledged write, waiting loses no wakeup, returns what it should, and reads
an acknowledgement followed by a close as written, then closed. -/
theorem wait_ack_sound {maxPayload : UInt32} {initial : Rendezvous} (hFresh : initial.Fresh)
    {trace : List Event} {s : Rendezvous}
    (hRun : Transition.Runs (step maxPayload) (fun _ s action => s.unraced action = true) initial trace s) :
    s.Sound maxPayload trace := by
  obtain ⟨hAlert, hAnswered⟩ : s.Alert ∧ Answered trace s := by
    induction hRun with
    | start => exact ⟨Alert.start hFresh, Answered.start hFresh⟩
    | next _ hUnraced hTaken ih => exact ⟨ih.1.step hTaken, ih.2.step hUnraced hTaken⟩
  have hAwake : (∀ task, ¬Due (s.calls task)) → s.Roused → s.state.wake = true := by
    rintro hNone (hPermit | ⟨task, hDue⟩)
    · exact hPermit
    · exact absurd hDue (hNone task)
  constructor
  · intro purpose seen hOwner hWake hNone
    have hAsleep : ¬s.Roused := fun hRoused => by
      rw [hAwake hNone hRoused] at hWake
      cases hWake
    exact ⟨(hAlert.acks _ _ _ hOwner (by simp)).resolve_right hAsleep,
      (hAlert.closed _ _ hOwner).resolve_right hAsleep⟩
  · intro purpose seen stage outboxOpen s' events hOwner hStep
    obtain ⟨hTrue, hFalse⟩ := waited_of_advance hOwner hStep
    exact ⟨hTrue, fun hMember => (hFalse hMember).2⟩
  · intro rest seen stage hOwner hAnswer
    have hAcks := hAnswered.counted _ _ _ hOwner hAnswer
    refine ⟨?_, fun hNone => waits_out hOwner hAcks (fun hStage => ?_) fun hStage => ?_⟩
    · intro outboxOpen s' events hStep hMember
      obtain ⟨rfl, hClosed⟩ := (waited_of_advance hOwner hStep).2 hMember
      rw [hAnswered.unclosed _ _ hOwner hAnswer] at hClosed
      cases hClosed
    · exact hAnswered.unclosed _ _ (hStage ▸ hOwner) hAnswer
    · exact hAwake hNone ((hAlert.acks _ _ _ hOwner hStage).resolve_left (UInt64.not_le.mpr hAcks))

/-- An open stream with the device's number 5. -/
private def openStream : Rendezvous :=
  ⟨⟨1, 5, false, 1, false, true, [], true⟩, .idle, fun _ => []⟩

private theorem openStream_fresh : openStream.Fresh := ⟨fun _ => rfl, Or.inl rfl⟩

/-- One byte is written; its acknowledgement and the close come when the owner is parked. -/
theorem wait_ack_sound_acked_then_closed :
    ∃ trace s, Transition.Runs (step 4096) (fun _ s action => s.unraced action = true) openStream trace s ∧
      s.owner = .waiting (.writing []) 1 .parked ∧ s.state.closed = true ∧
      ∀ outboxOpen s' events, s.step 4096 (.advance outboxOpen) = some (s', events) →
        .waited false ∉ events := by
  obtain ⟨trace, s, hRun, hSeen⟩ := Transition.Runs.of_execute (step 4096)
    (fun _ s action => s.unraced action = true) openStream
    [.send [65], .advance true, .advance true, .advance true, .advance true, .advance true, .ack 0 5,
      .update 0, .update 0, .update 0, .markClosed 0, .update 0, .update 0, .update 0]
    (fun result => (answer result.1, result.2.owner, result.2.state.closed))
    (some true, .waiting (.writing []) 1 .parked, true) (by decide)
  simp only [Prod.mk.injEq] at hSeen
  obtain ⟨hAnswer, hOwner, hClosed⟩ := hSeen
  have hSound := wait_ack_sound openStream_fresh hRun
  exact ⟨trace, s, hRun, hOwner, hClosed, (hSound.written _ _ _ hOwner hAnswer).1⟩

/-- The same write, acknowledged and closed between the two checks of its owner,
is taken for closed while writing. -/
theorem raced_close_fails_write :
    ¬∀ (maxPayload : UInt32) (initial : Rendezvous), initial.Fresh → ∀ trace s,
      Transition.Runs (step maxPayload) (fun _ _ _ => True) initial trace s →
        s.Sound maxPayload trace := by
  intro hClaim
  obtain ⟨trace, s, hRun, hSeen⟩ := Transition.Runs.of_execute (step 4096) (fun _ _ _ => True) openStream
    [.send [65], .advance true, .advance true, .advance true, .advance true, .ack 0 5, .update 0,
      .update 0, .update 0, .markClosed 0, .update 0]
    (fun result => (answer result.1, result.2.owner,
      (result.2.step 4096 (.advance true)).map Prod.snd))
    (some true, .waiting (.writing []) 1 .closed, some [.waited false]) (by decide)
  simp only [Prod.mk.injEq] at hSeen
  obtain ⟨hAnswer, hOwner, hStep⟩ := hSeen
  obtain ⟨⟨s', events⟩, hTaken, rfl⟩ := Option.map_eq_some_iff.mp hStep
  exact ((hClaim 4096 openStream openStream_fresh trace s hRun).written _ _ _ hOwner hAnswer).1 _ _ _
    hTaken List.mem_cons_self

end Rendezvous
end Rsadb
