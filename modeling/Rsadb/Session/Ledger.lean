import Rsadb.Session.Outbox
import Mathlib.Data.List.Induction

/-! The traffic of one stream as the trace tells it: what its owner posted, what
of it was handed to the transport, and what the device sent to it. -/
namespace Rsadb

/-- The account of one stream. `callWrites` counts the writes of the pending call. -/
structure Ledger where
  posted : List Message
  handed : List Message
  okays : Nat
  arrivals : Nat
  taken : Nat
  callWrites : Nat
  deriving DecidableEq, Repr

namespace Ledger

/-- A message that asks the device for an acknowledgement. -/
def Asks (msg : Message) : Prop := msg.command = .open ∨ msg.command = .write

instance (msg : Message) : Decidable (Asks msg) := inferInstanceAs (Decidable (_ ∨ _))

def empty : Ledger := ⟨[], [], 0, 0, 0, 0⟩

def post (l : Ledger) (msg : Message) : Ledger :=
  { l with
    posted := l.posted ++ [msg]
    callWrites := if msg.command = .write then l.callWrites + 1 else l.callWrites }

def hand (l : Ledger) (msg : Message) : Ledger := { l with handed := l.handed ++ [msg] }

/-- A message from the device that reaches the stream. -/
def dispatch (l : Ledger) (msg : Message) : Ledger :=
  match msg.command with
  | .okay => { l with okays := l.okays + 1 }
  | .write => { l with arrivals := l.arrivals + 1 }
  | _ => l

def report (l : Ledger) : Report → Ledger
  | .took _ => { l with taken := l.taken + 1 }
  | .returned _ => { l with callWrites := 0 }
  | .closed => l

/-- Enter one event. A dropped call is over like one that returned. -/
def note (ref : Ref) (l : Ledger) : Event → Ledger
  | .posted source msg => if source = some ref then l.post msg else l
  | .handed source msg => if source = some ref then l.hand msg else l
  | .dispatched msg target => if target = some ref then l.dispatch msg else l
  | .owner other report => if other = ref then l.report report else l
  | .cancelled other => if other = ref then { l with callWrites := 0 } else l
  | _ => l

/-- What a step of the owner enters: what it posts, then what it reports. -/
def enter (l : Ledger) (p : OwnerStep) : Ledger :=
  p.reports.foldl report (match p.effect with
    | .post msg => l.post msg
    | _ => l)

/-- How many of the posted messages ask for an acknowledgement. -/
def asks (l : Ledger) : Nat := l.posted.countP fun msg => Asks msg

/-- How many acknowledgements the owner posted. -/
def acknowledgements (l : Ledger) : Nat := l.posted.countP fun msg => msg.command = .okay

/-- The messages that the device has not acknowledged yet. -/
def outstanding (l : Ledger) : Nat := l.asks - l.okays

/-- How many of the messages that reached the transport ask for an acknowledgement. -/
def asked (l : Ledger) : Nat := l.handed.countP fun msg => Asks msg

/-- How many acknowledgements reached the transport. -/
def acknowledged (l : Ledger) : Nat := l.handed.countP fun msg => msg.command = .okay

@[simp] theorem post_posted (l : Ledger) (msg : Message) : (l.post msg).posted = l.posted ++ [msg] := rfl

@[simp] theorem post_asks (l : Ledger) (msg : Message) :
    (l.post msg).asks = l.asks + if Asks msg then 1 else 0 := by
  simp only [asks, post_posted, List.countP_append, List.countP_singleton, decide_eq_true_eq]

@[simp] theorem post_acknowledgements (l : Ledger) (msg : Message) :
    (l.post msg).acknowledgements = l.acknowledgements + if msg.command = .okay then 1 else 0 := by
  simp only [acknowledgements, post_posted, List.countP_append, List.countP_singleton, decide_eq_true_eq]

@[simp] theorem dispatch_posted (l : Ledger) (msg : Message) : (l.dispatch msg).posted = l.posted := by
  unfold dispatch
  split <;> rfl

@[simp] theorem dispatch_handed (l : Ledger) (msg : Message) : (l.dispatch msg).handed = l.handed := by
  unfold dispatch
  split <;> rfl

/-- What a step of the owner enters is none of the device's doing. -/
theorem enter_frame (l : Ledger) (p : OwnerStep) :
    (l.enter p).okays = l.okays ∧ (l.enter p).arrivals = l.arrivals ∧ (l.enter p).handed = l.handed := by
  have hReports : ∀ (reports : List Report) (l : Ledger), (reports.foldl report l).okays = l.okays ∧
      (reports.foldl report l).arrivals = l.arrivals ∧
      (reports.foldl report l).handed = l.handed := fun reports => by
    induction reports with
    | nil => exact fun _ => ⟨rfl, rfl, rfl⟩
    | cons head rest ih =>
        intro l
        obtain ⟨hOkays, hArrivals, hHanded⟩ := ih (l.report head)
        rw [List.foldl_cons, hOkays, hArrivals, hHanded]
        cases head <;> exact ⟨rfl, rfl, rfl⟩
  obtain ⟨hOkays, hArrivals, hHanded⟩ := hReports p.reports (match p.effect with
    | .post msg => l.post msg
    | _ => l)
  rw [enter, hOkays, hArrivals, hHanded]
  cases p.effect <;> exact ⟨rfl, rfl, rfl⟩

/-- Events about other streams are not entered. -/
theorem note_other {ref : Ref} {events : List Event} (hEvents : ∀ event ∈ events, ¬event.Concerns ref)
    (l : Ledger) : events.foldl (note ref) l = l := by
  induction events with
  | nil => rfl
  | cons event rest ih =>
      have hFirst : l.note ref event = l := by
        have hEvent := hEvents event List.mem_cons_self
        cases event <;> first | rfl | exact if_neg hEvent
      rw [List.foldl_cons, hFirst]
      exact ih fun other hOther => hEvents other (List.mem_cons_of_mem _ hOther)

theorem note_own (ref : Ref) (p : OwnerStep) (l : Ledger) :
    (Session.events ref p).foldl (note ref) l = l.enter p := by
  have hReports : ∀ (reports : List Report) (l : Ledger),
      (reports.map (Event.owner ref)).foldl (note ref) l = reports.foldl report l := fun reports => by
    induction reports with
    | nil => exact fun _ => rfl
    | cons head rest ih =>
        intro l
        rw [List.map_cons, List.foldl_cons, List.foldl_cons, ih]
        simp only [note, ↓reduceIte]
  unfold Session.events enter
  rw [List.foldl_append, hReports]
  cases p.effect with
  | post msg => simp only [List.foldl_cons, List.foldl_nil, note, ↓reduceIte]
  | _ => rfl

end Ledger

/-- The account of a stream after a trace. -/
def ledger (ref : Ref) (trace : List Event) : Ledger := trace.foldl (Ledger.note ref) .empty

theorem ledger_append (ref : Ref) (trace events : List Event) :
    ledger ref (trace ++ events) = events.foldl (Ledger.note ref) (ledger ref trace) := by
  simp [ledger, List.foldl_append]

/-- The message of an entry that is the stream's own. -/
def ownMessage (ref : Ref) (entry : Option Ref × Message) : Option Message :=
  if entry.1 = some ref then some entry.2 else none

/-- The messages in the account are the stream's share of all that was posted and handed over. -/
theorem ledger_messages (ref : Ref) (trace : List Event) :
    (ledger ref trace).posted = (posts trace).filterMap (ownMessage ref) ∧
    (ledger ref trace).handed = (hands trace).filterMap (ownMessage ref) := by
  induction trace using List.reverseRecOn with
  | nil => exact ⟨rfl, rfl⟩
  | append_singleton trace event ih =>
      rw [ledger_append, posts_append, hands_append, List.filterMap_append, List.filterMap_append,
        ← ih.1, ← ih.2, List.foldl_cons, List.foldl_nil]
      cases event with
      | posted source msg =>
          by_cases hSource : source = some ref <;>
            simp [Ledger.note, Ledger.post, posts, hands, Event.post, Event.hand, ownMessage, hSource]
      | handed source msg =>
          by_cases hSource : source = some ref <;>
            simp [Ledger.note, Ledger.hand, posts, hands, Event.post, Event.hand, ownMessage, hSource]
      | dispatched msg target =>
          by_cases hTarget : target = some ref <;>
            simp [Ledger.note, posts, hands, Event.post, Event.hand, hTarget]
      | owner other report =>
          by_cases hOther : other = ref <;> cases report <;>
            simp [Ledger.note, Ledger.report, posts, hands, Event.post, Event.hand, hOther]
      | cancelled other =>
          by_cases hOther : other = ref <;>
            simp [Ledger.note, posts, hands, Event.post, Event.hand, hOther]
      | _ => simp [Ledger.note, posts, hands, Event.post, Event.hand]

namespace Session

variable {allowed : List Event → Session → Action → Prop} {maxPayload : UInt32}

/-- What was handed to the transport for a stream is the beginning of what its owner posted. -/
theorem handed_of_posted {trace : List Event} {s : Session}
    (h : Transition.Runs step allowed (start maxPayload) trace s) (ref : Ref) :
    (ledger ref trace).handed <+: (ledger ref trace).posted := by
  rw [(ledger_messages ref trace).1, (ledger_messages ref trace).2]
  exact ((List.prefix_append _ _).trans (outbox_of_runs h).1).filterMap (ownMessage ref)

/-- Nothing is counted as handed over that was not posted. -/
theorem handed_counts {trace : List Event} {s : Session}
    (h : Transition.Runs step allowed (start maxPayload) trace s) (ref : Ref) :
    (ledger ref trace).asked ≤ (ledger ref trace).asks ∧
    (ledger ref trace).acknowledged ≤ (ledger ref trace).acknowledgements := by
  have hSub := (handed_of_posted h ref).sublist
  exact ⟨hSub.countP_le, hSub.countP_le⟩

end Session
end Rsadb
