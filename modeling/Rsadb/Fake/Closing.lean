import Rsadb.Fake.Peers
import Rsadb.Fake.Services
import Rsadb.Session.Arrivals

/-! The end of a stream on the device, and its acknowledgements. A stream is closed
when its service is finished; it is gone then, and nothing is sent on it any more. -/
namespace Rsadb.Fake

/-- An acknowledgement on a stream of the device. -/
def AcknowledgesOn (id : UInt32) (msg : Message) : Prop := msg.command = .okay ∧ msg.arg0 = id

instance (id : UInt32) : DecidablePred (AcknowledgesOn id) := fun msg =>
  inferInstanceAs (Decidable (msg.command = .okay ∧ msg.arg0 = id))

/-- What a stream has to acknowledge: that it was opened, and what its service was given. -/
def Traffic.due (t : Traffic) : Nat := t.given.length + if t.host = none then 0 else 1

/-- Nothing is sent on a stream of the device after its close. -/
def ClosesLast (id : UInt32) (msgs : List Message) : Prop :=
  msgs.Pairwise fun first later => first.command = .close → first.arg0 = id → later.arg0 ≠ id

/-- The service of a stream once it has dealt with a message. -/
def Device.serviceAfter {Shared Handler : Type} (services : Services Shared Handler) (device : Device Shared Handler)
    (msg : Message) (id : UInt32) : Option Handler :=
  match msg.command with
  | .open =>
      if id = device.nextId then
        (services.start device.shared (Text.trimEnd 0 (Utf8.lossy msg.payload))).map fun started =>
          (services.onOpen started.1 started.2).2.1
      else none
  | .write =>
      if id = msg.arg1 then
        (device.streams id).map fun stream => (services.onData device.shared stream.handler msg.payload).2.1
      else none
  | .okay => if id = msg.arg1 then (device.streams id).map (·.handler) else none
  | _ => none

theorem Traffic.receive_due (t : Traffic) (msg : Message) : (t.receive msg).due = t.due := by
  unfold Traffic.receive
  split <;> rfl

theorem Traffic.send_due (t : Traffic) (msg : Message) : (t.send msg).due = t.due := by
  unfold Traffic.send
  split <;> rfl

/-- The answer to a request that no service takes. -/
def RefusesTo (hostId : UInt32) (msg : Message) : Prop :=
  msg.command = .close ∧ msg.arg0 = 0 ∧ msg.arg1 = hostId

instance (hostId : UInt32) : DecidablePred (RefusesTo hostId) := fun msg =>
  inferInstanceAs (Decidable (msg.command = .close ∧ msg.arg0 = 0 ∧ msg.arg1 = hostId))

namespace Pumped

variable {Shared Handler : Type} {services : Services Shared Handler} {id : UInt32} {stream : DeviceStream Handler}
  {after : Option (DeviceStream Handler)} {more : List DeviceEvent}

/-- Pumping refuses nothing. -/
theorem refuses (h : Pumped services id stream after more) (hId : id ≠ 0) (hostId : UInt32) :
    (sends more).countP (RefusesTo hostId) = 0 := by
  cases h <;> simp [sends, RefusesTo, Message.empty, hId]

/-- A stream that is closed is taken away. -/
theorem gone (h : Pumped services id stream after more) {out : Message} (hSent : .sent out ∈ more)
    (hClose : out.command = .close) : out.arg0 = id ∧ after = none := by
  cases h with
  | waits | rests => cases hSent
  | wrote =>
      obtain rfl := DeviceEvent.sent.inj (List.mem_singleton.mp hSent)
      cases hClose
  | closed =>
      obtain rfl := DeviceEvent.sent.inj (List.mem_singleton.mp hSent)
      exact ⟨rfl, rfl⟩

/-- Pumping leaves nothing to acknowledge, and acknowledges nothing. -/
theorem due (h : Pumped services id stream after more) (other : UInt32) (t : Traffic) :
    (more.foldl (Traffic.note other) t).due = t.due ∧ (sends more).countP (AcknowledgesOn other) = 0 := by
  cases h with
  | waits | rests => exact ⟨rfl, rfl⟩
  | wrote | closed =>
      refine ⟨?_, by simp [sends, AcknowledgesOn, Message.empty]⟩
      simp only [List.foldl_cons, List.foldl_nil, Traffic.note]
      split
      · exact Traffic.send_due t _
      · rfl

/-- Whatever pumping sends, it sends on its stream. -/
theorem sends_on (h : Pumped services id stream after more) {out : Message} (hSent : .sent out ∈ more) :
    out.arg0 = id := by
  cases h with
  | waits | rests => cases hSent
  | wrote | closed =>
      obtain rfl := DeviceEvent.sent.inj (List.mem_singleton.mp hSent)
      rfl

/-- A stream is closed when its service is finished. -/
theorem finished (h : Pumped services id stream after more) {out : Message} (hSent : .sent out ∈ more)
    (hClose : out.command = .close) : services.finished stream.handler = true := by
  cases h with
  | waits | rests => cases hSent
  | wrote =>
      obtain rfl := DeviceEvent.sent.inj (List.mem_singleton.mp hSent)
      cases hClose
  | closed hFlight hQueue hFinished => exact hFinished

/-- Pumping sends one message at most. -/
theorem closesLast (h : Pumped services id stream after more) (other : UInt32) : ClosesLast other (sends more) := by
  cases h <;> simp [sends, ClosesLast]

/-- Pumping sends nothing after an end. -/
theorem endsLast (h : Pumped services id stream after more) (hostId : UInt32) : EndsLast hostId (sends more) := by
  cases h <;> simp [sends, EndsLast]

end Pumped

namespace Reaction

variable {Shared Handler : Type} {services : Services Shared Handler} {device device' : Device Shared Handler}
  {msg : Message} {events : List DeviceEvent}

/-- Who asks for a stream is refused or has one opened, not both. -/
theorem answers_once (h : Reaction services device msg device' events) (hZero : device.streams 0 = none)
    (hNew : device.nextId ≠ 0) (hostId : UInt32) :
    (sends events).countP (RefusesTo hostId) + events.countP (OpenedFor hostId) ≤
      if Message.OpensFrom hostId msg then 1 else 0 := by
  have hThere : ∀ {stream : DeviceStream Handler}, device.streams msg.arg1 = some stream → msg.arg1 ≠ 0 := by
    intro stream hStream hHere
    rw [hHere, hZero] at hStream
    cases hStream
  cases h with
  | accepted hCommand hPumped =>
      rw [sends_append, List.countP_append, List.countP_append, hPumped.refuses hNew, hPumped.opens_for]
      by_cases hSame : msg.arg0 = hostId <;>
        simp [sends, RefusesTo, OpenedFor, Message.OpensFrom, Message.empty, hCommand, hSame]
  | refused hCommand =>
      by_cases hSame : msg.arg0 = hostId <;>
        simp [sends, RefusesTo, OpenedFor, Message.OpensFrom, Message.empty, hCommand, hSame]
  | written hCommand hStream hPumped =>
      rw [sends_append, List.countP_append, List.countP_append, hPumped.refuses (hThere hStream), hPumped.opens_for]
      simp [sends, RefusesTo, OpenedFor, Message.empty]
  | acknowledged hCommand hStream hPumped =>
      rw [hPumped.refuses (hThere hStream), hPumped.opens_for]
      exact Nat.zero_le _
  | closed | missed => simp [sends]

/-- A stream whose end is sent is gone. -/
theorem gone (h : Reaction services device msg device' events) (hZero : device.streams 0 = none) {out : Message}
    (hSent : .sent out ∈ events) (hClose : out.command = .close) : device'.streams out.arg0 = none := by
  cases h with
  | accepted hCommand hPumped | written hCommand hStream hPumped =>
      rcases List.mem_append.mp hSent with hFirst | hMore
      · simp only [List.mem_cons, DeviceEvent.sent.injEq, reduceCtorEq, List.not_mem_nil, or_false] at hFirst
        rw [hFirst] at hClose
        cases hClose
      · obtain ⟨hId, hNone⟩ := hPumped.gone hMore hClose
        rw [Device.setStream_streams, hId, Function.update_self, hNone]
  | acknowledged hCommand hStream hPumped =>
      obtain ⟨hId, hNone⟩ := hPumped.gone hSent hClose
      rw [Device.setStream_streams, hId, Function.update_self, hNone]
  | refused hCommand =>
      obtain rfl := DeviceEvent.sent.inj (List.mem_singleton.mp hSent)
      exact hZero
  | closed | missed => cases hSent

/-- The device acknowledges what it opens and what it gives to a service, each at once. -/
theorem due (h : Reaction services device msg device' events) {id : UInt32} {t : Traffic}
    (hNew : id = device.nextId → t.host = none) :
    (events.foldl (Traffic.note id) t).due = t.due + (sends events).countP (AcknowledgesOn id) := by
  cases h with
  | accepted hCommand hPumped =>
      obtain ⟨hDue, hNone⟩ := hPumped.due id (([.sent (.empty .okay device.nextId msg.arg0),
        .opened device.nextId msg.arg0, .replied device.nextId _] : List DeviceEvent).foldl (Traffic.note id) t)
      rw [List.foldl_append, hDue, sends_append, List.countP_append, hNone]
      by_cases hHere : device.nextId = id
      · have hHost := hNew hHere.symm
        simp [hHere, hHost, Traffic.note, Traffic.send, Traffic.due, sends, AcknowledgesOn, Message.empty]
      · simp [hHere, Traffic.note, Traffic.due, sends, AcknowledgesOn, Message.empty]
  | written hCommand hStream hPumped =>
      obtain ⟨hDue, hNone⟩ := hPumped.due id (([.sent (.empty .okay msg.arg1 msg.arg0),
        .given msg.arg1 msg.payload, .replied msg.arg1 _] : List DeviceEvent).foldl (Traffic.note id) t)
      rw [List.foldl_append, hDue, sends_append, List.countP_append, hNone]
      by_cases hHere : msg.arg1 = id
      · simp [hHere, Traffic.note, Traffic.send, Traffic.due, sends, AcknowledgesOn, Message.empty,
          Nat.add_right_comm]
      · simp [hHere, Traffic.note, Traffic.due, sends, AcknowledgesOn, Message.empty]
  | acknowledged hCommand hStream hPumped =>
      obtain ⟨hDue, hNone⟩ := hPumped.due id t
      rw [hDue, hNone, Nat.add_zero]
  | refused hCommand =>
      simp only [List.foldl_cons, List.foldl_nil, Traffic.note]
      split
      · simp [Traffic.send_due, sends, AcknowledgesOn, Message.empty]
      · simp [sends, AcknowledgesOn, Message.empty]
  | closed | missed => rfl

/-- Nothing is sent on a stream that is gone. -/
theorem quiet (h : Reaction services device msg device' events) {id : UInt32} (hId : id ≠ 0)
    (hOld : id ≠ device.nextId) (hNone : device.streams id = none) {out : Message} (hSent : .sent out ∈ events) :
    out.arg0 ≠ id := by
  have hElsewhere : ∀ {stream : DeviceStream Handler}, device.streams msg.arg1 = some stream → msg.arg1 ≠ id := by
    rintro stream hStream rfl
    rw [hNone] at hStream
    cases hStream
  cases h with
  | accepted hCommand hPumped =>
      rcases List.mem_append.mp hSent with hFirst | hMore
      · obtain rfl : out = .empty .okay device.nextId msg.arg0 := by simpa using hFirst
        exact hOld.symm
      · rw [hPumped.sends_on hMore]
        exact hOld.symm
  | written hCommand hStream hPumped =>
      rcases List.mem_append.mp hSent with hFirst | hMore
      · obtain rfl : out = .empty .okay msg.arg1 msg.arg0 := by simpa using hFirst
        exact hElsewhere hStream
      · rw [hPumped.sends_on hMore]
        exact hElsewhere hStream
  | acknowledged hCommand hStream hPumped =>
      rw [hPumped.sends_on hSent]
      exact hElsewhere hStream
  | refused hCommand =>
      obtain rfl := DeviceEvent.sent.inj (List.mem_singleton.mp hSent)
      exact hId.symm
  | closed | missed => cases hSent

/-- What the device closes, its service has finished. -/
theorem finished (h : Reaction services device msg device' events) {out : Message} (hSent : .sent out ∈ events)
    (hClose : out.command = .close) (hId : out.arg0 ≠ 0) :
    ∃ handler ∈ device.serviceAfter services msg out.arg0, services.finished handler = true := by
  cases h with
  | accepted hCommand hPumped hOpens =>
      rcases List.mem_append.mp hSent with hFirst | hMore
      · obtain rfl : out = .empty .okay device.nextId msg.arg0 := by simpa using hFirst
        cases hClose
      · obtain ⟨shared', handler', hStart, hOpen⟩ := hOpens
        refine ⟨_, ?_, hPumped.finished hMore hClose⟩
        rw [hPumped.sends_on hMore, Device.serviceAfter, hCommand]
        simp [hStart, hOpen]
  | written hCommand hStream hPumped hData =>
      rcases List.mem_append.mp hSent with hFirst | hMore
      · obtain rfl : out = .empty .okay msg.arg1 msg.arg0 := by simpa using hFirst
        cases hClose
      · refine ⟨_, ?_, hPumped.finished hMore hClose⟩
        rw [hPumped.sends_on hMore, Device.serviceAfter, hCommand]
        simp [hStream, hData]
  | acknowledged hCommand hStream hPumped =>
      refine ⟨_, ?_, hPumped.finished hSent hClose⟩
      rw [hPumped.sends_on hSent, Device.serviceAfter, hCommand]
      simp [hStream]
  | refused hCommand =>
      obtain rfl := DeviceEvent.sent.inj (List.mem_singleton.mp hSent)
      exact absurd rfl hId
  | closed | missed => cases hSent

/-- Within a step nothing is sent on a stream after its close. -/
theorem closesLast (h : Reaction services device msg device' events) (id : UInt32) :
    ClosesLast id (sends events) := by
  cases h with
  | accepted hCommand hPumped | written hCommand hStream hPumped =>
      rw [sends_append]
      refine List.pairwise_append.mpr ⟨by simp [sends], hPumped.closesLast id, ?_⟩
      intro first hFirst later hLater hClose
      obtain rfl : first = .empty .okay _ _ := by simpa [sends] using hFirst
      cases hClose
  | acknowledged hCommand hStream hPumped => exact hPumped.closesLast id
  | refused | closed | missed => simp [sends, ClosesLast]

/-- Within a step nothing is sent after an end. -/
theorem endsLast (h : Reaction services device msg device' events) (hostId : UInt32) :
    EndsLast hostId (sends events) := by
  cases h with
  | accepted hCommand hPumped | written hCommand hStream hPumped =>
      rw [sends_append]
      refine List.pairwise_append.mpr ⟨by simp [sends], hPumped.endsLast hostId, ?_⟩
      intro first hFirst later hLater hCloses
      obtain rfl : first = .empty .okay _ _ := by simpa [sends] using hFirst
      cases hCloses.1
  | acknowledged hCommand hStream hPumped => exact hPumped.endsLast hostId
  | refused | closed | missed => simp [sends, EndsLast]

end Reaction

/-- A stream counts as closed when its end has been sent. -/
theorem traffic_closed (id : UInt32) (trace : List DeviceEvent) :
    (traffic id trace).closed = true ↔ ∃ msg ∈ sends trace, msg.command = .close ∧ msg.arg0 = id := by
  induction trace using List.reverseRecOn with
  | nil => simp [traffic, Traffic.empty, sends]
  | append_singleton trace event ih =>
      rw [traffic_append, List.foldl_cons, List.foldl_nil, sends_append]
      cases event with
      | sent msg =>
          rw [show sends [.sent msg] = [msg] from rfl, Traffic.note]
          by_cases hId : msg.arg0 = id
          · cases hCommand : msg.command <;> simp [Traffic.send, hId, hCommand, ih, or_and_right, exists_or]
          · simp [hId, ih, or_and_right, exists_or]
      | received msg =>
          rw [show sends [.received msg] = [] from rfl, Traffic.note, List.append_nil, ← ih]
          split
          · unfold Traffic.receive
            split <;> rfl
          · rfl
      | opened _ _ | given _ _ | replied _ _ =>
          rw [show sends [_] = [] from rfl, Traffic.note, List.append_nil, ← ih]
          split <;> rfl

namespace Device

variable {Shared Handler : Type} {services : Services Shared Handler} {maxPayload : UInt32} {shared : Shared}
  {allowed : List DeviceEvent → Device Shared Handler → Message → Prop} {trace : List DeviceEvent}
  {device : Device Shared Handler}

/-- The numbers that have been given are those below the next one. -/
theorem opened_number (hRun : Transition.Runs (step services) allowed (start maxPayload shared) trace device)
    (hLimit : opens trace ≤ idLimit) {id hostId : UInt32} (hOpened : .opened id hostId ∈ trace) :
    100 ≤ id.toNat ∧ id.toNat < device.nextId.toNat := by
  induction hRun with
  | start => cases hOpened
  | @next trace before after msg events hRun hAllowed hTaken ih =>
      have hBefore := Nat.le_trans (opens_mono _ _) hLimit
      obtain ⟨hAccounted, -⟩ := accounted_of_runs hRun hBefore
      obtain ⟨hNext, -⟩ := accounted_of_runs (hRun.next hAllowed hTaken) hLimit
      have hOld := hAccounted.number
      have hNew := hNext.number
      rw [opens, List.countP_append, ← opens, ← opens] at hNew
      rcases List.mem_append.mp hOpened with hEarlier | hNow
      · obtain ⟨hFrom, hTo⟩ := ih hBefore hEarlier
        omega
      · have hOne : 0 < opens events := List.countP_pos_iff.mpr ⟨_, hNow, rfl⟩
        obtain ⟨more, rfl, hReaction⟩ := step_cases hTaken
        obtain ⟨rfl, -⟩ := hReaction.opened ((List.mem_cons.mp hNow).resolve_left (by simp))
        omega

/-- The next number is a new one. -/
theorem unopened_next (hRun : Transition.Runs (step services) allowed (start maxPayload shared) trace device)
    (hLimit : opens trace ≤ idLimit) (hostId : UInt32) : .opened device.nextId hostId ∉ trace :=
  fun hOpened => Nat.lt_irrefl _ (opened_number hRun hLimit hOpened).2

/-- Who asks for a stream is refused or has one opened, not both. -/
theorem answers_of_runs (hRun : Transition.Runs (step services) allowed (start maxPayload shared) trace device)
    (hLimit : opens trace ≤ idLimit) (hostId : UInt32) :
    (sends trace).countP (RefusesTo hostId) + trace.countP (OpenedFor hostId) ≤
      (receipts trace).countP (Message.OpensFrom hostId) := by
  induction hRun with
  | start => exact Nat.le_refl _
  | @next trace device _ msg _ hRun hAllowed hTaken ih =>
      have hBefore := Nat.le_trans (opens_mono _ _) hLimit
      obtain ⟨hAccounted, -⟩ := accounted_of_runs hRun hBefore
      obtain ⟨more, rfl, hReaction⟩ := step_cases hTaken
      have hMore := hReaction.answers_once hAccounted.zero hAccounted.nextId_ne hostId
      have hEarlier := ih hBefore
      have hReceipts : (receipts (.received msg :: more)).countP (Message.OpensFrom hostId) =
          (receipts more).countP (Message.OpensFrom hostId) + if Message.OpensFrom hostId msg then 1 else 0 := by
        simp [receipts, List.countP_cons]
      have hHere : (DeviceEvent.received msg :: more).countP (OpenedFor hostId) =
          more.countP (OpenedFor hostId) := by
        simp [OpenedFor]
      rw [sends_append, receipts_append, List.countP_append, List.countP_append, List.countP_append, hReceipts, hHere]
      change _ + (sends more).countP _ + _ ≤ _
      omega

/-- A stream whose end was sent is gone for good. -/
theorem gone_of_runs (hRun : Transition.Runs (step services) allowed (start maxPayload shared) trace device)
    (hLimit : opens trace ≤ idLimit) {msg : Message} (hSent : .sent msg ∈ trace) (hClose : msg.command = .close) :
    device.streams msg.arg0 = none := by
  induction hRun with
  | start => cases hSent
  | @next trace before after taken events hRun hAllowed hTaken ih =>
      have hBefore := Nat.le_trans (opens_mono _ _) hLimit
      obtain ⟨hAccounted, -⟩ := accounted_of_runs hRun hBefore
      obtain ⟨more, rfl, hReaction⟩ := step_cases hTaken
      rcases List.mem_append.mp hSent with hEarlier | hNow
      · apply hReaction.streams_none (ih hBefore hEarlier)
        intro hNext
        have hId : msg.arg0 ≠ 0 := hNext ▸ hAccounted.nextId_ne
        have hOpened := sent_to_host hRun hBefore hEarlier (Or.inr hClose) hId
        rw [hNext] at hOpened
        exact unopened_next hRun hBefore _ hOpened
      · exact hReaction.gone hAccounted.zero ((List.mem_cons.mp hNow).resolve_left (by simp)) hClose

/-- On each stream the device has acknowledged the open and what the service was given. -/
theorem due_of_runs (hRun : Transition.Runs (step services) allowed (start maxPayload shared) trace device)
    (hLimit : opens trace ≤ idLimit) (id : UInt32) :
    (sends trace).countP (AcknowledgesOn id) = (traffic id trace).due := by
  induction hRun with
  | start => rfl
  | @next trace before after taken events hRun hAllowed hTaken ih =>
      have hBefore := Nat.le_trans (opens_mono _ _) hLimit
      obtain ⟨more, rfl, hReaction⟩ := step_cases hTaken
      obtain ⟨hAccounted, -⟩ := accounted_of_runs hRun hBefore
      have hHost : id = before.nextId → ((traffic id trace).note id (.received taken)).host = none := by
        rintro rfl
        have hSilent := (hAccounted.silent before.nextId hAccounted.nextId_ne (by omega)).2
        rw [Traffic.note]
        split
        · rw [Traffic.receive_host, hSilent.host]
        · exact hSilent.host
      have hReceived : ((traffic id trace).note id (.received taken)).due = (traffic id trace).due := by
        rw [Traffic.note]
        split
        · exact Traffic.receive_due _ _
        · rfl
      rw [traffic_append, List.foldl_cons, hReaction.due hHost, hReceived, sends_append, List.countP_append,
        ih hBefore]
      rfl

/-- Nothing is sent on a stream after its close, and so it is closed once at most. -/
theorem closesLast_of_runs (hRun : Transition.Runs (step services) allowed (start maxPayload shared) trace device)
    (hLimit : opens trace ≤ idLimit) {id : UInt32} (hId : id ≠ 0) : ClosesLast id (sends trace) := by
  induction hRun with
  | start => exact List.Pairwise.nil
  | @next trace before after taken events hRun hAllowed hTaken ih =>
      have hBefore := Nat.le_trans (opens_mono _ _) hLimit
      obtain ⟨more, rfl, hReaction⟩ := step_cases hTaken
      rw [sends_append]
      refine List.pairwise_append.mpr ⟨ih hBefore, hReaction.closesLast id, ?_⟩
      rintro first hFirst later hLater hClose rfl
      have hGone := gone_of_runs hRun hBefore (mem_sends.mp hFirst) hClose
      have hOpened := sent_to_host hRun hBefore (mem_sends.mp hFirst) (Or.inr hClose) hId
      have hOld : first.arg0 ≠ before.nextId := by
        intro hNext
        rw [hNext] at hOpened
        exact unopened_next hRun hBefore _ hOpened
      exact hReaction.quiet hId hOld hGone
        ((List.mem_cons.mp (mem_sends.mp hLater)).resolve_left (by simp))

/-- One who asks once is sent nothing after the end of the stream. -/
theorem endsLast_of_runs (hRun : Transition.Runs (step services) allowed (start maxPayload shared) trace device)
    (hLimit : opens trace ≤ idLimit) {hostId : UInt32}
    (hOnce : (receipts trace).countP (Message.OpensFrom hostId) ≤ 1) : EndsLast hostId (sends trace) := by
  induction hRun with
  | start => exact List.Pairwise.nil
  | @next trace before after taken events hRun hAllowed hTaken ih =>
      have hBefore := Nat.le_trans (opens_mono _ _) hLimit
      have hNext := hRun.next hAllowed hTaken
      have hAnswers := answers_of_runs hNext hLimit hostId
      obtain ⟨more, rfl, hReaction⟩ := step_cases hTaken
      have hEarlier := ih hBefore (by
        rw [receipts_append, List.countP_append] at hOnce
        omega)
      have hMore := hReaction.endsLast hostId
      rw [sends_append]
      refine List.pairwise_append.mpr ⟨hEarlier, hMore, ?_⟩
      rintro first hFirst later hLater ⟨hClose, hTo⟩ ⟨hWrite, hAlso⟩
      have hSent : .sent later ∈ more := (List.mem_cons.mp (mem_sends.mp hLater)).resolve_left (by simp)
      have hLaterId := id_of_payload hNext hLimit
        (List.mem_append_right _ (List.mem_cons_of_mem _ hSent)) hWrite
      have hLaterOpened := sent_to_host hNext hLimit
        (List.mem_append_right _ (List.mem_cons_of_mem _ hSent)) (Or.inl hWrite) hLaterId
      rw [hAlso] at hLaterOpened
      by_cases hId : first.arg0 = 0
      · -- The host was refused, so that no stream was opened for it.
        have hRefused : 0 < (sends trace).countP (RefusesTo hostId) :=
          List.countP_pos_iff.mpr ⟨first, hFirst, decide_eq_true ⟨hClose, hId, hTo⟩⟩
        have hOpened : 0 < (trace ++ .received taken :: more).countP (OpenedFor hostId) :=
          List.countP_pos_iff.mpr ⟨_, hLaterOpened, by simp [OpenedFor]⟩
        rw [sends_append, List.countP_append] at hAnswers
        omega
      · -- The stream is gone, and its number is not given again.
        have hFirstOpened := sent_to_host hRun hBefore (mem_sends.mp hFirst) (Or.inr hClose) hId
        rw [hTo] at hFirstOpened
        have hSame := opened_unique (by omega) (List.mem_append_left _ hFirstOpened) hLaterOpened
        have hGone := gone_of_runs hRun hBefore (mem_sends.mp hFirst) hClose
        rcases hReaction.sent hSent with
          ⟨hOkay, -⟩ | ⟨hOkay, -⟩ | ⟨hEnd, -⟩ | ⟨-, hOpened | ⟨stream, hStream, -⟩⟩
        · rw [hWrite] at hOkay
          cases hOkay
        · rw [hWrite] at hOkay
          cases hOkay
        · rw [hWrite] at hEnd
          cases hEnd
        · rw [hSame, (hReaction.opened hOpened).1] at hFirstOpened
          exact unopened_next hRun hBefore _ hFirstOpened
        · rw [← hSame, hGone] at hStream
          cases hStream

/-- Whatever messages a device is sent, its streams keep to their rules. What
goes out on a stream is what its service has replied, in order, in payloads that
are not empty and not too long, each of them after the last was acknowledged;
all of it has gone out when the stream is closed. The service was given what was
sent to it, as long as the stream stands. Nothing waits that may be sent. A closed
stream is gone, and all that goes out on a stream goes to the host that opened it.
The open is acknowledged once, and each write that the service is given once. Nothing
goes out on a stream after its close, and it is closed only when its service is
finished with the message that the device has taken. -/
theorem device_streams (hRun : Transition.Runs (step services) allowed (start maxPayload shared) trace device)
    (hLimit : opens trace ≤ idLimit) {id : UInt32} (hId : id ≠ 0) :
    (traffic id trace).Sound device.limit.toNat ∧
    (∀ stream ∈ device.streams id, (traffic id trace).Standing device.limit.toNat stream ∧
      Traffic.Pending services stream) ∧
    ((traffic id trace).closed = true → device.streams id = none) ∧
    (∀ msg ∈ sends trace, msg.arg0 = id → msg.command = .write ∨ msg.command = .close →
      (traffic id trace).host = some msg.arg1) ∧
    (sends trace).countP (AcknowledgesOn id) =
      (traffic id trace).given.length + (if (traffic id trace).host = none then 0 else 1) ∧
    ClosesLast id (sends trace) ∧
    ∀ msg next events out, step services device msg = some (next, events) → .sent out ∈ events →
      out.command = .close → out.arg0 = id →
      ∃ handler ∈ device.serviceAfter services msg id, services.finished handler = true := by
  obtain ⟨hAccounted, -⟩ := accounted_of_runs hRun hLimit
  refine ⟨hAccounted.sound hId, ?_, ?_, ?_, due_of_runs hRun hLimit id, closesLast_of_runs hRun hLimit hId, ?_⟩
  · intro stream hStream
    by_cases hInside : 100 ≤ id.toNat ∧ id.toNat < device.nextId.toNat
    · have hFollows := hAccounted.follows id hInside.1 hInside.2
      rwa [hStream] at hFollows
    · rw [(hAccounted.silent id hId hInside).1] at hStream
      cases hStream
  · intro hClosed
    obtain ⟨msg, hSent, hClose, rfl⟩ := (traffic_closed id trace).mp hClosed
    exact gone_of_runs hRun hLimit (mem_sends.mp hSent) hClose
  · rintro msg hSent rfl hCommand
    exact (host_iff hRun hLimit).mpr (sent_to_host hRun hLimit (mem_sends.mp hSent) hCommand hId)
  · rintro msg next events out hTaken hSent hClose rfl
    obtain ⟨more, rfl, hReaction⟩ := step_cases hTaken
    exact hReaction.finished ((List.mem_cons.mp hSent).resolve_left (by simp)) hClose hId

end Device

/-- A host asks for the output of a command, and acknowledges it. -/
theorem device_streams_command : ∃ trace device,
    Transition.Runs (Device.step services) (fun _ _ _ => True) (.start 4096 plainDevice) trace device ∧
    (traffic 100 trace).written = [ascii "uid=2000(shell) gid=2000(shell)\n"] ∧ device.streams 100 = none := by
  obtain ⟨trace, device, hRun, hSeen⟩ := Transition.Runs.of_execute (Device.step services) (fun _ _ _ => True)
    (.start 4096 plainDevice) [⟨.open, 1, 0, ascii "exec:id" ++ [0]⟩, .empty .okay 1 100]
    (fun result => (opens result.1, traffic 100 result.1))
    (1, ⟨some 1, [], [], 1, ascii "uid=2000(shell) gid=2000(shell)\n",
      [ascii "uid=2000(shell) gid=2000(shell)\n"], true⟩) (by decide +kernel)
  obtain ⟨hOpens, hTraffic⟩ := Prod.mk.inj hSeen
  have hLimit : opens trace ≤ idLimit := by rw [hOpens]; decide
  have hGone := (Device.device_streams hRun hLimit (by decide : (100 : UInt32) ≠ 0)).2.2.1
  rw [hTraffic] at hGone
  exact ⟨trace, device, hRun, by rw [hTraffic], hGone rfl⟩

end Rsadb.Fake
