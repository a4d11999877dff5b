import Rsadb.Fake.Traffic
import Rsadb.Session.Peer

/-! Which stream of the host a stream of the device belongs to. -/
namespace Rsadb.Fake

/-- The messages that the device has taken. -/
def receipts (trace : List DeviceEvent) : List Message :=
  trace.filterMap fun event => match event with
    | .received msg => some msg
    | _ => none

/-- The messages that the device has sent. -/
def sends (trace : List DeviceEvent) : List Message :=
  trace.filterMap fun event => match event with
    | .sent msg => some msg
    | _ => none

@[simp] theorem receipts_append (trace events : List DeviceEvent) :
    receipts (trace ++ events) = receipts trace ++ receipts events :=
  List.filterMap_append

@[simp] theorem sends_append (trace events : List DeviceEvent) :
    sends (trace ++ events) = sends trace ++ sends events :=
  List.filterMap_append

theorem mem_sends {trace : List DeviceEvent} {msg : Message} : msg ∈ sends trace ↔ .sent msg ∈ trace := by
  rw [sends, List.mem_filterMap]
  constructor
  · rintro ⟨event, hMember, hSent⟩
    cases event <;> cases hSent
    exact hMember
  · exact fun hMember => ⟨_, hMember, rfl⟩

/-- A stream is opened for the stream of a host. -/
def OpenedFor (hostId : UInt32) (event : DeviceEvent) : Prop := ∃ id, event = .opened id hostId

instance (hostId : UInt32) : DecidablePred (OpenedFor hostId)
  | .opened id other => decidable_of_iff (other = hostId) ⟨fun h => ⟨id, by rw [h]⟩, fun ⟨_, h⟩ => by cases h; rfl⟩
  | .received _ | .given _ _ | .replied _ _ | .sent _ => isFalse fun ⟨_, h⟩ => by cases h

namespace Traffic

/-- Only an opening gives a stream its host. -/
theorem foldl_host {id : UInt32} {events : List DeviceEvent} (h : ∀ hostId, .opened id hostId ∉ events)
    (t : Traffic) : (events.foldl (note id) t).host = t.host := by
  induction events generalizing t with
  | nil => rfl
  | cons event rest ih =>
      rw [List.foldl_cons, ih fun hostId hMem => h hostId (List.mem_cons_of_mem _ hMem)]
      cases event with
      | opened other hostId =>
          have hOther : other ≠ id := by
            rintro rfl
            exact h hostId List.mem_cons_self
          rw [note, if_neg hOther]
      | received msg =>
          rw [note]
          split
          · exact receive_host t msg
          · rfl
      | sent msg =>
          rw [note]
          split
          · unfold send
            split <;> rfl
          · rfl
      | given other data | replied other replies =>
          rw [note]
          split <;> rfl

/-- Until it is opened again a stream has been sent what has arrived for it. -/
theorem foldl_addressed {id : UInt32} {events : List DeviceEvent} (h : ∀ hostId, .opened id hostId ∉ events)
    (t : Traffic) : (events.foldl (note id) t).addressed = t.addressed ++ carried id (receipts events) := by
  induction events generalizing t with
  | nil => simp [receipts]
  | cons event rest ih =>
      rw [List.foldl_cons, ih fun hostId hMem => h hostId (List.mem_cons_of_mem _ hMem)]
      cases event with
      | opened other hostId =>
          have hOther : other ≠ id := by
            rintro rfl
            exact h hostId List.mem_cons_self
          rw [note, if_neg hOther]
          rfl
      | received msg =>
          have hFirst : carried id (receipts (.received msg :: rest)) =
              carried id [msg] ++ carried id (receipts rest) := carried_append id [msg] (receipts rest)
          rw [hFirst, carried_singleton, note]
          by_cases hId : msg.arg1 = id <;> cases hCommand : msg.command <;>
            simp [receive, Message.CarriesTo, hId, hCommand]
      | sent msg =>
          rw [note]
          split
          · unfold send
            split <;> rfl
          · rfl
      | given other data | replied other replies =>
          rw [note]
          split <;> rfl

/-- The host of a stream is one that opened it. -/
theorem opened_of_host {id hostId : UInt32} {trace : List DeviceEvent}
    (h : (traffic id trace).host = some hostId) : .opened id hostId ∈ trace := by
  induction trace using List.reverseRecOn with
  | nil => cases h
  | append_singleton trace event ih =>
      rw [List.mem_append, List.mem_singleton]
      rw [traffic_append] at h
      by_cases hOpened : ∃ other, event = .opened id other
      · obtain ⟨other, rfl⟩ := hOpened
        simp only [List.foldl_cons, List.foldl_nil, note, ↓reduceIte, Option.some.injEq] at h
        right
        rw [h]
      · left
        apply ih
        rw [← h, foldl_host]
        intro other hMem
        exact hOpened ⟨other, (List.mem_singleton.mp hMem).symm⟩

end Traffic

namespace Pumped

variable {Shared Handler : Type} {services : Services Shared Handler} {id : UInt32} {stream : DeviceStream Handler}
  {after : Option (DeviceStream Handler)} {more : List DeviceEvent}

/-- Pumping sends at most one message, a payload or the end of the stream. -/
theorem events_eq (h : Pumped services id stream after more) : more = [] ∨
    ∃ msg, more = [.sent msg] ∧ (msg.command = .write ∨ msg.command = .close) ∧ msg.arg0 = id ∧
      msg.arg1 = stream.hostId := by
  cases h with
  | waits | rests => exact Or.inl rfl
  | wrote => exact Or.inr ⟨_, rfl, Or.inl rfl, rfl, rfl⟩
  | closed => exact Or.inr ⟨_, rfl, Or.inr rfl, rfl, rfl⟩

/-- Nothing is opened by pumping. -/
theorem unopened (h : Pumped services id stream after more) (other hostId : UInt32) :
    .opened other hostId ∉ more := by
  cases h <;> simp

/-- Pumping takes no message. -/
theorem receipts_eq (h : Pumped services id stream after more) : receipts more = [] := by
  cases h <;> rfl

/-- Pumping acknowledges nothing. -/
theorem acknowledges (h : Pumped services id stream after more) (hostId : UInt32) :
    (sends more).countP (Message.AcknowledgesTo hostId) = 0 := by
  cases h <;> simp [sends, Message.AcknowledgesTo, Message.empty]

/-- Pumping opens nothing. -/
theorem opens_for (h : Pumped services id stream after more) (hostId : UInt32) :
    more.countP (OpenedFor hostId) = 0 := by
  cases h <;> simp [OpenedFor]

end Pumped

namespace Reaction

variable {Shared Handler : Type} {services : Services Shared Handler} {device device' : Device Shared Handler}
  {msg : Message} {events : List DeviceEvent}

/-- What the device sends in reaction to a message: an acknowledgement to the
sender of the message, a refusal, or what a stream has to send to its host. -/
theorem sent (h : Reaction services device msg device' events) {out : Message} (hSent : .sent out ∈ events) :
    (out.command = .okay ∧ .opened out.arg0 out.arg1 ∈ events) ∨
    (out.command = .okay ∧ msg.command = .write ∧ out.arg0 = msg.arg1 ∧ out.arg1 = msg.arg0) ∨
    (out.command = .close ∧ out.arg0 = 0) ∨
    ((out.command = .write ∨ out.command = .close) ∧ (.opened out.arg0 out.arg1 ∈ events ∨
      ∃ stream, device.streams out.arg0 = some stream ∧ stream.hostId = out.arg1)) := by
  cases h with
  | accepted hCommand hPumped =>
      rcases hPumped.events_eq with rfl | ⟨next, rfl, hNext, hFrom, hTo⟩
      · simp only [List.append_nil, List.mem_cons, DeviceEvent.sent.injEq, reduceCtorEq, List.not_mem_nil,
          or_false] at hSent
        subst hSent
        exact Or.inl ⟨rfl, by simp [Message.empty]⟩
      · simp only [List.cons_append, List.nil_append, List.mem_cons, DeviceEvent.sent.injEq, reduceCtorEq,
          List.not_mem_nil, or_false, false_or] at hSent
        rcases hSent with rfl | rfl
        · exact Or.inl ⟨rfl, by simp [Message.empty]⟩
        · right; right; right
          refine ⟨hNext, Or.inl ?_⟩
          rw [hFrom, hTo]
          simp
  | refused hCommand =>
      simp only [List.mem_singleton, DeviceEvent.sent.injEq] at hSent
      subst hSent
      exact Or.inr (Or.inr (Or.inl ⟨rfl, rfl⟩))
  | @written shared stream handler replies after more hCommand hStream hPumped =>
      rcases hPumped.events_eq with rfl | ⟨next, rfl, hNext, hFrom, hTo⟩
      · simp only [List.append_nil, List.mem_cons, DeviceEvent.sent.injEq, reduceCtorEq, List.not_mem_nil,
          or_false] at hSent
        subst hSent
        exact Or.inr (Or.inl ⟨rfl, hCommand, rfl, rfl⟩)
      · simp only [List.cons_append, List.nil_append, List.mem_cons, DeviceEvent.sent.injEq, reduceCtorEq,
          List.not_mem_nil, or_false, false_or] at hSent
        rcases hSent with rfl | rfl
        · exact Or.inr (Or.inl ⟨rfl, hCommand, rfl, rfl⟩)
        · right; right; right
          exact ⟨hNext, Or.inr ⟨stream, by rw [hFrom, hStream], hTo.symm⟩⟩
  | @acknowledged stream after more hCommand hStream hPumped =>
      rcases hPumped.events_eq with rfl | ⟨next, rfl, hNext, hFrom, hTo⟩
      · cases hSent
      · obtain rfl := DeviceEvent.sent.inj (List.mem_singleton.mp hSent)
        right; right; right
        exact ⟨hNext, Or.inr ⟨stream, by rw [hFrom, hStream], hTo.symm⟩⟩
  | closed | missed => cases hSent

/-- At most one acknowledgement is sent in reaction to a message, to one who asks for it. -/
theorem acknowledges (h : Reaction services device msg device' events) (hostId : UInt32) :
    (sends events).countP (Message.AcknowledgesTo hostId) ≤ if Message.AsksFrom hostId msg then 1 else 0 := by
  cases h with
  | accepted hCommand hPumped =>
      rw [sends_append, List.countP_append, hPumped.acknowledges, Nat.add_zero]
      simp [sends, Message.AcknowledgesTo, Message.AsksFrom, Ledger.Asks, Message.empty, hCommand, List.countP_cons]
  | written hCommand hStream hPumped =>
      rw [sends_append, List.countP_append, hPumped.acknowledges, Nat.add_zero]
      simp [sends, Message.AcknowledgesTo, Message.AsksFrom, Ledger.Asks, Message.empty, hCommand, List.countP_cons]
  | acknowledged hCommand hStream hPumped =>
      rw [hPumped.acknowledges]
      exact Nat.zero_le _
  | refused | closed | missed => simp [sends, Message.AcknowledgesTo, Message.empty]

/-- A stream is opened at most for one who asks for it. -/
theorem opens_for (h : Reaction services device msg device' events) (hostId : UInt32) :
    events.countP (OpenedFor hostId) ≤ if Message.OpensFrom hostId msg then 1 else 0 := by
  cases h with
  | accepted hCommand hPumped =>
      rw [List.countP_append, hPumped.opens_for, Nat.add_zero]
      by_cases hSame : msg.arg0 = hostId <;> simp [OpenedFor, Message.OpensFrom, hCommand, hSame]
  | written hCommand hStream hPumped =>
      rw [List.countP_append, hPumped.opens_for, Nat.add_zero]
      simp [OpenedFor]
  | acknowledged hCommand hStream hPumped =>
      rw [hPumped.opens_for]
      exact Nat.zero_le _
  | refused | closed | missed => simp [OpenedFor]

/-- A stream is opened only by a request for one. -/
theorem opens_le (h : Reaction services device msg device' events) :
    opens events ≤ if msg.command = .open then 1 else 0 := by
  cases h with
  | accepted hCommand hPumped =>
      rw [opens, List.countP_append, ← opens, ← opens, hPumped.opens_eq, if_pos hCommand]
      exact Nat.le_refl _
  | written hCommand hStream hPumped =>
      rw [opens, List.countP_append, ← opens, ← opens, hPumped.opens_eq]
      exact Nat.zero_le _
  | acknowledged hCommand hStream hPumped =>
      rw [hPumped.opens_eq]
      exact Nat.zero_le _
  | refused | closed | missed => exact Nat.zero_le _

/-- What is opened is the next stream. It has its host then, and nothing has been sent to it. -/
theorem opened (h : Reaction services device msg device' events) {id hostId : UInt32}
    (hOpened : .opened id hostId ∈ events) : id = device.nextId ∧ msg.command = .open ∧
    ∀ t, (events.foldl (Traffic.note id) t).host = some hostId ∧
      (events.foldl (Traffic.note id) t).addressed = [] := by
  cases h with
  | accepted hCommand hPumped =>
      have hNone := hPumped.unopened
      simp only [List.mem_append, List.mem_cons, reduceCtorEq, DeviceEvent.opened.injEq, List.not_mem_nil,
        or_false, false_or, hNone] at hOpened
      obtain ⟨rfl, rfl⟩ := hOpened
      refine ⟨rfl, hCommand, fun t => ?_⟩
      rw [List.foldl_append, Traffic.foldl_host fun hostId => hNone _ hostId,
        Traffic.foldl_addressed fun hostId => hNone _ hostId, hPumped.receipts_eq]
      simp [Traffic.note, Traffic.send, Message.empty]
  | written hCommand hStream hPumped => simp [hPumped.unopened] at hOpened
  | acknowledged hCommand hStream hPumped => exact absurd hOpened (hPumped.unopened _ _)
  | refused | closed | missed => simp at hOpened

end Reaction

namespace Device

variable {Shared Handler : Type} {services : Services Shared Handler} {maxPayload : UInt32} {shared : Shared}
  {allowed : List DeviceEvent → Device Shared Handler → Message → Prop} {trace : List DeviceEvent}
  {device : Device Shared Handler}

/-- A step takes one message and reacts to it. -/
theorem step_cases {device' : Device Shared Handler} {msg : Message} {events : List DeviceEvent}
    (h : step services device msg = some (device', events)) : ∃ more, events = .received msg :: more ∧
    Reaction services device msg device' more := by
  obtain ⟨⟨next, more⟩, hReact, hSame⟩ := Option.map_eq_some_iff.mp h
  cases hSame
  exact ⟨more, rfl, react_cases hReact⟩

/-- The device acknowledges at most what was asked for. -/
theorem acknowledges_of_runs
    (hRun : Transition.Runs (step services) allowed (start maxPayload shared) trace device) (hostId : UInt32) :
    (sends trace).countP (Message.AcknowledgesTo hostId) ≤ (receipts trace).countP (Message.AsksFrom hostId) := by
  induction hRun with
  | start => exact Nat.le_refl _
  | @next trace _ _ msg _ hRun hAllowed hTaken ih =>
      obtain ⟨more, rfl, hReaction⟩ := step_cases hTaken
      have hMore := hReaction.acknowledges hostId
      have hReceipts : (receipts (.received msg :: more)).countP (Message.AsksFrom hostId) =
          (receipts more).countP (Message.AsksFrom hostId) + if Message.AsksFrom hostId msg then 1 else 0 := by
        simp [receipts, List.countP_cons]
      rw [sends_append, receipts_append, List.countP_append, List.countP_append, hReceipts]
      change _ + (sends more).countP _ ≤ _
      omega

/-- The device opens at most the streams that were asked for. -/
theorem opened_of_runs
    (hRun : Transition.Runs (step services) allowed (start maxPayload shared) trace device) (hostId : UInt32) :
    trace.countP (OpenedFor hostId) ≤ (receipts trace).countP (Message.OpensFrom hostId) := by
  induction hRun with
  | start => exact Nat.le_refl _
  | @next trace _ _ msg _ hRun hAllowed hTaken ih =>
      obtain ⟨more, rfl, hReaction⟩ := step_cases hTaken
      have hMore := hReaction.opens_for hostId
      have hReceipts : (receipts (.received msg :: more)).countP (Message.OpensFrom hostId) =
          (receipts more).countP (Message.OpensFrom hostId) + if Message.OpensFrom hostId msg then 1 else 0 := by
        simp [receipts, List.countP_cons]
      have hHere : (DeviceEvent.received msg :: more).countP (OpenedFor hostId) =
          more.countP (OpenedFor hostId) := by
        simp [OpenedFor]
      rw [receipts_append, List.countP_append, List.countP_append, hReceipts, hHere]
      omega

/-- One who asks once has one stream of the device. -/
theorem opened_unique {hostId : UInt32} (hOnce : trace.countP (OpenedFor hostId) ≤ 1) {id other : UInt32}
    (hOpened : .opened id hostId ∈ trace) (hOther : .opened other hostId ∈ trace) : id = other := by
  by_contra hApart
  have hPair : [DeviceEvent.opened id hostId, .opened other hostId].Nodup := by simp [hApart]
  have hSub := List.subperm_of_subset hPair (fun event hMem => by
    simp only [List.mem_cons, List.not_mem_nil, or_false] at hMem
    rcases hMem with rfl | rfl
    · exact hOpened
    · exact hOther : [DeviceEvent.opened id hostId, .opened other hostId] ⊆ trace)
  have hTwo : 2 ≤ trace.countP (OpenedFor hostId) := by
    refine Nat.le_trans (Nat.le_of_eq ?_) (hSub.countP_le _)
    simp [OpenedFor]
  omega

/-- No more streams are opened than requests for one have been taken. -/
theorem opens_of_runs
    (hRun : Transition.Runs (step services) allowed (start maxPayload shared) trace device) :
    opens trace ≤ (receipts trace).countP (fun msg => msg.command = .open) := by
  induction hRun with
  | start => exact Nat.le_refl _
  | @next trace _ _ msg _ hRun hAllowed hTaken ih =>
      obtain ⟨more, rfl, hReaction⟩ := step_cases hTaken
      have hMore := hReaction.opens_le
      have hReceipts : (receipts (.received msg :: more)).countP (fun msg => msg.command = .open) =
          (receipts more).countP (fun msg => msg.command = .open) + if msg.command = .open then 1 else 0 := by
        simp [receipts, List.countP_cons]
      have hHere : opens (.received msg :: more) = opens more := by
        rw [opens, List.countP_cons]
        rfl
      rw [receipts_append, List.countP_append, hReceipts, opens, List.countP_append, ← opens, ← opens, hHere]
      omega

/-- The counter is not at zero. -/
theorem Accounted.nextId_ne {trace : List DeviceEvent} {device : Device Shared Handler}
    (h : device.Accounted services trace) : device.nextId ≠ 0 := by
  intro hZero
  have hNumber := h.number
  rw [hZero] at hNumber
  change 0 = _ at hNumber
  omega

/-- What holds of the traffic of every stream. -/
theorem Accounted.sound {trace : List DeviceEvent} {device : Device Shared Handler}
    (h : device.Accounted services trace) {id : UInt32} (hId : id ≠ 0) :
    (traffic id trace).Sound device.limit.toNat := by
  by_cases hInside : 100 ≤ id.toNat ∧ id.toNat < device.nextId.toNat
  · exact (h.follows id hInside.1 hInside.2).sound
  · exact (h.silent id hId hInside).2.sound

/-- The host of a stream is the one that opened it. -/
theorem host_iff (hRun : Transition.Runs (step services) allowed (start maxPayload shared) trace device)
    (hLimit : opens trace ≤ idLimit) {id hostId : UInt32} :
    (traffic id trace).host = some hostId ↔ .opened id hostId ∈ trace := by
  refine ⟨Traffic.opened_of_host, fun hOpened => ?_⟩
  induction hRun with
  | start => cases hOpened
  | @next trace before after msg events hRun hAllowed hTaken ih =>
      have hBefore := Nat.le_trans (opens_mono _ _) hLimit
      obtain ⟨hAccounted, -⟩ := accounted_of_runs hRun hBefore
      obtain ⟨more, rfl, hReaction⟩ := step_cases hTaken
      rw [traffic_append]
      have hNow : ∀ {hostId}, .opened id hostId ∈ DeviceEvent.received msg :: more → .opened id hostId ∈ more :=
        fun hMem => (List.mem_cons.mp hMem).resolve_left (by simp)
      rcases List.mem_append.mp hOpened with hEarlier | hLater
      · -- The counter has gone past the id, so that it is not given again.
        have hHost := ih hBefore hEarlier
        rw [Traffic.foldl_host, hHost]
        intro other hMem
        obtain ⟨rfl, -⟩ := hReaction.opened (hNow hMem)
        have hPositive := hAccounted.nextId_ne
        have hSilent := (hAccounted.silent before.nextId hPositive fun hInside => Nat.lt_irrefl _ hInside.2).2
        rw [hSilent.host] at hHost
        cases hHost
      · exact ((hReaction.opened (hNow hLater)).2.2 _).1

/-- A stream that stands has been opened by its host. -/
theorem opened_of_stream {trace : List DeviceEvent} {device : Device Shared Handler}
    (h : device.Accounted services trace) {id : UInt32} (hId : id ≠ 0) {stream : DeviceStream Handler}
    (hStream : device.streams id = some stream) : .opened id stream.hostId ∈ trace := by
  apply Traffic.opened_of_host
  by_cases hInside : 100 ≤ id.toNat ∧ id.toNat < device.nextId.toNat
  · have hFollows := h.follows id hInside.1 hInside.2
    rw [hStream] at hFollows
    exact hFollows.1.host
  · rw [(h.silent id hId hInside).1] at hStream
    cases hStream

/-- The payloads and the end of a stream are sent to its host. -/
theorem sent_to_host (hRun : Transition.Runs (step services) allowed (start maxPayload shared) trace device)
    (hLimit : opens trace ≤ idLimit) {msg : Message} (hSent : .sent msg ∈ trace)
    (hCommand : msg.command = .write ∨ msg.command = .close) (hId : msg.arg0 ≠ 0) :
    .opened msg.arg0 msg.arg1 ∈ trace := by
  induction hRun with
  | start => cases hSent
  | @next trace before after taken events hRun hAllowed hTaken ih =>
      have hBefore := Nat.le_trans (opens_mono _ _) hLimit
      obtain ⟨hAccounted, -⟩ := accounted_of_runs hRun hBefore
      obtain ⟨more, rfl, hReaction⟩ := step_cases hTaken
      rw [List.mem_append] at hSent ⊢
      rcases hSent with hEarlier | hNow
      · exact Or.inl (ih hBefore hEarlier)
      · have hMore := (List.mem_cons.mp hNow).resolve_left (by simp)
        rcases hReaction.sent hMore with ⟨hOkay, -⟩ | ⟨hOkay, -⟩ | ⟨-, hZero⟩ | ⟨-, hOpened | hStream⟩
        · rw [hOkay] at hCommand
          simp at hCommand
        · rw [hOkay] at hCommand
          simp at hCommand
        · exact absurd hZero hId
        · exact Or.inr (List.mem_cons_of_mem _ hOpened)
        · obtain ⟨stream, hStream, hHost⟩ := hStream
          rw [← hHost]
          exact Or.inl (opened_of_stream hAccounted hId hStream)

/-- A payload is sent by a stream that has a number. -/
theorem id_of_payload (hRun : Transition.Runs (step services) allowed (start maxPayload shared) trace device)
    (hLimit : opens trace ≤ idLimit) {msg : Message} (hSent : .sent msg ∈ trace)
    (hCommand : msg.command = .write) : msg.arg0 ≠ 0 := by
  induction hRun with
  | start => cases hSent
  | @next trace before after taken events hRun hAllowed hTaken ih =>
      have hBefore := Nat.le_trans (opens_mono _ _) hLimit
      obtain ⟨hAccounted, -⟩ := accounted_of_runs hRun hBefore
      obtain ⟨more, rfl, hReaction⟩ := step_cases hTaken
      rcases List.mem_append.mp hSent with hEarlier | hNow
      · exact ih hBefore hEarlier
      · have hMore := (List.mem_cons.mp hNow).resolve_left (by simp)
        rcases hReaction.sent hMore with ⟨hOkay, -⟩ | ⟨hOkay, -⟩ | ⟨hClose, -⟩ | ⟨-, hOpened | hStream⟩
        · rw [hOkay] at hCommand
          cases hCommand
        · rw [hOkay] at hCommand
          cases hCommand
        · rw [hClose] at hCommand
          cases hCommand
        · rw [(hReaction.opened hOpened).1]
          exact hAccounted.nextId_ne
        · obtain ⟨stream, hStream, -⟩ := hStream
          intro hZero
          rw [hZero, hAccounted.zero] at hStream
          cases hStream

end Device

/-- The payloads in the account of a stream are those that the device has sent under its number. -/
theorem traffic_written (id : UInt32) (trace : List DeviceEvent) : (traffic id trace).written =
    ((sends trace).filter fun msg => msg.command = .write ∧ msg.arg0 = id).map Message.payload := by
  induction trace using List.reverseRecOn with
  | nil => rfl
  | append_singleton trace event ih =>
      rw [traffic_append, List.foldl_cons, List.foldl_nil, sends_append, List.filter_append, List.map_append, ← ih]
      cases event with
      | sent msg =>
          rw [show sends [.sent msg] = [msg] from rfl, Traffic.note]
          by_cases hId : msg.arg0 = id
          · cases hCommand : msg.command <;> simp [Traffic.send, hId, hCommand]
          · simp [hId]
      | received msg =>
          rw [show sends [.received msg] = [] from rfl, Traffic.note]
          split
          · unfold Traffic.receive
            split <;> simp
          · simp
      | opened _ _ | given _ _ | replied _ _ =>
          rw [show sends [_] = [] from rfl, Traffic.note]
          split <;> simp

/-- The acknowledgements in the account of a stream are those that the device has taken. -/
theorem traffic_okays (id : UInt32) (trace : List DeviceEvent) :
    (traffic id trace).okays = (receipts trace).countP (Message.AcknowledgesTo id) := by
  induction trace using List.reverseRecOn with
  | nil => rfl
  | append_singleton trace event ih =>
      rw [traffic_append, List.foldl_cons, List.foldl_nil, receipts_append, List.countP_append, ← ih]
      cases event with
      | received msg =>
          rw [show receipts [.received msg] = [msg] from rfl, Traffic.note]
          by_cases hId : msg.arg1 = id
          · cases hCommand : msg.command <;> simp [Traffic.receive, Message.AcknowledgesTo, hId, hCommand]
          · simp [Message.AcknowledgesTo, hId]
      | sent msg =>
          rw [show receipts [.sent msg] = [] from rfl, Traffic.note]
          split
          · unfold Traffic.send
            split <;> simp
          · simp
      | opened _ _ | given _ _ | replied _ _ =>
          rw [show receipts [_] = [] from rfl, Traffic.note]
          split <;> simp

end Rsadb.Fake
