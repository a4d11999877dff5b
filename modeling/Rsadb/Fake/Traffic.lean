import Rsadb.Fake.Engine

/-! The traffic of one stream as the device sees it. Whatever the host sends,
what a service replies goes out in order, one payload at a time, and all of it
before the stream is closed. -/
namespace Rsadb.Fake

/-- The account of one stream of the device. `addressed` are the payloads sent
to the stream since it was opened, `given` those that its service was given. -/
structure Traffic where
  host : Option UInt32
  addressed : List Bytes
  given : List Bytes
  okays : Nat
  replies : Bytes
  written : List Bytes
  closed : Bool
  deriving DecidableEq, Repr

namespace Traffic

def empty : Traffic := ⟨none, [], [], 0, [], [], false⟩

/-- A message that names the stream as its own has arrived. -/
def receive (t : Traffic) (msg : Message) : Traffic :=
  match msg.command with
  | .write => { t with addressed := t.addressed ++ [msg.payload] }
  | .okay => { t with okays := t.okays + 1 }
  | _ => t

def send (t : Traffic) (msg : Message) : Traffic :=
  match msg.command with
  | .write => { t with written := t.written ++ [msg.payload] }
  | .close => { t with closed := true }
  | _ => t

def note (id : UInt32) (t : Traffic) : DeviceEvent → Traffic
  | .received msg => if msg.arg1 = id then t.receive msg else t
  | .opened other hostId => if other = id then { t with host := some hostId, addressed := [] } else t
  | .given other data => if other = id then { t with given := t.given ++ [data] } else t
  | .replied other replies => if other = id then { t with replies := t.replies ++ replies.flatten } else t
  | .sent msg => if msg.arg0 = id then t.send msg else t

/-- A payload that the device may send. -/
def Sendable (limit : Nat) (payload : Bytes) : Prop := payload ≠ [] ∧ payload.length ≤ limit

/-- What holds of the traffic of a stream at all times. -/
structure Sound (limit : Nat) (t : Traffic) : Prop where
  sized : ∀ payload ∈ t.written, Sendable limit payload
  order : t.written.flatten <+: t.replies
  paced : t.written.length ≤ t.okays + 1
  fed : t.given <+: t.addressed
  whole : t.closed = true → t.written.flatten = t.replies

/-- What holds of it while the stream stands. -/
structure Standing {Handler : Type} (limit : Nat) (t : Traffic) (stream : DeviceStream Handler) : Prop where
  sized : ∀ payload ∈ t.written ++ stream.queue, Sendable limit payload
  host : t.host = some stream.hostId
  order : t.written.flatten ++ stream.queue.flatten = t.replies
  paced : t.written.length + (if stream.inFlight then 0 else 1) ≤ t.okays + 1
  fed : t.given = t.addressed
  unclosed : t.closed = false

/-- The stream has not been opened. -/
structure Silent (t : Traffic) : Prop where
  host : t.host = none
  given : t.given = []
  replies : t.replies = []
  written : t.written = []
  unclosed : t.closed = false

/-- Nothing waits unless something is in flight, and then for more of the service. -/
def Pending {Shared Handler : Type} (services : Services Shared Handler) (stream : DeviceStream Handler) : Prop :=
  stream.inFlight = false → stream.queue = [] ∧ services.finished stream.handler = false

/-- What holds of the traffic of a stream that has been opened. -/
def Follows {Shared Handler : Type} (services : Services Shared Handler) (limit : Nat) (t : Traffic) :
    Option (DeviceStream Handler) → Prop
  | some stream => t.Standing limit stream ∧ Pending services stream
  | none => t.host ≠ none ∧ t.Sound limit

variable {Shared Handler : Type} {services : Services Shared Handler} {limit : Nat} {t : Traffic}
  {stream : DeviceStream Handler}

theorem Standing.sound (h : t.Standing limit stream) : t.Sound limit where
  sized := fun payload hMem => h.sized payload (List.mem_append_left _ hMem)
  order := ⟨_, h.order⟩
  paced := Nat.le_trans (Nat.le_add_right _ _) h.paced
  fed := by rw [h.fed]
  whole := fun hClosed => by rw [h.unclosed] at hClosed; cases hClosed

theorem Silent.sound (h : t.Silent) : t.Sound limit where
  sized := by rw [h.written]; simp
  order := by rw [h.written]; exact List.nil_prefix
  paced := by rw [h.written]; exact Nat.zero_le _
  fed := by rw [h.given]; exact List.nil_prefix
  whole := fun hClosed => by rw [h.unclosed] at hClosed; cases hClosed

theorem Follows.sound {stream : Option (DeviceStream Handler)} (h : t.Follows services limit stream) : t.Sound limit := by
  cases stream with
  | some stream => exact Standing.sound h.1
  | none => exact h.2

/-- A message that arrives on a stream that stands. -/
theorem Sound.receive (h : t.Sound limit) (msg : Message) : (t.receive msg).Sound limit := by
  unfold Traffic.receive
  split
  · exact ⟨h.sized, h.order, h.paced, h.fed.trans (List.prefix_append _ _), h.whole⟩
  · exact ⟨h.sized, h.order, Nat.le_succ_of_le h.paced, h.fed, h.whole⟩
  · exact h

theorem Silent.receive (h : t.Silent) (msg : Message) : (t.receive msg).Silent := by
  unfold Traffic.receive
  split
  · exact ⟨h.host, h.given, h.replies, h.written, h.unclosed⟩
  · exact ⟨h.host, h.given, h.replies, h.written, h.unclosed⟩
  · exact h

theorem receive_host (t : Traffic) (msg : Message) : (t.receive msg).host = t.host := by
  unfold Traffic.receive
  split <;> rfl

end Traffic

/-- The payloads of replies carry all of them. -/
theorem flatten_chunked {max : Nat} (hMax : 0 < max) (replies : List Bytes) :
    (chunked replies max).flatten = replies.flatten := by
  induction replies with
  | nil => rfl
  | cons reply rest ih =>
      rw [chunked, List.flatMap_cons, List.flatten_append, Chunks.flatten_chunks hMax, ← chunked, ih,
        List.flatten_cons]

theorem sendable_chunked {max : Nat} {replies : List Bytes} {payload : Bytes} (h : payload ∈ chunked replies max) :
    Traffic.Sendable max payload := by
  obtain ⟨reply, -, hMem⟩ := List.mem_flatMap.mp h
  exact Chunks.mem_chunks hMem

theorem Device.limit_pos {Shared Handler : Type} (device : Device Shared Handler) : 0 < device.limit.toNat := by
  unfold Device.limit
  split
  · decide
  · rename_i hSome
    apply Nat.pos_of_ne_zero
    intro hZero
    exact hSome (UInt32.toNat_inj.mp hZero)

namespace Pumped

variable {Shared Handler : Type} {services : Services Shared Handler} {id : UInt32} {stream : DeviceStream Handler}
  {after : Option (DeviceStream Handler)} {more : List DeviceEvent} {limit : Nat} {t : Traffic}

/-- Pumping one stream is no traffic of another. -/
theorem other (h : Pumped services id stream after more) {other : UInt32} (hOther : id ≠ other) (t : Traffic) :
    more.foldl (Traffic.note other) t = t := by
  cases h with
  | waits | rests => rfl
  | wrote | closed => simp [Traffic.note, Message.empty, hOther]

/-- Pumping keeps the account of a stream. -/
theorem follows (h : Pumped services id stream after more) (hStanding : t.Standing limit stream) :
    (more.foldl (Traffic.note id) t).Follows services limit after := by
  cases h with
  | waits hFlight => exact ⟨hStanding, fun hIdle => by rw [hFlight] at hIdle; cases hIdle⟩
  | rests hFlight hQueue hFinished => exact ⟨hStanding, fun _ => ⟨hQueue, hFinished⟩⟩
  | wrote hFlight hQueue =>
      have hOrder := hStanding.order
      have hPaced := hStanding.paced
      have hSized := hStanding.sized
      rw [hQueue] at hSized
      rw [hQueue, List.flatten_cons] at hOrder
      rw [hFlight] at hPaced
      simp only [List.foldl_cons, List.foldl_nil, Traffic.note, ↓reduceIte, Traffic.send]
      refine ⟨⟨?_, hStanding.host, ?_, ?_, hStanding.fed, hStanding.unclosed⟩, by simp [Traffic.Pending]⟩
      · rwa [List.append_assoc]
      · simpa using hOrder
      · simpa using hPaced
  | closed hFlight hQueue hFinished =>
      have hSound := hStanding.sound
      have hOrder := hStanding.order
      rw [hQueue, List.flatten_nil, List.append_nil] at hOrder
      simp only [List.foldl_cons, List.foldl_nil, Traffic.note, Message.empty, ↓reduceIte, Traffic.send]
      refine ⟨?_, hSound.sized, hSound.order, hSound.paced, hSound.fed, fun _ => hOrder⟩
      rw [hStanding.host]
      simp

end Pumped

/-- Whether a stream is opened. -/
def DeviceEvent.opens : DeviceEvent → Bool
  | .opened _ _ => true
  | _ => false

/-- How many streams have been opened. -/
def opens (trace : List DeviceEvent) : Nat := trace.countP DeviceEvent.opens

/-- Nothing is opened by pumping. -/
theorem Pumped.opens_eq {Shared Handler : Type} {services : Services Shared Handler} {id : UInt32}
    {stream : DeviceStream Handler} {after : Option (DeviceStream Handler)} {more : List DeviceEvent}
    (h : Pumped services id stream after more) : opens more = 0 := by
  cases h <;> rfl

/-- The account of a stream after a trace. -/
def traffic (id : UInt32) (trace : List DeviceEvent) : Traffic := trace.foldl (Traffic.note id) .empty

theorem traffic_append (id : UInt32) (trace events : List DeviceEvent) :
    traffic id (trace ++ events) = events.foldl (Traffic.note id) (traffic id trace) := by
  rw [traffic, List.foldl_append, ← traffic]

namespace Reaction

variable {Shared Handler : Type} {services : Services Shared Handler} {device device' : Device Shared Handler}
  {msg : Message} {events : List DeviceEvent} {id : UInt32} {t : Traffic}

/-- A message other than WRTE and OKAY is nothing to the account. -/
private theorem receive_other (hWrite : msg.command ≠ .write) (hOkay : msg.command ≠ .okay) (t : Traffic) :
    t.note id (.received msg) = t := by
  simp only [Traffic.note, Traffic.receive, ite_self]

/-- A message on another stream is nothing to the account. -/
private theorem receive_elsewhere (hElsewhere : msg.arg1 ≠ id) (t : Traffic) :
    t.note id (.received msg) = t := by
  rw [Traffic.note, if_neg hElsewhere]

/-- A stream that is there keeps its account, whatever the device does. -/
theorem follows (h : Reaction services device msg device' events) (hId : id ≠ 0) (hOld : id ≠ device.nextId)
    (hFollows : t.Follows services device.limit.toNat (device.streams id)) :
    (events.foldl (Traffic.note id) (t.note id (.received msg))).Follows services device.limit.toNat
      (device'.streams id) := by
  cases h with
  | accepted hCommand hPumped =>
      rw [receive_other (by simp [hCommand]) (by simp [hCommand]), List.foldl_append,
        hPumped.other (Ne.symm hOld)]
      simpa [Traffic.note, Message.empty, Ne.symm hOld, Function.update_of_ne hOld] using hFollows
  | refused hCommand =>
      rw [receive_other (by simp [hCommand]) (by simp [hCommand])]
      simpa [Traffic.note, Message.empty, Ne.symm hId] using hFollows
  | @written shared stream handler replies after more hCommand hStream hPumped =>
      by_cases hHere : msg.arg1 = id
      · subst hHere
        rw [hStream] at hFollows
        obtain ⟨⟨hSized, hHost, hOrder, hPaced, hFed, hUnclosed⟩, -⟩ := hFollows
        rw [List.foldl_append, Device.setStream_streams, Function.update_self]
        apply hPumped.follows
        simp only [List.foldl_cons, List.foldl_nil, Traffic.note, Message.empty, ↓reduceIte, Traffic.receive,
          hCommand, Traffic.send]
        refine ⟨?_, hHost, ?_, hPaced, ?_, hUnclosed⟩
        · intro payload hMem
          rw [← List.append_assoc, List.mem_append] at hMem
          exact hMem.elim (hSized payload) sendable_chunked
        · rw [List.flatten_append, ← List.append_assoc, hOrder, flatten_chunked device.limit_pos]
        · rw [hFed]
      · rw [receive_elsewhere hHere, List.foldl_append, hPumped.other hHere]
        simpa [Traffic.note, Message.empty, hHere, Function.update_of_ne (Ne.symm hHere)] using hFollows
  | @acknowledged stream after more hCommand hStream hPumped =>
      by_cases hHere : msg.arg1 = id
      · subst hHere
        rw [hStream] at hFollows
        obtain ⟨⟨hSized, hHost, hOrder, hPaced, hFed, hUnclosed⟩, -⟩ := hFollows
        rw [Device.setStream_streams, Function.update_self]
        apply hPumped.follows
        simp only [Traffic.note, ↓reduceIte, Traffic.receive, hCommand]
        refine ⟨hSized, hHost, hOrder, ?_, hFed, hUnclosed⟩
        exact Nat.succ_le_succ (Nat.le_trans (Nat.le_add_right _ _) hPaced)
      · rw [receive_elsewhere hHere, hPumped.other hHere]
        simpa [Function.update_of_ne (Ne.symm hHere)] using hFollows
  | closed hCommand =>
      rw [receive_other (by simp [hCommand]) (by simp [hCommand]), Device.setStream_streams]
      by_cases hHere : msg.arg1 = id
      · subst hHere
        rw [Function.update_self]
        cases hStream : device.streams msg.arg1 with
        | some stream =>
            rw [hStream] at hFollows
            refine ⟨?_, Traffic.Follows.sound hFollows⟩
            rw [List.foldl_nil, Traffic.Standing.host hFollows.1]
            simp
        | none =>
            rw [hStream] at hFollows
            exact hFollows
      · rwa [Function.update_of_ne (Ne.symm hHere)]
  | missed hCommand hStream =>
      by_cases hHere : msg.arg1 = id
      · subst hHere
        rw [hStream] at hFollows ⊢
        simp only [List.foldl_nil, Traffic.note, ↓reduceIte]
        refine ⟨?_, hFollows.2.receive msg⟩
        rw [Traffic.receive_host]
        exact hFollows.1
      · rwa [receive_elsewhere hHere]

/-- No stream comes to be but under the next number. -/
theorem streams_none (h : Reaction services device msg device' events) (hNone : device.streams id = none)
    (hOld : id ≠ device.nextId) : device'.streams id = none := by
  cases h with
  | accepted hCommand hPumped =>
      rw [Device.setStream_streams, Function.update_of_ne hOld]
      exact hNone
  | refused | missed => exact hNone
  | written hCommand hStream hPumped | acknowledged hCommand hStream hPumped =>
      rw [Device.setStream_streams, Function.update_of_ne]
      · exact hNone
      · intro hHere
        rw [← hHere, hNone] at hStream
        cases hStream
  | closed hCommand =>
      rw [Device.setStream_streams, Function.update_apply, hNone, ite_self]

theorem limit (h : Reaction services device msg device' events) : device'.limit = device.limit := by
  cases h <;> rfl

/-- A stream that has not been opened has no traffic. -/
theorem silent (h : Reaction services device msg device' events) (hId : id ≠ 0)
    (hOld : id = device.nextId → opens events = 0)
    (hNone : device.streams id = none) (hSilent : t.Silent) : device'.streams id = none ∧
    (events.foldl (Traffic.note id) (t.note id (.received msg))).Silent := by
  have hElsewhere : ∀ {stream : DeviceStream Handler}, device.streams msg.arg1 = some stream → msg.arg1 ≠ id := by
    intro stream hStream hHere
    rw [hHere, hNone] at hStream
    cases hStream
  have hReceived : (t.note id (.received msg)).Silent := by
    rw [Traffic.note]
    split
    · exact hSilent.receive msg
    · exact hSilent
  cases h with
  | accepted hCommand hPumped =>
      have hOther : id ≠ device.nextId := fun hHere => by
        have hOne := hOld hHere
        rw [opens, List.countP_append, ← opens, ← opens, hPumped.opens_eq] at hOne
        cases hOne
      rw [List.foldl_append, hPumped.other (Ne.symm hOther), Device.setStream_streams,
        Function.update_of_ne hOther]
      refine ⟨hNone, ?_⟩
      simpa [Traffic.note, Message.empty, Ne.symm hOther] using hReceived
  | refused hCommand =>
      refine ⟨hNone, ?_⟩
      simpa [Traffic.note, Message.empty, Ne.symm hId] using hReceived
  | written hCommand hStream hPumped =>
      have hThere := hElsewhere hStream
      rw [List.foldl_append, hPumped.other hThere, Device.setStream_streams,
        Function.update_of_ne (Ne.symm hThere)]
      refine ⟨hNone, ?_⟩
      simpa [Traffic.note, Message.empty, hThere] using hReceived
  | acknowledged hCommand hStream hPumped =>
      have hThere := hElsewhere hStream
      rw [hPumped.other hThere, Device.setStream_streams, Function.update_of_ne (Ne.symm hThere)]
      exact ⟨hNone, hReceived⟩
  | closed hCommand =>
      refine ⟨?_, hReceived⟩
      rw [Device.setStream_streams, Function.update_apply]
      split
      · rfl
      · exact hNone
  | missed hCommand hStream => exact ⟨hNone, hReceived⟩

/-- The next stream is opened, or the number of streams stays. -/
theorem numbers (h : Reaction services device msg device' events) :
    (device'.nextId = device.nextId ∧ opens events = 0) ∨
    (device'.nextId = device.nextId + 1 ∧ opens events = 1 ∧
      ∀ {t : Traffic}, t.Silent → device.nextId ≠ 0 →
        (events.foldl (Traffic.note device.nextId) (t.note device.nextId (.received msg))).Follows
          services device.limit.toNat (device'.streams device.nextId)) := by
  cases h with
  | @accepted shared handler replies after more hCommand hPumped =>
      right
      refine ⟨rfl, ?_, ?_⟩
      · rw [opens, List.countP_append, ← opens, ← opens, hPumped.opens_eq]
        rfl
      · intro t hSilent hPositive
        rw [receive_other (by simp [hCommand]) (by simp [hCommand]), List.foldl_append,
          Device.setStream_streams, Function.update_self]
        apply hPumped.follows
        simp only [List.foldl_cons, List.foldl_nil, Traffic.note, Message.empty, ↓reduceIte, Traffic.send]
        refine ⟨?_, rfl, ?_, ?_, hSilent.given, hSilent.unclosed⟩
        · rw [hSilent.written]
          exact fun payload hMem => sendable_chunked hMem
        · rw [hSilent.written, hSilent.replies, flatten_chunked device.limit_pos]
          rfl
        · rw [hSilent.written]
          simp
  | written hCommand hStream hPumped =>
      left
      refine ⟨rfl, ?_⟩
      rw [opens, List.countP_append, ← opens, ← opens, hPumped.opens_eq]
      rfl
  | acknowledged hCommand hStream hPumped => exact Or.inl ⟨rfl, hPumped.opens_eq⟩
  | refused | closed | missed => exact Or.inl ⟨rfl, rfl⟩

end Reaction

/-- The streams that have been opened are numbered from 100 on. -/
structure Device.Accounted {Shared Handler : Type} (services : Services Shared Handler) (trace : List DeviceEvent)
    (device : Device Shared Handler) : Prop where
  number : device.nextId.toNat = 100 + opens trace
  follows : ∀ id : UInt32, 100 ≤ id.toNat → id.toNat < device.nextId.toNat →
    (traffic id trace).Follows services device.limit.toNat (device.streams id)
  silent : ∀ id : UInt32, id ≠ 0 → ¬(100 ≤ id.toNat ∧ id.toNat < device.nextId.toNat) →
    device.streams id = none ∧ (traffic id trace).Silent
  zero : device.streams 0 = none

/-- How many streams the device can open before its counter wraps. -/
def idLimit : Nat := 2 ^ 32 - 101

namespace Device

variable {Shared Handler : Type} {services : Services Shared Handler} {maxPayload : UInt32} {shared : Shared}
  {allowed : List DeviceEvent → Device Shared Handler → Message → Prop}

/-- A step keeps the accounts of all streams. -/
theorem accounted_step {trace events : List DeviceEvent} {device device' : Device Shared Handler} {msg : Message}
    (h : device.Accounted services trace) (hStep : step services device msg = some (device', events))
    (hLimit : opens (trace ++ events) ≤ idLimit) : device'.Accounted services (trace ++ events) := by
  obtain ⟨⟨next, more⟩, hReact, hSame⟩ := Option.map_eq_some_iff.mp hStep
  cases hSame
  have hReaction := react_cases hReact
  have hSized := hReaction.limit
  obtain ⟨hNumber, hFollows, hSilent, hZero⟩ := h
  have hOpens : opens (trace ++ .received msg :: more) = opens trace + opens more := by
    rw [opens, List.countP_append, List.countP_cons, ← opens, ← opens]
    rfl
  have hTraffic : ∀ id, traffic id (trace ++ .received msg :: more) =
      more.foldl (Traffic.note id) ((traffic id trace).note id (.received msg)) := fun id => by
    rw [traffic_append, List.foldl_cons]
  rw [hOpens] at hLimit
  have hNew : device.nextId ≠ 0 := fun hFirst => by
    rw [hFirst] at hNumber
    change 0 = _ at hNumber
    omega
  have hStill := hReaction.streams_none hZero (Ne.symm hNew)
  have hOld : ∀ id : UInt32, 100 ≤ id.toNat → id.toNat < device.nextId.toNat →
      (traffic id (trace ++ .received msg :: more)).Follows services next.limit.toNat (next.streams id) := by
    intro id hFrom hTo
    rw [hTraffic, hSized]
    apply hReaction.follows _ _ (hFollows id hFrom hTo)
    · rintro rfl
      cases hFrom
    · rintro rfl
      exact Nat.lt_irrefl _ hTo
  have hNever : ∀ id : UInt32, id ≠ 0 → (id = device.nextId → opens more = 0) → ¬(100 ≤ id.toNat ∧ id.toNat < device.nextId.toNat) →
      next.streams id = none ∧ (traffic id (trace ++ .received msg :: more)).Silent := by
    intro id hId hOther hOutside
    obtain ⟨hAbsent, hNothing⟩ := hSilent id hId hOutside
    rw [hTraffic]
    exact hReaction.silent hId hOther hAbsent hNothing
  rcases hReaction.numbers with ⟨hNext, hNone⟩ | ⟨hNext, hOne, hOpened⟩
  · constructor
    · rw [hNext, hNumber, hOpens, hNone]
      rfl
    · intro id hFrom hTo
      rw [hNext] at hTo
      exact hOld id hFrom hTo
    · intro id hId hOutside
      rw [hNext] at hOutside
      exact hNever id hId (fun _ => hNone) hOutside
    · exact hStill
  · have hAdded : next.nextId.toNat = device.nextId.toNat + 1 := by
      rw [hNext, UInt32.toNat_add]
      apply Nat.mod_eq_of_lt
      unfold idLimit at hLimit
      simp only [UInt32.reduceToNat]
      omega
    constructor
    · rw [hAdded, hNumber, hOpens, hOne]
      rfl
    · intro id hFrom hTo
      rcases Nat.lt_succ_iff_lt_or_eq.mp (hAdded ▸ hTo) with hBefore | hHere
      · exact hOld id hFrom hBefore
      · obtain rfl := UInt32.toNat_inj.mp hHere
        rw [hTraffic, hSized]
        exact hOpened (hSilent device.nextId hNew (fun hInside => Nat.lt_irrefl _ hInside.2)).2 hNew
    · intro id hId hOutside
      rw [hAdded] at hOutside
      apply hNever id hId
      · rintro rfl
        omega
      · omega
    · exact hStill

theorem accounted_start (maxPayload : UInt32) (shared : Shared) :
    (start maxPayload shared : Device Shared Handler).Accounted services [] where
  number := rfl
  follows := by
    intro id hFrom hTo
    exact absurd (Nat.lt_of_le_of_lt hFrom hTo) (Nat.lt_irrefl 100)
  silent := fun _ _ _ => ⟨rfl, rfl, rfl, rfl, rfl, rfl⟩
  zero := rfl

/-- The number of opened streams never falls. -/
theorem opens_mono (trace events : List DeviceEvent) : opens trace ≤ opens (trace ++ events) := by
  rw [opens, opens, List.countP_append]
  exact Nat.le_add_right _ _

/-- In every run the accounts of all streams are kept. -/
theorem accounted_of_runs {trace : List DeviceEvent} {device : Device Shared Handler}
    (hRun : Transition.Runs (step services) allowed (start maxPayload shared) trace device)
    (hLimit : opens trace ≤ idLimit) : device.Accounted services trace ∧ device.maxPayload = maxPayload := by
  induction hRun with
  | start => exact ⟨accounted_start maxPayload shared, rfl⟩
  | next hRun hAllowed hTaken ih =>
      obtain ⟨hAccounted, hSame⟩ := ih (Nat.le_trans (opens_mono _ _) hLimit)
      refine ⟨accounted_step hAccounted hTaken hLimit, ?_⟩
      obtain ⟨⟨next, more⟩, hReact, hNext⟩ := Option.map_eq_some_iff.mp hTaken
      cases hNext
      rw [← hSame]
      cases react_cases hReact <;> rfl

end Device
end Rsadb.Fake
