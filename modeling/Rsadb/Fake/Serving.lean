import Rsadb.Fake.Delivery

/-! The service behind a stream. A law about what a handler has been given and
what it has replied, which every step of the handler keeps, holds of the traffic
of the stream that the handler serves. -/
namespace Rsadb.Fake

/-- A law about handlers, what they were given and what they have replied. -/
structure ServiceLaw {Shared Handler : Type} (services : Services Shared Handler) where
  Inv : Shared → Prop
  Holds : Handler → List Bytes → Bytes → Prop
  start : ∀ {shared shared' : Shared} {service : Bytes} {handler : Handler}, Inv shared →
    services.start shared service = some (shared', handler) → Inv shared'
  onOpen : ∀ {shared shared' : Shared} {handler handler' : Handler} {replies : List Bytes}, Inv shared →
    services.onOpen shared handler = (shared', handler', replies) → Inv shared'
  onData : ∀ {shared shared' : Shared} {handler handler' : Handler} {data : Bytes} {replies : List Bytes},
    Inv shared → services.onData shared handler data = (shared', handler', replies) → Inv shared'
  keeps : ∀ {shared shared' : Shared} {handler handler' : Handler} {data : Bytes} {replies : List Bytes}
    {given : List Bytes} {replied : Bytes}, Inv shared → Holds handler given replied →
    services.onData shared handler data = (shared', handler', replies) →
    Holds handler' (given ++ [data]) (replied ++ replies.flatten)

namespace ServiceLaw

variable {Shared Handler : Type} {services : Services Shared Handler} (law : ServiceLaw services)

/-- A service obeys the law if it does when it is opened. -/
def Obeys (service : Bytes) : Prop :=
  ∀ {shared shared' shared'' : Shared} {handler handler' : Handler} {replies : List Bytes}, law.Inv shared →
    services.start shared service = some (shared', handler) →
    services.onOpen shared' handler = (shared'', handler', replies) → law.Holds handler' [] replies.flatten

/-- The traffic of a stream is that of a handler which obeys the law. What was
closed by the device had finished. -/
def Governs (t : Traffic) (stream : Option (DeviceStream Handler)) : Prop :=
  ∃ handler, law.Holds handler t.given t.replies ∧ (∀ standing ∈ stream, standing.handler = handler) ∧
    (t.closed = true → services.finished handler = true)

variable {law} {t : Traffic} {stream : Option (DeviceStream Handler)} {id : UInt32}

/-- What arrives is nothing to the law, until the handler is given it. -/
theorem Governs.received (h : law.Governs t stream) (msg : Message) :
    law.Governs (t.note id (.received msg)) stream := by
  obtain ⟨handler, hHolds, hStanding, hClosed⟩ := h
  refine ⟨handler, ?_⟩
  rw [Traffic.note]
  split
  · unfold Traffic.receive
    split <;> exact ⟨hHolds, hStanding, hClosed⟩
  · exact ⟨hHolds, hStanding, hClosed⟩

/-- Pumping leaves the handler alone, and closes only what has finished. -/
theorem governs_pumped {standing : DeviceStream Handler} {more : List DeviceEvent}
    (h : Pumped services id standing stream more) (hHolds : law.Holds standing.handler t.given t.replies)
    (hOpen : t.closed = false) : law.Governs (more.foldl (Traffic.note id) t) stream := by
  cases h with
  | waits | rests =>
      refine ⟨standing.handler, hHolds, by simp, fun hClosed => ?_⟩
      rw [List.foldl_nil, hOpen] at hClosed
      cases hClosed
  | wrote =>
      simp only [List.foldl_cons, List.foldl_nil, Traffic.note, ↓reduceIte, Traffic.send]
      refine ⟨standing.handler, hHolds, by simp, fun hClosed => ?_⟩
      rw [hOpen] at hClosed
      cases hClosed
  | closed hFlight hQueue hFinished =>
      simp only [List.foldl_cons, List.foldl_nil, Traffic.note, Message.empty, ↓reduceIte, Traffic.send]
      exact ⟨standing.handler, hHolds, by simp, fun _ => hFinished⟩

end ServiceLaw

namespace Reaction

variable {Shared Handler : Type} {services : Services Shared Handler} {device device' : Device Shared Handler}
  {msg : Message} {events : List DeviceEvent} {law : ServiceLaw services} {id : UInt32} {t : Traffic}

/-- The state that the services share stays as the law wants it. -/
theorem inv (h : Reaction services device msg device' events) (hInv : law.Inv device.shared) :
    law.Inv device'.shared := by
  cases h with
  | accepted hCommand hPumped hOpens =>
      obtain ⟨shared', handler', hStart, hOpen⟩ := hOpens
      exact law.onOpen (law.start hInv hStart) hOpen
  | written hCommand hStream hPumped hData => exact law.onData hInv hData
  | refused | acknowledged | closed | missed => exact hInv

/-- A reaction keeps the law for a stream that is there. -/
theorem governs (h : Reaction services device msg device' events) (hInv : law.Inv device.shared) (hId : id ≠ 0)
    (hOld : id ≠ device.nextId) (hOpen : ∀ stream ∈ device.streams id, t.closed = false)
    (hGoverns : law.Governs t (device.streams id)) :
    law.Governs (events.foldl (Traffic.note id) (t.note id (.received msg))) (device'.streams id) := by
  have hReceived := @ServiceLaw.Governs.received _ _ _ law _ _ id hGoverns msg
  cases h with
  | accepted hCommand hPumped =>
      rw [List.foldl_append, hPumped.other (Ne.symm hOld), Device.setStream_streams, Function.update_of_ne hOld]
      simpa [Traffic.note, Message.empty, Ne.symm hOld] using hReceived
  | refused hCommand => simpa [Traffic.note, Message.empty, Ne.symm hId] using hReceived
  | @written shared stream handler replies after more hCommand hStream hPumped hData =>
      by_cases hHere : msg.arg1 = id
      · subst hHere
        have hStands := hOpen stream hStream
        obtain ⟨_, hHolds, hSame, -⟩ := hGoverns
        obtain rfl := hSame stream hStream
        rw [List.foldl_append, Device.setStream_streams, Function.update_self]
        apply ServiceLaw.governs_pumped hPumped
        · simpa [Traffic.note, Traffic.receive, Traffic.send, Message.empty, hCommand] using
            law.keeps hInv hHolds hData
        · simpa [Traffic.note, Traffic.receive, Traffic.send, Message.empty, hCommand] using hStands
      · rw [List.foldl_append, hPumped.other hHere, Device.setStream_streams, Function.update_of_ne (Ne.symm hHere)]
        simpa [Traffic.note, Message.empty, hHere] using hReceived
  | @acknowledged stream after more hCommand hStream hPumped =>
      by_cases hHere : msg.arg1 = id
      · subst hHere
        have hStands := hOpen stream hStream
        obtain ⟨_, hHolds, hSame, -⟩ := hGoverns
        obtain rfl := hSame stream hStream
        rw [Device.setStream_streams, Function.update_self]
        apply ServiceLaw.governs_pumped hPumped
        · simpa [Traffic.note, Traffic.receive, hCommand] using hHolds
        · simpa [Traffic.note, Traffic.receive, hCommand] using hStands
      · rw [hPumped.other hHere, Device.setStream_streams, Function.update_of_ne (Ne.symm hHere)]
        exact hReceived
  | closed hCommand =>
      obtain ⟨handler, hHolds, hStanding, hClosed⟩ := hReceived
      refine ⟨handler, hHolds, ?_, hClosed⟩
      rw [Device.setStream_streams, Function.update_apply]
      split
      · simp
      · exact hStanding
  | missed hCommand hStream => exact hReceived

/-- A stream that is opened comes under the law. -/
theorem governs_opened (h : Reaction services device msg device' events) {hostId : UInt32}
    (hOpened : .opened id hostId ∈ events) (hInv : law.Inv device.shared) (hSilent : t.Silent) :
    Message.OpensFrom hostId msg ∧ (law.Obeys (Text.trimEnd 0 (Utf8.lossy msg.payload)) →
      law.Governs (events.foldl (Traffic.note id) (t.note id (.received msg))) (device'.streams id)) := by
  cases h with
  | accepted hCommand hPumped hOpens =>
      have hNone := hPumped.unopened
      simp only [List.mem_append, List.mem_cons, reduceCtorEq, DeviceEvent.opened.injEq, List.not_mem_nil,
        or_false, false_or, hNone] at hOpened
      obtain ⟨rfl, rfl⟩ := hOpened
      refine ⟨⟨hCommand, rfl⟩, fun hObeys => ?_⟩
      obtain ⟨shared', handler', hStart, hOpen⟩ := hOpens
      rw [List.foldl_append, Device.setStream_streams, Function.update_self]
      apply ServiceLaw.governs_pumped hPumped
      · have hHolds := hObeys hInv hStart hOpen
        by_cases hTo : msg.arg1 = device.nextId <;>
          simpa [Traffic.note, Traffic.receive, Traffic.send, Message.empty, hCommand, hTo, hSilent.given,
            hSilent.replies] using hHolds
      · by_cases hTo : msg.arg1 = device.nextId <;>
          simp [Traffic.note, Traffic.receive, Traffic.send, Message.empty, hCommand, hTo, hSilent.unclosed]
  | written hCommand hStream hPumped => simp [hPumped.unopened] at hOpened
  | acknowledged hCommand hStream hPumped => exact absurd hOpened (hPumped.unopened _ _)
  | refused | closed | missed => simp at hOpened

end Reaction

/-- Each stream was opened by a request, and if its service obeys the law the
traffic of the stream is under the law. -/
theorem Device.governed_of_runs {Shared Handler : Type} {services : Services Shared Handler}
    (law : ServiceLaw services) {maxPayload : UInt32} {shared : Shared}
    {allowed : List DeviceEvent → Device Shared Handler → Message → Prop} {trace : List DeviceEvent}
    {device : Device Shared Handler} (hInv : law.Inv shared)
    (hRun : Transition.Runs (step services) allowed (start maxPayload shared) trace device)
    (hLimit : opens trace ≤ idLimit) : law.Inv device.shared ∧
    ∀ id hostId, .opened id hostId ∈ trace → ∃ request ∈ receipts trace, Message.OpensFrom hostId request ∧
      (law.Obeys (Text.trimEnd 0 (Utf8.lossy request.payload)) →
        law.Governs (traffic id trace) (device.streams id)) := by
  induction hRun with
  | start => exact ⟨hInv, by simp⟩
  | @next trace before after msg events hRun hAllowed hTaken ih =>
      have hBefore := Nat.le_trans (opens_mono _ _) hLimit
      obtain ⟨hAccounted, -⟩ := accounted_of_runs hRun hBefore
      obtain ⟨hShared, hGoverned⟩ := ih hBefore
      obtain ⟨more, rfl, hReaction⟩ := step_cases hTaken
      refine ⟨hReaction.inv hShared, fun id hostId hOpened => ?_⟩
      rw [traffic_append, List.foldl_cons, receipts_append]
      rcases List.mem_append.mp hOpened with hEarlier | hNow
      · obtain ⟨request, hMem, hOpens, hObeys⟩ := hGoverned id hostId hEarlier
        refine ⟨request, List.mem_append_left _ hMem, hOpens, fun hThis => ?_⟩
        obtain ⟨hFrom, hTo⟩ := opened_number hRun hBefore hEarlier
        apply hReaction.governs hShared _ _ _ (hObeys hThis)
        · rintro rfl
          cases hFrom
        · rintro rfl
          exact Nat.lt_irrefl _ hTo
        · intro stream hStream
          have hFollows := hAccounted.follows id hFrom hTo
          rw [hStream] at hFollows
          exact hFollows.1.unclosed
      · obtain ⟨rfl, -⟩ := hReaction.opened ((List.mem_cons.mp hNow).resolve_left (by simp))
        have hSilent := (hAccounted.silent before.nextId hAccounted.nextId_ne
          fun hInside => Nat.lt_irrefl _ hInside.2).2
        obtain ⟨hOpens, hObeys⟩ :=
          hReaction.governs_opened ((List.mem_cons.mp hNow).resolve_left (by simp)) hShared hSilent
        exact ⟨msg, List.mem_append_right _ (by simp [receipts]), hOpens, hObeys⟩

end Rsadb.Fake
