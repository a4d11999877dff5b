import Rsadb.Library.Chunks
import Rsadb.Library.Text
import Rsadb.Library.Transition
import Rsadb.Library.Utf8
import Rsadb.Wire.Message
import Mathlib.Logic.Function.Basic

/-! The emulated device's protocol engine: stream multiplexing after the
handshake. What it does is a function of the messages that it receives. -/
namespace Rsadb.Fake

/-- The services of a device: how one is opened, and the device side of one
stream, which produces output on open and in reply to data. All of them work on
the state that they share. -/
structure Services (Shared Handler : Type) where
  start : Shared → Bytes → Option (Shared × Handler)
  onOpen : Shared → Handler → Shared × Handler × List Bytes
  onData : Shared → Handler → Bytes → Shared × Handler × List Bytes
  finished : Handler → Bool

structure DeviceStream (Handler : Type) where
  hostId : UInt32
  handler : Handler
  queue : List Bytes
  inFlight : Bool

/-- The device with its streams, by their ids. -/
structure Device (Shared Handler : Type) where
  maxPayload : UInt32
  shared : Shared
  streams : UInt32 → Option (DeviceStream Handler)
  nextId : UInt32

/-- What happens on the device. -/
inductive DeviceEvent where
  | received (msg : Message)
  | opened (id hostId : UInt32)
  | given (id : UInt32) (data : Bytes)
  | replied (id : UInt32) (replies : List Bytes)
  | sent (msg : Message)
  deriving DecidableEq, Repr

/-- Replies as the payloads that carry them. None is empty. -/
def chunked (replies : List Bytes) (max : Nat) : List Bytes := replies.flatMap (Chunks.chunks max)

namespace Device

variable {Shared Handler : Type}

/-- A device after its handshake. -/
def start (maxPayload : UInt32) (shared : Shared) : Device Shared Handler :=
  ⟨maxPayload, shared, fun _ => none, 100⟩

/-- The largest payload of a message. A device that offers none has the limit of old ones. -/
def limit (device : Device Shared Handler) : UInt32 :=
  if device.maxPayload = 0 then LEGACY_MAX_PAYLOAD else device.maxPayload

def setStream (device : Device Shared Handler) (id : UInt32) (stream : Option (DeviceStream Handler)) :
    Device Shared Handler :=
  { device with streams := Function.update device.streams id stream }

/-- Send the next payload of a stream if none is in flight, or close the stream when there is nothing more. -/
def pump (services : Services Shared Handler) (device : Device Shared Handler) (id : UInt32) :
    Device Shared Handler × List DeviceEvent :=
  match device.streams id with
  | none => (device, [])
  | some stream =>
      if stream.inFlight then (device, [])
      else match stream.queue with
        | chunk :: rest =>
            (device.setStream id (some { stream with queue := rest, inFlight := true }),
              [.sent ⟨.write, id, stream.hostId, chunk⟩])
        | [] =>
            if services.finished stream.handler then
              (device.setStream id none, [.sent (.empty .close id stream.hostId)])
            else (device, [])

/-- Put more replies of a service behind those that wait. -/
def reply (device : Device Shared Handler) (id : UInt32) (stream : DeviceStream Handler)
    (answer : Shared × Handler × List Bytes) : Device Shared Handler :=
  { device with shared := answer.1 }.setStream id (some { stream with
    handler := answer.2.1
    queue := stream.queue ++ chunked answer.2.2 device.limit.toNat })

/-- Act on one message. No result means that the device gives up. -/
def react (services : Services Shared Handler) (device : Device Shared Handler) (msg : Message) :
    Option (Device Shared Handler × List DeviceEvent) :=
  match msg.command with
  | .open =>
      match services.start device.shared (Text.trimEnd 0 (Utf8.lossy msg.payload)) with
      | some (shared, handler) =>
          let id := device.nextId
          let answer := services.onOpen shared handler
          let pumped := pump services
            ({ device with nextId := id + 1 }.reply id ⟨msg.arg0, handler, [], false⟩ answer) id
          some (pumped.1, [.sent (.empty .okay id msg.arg0), .opened id msg.arg0, .replied id answer.2.2] ++
            pumped.2)
      | none => some (device, [.sent (.empty .close 0 msg.arg0)])
  | .write =>
      match device.streams msg.arg1 with
      | some stream =>
          let answer := services.onData device.shared stream.handler msg.payload
          let pumped := pump services (device.reply msg.arg1 stream answer) msg.arg1
          some (pumped.1, [.sent (.empty .okay msg.arg1 msg.arg0), .given msg.arg1 msg.payload,
            .replied msg.arg1 answer.2.2] ++ pumped.2)
      | none => some (device, [])
  | .okay =>
      match device.streams msg.arg1 with
      | some stream =>
          some (pump services (device.setStream msg.arg1 (some { stream with inFlight := false })) msg.arg1)
      | none => some (device, [])
  | .close => some (device.setStream msg.arg1 none, [])
  | .connect => none
  | .auth => none
  | .startTls => none
  | .sync => none

/-- One step of the device: it takes a message, and keeps a log of what it takes. -/
def step (services : Services Shared Handler) (device : Device Shared Handler) (msg : Message) :
    Option (Device Shared Handler × List DeviceEvent) :=
  (react services device msg).map fun next => (next.1, .received msg :: next.2)

theorem setStream_setStream (device : Device Shared Handler) (id : UInt32)
    (first second : Option (DeviceStream Handler)) :
    (device.setStream id first).setStream id second = device.setStream id second := by
  simp only [setStream, Function.update_idem]

theorem setStream_self {device : Device Shared Handler} {id : UInt32} {stream : Option (DeviceStream Handler)}
    (h : device.streams id = stream) : device.setStream id stream = device := by
  rw [setStream, ← h, Function.update_eq_self]

@[simp] theorem setStream_streams (device : Device Shared Handler) (id : UInt32)
    (stream : Option (DeviceStream Handler)) :
    (device.setStream id stream).streams = Function.update device.streams id stream := rfl

end Device

/-- What pumping a stream can be. -/
inductive Pumped {Shared Handler : Type} (services : Services Shared Handler) (id : UInt32)
    (stream : DeviceStream Handler) : Option (DeviceStream Handler) → List DeviceEvent → Prop
  | waits (hFlight : stream.inFlight = true) : Pumped services id stream (some stream) []
  | wrote {chunk : Bytes} {rest : List Bytes} (hFlight : stream.inFlight = false)
      (hQueue : stream.queue = chunk :: rest) :
      Pumped services id stream (some { stream with queue := rest, inFlight := true })
        [.sent ⟨.write, id, stream.hostId, chunk⟩]
  | closed (hFlight : stream.inFlight = false) (hQueue : stream.queue = [])
      (hFinished : services.finished stream.handler = true) :
      Pumped services id stream none [.sent (.empty .close id stream.hostId)]
  | rests (hFlight : stream.inFlight = false) (hQueue : stream.queue = [])
      (hFinished : services.finished stream.handler = false) : Pumped services id stream (some stream) []

/-- What the device makes of a message. -/
inductive Reaction {Shared Handler : Type} (services : Services Shared Handler) (device : Device Shared Handler)
    (msg : Message) : Device Shared Handler → List DeviceEvent → Prop
  | accepted {shared : Shared} {handler : Handler} {replies : List Bytes} {after : Option (DeviceStream Handler)}
      {more : List DeviceEvent} (hCommand : msg.command = .open)
      (hPumped : Pumped services device.nextId
        ⟨msg.arg0, handler, chunked replies device.limit.toNat, false⟩ after more)
      (hOpens : ∃ shared' handler',
        services.start device.shared (Text.trimEnd 0 (Utf8.lossy msg.payload)) = some (shared', handler') ∧
        services.onOpen shared' handler' = (shared, handler, replies)) :
      Reaction services device msg
        ({ device with shared := shared, nextId := device.nextId + 1 }.setStream device.nextId after)
        ([.sent (.empty .okay device.nextId msg.arg0), .opened device.nextId msg.arg0,
          .replied device.nextId replies] ++ more)
  | refused (hCommand : msg.command = .open) :
      Reaction services device msg device [.sent (.empty .close 0 msg.arg0)]
  | written {shared : Shared} {stream : DeviceStream Handler} {handler : Handler} {replies : List Bytes}
      {after : Option (DeviceStream Handler)} {more : List DeviceEvent} (hCommand : msg.command = .write)
      (hStream : device.streams msg.arg1 = some stream)
      (hPumped : Pumped services msg.arg1 { stream with
        handler := handler
        queue := stream.queue ++ chunked replies device.limit.toNat } after more)
      (hData : services.onData device.shared stream.handler msg.payload = (shared, handler, replies)) :
      Reaction services device msg ({ device with shared := shared }.setStream msg.arg1 after)
        ([.sent (.empty .okay msg.arg1 msg.arg0), .given msg.arg1 msg.payload, .replied msg.arg1 replies] ++ more)
  | acknowledged {stream : DeviceStream Handler} {after : Option (DeviceStream Handler)}
      {more : List DeviceEvent} (hCommand : msg.command = .okay)
      (hStream : device.streams msg.arg1 = some stream)
      (hPumped : Pumped services msg.arg1 { stream with inFlight := false } after more) :
      Reaction services device msg (device.setStream msg.arg1 after) more
  | closed (hCommand : msg.command = .close) :
      Reaction services device msg (device.setStream msg.arg1 none) []
  | missed (hCommand : msg.command = .write ∨ msg.command = .okay) (hStream : device.streams msg.arg1 = none) :
      Reaction services device msg device []

namespace Device

variable {Shared Handler : Type} {services : Services Shared Handler} {device device' : Device Shared Handler}
  {msg : Message} {events : List DeviceEvent}

/-- A stream that was just put in place is pumped. -/
theorem pump_setStream (services : Services Shared Handler) (device : Device Shared Handler) (id : UInt32)
    (stream : DeviceStream Handler) : ∃ after more,
      pump services (device.setStream id (some stream)) id = (device.setStream id after, more) ∧
      Pumped services id stream after more := by
  simp only [pump, setStream_streams, Function.update_self, setStream_setStream]
  cases hFlight : stream.inFlight with
  | true => exact ⟨_, _, rfl, .waits hFlight⟩
  | false =>
      cases hQueue : stream.queue with
      | cons chunk rest => exact ⟨_, _, rfl, .wrote hFlight hQueue⟩
      | nil =>
          simp only [Bool.false_eq_true, ↓reduceIte]
          split
          · rename_i hFinished
            exact ⟨_, _, rfl, .closed hFlight hQueue hFinished⟩
          · rename_i hFinished
            exact ⟨_, _, rfl, .rests hFlight hQueue (by simpa using hFinished)⟩

/-- A stream that was just replied on is pumped. -/
theorem pump_reply (services : Services Shared Handler) (device : Device Shared Handler) (id : UInt32)
    (stream : DeviceStream Handler) (answer : Shared × Handler × List Bytes) : ∃ after more,
      pump services (device.reply id stream answer) id =
        ({ device with shared := answer.1 }.setStream id after, more) ∧
      Pumped services id { stream with
        handler := answer.2.1
        queue := stream.queue ++ chunked answer.2.2 device.limit.toNat } after more :=
  pump_setStream services { device with shared := answer.1 } id _

/-- The device makes nothing else of a message. -/
theorem react_cases (h : react services device msg = some (device', events)) :
    Reaction services device msg device' events := by
  unfold react at h
  split at h
  · rename_i hCommand
    split at h
    · rename_i shared handler hStart
      obtain ⟨after, more, hPump, hPumped⟩ := pump_reply services
        { device with nextId := device.nextId + 1 } device.nextId ⟨msg.arg0, handler, [], false⟩
        (services.onOpen shared handler)
      simp only [hPump] at h
      cases h
      exact .accepted hCommand hPumped ⟨shared, handler, hStart, rfl⟩
    · cases h
      exact .refused hCommand
  · rename_i hCommand
    split at h
    · rename_i stream hStream
      obtain ⟨after, more, hPump, hPumped⟩ := pump_reply services device msg.arg1 stream
        (services.onData device.shared stream.handler msg.payload)
      simp only [hPump] at h
      cases h
      exact .written hCommand hStream hPumped rfl
    · cases h
      exact .missed (Or.inl hCommand) ‹_›
  · rename_i hCommand
    split at h
    · rename_i stream hStream
      obtain ⟨after, more, hPump, hPumped⟩ := pump_setStream services device msg.arg1
        { stream with inFlight := false }
      rw [hPump] at h
      cases h
      exact .acknowledged hCommand hStream hPumped
    · cases h
      exact .missed (Or.inr hCommand) ‹_›
  · rename_i hCommand
    cases h
    exact .closed hCommand
  all_goals cases h

end Device
end Rsadb.Fake
