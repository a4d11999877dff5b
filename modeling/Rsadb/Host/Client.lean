import Rsadb.LiveConnection
import Rsadb.Host.Channel
import Rsadb.Host.Devices
import Rsadb.Host.Proto

/-! The client of an adb server. Every request has a connection of its own, and a
service stream is what becomes of one once the server has bound it to a device
and to the service. `debug` is how a text is shown in an error. -/
namespace Rsadb.Host

/-- Read `OKAY` or `FAIL` (+ message). -/
def readStatus (debug : String → String) (source : Source UInt8) : Result Unit × Source UInt8 :=
  match source.readExact 4 with
  | (none, source) => (.error .disconnected, source)
  | (some word, source) =>
      if word = ascii "OKAY" then (.ok (), source)
      else if word = ascii "FAIL" then
        match readBlock debug source with
        | (.ok message, source) => (.error (.remoteFailure message), source)
        | (.error e, source) => (.error e, source)
      else (.error (.protocol s!"unexpected status {debug (Utf8.text word)}"), source)

/-- What a read of a fixed amount comes to where the bytes run out. -/
def Ending.outcome {α : Type} : Ending → Option (Result α)
  | finished => some (.error .disconnected)
  | reset message | failed message _ => some (.error (.io message))
  | waiting => none

namespace TcpStream

variable {α : Type}

/-- Read from what arrives. It is only where the bytes run out that `op` reports
a disconnected peer; there the end of the connection decides. -/
def read (op : Source UInt8 → Result α × Source UInt8) : Async Error TcpStream α := fun stream =>
  match op stream.source with
  | (.error .disconnected, source) => (stream.ending.outcome, { stream with source := source })
  | (result, source) => (some result, { stream with source := source })

/-- Send one request. -/
def request (text : String) : Async Error TcpStream Unit :=
  match sendRequest [] text with
  | (.ok (), written) => send written
  | (.error e, _) => Async.fail e

end TcpStream

/-- How connecting to the server goes: it may be refused, or the connection may
fail to be set up behind that. -/
inductive Dial where
  | refused (message : String)
  | broken (message : String)
  | connected (stream : TcpStream)

/-- The adb server's default port. -/
def DEFAULT_PORT : Nat := 5037

/-- A handle to an adb server. -/
structure HostClient where
  addr : String

/-- One device behind an adb server. -/
structure HostDevice where
  client : HostClient
  serial : String

/-- Read a number in hexadecimal digits as a word. -/
def wordFromStrRadix (text : String) : Option UInt32 :=
  (fromStrRadix (Utf8.encode text)).bind fun n => if n < 2 ^ 32 then some (UInt32.ofNat n) else none

/-- The features of a list with commas. -/
def splitFeatures (text : Bytes) : List String :=
  (((Utf8.text text).toList.splitOn ',').map fun piece => Text.trim (String.ofList piece)).filter (· ≠ "")

namespace HostClient

variable {α : Type}

/-- The server on `127.0.0.1:5037`. -/
def localServer : HostClient := ⟨s!"127.0.0.1:{DEFAULT_PORT}"⟩

/-- Connect to the server. The state is how the next attempts will go. -/
def connect (client : HostClient) : Async Error (List Dial) TcpStream
  | [] => (none, [])
  | .refused message :: dials => (some (.error (.io s!"adb server at {client.addr}: {message}")), dials)
  | .broken message :: dials => (some (.error (.io message)), dials)
  | .connected stream :: dials => (some (.ok stream), dials)

/-- An exchange on a connection, which is handed on with what came of it. -/
def onStream (op : Async Error TcpStream α) (stream : TcpStream) : Async Error (List Dial) (α × TcpStream) :=
  fun dials =>
    match op stream with
    | (some (.ok value), stream) => (some (.ok (value, stream)), dials)
    | (some (.error e), _) => (some (.error e), dials)
    | (none, _) => (none, dials)

/-- An exchange on a connection of its own. -/
def exchange (client : HostClient) (op : Async Error TcpStream α) : Async Error (List Dial) (α × TcpStream) := do
  let stream ← client.connect
  onStream op stream

/-- A request and its length-prefixed reply. -/
def ask (debug : String → String) (request : String) : Async Error TcpStream Bytes := do
  TcpStream.request request
  TcpStream.read (readStatus debug)
  TcpStream.read (readBlock debug)

/-- Send one `host:` request and return its length-prefixed reply. -/
def query (debug : String → String) (client : HostClient) (request : String) : Async Error (List Dial) Bytes := do
  let (reply, _) ← client.exchange (ask debug request)
  pure reply

/-- `host:version` as an integer. -/
def version (debug : String → String) (client : HostClient) : Async Error (List Dial) UInt32 := do
  let hex ← client.query debug "host:version"
  match wordFromStrRadix (Text.trim (Utf8.text hex)) with
  | some version => pure version
  | none => Async.fail (.parse s!"version {debug (Utf8.text hex)}")

/-- `host:devices-l`. -/
def devices (debug : String → String) (client : HostClient) : Async Error (List Dial) (List DeviceEntry) := do
  let reply ← client.query debug "host:devices-l"
  pure (parseDevices reply)

/-- A handle to the device with `serial`. -/
def device (client : HostClient) (serial : String) : HostDevice := ⟨client, serial⟩

/-- The only one of some devices that is online, or an error naming the count. -/
def only (client : HostClient) (devices : List DeviceEntry) : Result HostDevice :=
  match devices.filter fun d => d.state = "device" with
  | [d] => .ok (client.device d.serial)
  | [] => .error (.noDevice (some "adb server lists no online device"))
  | online => .error (.noDevice (some s!"adb server lists {online.length} devices, pass a serial"))

/-- The single connected device, or an error naming the count. -/
def onlyDevice (debug : String → String) (client : HostClient) : Async Error (List Dial) HostDevice := do
  let devices ← client.devices debug
  Async.lift (client.only devices)

end HostClient

namespace HostDevice

/-- A device that fails to start a service has refused it. -/
def refusing (service : String) (op : Async Error TcpStream Unit) : Async Error TcpStream Unit := fun stream =>
  match op stream with
  | (some (.error (.remoteFailure _)), stream) => (some (.error (.serviceRefused (Utf8.encode service))), stream)
  | other => other

/-- Have a connection bound to a device, and then to a service of it. -/
def bindTo (debug : String → String) (serial service : String) : Async Error TcpStream Unit := do
  TcpStream.request s!"host:transport:{serial}"
  TcpStream.read (readStatus debug)
  TcpStream.request service
  refusing service (TcpStream.read (readStatus debug))

/-- Open a service of the device. -/
def openService (debug : String → String) (device : HostDevice) (service : String) :
    Async Error (List Dial) HostChannel := do
  let (_, stream) ← device.client.exchange (bindTo debug device.serial service)
  pure (HostChannel.new stream)

/-- The features of the device. -/
def features (debug : String → String) (device : HostDevice) : Async Error (List Dial) (List String) := do
  let reply ← device.client.query debug s!"host-serial:{device.serial}:features"
  pure (splitFeatures reply)

end HostDevice

/-- The device as a connection: what services are written against. -/
def HostDevice.connection (debug : String → String) (device : HostDevice) : LiveConnection (List Dial) where
  openService service := do
    let channel ← device.openService debug service
    pure channel.channel
  features := device.features debug

section

variable {debug : String → String} {source left : Source UInt8} {rest body : Bytes} {n : Nat}

/-- The request is short enough to be sent. -/
def Fits (request : String) : Prop := (Utf8.encode request).length ≤ 0xFFFF

instance (request : String) : Decidable (Fits request) := inferInstanceAs (Decidable (_ ≤ _))

/-- What is written for a request. -/
def requestFrame (request : String) : Bytes :=
  Radix.digits 16 lowerHex 4 (Utf8.encode request).length ++ Utf8.encode request

theorem readStatus_okay (debug : String → String) (h : source.pending = ascii "OKAY" ++ rest) :
    ∃ left, readStatus debug source = (.ok (), left) ∧ left.pending = rest := by
  have hFour : (ascii "OKAY").length = 4 := rfl
  obtain ⟨left, hRead, hLeft⟩ := source.readExact_enough (show 4 ≤ source.pending.length by simp [h, hFour])
  rw [h, List.take_left' hFour] at hRead
  rw [h, List.drop_left' hFour] at hLeft
  exact ⟨left, by simp only [readStatus, hRead, if_true], hLeft⟩

theorem readStatus_ok (h : readStatus debug source = (.ok (), left)) :
    source.pending = ascii "OKAY" ++ left.pending := by
  rcases Nat.lt_or_ge source.pending.length 4 with hShort | hEnough
  · obtain ⟨next, hRead⟩ := source.readExact_short hShort
    rw [readStatus, hRead] at h
    cases h
  · obtain ⟨next, hRead, hNext⟩ := source.readExact_enough hEnough
    simp only [readStatus, hRead] at h
    split_ifs at h with hOkay hFail
    · cases h
      rw [hNext, ← hOkay, List.take_append_drop]
    · rcases hBlock : readBlock debug next with ⟨_ | _, _⟩ <;> rw [hBlock] at h <;> cases h
    · cases h

/-- A failure is reported with its message. -/
theorem readStatus_fail (debug : String → String) (h : source.pending = ascii "FAIL" ++ body)
    (hBody : Announces body n ∨ Signed body n) : ∃ left,
    readStatus debug source = (.error (.remoteFailure (Utf8.lossy ((body.drop 4).take n))), left) := by
  have hFour : (ascii "FAIL").length = 4 := rfl
  obtain ⟨next, hRead, hNext⟩ := source.readExact_enough (show 4 ≤ source.pending.length by simp [h, hFour])
  rw [h, List.take_left' hFour] at hRead
  rw [h, List.drop_left' hFour] at hNext
  rw [← hNext] at hBody
  obtain ⟨left, hBlock, -⟩ := readBlock_of_length debug hBody
  have hOther : ascii "FAIL" ≠ ascii "OKAY" := by decide
  refine ⟨left, ?_⟩
  simp only [readStatus, hRead, hBlock, if_neg hOther, if_true, hNext]

end

end Rsadb.Host
