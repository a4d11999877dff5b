import Rsadb.Fake.Handshake
import Rsadb.Fake.Network
import Rsadb.Session.Handshake

/-! A whole connection: the handshake of the host with the emulated device, and
the session behind it, over the same two pipes. A message on its way keeps the
policy that it was sent under. -/
namespace Rsadb.Fake

/-- The host's end of the connection. -/
inductive HostPhase where
  | idle
  | shaking (progress : Progress)
  | session (negotiated : Negotiated) (session : Session)
  | failed (e : Error)

/-- The host has come through its handshake. -/
def HostPhase.isSession : HostPhase → Bool
  | .session _ _ => true
  | _ => false

theorem HostPhase.exists_session {host : HostPhase} (h : host.isSession = true) :
    ∃ negotiated session, host = .session negotiated session := by
  cases host with
  | session negotiated session => exact ⟨negotiated, session, rfl⟩
  | idle | shaking | failed => cases h

/-- The device's end of the connection. -/
inductive DevicePhase (Shared Handler : Type) where
  | shaking (awaiting : Awaiting)
  | engine (device : Device Shared Handler)
  | left (outcome : Result Unit)

/-- The device has left its handshake, and its transport is closed. -/
def DevicePhase.gone {Shared Handler : Type} : DevicePhase Shared Handler → Bool
  | .left _ => true
  | _ => false

/-- The device has come through its handshake. -/
def DevicePhase.isEngine {Shared Handler : Type} : DevicePhase Shared Handler → Bool
  | .engine _ => true
  | _ => false

theorem DevicePhase.exists_engine {Shared Handler : Type} {device : DevicePhase Shared Handler}
    (h : device.isEngine = true) : ∃ engine, device = .engine engine := by
  cases device with
  | engine device => exact ⟨device, rfl⟩
  | shaking | left => cases h

/-- Both ends, with the transport of each and the messages on their way up to
the device and down to the host. -/
structure Connection (Shared Handler : Type) where
  host : HostPhase
  transport : Transport
  device : DevicePhase Shared Handler
  policy : WireConfig
  accepted : Option RsaPublicKey
  up : List (WireConfig × Message)
  down : List (WireConfig × Message)

/-- Those who take part: the host with its key, and the device with its services. -/
structure Parties (Shared Handler : Type) where
  key : HostKey
  guard : Guard
  services : Services Shared Handler
  shared : Shared

/-- The steps of a connection. In the handshake `read` is the next message from
the device that the host takes, and `take` the next one from the host that the
device takes; `lose` and `drop` are an error of the transport at either end. -/
inductive ConnectionAction where
  | hello
  | read
  | lose (e : Error)
  | giveUp
  | take
  | drop (e : Error)
  | session (action : NetworkAction)
  deriving DecidableEq, Repr

/-- What happens on a connection. A message that was taken is reported with the
policies that it was sent and read under. -/
inductive ConnectionEvent where
  | taken (sent read : WireConfig) (msg : Message)
  | session (event : NetworkEvent)
  deriving DecidableEq, Repr

def ConnectionEvent.ofSession : ConnectionEvent → Option NetworkEvent
  | .taken _ _ _ => none
  | .session event => some event

/-- What happened in the session. -/
def sessionTrace (trace : List ConnectionEvent) : List NetworkEvent := trace.filterMap ConnectionEvent.ofSession

@[simp] theorem sessionTrace_append (before after : List ConnectionEvent) :
    sessionTrace (before ++ after) = sessionTrace before ++ sessionTrace after := List.filterMap_append

@[simp] theorem sessionTrace_nil : sessionTrace [] = [] := rfl

@[simp] theorem sessionTrace_taken (sent read : WireConfig) (msg : Message) (events : List ConnectionEvent) :
    sessionTrace (.taken sent read msg :: events) = sessionTrace events := rfl

@[simp] theorem sessionTrace_map {α : Type} (wrap : α → NetworkEvent) (events : List α) :
    sessionTrace (events.map fun event => .session (wrap event)) = events.map wrap := by
  rw [sessionTrace, List.filterMap_map]
  exact congrFun List.filterMap_eq_map events

/-- Messages on their way, under the policy of the sender. -/
def under (policy : WireConfig) (msgs : List Message) : List (WireConfig × Message) := msgs.map (policy, ·)

/-- What was sent on a transport since. -/
def sentSince (before after : Transport) : List (WireConfig × Message) :=
  under before.config (after.sent.drop before.sent.length)

/-- The host behind one turn of its handshake. -/
def HostPhase.of : Turn → HostPhase
  | .done (.ok negotiated) => .session negotiated (.start negotiated.maxPayload)
  | .done (.error e) => .failed e
  | .again progress => .shaking progress

namespace Connection

variable {Shared Handler : Type}

/-- Both ends before the handshake. -/
def start (config : WireConfig) (sendError : Nat → Option Error) : Connection Shared Handler where
  host := .idle
  transport := .fresh config 0 [] sendError
  device := .shaking .connect
  policy := .INITIAL
  accepted := none
  up := []
  down := []

/-- The host opens the exchange. -/
def hello (c : Connection Shared Handler) : Connection Shared Handler :=
  let before := { c.transport with config := .INITIAL }
  let (outcome, after) := before.send connectMessage
  { c with
    host := match outcome with
      | .ok () => .shaking ⟨false, false, 0⟩
      | .error e => .failed e
    transport := after
    up := c.up ++ sentSince before after }

/-- The host's transport when it has taken one more message. -/
def heard (c : Connection Shared Handler) (msg : Message) : Transport :=
  { c.transport with trace := c.transport.trace ++ [.received msg] }

/-- The host takes a message of the handshake. -/
def read (key : HostKey) (c : Connection Shared Handler) (progress : Progress) (msg : Message) :
    Connection Shared Handler :=
  let (turn, after) := answer key progress msg (c.heard msg)
  { c with host := .of turn, transport := after, up := c.up ++ sentSince (c.heard msg) after }

/-- The device takes a message of the handshake. -/
def take (parties : Parties Shared Handler) (c : Connection Shared Handler) (awaiting : Awaiting)
    (msg : Message) : Connection Shared Handler :=
  match parties.guard.handshake awaiting msg with
  | .wait next reply => { c with device := .shaking next, down := c.down ++ under c.policy reply }
  | .leave outcome reply => { c with device := .left outcome, down := c.down ++ under c.policy reply }
  | .enter accepted => { c with
      device := .engine (.start parties.guard.config.maxPayload parties.shared)
      policy := .negotiated parties.guard.config.version parties.guard.limit
      accepted := accepted.or c.accepted
      down := c.down ++ under c.policy [parties.guard.connect] }

/-- A step of the session. -/
def sessionStep (c : Connection Shared Handler) (negotiated : Negotiated) (session : Session)
    (action : Action) : Option (Connection Shared Handler × List ConnectionEvent) :=
  (session.step action).map fun next =>
    ({ c with
        host := .session negotiated next.1
        up := c.up ++ under c.transport.config ((hands next.2).map Prod.snd) },
      next.2.map fun event => .session (.host event))

/-- The device takes a message of the session. -/
def serve (services : Services Shared Handler) (c : Connection Shared Handler) (device : Device Shared Handler)
    (msg : Message) : Option (Connection Shared Handler × List ConnectionEvent) :=
  (device.step services msg).map fun next =>
    ({ c with device := .engine next.1, down := c.down ++ under c.policy (sends next.2) },
      next.2.map fun event => .session (.device event))

def step (parties : Parties Shared Handler) (c : Connection Shared Handler) :
    ConnectionAction → Option (Connection Shared Handler × List ConnectionEvent)
  | .hello =>
      match c.host with
      | .idle => some (c.hello, [])
      | _ => none
  | .read =>
      match c.host, c.down with
      | .shaking progress, (sent, msg) :: rest =>
          some ({ c with down := rest }.read parties.key progress msg, [.taken sent c.transport.config msg])
      | _, _ => none
  | .lose e =>
      match c.host with
      | .shaking _ => some ({ c with host := .failed e }, [])
      | _ => none
  | .giveUp =>
      match c.host with
      | .shaking progress => if progress.sentPubkey then some ({ c with host := .failed .unauthorized }, []) else none
      | _ => none
  | .take =>
      match c.device, c.up with
      | .shaking awaiting, (sent, msg) :: rest =>
          some ({ c with up := rest }.take parties awaiting msg, [.taken sent c.policy msg])
      | _, _ => none
  | .drop e =>
      match c.device with
      | .shaking .anything => some ({ c with device := .left (.ok ()) }, [])
      | .shaking _ => some ({ c with device := .left (.error e) }, [])
      | _ => none
  | .session (.host action) =>
      match c.host with
      | .session negotiated session =>
          if action.message = none then c.sessionStep negotiated session action else none
      | _ => none
  | .session .arrive =>
      match c.host, c.down with
      | .session negotiated session, (sent, msg) :: rest =>
          ({ c with down := rest }.sessionStep negotiated session (.arrive msg)).map fun (next, events) =>
            (next, .taken sent c.transport.config msg :: events)
      | _, _ => none
  | .session .serve =>
      match c.device, c.up with
      | .engine device, (sent, msg) :: rest =>
          ({ c with up := rest }.serve parties.services device msg).map fun (next, events) =>
            (next, .taken sent c.policy msg :: events)
      | _, _ => none

/-- The runs in which the owners of the streams make only these calls. -/
def Calls (calls : Action → Prop) (_ : List ConnectionEvent) (_ : Connection Shared Handler) :
    ConnectionAction → Prop
  | .session (.host action) => calls action
  | _ => True

instance (calls : Action → Prop) [DecidablePred calls] (trace : List ConnectionEvent)
    (c : Connection Shared Handler) (action : ConnectionAction) : Decidable (Calls calls trace c action) := by
  unfold Calls
  split <;> infer_instance

/-- The runs in which nothing is lost: the transport fails only behind all that
a device has said that has left, and the wait for the user runs out only when
nothing more is to come. -/
def Smooth (_ : List ConnectionEvent) (c : Connection Shared Handler) : ConnectionAction → Prop
  | .lose e => e = .disconnected ∧ c.device.gone = true ∧ c.up = [] ∧ c.down = []
  | .giveUp => c.device.gone = false ∧ c.up = [] ∧ c.down = []
  | .drop _ => False
  | _ => True

end Connection
end Rsadb.Fake
