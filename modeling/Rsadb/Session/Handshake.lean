import Rsadb.Session.Banner
import Rsadb.Library.Utf8
import Rsadb.Auth.HostKey
import Rsadb.Transport.Config

/-! The connect and authentication exchange, driven by a peer that may send any
messages in any order at any time. -/
namespace Rsadb

/-- What the handshake negotiated. -/
structure Negotiated where
  banner : Banner
  version : UInt32
  maxPayload : UInt32
  deriving DecidableEq

/-- One message crossing the transport. -/
inductive Exchange where
  | sent (msg : Message)
  | received (msg : Message)
  deriving DecidableEq, Repr

namespace Exchange

def sentMessage : Exchange → Option Message
  | sent msg => some msg
  | received _ => none

def receivedMessage : Exchange → Option Message
  | sent _ => none
  | received msg => some msg

/-- The payload of a token that was read. -/
def token : Exchange → Option Bytes
  | sent _ => none
  | received msg => if msg.command = .auth ∧ msg.arg0 = AUTH_TOKEN then some msg.payload else none

@[simp] theorem sentMessage_sent (msg : Message) : sentMessage (sent msg) = some msg := rfl
@[simp] theorem sentMessage_received (msg : Message) : sentMessage (received msg) = none := rfl
@[simp] theorem receivedMessage_sent (msg : Message) : receivedMessage (sent msg) = none := rfl
@[simp] theorem receivedMessage_received (msg : Message) :
    receivedMessage (received msg) = some msg := rfl
@[simp] theorem token_sent (msg : Message) : token (sent msg) = none := rfl

end Exchange

/-- A transport as the handshake uses it, one operation at a time. What will
arrive, and when, is fixed in advance but arbitrary, and any send may fail. The
trace records what crossed it, in order. -/
structure Transport where
  now : Nat
  incoming : List (Nat × Result Message)
  sendError : Nat → Option Error
  trace : List Exchange
  config : WireConfig

namespace Transport

/-- A transport on which nothing has happened yet. -/
def fresh (config : WireConfig) (now : Nat) (incoming : List (Nat × Result Message))
    (sendError : Nat → Option Error) : Transport :=
  ⟨now, incoming, sendError, [], config⟩

def sent (transport : Transport) : List Message :=
  transport.trace.filterMap Exchange.sentMessage

def received (transport : Transport) : List Message :=
  transport.trace.filterMap Exchange.receivedMessage

/-- The payloads of the tokens read so far. -/
def tokens (transport : Transport) : List Bytes := transport.trace.filterMap Exchange.token

/-- Send one message. It counts as sent even if the transport then fails. -/
def send (transport : Transport) (msg : Message) : Result Unit × Transport :=
  (match transport.sendError transport.sent.length with
    | none => .ok ()
    | some e => .error e,
    { transport with trace := transport.trace ++ [.sent msg] })

@[simp] theorem send_trace (transport : Transport) (msg : Message) :
    (transport.send msg).2.trace = transport.trace ++ [.sent msg] := rfl

end Transport

/-- How many stale stream frames a device may send before the handshake gives up on it. -/
def MAX_STALE : Nat := 64

/-- The locals of the loop. -/
structure Progress where
  sentSignature : Bool
  sentPubkey : Bool
  skipped : Nat
  deriving DecidableEq, Repr

/-- What one iteration decides: return, or loop with new locals. -/
inductive Turn where
  | done (result : Result Negotiated)
  | again (progress : Progress)

def negotiate (msg : Message) : Result Negotiated :=
  let version := msg.arg0
  if version < VERSION_MIN then
    .error (.protocol s!"peer protocol version {hexWord version} too old")
  else
    let offered := if msg.arg1 = 0 then LEGACY_MAX_PAYLOAD else msg.arg1
    .ok {
      banner := Banner.parse (Utf8.lossy msg.payload)
      version := min version VERSION
      maxPayload := min offered MAX_PAYLOAD }

/-- Answer a message that was read: the body of the loop after `recv`. -/
def answer (key : HostKey) (progress : Progress) (msg : Message) (transport : Transport) :
    Turn × Transport :=
  match msg.command with
  | .connect =>
      match negotiate msg with
      | .error e => (.done (.error e), transport)
      | .ok negotiated =>
          (.done (.ok negotiated), { transport with
            config := WireConfig.negotiated negotiated.version negotiated.maxPayload })
  | .auth =>
      if msg.arg0 = AUTH_TOKEN then
        if progress.sentSignature = false then
          match key.signToken msg.payload with
          | .error e => (.done (.error e), transport)
          | .ok signature =>
              match transport.send ⟨.auth, AUTH_SIGNATURE, 0, signature⟩ with
              | (.error e, transport) => (.done (.error e), transport)
              | (.ok (), transport) => (.again { progress with sentSignature := true }, transport)
        else if progress.sentPubkey = false then
          match key.publicKeyPayload with
          | .error e => (.done (.error e), transport)
          | .ok pubkey =>
              match transport.send ⟨.auth, AUTH_RSAPUBLICKEY, 0, pubkey⟩ with
              | (.error e, transport) => (.done (.error e), transport)
              | (.ok (), transport) => (.again { progress with sentPubkey := true }, transport)
        else (.done (.error .unauthorized), transport)
      else (.done (.error (.protocol s!"unexpected AUTH type {msg.arg0}")), transport)
  | .startTls =>
      (.done (.error (.unsupported
        "device requested TLS authentication (A_STLS); rsadb 0.1 only speaks RSA auth")), transport)
  | .close | .write | .okay | .sync =>
      let skipped := progress.skipped + 1
      if skipped > MAX_STALE then
        (.done (.error (.protocol
          s!"device sent {skipped} stream frames and no banner during the handshake")), transport)
      else (.again { progress with skipped := skipped }, transport)
  | .open =>
      (.done (.error (.protocol s!"unexpected {msg.command.mnemonic} during handshake")), transport)

/-- The loop over what arrives. Once the public key was offered every read is
bounded by `authWait`. No result means that the loop is still waiting. -/
def handshakeLoop (key : HostKey) (authWait : Nat) :
    List (Nat × Result Message) → Progress → Transport → Option (Result Negotiated) × Transport
  | [], progress, transport =>
      if progress.sentPubkey then
        (some (.error .unauthorized), { transport with now := transport.now + authWait })
      else (none, transport)
  | (time, outcome) :: rest, progress, transport =>
      if progress.sentPubkey ∧ transport.now + authWait < time then
        (some (.error .unauthorized), { transport with now := transport.now + authWait })
      else
        match outcome with
        | .error e =>
            (some (.error e), { transport with now := max transport.now time, incoming := rest })
        | .ok msg =>
            match answer key progress msg { transport with
              now := max transport.now time
              incoming := rest
              trace := transport.trace ++ [.received msg] } with
            | (.done result, transport) => (some result, transport)
            | (.again progress, transport) => handshakeLoop key authWait rest progress transport

/-- The message that opens the exchange. -/
def connectMessage : Message := ⟨.connect, VERSION, MAX_PAYLOAD, Banner.host⟩

/-- Run the handshake, leaving the transport configured for the negotiated policy. -/
def handshake (key : HostKey) (authWait : Nat) (transport : Transport) :
    Option (Result Negotiated) × Transport :=
  match ({ transport with config := WireConfig.INITIAL } : Transport).send connectMessage with
  | (.error e, transport) => (some (.error e), transport)
  | (.ok (), transport) =>
      handshakeLoop key authWait transport.incoming ⟨false, false, 0⟩ transport

end Rsadb
