import Rsadb.Auth.HostKey
import Rsadb.Library.Text
import Rsadb.Library.Utf8
import Rsadb.Session.Banner
import Rsadb.Wire.Message

/-! The emulated device's part in the handshake. What it does next is a function
of what it waits for and of the message that it gets. -/
namespace Rsadb.Fake

/-- How the emulated device behaves in the handshake. -/
structure HandshakeConfig where
  trusted : List RsaPublicKey
  acceptNewKeys : Bool
  requireAuth : Bool
  requestTls : Bool
  version : UInt32
  maxPayload : UInt32
  banner : Banner

/-- The device at its handshake. The RSA library and base64 are other crates,
and the tokens are drawn at random. -/
structure Guard where
  config : HandshakeConfig
  verify : RsaPublicKey → Bytes → Bytes → Option String
  newKey : Nat → Nat → Result RsaPublicKey
  decode64 : Bytes → Result Bytes
  first : Bytes
  second : Bytes
  first_length : first.length = TOKEN_LEN
  second_length : second.length = TOKEN_LEN

/-- What the handshake waits for. A device whose user does not accept the key
waits for one more message and takes no notice of it. -/
inductive Awaiting where
  | connect
  | signature
  | offer
  | anything
  deriving DecidableEq, Repr

/-- What a message makes of the handshake. -/
inductive Passage where
  | wait (next : Awaiting) (reply : List Message)
  | enter (accepted : Option RsaPublicKey)
  | leave (outcome : Result Unit) (reply : List Message)

namespace Guard

/-- The message that lets the host in. -/
def connect (guard : Guard) : Message :=
  ⟨.connect, guard.config.version, guard.config.maxPayload, guard.config.banner.toWire⟩

/-- The largest payload of the session. -/
def limit (guard : Guard) : UInt32 :=
  if guard.config.maxPayload = 0 then LEGACY_MAX_PAYLOAD else guard.config.maxPayload

/-- Whether a message signs the first token with a key that the device knows. -/
def trusts (guard : Guard) (msg : Message) : Bool :=
  msg.command = .auth && msg.arg0 = AUTH_SIGNATURE &&
    guard.config.trusted.any fun key => (verifyToken guard.verify key guard.first msg.payload).isOk

/-- The key that a message offers. -/
def offeredKey (guard : Guard) (msg : Message) : Result RsaPublicKey :=
  Pubkey.decodeLine guard.newKey guard.decode64 (Text.trimEnd 0 (Utf8.lossy msg.payload))

def handshake (guard : Guard) (awaiting : Awaiting) (msg : Message) : Passage :=
  match awaiting with
  | .connect =>
      if msg.command ≠ .connect then .leave (.error (.protocol "expected CNXN first")) []
      else if guard.config.requestTls then .leave (.ok ()) [.empty .startTls 1 0]
      else if guard.config.requireAuth then .wait .signature [⟨.auth, AUTH_TOKEN, 0, guard.first⟩]
      else .enter none
  | .signature =>
      if guard.trusts msg then .enter none
      else .wait .offer [⟨.auth, AUTH_TOKEN, 0, guard.second⟩]
  | .offer =>
      if msg.command ≠ .auth ∨ msg.arg0 ≠ AUTH_RSAPUBLICKEY then
        .leave (.error (.protocol "expected RSAPUBLICKEY")) []
      else match guard.offeredKey msg with
      | .error e => .leave (.error e) []
      | .ok key => if guard.config.acceptNewKeys then .enter (some key) else .wait .anything []
  | .anything => .leave (.ok ()) []

end Guard
end Rsadb.Fake
