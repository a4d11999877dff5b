import Rsadb.Auth.Pubkey

/-! The host's RSA identity. Signing and base64 belong to other crates and are
fields of the key, so every result below holds for whatever they compute. -/
namespace Rsadb

/-- Length of the token a device sends. -/
def TOKEN_LEN : Nat := 20

structure HostKey where
  /-- PKCS#1 v1.5 signing with the private key. -/
  sign : Bytes → Result Bytes
  /-- The standard base64 alphabet with padding. -/
  base64 : Bytes → Bytes
  publicKey : RsaPublicKey
  comment : Bytes

namespace HostKey

/-- The `adbkey.pub` line for this key. -/
def publicKeyLine (key : HostKey) : Result Bytes :=
  Pubkey.encodeLine key.base64 key.publicKey key.comment

/-- The payload that offers the public key: the line plus a NUL. -/
def publicKeyPayload (key : HostKey) : Result Bytes := do
  let line ← key.publicKeyLine
  return line ++ [0]

/-- Sign a token, which must have the agreed length. -/
def signToken (key : HostKey) (token : Bytes) : Result Bytes :=
  if token.length ≠ TOKEN_LEN then
    .error (.protocol s!"auth token must be {TOKEN_LEN} bytes, got {token.length}")
  else key.sign token

theorem signToken_ok {key : HostKey} {token signature : Bytes}
    (h : key.signToken token = .ok signature) :
    token.length = TOKEN_LEN ∧ key.sign token = .ok signature := by
  unfold signToken at h
  split at h
  · cases h
  · exact ⟨by omega, h⟩

end HostKey

/-- Verify a token signature against a public key, as the device does. The RSA
library says why it rejects a signature. -/
def verifyToken (verify : RsaPublicKey → Bytes → Bytes → Option String) (key : RsaPublicKey)
    (token signature : Bytes) : Result Unit :=
  if token.length ≠ TOKEN_LEN then
    .error (.protocol s!"auth token must be {TOKEN_LEN} bytes, got {token.length}")
  else match verify key token signature with
  | some reason => .error (.key s!"signature rejected: {reason}")
  | none => .ok ()

end Rsadb
