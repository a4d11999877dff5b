import Mathlib.Logic.Function.Iterate
import Rsadb.Library.Text
import Rsadb.Library.Utf8
import Rsadb.Wire.Codec

/-! Android's serialisation of an RSA public key. Big integers are natural
numbers; the base64 alphabet belongs to another crate and is a parameter. -/
namespace Rsadb

structure RsaPublicKey where
  n : Nat
  e : Nat
  deriving DecidableEq, Repr

namespace Pubkey

/-- Modulus size in bytes for the only key size Android accepts. -/
def MODULUS_BYTES : Nat := 256
/-- Modulus size in 32-bit words. -/
def MODULUS_WORDS : UInt32 := 64
/-- Size of the encoded structure. -/
def ENCODED_LEN : Nat := 4 + 4 + MODULUS_BYTES + MODULUS_BYTES + 4

/-- One Newton step towards the inverse of `n0`. -/
def newtonStep (n0 inv : UInt32) : UInt32 := inv * (2 - n0 * inv)

/-- The Montgomery constant of an odd word, by five Newton steps. -/
def n0inv (n0 : UInt32) : UInt32 := 0 - (newtonStep n0)^[5] n0

/-- The number of significant bits. -/
def bits (value : Nat) : Nat := if value = 0 then 0 else value.log2 + 1

/-- Little-endian bytes of a value that fits the modulus size. -/
def toLePadded (value : Nat) : Result Bytes :=
  if 256 ^ MODULUS_BYTES ≤ value then
    .error (.key s!"value needs {(bits value + 7) / 8} bytes, limit is {MODULUS_BYTES}")
  else .ok (LittleEndian.encode MODULUS_BYTES value)

/-- Encode a 2048-bit RSA public key into Android's binary structure. -/
def encode (key : RsaPublicKey) : Result Bytes := do
  if bits key.n ≠ MODULUS_BYTES * 8 then
    throw (.key s!"Android requires a 2048-bit modulus, got {bits key.n} bits")
  if key.n % 2 = 0 then
    throw (.key "modulus must be odd")
  let nLe ← toLePadded key.n
  let n0 := fromLeBytes (nLe.take 4)
  let r := 2 ^ (MODULUS_BYTES * 8)
  let rr ← toLePadded (r * r % key.n)
  if 256 ^ 4 ≤ key.e then
    throw (.key "public exponent does not fit in 32 bits")
  return toLeBytes MODULUS_WORDS ++ toLeBytes (n0inv n0) ++ nLe ++ rr ++
    toLeBytes (UInt32.ofNat key.e)

/-- The `adbkey.pub` line: base64 structure, a space, and a comment. -/
def encodeLine (base64 : Bytes → Bytes) (key : RsaPublicKey) (comment : Bytes) : Result Bytes := do
  let encoded ← encode key
  return base64 encoded ++ 0x20 :: comment

/-- Decode Android's binary structure back into a public key, validating every
field. `new` is the constructor of the RSA library, which checks the key. -/
def decode (new : Nat → Nat → Result RsaPublicKey) (bytes : Bytes) : Result RsaPublicKey := do
  if bytes.length ≠ ENCODED_LEN then
    throw (.key s!"encoded key must be {ENCODED_LEN} bytes, got {bytes.length}")
  let words := word bytes 0
  if words ≠ MODULUS_WORDS then
    throw (.key s!"unexpected modulus length {words} words")
  let n := LittleEndian.value ((bytes.drop 8).take MODULUS_BYTES)
  let e := word bytes (8 + 2 * MODULUS_BYTES)
  let key ← new n e.toNat
  let expected ← encode key
  if expected ≠ bytes then
    throw (.key "n0inv or rr do not match the modulus")
  return key

/-- Parse an `adbkey.pub` line (comment optional). `base64` decodes the structure. -/
def decodeLine (new : Nat → Nat → Result RsaPublicKey) (base64 : Bytes → Result Bytes) (line : Bytes) :
    Result RsaPublicKey := do
  match Text.firstWord (Utf8.text line) with
  | none => throw (.key "empty key line")
  | some b64 => decode new (← base64 (Utf8.encode b64))

end Pubkey
end Rsadb
