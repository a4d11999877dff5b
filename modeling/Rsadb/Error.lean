import Mathlib.Algebra.GroupWithZero.Nat
import Mathlib.Control.Monad.Basic

/-! The crate's error type and its result alias. Texts are kept as the source
writes them, because callers match on the variant and print the text. -/
namespace Rsadb

/-- A byte string. Rust's `&str` values that only travel as bytes are kept in this form too. -/
abbrev Bytes := List UInt8

/-- The UTF-8 bytes of an ASCII literal of the source. -/
def ascii (text : String) : Bytes := text.toList.map fun c => UInt8.ofNat c.toNat

/-- Every failure the crate can report. -/
inductive Error where
  | protocol (message : String)
  | disconnected
  | unauthorized
  | unsupported (message : String)
  | serviceRefused (service : Bytes)
  | remoteFailure (message : Bytes)
  | streamClosed
  | claimFailed (message : String)
  | noDevice (hint : Option String)
  | usb (message : String)
  | io (message : String)
  | key (message : String)
  | parse (message : String)
  | invalidArgument (message : String)
  | timeout (message : String)
  deriving DecidableEq, Repr

abbrev Result (α : Type) := Except Error α

/-- Eight hexadecimal digits behind `0x`, as `{:#010x}` prints a word. -/
def hexWord (word : UInt32) : String :=
  "0x" ++ String.ofList ((List.range 8).map fun place =>
    Nat.digitChar (word.toNat / 16 ^ (7 - place) % 16))

end Rsadb
