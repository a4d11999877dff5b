import Rsadb.Error

/-! The command words of the transport protocol. -/
namespace Rsadb

/-- A transport-level command word. -/
inductive Command where
  | sync
  | connect
  | auth
  | «open»
  | okay
  | close
  | write
  | startTls
  deriving DecidableEq, Repr

namespace Command

/-- The numeric command word: the little-endian reading of the mnemonic. -/
def code : Command → UInt32
  | sync => 0x434e5953
  | connect => 0x4e584e43
  | auth => 0x48545541
  | «open» => 0x4e45504f
  | okay => 0x59414b4f
  | close => 0x45534c43
  | write => 0x45545257
  | startTls => 0x534c5453

/-- The four-character mnemonic, which is also how a command is displayed. -/
def mnemonic : Command → String
  | sync => "SYNC"
  | connect => "CNXN"
  | auth => "AUTH"
  | «open» => "OPEN"
  | okay => "OKAY"
  | close => "CLSE"
  | write => "WRTE"
  | startTls => "STLS"

/-- Decode a command word. -/
def fromCode (code : UInt32) : Option Command :=
  if code = 0x434e5953 then some sync
  else if code = 0x4e584e43 then some connect
  else if code = 0x48545541 then some auth
  else if code = 0x4e45504f then some «open»
  else if code = 0x59414b4f then some okay
  else if code = 0x45534c43 then some close
  else if code = 0x45545257 then some write
  else if code = 0x534c5453 then some startTls
  else none

@[simp] theorem fromCode_code (command : Command) : fromCode command.code = some command := by
  cases command <;> decide

/-- The decoder accepts nothing but the eight command words. -/
theorem code_of_fromCode {code : UInt32} {command : Command}
    (h : fromCode code = some command) : command.code = code := by
  unfold fromCode at h
  split_ifs at h with h1 h2 h3 h4 h5 h6 h7 h8 <;> cases h <;> symm <;> assumption

end Command
end Rsadb
