import Rsadb.Wire.Command

/-! Messages, their headers and the payload checksum. -/
namespace Rsadb

/-- Protocol version this crate speaks. -/
def VERSION : UInt32 := 0x01000001
/-- Oldest protocol version accepted from a peer. -/
def VERSION_MIN : UInt32 := 0x01000000
/-- Peers at or above this version ignore the checksum. -/
def VERSION_SKIP_CHECKSUM : UInt32 := 0x01000001
/-- Largest payload ever offered or accepted. -/
def MAX_PAYLOAD : UInt32 := 1024 * 1024
/-- Limit assumed when a legacy peer sends zero. -/
def LEGACY_MAX_PAYLOAD : UInt32 := 256 * 1024

def AUTH_TOKEN : UInt32 := 1
def AUTH_SIGNATURE : UInt32 := 2
def AUTH_RSAPUBLICKEY : UInt32 := 3

structure Header where
  command : Command
  arg0 : UInt32
  arg1 : UInt32
  dataLength : UInt32
  dataCheck : UInt32
  deriving DecidableEq, Repr

/-- A complete message: header arguments plus payload. -/
structure Message where
  command : Command
  arg0 : UInt32
  arg1 : UInt32
  payload : Bytes
  deriving DecidableEq, Repr

/-- The payload checksum: the wrapping sum of all payload bytes. -/
def checksum (payload : Bytes) : UInt32 :=
  payload.foldl (fun acc byte => acc + byte.toUInt32) 0

namespace Message

/-- A message without payload. -/
def empty (command : Command) (arg0 arg1 : UInt32) : Message :=
  ⟨command, arg0, arg1, []⟩

/-- The header of a message, with its checksum when `withChecksum` is set.
There is none for a payload longer than a `u32` can say. -/
def header (msg : Message) (withChecksum : Bool) : Option Header :=
  if msg.payload.length < 2 ^ 32 then
    some {
      command := msg.command
      arg0 := msg.arg0
      arg1 := msg.arg1
      dataLength := UInt32.ofNat msg.payload.length
      dataCheck := if withChecksum then checksum msg.payload else 0 }
  else none

def checksumMatches (msg : Message) (header : Header) : Bool :=
  header.dataCheck == checksum msg.payload

end Message

/-- Attach a payload to a header. -/
def Header.withPayload (header : Header) (payload : Bytes) : Message :=
  ⟨header.command, header.arg0, header.arg1, payload⟩

end Rsadb
