import Rsadb.Services.ContentRows
import Rsadb.Services.Props

/-! The command interpreter that stands in for the shell on the emulated device. -/
namespace Rsadb.Fake

/-- How the emulated device behaves. -/
structure FakeConfig where
  props : Props.Map
  screencapPng : Bytes
  contentRows : List Content.Row
  contentExtraIds : Nat
  refuseServices : List Bytes

namespace Shell

structure Exit where
  stdout : Bytes
  stderr : Bytes
  code : UInt8
  deriving DecidableEq, Repr

def ok (stdout : Bytes) : Exit := ⟨stdout, [], 0⟩

/-- The words found so far, and the one that is being read. -/
structure Reading where
  args : List Bytes
  current : String
  inQuote : Bool
  pending : Bool

/-- One round of the loop over the characters. -/
def readChar (reading : Reading) (c : Char) : Reading :=
  if c = '\'' then { reading with inQuote := !reading.inQuote, pending := true }
  else if Text.isWhitespace c && !reading.inQuote then
    if reading.pending then
      { reading with
        args := reading.args ++ [Utf8.encode reading.current]
        current := ""
        pending := false }
    else reading
  else { reading with current := reading.current.push c, pending := true }

/-- Split a command line at whitespace, honouring single quotes. -/
def splitArgs (line : Bytes) : List Bytes :=
  let reading := (Utf8.text line).toList.foldl readChar ⟨[], "", false, false⟩
  if reading.pending then reading.args ++ [Utf8.encode reading.current] else reading.args

/-- The argument behind `--projection`, cut into columns. -/
def projection (args : List Bytes) : List Bytes :=
  match args.dropWhile (· ≠ ascii "--projection") with
  | _ :: columns :: _ => columns.splitOn 58
  | _ => []

/-- The projected columns of a row, with `NULL` for one that it does not have. -/
def fields (projection : List Bytes) (row : Content.Row) : Bytes :=
  List.intercalate (ascii ", ") (projection.map fun col => col ++ ascii "=" ++ row.getD col (ascii "NULL"))

def contentQuery (config : FakeConfig) (args : List Bytes) : Exit :=
  let columns := projection args
  let rows :=
    if columns = [ascii "_id"] then config.contentRows ++ config.contentRows.take config.contentExtraIds
    else config.contentRows
  ok (Content.printTable (rows.map (fields columns)))

def run (config : FakeConfig) (line : Bytes) : Exit :=
  match splitArgs line with
  | [] => ok []
  | command :: args =>
      if command = ascii "getprop" then
        match args.head? with
        | some name => ok ((config.props.getD name []) ++ ascii "\n")
        | none => ok (config.props.toList.flatMap Props.printEntry)
      else if command = ascii "echo" then ok (List.intercalate (ascii " ") args ++ ascii "\n")
      else if command = ascii "true" then ok []
      else if command = ascii "false" then ⟨[], [], 1⟩
      else if command = ascii "id" then ok (ascii "uid=2000(shell) gid=2000(shell)\n")
      else if command = ascii "screencap" then ok config.screencapPng
      else if command = ascii "warn" then ⟨ascii "out\n", ascii "err\n", 3⟩
      else if command = ascii "content" then contentQuery config (command :: args)
      else ⟨[], ascii "/system/bin/sh: " ++ command ++ ascii ": inaccessible or not found\n", 127⟩

end Shell
end Rsadb.Fake
