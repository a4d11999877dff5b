import Rsadb.Channel
import Rsadb.Library.Chunks
import Rsadb.Library.Source

/-! A service stream carried by one TCP connection to the adb server. What
arrives on the connection comes in pieces of the network's choosing, and behind
all of it the connection ends somehow. -/
namespace Rsadb.Host

/-- How the reads of a connection go on behind what the peer has written. -/
inductive Ending where
  | finished
  | reset (message : String)
  | waiting
  | failed (message : String) (next : Ending)
  deriving DecidableEq, Repr

namespace Ending

/-- The failures that reads report. -/
def errors : Ending → List Error
  | failed message next => .io message :: errors next
  | _ => []

/-- Behind its failures the stream is over. A reset is taken for the end. -/
def isOver : Ending → Bool
  | finished | reset _ => true
  | waiting => false
  | failed _ next => isOver next

end Ending

/-- A connection, with what is still to be read and what has been written.
`sendError n` is the error, if any, of the write behind `n` successful ones. -/
structure TcpStream where
  source : Source UInt8
  ending : Ending
  sent : List Bytes
  sendError : Nat → Option Error

/-- Write all of the data. -/
def TcpStream.send (data : Bytes) : Async Error TcpStream Unit := fun stream =>
  match stream.sendError stream.sent.length with
  | some e => (some (.error e), stream)
  | none => (some (.ok ()), { stream with sent := stream.sent ++ [data] })

/-- Read size per `recv` call. -/
def CHUNK : Nat := 64 * 1024

/-- A `Channel` over a TCP connection the adb server has bound to a service. -/
structure HostChannel where
  stream : TcpStream
  closed : Bool

namespace HostChannel

def new (stream : TcpStream) : HostChannel := ⟨stream, false⟩

def recv : Async Error HostChannel (Option Bytes) := fun channel =>
  let (chunk, source) := channel.stream.source.read CHUNK
  let channel := { channel with stream := { channel.stream with source := source } }
  if chunk ≠ [] then (some (.ok (some chunk)), channel)
  else match channel.stream.ending with
    | .finished | .reset _ => (some (.ok none), channel)
    | .waiting => (none, channel)
    | .failed message next =>
        (some (.error (.io message)), { channel with stream := { channel.stream with ending := next } })

def send (data : Bytes) : Async Error HostChannel Unit := fun channel =>
  ((TcpStream.send data channel.stream).1, { channel with stream := (TcpStream.send data channel.stream).2 })

/-- Close the stream once; an error of the shutdown is none of the close. -/
def close : Async Error HostChannel Unit := fun channel => (some (.ok ()), { channel with closed := true })

/-- The chunks that reads make of what is still to come. -/
def chunks (source : Source UInt8) : List Bytes := source.fragments.flatMap (Chunks.chunks CHUNK)

/-- The channel that services see. -/
def channel (channel : HostChannel) : Channel where
  incoming := (chunks channel.stream.source).map .ok ++ channel.stream.ending.errors.map .error
  ended := channel.stream.ending.isOver
  sent := channel.stream.sent
  sendError := channel.stream.sendError
  closed := channel.closed

/-- No chunk is lost: together they are what is still to come. -/
theorem flatten_chunks (source : Source UInt8) : (chunks source).flatten = source.pending := by
  unfold chunks Source.pending
  induction source.fragments with
  | nil => rfl
  | cons fragment rest ih =>
      rw [List.flatMap_cons, List.flatten_append, Chunks.flatten_chunks (by decide), ih, List.flatten_cons]

/-- What a service does with its stream. -/
inductive Call where
  | recv
  | send (data : Bytes)
  | close

/-- What the stream answers. -/
inductive Answer where
  | received (result : Option (Result (Option Bytes)))
  | done (result : Option (Result Unit))

/-- One call on the connection. -/
def call (channel : HostChannel) : Call → Answer × HostChannel
  | .recv => (.received (recv channel).1, (recv channel).2)
  | .send data => (.done (send data channel).1, (send data channel).2)
  | .close => (.done (close channel).1, (close channel).2)

/-- Calls one after the other. -/
def calls {σ : Type} (step : σ → Call → Answer × σ) (state : σ) : List Call → List Answer × σ
  | [] => ([], state)
  | call :: rest =>
      let (answer, next) := step state call
      let (answers, last) := calls step next rest
      (answer :: answers, last)

end HostChannel

end Rsadb.Host
