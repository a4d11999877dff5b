import Rsadb.Session.StreamState

/-! What the owner of a stream does: `open_stream`, then the calls on the open
stream. A call is a sequence of steps between which the other tasks may act; a
step touches the state of its own stream and has at most one effect elsewhere. -/
namespace Rsadb

/-- The identity of one stream state. Unlike a local id it is never used twice. -/
abbrev Ref : Type := Nat

/-- What an acknowledgement is awaited for. -/
inductive Purpose where
  | opening (service : Bytes)
  | writing (rest : Bytes)
  deriving DecidableEq, Repr

/-- The three steps of `wait_ack`: look at the count, look at the flag, await the notifier. -/
inductive WaitStep where
  | acks
  | closed
  | parked
  deriving DecidableEq, Repr

/-- Where the owner stands. `idle` is an open stream without a pending call;
every other value but `unborn` and `gone` is inside a call. -/
inductive Owner where
  | unborn
  | inserting (service : Bytes)
  | posting (service : Bytes)
  | waiting (purpose : Purpose) (seen : UInt64) (stage : WaitStep)
  | judging (service : Bytes)
  | refusing (service : Bytes)
  | idle
  | took (chunk : Bytes)
  | acking (chunk : Bytes) (remote : UInt32)
  | writing (rest : Bytes)
  | counting (rest : Bytes) (remote : UInt32)
  | sending (rest : Bytes) (remote : UInt32) (seen : UInt64)
  | removing (remote : UInt32) (final : Bool)
  | farewell (remote : UInt32) (final : Bool)
  | gone
  deriving DecidableEq, Repr

/-- What a call gives back. -/
inductive Returned where
  | opened
  | openFailed (e : Error)
  | received (chunk : Option Bytes)
  | recvFailed (e : Error)
  | sent
  | sendFailed (e : Error)
  | closed
  | dropped
  deriving DecidableEq, Repr

/-- The calls on an open stream. -/
inductive StreamCall where
  | recv
  | send (data : Bytes)
  | close
  | drop
  deriving DecidableEq, Repr

/-- What a step of the owner does outside its own stream state. -/
inductive Effect where
  | nothing
  | insert
  | remove
  | post (msg : Message)
  deriving DecidableEq, Repr

/-- What a step of the owner reports of itself. -/
inductive Report where
  | took (chunk : Bytes)
  | closed
  | returned (result : Returned)
  deriving DecidableEq, Repr

/-- One step of an owner. -/
structure OwnerStep where
  state : StreamState
  owner : Owner
  effect : Effect
  reports : List Report
  deriving DecidableEq, Repr

namespace Owner

/-- Whether a `Stream` value or a pending `open_stream` holds the stream. -/
def Alive : Owner → Prop
  | .unborn => False
  | .gone => False
  | _ => True

instance (owner : Owner) : Decidable owner.Alive := by
  rcases owner <;> first | exact isTrue trivial | exact isFalse not_false

/-- The owner lets go of the stream. -/
def leave (state : StreamState) (effect : Effect) (result : Returned) : OwnerStep :=
  ⟨state.dropReceiver, .gone, effect, [.returned result]⟩

/-- An acknowledgement has arrived: judge the open, or write the next chunk. -/
def acknowledged (state : StreamState) : Purpose → OwnerStep
  | .opening service => ⟨state, .judging service, .nothing, []⟩
  | .writing [] => ⟨state, .idle, .nothing, [.returned .sent]⟩
  | .writing rest => ⟨state, .writing rest, .nothing, []⟩

/-- The stream closed before the acknowledgement. -/
def unacknowledged (state : StreamState) : Purpose → OwnerStep
  | .opening service => ⟨state, .refusing service, .nothing, []⟩
  | .writing _ => ⟨state, .idle, .nothing, [.returned (.sendFailed .streamClosed)]⟩

/-- The next step of the pending call. `outboxOpen` says whether the writer
still takes messages. No result means that the call waits, or that there is none. -/
def advance (maxPayload : UInt32) (outboxOpen : Bool) (state : StreamState) :
    Owner → Option OwnerStep
  | .inserting service => some ⟨state, .posting service, .insert, []⟩
  | .posting service =>
      let msg : Message := ⟨.open, state.localId, 0, service ++ [0]⟩
      if outboxOpen then some ⟨state, .waiting (.opening service) 0 .acks, .post msg, []⟩
      else some (leave state .nothing (.openFailed .disconnected))
  | .waiting purpose seen .acks =>
      if state.acks > seen then some (acknowledged state purpose)
      else some ⟨state, .waiting purpose seen .closed, .nothing, []⟩
  | .waiting purpose seen .closed =>
      if state.closed then some (unacknowledged state purpose)
      else some ⟨state, .waiting purpose seen .parked, .nothing, []⟩
  | .waiting purpose seen .parked =>
      if state.wake then some ⟨{ state with wake := false }, .waiting purpose seen .acks, .nothing, []⟩
      else none
  | .judging service =>
      if state.remote = none then some ⟨state, .refusing service, .nothing, []⟩
      else some ⟨state, .idle, .nothing, [.returned .opened]⟩
  | .refusing service => some (leave state .remove (.openFailed (.serviceRefused service)))
  | .took chunk =>
      match state.ids with
      | .ok (_, remote) => some ⟨state, .acking chunk remote, .nothing, []⟩
      | .error _ => some ⟨state, .idle, .nothing, [.returned (.received (some chunk))]⟩
  | .acking chunk remote =>
      if outboxOpen then
        some ⟨state, .idle, .post (.empty .okay state.localId remote),
          [.returned (.received (some chunk))]⟩
      else some ⟨state, .idle, .nothing, [.returned (.recvFailed .disconnected)]⟩
  | .writing rest =>
      match state.ids with
      | .ok (_, remote) => some ⟨state, .counting rest remote, .nothing, []⟩
      | .error e => some ⟨state, .idle, .nothing, [.returned (.sendFailed e)]⟩
  | .counting rest remote => some ⟨state, .sending rest remote state.acks, .nothing, []⟩
  | .sending rest remote seen =>
      let take := min rest.length maxPayload.toNat
      if outboxOpen then
        some ⟨state, .waiting (.writing (rest.drop take)) seen .acks,
          .post ⟨.write, state.localId, remote, rest.take take⟩, []⟩
      else some ⟨state, .idle, .nothing, [.returned (.sendFailed .disconnected)]⟩
  | .removing remote final => some ⟨state, .farewell remote final, .remove, []⟩
  | .farewell remote final =>
      -- A writer that is gone makes no difference: the transport is already down.
      let effect := if outboxOpen then .post (.empty .close state.localId remote) else .nothing
      if final then some (leave state effect .dropped)
      else some ⟨state, .idle, effect, [.returned .closed]⟩
  | .unborn => none
  | .idle => none
  | .gone => none

/-- The first step of a call on an open stream. For `close` and `drop` it is
all of `close_now` up to the mark; a stream that is closed already is left alone. -/
def begin (state : StreamState) : StreamCall → Option OwnerStep
  | .recv =>
      match state.queue with
      | chunk :: rest => some ⟨{ state with queue := rest }, .took chunk, .nothing, [.took chunk]⟩
      | [] =>
          if state.dataTx then none
          else some ⟨state, .idle, .nothing, [.returned (.received none)]⟩
  | .send [] => some ⟨state, .idle, .nothing, [.returned .sent]⟩
  | .send data => some ⟨state, .writing data, .nothing, []⟩
  | .close =>
      if state.closed then some ⟨state, .idle, .nothing, [.returned .closed]⟩
      else some ⟨state.markClosed, .removing (state.remote.getD 0) false, .nothing, [.closed]⟩
  | .drop =>
      if state.closed then some (leave state .nothing .dropped)
      else some ⟨state.markClosed, .removing (state.remote.getD 0) true, .nothing, [.closed]⟩

/-- Drop the pending call at the point where it waits. A pending open goes with
its stream; a pending send leaves the stream open. -/
def cancel (state : StreamState) : Owner → Option OwnerStep
  | .waiting (.opening _) _ .parked => some ⟨state.dropReceiver, .gone, .nothing, []⟩
  | .waiting (.writing _) _ .parked => some ⟨state, .idle, .nothing, []⟩
  | _ => none

end Owner
end Rsadb
