import Rsadb.Session.Stream
import Rsadb.Library.Transition
import Mathlib.Data.List.AList
import Mathlib.Logic.Function.Basic
import Mathlib.Tactic.SplitIfs

/-! The session as a system of tasks: the reader, the writer, any number of
stream owners and any number of `close` calls, over the registry and the outbox
that they share. A step is one access to what another task can see, except that
the reader dispatches a message in one step: no other task tells the lookup
from the effect. -/
namespace Rsadb

/-- The demultiplexing reader task. `marking` is inside `close_all`, between
the draining of the registry and the last of its marks. -/
inductive Reader where
  | reading
  | stopping
  | marking (refs : List Ref)
  | ended
  deriving DecidableEq, Repr

/-- The serialising writer task. -/
inductive Writer where
  | waiting
  | sending
  | ended
  deriving DecidableEq, Repr

/-- One call of `Session::close`. -/
inductive Closer where
  | ready
  | marking (refs : List Ref)
  | stopping
  | done
  deriving DecidableEq, Repr

/-- The streams that the task has taken out of the registry and not marked yet. -/
def Reader.unmarked : Reader → List Ref
  | .marking refs => refs
  | _ => []

def Closer.unmarked : Closer → List Ref
  | .marking refs => refs
  | _ => []

/-- All streams of one session, keyed by local id. -/
abbrev Registry : Type := AList fun _ : UInt32 => Ref

namespace Registry

def find (registry : Registry) (localId : UInt32) : Option Ref := registry.lookup localId

theorem find_empty (localId : UInt32) : find ∅ localId = none := rfl

theorem find_insert (registry : Registry) (id : UInt32) (ref : Ref) (localId : UInt32) :
    find (registry.insert id ref) localId =
      if localId = id then some ref else find registry localId := by
  split_ifs with h
  · subst h
    exact AList.lookup_insert registry
  · exact AList.lookup_insert_ne h

theorem find_erase (registry : Registry) (id localId : UInt32) :
    find (registry.erase id) localId = if localId = id then none else find registry localId := by
  split_ifs with h
  · subst h
    exact AList.lookup_erase localId registry
  · exact AList.lookup_erase_ne h

end Registry

/-- The session with everything its tasks hold. Each queued message carries the
stream whose owner posted it; the reader's own messages carry none. -/
structure Session where
  maxPayload : UInt32
  streams : Ref → StreamState
  owners : Ref → Owner
  nextRef : Ref
  registry : Registry
  nextId : UInt32
  outbox : List (Option Ref × Message)
  reader : Reader
  writer : Writer
  readerAborted : Bool
  writerAborted : Bool
  closers : Nat → Closer

/-- What happens in a session, as far as its properties speak of it. A
dispatched message is reported with the stream that it reaches. -/
inductive Event where
  | registered (ref : Ref) (id : UInt32)
  | dispatched (msg : Message) (target : Option Ref)
  | posted (source : Option Ref) (msg : Message)
  | handed (source : Option Ref) (msg : Message)
  | owner (ref : Ref) (report : Report)
  | drained (refs : List Ref)
  | cancelled (ref : Ref)
  | readerEnded
  deriving DecidableEq, Repr

/-- The steps of the tasks. `arrive` is a message from the device, `fail` an
error of the transport. -/
inductive Action where
  | openStream (service : Bytes)
  | call (ref : Ref) (call : StreamCall)
  | advance (ref : Ref)
  | cancel (ref : Ref)
  | arrive (msg : Message)
  | fail
  | drain
  | mark (ref : Ref)
  | finish
  | abortReader
  | hand
  | handed
  | sinkFail
  | abortWriter
  | close (closer : Nat)
  | closeMark (closer : Nat) (ref : Ref)
  | closeAbortReader (closer : Nat)
  | closeAbortWriter (closer : Nat)
  deriving DecidableEq, Repr

namespace Session

/-- Start a session on a transport whose handshake already completed. -/
def start (maxPayload : UInt32) : Session where
  maxPayload := maxPayload
  streams := fun _ => StreamState.fresh 0
  owners := fun _ => .unborn
  nextRef := 0
  registry := ∅
  nextId := 1
  outbox := []
  reader := .reading
  writer := .waiting
  readerAborted := false
  writerAborted := false
  closers := fun _ => .ready

/-- Whether a message can still be queued for the writer. -/
def outboxOpen (s : Session) : Bool := decide (s.writer ≠ .ended)

def setStream (s : Session) (ref : Ref) (state : StreamState) : Session :=
  { s with streams := Function.update s.streams ref state }

def setOwner (s : Session) (ref : Ref) (owner : Owner) : Session :=
  { s with owners := Function.update s.owners ref owner }

/-- The stream registered under a local id. -/
def get (s : Session) (localId : UInt32) : Option Ref := Registry.find s.registry localId

/-- The first half of `register`: allocate a local id, never zero, for a fresh stream. -/
def allocate (s : Session) (service : Bytes) : Session :=
  let localId := if s.nextId = 0 then s.nextId + 1 else s.nextId
  let s := (s.setStream s.nextRef (StreamState.fresh localId)).setOwner s.nextRef (.inserting service)
  { s with nextId := localId + 1, nextRef := s.nextRef + 1 }

/-- What a step of an owner adds to the trace. -/
def events (ref : Ref) (p : OwnerStep) : List Event :=
  (match p.effect with
    | .insert => [.registered ref p.state.localId]
    | .post msg => [.posted (some ref) msg]
    | _ => []) ++ p.reports.map (Event.owner ref)

/-- Carry out one step of an owner. -/
def perform (s : Session) (ref : Ref) (p : OwnerStep) : Session × List Event :=
  let s := (s.setStream ref p.state).setOwner ref p.owner
  (match p.effect with
    | .nothing => s
    | .insert => { s with registry := s.registry.insert p.state.localId ref }
    | .remove => { s with registry := s.registry.erase p.state.localId }
    | .post msg => { s with outbox := s.outbox ++ [(some ref, msg)] },
    events ref p)

/-- Nobody is listening: tell the device so it stops sending. -/
def refuse (s : Session) (msg : Message) : Session × List Event :=
  if s.outboxOpen then
    let refusal := Message.empty .close msg.arg1 msg.arg0
    ({ s with outbox := s.outbox ++ [(none, refusal)] }, [.posted none refusal])
  else ({ s with reader := .stopping }, [])

/-- Route one message to the stream that it names. A message that the session
does not support stops the reader. -/
def route (s : Session) (msg : Message) : Session × List Event :=
  match msg.command, s.get msg.arg1 with
  | .okay, some ref => (s.setStream ref ((s.streams ref).ack msg.arg0), [])
  | .okay, none => (s, [])
  | .write, some ref =>
      if ((s.streams ref).deliver msg.payload).2 then
        (s.setStream ref ((s.streams ref).deliver msg.payload).1, [])
      else s.refuse msg
  | .write, none => s.refuse msg
  | .close, some ref =>
      ({ s.setStream ref (s.streams ref).markClosed with registry := s.registry.erase msg.arg1 }, [])
  | .close, none => (s, [])
  | .startTls, _ => ({ s with reader := .stopping }, [])
  | .open, _ => ({ s with reader := .stopping }, [])
  | .connect, _ => (s, [])
  | .auth, _ => (s, [])
  | .sync, _ => (s, [])

def dispatch (s : Session) (msg : Message) : Session × List Event :=
  ((s.route msg).1, .dispatched msg (s.get msg.arg1) :: (s.route msg).2)

/-- The registered streams, in any order. -/
def registered (s : Session) : List Ref := s.registry.entries.map Sigma.snd

/-- The first half of `close_all`: take every stream out of the registry. -/
def drain (s : Session) : Session × List Event :=
  ({ s with registry := ∅ }, [.drained s.registered])

/-- `mark_closed` on one stream. -/
def mark (s : Session) (ref : Ref) : Session := s.setStream ref (s.streams ref).markClosed

def setCloser (s : Session) (closer : Nat) (state : Closer) : Session :=
  { s with closers := Function.update s.closers closer state }

/-- The steps of the reader besides dispatching. -/
def readerStep (s : Session) : Action → Option (Session × List Event)
  | .fail => if s.reader = .reading then some ({ s with reader := .stopping }, []) else none
  | .drain =>
      if s.reader = .stopping then
        some ({ s.drain.1 with reader := .marking s.registered }, s.drain.2)
      else none
  | .mark ref =>
      match s.reader with
      | .marking refs =>
          if ref ∈ refs then some ({ s.mark ref with reader := .marking (refs.erase ref) }, [])
          else none
      | _ => none
  | .finish =>
      if s.reader = .marking [] then some ({ s with reader := .ended }, [.readerEnded]) else none
  | .abortReader =>
      -- The task is cancelled where it waits for a message, and runs nothing any more.
      if s.readerAborted ∧ s.reader = .reading then
        some ({ s with reader := .ended }, [.readerEnded])
      else none
  | _ => none

/-- The steps of the writer. A writer that ends drops the outbox. -/
def writerStep (s : Session) : Action → Option (Session × List Event)
  | .hand =>
      match s.writer, s.outbox with
      | .waiting, (source, msg) :: rest =>
          some ({ s with writer := .sending, outbox := rest }, [.handed source msg])
      | _, _ => none
  | .handed => if s.writer = .sending then some ({ s with writer := .waiting }, []) else none
  | .sinkFail =>
      if s.writer = .sending then some ({ s with writer := .ended, outbox := [] }, []) else none
  | .abortWriter =>
      if s.writerAborted ∧ s.writer ≠ .ended then
        some ({ s with writer := .ended, outbox := [] }, [])
      else none
  | _ => none

/-- The steps of the calls of `Session::close`. -/
def closerStep (s : Session) : Action → Option (Session × List Event)
  | .close closer =>
      if s.closers closer = .ready then
        some (s.drain.1.setCloser closer (.marking s.registered), s.drain.2)
      else none
  | .closeMark closer ref =>
      match s.closers closer with
      | .marking refs =>
          if ref ∈ refs then some ((s.mark ref).setCloser closer (.marking (refs.erase ref)), [])
          else none
      | _ => none
  | .closeAbortReader closer =>
      if s.closers closer = .marking [] then
        some ({ s.setCloser closer .stopping with readerAborted := true }, [])
      else none
  | .closeAbortWriter closer =>
      if s.closers closer = .stopping then
        some ({ s.setCloser closer .done with writerAborted := true }, [])
      else none
  | _ => none

/-- One step of the session. -/
def step (s : Session) : Action → Option (Session × List Event)
  | .openStream service =>
      -- A name with a NUL is refused before anything happens.
      if 0 ∈ service then none else some (s.allocate service, [])
  | .call ref call =>
      if s.owners ref = .idle then ((Owner.begin (s.streams ref) call).map (s.perform ref)) else none
  | .advance ref =>
      ((s.owners ref).advance s.maxPayload s.outboxOpen (s.streams ref)).map (s.perform ref)
  | .cancel ref =>
      ((s.owners ref).cancel (s.streams ref)).map fun p =>
        ((s.perform ref p).1, .cancelled ref :: (s.perform ref p).2)
  | .arrive msg => if s.reader = .reading then some (s.dispatch msg) else none
  | .fail => s.readerStep .fail
  | .drain => s.readerStep .drain
  | .mark ref => s.readerStep (.mark ref)
  | .finish => s.readerStep .finish
  | .abortReader => s.readerStep .abortReader
  | .hand => s.writerStep .hand
  | .handed => s.writerStep .handed
  | .sinkFail => s.writerStep .sinkFail
  | .abortWriter => s.writerStep .abortWriter
  | .close closer => s.closerStep (.close closer)
  | .closeMark closer ref => s.closerStep (.closeMark closer ref)
  | .closeAbortReader closer => s.closerStep (.closeAbortReader closer)
  | .closeAbortWriter closer => s.closerStep (.closeAbortWriter closer)

/-- The runs of a session: every message the device may send, every schedule of the tasks. -/
def Run (maxPayload : UInt32) : List Event → Session → Prop :=
  Transition.Runs step (fun _ _ _ => True) (start maxPayload)

end Session
end Rsadb
