import Rsadb.Wire.Message

/-! Per-stream state touched from both the reader task and the owner of the
stream. Its operations are built from the single updates that the other side
can observe between. -/
namespace Rsadb

/-- The state of one stream. The channel for payloads appears as its two ends
and its content: `dataTx` says that the sender is still in place, `dataRx` that
the receiver is. `wake` is the permit of the notifier. -/
structure StreamState where
  localId : UInt32
  remoteId : UInt32
  closed : Bool
  acks : UInt64
  wake : Bool
  dataTx : Bool
  queue : List Bytes
  dataRx : Bool
  deriving DecidableEq, Repr

namespace StreamState

/-- A stream as `register` creates it. -/
def fresh (localId : UInt32) : StreamState :=
  ⟨localId, 0, false, 0, false, true, [], true⟩

/-- Remote id, or `none` while the open is pending. -/
def remote (s : StreamState) : Option UInt32 := if s.remoteId = 0 then none else some s.remoteId

/-- The local and the remote id, unless the stream is closed or not yet open. -/
def ids (s : StreamState) : Result (UInt32 × UInt32) :=
  if s.closed then .error .streamClosed
  else match s.remote with
    | none => .error .streamClosed
    | some remote => .ok (s.localId, remote)

def adopt (s : StreamState) (remoteId : UInt32) : StreamState :=
  { s with remoteId := if s.remote = none then remoteId else s.remoteId }

def count (s : StreamState) : StreamState := { s with acks := s.acks + 1 }

def notifyOne (s : StreamState) : StreamState := { s with wake := true }

def shut (s : StreamState) : StreamState := { s with closed := true }

def release (s : StreamState) : StreamState := { s with dataTx := false }

/-- Record an acknowledgement, adopting `remoteId` if this is the first, and wake the owner. -/
def ack (s : StreamState) (remoteId : UInt32) : StreamState := ((s.adopt remoteId).count).notifyOne

/-- Deliver a payload from the device; `false` when nobody listens any more. -/
def deliver (s : StreamState) (data : Bytes) : StreamState × Bool :=
  if s.dataTx && s.dataRx then ({ s with queue := s.queue ++ [data] }, true) else (s, false)

/-- Mark closed and wake any waiter. -/
def markClosed (s : StreamState) : StreamState := s.shut.release.notifyOne

/-- The receiver is dropped together with whoever held it. -/
def dropReceiver (s : StreamState) : StreamState := { s with dataRx := false }

end StreamState
end Rsadb
