import Rsadb.Channel
import Rsadb.Services.Sync.Codec
import Rsadb.Library.Text

/-! The client of one `sync:` stream. Requests are sequential and share one
reader, whose position in the reply stream outlives each of them. -/
namespace Rsadb

/-- Which second-version requests the device supports. -/
structure SyncFeatures where
  lsV2 : Bool
  statV2 : Bool
  sendrecvV2 : Bool
  deriving DecidableEq

/-- Derive from a device's advertised feature list. -/
def SyncFeatures.fromFeatures (features : List Bytes) : SyncFeatures where
  lsV2 := features.contains (ascii "ls_v2")
  statV2 := features.contains (ascii "stat_v2")
  sendrecvV2 := features.contains (ascii "sendrecv_v2")

/-- One `read` of a local source: what it delivers, at most one buffer of it. -/
abbrev SourceRead : Type := Result { bytes : Bytes // bytes.length ≤ Sync.DATA_MAX }

namespace SyncClient

open Sync ChannelReader

variable {α : Type}

def readId : Async Error ChannelReader Bytes := readExact 4

/-- Read the message behind a failure id and report it. -/
def fail : Async Error ChannelReader α := do
  let len ← readU32
  let msg ← readExact len.toNat
  Async.fail (.remoteFailure (Utf8.lossy msg))

/-- The error for an id that no branch expects. -/
def unexpected (id : Bytes) : Error := .protocol s!"unexpected sync reply {Utf8.text id}"

/-- Read a status word. -/
def readStatus : Async Error ChannelReader Unit := do
  let reply ← readId
  if reply = id.OKAY then
    let _ ← readU32
    pure ()
  else if reply = id.FAIL then fail
  else Async.fail (unexpected reply)

def stat (features : SyncFeatures) (path : Bytes) : Async Error ChannelReader Stat :=
  if features.statV2 then do
    let request ← Async.lift (request id.STA2 path)
    send request
    let b ← readExact STAT_V2_LEN
    Async.lift (expectId b id.STA2)
    pure (statV2 b)
  else do
    let request ← Async.lift (request id.STAT path)
    send request
    let b ← readExact STAT_V1_LEN
    Async.lift (expectId b id.STAT)
    pure (statV1 b)

/-- The entry header that a listing consists of: its id, its length, its stat
and the length of the name behind it. -/
def dent (features : SyncFeatures) : Bytes × Nat :=
  if features.lsV2 then (id.DNT2, DENT_V2_LEN) else (id.DENT, DENT_V1_LEN)

def dentStat (features : SyncFeatures) (b : Bytes) : Stat × Nat :=
  if features.lsV2 then (statV2 b, dentV2Namelen b) else (statV1 b, dentV1Namelen b)

theorem dent_positive (features : SyncFeatures) : 0 < (dent features).2 := by
  unfold dent
  split <;> decide

/-- The loop of `list`, with the entries collected so far. -/
def listLoop (features : SyncFeatures) (entries : List Entry) (reader : ChannelReader) :
    Option (Result (List Entry)) × ChannelReader :=
  match _hHead : readExact (dent features).2 reader with
  | (none, next) => (none, next)
  | (some (.error e), next) => (some (.error e), next)
  | (some (.ok b), next) =>
      if b.take 4 = id.DONE then (some (.ok entries), next)
      else if b.take 4 = id.FAIL then
        (some (.error (.remoteFailure (Text.trimEnd 0 (Utf8.lossy (b.drop 8))))), next)
      else
        match expectId b (dent features).1 with
        | .error e => (some (.error e), next)
        | .ok () =>
            match _hName : readExact (dentStat features b).2 next with
            | (none, last) => (none, last)
            | (some (.error e), last) => (some (.error e), last)
            | (some (.ok name), last) =>
                listLoop features (entries ++ [entry (dentStat features b).1 name]) last
  termination_by reader.available
  decreasing_by
    have hHeader := readExact_available _hHead
    have hRest := readExact_available _hName
    have hPositive := dent_positive features
    omega

def readEntries (features : SyncFeatures) : Async Error ChannelReader (List Entry) :=
  listLoop features []

def list (features : SyncFeatures) (path : Bytes) : Async Error ChannelReader (List Entry) := do
  let request ← Async.lift (request (if features.lsV2 then id.LIS2 else id.LIST) path)
  send request
  readEntries features

/-- Next data chunk of a running pull, `none` at its end. -/
def nextData : Async Error ChannelReader (Option Bytes) := do
  let reply ← readId
  if reply = id.DATA then
    let len ← readU32
    if DATA_MAX < len.toNat then
      Async.fail (.protocol s!"DATA chunk of {len} bytes exceeds {DATA_MAX}")
    else
      let chunk ← readExact len.toNat
      pure (some chunk)
  else if reply = id.DONE then
    let _ ← readU32
    pure none
  else if reply = id.FAIL then fail
  else Async.fail (unexpected reply)

private theorem fail_behind (start : ChannelReader) :
    Async.Keeps (Behind start) (fail : Async Error ChannelReader α) :=
  (readU32_behind start).bind fun _ => (readExact_behind start _).bind fun _ => .fail _

/-- Reading a status reads only. -/
theorem readStatus_behind (start : ChannelReader) : Async.Keeps (Behind start) readStatus := by
  refine (readExact_behind start 4).bind fun reply => ?_
  split
  · exact (readU32_behind start).bind fun _ => .pure _
  · split
    · exact fail_behind start
    · exact .fail _

/-- Taking a data chunk reads only. -/
theorem nextData_behind (start : ChannelReader) : Async.Keeps (Behind start) nextData := by
  refine (readExact_behind start 4).bind fun reply => ?_
  split
  · refine (readU32_behind start).bind fun len => ?_
    split
    · exact .fail _
    · exact (readExact_behind start _).bind fun _ => .pure _
  · split
    · exact (readU32_behind start).bind fun _ => .pure _
    · split
      · exact fail_behind start
      · exact .fail _

/-- Send the request that starts a pull. -/
def startPull (features : SyncFeatures) (path : Bytes) : Async Error ChannelReader Unit :=
  if features.sendrecvV2 then do
    let request ← Async.lift (request id.RCV2 path)
    send request
    send (Sync.word id.RCV2 0)
  else do
    let request ← Async.lift (request id.RECV path)
    send request

/-- The items that a caller obtains with at most `polls` polls of the stream
that `pull` returns. The flag says that the stream has reported an error. A
caller that finds the stream waiting, or ended, polls no further. -/
def pullItems : Nat → Bool → ChannelReader → List (Result Bytes) × ChannelReader
  | 0, _, reader => ([], reader)
  | _ + 1, true, reader => ([], reader)
  | polls + 1, false, reader =>
      match nextData reader with
      | (some (.ok (some chunk)), next) =>
          let (items, last) := pullItems polls false next
          (.ok chunk :: items, last)
      | (some (.ok none), next) => ([], next)
      | (some (.error e), next) =>
          let (items, last) := pullItems polls true next
          (.error e :: items, last)
      | (none, next) => ([], next)

def pollItems (polls : Nat) : Async Error ChannelReader (List (Result Bytes)) := fun reader =>
  (some (.ok (pullItems polls false reader).1), (pullItems polls false reader).2)

/-- Pull `path`, poll the stream `polls` times and drop it. -/
def pull (features : SyncFeatures) (path : Bytes) (polls : Nat) :
    Async Error ChannelReader (List (Result Bytes)) := do
  startPull features path
  pollItems polls

/-- The decimal digits of a word. -/
def decimal (value : UInt32) : Bytes :=
  (Nat.toDigits 10 value.toNat).map fun digit => UInt8.ofNat digit.toNat

/-- Send the request that starts a push. -/
def startPush (features : SyncFeatures) (path : Bytes) (mode : UInt32) :
    Async Error ChannelReader Unit :=
  if features.sendrecvV2 then do
    let request ← Async.lift (request id.SND2 path)
    send request
    send (Sync.word id.SND2 mode ++ toLeBytes 0)
  else do
    let request ← Async.lift (request id.SEND (path ++ ascii "," ++ decimal mode))
    send request

/-- The loop of `push`: one data chunk for each read of the source, up to its end. -/
def pushChunks : List SourceRead → Async Error ChannelReader Unit
  | [] => pure ()
  | .error e :: _ => Async.fail e
  | .ok ⟨buf, _⟩ :: rest =>
      if buf.length = 0 then pure ()
      else if buf.length < 2 ^ 32 then do
        send (Sync.word id.DATA (UInt32.ofNat buf.length) ++ buf)
        pushChunks rest
      else Async.fail (.protocol "chunk too large")

/-- Push `source` to `path` with the given mode bits and modification time. -/
def push (features : SyncFeatures) (path : Bytes) (mode mtime : UInt32)
    (source : List SourceRead) : Async Error ChannelReader Unit := do
  startPush features path mode
  pushChunks source
  send (Sync.word id.DONE mtime)
  readStatus

end SyncClient
end Rsadb
