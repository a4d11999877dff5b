import Rsadb.Fake.Sync
import Rsadb.Services.Sync.Listing

/-! Remote calls. A client of a `sync:` stream and the handler at its other end
together do what the file system does by itself. Neither side sees how the
stream cuts what the other one sends. -/
namespace Rsadb.Fake

open Sync ChannelReader

/-- An operation on the file system. The source of a push is read to its end. -/
inductive Operation where
  | stat (path : String)
  | list (path : String)
  | pull (path : String) (polls : Nat)
  | push (path : String) (mode mtime : UInt32) (source : List SourceRead) (chunks : List Bytes)
      (hSource : Delivers source chunks)

namespace Operation

def path : Operation → String
  | stat path => path
  | list path => path
  | pull path _ => path
  | push path .. => path

/-- The call of the client. -/
def call : Operation → Call
  | stat path => .stat (Utf8.encode path)
  | list path => .list (Utf8.encode path)
  | pull path polls => .pull (Utf8.encode path) polls
  | push path mode mtime source _ _ => .push (Utf8.encode path) mode mtime source

/-- The texts that the operation and its reply carry are short enough for their length fields. -/
def Fits (operation : Operation) : Prop := (Utf8.encode operation.path).length + 64 < 2 ^ 32

instance (operation : Operation) : Decidable operation.Fits :=
  inferInstanceAs (Decidable ((Utf8.encode operation.path).length + 64 < 2 ^ 32))

end Operation

/-- What a stat block has room for. -/
def report (v2 : Bool) (stat : Stat) : Stat :=
  if v2 then { stat with
    error := some (stat.error.getD 0)
    detail := some (stat.detail.getD StatDetail.default) }
  else ⟨stat.mode, (sizeV1 stat.size).toUInt64, (mtimeV1 stat.mtime).toUInt64.toInt64, none, none⟩

/-- The stat of a path that need not exist. -/
def statOrMissing (v2 : Bool) (fs : Fs) (path : Bytes) : Stat :=
  (fs.stat path).getD (if v2 then SyncHandler.missingStat else SyncHandler.emptyStat)

/-- Why a file cannot be read. -/
def openFailed (path : Bytes) : Bytes :=
  ascii "open failed: No such file or directory (" ++ path ++ ascii ")"

/-- The operation, carried out where the file system is. -/
def Operation.perform (features : SyncFeatures) (fs : Fs) : Operation → Fs × Result Outcome
  | stat path => (fs, .ok (.stat (report features.statV2 (statOrMissing features.statV2 fs (Utf8.encode path)))))
  | list path =>
      (fs, .ok (.listing (((fs.list (Utf8.encode path)).getD []).map fun child =>
        entry (report features.lsV2 child.2) child.1)))
  | pull path _ =>
      (fs, .ok (.pulled (match fs.read (Utf8.encode path) with
        | some data => (Chunks.chunks DATA_MAX data).map .ok
        | none => [.error (.remoteFailure (openFailed (Utf8.encode path)))])))
  | push path mode mtime _ chunks _ =>
      match fs.write (Utf8.encode path) mode (Int64.ofNat mtime.toNat) chunks.flatten with
      | (.ok (), fs) => (fs, .ok .pushed)
      | (.error e, fs) => (fs, .error (.remoteFailure e))

/-- A pull is polled until it has nothing more to yield. -/
def Operation.Polled (fs : Fs) : Operation → Prop
  | pull path polls => (Chunks.chunks DATA_MAX ((fs.read (Utf8.encode path)).getD [])).length < polls
  | _ => True

/-- Operations one after the other. -/
def performAll (features : SyncFeatures) : Fs → List Operation → Fs × List (Result Outcome)
  | fs, [] => (fs, [])
  | fs, operation :: rest =>
      let next := operation.perform features fs
      ((performAll features next.1 rest).1, next.2 :: (performAll features next.1 rest).2)

/-- Every pull is polled until it has nothing more to yield. -/
def AllPolled (features : SyncFeatures) : Fs → List Operation → Prop
  | _, [] => True
  | fs, operation :: rest =>
      operation.Polled fs ∧ AllPolled features (operation.perform features fs).1 rest

/-- No path in the file system is too long for its length field. -/
def Fs.Short (fs : Fs) : Prop := ∀ path ∈ fs.nodes, path.length < 2 ^ 32

/-- The client after the given calls. -/
def after (features : SyncFeatures) : ChannelReader → List Call → ChannelReader
  | reader, [] => reader
  | reader, call :: rest => after features (call.exec features reader).2 rest

/-- The two ends of one stream. The handler is sent, in these pieces, what the
client sends in these operations, and the client receives what the handler replies. -/
structure Connected (features : SyncFeatures) (fs : Fs) (reader : ChannelReader)
    (operations : List Operation) (pieces : List Bytes) : Prop where
  accepts : reader.Accepts
  requests : ∃ messages : List Bytes, pieces.flatten = messages.flatten ∧
    (after features reader (operations.map Operation.call)).channel.sent = reader.channel.sent ++ messages
  replies : reader.Holds (SyncHandler.receive (.new fs) pieces).2.flatten

/-- A request with its text. -/
def textMessage (id text : Bytes) : Bytes := Sync.word id (UInt32.ofNat text.length) ++ text

/-- The messages that the client sends for an operation. -/
def Operation.messages (features : SyncFeatures) : Operation → List Bytes
  | stat path => [textMessage (if features.statV2 then id.STA2 else id.STAT) (Utf8.encode path)]
  | list path => [textMessage (if features.lsV2 then id.LIS2 else id.LIST) (Utf8.encode path)]
  | pull path _ =>
      if features.sendrecvV2 then [textMessage id.RCV2 (Utf8.encode path), Sync.word id.RCV2 0]
      else [textMessage id.RECV (Utf8.encode path)]
  | push path mode mtime _ chunks _ => pushMessages features (Utf8.encode path) mode mtime chunks

/-- The reply that the handler gives to an operation. -/
def Operation.reply (features : SyncFeatures) (fs : Fs) : Operation → Reply
  | stat path =>
      .stat (if features.statV2 then encodeStatV2 [] (statOrMissing true fs (Utf8.encode path))
        else encodeStatV1 [] (statOrMissing false fs (Utf8.encode path)))
  | list path =>
      .listing (((fs.list (Utf8.encode path)).getD []).map fun child => (dentBody features child.2, child.1))
        (List.replicate ((SyncClient.dent features).2 - 4) 0)
  | pull path _ =>
      match fs.read (Utf8.encode path) with
      | some data => .file (Chunks.chunks DATA_MAX data) 0
      | none => .brokenFile [] (openFailed (Utf8.encode path))
  | push path mode mtime _ chunks _ =>
      match (fs.write (Utf8.encode path) mode (Int64.ofNat mtime.toNat) chunks.flatten).1 with
      | .ok () => .okay 0
      | .error e => .failed e

/-- A path is short enough for its length field. -/
private theorem length_path {operation : Operation} (hFits : operation.Fits) :
    (Utf8.encode operation.path).length < 2 ^ 32 := by
  unfold Operation.Fits at hFits
  omega

section Client

variable {features : SyncFeatures} {reader : ChannelReader}

/-- On a channel that takes everything, a request with its text is sent. -/
private theorem send_text {id text : Bytes} (hFits : text.length < 2 ^ 32) (hAccepts : reader.Accepts) :
    (do
      let request ← Async.lift (Sync.request id text)
      send request : Async Error ChannelReader Unit) reader =
      (some (.ok ()), reader.afterSending [textMessage id text]) := by
  rw [Sync.request, if_pos hFits, Async.bind_ok (Async.lift_apply _ _), send_accepted hAccepts]
  rfl

/-- The digits of a word are at most ten. -/
private theorem length_decimal (value : UInt32) : (SyncClient.decimal value).length ≤ 10 := by
  rw [SyncClient.decimal, List.length_map]
  exact Nat.length_toDigits_le_iff (by decide) (by decide) |>.mpr (Nat.lt_trans value.toNat_lt (by decide))

/-- The text of a push fits where its path does. -/
private theorem length_requestText (features : SyncFeatures) {path : String} (mode : UInt32)
    (hFits : (Utf8.encode path).length + 64 < 2 ^ 32) :
    (requestText features (Utf8.encode path) mode).length < 2 ^ 32 := by
  have hDigits := length_decimal mode
  unfold requestText
  split
  · omega
  · rw [List.length_append, List.length_append]
    have hComma : (ascii ",").length = 1 := rfl
    omega

/-- On a channel that takes everything, the messages of an operation are sent. -/
private theorem request_messages (features : SyncFeatures) {operation : Operation} (hFits : operation.Fits)
    (hAccepts : reader.Accepts) :
    operation.call.request features reader =
      (some (.ok ()), reader.afterSending (operation.messages features)) := by
  have hText := length_path hFits
  cases operation with
  | stat path => exact send_text hText hAccepts
  | list path => exact send_text hText hAccepts
  | pull path polls =>
      simp only [Operation.call, Call.request, SyncClient.startPull, Operation.messages]
      split
      · have hPath : (Utf8.encode path).length < 2 ^ 32 := hText
        rw [Sync.request, if_pos hPath, Async.bind_ok (Async.lift_apply _ _),
          Async.bind_ok (send_accepted hAccepts _), send_accepted (hAccepts.afterSending _),
          afterSending_append]
        rfl
      · exact send_text hText hAccepts
  | push path mode mtime source chunks hSource =>
      exact request_accepted hSource hAccepts (length_requestText features mode hFits)

/-- Taking the items of a pull reads only. -/
private theorem pullItems_behind (start : ChannelReader) (polls : Nat) (failed : Bool) :
    ∀ reader, Behind start reader → Behind start (SyncClient.pullItems polls failed reader).2 := by
  induction polls generalizing failed with
  | zero => exact fun _ h => h
  | succ polls ih =>
      intro reader h
      cases failed with
      | true => exact h
      | false =>
          have hNext := SyncClient.nextData_behind start reader h
          rcases hRead : SyncClient.nextData reader with ⟨_ | e | _ | chunk, next⟩
          all_goals
            rw [hRead] at hNext
            simp only [SyncClient.pullItems, hRead]
          · exact hNext
          · exact ih true next hNext
          · exact hNext
          · exact ih false next hNext

/-- Reading the entries of a listing reads only. -/
private theorem listLoop_behind (start : ChannelReader) (entries : List Entry) :
    ∀ reader, Behind start reader → Behind start (SyncClient.listLoop features entries reader).2 := by
  intro reader h
  have hRead : ∀ {len : Nat} {now next : ChannelReader} {result : Option (Result Bytes)},
      readExact len now = (result, next) → Behind start now → Behind start next :=
    fun {len now next result} hRun hNow => by
      have hNext := readExact_behind start len now hNow
      rwa [hRun] at hNext
  fun_induction SyncClient.listLoop features entries reader with
  | case1 _ _ _ hHead | case2 _ _ _ _ hHead | case3 _ _ _ _ hHead | case4 _ _ _ _ hHead
  | case5 _ _ _ _ hHead => exact hRead hHead h
  | case6 _ _ _ _ hHead _ _ _ _ hName | case7 _ _ _ _ hHead _ _ _ _ _ hName =>
      exact hRead hName (hRead hHead h)
  | case8 _ _ _ _ hHead _ _ _ _ _ hName ih => exact ih (hRead hName (hRead hHead h))

/-- Whatever a call makes of its reply, it sends nothing more. -/
theorem answer_behind (features : SyncFeatures) (call : Call) (start : ChannelReader) :
    Async.Keeps (Behind start) (call.answer features) := by
  have hStat : ∀ {len : Nat} {want : Bytes} (parse : Bytes → Stat), Async.Keeps (Behind start) (do
      let b ← readExact len
      Async.lift (expectId b want)
      pure (Outcome.stat (parse b)) : Async Error ChannelReader Outcome) := fun {len want} parse =>
    (readExact_behind start len).bind fun _ => (Async.Keeps.lift _).bind fun _ => .pure _
  cases call with
  | stat path =>
      simp only [Call.answer]
      split
      · exact hStat statV2
      · exact hStat statV1
  | list path =>
      have hEntries : Async.Keeps (Behind start) (SyncClient.readEntries features) := listLoop_behind start []
      exact hEntries.bind fun _ => .pure _
  | pull path polls =>
      have hItems : Async.Keeps (Behind start) (SyncClient.pollItems polls) := pullItems_behind start polls false
      exact hItems.bind fun _ => .pure _
  | push path mode mtime source => exact (SyncClient.readStatus_behind start).bind fun _ => .pure _

end Client

section Handler

variable {fs : Fs} {out : List Bytes} {id text : Bytes}

private theorem request_send (path : Bytes) : SyncHandler.request fs Sync.id.SEND path =
    (.receiving (pathAndMode path).1 (pathAndMode path).2 [], []) := rfl

private theorem request_snd2 (path : Bytes) :
    SyncHandler.request fs Sync.id.SND2 path = (.awaitSendSetup path, []) := rfl

private theorem request_recv (path : Bytes) :
    SyncHandler.request fs Sync.id.RECV path = (.idle, SyncHandler.recv fs path) := rfl

private theorem request_rcv2 (path : Bytes) :
    SyncHandler.request fs Sync.id.RCV2 path = (.awaitRecvSetup path, []) := rfl

private theorem request_list (v2 : Bool) (path : Bytes) :
    SyncHandler.request fs (if v2 then Sync.id.LIS2 else Sync.id.LIST) path =
      (.idle, SyncHandler.listReply fs v2 path) := by
  cases v2 <;> rfl

private theorem request_stat (v2 : Bool) (path : Bytes) :
    SyncHandler.request fs (if v2 then Sync.id.STA2 else Sync.id.STAT) path =
      (.idle, [if v2 then encodeStatV2 Sync.id.STA2 (statOrMissing v2 fs path)
        else encodeStatV1 Sync.id.STAT (statOrMissing v2 fs path)]) := by
  cases v2 <;> rfl

/-- The text of a push is text. -/
private theorem lossy_requestText (path : String) (mode : UInt32) :
    Utf8.lossy (Utf8.encode path ++ ascii "," ++ SyncClient.decimal mode) =
      Utf8.encode path ++ ascii "," ++ SyncClient.decimal mode := by
  have hDigits : Utf8.lossy (SyncClient.decimal mode) = SyncClient.decimal mode := by
    have hAscii : ∀ byte ∈ SyncClient.decimal mode, byte < 0x80 := fun byte hMem =>
      UInt8.lt_iff_toNat_lt.mpr (Nat.lt_of_le_of_lt (mem_decimal hMem).2 (by decide))
    rw [← Utf8.encode_ascii hAscii, Utf8.lossy_encode]
  rw [List.append_assoc, show ascii "," ++ SyncClient.decimal mode = 44 :: SyncClient.decimal mode from rfl,
    Utf8.lossy_append (by decide), Utf8.lossy_encode, hDigits]

/-- A whole message in front is taken. -/
private theorem drain_whole {now : State × Fs × List Bytes} {message : Bytes} (more : Bytes)
    (hHeader : 8 ≤ message.length)
    (hLength : SyncHandler.messageLength now (message.take 8) = some message.length) :
    SyncHandler.requests.drain now (message ++ more) =
      SyncHandler.requests.drain (SyncHandler.accept now message) more :=
  Incremental.ofFrames_drain more hHeader hLength

private theorem length_textMessage (text : Bytes) (hId : id.length = 4) : (textMessage id text).length = 8 + text.length := by
  rw [textMessage, List.length_append, word_length hId]

/-- A request is answered by what its text leads to. -/
private theorem drain_request (hId : id.length = 4) (hOther : id ≠ Sync.id.QUIT) (hFits : text.length < 2 ^ 32)
    (more : Bytes) : SyncHandler.requests.drain (.idle, fs, out) (textMessage id text ++ more) =
      SyncHandler.requests.drain ((SyncHandler.request fs id (Utf8.lossy text)).1, fs,
        out ++ (SyncHandler.request fs id (Utf8.lossy text)).2) more := by
  obtain ⟨hFront, -, hHeadId, hHeadArg, hBody⟩ := front_word hId (UInt32.ofNat text.length) text
  have hLength := length_textMessage text hId
  rw [drain_whole more (by omega)]
  · simp only [SyncHandler.accept, textMessage, hFront, hBody]
  · rw [textMessage] at hLength
    simp only [SyncHandler.messageLength, textMessage, hHeadId, hHeadArg, if_neg hOther, hLength,
      UInt32.toNat_ofNat_of_lt' hFits]

/-- A run of data frames is put behind what was received. -/
private theorem drain_frames {path data : Bytes} {mode : UInt32} (chunks : List Bytes)
    (hFit : ∀ chunk ∈ chunks, chunk.length ≤ DATA_MAX) (more : Bytes) :
    SyncHandler.requests.drain (.receiving path mode data, fs, out) ((chunks.map dataFrame).flatten ++ more) =
      SyncHandler.requests.drain (.receiving path mode (data ++ chunks.flatten), fs, out) more := by
  induction chunks generalizing data with
  | nil => simp
  | cons chunk chunks ih =>
      have hFits : chunk.length < 2 ^ 32 := Nat.lt_of_le_of_lt (hFit chunk List.mem_cons_self) (by decide)
      obtain ⟨hFront, -, hHeadId, hHeadArg, hBody⟩ :=
        front_word (show Sync.id.DATA.length = 4 by decide) (UInt32.ofNat chunk.length) chunk
      have hLength := length_textMessage chunk (show Sync.id.DATA.length = 4 by decide)
      have hOther : Sync.id.DATA ≠ Sync.id.DONE := by decide
      rw [textMessage, ← dataFrame] at hLength
      rw [List.map_cons, List.flatten_cons, List.append_assoc, drain_whole _ (by omega)]
      · rw [List.flatten_cons, ← List.append_assoc,
          ← ih (fun other hOther => hFit other (List.mem_cons_of_mem _ hOther))]
        simp only [SyncHandler.accept, dataFrame, hFront, hBody, if_neg hOther]
      · rw [hLength, dataFrame]
        simp only [SyncHandler.messageLength, hHeadId, hHeadArg, if_neg hOther, ↓reduceIte,
          UInt32.toNat_ofNat_of_lt' hFits]

/-- The last word of a push stores the file. -/
private theorem drain_done {path data : Bytes} {mode : UInt32} (mtime : UInt32) (more : Bytes) :
    SyncHandler.requests.drain (.receiving path mode data, fs, out) (Sync.word Sync.id.DONE mtime ++ more) =
      SyncHandler.requests.drain (.idle, (SyncHandler.store fs path mode mtime data).1,
        out ++ (SyncHandler.store fs path mode mtime data).2) more := by
  obtain ⟨hFront, hArg, hHeadId, -, -⟩ := front_word (show Sync.id.DONE.length = 4 by decide) mtime []
  rw [List.append_nil] at hFront hArg hHeadId
  have hLength := word_length (show Sync.id.DONE.length = 4 by decide) mtime
  rw [drain_whole more (by omega)]
  · simp only [SyncHandler.accept, hFront, hArg, ↓reduceIte]
  · simp only [SyncHandler.messageLength, hHeadId, ↓reduceIte, hLength]

/-- The messages that start a push are taken. -/
private theorem drain_start {features : SyncFeatures} {path : String} {mode : UInt32}
    (hFits : (Utf8.encode path).length + 64 < 2 ^ 32) (more : Bytes) :
    SyncHandler.requests.drain (.idle, fs, out)
        ((startMessages features (Utf8.encode path) mode).flatten ++ more) =
      SyncHandler.requests.drain (.receiving (Utf8.encode path) mode [], fs, out) more := by
  have hText := length_requestText features mode hFits
  unfold startMessages
  by_cases hV2 : features.sendrecvV2
  · have hSetup := word_length (show Sync.id.SND2.length = 4 by decide) mode
    obtain ⟨-, hMode, -, -, -⟩ := front_word (show Sync.id.SND2.length = 4 by decide) mode (toLeBytes 0)
    rw [requestText, if_pos hV2] at hText ⊢
    rw [if_pos hV2, List.flatten_cons, List.flatten_singleton, List.append_assoc, ← textMessage,
      drain_request (by decide) (by decide) hText, request_snd2, Utf8.lossy_encode, List.append_nil, drain_whole]
    · rw [SyncHandler.accept, hMode]
    · rw [List.length_append, hSetup]
      exact Nat.le_add_right _ _
    · rw [List.length_append, hSetup, toLeBytes_length, SyncHandler.messageLength]
  · rw [requestText, if_neg hV2] at hText ⊢
    rw [if_neg hV2, List.flatten_singleton, ← textMessage, drain_request (by decide) (by decide) hText,
      request_send, lossy_requestText, pathAndMode_append, List.append_nil]

/-- The replies of the handler to an operation. -/
private def Operation.replies (features : SyncFeatures) (fs : Fs) : Operation → List Bytes
  | stat path =>
      [if features.statV2 then
        encodeStatV2 Sync.id.STA2 (statOrMissing features.statV2 fs (Utf8.encode path))
      else encodeStatV1 Sync.id.STAT (statOrMissing features.statV2 fs (Utf8.encode path))]
  | list path => SyncHandler.listReply fs features.lsV2 (Utf8.encode path)
  | pull path _ => SyncHandler.recv fs (Utf8.encode path)
  | push path mode mtime _ chunks _ => (SyncHandler.store fs (Utf8.encode path) mode mtime chunks.flatten).2

private theorem stat_request (v2 : Bool) : (if v2 then Sync.id.STA2 else Sync.id.STAT).length = 4 ∧
    (if v2 then Sync.id.STA2 else Sync.id.STAT) ≠ Sync.id.QUIT := by
  cases v2 <;> exact ⟨rfl, by decide⟩

private theorem list_request (v2 : Bool) : (if v2 then Sync.id.LIS2 else Sync.id.LIST).length = 4 ∧
    (if v2 then Sync.id.LIS2 else Sync.id.LIST) ≠ Sync.id.QUIT := by
  cases v2 <;> exact ⟨rfl, by decide⟩

/-- A request for a file is answered by its content, in either version. -/
private theorem drain_pull (features : SyncFeatures) {path : String} (polls : Nat)
    (hText : (Utf8.encode path).length < 2 ^ 32) (more : Bytes) :
    SyncHandler.requests.drain (.idle, fs, out)
        (((Operation.pull path polls).messages features).flatten ++ more) =
      SyncHandler.requests.drain (.idle, fs, out ++ SyncHandler.recv fs (Utf8.encode path)) more := by
  rw [Operation.messages]
  split
  · have hSetup := word_length (show Sync.id.RCV2.length = 4 by decide) 0
    rw [List.flatten_cons, List.flatten_singleton, List.append_assoc,
      drain_request (by decide) (by decide) hText, request_rcv2, Utf8.lossy_encode, List.append_nil, drain_whole]
    · rfl
    · exact Nat.le_of_eq hSetup.symm
    · rw [hSetup, SyncHandler.messageLength]
  · rw [List.flatten_singleton, drain_request (by decide) (by decide) hText, Utf8.lossy_encode, request_recv]

/-- The handler does to the file system what the operation does, and replies. -/
private theorem drain_operation (features : SyncFeatures) {operation : Operation} (hFits : operation.Fits)
    (more : Bytes) :
    SyncHandler.requests.drain (.idle, fs, out) ((operation.messages features).flatten ++ more) =
      SyncHandler.requests.drain (.idle, (operation.perform features fs).1,
        out ++ operation.replies features fs) more := by
  have hText := length_path hFits
  cases operation with
  | stat path =>
      obtain ⟨hId, hOther⟩ := stat_request features.statV2
      rw [Operation.path] at hText
      rw [Operation.messages, List.flatten_singleton, drain_request hId hOther hText, Utf8.lossy_encode,
        request_stat]
      rfl
  | list path =>
      obtain ⟨hId, hOther⟩ := list_request features.lsV2
      rw [Operation.path] at hText
      rw [Operation.messages, List.flatten_singleton, drain_request hId hOther hText, Utf8.lossy_encode,
        request_list]
      rfl
  | pull path polls => exact drain_pull features polls hText more
  | push path mode mtime source chunks hSource =>
      have hPath : (Utf8.encode path).length + 64 < 2 ^ 32 := hFits
      rw [Operation.messages, pushMessages, List.flatten_append, List.flatten_append, List.flatten_singleton,
        List.append_assoc, List.append_assoc, drain_start hPath, drain_frames chunks hSource.fits,
        drain_done, List.nil_append]
      simp only [Operation.replies, Operation.perform, SyncHandler.store]
      rcases fs.write (Utf8.encode path) mode (Int64.ofNat mtime.toNat) chunks.flatten with ⟨e | ⟨⟩, next⟩ <;> rfl

/-- The replies to an operation are one well-formed reply. -/
private theorem replies_eq (features : SyncFeatures) (fs : Fs) (operation : Operation) :
    (operation.replies features fs).flatten = (operation.reply features fs).encode features := by
  cases operation with
  | stat path =>
      rw [Operation.replies, List.flatten_singleton, Operation.reply, Reply.encode]
      split <;> simp [encodeStatV2, encodeStatV1, *]
  | list path =>
      have hEntry : ∀ child : Bytes × Stat, SyncHandler.listEntry features.lsV2 child =
          dentFrame features (dentBody features child.2, child.1) := fun child => by
        simp only [SyncHandler.listEntry, dentFrame, dentHeader, dentBody, SyncClient.dent]
        split <;> simp [encodeStatV2, encodeStatV1]
      rw [Operation.replies, SyncHandler.listReply, List.flatten_append, List.flatten_singleton,
        Operation.reply, Reply.encode, List.flatMap_map, ← List.flatMap_def]
      congr 1
      · exact List.flatMap_congr fun child _ => hEntry child
      · rw [SyncClient.dent]
        split <;> rfl
  | pull path polls =>
      simp only [Operation.replies, SyncHandler.recv, Operation.reply]
      cases fs.read (Utf8.encode path) with
      | none => simp [Reply.encode, SyncHandler.fail, failFrame, openFailed]
      | some data =>
          simp only [Reply.encode, List.flatten_append, List.flatten_singleton, ← List.flatMap_def]
          rfl
  | push path mode mtime source chunks hSource =>
      simp only [Operation.replies, SyncHandler.store, Operation.reply]
      rcases fs.write (Utf8.encode path) mode (Int64.ofNat mtime.toNat) chunks.flatten with ⟨e | ⟨⟩, next⟩
      · simp [Reply.encode, SyncHandler.fail, failFrame]
      · simp [Reply.encode]

end Handler

/-- A message about a path is text. -/
private theorem lossy_message {front : Bytes} (hAscii : ∀ byte ∈ front, byte < 0x80) (path : String) :
    Utf8.lossy (front ++ Utf8.encode path ++ ascii ")") = front ++ Utf8.encode path ++ ascii ")" := by
  rw [List.append_assoc, Utf8.lossy_ascii hAscii, show ascii ")" = [41] from rfl,
    Utf8.lossy_append (by decide), Utf8.lossy_encode]
  simp [Utf8.lossy, Utf8.lossyFrom]

/-- Why a file cannot be written. -/
private theorem write_error {fs next : Fs} {path data e : Bytes} {mode : UInt32} {mtime : Int64}
    (h : fs.write path mode mtime data = (.error e, next)) :
    e = ascii "couldn't create file: No such file or directory (" ++ path ++ ascii ")" := by
  unfold Fs.write at h
  split at h <;> cases h
  rfl

/-- A listed name is the end of a path. -/
private theorem list_name {fs : Fs} {dir : Bytes} {child : Bytes × Stat}
    (h : child ∈ (fs.list dir).getD []) : ∃ path ∈ fs.nodes, child.1 <:+ path := by
  simp only [Fs.list] at h
  split at h
  · simp at h
  · simp at h
  · rw [Option.getD_some] at h
    obtain ⟨path, hPath, hChild⟩ := List.mem_filterMap.mp h
    split at hChild
    · cases hChild
    · rename_i rest hRest
      split at hChild
      · cases hChild
      · obtain ⟨stat, -, rfl⟩ := Option.map_eq_some_iff.mp hChild
        refine ⟨path, Std.ExtTreeMap.mem_keys.mp hPath, ?_⟩
        rw [Text.stripPrefix_eq_some_iff.mp hRest]
        exact List.suffix_append _ _

section Reply

variable {features : SyncFeatures} {fs : Fs} {operation : Operation}

/-- The handler's replies are well formed. -/
private theorem reply_answers (features : SyncFeatures) (hFits : operation.Fits) (hShort : fs.Short) :
    (operation.reply features fs).Answers features operation.call := by
  cases operation with
  | stat path =>
      simp only [Operation.reply, Operation.call, Reply.Answers]
      split <;> simp [encodeStatV2, encodeStatV1, STAT_V2_LEN, STAT_V1_LEN]
  | list path =>
      refine ⟨?_, ?_⟩
      · rw [List.length_replicate, SyncClient.dent]
        split <;> rfl
      · simp only [List.mem_map]
        rintro dent ⟨child, hChild, rfl⟩
        obtain ⟨path, hPath, hName⟩ := list_name hChild
        refine ⟨?_, Nat.lt_of_le_of_lt hName.length_le (hShort path hPath)⟩
        simp only [dentBody, SyncClient.dent]
        split <;> simp [encodeStatV2, encodeStatV1, DENT_V2_LEN, DENT_V1_LEN]
  | pull path polls =>
      have hPath : (Utf8.encode path).length + 64 < 2 ^ 32 := hFits
      simp only [Operation.reply, Operation.call]
      cases fs.read (Utf8.encode path) with
      | none =>
          have hFront : (ascii "open failed: No such file or directory (").length = 40 := rfl
          have hBehind : (ascii ")").length = 1 := rfl
          refine ⟨by simp, ?_⟩
          rw [openFailed, List.length_append, List.length_append]
          omega
      | some data => exact fun chunk hChunk => (Chunks.mem_chunks hChunk).2
  | push path mode mtime source chunks hSource =>
      have hPath : (Utf8.encode path).length + 64 < 2 ^ 32 := hFits
      simp only [Operation.reply, Operation.call]
      rcases hWrite : fs.write (Utf8.encode path) mode (Int64.ofNat mtime.toNat) chunks.flatten with ⟨e | ⟨⟩, next⟩
      · have hFront : (ascii "couldn't create file: No such file or directory (").length = 49 := rfl
        have hBehind : (ascii ")").length = 1 := rfl
        change e.length < 2 ^ 32
        rw [write_error hWrite, List.length_append, List.length_append]
        omega
      · trivial

/-- The client makes of the reply what the operation gives where the file system is. -/
private theorem reply_outcome :
    (operation.reply features fs).outcome features operation.call = (operation.perform features fs).2 := by
  cases operation with
  | stat path =>
      have hV1 := statV1_encodeStatV1 (show Sync.id.STAT.length = 4 by decide)
        (statOrMissing false fs (Utf8.encode path)) []
      have hV2 := statV2_encodeStatV2 (show Sync.id.STA2.length = 4 by decide)
        (statOrMissing true fs (Utf8.encode path)) []
      rw [List.append_nil] at hV1 hV2
      change Except.ok (Outcome.stat ((if features.statV2 then statV2 else statV1)
        (((Operation.stat path).reply features fs).encode features))) = _
      rw [← replies_eq, Operation.replies, List.flatten_singleton, Operation.perform]
      cases features.statV2 with
      | false =>
          simp only [Bool.false_eq_true, ↓reduceIte, hV1, report]
      | true =>
          simp only [↓reduceIte, hV2, report]
  | list path =>
      have hEntry : ∀ child : Bytes × Stat, Reply.entryOf features (dentBody features child.2, child.1) =
          entry (report features.lsV2 child.2) child.1 := fun child => by
        have hV1 := statV1_encodeStatV1 (show Sync.id.DENT.length = 4 by decide) child.2
          (toLeBytes (UInt32.ofNat child.1.length))
        have hV2 := statV2_encodeStatV2 (show Sync.id.DNT2.length = 4 by decide) child.2
          (toLeBytes (UInt32.ofNat child.1.length))
        simp only [Reply.entryOf, SyncClient.dentStat, dentHeader, dentBody, SyncClient.dent, report]
        cases features.lsV2 with
        | false =>
            have hBody : encodeStatV1 Sync.id.DENT child.2 = Sync.id.DENT ++ encodeStatV1 [] child.2 := by
              simp [encodeStatV1]
            rw [hBody] at hV1
            simp only [Bool.false_eq_true, ↓reduceIte, hV1]
        | true =>
            have hBody : encodeStatV2 Sync.id.DNT2 child.2 = Sync.id.DNT2 ++ encodeStatV2 [] child.2 := by
              simp [encodeStatV2]
            rw [hBody] at hV2
            simp only [↓reduceIte, hV2]
      simp only [Operation.reply, Operation.call, Operation.perform, Reply.outcome, List.map_map]
      exact congrArg (fun entries => Except.ok (Outcome.listing entries))
        (List.map_congr_left fun child _ => hEntry child)
  | pull path polls =>
      simp only [Operation.reply, Operation.call, Operation.perform]
      cases fs.read (Utf8.encode path) with
      | none =>
          have hText := @lossy_message (ascii "open failed: No such file or directory (") (by simp [ascii]) path
          simp only [Reply.outcome, Reply.chunks, Reply.failure, List.map_nil, List.nil_append, List.map_cons, openFailed, hText]
      | some data => simp only [Reply.outcome, Reply.chunks, Reply.failure, List.map_nil, List.append_nil]
  | push path mode mtime source chunks hSource =>
      simp only [Operation.reply, Operation.call, Operation.perform]
      rcases hWrite : fs.write (Utf8.encode path) mode (Int64.ofNat mtime.toNat) chunks.flatten with ⟨e | ⟨⟩, next⟩
      · have hText := @lossy_message (ascii "couldn't create file: No such file or directory (") (by simp [ascii]) path
        simp only [Reply.outcome, write_error hWrite, hText]
      · rfl

end Reply

/-- Everything that the client sends for the operations. -/
def allMessages (features : SyncFeatures) (operations : List Operation) : List Bytes :=
  operations.flatMap (Operation.messages features)

/-- All replies of the handler to the operations. -/
private def allReplies (features : SyncFeatures) : Fs → List Operation → List Bytes
  | _, [] => []
  | fs, operation :: rest =>
      operation.replies features fs ++ allReplies features (operation.perform features fs).1 rest

/-- On a channel that takes everything, a call sends its messages and nothing else. -/
private theorem exec_sent (features : SyncFeatures) {operation : Operation} (hFits : operation.Fits)
    {reader : ChannelReader} (hAccepts : reader.Accepts) :
    (operation.call.exec features reader).2.channel.sent = reader.channel.sent ++ operation.messages features ∧
    (operation.call.exec features reader).2.Accepts := by
  have hRequest := request_messages features hFits hAccepts
  obtain ⟨incoming, buffer, hAfter⟩ := answer_behind features operation.call _ _
    (behind_self (reader.afterSending (operation.messages features)))
  rw [Call.exec_delivered (congrArg Prod.fst hRequest), hRequest, hAfter]
  exact ⟨rfl, hAccepts⟩

/-- On a channel that takes everything, all messages of all operations are sent. -/
private theorem after_sent {features : SyncFeatures} {operations : List Operation}
    (hFits : ∀ operation ∈ operations, operation.Fits) {reader : ChannelReader} (hAccepts : reader.Accepts) :
    (after features reader (operations.map Operation.call)).channel.sent =
      reader.channel.sent ++ allMessages features operations := by
  induction operations generalizing reader with
  | nil => exact (List.append_nil _).symm
  | cons operation rest ih =>
      obtain ⟨hHere, hRest⟩ := List.forall_mem_cons.mp hFits
      obtain ⟨hSent, hStill⟩ := exec_sent features hHere hAccepts
      rw [List.map_cons, after, ih hRest hStill, hSent, List.append_assoc, allMessages, allMessages,
        List.flatMap_cons]

/-- The handler takes all operations, one after the other. -/
private theorem drain_operations (features : SyncFeatures) {operations : List Operation}
    (hFits : ∀ operation ∈ operations, operation.Fits) (fs : Fs) (out : List Bytes) :
    SyncHandler.requests.drain (.idle, fs, out) (allMessages features operations).flatten =
      ((.idle, (performAll features fs operations).1, out ++ allReplies features fs operations), []) := by
  induction operations generalizing fs out with
  | nil =>
      rw [allReplies, List.append_nil]
      exact Incremental.drain_of_none rfl
  | cons operation rest ih =>
      obtain ⟨hHere, hRest⟩ := List.forall_mem_cons.mp hFits
      rw [allMessages, List.flatMap_cons, List.flatten_append, drain_operation features hHere, ← allMessages,
        ih hRest, performAll, allReplies, List.append_assoc]

/-- A push adds its path at most. -/
private theorem Fs.Short.perform {features : SyncFeatures} {fs : Fs} (h : fs.Short) {operation : Operation}
    (hFits : operation.Fits) : (operation.perform features fs).1.Short := by
  cases operation with
  | stat path => exact h
  | list path => exact h
  | pull path polls => exact h
  | push path mode mtime source chunks hSource =>
      simp only [Operation.perform, Fs.write]
      split
      · rename_i hWrite
        split at hWrite
        · cases hWrite
          intro other hOther
          rcases Std.ExtTreeMap.mem_insert.mp hOther with hSame | hOld
          · rw [← Std.compare_eq_iff_eq.mp hSame]
            exact length_path hFits
          · exact h other hOld
        · cases hWrite
      · rename_i hWrite
        split at hWrite
        · cases hWrite
        · cases hWrite
          exact h

/-- A pull that is polled long enough reads its reply to the end. -/
private theorem pollsToEnd_of_polled {features : SyncFeatures} {fs : Fs} {operation : Operation}
    (h : operation.Polled fs) : PollsToEnd (operation.call, operation.reply features fs) := by
  cases operation with
  | pull path polls =>
      simp only [Operation.Polled] at h
      simp only [Operation.call, Operation.reply]
      cases hRead : fs.read (Utf8.encode path) with
      | none =>
          rw [hRead] at h
          exact Nat.lt_of_le_of_lt (Nat.zero_le _) h
      | some data =>
          rw [hRead] at h
          exact h
  | _ => exact trivial

/-- The client gets the result of every operation. -/
private theorem run_operations {features : SyncFeatures} {operations : List Operation} {fs : Fs}
    (hFits : ∀ operation ∈ operations, operation.Fits) (hShort : fs.Short)
    (hPolled : AllPolled features fs operations) {tail : List (Result Bytes)} {rest : Bytes}
    {reader : ChannelReader} (hAccepts : reader.Accepts)
    (hHolds : reader.HoldsBefore tail ((allReplies features fs operations).flatten ++ rest)) :
    run features reader (operations.map Operation.call) = (performAll features fs operations).2.map some := by
  induction operations generalizing fs reader with
  | nil => rfl
  | cons operation later ih =>
      obtain ⟨hHere, hLater⟩ := List.forall_mem_cons.mp hFits
      obtain ⟨hEnd, hMore⟩ := hPolled
      have hRequest := request_messages features hHere hAccepts
      have hDelivered : operation.call.Delivered features reader := congrArg Prod.fst hRequest
      have hAnswers := reply_answers features hHere hShort
      rw [allReplies, List.flatten_append, List.append_assoc, replies_eq] at hHolds
      obtain ⟨next, hAnswer, hNext⟩ := answer_consumes hAnswers (pollsToEnd_of_polled hEnd) _ _
        (operation.call.request_keeps features _ reader hHolds)
      have hStill := (exec_sent features hHere hAccepts).2
      rw [Call.exec_delivered hDelivered, hAnswer] at hStill
      rw [List.map_cons, run, Call.exec_delivered hDelivered, hAnswer,
        ih hLater (hShort.perform hHere) hMore hStill hNext, reply_outcome]
      rfl

/-- What the handler has been sent are the operations, and what it replies answers them. -/
private theorem Connected.served {features : SyncFeatures} {fs : Fs} {reader : ChannelReader}
    {operations : List Operation} {pieces : List Bytes} (h : Connected features fs reader operations pieces)
    (hFits : ∀ operation ∈ operations, operation.Fits) :
    SyncHandler.receive (.new fs) pieces =
      (.new (performAll features fs operations).1, allReplies features fs operations) := by
  obtain ⟨hAccepts, ⟨messages, hPieces, hSent⟩, -⟩ := h
  rw [after_sent hFits hAccepts] at hSent
  obtain rfl := List.append_cancel_left hSent
  rw [SyncHandler.receive_new, hPieces, drain_operations features hFits]
  simp [SyncHandler.ofDecoder, SyncHandler.new, SyncHandler.quits]

/-- Each call of the client has the result of its operation. -/
theorem Connected.run {features : SyncFeatures} {fs : Fs} {reader : ChannelReader}
    {operations : List Operation} {pieces : List Bytes} (h : Connected features fs reader operations pieces)
    (hShort : fs.Short) (hFits : ∀ operation ∈ operations, operation.Fits)
    (hPolled : AllPolled features fs operations) :
    Sync.run features reader (operations.map Operation.call) = (performAll features fs operations).2.map some := by
  have hReplies := h.replies
  rw [h.served hFits] at hReplies
  obtain ⟨tail, hHolds⟩ := holds_iff.mp hReplies
  have hAll : HoldsBefore tail reader ((allReplies features fs operations).flatten ++ []) := by
    rwa [List.append_nil]
  exact run_operations hFits hShort hPolled h.accepts hAll

/-- A client and the handler at the other end of its stream carry out every
sequence of operations as the file system does by itself: each call of the
client has the result of the operation, and the handler ends with the file
system that the operations lead to, ready for more. It does not matter how the
stream cuts what either side sends. -/
theorem remote_calls {features : SyncFeatures} {fs : Fs} {reader : ChannelReader} {operations : List Operation}
    {pieces : List Bytes} (hConnected : Connected features fs reader operations pieces) (hShort : fs.Short)
    (hFits : ∀ operation ∈ operations, operation.Fits) (hPolled : AllPolled features fs operations) :
    run features reader (operations.map Operation.call) = (performAll features fs operations).2.map some ∧
    (SyncHandler.receive (.new fs) pieces).1 = .new (performAll features fs operations).1 := by
  constructor
  · exact hConnected.run hShort hFits hPolled
  · rw [hConnected.served hFits]

/-- A client whose operations the handler is sent in one piece, and that gets
all replies in one. -/
def inOnePiece (features : SyncFeatures) (fs : Fs) (operations : List Operation) : ChannelReader × List Bytes :=
  (⟨⟨[.ok (SyncHandler.receive (.new fs) [(allMessages features operations).flatten]).2.flatten], false, [],
    fun _ => none, false⟩, []⟩, [(allMessages features operations).flatten])

/-- The two ends of a stream can be connected, whatever the operations. -/
theorem connected_inOnePiece (features : SyncFeatures) (fs : Fs) {operations : List Operation}
    (hFits : ∀ operation ∈ operations, operation.Fits) :
    Connected features fs (inOnePiece features fs operations).1 operations
      (inOnePiece features fs operations).2 where
  accepts := fun _ => rfl
  requests := ⟨allMessages features operations, List.flatten_singleton, after_sent hFits fun _ => rfl⟩
  replies := ⟨[_], [], rfl, by simp [inOnePiece]⟩

/-- Two bytes are pushed. -/
def pushOfTwo : Operation :=
  .push "/sdcard/a" 420 7 [.ok ⟨[1, 2], by decide⟩] [[1, 2]] (.chunk (by decide) .exhausted)

/-- A file, pushed and pulled. -/
private def pushAndPull : List Operation := [pushOfTwo, .pull "/sdcard/a" 3]

private theorem pushAndPull_fits : ∀ operation ∈ pushAndPull, operation.Fits := by
  intro operation hMem
  simp only [pushAndPull, List.mem_cons, List.not_mem_nil, or_false] at hMem
  obtain rfl | rfl := hMem <;> decide +kernel

/-- The file comes back as it was. -/
theorem remote_calls_push_and_pull :
    run ⟨false, false, false⟩ (inOnePiece ⟨false, false, false⟩ .new pushAndPull).1
        (pushAndPull.map Operation.call) = (performAll ⟨false, false, false⟩ .new pushAndPull).2.map some ∧
      (SyncHandler.receive (.new .new) (inOnePiece ⟨false, false, false⟩ .new pushAndPull).2).1 =
        .new (performAll ⟨false, false, false⟩ .new pushAndPull).1 := by
  refine remote_calls (connected_inOnePiece _ _ pushAndPull_fits) ?_ pushAndPull_fits ⟨trivial, ?_, trivial⟩
  · intro path hPath
    simp only [Fs.new, Fs.mkdir, Std.ExtTreeMap.mem_insert, Std.compare_eq_iff_eq, Std.ExtTreeMap.not_mem_empty,
      or_false] at hPath
    obtain rfl | rfl := hPath <;> decide
  · have hLength := Chunks.length_chunks_le DATA_MAX ([1, 2] : Bytes)
    exact Nat.lt_succ_of_le hLength

end Rsadb.Fake
