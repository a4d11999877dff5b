import Mathlib.Data.FinEnum
import Rsadb.Services.Sync.Isolation
import Rsadb.Library.Incremental

/-! What a push sends, as the device decodes it. The decoder keeps the requests
that it has not taken yet in a buffer, and takes one message at a time: the
request with the path, in one of two encodings of the mode, then the data of the
file in frames, then the word that ends it. -/
namespace Rsadb.Sync

open ChannelReader

/-- A file that was pushed, with its content frame by frame. -/
structure Upload where
  path : Bytes
  mode : UInt32
  chunks : List Bytes
  mtime : UInt32
  deriving DecidableEq

/-- Where the device stands in the requests. -/
inductive UploadState where
  | idle
  | awaitSendSetup (path : Bytes)
  | receiving (path : Bytes) (mode : UInt32) (chunks : List Bytes)
  deriving DecidableEq

/-- The value of decimal digits. -/
def digitsValue (digits : Bytes) : Nat :=
  digits.foldl (fun value digit => 10 * value + (digit.toNat - 48)) 0

/-- `str::parse::<u32>`: an optional sign, then digits of a number that fits. -/
def parseU32 (text : Bytes) : Option UInt32 :=
  let digits := if text.head? = some 43 then text.tail else text
  if digits ≠ [] ∧ (∀ digit ∈ digits, 48 ≤ digit ∧ digit ≤ 57) ∧ digitsValue digits < 2 ^ 32 then
    some (UInt32.ofNat (digitsValue digits))
  else none

/-- The path and the mode in the text of a first-version request. -/
def pathAndMode (text : Bytes) : Bytes × UInt32 :=
  let (file, mode) := (Text.rsplitOnce 44 text).getD (text, ascii "420")
  (file, (parseU32 mode).getD 420)

/-- Length of the message that begins with the given eight bytes, if it belongs here. -/
def messageLength : UploadState × List Upload → Bytes → Option Nat
  | (.idle, _), header =>
      if header.take 4 = id.SEND ∨ header.take 4 = id.SND2 then some (8 + (u32At header 4).toNat)
      else none
  | (.awaitSendSetup _, _), header => if header.take 4 = id.SND2 then some 12 else none
  | (.receiving .., _), header =>
      if header.take 4 = id.DONE then some 8
      else if header.take 4 = id.DATA then some (8 + (u32At header 4).toNat)
      else none

/-- Act on a whole message. -/
def acceptMessage : UploadState × List Upload → Bytes → UploadState × List Upload
  | (.idle, done), message =>
      if message.take 4 = id.SEND then
        (.receiving (pathAndMode (message.drop 8)).1 (pathAndMode (message.drop 8)).2 [], done)
      else (.awaitSendSetup (message.drop 8), done)
  | (.awaitSendSetup path, done), message => (.receiving path (u32At message 4) [], done)
  | (.receiving path mode chunks, done), message =>
      if message.take 4 = id.DONE then (.idle, done ++ [⟨path, mode, chunks, u32At message 4⟩])
      else (.receiving path mode (chunks ++ [message.drop 8]), done)

/-- The decoder of a device that files are pushed to. -/
def uploads : Incremental (UploadState × List Upload) UInt8 :=
  .ofFrames 8 messageLength (by
    rintro ⟨_ | _ | _, done⟩ header count h
    all_goals
      simp only [messageLength] at h
      split_ifs at h
    all_goals
      cases h
      omega) acceptMessage

/-- The digits of a number are ASCII digits. -/
theorem mem_decimal {value : UInt32} {digit : UInt8} (h : digit ∈ SyncClient.decimal value) :
    48 ≤ digit.toNat ∧ digit.toNat ≤ 57 := by
  obtain ⟨c, hMem, rfl⟩ := List.mem_map.mp h
  have hDigit := Nat.isDigit_of_mem_toDigits (by decide) (by decide) hMem
  obtain ⟨hLow, hHigh⟩ := Char.isDigit_iff_toNat.mp hDigit
  rw [UInt8.toNat_ofNat_of_lt' (Nat.lt_of_le_of_lt hHigh (by decide))]
  exact ⟨hLow, hHigh⟩

private theorem digitsValue_decimal (value : UInt32) :
    digitsValue (SyncClient.decimal value) = value.toNat := by
  have hFold : ∀ (digits : List Char) (start : Nat), (∀ c ∈ digits, c.toNat < 256) →
      (digits.map fun digit => UInt8.ofNat digit.toNat).foldl
        (fun value digit => 10 * value + (digit.toNat - 48)) start =
      Nat.ofDigitChars 10 digits start := by
    intro digits
    induction digits with
    | nil => intro start _; simp
    | cons c digits ih =>
        intro start hSmall
        rw [List.map_cons, List.foldl_cons, ih _ fun d hd => hSmall d (List.mem_cons_of_mem _ hd),
          Nat.ofDigitChars_cons, UInt8.toNat_ofNat_of_lt' (hSmall c List.mem_cons_self)]
        rfl
  rw [digitsValue, SyncClient.decimal, hFold]
  · exact Nat.ofDigitChars_ten_toDigits
  · intro c hMem
    have hDigit := Nat.isDigit_of_mem_toDigits (by decide) (by decide) hMem
    exact Nat.lt_of_le_of_lt (Char.isDigit_iff_toNat.mp hDigit).2 (by decide)

/-- The decimal digits of a word are parsed back to it. -/
theorem parseU32_decimal (value : UInt32) : parseU32 (SyncClient.decimal value) = some value := by
  have hNonempty : SyncClient.decimal value ≠ [] := by
    simp [SyncClient.decimal, Nat.toDigits_ne_nil]
  have hSign : (SyncClient.decimal value).head? ≠ some 43 := by
    intro hHead
    have hRange := mem_decimal (List.mem_of_mem_head? hHead)
    exact absurd hRange (by decide)
  have hDigits : ∀ digit ∈ SyncClient.decimal value, 48 ≤ digit ∧ digit ≤ 57 := by
    intro digit hMem
    simp only [UInt8.le_iff_toNat_le]
    exact mem_decimal hMem
  simp only [parseU32, if_neg hSign, digitsValue_decimal]
  rw [if_pos ⟨hNonempty, hDigits, value.toNat_lt⟩, UInt32.ofNat_toNat]

/-- The mode is what stands behind the last comma, so the path may have commas. -/
theorem pathAndMode_append (path : Bytes) (mode : UInt32) :
    pathAndMode (path ++ ascii "," ++ SyncClient.decimal mode) = (path, mode) := by
  have hComma : (44 : UInt8) ∉ SyncClient.decimal mode := by
    intro hMem
    exact absurd (mem_decimal hMem) (by decide)
  have hSplit := Text.rsplitOnce_append path hComma
  simp only [pathAndMode]
  rw [show path ++ ascii "," ++ SyncClient.decimal mode = path ++ 44 :: SyncClient.decimal mode by
    simp [ascii], hSplit]
  simp only [Option.getD_some, parseU32_decimal]

/-- The text of the request that starts a push. -/
def requestText (features : SyncFeatures) (path : Bytes) (mode : UInt32) : Bytes :=
  if features.sendrecvV2 then path else path ++ ascii "," ++ SyncClient.decimal mode

/-- The messages that start a push. -/
def startMessages (features : SyncFeatures) (path : Bytes) (mode : UInt32) : List Bytes :=
  let text := requestText features path mode
  if features.sendrecvV2 then
    [word id.SND2 (UInt32.ofNat text.length) ++ text, word id.SND2 mode ++ toLeBytes 0]
  else [word id.SEND (UInt32.ofNat text.length) ++ text]

/-- The messages of a whole push. -/
def pushMessages (features : SyncFeatures) (path : Bytes) (mode mtime : UInt32)
    (chunks : List Bytes) : List Bytes :=
  startMessages features path mode ++ chunks.map dataFrame ++ [word id.DONE mtime]

/-- The id and the word at the front of a message. -/
theorem front_word {id : Bytes} (hId : id.length = 4) (value : UInt32) (rest : Bytes) :
    (word id value ++ rest).take 4 = id ∧ u32At (word id value ++ rest) 4 = value ∧
    ((word id value ++ rest).take 8).take 4 = id ∧ u32At ((word id value ++ rest).take 8) 4 = value ∧
    (word id value ++ rest).drop 8 = rest := by
  have hFront : (word id value ++ rest).take 8 = word id value :=
    List.take_left' (word_length hId value)
  have hWord : u32At (word id value) 4 = value := by
    have hRead := @u32At_skip id (toLeBytes value ++ []) 4 (by omega)
    rw [hId, Nat.sub_self, u32At_toLeBytes, List.append_nil] at hRead
    exact hRead
  refine ⟨?_, ?_, ?_, ?_, List.drop_left' (word_length hId value)⟩
  · rw [word, List.append_assoc, List.take_left' hId]
  · rw [word, List.append_assoc, u32At_skip _ _ (by omega), hId, Nat.sub_self, u32At_toLeBytes]
  · rw [hFront, word, List.take_left' hId]
  · rw [hFront, hWord]

/-- A whole message is taken. -/
private theorem drain_message {now : UploadState × List Upload} {id : Bytes} (hId : id.length = 4)
    {value : UInt32} {body : Bytes} (more : Bytes)
    (hLength : messageLength now ((word id value ++ body).take 8) = some (8 + body.length)) :
    uploads.drain now (word id value ++ body ++ more) =
      uploads.drain (acceptMessage now (word id value ++ body)) more := by
  have hWhole : (word id value ++ body).length = 8 + body.length := by
    rw [List.length_append, word_length hId]
  rw [← hWhole] at hLength
  exact Incremental.ofFrames_drain more (by omega) hLength

/-- A message with a body says how long the body is. -/
private theorem message_length {body : Bytes} (h : body.length < 2 ^ 32) :
    8 + (UInt32.ofNat body.length).toNat = 8 + body.length := by
  rw [UInt32.toNat_ofNat_of_lt' h]

/-- The start of a push, decoded. -/
private theorem drain_start {features : SyncFeatures} {path : Bytes} {mode : UInt32}
    (hFits : (requestText features path mode).length < 2 ^ 32) (done : List Upload) (more : Bytes) :
    uploads.drain (.idle, done) ((startMessages features path mode).flatten ++ more) =
      uploads.drain (.receiving path mode [], done) more := by
  have hLength := message_length hFits
  unfold startMessages
  by_cases hV2 : features.sendrecvV2
  · obtain ⟨hId, -, hFrontId, hFrontArg, hBody⟩ := front_word (show id.SND2.length = 4 by decide)
      (UInt32.ofNat (requestText features path mode).length) (requestText features path mode)
    obtain ⟨-, hMode, hSetupId, -, -⟩ :=
      front_word (show id.SND2.length = 4 by decide) mode (toLeBytes 0)
    rw [if_pos hV2, List.flatten_cons, List.flatten_singleton, List.append_assoc,
      drain_message (by decide), drain_message (by decide)]
    · simp only [acceptMessage, hId, hBody, hMode, show id.SND2 ≠ id.SEND by decide, ↓reduceIte]
      rw [requestText, if_pos hV2]
    · simp only [acceptMessage, hId, hBody, show id.SND2 ≠ id.SEND by decide, ↓reduceIte,
        messageLength, hSetupId, toLeBytes_length]
    · simp only [messageLength, hFrontId, hFrontArg, or_true, ↓reduceIte, hLength]
  · obtain ⟨hId, -, hFrontId, hFrontArg, hBody⟩ := front_word (show id.SEND.length = 4 by decide)
      (UInt32.ofNat (requestText features path mode).length) (requestText features path mode)
    rw [if_neg hV2, List.flatten_singleton, drain_message (by decide)]
    · simp only [acceptMessage, hId, hBody, ↓reduceIte]
      rw [requestText, if_neg hV2, pathAndMode_append]
    · simp only [messageLength, hFrontId, hFrontArg, true_or, ↓reduceIte, hLength]

/-- A run of data frames, decoded. -/
private theorem drain_chunks {path : Bytes} {mode : UInt32} (chunks : List Bytes)
    (hFit : ∀ chunk ∈ chunks, chunk.length ≤ DATA_MAX) (before : List Bytes) (done : List Upload)
    (more : Bytes) :
    uploads.drain (.receiving path mode before, done) (chunks.flatMap dataFrame ++ more) =
      uploads.drain (.receiving path mode (before ++ chunks), done) more := by
  induction chunks generalizing before with
  | nil => simp
  | cons chunk chunks ih =>
      have hLength := message_length
        (Nat.lt_of_le_of_lt (hFit chunk List.mem_cons_self) (by decide))
      obtain ⟨hId, -, hFrontId, hFrontArg, hBody⟩ :=
        front_word (show id.DATA.length = 4 by decide) (UInt32.ofNat chunk.length) chunk
      rw [List.flatMap_cons, List.append_assoc, dataFrame, drain_message (by decide)]
      · simp only [acceptMessage, hId, hBody, show id.DATA ≠ id.DONE by decide, ↓reduceIte]
        rw [ih (fun other hOther => hFit other (List.mem_cons_of_mem _ hOther)), List.append_assoc,
          List.singleton_append]
      · simp only [messageLength, hFrontId, hFrontArg, show id.DATA ≠ id.DONE by decide, ↓reduceIte,
          hLength]

/-- The messages of a push are decoded to the file, however they are cut. -/
theorem feed_pushMessages {features : SyncFeatures} {path : Bytes} {mode mtime : UInt32}
    {chunks : List Bytes} (hFits : (requestText features path mode).length < 2 ^ 32)
    (hChunks : ∀ chunk ∈ chunks, chunk.length ≤ DATA_MAX) {pieces : List Bytes}
    (hPieces : pieces.flatten = (pushMessages features path mode mtime chunks).flatten) :
    pieces.foldl uploads.feed ((.idle, []), []) = ((.idle, [⟨path, mode, chunks, mtime⟩]), []) := by
  obtain ⟨hId, hMtime, hFrontId, -, -⟩ := front_word (show id.DONE.length = 4 by decide) mtime []
  rw [Incremental.feed_flatten, hPieces, pushMessages, List.flatten_append, List.flatten_append,
    List.append_assoc, drain_start hFits, ← List.flatMap_def, drain_chunks chunks hChunks,
    List.nil_append, List.flatten_singleton, ← List.append_nil (word id.DONE mtime),
    ← List.append_nil (word id.DONE mtime ++ []), drain_message (by decide)]
  · simp only [acceptMessage, hId, hMtime, ↓reduceIte, List.nil_append]
    exact Incremental.drain_of_none rfl
  · simp only [messageLength, hFrontId, ↓reduceIte, List.length_nil]

/-- What a source delivers up to its end: reads that succeed and are not empty,
then an empty one or none at all. -/
inductive Delivers : List SourceRead → List Bytes → Prop
  | exhausted : Delivers [] []
  | ended {buf : { bytes : Bytes // bytes.length ≤ DATA_MAX }} (hEmpty : buf.1 = [])
      (unread : List SourceRead) : Delivers (.ok buf :: unread) []
  | chunk {buf : { bytes : Bytes // bytes.length ≤ DATA_MAX }} {source : List SourceRead}
      {chunks : List Bytes} (hSome : buf.1 ≠ []) (hRest : Delivers source chunks) :
      Delivers (.ok buf :: source) (buf.1 :: chunks)

theorem Delivers.fits {source : List SourceRead} {chunks : List Bytes} (h : Delivers source chunks) :
    ∀ chunk ∈ chunks, chunk.length ≤ DATA_MAX := by
  induction h with
  | exhausted => simp
  | ended => simp
  | @chunk buf source chunks hSome hRest ih =>
      intro other hOther
      rcases List.mem_cons.mp hOther with rfl | hLater
      · exact buf.2
      · exact ih other hLater

/-- On a channel that takes everything, the loop sends one frame for each read. -/
private theorem pushChunks_accepted {source : List SourceRead} {chunks : List Bytes}
    (h : Delivers source chunks) {reader : ChannelReader} (hAccepts : reader.Accepts) :
    SyncClient.pushChunks source reader =
      (some (.ok ()), reader.afterSending (chunks.map dataFrame)) := by
  induction h generalizing reader with
  | exhausted => simp [SyncClient.pushChunks]
  | ended hEmpty unread => simp [SyncClient.pushChunks, hEmpty]
  | @chunk buf source chunks hSome hRest ih =>
      have hShort : buf.1.length < 2 ^ 32 := Nat.lt_of_le_of_lt buf.2 (by decide)
      rw [SyncClient.pushChunks, if_neg (by simpa using hSome), if_pos hShort,
        Async.bind_ok (send_accepted hAccepts _), ih (hAccepts.afterSending _), afterSending_append]
      rfl

/-- On a channel that takes everything, a whole push is sent. -/
theorem request_accepted {features : SyncFeatures} {path : Bytes} {mode mtime : UInt32}
    {source : List SourceRead} {chunks : List Bytes} (h : Delivers source chunks)
    {reader : ChannelReader} (hAccepts : reader.Accepts)
    (hFits : (requestText features path mode).length < 2 ^ 32) :
    (Call.push path mode mtime source).request features reader =
      (some (.ok ()), reader.afterSending (pushMessages features path mode mtime chunks)) := by
  have hStart : SyncClient.startPush features path mode reader =
      (some (.ok ()), reader.afterSending (startMessages features path mode)) := by
    unfold SyncClient.startPush startMessages
    by_cases hV2 : features.sendrecvV2
    · rw [requestText, if_pos hV2] at hFits
      rw [if_pos hV2, if_pos hV2, requestText, if_pos hV2, request, if_pos hFits]
      rw [Async.bind_ok (Async.lift_apply _ _), Async.bind_ok (send_accepted hAccepts _),
        send_accepted (hAccepts.afterSending _), afterSending_append]
      rfl
    · rw [requestText, if_neg hV2] at hFits
      rw [if_neg hV2, if_neg hV2, requestText, if_neg hV2, request, if_pos hFits]
      rw [Async.bind_ok (Async.lift_apply _ _), send_accepted hAccepts]
      rfl
  rw [Call.request, Async.bind_ok hStart,
    Async.bind_ok (pushChunks_accepted h (hAccepts.afterSending _)),
    send_accepted ((hAccepts.afterSending _).afterSending _), afterSending_append,
    afterSending_append, pushMessages, List.append_assoc]

/-- The status is success exactly when the reply is the success word. -/
theorem readStatus_ok_iff (reader : ChannelReader) :
    (SyncClient.readStatus reader).1 = some (.ok ()) ↔
      ∃ value rest, reader.Holds (word id.OKAY value ++ rest) := by
  constructor
  · intro h
    obtain ⟨reply, middle, hId, hNext⟩ := Async.bind_eq_ok (Prod.ext h rfl)
    split at hNext
    · rename_i hOkay
      obtain ⟨value, last, hWord, -⟩ := Async.bind_eq_ok hNext
      refine ⟨value, last.buffer, holds_iff.mpr ⟨last.channel.incoming, ?_⟩⟩
      have hMiddle := readU32_eq_ok hWord _ (holds_buffer last)
      have hReader := (readExact_eq_ok hId).2 _ hMiddle
      rwa [hOkay, ← List.append_assoc] at hReader
    · split at hNext
      · obtain ⟨len, last, -, hMessage⟩ := Async.bind_eq_ok hNext
        obtain ⟨message, after, -, hFail⟩ := Async.bind_eq_ok hMessage
        cases hFail
      · cases hNext
  · rintro ⟨value, rest, hHolds⟩
    obtain ⟨tail, hBefore⟩ := holds_iff.mp hHolds
    obtain ⟨next, hRun, -⟩ := @answer_consumes tail ⟨false, false, false⟩ (.push [] 0 0 [])
      (.okay value) trivial trivial reader rest hBefore
    obtain ⟨status, middle, hStatus, -⟩ := Async.bind_eq_ok hRun
    rw [hStatus]

/-- A push sends exactly the file. However the device cuts what was sent, it
decodes one upload and nothing else: the path, the mode, the content as it was
read, frame by frame and no frame larger than the limit, and the time. The push
succeeds exactly when the status that comes back is the success word. -/
theorem push_sends_file {features : SyncFeatures} {path : Bytes} {mode mtime : UInt32}
    {source : List SourceRead} {chunks : List Bytes} {reader : ChannelReader}
    (hSource : Delivers source chunks) (hAccepts : reader.Accepts)
    (hFits : (requestText features path mode).length < 2 ^ 32) :
    ∃ messages, (SyncClient.push features path mode mtime source reader).2.channel.sent =
        reader.channel.sent ++ messages ∧
      (∀ pieces : List Bytes, pieces.flatten = messages.flatten →
        pieces.foldl uploads.feed ((.idle, []), []) = ((.idle, [⟨path, mode, chunks, mtime⟩]), [])) ∧
      (∀ chunk ∈ chunks, chunk.length ≤ DATA_MAX) ∧
      ((SyncClient.push features path mode mtime source reader).1 = some (.ok ()) ↔
        ∃ value rest, reader.Holds (word id.OKAY value ++ rest)) := by
  have hPush : SyncClient.push features path mode mtime source reader =
      SyncClient.readStatus (reader.afterSending (pushMessages features path mode mtime chunks)) := by
    have hParts : SyncClient.push features path mode mtime source =
        (Call.push path mode mtime source).request features >>= fun _ => SyncClient.readStatus := by
      simp only [SyncClient.push, Call.request, Async.bind_assoc]
    rw [hParts, Async.bind_ok (request_accepted hSource hAccepts hFits)]
  refine ⟨pushMessages features path mode mtime chunks, ?_, ?_, hSource.fits, ?_⟩
  · obtain ⟨incoming, buffer, hAfter⟩ := SyncClient.readStatus_behind _ _ (behind_self
      (reader.afterSending (pushMessages features path mode mtime chunks)))
    rw [hPush, hAfter]
    rfl
  · exact fun pieces hPieces => feed_pushMessages hFits hSource.fits hPieces
  · rw [hPush, readStatus_ok_iff]
    rfl

/-- A path with commas, pushed in the first version from a source of two reads. -/
theorem push_sends_file_two_reads :
    ∃ messages, (SyncClient.push ⟨false, false, false⟩ (ascii "a,b") 420 7
        [.ok ⟨[1, 2], by decide⟩, .ok ⟨[3], by decide⟩]
        ⟨⟨[.ok (ascii "OK"), .ok (ascii "AY" ++ [0, 0, 0, 0])], false, [], fun _ => none, false⟩,
          []⟩).2.channel.sent = [] ++ messages ∧
      (∀ pieces : List Bytes, pieces.flatten = messages.flatten →
        pieces.foldl uploads.feed ((.idle, []), []) =
          ((.idle, [⟨ascii "a,b", 420, [[1, 2], [3]], 7⟩]), [])) ∧
      (∀ chunk ∈ ([[1, 2], [3]] : List Bytes), chunk.length ≤ DATA_MAX) ∧
      ((SyncClient.push ⟨false, false, false⟩ (ascii "a,b") 420 7
        [.ok ⟨[1, 2], by decide⟩, .ok ⟨[3], by decide⟩]
        ⟨⟨[.ok (ascii "OK"), .ok (ascii "AY" ++ [0, 0, 0, 0])], false, [], fun _ => none, false⟩,
          []⟩).1 = some (.ok ()) ↔ ∃ value rest, ChannelReader.Holds
        ⟨⟨[.ok (ascii "OK"), .ok (ascii "AY" ++ [0, 0, 0, 0])], false, [], fun _ => none, false⟩, []⟩
        (word id.OKAY value ++ rest)) :=
  push_sends_file (.chunk (by decide) (.chunk (by decide) .exhausted)) (fun _ => rfl) (by decide)

end Rsadb.Sync
