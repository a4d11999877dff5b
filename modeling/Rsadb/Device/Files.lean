import Rsadb.Services.Sync.Isolation

/-! Pulling a file over a `sync:` stream of its own. The bytes that the device
sends fall apart into data frames and an ending, in one way only, and the ending
decides what the pull returns. -/
namespace Rsadb

/-- Something that opens streams, and the features that its device advertised. -/
structure Connection where
  features : Result (List Bytes)
  openStream : Bytes → Result Channel

namespace Device

open Sync ChannelReader

/-- Open a `sync:` client on this device. -/
def sync (conn : Connection) : Result (SyncFeatures × ChannelReader) := do
  let features ← conn.features
  let channel ← conn.openStream (ascii "sync:")
  pure (SyncFeatures.fromFeatures features, ⟨channel, []⟩)

/-- A running pull: its client, and whether it has reported an error. -/
abbrev PullStream : Type := ChannelReader × Bool

/-- The next item of a running pull, `none` at its end. -/
def next : Async Error PullStream (Option (Result Bytes)) := fun (client, done) =>
  if done then (some (.ok none), (client, done))
  else
    match SyncClient.nextData client with
    | (some (.ok (some chunk)), client) => (some (.ok (some (.ok chunk))), (client, false))
    | (some (.ok none), client) => (some (.ok none), (client, done))
    | (some (.error e), client) => (some (.ok (some (.error e))), (client, true))
    | (none, client) => (none, (client, done))

/-- Pull a file as a stream of chunks. -/
def pull (conn : Connection) (remote : Bytes) : Option (Result PullStream) :=
  match sync conn with
  | .error e => some (.error e)
  | .ok (features, reader) =>
      match SyncClient.startPull features remote reader with
      | (some (.ok ()), client) => some (.ok (client, false))
      | (some (.error e), _) => some (.error e)
      | (none, _) => none

/-- One round of `pull_bytes`: keep the chunk, or give up with the error. -/
def extend (out : Bytes) : Result Bytes → Async Error PullStream Bytes
  | .ok chunk => pure (out ++ chunk)
  | .error e => Async.fail e

/-- Pull a whole file into memory. Every round takes at least one byte. -/
def pullBytes (conn : Connection) (remote : Bytes) : Option (Result Bytes) :=
  match pull conn remote with
  | some (.ok stream) => (Async.whileSome next extend (stream.1.available + 1) [] stream).1
  | some (.error e) => some (.error e)
  | none => none

/-- The items that a caller obtains with at most `polls` polls. A caller that
finds the stream waiting, or ended, polls no further. -/
def items : Nat → PullStream → List (Result Bytes)
  | 0, _ => []
  | polls + 1, stream =>
      match next stream with
      | (some (.ok (some item)), stream) => item :: items polls stream
      | _ => []

/-- However often it is polled, a pull yields chunks, and at most one error behind them. -/
theorem items_error_last (polls : Nat) (stream : PullStream) :
    ∃ (chunks : List Bytes) (errors : List Error),
      items polls stream = chunks.map .ok ++ errors.map .error ∧ errors.length ≤ 1 := by
  induction polls generalizing stream with
  | zero => exact ⟨[], [], rfl, by simp⟩
  | succ polls ih =>
      obtain ⟨client, done⟩ := stream
      cases done with
      | true => exact ⟨[], [], rfl, by simp⟩
      | false =>
          rcases hNext : SyncClient.nextData client with ⟨_ | e | _ | chunk, after⟩
          · exact ⟨[], [], by simp [items, next, hNext], by simp⟩
          · have hStopped : items polls (after, true) = [] := by
              cases polls <;> rfl
            exact ⟨[], [e], by simp [items, next, hNext, hStopped], by simp⟩
          · exact ⟨[], [], by simp [items, next, hNext], by simp⟩
          · obtain ⟨chunks, errors, hItems, hErrors⟩ := ih (after, false)
            exact ⟨chunk :: chunks, errors, by simp [items, next, hNext, hItems], hErrors⟩

/-- The bytes behind the data frames of a reply, by what they are. -/
inductive Ending where
  | done (mtime : UInt32) (rest : Bytes)
  | failed (message rest : Bytes)
  | oversized (len : UInt32) (rest : Bytes)
  | unknown (head rest : Bytes)
  | truncated (bytes : Bytes)

namespace Ending

def bytes : Ending → Bytes
  | done mtime rest => Sync.word id.DONE mtime ++ rest
  | failed message rest => failFrame message ++ rest
  | oversized len rest => Sync.word id.DATA len ++ rest
  | unknown head rest => head ++ rest
  | truncated bytes => bytes

/-- Every ending is what its name says. A truncated one stops before the id, the
word or the body that it announces is complete. -/
def Valid : Ending → Prop
  | done _ _ => True
  | failed message _ => message.length < 2 ^ 32
  | oversized len _ => DATA_MAX < len.toNat
  | unknown head _ => head.length = 4 ∧ head ≠ id.DATA ∧ head ≠ id.DONE ∧ head ≠ id.FAIL
  | truncated bytes =>
      bytes.length < 4 ∨
      (∃ head rest, bytes = head ++ rest ∧ (head = id.DATA ∨ head = id.DONE ∨ head = id.FAIL) ∧
        rest.length < 4) ∨
      (∃ len rest, bytes = Sync.word id.DATA len ++ rest ∧ len.toNat ≤ DATA_MAX ∧
        rest.length < len.toNat) ∨
      ∃ len rest, bytes = Sync.word id.FAIL len ++ rest ∧ rest.length < len.toNat

/-- The error that the client makes of the ending; none of the closing word. -/
def failure : Ending → Option Error
  | done _ _ => none
  | failed message _ => some (.remoteFailure (Utf8.lossy message))
  | oversized len _ => some (.protocol s!"DATA chunk of {len} bytes exceeds {DATA_MAX}")
  | unknown head _ => some (SyncClient.unexpected head)
  | truncated _ => some .streamClosed

/-- What reading a data frame gives where the ending stands. -/
def answer (ending : Ending) : Result (Option Bytes) :=
  match ending.failure with
  | none => .ok none
  | some e => .error e

end Ending

/-- What reads only leaves the stream ended. -/
private theorem finished_of_consumes {α : Type} {op : Async Error ChannelReader α} {input : Bytes}
    {result : Result α} (hBehind : ∀ start, Async.Keeps (Behind start) op)
    (h : Async.Consumes (HoldsBefore []) op input result) :
    Async.Consumes Finished op input result := by
  refine h.and_keeps fun reader hEnded => ?_
  obtain ⟨incoming, buffer, hAfter⟩ := hBehind reader reader (behind_self reader)
  rw [hAfter]
  exact hEnded

/-- What is in front of the place where a stream stops is read as on any other. -/
private theorem consumes_stops {α : Type} {e : Error} {op : Async Error ChannelReader α} {input : Bytes}
    {result : Result α} (hBehind : ∀ start, Async.Keeps (Behind start) op)
    (h : ∀ tail, Async.Consumes (HoldsBefore tail) op input result) :
    Async.Consumes (Stops e) op input result := by
  rintro reader rest (⟨hFinished, hClosed⟩ | ⟨tail, hHolds⟩)
  · obtain ⟨next, hRun, hNext⟩ := finished_of_consumes hBehind (h []) reader rest hFinished
    exact ⟨next, hRun, Or.inl ⟨hNext, hClosed⟩⟩
  · obtain ⟨next, hRun, hNext⟩ := h _ reader rest hHolds
    exact ⟨next, hRun, Or.inr ⟨tail, hNext⟩⟩

private theorem readExact_stops {e : Error} {input : Bytes} {len : Nat} (hLen : input.length = len) :
    Async.Consumes (Stops e) (readExact len) input (.ok input) :=
  consumes_stops (fun start => readExact_behind start len) fun _ => readExact_consumes input hLen

private theorem readU32_stops {e : Error} (value : UInt32) :
    Async.Consumes (Stops e) readU32 (toLeBytes value) (.ok value) :=
  consumes_stops readU32_behind fun _ => readU32_consumes value

/-- A stream that stops inside a word fails the read of it. -/
private theorem readU32_short {e : Error} {reader : ChannelReader} {content : Bytes}
    (h : Stops e reader content) (hShort : content.length < 4) :
    (readU32 reader).1 = some (.error e) := by
  have hRead := h.readExact hShort
  rw [readU32, Async.bind_error (Prod.ext hRead rfl)]

/-- A computation that fails in its first part fails. -/
private theorem bind_error_fst {α β : Type} {first : Async Error ChannelReader α}
    {rest : α → Async Error ChannelReader β} {reader : ChannelReader} {e : Error}
    (h : (first reader).1 = some (.error e)) : ((first >>= rest) reader).1 = some (.error e) := by
  rw [Async.bind_error (Prod.ext h rfl)]

/-- What the client makes of a reply that is cut short. -/
theorem nextData_truncated {e : Error} {bytes : Bytes} (hValid : (Ending.truncated bytes).Valid)
    {reader : ChannelReader} (h : Stops e reader bytes) :
    (SyncClient.nextData reader).1 = some (.error e) := by
  rcases hValid with hShort | ⟨head, rest, rfl, hHead, hShort⟩ | ⟨len, rest, rfl, hLen, hShort⟩ |
    ⟨len, rest, rfl, hShort⟩
  · exact bind_error_fst (h.readExact hShort)
  · have hFour : head.length = 4 := by
      rcases hHead with rfl | rfl | rfl <;> decide
    obtain ⟨next, hRun, hNext⟩ := readExact_stops hFour reader rest h
    rw [SyncClient.nextData, SyncClient.readId, Async.bind_ok hRun]
    rcases hHead with rfl | rfl | rfl
    · exact bind_error_fst (readU32_short hNext hShort)
    · exact bind_error_fst (readU32_short hNext hShort)
    · exact bind_error_fst (readU32_short hNext hShort)
  · rw [Sync.word, List.append_assoc] at h
    obtain ⟨next, hRun, hNext⟩ :=
      readExact_stops (show id.DATA.length = 4 by decide) reader _ h
    obtain ⟨last, hWord, hLast⟩ := readU32_stops len next _ hNext
    rw [SyncClient.nextData, SyncClient.readId, Async.bind_ok hRun, if_pos rfl, Async.bind_ok hWord,
      if_neg (by omega)]
    exact bind_error_fst (hLast.readExact hShort)
  · rw [Sync.word, List.append_assoc] at h
    obtain ⟨next, hRun, hNext⟩ :=
      readExact_stops (show id.FAIL.length = 4 by decide) reader _ h
    obtain ⟨last, hWord, hLast⟩ := readU32_stops len next _ hNext
    rw [SyncClient.nextData, SyncClient.readId, Async.bind_ok hRun, if_neg (by decide),
      if_neg (by decide), if_pos rfl, SyncClient.fail, Async.bind_ok hWord]
    exact bind_error_fst (hLast.readExact hShort)

/-- What the client makes of an ending that is not cut short, whatever is behind it. -/
theorem Ending.nextData_whole {ending : Ending} (hValid : ending.Valid)
    (hWhole : ∀ bytes, ending ≠ .truncated bytes) {tail : List (Result Bytes)} {reader : ChannelReader}
    (h : reader.HoldsBefore tail ending.bytes) : (SyncClient.nextData reader).1 = some ending.answer := by
  cases ending with
  | done mtime rest =>
      obtain ⟨next, hRun, -⟩ := nextData_done mtime reader rest h
      rw [hRun]
      rfl
  | failed message rest =>
      obtain ⟨next, hRun, -⟩ := nextData_fail hValid reader rest h
      rw [hRun]
      rfl
  | oversized len rest =>
      rw [Ending.bytes, Sync.word, List.append_assoc] at h
      obtain ⟨next, hRun, hNext⟩ :=
        readExact_consumes id.DATA (show id.DATA.length = 4 by decide) reader _ h
      obtain ⟨last, hWord, -⟩ := readU32_consumes len next _ hNext
      rw [SyncClient.nextData, SyncClient.readId, Async.bind_ok hRun, if_pos rfl,
        Async.bind_ok hWord, if_pos (show DATA_MAX < len.toNat from hValid)]
      rfl
  | unknown head rest =>
      obtain ⟨hFour, hData, hDone, hFail⟩ := hValid
      obtain ⟨next, hRun, -⟩ := readExact_consumes head hFour reader rest h
      rw [SyncClient.nextData, SyncClient.readId, Async.bind_ok hRun, if_neg hData, if_neg hDone,
        if_neg hFail]
      rfl
  | truncated bytes => exact absurd rfl (hWhole bytes)

/-- What the client makes of each ending. -/
theorem Ending.nextData {ending : Ending} (hValid : ending.Valid) {reader : ChannelReader}
    (h : reader.Finished ending.bytes) : (SyncClient.nextData reader).1 = some ending.answer := by
  cases ending with
  | truncated bytes => exact nextData_truncated hValid (Or.inl ⟨h, rfl⟩)
  | _ => exact nextData_whole hValid (fun _ hSame => nomatch hSame) h.1

/-- Eight bytes are an id and a word. -/
private theorem exists_word {bytes : Bytes} (h : 8 ≤ bytes.length) :
    ∃ value rest, bytes = Sync.word (bytes.take 4) value ++ rest := by
  have hFour : ((bytes.drop 4).take 4).length = 4 := by
    rw [List.length_take, List.length_drop]
    omega
  refine ⟨fromLeBytes ((bytes.drop 4).take 4), (bytes.drop 4).drop 4, ?_⟩
  rw [Sync.word, toLeBytes_fromLeBytes hFour, List.append_assoc, List.take_append_drop,
    List.take_append_drop]

/-- A failure that is announced is one, or is cut short. -/
private theorem exists_failed (value : UInt32) (rest : Bytes) :
    ∃ ending : Ending, ending.Valid ∧ Sync.word id.FAIL value ++ rest = ending.bytes := by
  by_cases hBody : rest.length < value.toNat
  · exact ⟨.truncated _, .inr (.inr (.inr ⟨value, rest, rfl, hBody⟩)), rfl⟩
  · have hMessage : (rest.take value.toNat).length = value.toNat := by
      rw [List.length_take]
      omega
    refine ⟨.failed (rest.take value.toNat) (rest.drop value.toNat), ?_, ?_⟩
    · show (rest.take value.toNat).length < 2 ^ 32
      rw [hMessage]
      exact value.toNat_lt
    · rw [Ending.bytes, failFrame, hMessage, UInt32.ofNat_toNat, List.append_assoc,
        List.take_append_drop]

/-- A data frame that is announced is too large, or cut short, or whole. -/
private theorem exists_data (value : UInt32) (rest : Bytes) :
    (∃ ending : Ending, ending.Valid ∧ Sync.word id.DATA value ++ rest = ending.bytes) ∨
    ∃ chunk more : Bytes, chunk.length ≤ DATA_MAX ∧
      Sync.word id.DATA value ++ rest = dataFrame chunk ++ more := by
  by_cases hMax : DATA_MAX < value.toNat
  · exact Or.inl ⟨.oversized value rest, hMax, rfl⟩
  by_cases hBody : rest.length < value.toNat
  · exact Or.inl ⟨.truncated _, .inr (.inr (.inl ⟨value, rest, rfl, Nat.le_of_not_lt hMax, hBody⟩)), rfl⟩
  have hChunk : (rest.take value.toNat).length = value.toNat := by
    rw [List.length_take]
    omega
  refine Or.inr ⟨rest.take value.toNat, rest.drop value.toNat, ?_, ?_⟩
  · rw [hChunk]
    exact Nat.le_of_not_lt hMax
  · rw [dataFrame, hChunk, UInt32.ofNat_toNat, List.append_assoc, List.take_append_drop]

/-- Every reply falls apart into data frames and an ending. -/
theorem exists_ending (bytes : Bytes) : ∃ (chunks : List Bytes) (ending : Ending),
    (∀ chunk ∈ chunks, chunk.length ≤ DATA_MAX) ∧ ending.Valid ∧
      bytes = chunks.flatMap dataFrame ++ ending.bytes := by
  induction hLength : bytes.length using Nat.strongRecOn generalizing bytes with
  | _ length ih =>
      -- Nothing but an ending, unless a whole data frame stands in front.
      have hEnd : (∃ ending : Ending, ending.Valid ∧ bytes = ending.bytes) → ∃ (chunks : List Bytes)
          (ending : Ending), (∀ chunk ∈ chunks, chunk.length ≤ DATA_MAX) ∧ ending.Valid ∧
            bytes = chunks.flatMap dataFrame ++ ending.bytes := by
        rintro ⟨ending, hValid, hBytes⟩
        exact ⟨[], ending, by simp, hValid, by simpa using hBytes⟩
      by_cases hId : bytes.length < 4
      · exact hEnd ⟨.truncated bytes, .inl hId, rfl⟩
      have hBytes : bytes = bytes.take 4 ++ bytes.drop 4 := (List.take_append_drop 4 bytes).symm
      by_cases hKnown : bytes.take 4 = id.DATA ∨ bytes.take 4 = id.DONE ∨ bytes.take 4 = id.FAIL
      · by_cases hWord : (bytes.drop 4).length < 4
        · exact hEnd ⟨.truncated bytes, .inr (.inl ⟨_, _, hBytes, hKnown, hWord⟩), rfl⟩
        obtain ⟨value, rest, hSplit⟩ := @exists_word bytes (by
          rw [List.length_drop] at hWord
          omega)
        rcases hKnown with hData | hDone | hFail
        · rw [hData] at hSplit
          rcases exists_data value rest with ⟨ending, hValid, hOver⟩ | ⟨chunk, more, hFit, hFrame⟩
          · exact hEnd ⟨ending, hValid, hSplit.trans hOver⟩
          · have hWhole : bytes = dataFrame chunk ++ more := hSplit.trans hFrame
            obtain ⟨chunks, ending, hFits, hValid, hLater⟩ := ih more.length (by
              rw [← hLength, hWhole, dataFrame, List.length_append, List.length_append,
                word_length (by decide)]
              omega) more rfl
            refine ⟨chunk :: chunks, ending, List.forall_mem_cons.mpr ⟨hFit, hFits⟩, hValid, ?_⟩
            rw [List.flatMap_cons, List.append_assoc, ← hLater]
            exact hWhole
        · rw [hDone] at hSplit
          exact hEnd ⟨.done value rest, trivial, hSplit⟩
        · rw [hFail] at hSplit
          obtain ⟨ending, hValid, hOver⟩ := exists_failed value rest
          exact hEnd ⟨ending, hValid, hSplit.trans hOver⟩
      · simp only [not_or] at hKnown
        have hHead : (bytes.take 4).length = 4 := by
          rw [List.length_take]
          omega
        exact hEnd ⟨.unknown (bytes.take 4) (bytes.drop 4), ⟨hHead, hKnown⟩, hBytes⟩

/-- What a pull returns, given the content and the ending of the reply. -/
def verdict (content : Bytes) (ending : Ending) : Result Bytes :=
  match ending.failure with
  | none => .ok content
  | some e => .error e

/-- One data frame is one round of the loop. -/
private theorem next_chunk {chunk : Bytes} (hFit : chunk.length ≤ DATA_MAX) {reader : ChannelReader}
    {rest : Bytes} (h : reader.Finished (dataFrame chunk ++ rest)) :
    ∃ after : ChannelReader, after.Finished rest ∧
      next (reader, false) = (some (.ok (some (.ok chunk))), (after, false)) := by
  obtain ⟨after, hRun, hAfter⟩ :=
    finished_of_consumes SyncClient.nextData_behind (nextData_data hFit) reader rest h
  exact ⟨after, hAfter, by simp [next, hRun]⟩

/-- With a round for each frame and one for the ending, the loop comes to its verdict. -/
private theorem collect_eq (chunks : List Bytes) (hFit : ∀ chunk ∈ chunks, chunk.length ≤ DATA_MAX)
    {ending : Ending} (hValid : ending.Valid) (rounds : Nat) (hRounds : chunks.length < rounds)
    (out : Bytes) (reader : ChannelReader)
    (h : reader.Finished (chunks.flatMap dataFrame ++ ending.bytes)) :
    (Async.whileSome next extend rounds out (reader, false)).1 =
      some (verdict (out ++ chunks.flatten) ending) := by
  induction chunks generalizing rounds out reader with
  | nil =>
      obtain ⟨rounds, rfl⟩ := Nat.exists_eq_succ_of_ne_zero (Nat.ne_of_gt hRounds)
      have hAnswer := Ending.nextData hValid (show reader.Finished ending.bytes by simpa using h)
      rcases hRun : SyncClient.nextData reader with ⟨result, after⟩
      rw [hRun] at hAnswer
      obtain rfl : result = some ending.answer := hAnswer
      rw [Async.whileSome, verdict]
      unfold Ending.answer at hRun
      cases hFailure : ending.failure with
      | none =>
          simp only [hFailure] at hRun
          have hNext : next (reader, false) = (some (.ok none), (after, false)) := by
            simp [next, hRun]
          rw [Async.bind_ok hNext]
          simp
      | some e =>
          -- The error is an item of the stream, and the loop passes it on.
          simp only [hFailure] at hRun
          have hNext : next (reader, false) = (some (.ok (some (.error e))), (after, true)) := by
            simp [next, hRun]
          rw [Async.bind_ok hNext]
          rfl
  | cons chunk chunks ih =>
      obtain ⟨rounds, rfl⟩ := Nat.exists_eq_succ_of_ne_zero (Nat.ne_zero_of_lt hRounds)
      rw [List.flatMap_cons, List.append_assoc] at h
      obtain ⟨after, hAfter, hNext⟩ := next_chunk (hFit chunk List.mem_cons_self) h
      have hKept : extend out (.ok chunk) (after, false) =
          (some (.ok (out ++ chunk)), (after, false)) := rfl
      rw [Async.whileSome, Async.bind_ok hNext]
      simp only
      rw [Async.bind_ok hKept,
        ih (fun other hOther => hFit other (List.mem_cons_of_mem _ hOther)) rounds
          (Nat.lt_of_succ_lt_succ hRounds) (out ++ chunk) after hAfter,
        List.append_assoc, List.flatten_cons]

/-- A frame has at least its id and its word. -/
theorem length_le_frames (chunks : List Bytes) :
    chunks.length ≤ (chunks.flatMap dataFrame).length := by
  induction chunks with
  | nil => simp
  | cons chunk chunks ih =>
      have hFrame : 8 ≤ (dataFrame chunk).length := by
        rw [dataFrame, List.length_append, word_length (by decide)]
        omega
      rw [List.length_cons, List.flatMap_cons, List.length_append]
      omega

/-- The frames and the ending of the reply decide what a pull returns. -/
theorem pullBytes_eq {conn : Connection} {remote : Bytes} {client : ChannelReader}
    {chunks : List Bytes} {ending : Ending} (hPull : pull conn remote = some (.ok (client, false)))
    (hFit : ∀ chunk ∈ chunks, chunk.length ≤ DATA_MAX) (hValid : ending.Valid)
    (h : client.Finished (chunks.flatMap dataFrame ++ ending.bytes)) :
    pullBytes conn remote = some (verdict chunks.flatten ending) := by
  have hRounds : chunks.length < client.available + 1 := by
    have hFrames := length_le_frames chunks
    have hAvailable := h.1.length_le_available
    rw [List.length_append] at hAvailable
    omega
  rw [pullBytes, hPull]
  simp only
  rw [collect_eq chunks hFit hValid _ hRounds [] client h, List.nil_append]

/-- A pull whose request was sent, and whose reply is `bytes` up to the end of
the stream. It succeeds exactly when the bytes begin with data frames and the
closing word, and then returns the content of those frames. A failure of the
device, a frame that is too large and an id that is not known give their own
errors, and a reply that ends before any of these is an error too. -/
theorem pull_exact {conn : Connection} {remote : Bytes} {client : ChannelReader} {bytes : Bytes}
    (hPull : pull conn remote = some (.ok (client, false))) (hReply : client.Finished bytes) :
    (∀ content, pullBytes conn remote = some (.ok content) ↔
      ∃ (chunks : List Bytes) (mtime : UInt32) (rest : Bytes),
        (∀ chunk ∈ chunks, chunk.length ≤ DATA_MAX) ∧
        bytes = chunks.flatMap dataFrame ++ (Sync.word id.DONE mtime ++ rest) ∧
        content = chunks.flatten) ∧
    (∀ (chunks : List Bytes) (ending : Ending), (∀ chunk ∈ chunks, chunk.length ≤ DATA_MAX) →
      ending.Valid → bytes = chunks.flatMap dataFrame ++ ending.bytes →
      match ending with
      | .done _ _ => pullBytes conn remote = some (.ok chunks.flatten)
      | .failed message _ =>
          pullBytes conn remote = some (.error (.remoteFailure (Utf8.lossy message)))
      | .oversized _ _ | .unknown _ _ =>
          ∃ message, pullBytes conn remote = some (.error (.protocol message))
      | .truncated _ => pullBytes conn remote = some (.error .streamClosed)) ∧
    (∃ (chunks : List Bytes) (ending : Ending), (∀ chunk ∈ chunks, chunk.length ≤ DATA_MAX) ∧
      ending.Valid ∧ bytes = chunks.flatMap dataFrame ++ ending.bytes) ∧
    ∀ polls, ∃ (chunks : List Bytes) (errors : List Error),
      items polls (client, false) = chunks.map .ok ++ errors.map .error ∧ errors.length ≤ 1 := by
  refine ⟨?_, ?_, exists_ending bytes, fun polls => items_error_last polls _⟩
  · intro content
    constructor
    · intro hOk
      obtain ⟨chunks, ending, hFit, hValid, hBytes⟩ := exists_ending bytes
      rw [hBytes] at hReply
      rw [pullBytes_eq hPull hFit hValid hReply] at hOk
      cases ending with
      | done mtime rest =>
          exact ⟨chunks, mtime, rest, hFit, hBytes, (Except.ok.inj (Option.some.inj hOk)).symm⟩
      | _ => cases hOk
    · rintro ⟨chunks, mtime, rest, hFit, rfl, rfl⟩
      exact @pullBytes_eq _ _ _ _ (.done mtime rest) hPull hFit trivial hReply
  · rintro chunks ending hFit hValid rfl
    have hVerdict := pullBytes_eq hPull hFit hValid hReply
    cases ending with
    | oversized len rest => exact ⟨_, hVerdict⟩
    | unknown head rest => exact ⟨_, hVerdict⟩
    | _ => exact hVerdict

/-- A file of one byte, whose reply is cut inside a frame. -/
theorem pull_exact_one_byte :
    pullBytes ⟨.ok [], fun _ => .ok ⟨[.ok (ascii "DATA" ++ [1, 0, 0]),
      .ok ([0, 120] ++ ascii "DONE" ++ [0, 0, 0, 0])], true, [], fun _ => none, false⟩⟩ [97] =
      some (.ok [120]) :=
  ((pull_exact rfl ⟨⟨[_, _], rfl, rfl⟩, rfl⟩).1 [120]).mpr
    ⟨[[120]], 0, [], by simp [DATA_MAX], by decide, rfl⟩

end Device
end Rsadb
