import Rsadb.Wire.Codec
import Rsadb.Library.Async

/-! The byte-stream abstraction every service is written against, and the
buffered reading helpers over it. A channel is modelled by what its peer will
send: results of `recv` in order, and whether the stream ends behind them. -/
namespace Rsadb

/-- One bidirectional stream. `sendError n` is the error, if any, of the send
that comes after `n` successful ones. -/
structure Channel where
  incoming : List (Result Bytes)
  ended : Bool
  sent : List Bytes
  sendError : Nat → Option Error
  closed : Bool

namespace Channel

/-- Next chunk from the device, or `none` once the device closed the stream. -/
def recv : Async Error Channel (Option Bytes) := fun channel =>
  match channel.incoming with
  | [] => (if channel.ended then some (.ok none) else none, channel)
  | .ok chunk :: rest => (some (.ok (some chunk)), { channel with incoming := rest })
  | .error e :: rest => (some (.error e), { channel with incoming := rest })

def send (data : Bytes) : Async Error Channel Unit := fun channel =>
  match channel.sendError channel.sent.length with
  | some e => (some (.error e), channel)
  | none => (some (.ok ()), { channel with sent := channel.sent ++ [data] })

/-- Close the stream; idempotent. -/
def close : Async Error Channel Unit := fun channel =>
  (some (.ok ()), { channel with closed := true })

end Channel

/-- A channel with the bytes received from it but not yet taken. -/
structure ChannelReader where
  channel : Channel
  buffer : Bytes

namespace ChannelReader

/-- Bytes that the reader can still obtain before the peer sends more. -/
def available (reader : ChannelReader) : Nat :=
  reader.buffer.length + (reader.channel.incoming.map fun
    | .ok chunk => chunk.length
    | .error _ => 0).sum

/-- An operation of the wrapped channel. -/
def onChannel {α : Type} (op : Async Error Channel α) : Async Error ChannelReader α := fun reader =>
  ((op reader.channel).1, { reader with channel := (op reader.channel).2 })

def send (data : Bytes) : Async Error ChannelReader Unit := onChannel (Channel.send data)

/-- The loop of `read_exact`: receive until the buffer holds `len` bytes. -/
def fill (len : Nat) (ended : Bool) :
    List (Result Bytes) → Bytes → Option (Result Unit) × List (Result Bytes) × Bytes
  | [], buffer =>
      if buffer.length < len then (if ended then some (.error .streamClosed) else none, [], buffer)
      else (some (.ok ()), [], buffer)
  | received :: rest, buffer =>
      if buffer.length < len then
        match received with
        | .ok chunk => fill len ended rest (buffer ++ chunk)
        | .error e => (some (.error e), rest, buffer)
      else (some (.ok ()), received :: rest, buffer)

/-- Read exactly `len` bytes; the end of the stream before that is `streamClosed`. -/
def readExact (len : Nat) : Async Error ChannelReader Bytes := fun reader =>
  let (filled, incoming, buffer) := fill len reader.channel.ended reader.channel.incoming reader.buffer
  let channel := { reader.channel with incoming := incoming }
  match filled with
  | some (.ok ()) => (some (.ok (buffer.take len)), ⟨channel, buffer.drop len⟩)
  | some (.error e) => (some (.error e), ⟨channel, buffer⟩)
  | none => (none, ⟨channel, buffer⟩)

/-- Read a little-endian word. -/
def readU32 : Async Error ChannelReader UInt32 := do
  let bytes ← readExact 4
  pure (fromLeBytes bytes)

/-- The content still to be read is `content`, however it is cut into chunks;
behind it the channel may do anything. -/
def Holds (reader : ChannelReader) (content : Bytes) : Prop :=
  ∃ (chunks : List Bytes) (tail : List (Result Bytes)),
    reader.channel.incoming = chunks.map .ok ++ tail ∧ reader.buffer ++ chunks.flatten = content

/-- The content still to be read before `tail` is `content`. -/
def HoldsBefore (tail : List (Result Bytes)) (reader : ChannelReader) (content : Bytes) : Prop :=
  ∃ chunks : List Bytes,
    reader.channel.incoming = chunks.map .ok ++ tail ∧ reader.buffer ++ chunks.flatten = content

theorem holds_iff {reader : ChannelReader} {content : Bytes} :
    reader.Holds content ↔ ∃ tail, reader.HoldsBefore tail content := by
  constructor
  · rintro ⟨chunks, tail, h⟩
    exact ⟨tail, chunks, h⟩
  · rintro ⟨tail, chunks, h⟩
    exact ⟨chunks, tail, h⟩

theorem HoldsBefore.length_le_available {tail : List (Result Bytes)} {reader : ChannelReader}
    {content : Bytes} (h : reader.HoldsBefore tail content) : content.length ≤ reader.available := by
  obtain ⟨chunks, hIncoming, rfl⟩ := h
  rw [available, hIncoming, List.map_append, List.sum_append, List.map_map, List.length_append,
    List.length_flatten, ← Nat.add_assoc]
  exact Nat.le_add_right _ _

/-- The bytes that one result of `recv` brings. -/
def payload : Result Bytes → Bytes
  | .ok chunk => chunk
  | .error _ => []

/-- Everything that was sent to the reader and that it has not taken. -/
def unread (reader : ChannelReader) : Bytes :=
  reader.buffer ++ reader.channel.incoming.flatMap payload

/-- The content before `tail` is what is unread, less what `tail` brings. -/
theorem HoldsBefore.unread {tail : List (Result Bytes)} {reader : ChannelReader} {content : Bytes}
    (h : reader.HoldsBefore tail content) : reader.unread = content ++ tail.flatMap payload := by
  obtain ⟨chunks, hIncoming, hContent⟩ := h
  have hChunks : (chunks.map (Except.ok : Bytes → Result Bytes)).flatMap payload = chunks.flatten := by
    rw [List.flatMap_map, List.flatten_eq_flatMap]
    rfl
  rw [ChannelReader.unread, hIncoming, List.flatMap_append, hChunks, ← List.append_assoc, hContent]

private theorem fill_holds (len : Nat) (ended : Bool) (chunks : List Bytes)
    (tail : List (Result Bytes)) (buffer : Bytes)
    (h : len ≤ (buffer ++ chunks.flatten).length) :
    ∃ (rest : List Bytes) (filled : Bytes), fill len ended (chunks.map .ok ++ tail) buffer =
        (some (.ok ()), rest.map .ok ++ tail, filled) ∧
      filled ++ rest.flatten = buffer ++ chunks.flatten ∧ len ≤ filled.length := by
  induction chunks generalizing buffer with
  | nil =>
      have hEnough : ¬buffer.length < len := by simpa using h
      refine ⟨[], buffer, ?_, rfl, by omega⟩
      cases tail <;> simp [fill, hEnough]
  | cons chunk more ih =>
      by_cases hShort : buffer.length < len
      · obtain ⟨rest, filled, hRun, hContent, hLength⟩ := ih (buffer ++ chunk)
          (by simpa [List.append_assoc] using h)
        refine ⟨rest, filled, ?_, by simpa [List.append_assoc] using hContent, hLength⟩
        simpa [fill, hShort] using hRun
      · exact ⟨chunk :: more, buffer, by simp [fill, hShort], rfl, by omega⟩

variable {tail : List (Result Bytes)}

/-- Reading as many bytes as `input` has returns `input`, whatever the chunks are. -/
theorem readExact_consumes (input : Bytes) {len : Nat} (hLen : input.length = len) :
    Async.Consumes (HoldsBefore tail) (readExact len) input (.ok input) := by
  rintro ⟨⟨incoming, ended, sent, sendError, closed⟩, buffer⟩ rest ⟨chunks, hIncoming, hContent⟩
  simp only at hIncoming hContent
  subst incoming
  obtain ⟨left, filled, hRun, hLeft, hFilled⟩ := fill_holds len ended chunks tail buffer (by
    rw [hContent, List.length_append]
    omega)
  rw [hContent] at hLeft
  have hTake : filled.take len = input := by
    have hPrefix := congrArg (List.take len) hLeft
    rwa [List.take_append_of_le_length hFilled, List.take_left' hLen] at hPrefix
  have hDrop : filled.drop len ++ left.flatten = rest := by
    have hSuffix := congrArg (List.drop len) hLeft
    rwa [List.drop_append_of_le_length hFilled, List.drop_left' hLen] at hSuffix
  refine ⟨⟨⟨left.map .ok ++ tail, ended, sent, sendError, closed⟩, filled.drop len⟩, ?_, left, rfl, hDrop⟩
  simp only [readExact, hRun, hTake]

theorem readU32_consumes (value : UInt32) :
    Async.Consumes (HoldsBefore tail) readU32 (toLeBytes value) (.ok value) := by
  have hRead := (@readExact_consumes tail (toLeBytes value) _ (toLeBytes_length value)).map fromLeBytes
  rwa [fromLeBytes_toLeBytes] at hRead

/-- Sending does not touch what is still to be read. -/
theorem send_keeps (data content : Bytes) :
    Async.Keeps (fun reader : ChannelReader => reader.HoldsBefore tail content) (send data) := by
  rintro reader ⟨chunks, hIncoming, hContent⟩
  refine ⟨chunks, ?_, ?_⟩
  · simp only [send, onChannel, Channel.send]
    split <;> exact hIncoming
  · simpa only [send, onChannel] using hContent

/-- The reader `now` is `start` after some input was read, and nothing else was done. -/
def Behind (start now : ChannelReader) : Prop :=
  ∃ incoming buffer, now = ⟨{ start.channel with incoming := incoming }, buffer⟩

theorem behind_self (reader : ChannelReader) : Behind reader reader :=
  ⟨reader.channel.incoming, reader.buffer, rfl⟩

theorem readExact_behind (start : ChannelReader) (len : Nat) :
    Async.Keeps (Behind start) (readExact len) := by
  rintro _ ⟨incoming, buffer, rfl⟩
  simp only [readExact]
  split <;> exact ⟨_, _, rfl⟩

theorem readU32_behind (start : ChannelReader) : Async.Keeps (Behind start) readU32 :=
  (readExact_behind start 4).bind fun _ => .pure _

/-- The channel has received `more` since, or has learned that there is no more. -/
def Grows (more : List (Result Bytes)) (ended : Bool) (start now : ChannelReader) : Prop :=
  start.channel.ended = false ∧ now = { start with channel :=
    { start.channel with incoming := start.channel.incoming ++ more, ended := ended } }

private theorem fill_grows {len : Nat} {incoming left : List (Result Bytes)} {buffer filled : Bytes}
    {result : Result Unit} (h : fill len false incoming buffer = (some result, left, filled))
    (more : List (Result Bytes)) (ended : Bool) :
    fill len ended (incoming ++ more) buffer = (some result, left ++ more, filled) := by
  induction incoming generalizing buffer with
  | nil =>
      simp only [fill, Bool.false_eq_true, ↓reduceIte] at h
      split_ifs at h with hShort
      · cases h
      · cases h
        cases more <;> simp [fill, hShort]
  | cons received rest ih =>
      simp only [fill] at h
      simp only [List.cons_append, fill]
      split_ifs at h ⊢ with hShort
      · cases received with
        | error e =>
            cases h
            rfl
        | ok chunk => exact ih h
      · cases h
        rfl

private theorem fill_breaks {len : Nat} {incoming : List (Result Bytes)} {buffer : Bytes}
    (h : (fill len false incoming buffer).1 = none) (e : Error) (ended : Bool) :
    (fill len ended (incoming ++ [.error e]) buffer).1 = some (.error e) := by
  induction incoming generalizing buffer with
  | nil =>
      simp only [fill, Bool.false_eq_true, ↓reduceIte] at h
      split_ifs at h with hShort
      simp [fill, hShort]
  | cons received rest ih =>
      simp only [fill] at h
      simp only [List.cons_append, fill]
      split_ifs at h ⊢ with hShort
      cases received with
      | error e => cases h
      | ok chunk => exact ih h

variable {more : List (Result Bytes)} {ended : Bool}

theorem readExact_steady (len : Nat) : Async.Steady (Grows more ended) (readExact len) := by
  rintro ⟨channel, buffer⟩ _ ⟨hOpen, rfl⟩ result hResult
  change channel.ended = false at hOpen
  rcases hFill : fill len channel.ended channel.incoming buffer with ⟨_ | answer, left, filled⟩
  · simp only [readExact, hFill] at hResult
    cases hResult
  · have hMore := fill_grows (hOpen ▸ hFill) more ended
    cases answer <;> simp only [readExact, hFill, hMore] at hResult ⊢ <;>
      exact ⟨hResult, hOpen, rfl⟩

theorem readU32_steady : Async.Steady (Grows more ended) readU32 := (readExact_steady 4).bind fun _ => .pure _

/-- A read that waits fails when the stream breaks. -/
theorem readExact_breaks (len : Nat) (e : Error) : Async.Breaks e (Grows [.error e] ended) (readExact len) := by
  rintro ⟨channel, buffer⟩ _ ⟨hOpen, rfl⟩ hWaits
  change channel.ended = false at hOpen
  rcases hFill : fill len channel.ended channel.incoming buffer with ⟨_ | answer, left, filled⟩
  · have hBroken := fill_breaks (congrArg Prod.fst (hOpen ▸ hFill)) e ended
    rcases hThen : fill len ended (channel.incoming ++ [.error e]) buffer with ⟨result, left', filled'⟩
    rw [hThen] at hBroken
    obtain rfl : result = some (.error e) := hBroken
    simp only [readExact, hThen]
  · cases answer <;> simp only [readExact, hFill] at hWaits <;> cases hWaits

theorem readU32_breaks (e : Error) : Async.Breaks e (Grows [.error e] ended) readU32 :=
  Async.Breaks.bind (readExact_steady 4) (readExact_breaks 4 e) fun _ => .pure _

private theorem fill_ended (len : Nat) (incoming : List (Result Bytes)) (buffer : Bytes) :
    (fill len true incoming buffer).1 ≠ none := by
  induction incoming generalizing buffer with
  | nil =>
      simp only [fill]
      split <;> simp
  | cons received rest ih =>
      simp only [fill]
      split
      · cases received with
        | error e => simp
        | ok chunk => exact ih _
      · simp

/-- Once the stream has ended no read waits. -/
theorem readExact_prompt (len : Nat) :
    Async.Prompt (fun reader => reader.channel.ended = true) (readExact len) := by
  intro reader hEnded
  have hGives := fill_ended len reader.channel.incoming reader.buffer
  rw [← hEnded] at hGives
  simp only [readExact]
  rcases hFill : fill len reader.channel.ended reader.channel.incoming reader.buffer with
    ⟨_ | _ | _, left, filled⟩ <;> rw [hFill] at hGives
  · exact absurd rfl hGives
  · exact ⟨by simp, hEnded⟩
  · exact ⟨by simp, hEnded⟩

theorem readU32_prompt : Async.Prompt (fun reader => reader.channel.ended = true) readU32 :=
  (readExact_prompt 4).bind fun _ => .pure _

/-- The reader holds `content`, and the stream ends behind it. -/
def Finished (reader : ChannelReader) (content : Bytes) : Prop :=
  reader.HoldsBefore [] content ∧ reader.channel.ended = true

private theorem fill_short {len : Nat} (chunks : List Bytes) (buffer : Bytes)
    (h : (buffer ++ chunks.flatten).length < len) :
    (fill len true (chunks.map .ok) buffer).1 = some (.error .streamClosed) := by
  induction chunks generalizing buffer with
  | nil =>
      have hShort : buffer.length < len := by simpa using h
      simp [fill, hShort]
  | cons chunk chunks ih =>
      rw [List.map_cons, fill, if_pos]
      · exact ih (buffer ++ chunk) (by simpa [List.append_assoc] using h)
      · rw [List.length_append] at h
        omega

/-- A read fails where its loop does. -/
private theorem readExact_of_fill {len : Nat} {reader : ChannelReader} {e : Error}
    (h : (fill len reader.channel.ended reader.channel.incoming reader.buffer).1 = some (.error e)) :
    (readExact len reader).1 = some (.error e) := by
  simp only [readExact]
  split
  · rename_i hOk
    rw [hOk] at h
    cases h
  · rename_i hError
    rw [hError] at h
    cases h
    rfl
  · rename_i hNone
    rw [hNone] at h
    cases h

/-- A stream that ends too early fails the read. -/
theorem readExact_short {len : Nat} {reader : ChannelReader} {content : Bytes}
    (h : reader.Finished content) (hShort : content.length < len) :
    (readExact len reader).1 = some (.error .streamClosed) := by
  obtain ⟨⟨chunks, hIncoming, hContent⟩, hEnded⟩ := h
  apply readExact_of_fill
  rw [hEnded, hIncoming, List.append_nil]
  exact fill_short chunks reader.buffer (by rwa [hContent])

private theorem fill_broken {len : Nat} (ended : Bool) (chunks : List Bytes) (buffer : Bytes) (e : Error)
    (tail : List (Result Bytes)) (h : (buffer ++ chunks.flatten).length < len) :
    (fill len ended (chunks.map .ok ++ .error e :: tail) buffer).1 = some (.error e) := by
  induction chunks generalizing buffer with
  | nil =>
      have hShort : buffer.length < len := by simpa using h
      simp [fill, hShort]
  | cons chunk chunks ih =>
      rw [List.map_cons, List.cons_append, fill, if_pos]
      · exact ih (buffer ++ chunk) (by simpa [List.append_assoc] using h)
      · rw [List.length_append] at h
        omega

/-- Behind the content reading fails with `e`: the stream ends there, or breaks. -/
def Stops (e : Error) (reader : ChannelReader) (content : Bytes) : Prop :=
  reader.Finished content ∧ e = .streamClosed ∨
    ∃ tail, reader.HoldsBefore (.error e :: tail) content

theorem Stops.holds {e : Error} {reader : ChannelReader} {content : Bytes} (h : Stops e reader content) :
    ∃ tail, reader.HoldsBefore tail content := by
  obtain ⟨hFinished, -⟩ | ⟨tail, hHolds⟩ := h
  · exact ⟨[], hFinished.1⟩
  · exact ⟨_, hHolds⟩

/-- A stream that stops too early fails the read. -/
theorem Stops.readExact {e : Error} {len : Nat} {reader : ChannelReader} {content : Bytes}
    (h : Stops e reader content) (hShort : content.length < len) :
    (reader.readExact len).1 = some (.error e) := by
  obtain ⟨hFinished, rfl⟩ | ⟨tail, chunks, hIncoming, hContent⟩ := h
  · exact readExact_short hFinished hShort
  · apply readExact_of_fill
    rw [hIncoming]
    exact fill_broken _ chunks reader.buffer e tail (by rwa [hContent])

private theorem fill_available (len : Nat) (ended : Bool) (incoming : List (Result Bytes))
    (buffer : Bytes) {rest : List (Result Bytes)} {filled : Bytes}
    (h : fill len ended incoming buffer = (some (.ok ()), rest, filled)) :
    len ≤ filled.length ∧ ∀ channel : Channel,
      available ⟨{ channel with incoming := rest }, filled⟩ =
        available ⟨{ channel with incoming := incoming }, buffer⟩ := by
  induction incoming generalizing buffer with
  | nil =>
      simp only [fill] at h
      split_ifs at h with hShort hEnded
      · cases h
      · cases h
      · cases h
        exact ⟨by omega, fun _ => rfl⟩
  | cons received more ih =>
      simp only [fill] at h
      split_ifs at h with hShort
      · cases received with
        | error e => cases h
        | ok chunk =>
            obtain ⟨hEnough, hSame⟩ := ih (buffer ++ chunk) h
            refine ⟨hEnough, fun channel => ?_⟩
            rw [hSame channel]
            simp only [available, List.map_cons, List.sum_cons, List.length_append]
            omega
      · cases h
        exact ⟨by omega, fun _ => rfl⟩

/-- A successful read takes what it returns off the available bytes. -/
theorem readExact_available {len : Nat} {reader next : ChannelReader} {bytes : Bytes}
    (h : readExact len reader = (some (.ok bytes), next)) :
    next.available + len = reader.available := by
  simp only [readExact] at h
  split at h
  · rename_i hFilled
    obtain ⟨hEnough, hSame⟩ := fill_available len reader.channel.ended reader.channel.incoming
      reader.buffer (Prod.ext hFilled rfl)
    cases h
    have hReader := hSame reader.channel
    simp only [available, List.length_drop] at hReader ⊢
    omega
  · cases h
  · cases h

private theorem fill_ok {len : Nat} {ended : Bool} {incoming rest : List (Result Bytes)}
    {buffer filled : Bytes} (h : fill len ended incoming buffer = (some (.ok ()), rest, filled)) :
    len ≤ filled.length ∧ ∃ taken : List Bytes,
      incoming = taken.map .ok ++ rest ∧ filled = buffer ++ taken.flatten := by
  induction incoming generalizing buffer with
  | nil =>
      simp only [fill] at h
      split_ifs at h with hShort hEnded
      · cases h
      · cases h
      · cases h
        exact ⟨by omega, [], rfl, by simp⟩
  | cons received more ih =>
      simp only [fill] at h
      split_ifs at h with hShort
      · cases received with
        | error e => cases h
        | ok chunk =>
            obtain ⟨hEnough, taken, hTaken, hFilled⟩ := ih h
            exact ⟨hEnough, chunk :: taken, by simp [hTaken], by simp [hFilled]⟩
      · cases h
        exact ⟨by omega, [], rfl, by simp⟩

/-- What a successful read returns stood in front of what it leaves. -/
theorem readExact_eq_ok {len : Nat} {reader next : ChannelReader} {bytes : Bytes}
    (h : readExact len reader = (some (.ok bytes), next)) :
    bytes.length = len ∧ ∀ rest, next.HoldsBefore tail rest → reader.HoldsBefore tail (bytes ++ rest) := by
  simp only [readExact] at h
  split at h
  · rename_i hRun
    obtain ⟨hEnough, taken, hTaken, hFilled⟩ := fill_ok (Prod.ext hRun rfl)
    cases h
    refine ⟨by simp [hEnough], ?_⟩
    rintro rest ⟨chunks, hIncoming, hContent⟩
    refine ⟨taken ++ chunks, ?_, ?_⟩
    · simp only at hIncoming
      rw [hTaken, hIncoming, List.map_append, List.append_assoc]
    · simp only at hContent
      rw [List.flatten_append, ← List.append_assoc, ← hFilled, ← hContent, ← List.append_assoc,
        List.take_append_drop]
  · cases h
  · cases h

theorem readU32_eq_ok {reader next : ChannelReader} {value : UInt32}
    (h : readU32 reader = (some (.ok value), next)) :
    ∀ rest, next.HoldsBefore tail rest → reader.HoldsBefore tail (toLeBytes value ++ rest) := by
  obtain ⟨bytes, middle, hRead, hPure⟩ := Async.bind_eq_ok h
  cases hPure
  obtain ⟨hLength, hTook⟩ := @readExact_eq_ok tail _ _ _ _ hRead
  rwa [toLeBytes_fromLeBytes hLength]

private theorem fill_unread (len : Nat) (ended : Bool) (incoming : List (Result Bytes)) (buffer : Bytes) :
    (fill len ended incoming buffer).2.2 ++ (fill len ended incoming buffer).2.1.flatMap payload =
      buffer ++ incoming.flatMap payload := by
  induction incoming generalizing buffer with
  | nil =>
      simp only [fill]
      split <;> rfl
  | cons received rest ih =>
      simp only [fill]
      split
      · cases received with
        | ok chunk => rw [ih, List.flatMap_cons, List.append_assoc, payload]
        | error e => rw [List.flatMap_cons, payload, List.nil_append]
      · rfl

/-- What a read takes off the stream: the bytes that it returns, and nothing if it fails or waits. -/
def taken : Option (Result Bytes) → Bytes
  | some (.ok bytes) => bytes
  | _ => []

/-- Nothing that was unread gets lost in a read. -/
theorem readExact_unread (len : Nat) (reader : ChannelReader) :
    reader.unread = taken (readExact len reader).1 ++ (readExact len reader).2.unread := by
  have hFill := fill_unread len reader.channel.ended reader.channel.incoming reader.buffer
  rw [unread, ← hFill]
  simp only [readExact]
  split
  · simp only [taken, unread]
    rw [← List.append_assoc, List.take_append_drop]
  · rfl
  · rfl

/-- Every reader holds what it has buffered. -/
theorem holds_buffer (reader : ChannelReader) :
    reader.HoldsBefore reader.channel.incoming reader.buffer :=
  ⟨[], rfl, by simp⟩

/-- The channel takes everything that is sent. -/
def Accepts (reader : ChannelReader) : Prop := ∀ n, reader.channel.sendError n = none

/-- The reader after `messages` were sent on its channel. -/
def afterSending (reader : ChannelReader) (messages : List Bytes) : ChannelReader :=
  { reader with channel := { reader.channel with sent := reader.channel.sent ++ messages } }

theorem send_accepted {reader : ChannelReader} (h : reader.Accepts) (data : Bytes) :
    send data reader = (some (.ok ()), reader.afterSending [data]) := by
  simp only [send, onChannel, Channel.send, h reader.channel.sent.length]
  rfl

@[simp] theorem afterSending_append (reader : ChannelReader) (first second : List Bytes) :
    (reader.afterSending first).afterSending second = reader.afterSending (first ++ second) := by
  simp [afterSending]

@[simp] theorem afterSending_nil (reader : ChannelReader) : reader.afterSending [] = reader := by
  simp [afterSending]

theorem Accepts.afterSending {reader : ChannelReader} (h : reader.Accepts) (messages : List Bytes) :
    (reader.afterSending messages).Accepts := h

@[simp] theorem holdsBefore_afterSending (reader : ChannelReader) (messages : List Bytes)
    (content : Bytes) :
    (reader.afterSending messages).HoldsBefore tail content ↔ reader.HoldsBefore tail content :=
  Iff.rfl

def recv : Async Error ChannelReader (Option Bytes) := onChannel Channel.recv

/-- Put a chunk behind the bytes not yet taken. -/
def extend (chunk : Bytes) : Async Error ChannelReader Unit := fun reader =>
  (some (.ok ()), { reader with buffer := reader.buffer ++ chunk })

/-- Take all bytes that are buffered. -/
def takeBuffer : Async Error ChannelReader Bytes := fun reader =>
  (some (.ok reader.buffer), { reader with buffer := [] })

/-- Next chunk, honouring buffered bytes first; `none` at the end of the stream. -/
def nextChunk : Async Error ChannelReader (Option Bytes) := fun reader =>
  if reader.buffer = [] then recv reader
  else (some (.ok (some reader.buffer)), { reader with buffer := [] })

/-- No loop over the chunks of a reader makes more rounds than this. -/
def rounds (reader : ChannelReader) : Nat := reader.channel.incoming.length + 2

/-- Everything until the device closes the stream. -/
def readToEnd : Async Error ChannelReader Bytes := fun reader =>
  (do
    Async.whileSome recv (fun _ => extend) reader.rounds ()
    takeBuffer : Async Error ChannelReader Bytes) reader

/-- What `recv` says about the channel. -/
theorem recv_some {reader reader' : ChannelReader} {chunk : Bytes}
    (h : recv reader = (some (.ok (some chunk)), reader')) :
    reader.channel.incoming = .ok chunk :: reader'.channel.incoming ∧
      reader'.channel.ended = reader.channel.ended ∧ reader'.buffer = reader.buffer := by
  cases hIncoming : reader.channel.incoming with
  | nil =>
      simp only [recv, onChannel, Channel.recv, hIncoming] at h
      split at h <;> cases h
  | cons received rest =>
      cases received <;> simp only [recv, onChannel, Channel.recv, hIncoming] at h <;> cases h
      exact ⟨rfl, rfl, rfl⟩

theorem recv_none {reader reader' : ChannelReader} (h : recv reader = (some (.ok none), reader')) :
    reader.channel.incoming = [] ∧ reader.channel.ended = true ∧ reader' = reader := by
  cases hIncoming : reader.channel.incoming with
  | nil =>
      simp only [recv, onChannel, Channel.recv, hIncoming] at h
      split at h <;> cases h
      rename_i hEnded
      exact ⟨rfl, hEnded, rfl⟩
  | cons received rest =>
      cases received <;> simp only [recv, onChannel, Channel.recv, hIncoming] at h <;> cases h

/-- The channel ends after the given chunks. -/
def Ends (channel : Channel) (chunks : List Bytes) : Prop :=
  channel.incoming = chunks.map .ok ∧ channel.ended = true

/-- A loop over the chunks of a stream that ends is a fold over them. -/
theorem whileSome_of_ends {β : Type} {body : β → Bytes → Async Error ChannelReader β} {step : β → Bytes → Result β}
    (hBody : ∀ acc chunk, body acc chunk = Async.lift (step acc chunk)) {chunks : List Bytes} {fuel : Nat} {acc : β}
    {reader : ChannelReader} (hEnds : Ends reader.channel chunks) (hEmpty : reader.buffer = [])
    (hFuel : chunks.length < fuel) :
    ∃ reader', Async.whileSome nextChunk body fuel acc reader = (some (chunks.foldlM step acc), reader') := by
  obtain ⟨channel, buffer⟩ := reader
  obtain rfl : buffer = [] := hEmpty
  induction chunks generalizing fuel acc channel with
  | nil =>
      obtain ⟨hIncoming, hEnded⟩ := hEnds
      cases fuel with
      | zero => cases hFuel
      | succ fuel =>
          have hNext : nextChunk ⟨channel, []⟩ = (some (.ok none), ⟨channel, []⟩) := by
            simp_all [nextChunk, recv, onChannel, Channel.recv]
          exact ⟨_, by rw [Async.whileSome, Async.bind_ok hNext]; rfl⟩
  | cons chunk chunks ih =>
      obtain ⟨hIncoming, hEnded⟩ := hEnds
      cases fuel with
      | zero => cases hFuel
      | succ fuel =>
          have hNext : nextChunk ⟨channel, []⟩ =
              (some (.ok (some chunk)), ⟨{ channel with incoming := chunks.map .ok }, []⟩) := by
            simp_all [nextChunk, recv, onChannel, Channel.recv]
          rw [Async.whileSome, Async.bind_ok hNext, List.foldlM_cons]
          simp only [hBody]
          cases hStep : step acc chunk with
          | error e => exact ⟨_, Async.bind_error rfl⟩
          | ok acc' =>
              have hLater : Ends { channel with incoming := chunks.map .ok } chunks := ⟨rfl, hEnded⟩
              obtain ⟨reader', hRest⟩ : ∃ reader', Async.whileSome nextChunk body fuel acc'
                  ⟨{ channel with incoming := chunks.map .ok }, []⟩ = (some (chunks.foldlM step acc'), reader') :=
                ih (Nat.lt_of_succ_lt_succ hFuel) _ hLater
              exact ⟨reader', (Async.bind_ok rfl).trans hRest⟩

end ChannelReader

/-- Read a whole stream to the end, then close it. -/
def drain (channel : Channel) : Option (Result Bytes) :=
  ((do
    let out ← ChannelReader.readToEnd
    ChannelReader.onChannel Channel.close
    pure out : Async Error ChannelReader Bytes) ⟨channel, []⟩).1

namespace ChannelReader

/-- Reading a stream that ends after the given chunks returns all of them. -/
theorem readToEnd_of_ends {reader : ChannelReader} {chunks : List Bytes}
    (h : Ends reader.channel chunks) : ∃ reader', readToEnd reader =
      (some (.ok (reader.buffer ++ chunks.flatten)), reader') := by
  have hLoop : ∀ (fuel : Nat) (now : ChannelReader), Ends now.channel chunks → chunks.length < fuel →
      ∃ channel, Async.whileSome recv (fun _ => extend) fuel () now =
        (some (.ok ()), ⟨channel, now.buffer ++ chunks.flatten⟩) := by
    clear h
    induction chunks with
    | nil =>
        rintro (_ | fuel) ⟨channel, buffer⟩ ⟨hIncoming, hEnded⟩ hFuel
        · cases hFuel
        · exact ⟨channel, by simp [Async.whileSome, Async.bind_ok (show recv ⟨channel, buffer⟩ =
            (some (.ok none), ⟨channel, buffer⟩) by simp_all [recv, onChannel, Channel.recv])]⟩
    | cons chunk rest ih =>
        rintro (_ | fuel) ⟨channel, buffer⟩ ⟨hIncoming, hEnded⟩ hFuel
        · cases hFuel
        · have hRecv : recv ⟨channel, buffer⟩ =
              (some (.ok (some chunk)), ⟨{ channel with incoming := rest.map .ok }, buffer⟩) := by
            simp_all [recv, onChannel, Channel.recv]
          obtain ⟨after, hRest⟩ := ih fuel ⟨{ channel with incoming := rest.map .ok }, buffer ++ chunk⟩
            ⟨rfl, hEnded⟩ (Nat.lt_of_succ_lt_succ hFuel)
          refine ⟨after, ?_⟩
          rw [Async.whileSome, Async.bind_ok hRecv, List.flatten_cons, ← List.append_assoc]
          exact (Async.bind_ok rfl).trans hRest
  obtain ⟨channel, hRun⟩ := hLoop reader.rounds reader h (by simp [rounds, h.1])
  exact ⟨⟨channel, []⟩, Async.bind_ok hRun⟩

/-- A stream read to its end has given chunks only, and the result is all of them. -/
theorem readToEnd_ok {reader reader' : ChannelReader} {bytes : Bytes}
    (h : readToEnd reader = (some (.ok bytes), reader')) :
    ∃ chunks, Ends reader.channel chunks ∧ bytes = reader.buffer ++ chunks.flatten := by
  obtain ⟨_, middle, hLoop, hTake⟩ := Async.bind_eq_ok h
  -- What was received so far is in the buffer, and the rest is still to come.
  let Inv : Unit → ChannelReader → Prop := fun _ now => now.channel.ended = reader.channel.ended ∧
    ∃ seen : List Bytes, reader.channel.incoming = seen.map .ok ++ now.channel.incoming ∧
      now.buffer = reader.buffer ++ seen.flatten
  have hRound : ∀ acc now chunk middle acc' after, Inv acc now →
      recv now = (some (.ok (some chunk)), middle) →
      extend chunk middle = (some (.ok acc'), after) → Inv acc' after := by
    rintro _ now chunk middle _ after ⟨hSame, seen, hIncoming, hBuffer⟩ hRecv hExtend
    obtain ⟨hNext, hKept, hStill⟩ := recv_some hRecv
    cases hExtend
    exact ⟨hKept.trans hSame, seen ++ [chunk], by simp [hIncoming, hNext],
      by simp [hStill, hBuffer]⟩
  obtain ⟨last, ⟨hEnded, chunks, hIncoming, hBuffer⟩, hNone⟩ :=
    Async.whileSome_ok Inv hRound ⟨rfl, [], rfl, by simp⟩ hLoop
  obtain ⟨hEmpty, hOver, rfl⟩ := recv_none hNone
  cases hTake
  exact ⟨chunks, ⟨by simpa [hEmpty] using hIncoming, hEnded ▸ hOver⟩, hBuffer⟩

end ChannelReader

/-- A stream is drained exactly when it ends after nothing but chunks. -/
theorem drain_ok_iff (channel : Channel) (bytes : Bytes) :
    drain channel = some (.ok bytes) ↔
      ∃ chunks, ChannelReader.Ends channel chunks ∧ bytes = chunks.flatten := by
  constructor
  · intro h
    obtain ⟨out, middle, hRead, hClose⟩ := Async.bind_eq_ok (Prod.ext h rfl)
    obtain ⟨chunks, hEnds, hOut⟩ := ChannelReader.readToEnd_ok hRead
    obtain rfl : out = bytes := Except.ok.inj (Option.some.inj (congrArg Prod.fst hClose))
    exact ⟨chunks, hEnds, hOut⟩
  · rintro ⟨chunks, hEnds, rfl⟩
    obtain ⟨reader, hRead⟩ := ChannelReader.readToEnd_of_ends (show ChannelReader.Ends (ChannelReader.mk channel []).channel chunks from hEnds)
    rw [drain, Async.bind_ok hRead]
    rfl

end Rsadb
