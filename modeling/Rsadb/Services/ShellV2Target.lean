import Rsadb.Library.Incremental
import Rsadb.Services.ShellV2

/-! The frame parser on targets of both word sizes. Where words are short, the
sum of a header and an announced length may not fit into one. A parser that does
not come to such a sum does what it does on numbers without bounds. -/
namespace Rsadb.ShellV2

/-- The targets, by the size of their words. -/
inductive Target where
  | w32
  | w64
  deriving DecidableEq, Repr

/-- How many values a `usize` has. -/
def Target.words : Target → Nat
  | .w32 => 2 ^ 32
  | .w64 => 2 ^ 64

/-- What may go wrong in a computation that no error is returned for. -/
inductive Fault where
  | overflow
  | splitTo
  deriving DecidableEq, Repr

/-- Add two words. -/
def Target.add (target : Target) (a b : Nat) : Except Fault Nat :=
  if a + b < target.words then .ok (a + b) else .error .overflow

/-- Split a buffer, which must be long enough. -/
def splitTo (at' : Nat) (buffer : Bytes) : Except Fault (Bytes × Bytes) :=
  if at' ≤ buffer.length then .ok (buffer.take at', buffer.drop at') else .error .splitTo

namespace Parser

/-- The loop of `push` on a target, with the computations that may go wrong. -/
def splitWith (target : Target) : Nat → Bytes → Except Fault (Result (List Frame) × Bytes)
  | 0, buffer => .ok (.ok [], buffer)
  | fuel + 1, buffer =>
      if buffer.length < 5 then .ok (.ok [], buffer)
      else
        match FrameId.fromByte (buffer.headD 0) with
        | none =>
            .ok (.error (.protocol ("unknown shell v2 frame id " ++ toString (buffer.headD 0).toNat)), buffer)
        | some id => do
            let len := (word buffer 1).toNat
            let needed ← target.add 5 len
            if buffer.length < needed then pure (.ok [], buffer)
            else
              let (_, buffer) ← splitTo 5 buffer
              let (data, buffer) ← splitTo len buffer
              let rest ← splitWith target fuel buffer
              pure (rest.1.map fun frames => ⟨id, data⟩ :: frames, rest.2)

/-- Feed bytes and return every frame that is now complete. -/
def pushWith (target : Target) (parser : Parser) (bytes : Bytes) :
    Except Fault (Result (List Frame) × Parser) :=
  let buffer := parser.buffer ++ bytes
  (splitWith target buffer.length buffer).map fun result => (result.1, ⟨result.2⟩)

/-- Push one byte string after the other, also behind an error. -/
def pushAll (target : Target) : Parser → List Bytes → Except Fault Parser
  | parser, [] => .ok parser
  | parser, bytes :: more =>
      match parser.pushWith target bytes with
      | .error fault => .error fault
      | .ok (_, parser) => pushAll target parser more

end Parser

/-- A buffer begins with a header whose frame has no length on the target. -/
def Heads (target : Target) (buffer : Bytes) : Prop :=
  ∃ (id : FrameId) (len : UInt32) (rest : Bytes),
    buffer = id.toByte :: (toLeBytes len ++ rest) ∧ target.words ≤ 5 + len.toNat

/-- The stream comes to such a header, behind whole frames. -/
def Oversized (target : Target) (stream : Bytes) : Prop :=
  ∃ (frames : List Frame) (taken rest : Bytes),
    Encodes frames taken ∧ stream = taken ++ rest ∧ Heads target rest

/-- The length of the frame behind a header, where it has one. -/
def frameLength (target : Target) (header : Bytes) : Option Nat :=
  match FrameId.fromByte (header.headD 0) with
  | none => none
  | some _ =>
      if 5 + (word header 1).toNat < target.words then some (5 + (word header 1).toNat) else none

/-- Taking whole frames off a buffer, as long as they have a length. -/
def decoder (target : Target) : Incremental Unit UInt8 :=
  Incremental.ofFrames 5 (fun _ => frameLength target) (by
    intro _ header count h
    unfold frameLength at h
    split at h
    · cases h
    · split_ifs at h
      cases h
      omega) fun s _ => s

section

variable {target : Target} {buffer : Bytes} {id : FrameId}

theorem Heads.append (h : Heads target buffer) (more : Bytes) : Heads target (buffer ++ more) := by
  obtain ⟨id, len, rest, rfl, hLarge⟩ := h
  exact ⟨id, len, rest ++ more, by simp, hLarge⟩

/-- A header is read from the front of a buffer that has one. -/
theorem headD_take (h : 5 ≤ buffer.length) : (buffer.take 5).headD 0 = buffer.headD 0 := by
  obtain ⟨head, tail, rfl⟩ := List.exists_cons_of_length_pos (show 0 < buffer.length by omega)
  rfl

theorem word_take (buffer : Bytes) : word (buffer.take 5) 1 = word buffer 1 := by
  rw [word, word, List.drop_take, List.take_take]
  rfl

theorem frameLength_take (h : 5 ≤ buffer.length) (hId : FrameId.fromByte (buffer.headD 0) = some id) :
    frameLength target (buffer.take 5) =
      if 5 + (word buffer 1).toNat < target.words then some (5 + (word buffer 1).toNat) else none := by
  rw [frameLength, headD_take h, hId, word_take]

theorem heads_iff (hId : FrameId.fromByte (buffer.headD 0) = some id) (h : 5 ≤ buffer.length) :
    Heads target buffer ↔ target.words ≤ 5 + (word buffer 1).toNat := by
  constructor
  · rintro ⟨other, len, rest, rfl, hLarge⟩
    rwa [show word (other.toByte :: (toLeBytes len ++ rest)) 1 = len from
      @word_append [other.toByte] rest len 1 rfl]
  · intro hLarge
    obtain ⟨head, tail, rfl⟩ := List.exists_cons_of_length_pos (show 0 < buffer.length by omega)
    have hFour : (tail.take 4).length = 4 := by
      rw [List.length_cons] at h
      rw [List.length_take]
      omega
    refine ⟨id, word (head :: tail) 1, tail.drop 4, ?_, hLarge⟩
    have hWord : toLeBytes (word (head :: tail) 1) = tail.take 4 := toLeBytes_fromLeBytes hFour
    rw [hWord, List.take_append_drop, FrameId.toByte_of_fromByte hId]
    rfl

theorem Heads.known (h : Heads target buffer) :
    5 ≤ buffer.length ∧ ∃ id, FrameId.fromByte (buffer.headD 0) = some id := by
  obtain ⟨id, len, rest, rfl, -⟩ := h
  refine ⟨?_, id, FrameId.fromByte_toByte id⟩
  simp only [List.length_cons, List.length_append, toLeBytes_length]
  omega

/-- The decoder goes no further than to such a header. -/
theorem Heads.drain (h : Heads target buffer) : (decoder target).drain () buffer = ((), buffer) := by
  apply Incremental.drain_of_none
  obtain ⟨hLong, id, hId⟩ := h.known
  simp only [decoder, Incremental.ofFrames]
  rw [if_neg (Nat.not_lt.mpr hLong), frameLength_take hLong hId,
    if_neg (Nat.not_lt.mpr ((heads_iff hId hLong).mp h))]

/-- The loop overflows where the decoder comes to a header without a length, and
otherwise gives what it gives on numbers without bounds. -/
def Follows (target : Target) (fuel : Nat) (buffer : Bytes) : Prop :=
  (Heads target ((decoder target).drain () buffer).2 →
    Parser.splitWith target fuel buffer = .error .overflow) ∧
  (¬Heads target ((decoder target).drain () buffer).2 →
    Parser.splitWith target fuel buffer = .ok (Parser.split fuel buffer) ∧
    (Parser.split fuel buffer).2 = ((decoder target).drain () buffer).2)

/-- Where nothing is taken and no length is missing, the loop ends. -/
theorem follows_of_stays {fuel : Nat} {result : Result (List Frame)}
    (hStep : (decoder target).step () buffer = none) (hClear : ¬Heads target buffer)
    (hWith : Parser.splitWith target fuel buffer = .ok (result, buffer))
    (hSplit : Parser.split fuel buffer = (result, buffer)) : Follows target fuel buffer := by
  rw [Follows, Incremental.drain_of_none hStep, hSplit]
  exact ⟨fun hHeads => absurd hHeads hClear, fun _ => ⟨hWith, rfl⟩⟩

theorem follows_short (hShort : buffer.length < 5) (fuel : Nat) : Follows target fuel buffer := by
  apply follows_of_stays (if_pos hShort)
  · exact fun hHeads => absurd hHeads.known.1 (Nat.not_le.mpr hShort)
  · cases fuel with
    | zero => rfl
    | succ fuel => rw [Parser.splitWith, if_pos hShort]
  · cases fuel with
    | zero => rfl
    | succ fuel => rw [Parser.split, if_pos hShort]

theorem follows_unknown (hLong : 5 ≤ buffer.length) (hId : FrameId.fromByte (buffer.headD 0) = none)
    (fuel : Nat) : Follows target (fuel + 1) buffer := by
  have hEnough : ¬buffer.length < 5 := Nat.not_lt.mpr hLong
  apply follows_of_stays
  · simp only [decoder, Incremental.ofFrames, if_neg hEnough, frameLength, headD_take hLong, hId]
  · intro hHeads
    obtain ⟨-, id, hKnown⟩ := hHeads.known
    rw [hId] at hKnown
    cases hKnown
  · rw [Parser.splitWith, if_neg hEnough, hId]
  · rw [Parser.split, if_neg hEnough, hId]

/-- A header without a length makes the sum overflow. -/
theorem follows_large (hId : FrameId.fromByte (buffer.headD 0) = some id) (hLong : 5 ≤ buffer.length)
    (hLarge : target.words ≤ 5 + (word buffer 1).toNat) (fuel : Nat) :
    Follows target (fuel + 1) buffer := by
  have hHeads : Heads target buffer := (heads_iff hId hLong).mpr hLarge
  rw [Follows, hHeads.drain]
  refine ⟨fun _ => ?_, fun hClear => absurd hHeads hClear⟩
  rw [Parser.splitWith, if_neg (Nat.not_lt.mpr hLong), hId]
  simp only [Target.add, if_neg (Nat.not_lt.mpr hLarge)]
  rfl

section

variable (hId : FrameId.fromByte (buffer.headD 0) = some id) (hLong : 5 ≤ buffer.length)
  (hFits : 5 + (word buffer 1).toNat < target.words)

include hId hLong hFits

theorem follows_partial (hPartial : buffer.length < 5 + (word buffer 1).toNat) (fuel : Nat) :
    Follows target (fuel + 1) buffer := by
  have hEnough : ¬buffer.length < 5 := Nat.not_lt.mpr hLong
  apply follows_of_stays
  · simp only [decoder, Incremental.ofFrames, if_neg hEnough, frameLength_take hLong hId, if_pos hFits,
      if_pos hPartial]
  · exact fun hHeads => Nat.not_le.mpr hFits ((heads_iff hId hLong).mp hHeads)
  · rw [Parser.splitWith, if_neg hEnough, hId]
    simp only [Target.add, if_pos hFits, bind, Except.bind, if_pos hPartial]
    rfl
  · rw [Parser.split, if_neg hEnough, hId]
    simp only [if_pos hPartial]

/-- A whole frame is taken off, and the loop goes on behind it. -/
theorem follows_frame (hWhole : 5 + (word buffer 1).toNat ≤ buffer.length) {fuel : Nat}
    (hRest : Follows target fuel (buffer.drop (5 + (word buffer 1).toNat))) :
    Follows target (fuel + 1) buffer := by
  have hEnough : ¬buffer.length < 5 := Nat.not_lt.mpr hLong
  have hAll : ¬buffer.length < 5 + (word buffer 1).toNat := Nat.not_lt.mpr hWhole
  have hStep : (decoder target).step () buffer =
      some ((), buffer.drop (5 + (word buffer 1).toNat)) := by
    simp only [decoder, Incremental.ofFrames, if_neg hEnough, frameLength_take hLong hId, if_pos hFits,
      if_neg hAll]
  have hData : (word buffer 1).toNat ≤ (buffer.drop 5).length := by
    rw [List.length_drop]
    omega
  obtain ⟨hFault, hGives⟩ := hRest
  rw [Follows, Incremental.drain_of_some hStep, Parser.splitWith, Parser.split, if_neg hEnough, hId,
    if_neg hEnough]
  simp only [Target.add, if_pos hFits, splitTo, if_pos hLong, if_pos hData, if_neg hAll,
    List.drop_drop, bind, Except.bind]
  constructor
  · intro hHeads
    rw [hFault hHeads]
  · intro hClear
    obtain ⟨hWith, hLeft⟩ := hGives hClear
    rw [hWith]
    exact ⟨rfl, hLeft⟩

end

/-- The induction is on the rounds, each of which takes one frame off. -/
theorem splitWith_follows {fuel : Nat} (hFuel : buffer.length ≤ 5 * fuel + 4) :
    Follows target fuel buffer := by
  induction fuel generalizing buffer with
  | zero => exact follows_short (Nat.lt_succ_of_le hFuel) 0
  | succ fuel ih =>
      rcases Nat.lt_or_ge buffer.length 5 with hShort | hLong
      · exact follows_short hShort _
      cases hId : FrameId.fromByte (buffer.headD 0) with
      | none => exact follows_unknown hLong hId fuel
      | some id =>
          rcases Nat.lt_or_ge (5 + (word buffer 1).toNat) target.words with hFits | hLarge
          · rcases Nat.lt_or_ge buffer.length (5 + (word buffer 1).toNat) with hPartial | hWhole
            · exact follows_partial hId hLong hFits hPartial fuel
            · apply follows_frame hId hLong hFits hWhole
              apply ih
              rw [List.length_drop]
              omega
          · exact follows_large hId hLong hLarge fuel

/-- Nothing that comes later gets past such a header. -/
theorem Heads.feed (h : Heads target buffer) (chunks : List Bytes) :
    Heads target (chunks.foldl (decoder target).feed ((), buffer)).2 := by
  induction chunks generalizing buffer with
  | nil => exact h
  | cons chunk chunks ih =>
      have hFeed : (decoder target).feed ((), buffer) chunk = ((), buffer ++ chunk) := (h.append chunk).drain
      rw [List.foldl_cons, hFeed]
      exact ih (h.append chunk)

/-- Pushing one string after the other comes to where the decoder comes to. -/
theorem pushAll_feed (chunks : List Bytes) {parser : Parser} (hStart : ¬Heads target parser.buffer) :
    (Heads target (chunks.foldl (decoder target).feed ((), parser.buffer)).2 →
      parser.pushAll target chunks = .error .overflow) ∧
    (¬Heads target (chunks.foldl (decoder target).feed ((), parser.buffer)).2 →
      ∃ after, parser.pushAll target chunks = .ok after) := by
  induction chunks generalizing parser with
  | nil => exact ⟨fun hHeads => absurd hHeads hStart, fun _ => ⟨parser, rfl⟩⟩
  | cons chunk chunks ih =>
      obtain ⟨hFault, hGives⟩ := @splitWith_follows target (parser.buffer ++ chunk) (parser.buffer ++ chunk).length
        (by omega)
      rw [List.foldl_cons, Parser.pushAll, Parser.pushWith]
      have hFeed : (decoder target).feed ((), parser.buffer) chunk =
          ((), ((decoder target).drain () (parser.buffer ++ chunk)).2) := rfl
      rw [hFeed]
      by_cases hHeads : Heads target ((decoder target).drain () (parser.buffer ++ chunk)).2
      · rw [hFault hHeads]
        exact ⟨fun _ => rfl, fun hClear => absurd (hHeads.feed chunks) hClear⟩
      · obtain ⟨hWith, hLeft⟩ := hGives hHeads
        rw [hWith, ← hLeft]
        exact @ih ⟨(Parser.split (parser.buffer ++ chunk).length (parser.buffer ++ chunk)).2⟩ (hLeft ▸ hHeads)

/-- What the decoder takes off a stream are whole frames. -/
theorem drain_frames (stream : Bytes) : ∃ (frames : List Frame) (taken : Bytes), Encodes frames taken ∧
    stream = taken ++ ((decoder target).drain () stream).2 := by
  induction hLength : stream.length using Nat.strongRecOn generalizing stream with
  | _ length ih =>
      cases hStep : (decoder target).step () stream with
      | none =>
          rw [Incremental.drain_of_none hStep]
          exact ⟨[], [], .nil, rfl⟩
      | some next =>
          obtain ⟨⟨⟩, rest⟩ := next
          have hShorter := (decoder target).shrinks hStep
          rw [Incremental.drain_of_some hStep]
          obtain ⟨frames, taken, hTaken, hRest⟩ := ih rest.length (hLength ▸ hShorter) rest rfl
          simp only [decoder, Incremental.ofFrames] at hStep
          split_ifs at hStep with hShort
          split at hStep
          · cases hStep
          · rename_i count hCount
            split_ifs at hStep with hPartial
            cases hStep
            have hLong : 5 ≤ stream.length := Nat.le_of_not_lt hShort
            rw [frameLength, headD_take hLong, word_take] at hCount
            split at hCount
            · cases hCount
            · rename_i id hId
              split_ifs at hCount
              cases hCount
              refine ⟨⟨id, (stream.drop 5).take (word stream 1).toNat⟩ :: frames, _,
                .cons (encode_taken hId (Nat.le_of_not_lt hPartial)) hTaken, ?_⟩
              rw [List.append_assoc, ← hRest, List.take_append_drop]

/-- A frame that has a length is taken. -/
theorem drain_frame {data : Bytes} (hFits : data.length < 2 ^ 32) (hSmall : 5 + data.length < target.words)
    (more : Bytes) :
    (decoder target).drain () (id.toByte :: toLeBytes (UInt32.ofNat data.length) ++ data ++ more) =
      (decoder target).drain () more := by
  have hLength : (id.toByte :: toLeBytes (UInt32.ofNat data.length) ++ data).length = 5 + data.length := by
    simp only [List.cons_append, List.length_cons, List.length_append, toLeBytes_length]
    omega
  have hLong : 5 ≤ (id.toByte :: toLeBytes (UInt32.ofNat data.length) ++ data).length := by omega
  have hFront := @frameLength_take target _ id hLong (FrameId.fromByte_toByte id)
  rw [List.cons_append, word_header hFits, if_pos hSmall, ← hLength] at hFront
  exact Incremental.ofFrames_drain more hLong hFront

theorem oversized_iff {stream : Bytes} :
    Oversized target stream ↔ Heads target ((decoder target).drain () stream).2 := by
  constructor
  · rintro ⟨frames, taken, rest, hTaken, rfl, hHeads⟩
    induction hTaken with
    | nil => rwa [List.nil_append, hHeads.drain]
    | @cons frame frames bytes behind hFrame hBehind ih =>
        obtain ⟨hFits, rfl⟩ := encode_ok hFrame
        rw [List.append_assoc]
        by_cases hLarge : target.words ≤ 5 + frame.data.length
        · have hFront : Heads target (frame.id.toByte ::
              toLeBytes (UInt32.ofNat frame.data.length) ++ frame.data ++ (behind ++ rest)) :=
            ⟨frame.id, UInt32.ofNat frame.data.length, frame.data ++ (behind ++ rest), by simp, by
              rwa [UInt32.toNat_ofNat_of_lt' hFits]⟩
          rw [hFront.drain]
          exact hFront
        · rw [drain_frame hFits (Nat.lt_of_not_le hLarge)]
          exact ih
  · intro hHeads
    obtain ⟨frames, taken, hTaken, hStream⟩ := @drain_frames target stream
    exact ⟨frames, taken, _, hTaken, hStream, hHeads⟩

end

/-- No computation goes wrong, however the stream is cut, unless words are of 32
bits and a header announces a frame that with its header is longer than any word says. -/
theorem pushAll_ok_iff (target : Target) (chunks : List Bytes) :
    (∃ parser, Parser.default.pushAll target chunks = .ok parser) ↔
      target = .w64 ∨ ¬Oversized .w32 chunks.flatten := by
  have hStart : ¬Heads target Parser.default.buffer := fun hHeads =>
    absurd hHeads.known.1 (by decide)
  obtain ⟨hFault, hGives⟩ := pushAll_feed chunks hStart
  rw [show Parser.default.buffer = [] from rfl, Incremental.feed_flatten, ← oversized_iff] at hFault hGives
  have hWide : ∀ stream, ¬Oversized .w64 stream := by
    rintro stream ⟨frames, taken, rest, -, -, id, len, behind, -, hLarge⟩
    have hLen := len.toNat_lt
    simp only [Target.words] at hLarge
    omega
  have hClear : (target = .w64 ∨ ¬Oversized .w32 chunks.flatten) ↔
      ¬Oversized target chunks.flatten := by
    cases target with
    | w32 => simp
    | w64 => simp [hWide]
  rw [hClear]
  constructor
  · rintro ⟨parser, hOk⟩ hOversized
    rw [hFault hOversized] at hOk
    cases hOk
  · exact hGives

/-- Five bytes bring a 32-bit host to the overflow. -/
theorem pushAll_overflows : ¬∀ (target : Target) (chunks : List Bytes),
    ∃ parser, Parser.default.pushAll target chunks = .ok parser := by
  intro hClaim
  obtain ⟨parser, hOk⟩ := hClaim .w32 [[1, 255, 255, 255, 255]]
  have hFault : Parser.default.pushAll .w32 [[1, 255, 255, 255, 255]] = .error .overflow := by decide
  rw [hFault] at hOk
  cases hOk

/-- A push in which nothing goes wrong is the push on numbers without bounds. -/
theorem pushWith_ok {target : Target} {parser after : Parser} {bytes : Bytes} {result : Result (List Frame)}
    (h : parser.pushWith target bytes = .ok (result, after)) : parser.push bytes = (result, after) := by
  obtain ⟨hFault, hGives⟩ := @splitWith_follows target (parser.buffer ++ bytes) (parser.buffer ++ bytes).length
    (by omega)
  by_cases hHeads : Heads target ((decoder target).drain () (parser.buffer ++ bytes)).2
  · rw [Parser.pushWith, hFault hHeads] at h
    cases h
  · rw [Parser.pushWith, (hGives hHeads).1] at h
    cases h
    rfl

/-- Where the sum wraps around instead, the check lets the short buffer pass and
the second split is past its end. -/
theorem wrapped_past_end {buffer : Bytes} {len : Nat} (hLong : 5 ≤ buffer.length)
    (hMemory : buffer.length < Target.w32.words) (hWord : len < Target.w32.words)
    (hLarge : Target.w32.words ≤ 5 + len) :
    ¬buffer.length < (5 + len) % Target.w32.words ∧ splitTo len (buffer.drop 5) = .error .splitTo := by
  simp only [Target.words] at *
  constructor
  · omega
  · rw [splitTo, if_neg]
    rw [List.length_drop]
    omega

end Rsadb.ShellV2
