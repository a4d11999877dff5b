import Mathlib.Data.List.Induction
import Rsadb.Library.Utf8
import Rsadb.Wire.Codec

/-! Framing for the `shell,v2:` protocol. Every frame is an id byte, a
little-endian length and as many bytes. -/
namespace Rsadb.ShellV2

/-- Frame identifiers. -/
inductive FrameId where
  | stdin
  | stdout
  | stderr
  | exit
  | closeStdin
  | windowSize
  deriving DecidableEq, Repr

namespace FrameId

/-- The id byte. -/
def toByte : FrameId → UInt8
  | .stdin => 0
  | .stdout => 1
  | .stderr => 2
  | .exit => 3
  | .closeStdin => 4
  | .windowSize => 5

/-- Decode an id byte. -/
def fromByte (b : UInt8) : Option FrameId :=
  if b = 0 then some .stdin
  else if b = 1 then some .stdout
  else if b = 2 then some .stderr
  else if b = 3 then some .exit
  else if b = 4 then some .closeStdin
  else if b = 5 then some .windowSize
  else none

theorem toByte_of_fromByte {b : UInt8} {id : FrameId} (h : fromByte b = some id) : id.toByte = b := by
  unfold fromByte at h
  split_ifs at h with h0 h1 h2 h3 h4 h5 <;> cases h
  · exact h0.symm
  · exact h1.symm
  · exact h2.symm
  · exact h3.symm
  · exact h4.symm
  · exact h5.symm

end FrameId

/-- A decoded frame. -/
structure Frame where
  id : FrameId
  data : Bytes
  deriving DecidableEq, Repr

/-- Encode one frame. -/
def encode (id : FrameId) (data : Bytes) : Result Bytes :=
  if data.length < 2 ^ 32 then
    .ok ([id.toByte] ++ toLeBytes (UInt32.ofNat data.length) ++ data)
  else .error (.invalidArgument "shell v2 frame longer than u32::MAX")

/-- Incremental frame parser. -/
structure Parser where
  buffer : Bytes
  deriving DecidableEq, Repr

namespace Parser

def default : Parser := ⟨[]⟩

/-- The loop of `push`: take frames off the buffer as long as one is complete.
Every frame is at least five bytes long, so the length of the buffer is fuel enough. -/
def split : Nat → Bytes → Result (List Frame) × Bytes
  | 0, buffer => (.ok [], buffer)
  | fuel + 1, buffer =>
      if buffer.length < 5 then (.ok [], buffer)
      else
        match FrameId.fromByte (buffer.headD 0) with
        | none =>
            (.error (.protocol ("unknown shell v2 frame id " ++ toString (buffer.headD 0).toNat)), buffer)
        | some id =>
            let len := (word buffer 1).toNat
            if buffer.length < 5 + len then (.ok [], buffer)
            else
              let rest := split fuel (buffer.drop (5 + len))
              (rest.1.map fun frames => ⟨id, (buffer.drop 5).take len⟩ :: frames, rest.2)

/-- Feed bytes and return every frame that is now complete. -/
def push (parser : Parser) (bytes : Bytes) : Result (List Frame) × Parser :=
  let buffer := parser.buffer ++ bytes
  let result := split buffer.length buffer
  (result.1, ⟨result.2⟩)

/-- Bytes received but not yet forming a whole frame. -/
def pending (parser : Parser) : Nat := parser.buffer.length

end Parser

/-- The collected result of a `shell,v2:` command. -/
structure ShellOutput where
  stdout : Bytes
  stderr : Bytes
  exitCode : Option UInt8
  deriving DecidableEq, Repr

namespace ShellOutput

def default : ShellOutput := ⟨[], [], none⟩

/-- Fold a frame into the output. -/
def apply (out : ShellOutput) (frame : Frame) : ShellOutput :=
  match frame.id with
  | .stdout => { out with stdout := out.stdout ++ frame.data }
  | .stderr => { out with stderr := out.stderr ++ frame.data }
  | .exit => { out with exitCode := frame.data.head? }
  | .stdin | .closeStdin | .windowSize => out

/-- `stdout` as text (lossily). -/
def stdoutText (out : ShellOutput) : Bytes := Utf8.lossy out.stdout

/-- Whether the command reported success (exit 0, or no exit code at all). -/
def success (out : ShellOutput) : Bool := out.exitCode.all (· = 0)

end ShellOutput

/-- The bytes are the encodings of the frames, one behind the other. -/
inductive Encodes : List Frame → Bytes → Prop
  | nil : Encodes [] []
  | cons {frame : Frame} {frames : List Frame} {bytes rest : Bytes} :
      encode frame.id frame.data = .ok bytes → Encodes frames rest →
      Encodes (frame :: frames) (bytes ++ rest)

theorem Encodes.append {first second : List Frame} {before after : Bytes} (hFirst : Encodes first before)
    (hSecond : Encodes second after) : Encodes (first ++ second) (before ++ after) := by
  induction hFirst with
  | nil => exact hSecond
  | cons hFrame _ ih =>
      rw [List.cons_append, List.append_assoc]
      exact .cons hFrame ih

/-- A buffer that holds a frame starts with the encoding of that frame. -/
theorem encode_taken {buffer : Bytes} {id : FrameId}
    (hId : FrameId.fromByte (buffer.headD 0) = some id)
    (hLong : 5 + (word buffer 1).toNat ≤ buffer.length) :
    encode id ((buffer.drop 5).take (word buffer 1).toNat) =
      .ok (buffer.take (5 + (word buffer 1).toNat)) := by
  obtain ⟨head, tail, rfl⟩ : ∃ head tail, buffer = head :: tail :=
    List.exists_cons_of_length_pos (by omega)
  generalize hLen : (word (head :: tail) 1).toNat = len at hLong ⊢
  have hTail : 4 + len ≤ tail.length := by
    rw [List.length_cons] at hLong
    omega
  have hData : ((tail.drop 4).take len).length = len := by
    rw [List.length_take, List.length_drop]
    omega
  have hSize : len < 2 ^ 32 := hLen ▸ (word (head :: tail) 1).toNat_lt
  have hWord : toLeBytes (UInt32.ofNat len) = tail.take 4 := by
    have hFour : (tail.take 4).length = 4 := by
      rw [List.length_take]
      omega
    rw [← hLen, UInt32.ofNat_toNat]
    exact toLeBytes_fromLeBytes hFour
  have hTake : tail.take (4 + len) = tail.take 4 ++ (tail.drop 4).take len := List.take_add
  rw [encode, List.drop_succ_cons, hData, if_pos hSize, hWord, FrameId.toByte_of_fromByte hId,
    show 5 + len = (4 + len) + 1 by omega, List.take_succ_cons, hTake]
  rfl

/-- Splitting loses nothing: the frames taken and the rest are the buffer. -/
theorem Parser.split_ok {fuel : Nat} {buffer left : Bytes} {frames : List Frame}
    (h : split fuel buffer = (.ok frames, left)) :
    ∃ taken, Encodes frames taken ∧ taken ++ left = buffer := by
  induction fuel generalizing buffer frames with
  | zero =>
      cases h
      exact ⟨[], .nil, rfl⟩
  | succ fuel ih =>
      unfold split at h
      split_ifs at h with hShort
      · cases h
        exact ⟨[], .nil, rfl⟩
      · split at h
        · cases h
        · rename_i id hId
          dsimp only at h
          split_ifs at h with hPartial
          · cases h
            exact ⟨[], .nil, rfl⟩
          · rcases hRest : split fuel (buffer.drop (5 + (word buffer 1).toNat)) with ⟨result, after⟩
            rw [hRest] at h
            cases result with
            | error e => cases h
            | ok more =>
                cases h
                obtain ⟨taken, hTaken, hBuffer⟩ := ih hRest
                refine ⟨_, .cons (encode_taken hId (Nat.le_of_not_lt hPartial)) hTaken, ?_⟩
                rw [List.append_assoc, hBuffer, List.take_append_drop]

/-- Pushing loses nothing either. -/
theorem Parser.push_ok {parser parser' : Parser} {bytes : Bytes} {frames : List Frame}
    (h : parser.push bytes = (.ok frames, parser')) :
    ∃ taken, Encodes frames taken ∧ taken ++ parser'.buffer = parser.buffer ++ bytes := by
  rcases hSplit : split (parser.buffer ++ bytes).length (parser.buffer ++ bytes) with ⟨result, left⟩
  rw [push, hSplit] at h
  cases h
  exact split_ok hSplit

/-- A parser that has given its frames holds no complete frame, nor a frame of
an unknown kind: the fuel of the loop never cuts it short. -/
theorem Parser.split_stuck {fuel : Nat} {buffer left : Bytes} {frames : List Frame}
    (hFuel : buffer.length ≤ 5 * fuel + 4) (h : split fuel buffer = (.ok frames, left)) :
    left.length < 5 ∨ left.length < 5 + (word left 1).toNat := by
  induction fuel generalizing buffer frames with
  | zero =>
      cases h
      exact Or.inl (by omega)
  | succ fuel ih =>
      unfold split at h
      split_ifs at h with hShort
      · cases h
        exact Or.inl hShort
      · split at h
        · cases h
        · dsimp only at h
          split_ifs at h with hPartial
          · cases h
            exact Or.inr hPartial
          · rcases hRest : split fuel (buffer.drop (5 + (word buffer 1).toNat)) with ⟨result, after⟩
            rw [hRest] at h
            cases result with
            | error e => cases h
            | ok more =>
                cases h
                refine ih ?_ hRest
                rw [List.length_drop]
                omega

theorem FrameId.fromByte_toByte (id : FrameId) : fromByte id.toByte = some id := by
  cases id <;> rfl

/-- An encoded frame is its header and its data. -/
theorem encode_ok {id : FrameId} {data bytes : Bytes} (h : encode id data = .ok bytes) :
    data.length < 2 ^ 32 ∧ bytes = id.toByte :: toLeBytes (UInt32.ofNat data.length) ++ data := by
  unfold encode at h
  split_ifs at h with hFits
  exact ⟨hFits, (Except.ok.inj h).symm⟩

/-- The length of a frame is read from its header. -/
theorem word_header {count : Nat} (hFits : count < 2 ^ 32) (id : UInt8) (rest : Bytes) :
    (word (id :: (toLeBytes (UInt32.ofNat count) ++ rest)) 1).toNat = count := by
  have hWord : word (id :: (toLeBytes (UInt32.ofNat count) ++ rest)) 1 = UInt32.ofNat count :=
    @word_append [id] rest (UInt32.ofNat count) 1 rfl
  rw [hWord, UInt32.toNat_ofNat_of_lt' hFits]

/-- The longer of two fronts of one text starts with the shorter. -/
private theorem split_front {a b c d : Bytes} (h : a ++ b = c ++ d) (hLonger : c.length ≤ a.length) :
    ∃ rest, a = c ++ rest ∧ rest ++ b = d := by
  obtain ⟨rest, rfl⟩ := List.prefix_of_prefix_length_le (h ▸ List.prefix_append c d) (List.prefix_append a b) hLonger
  rw [List.append_assoc] at h
  exact ⟨rest, rfl, List.append_cancel_left h⟩

/-- What is buffered of encoded frames is split into the first of them, and what
is left belongs to the others. -/
theorem Parser.split_encodes {fuel : Nat} {buffer more : Bytes} {frames : List Frame}
    (h : Encodes frames (buffer ++ more)) :
    ∃ first second left, frames = first ++ second ∧ split fuel buffer = (.ok first, left) ∧
      Encodes second (left ++ more) := by
  induction fuel generalizing buffer frames with
  | zero => exact ⟨[], frames, buffer, rfl, rfl, h⟩
  | succ fuel ih =>
      unfold split
      split_ifs with hShort
      · exact ⟨[], frames, buffer, rfl, rfl, h⟩
      · generalize hBytes : buffer ++ more = bytes at h
        cases h with
        | nil => simp [List.append_eq_nil_iff.mp hBytes] at hShort
        | @cons frame frames encoded rest hFrame hRest =>
            obtain ⟨hFits, rfl⟩ := encode_ok hFrame
            rw [List.append_assoc] at hBytes
            -- The header is in the buffer, and with it the length of the frame.
            obtain ⟨tail, rfl, hTail⟩ := split_front hBytes (by simpa using hShort)
            simp only [List.cons_append, List.headD_cons, FrameId.fromByte_toByte, word_header hFits]
            split_ifs with hPartial
            · refine ⟨[], frame :: frames, _, rfl, rfl, ?_⟩
              rw [List.cons_append, List.append_assoc, hTail, ← List.append_assoc, ← List.cons_append]
              exact .cons hFrame hRest
            · obtain ⟨behind, rfl, rfl⟩ := split_front hTail (by
                simp only [List.length_cons, List.length_append, toLeBytes_length] at hPartial
                omega)
              obtain ⟨first, second, left, rfl, hSplit, hLeft⟩ := ih hRest
              have hHeader : (frame.id.toByte :: (toLeBytes (UInt32.ofNat frame.data.length) ++
                  (frame.data ++ behind))).drop 5 = frame.data ++ behind := by
                rw [List.drop_succ_cons]
                exact List.drop_left' (toLeBytes_length _)
              refine ⟨frame :: first, second, left, rfl, ?_, hLeft⟩
              rw [← List.drop_drop, hHeader, List.take_left, List.drop_left, hSplit]
              rfl

/-- A parser that holds no complete frame holds nothing of frames that are all there. -/
theorem Encodes.nothing_left {frames : List Frame} {left : Bytes} (h : Encodes frames left)
    (hStuck : left.length < 5 ∨ left.length < 5 + (word left 1).toNat) : frames = [] ∧ left = [] := by
  cases h with
  | nil => exact ⟨rfl, rfl⟩
  | @cons frame frames encoded rest hFrame hRest =>
      exfalso
      obtain ⟨hFits, rfl⟩ := encode_ok hFrame
      rw [List.cons_append, List.cons_append, List.append_assoc, word_header hFits] at hStuck
      simp only [List.length_cons, List.length_append, toLeBytes_length] at hStuck
      omega

/-- Splitting fails on an unknown frame only. -/
theorem Parser.split_error {fuel : Nat} {buffer left : Bytes} {e : Error} (h : split fuel buffer = (.error e, left)) :
    ∃ message, e = .protocol message := by
  induction fuel generalizing buffer left with
  | zero => cases h
  | succ fuel ih =>
      unfold split at h
      split_ifs at h with hShort
      · cases h
      split at h
      · cases h
        exact ⟨_, rfl⟩
      · dsimp only at h
        split_ifs at h with hPartial
        · cases h
        rcases hRest : split fuel (buffer.drop (5 + (word buffer 1).toNat)) with ⟨result, after⟩
        rw [hRest] at h
        cases result with
        | error other =>
            cases h
            exact ih hRest
        | ok more => cases h

/-- Push chunk after chunk and keep all frames that come out. -/
def Parser.feed (parser : Parser) : List Bytes → Result (List Frame) × Parser
  | [] => (.ok [], parser)
  | chunk :: chunks =>
      match parser.push chunk with
      | (.ok frames, parser) =>
          let rest := parser.feed chunks
          (rest.1.map (frames ++ ·), rest.2)
      | (.error e, parser) => (.error e, parser)

/-- However encoded frames are cut, feeding them gives these frames and leaves nothing. -/
theorem Parser.feed_encodes {chunks : List Bytes} {parser : Parser} {frames : List Frame}
    (hStuck : parser.buffer.length < 5 ∨ parser.buffer.length < 5 + (word parser.buffer 1).toNat)
    (h : Encodes frames (parser.buffer ++ chunks.flatten)) : parser.feed chunks = (.ok frames, default) := by
  induction chunks generalizing parser frames with
  | nil =>
      rw [List.flatten_nil, List.append_nil] at h
      obtain ⟨rfl, hNone⟩ := h.nothing_left hStuck
      obtain ⟨buffer⟩ := parser
      obtain rfl : buffer = [] := hNone
      rfl
  | cons chunk chunks ih =>
      rw [List.flatten_cons, ← List.append_assoc] at h
      obtain ⟨first, second, left, rfl, hSplit, hLeft⟩ := split_encodes h
      have hPush : parser.push chunk = (.ok first, ⟨left⟩) := by rw [push, hSplit]
      have hRest := @ih ⟨left⟩ second (split_stuck (by omega) hSplit) hLeft
      rw [feed, hPush]
      simp only [hRest]
      rfl

/-- Bytes encode one list of frames at most. -/
theorem Encodes.unique {frames others : List Frame} {bytes : Bytes} (h : Encodes frames bytes)
    (hOther : Encodes others bytes) : frames = others := by
  have hFeed : ∀ {frames : List Frame}, Encodes frames bytes → Parser.default.feed [bytes] = (.ok frames, .default) :=
    fun hFrames => Parser.feed_encodes (Or.inl (by decide)) (by simpa [Parser.default] using hFrames)
  have hSame := (hFeed h).symm.trans (hFeed hOther)
  exact Except.ok.inj (Prod.mk.inj hSame).1

/-- Feeding fails on an unknown frame only. -/
theorem Parser.feed_error {chunks : List Bytes} {parser after : Parser} {e : Error}
    (h : parser.feed chunks = (.error e, after)) : ∃ message, e = .protocol message := by
  induction chunks generalizing parser with
  | nil => cases h
  | cons chunk chunks ih =>
      rw [feed] at h
      rcases hPush : parser.push chunk with ⟨other | frames, next⟩ <;> rw [hPush] at h
      · cases h
        rcases hSplit : split (parser.buffer ++ chunk).length (parser.buffer ++ chunk) with ⟨result, left⟩
        rw [push, hSplit] at hPush
        cases hPush
        exact split_error hSplit
      · simp only at h
        rcases hRest : next.feed chunks with ⟨other | frames', last⟩ <;> rw [hRest] at h <;> cases h
        exact ih hRest

/-- The output that some frames make. -/
def collected (frames : List Frame) : ShellOutput where
  stdout := (frames.filter fun frame => frame.id = .stdout).flatMap Frame.data
  stderr := (frames.filter fun frame => frame.id = .stderr).flatMap Frame.data
  exitCode := (frames.filter fun frame => frame.id = .exit).getLast?.bind fun frame => frame.data.head?

/-- Folding frames into an output collects them. -/
theorem foldl_apply (frames : List Frame) : frames.foldl ShellOutput.apply ShellOutput.default = collected frames := by
  induction frames using List.reverseRecOn with
  | nil => rfl
  | append_singleton frames frame ih =>
      rw [List.foldl_append, ih, List.foldl_cons, List.foldl_nil]
      obtain ⟨id, data⟩ := frame
      cases id <;> simp [ShellOutput.apply, collected]

end Rsadb.ShellV2
