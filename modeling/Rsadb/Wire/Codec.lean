import Rsadb.Wire.Message
import Rsadb.Library.LittleEndian

/-! The 24-byte header codec and its inverse laws. -/
namespace Rsadb

/-- Size of the fixed header in bytes. -/
def HEADER_LEN : Nat := 24

/-- `u32::to_le_bytes`. -/
def toLeBytes (word : UInt32) : Bytes := LittleEndian.encode 4 word.toNat

/-- `u32::from_le_bytes` on the bytes given. -/
def fromLeBytes (bytes : Bytes) : UInt32 := UInt32.ofNat (LittleEndian.value bytes)

@[simp] theorem toLeBytes_length (word : UInt32) : (toLeBytes word).length = 4 :=
  LittleEndian.encode_length 4 word.toNat

@[simp] theorem fromLeBytes_toLeBytes (word : UInt32) : fromLeBytes (toLeBytes word) = word := by
  have hFits : word.toNat < 256 ^ 4 := word.toNat_lt
  rw [fromLeBytes, toLeBytes, LittleEndian.value_encode hFits, UInt32.ofNat_toNat]

/-- Four bytes are the bytes of the word that they make. -/
theorem toLeBytes_fromLeBytes {bytes : Bytes} (h : bytes.length = 4) :
    toLeBytes (fromLeBytes bytes) = bytes := by
  have hFits : LittleEndian.value bytes < UInt32.size := by
    simpa [h] using LittleEndian.value_lt bytes
  rw [toLeBytes, fromLeBytes, UInt32.toNat_ofNat', Nat.mod_eq_of_lt hFits, ← h,
    LittleEndian.encode_value]

/-- Serialise a header into its 24-byte wire form. -/
def encodeHeader (header : Header) : Bytes :=
  let command := header.command.code
  toLeBytes command ++ toLeBytes header.arg0 ++ toLeBytes header.arg1 ++
    toLeBytes header.dataLength ++ toLeBytes header.dataCheck ++
    toLeBytes (command ^^^ 0xFFFFFFFF)

/-- The little-endian word at byte offset `at`. -/
def word (bytes : Bytes) (offset : Nat) : UInt32 :=
  fromLeBytes ((bytes.drop offset).take 4)

/-- Parse a 24-byte header, checking the magic and the payload bound. -/
def decodeHeader (bytes : Bytes) (maxPayload : UInt32) : Result Header :=
  let commandCode := word bytes 0
  let magic := word bytes 20
  if magic ≠ commandCode ^^^ 0xFFFFFFFF then
    .error (.protocol s!"bad magic {hexWord magic} for command {hexWord commandCode}")
  else
    match Command.fromCode commandCode with
    | none => .error (.protocol s!"unknown command {hexWord commandCode}")
    | some command =>
        let dataLength := word bytes 12
        let bound := min maxPayload MAX_PAYLOAD
        if dataLength > bound then
          .error (.protocol s!"payload length {dataLength} exceeds limit {bound}")
        else
          .ok {
            command := command
            arg0 := word bytes 4
            arg1 := word bytes 8
            dataLength := dataLength
            dataCheck := word bytes 16 }

@[simp] theorem encodeHeader_length (header : Header) :
    (encodeHeader header).length = HEADER_LEN := by
  simp [encodeHeader, HEADER_LEN]

/-- A word written behind `before` is read back at the offset `before.length`. -/
theorem word_append (before after : Bytes) (value : UInt32) {offset : Nat}
    (hOffset : before.length = offset) : word (before ++ (toLeBytes value ++ after)) offset = value := by
  have hTake : (toLeBytes value ++ after).take 4 = toLeBytes value := by
    rw [List.take_append_of_le_length (by simp)]
    exact List.take_of_length_le (by simp)
  rw [word, ← hOffset, List.drop_left, hTake, fromLeBytes_toLeBytes]

/-- What the six words of an encoded header read back as. -/
theorem word_encodeHeader (header : Header) :
    word (encodeHeader header) 0 = header.command.code ∧
    word (encodeHeader header) 4 = header.arg0 ∧
    word (encodeHeader header) 8 = header.arg1 ∧
    word (encodeHeader header) 12 = header.dataLength ∧
    word (encodeHeader header) 16 = header.dataCheck ∧
    word (encodeHeader header) 20 = header.command.code ^^^ 0xFFFFFFFF := by
  unfold encodeHeader
  simp only [List.append_assoc]
  refine ⟨?_, ?_, ?_, ?_, ?_, ?_⟩
  · exact word_append [] _ _ rfl
  · exact word_append (toLeBytes header.command.code) _ _ (by simp)
  · rw [← List.append_assoc (toLeBytes _)]
    exact word_append _ _ _ (by simp)
  · rw [← List.append_assoc (toLeBytes _), ← List.append_assoc (toLeBytes _ ++ _)]
    exact word_append _ _ _ (by simp)
  · rw [← List.append_assoc (toLeBytes _), ← List.append_assoc (toLeBytes _ ++ _),
      ← List.append_assoc (toLeBytes _ ++ _ ++ _)]
    exact word_append _ _ _ (by simp)
  · rw [← List.append_assoc (toLeBytes _), ← List.append_assoc (toLeBytes _ ++ _),
      ← List.append_assoc (toLeBytes _ ++ _ ++ _),
      ← List.append_assoc (toLeBytes _ ++ _ ++ _ ++ _),
      ← List.append_nil (toLeBytes (header.command.code ^^^ 0xFFFFFFFF))]
    exact word_append _ _ _ (by simp)

/-- Every header within the payload bound survives the wire. -/
theorem decodeHeader_encodeHeader (header : Header) (maxPayload : UInt32)
    (hBound : header.dataLength ≤ min maxPayload MAX_PAYLOAD) :
    decodeHeader (encodeHeader header) maxPayload = .ok header := by
  obtain ⟨hCode, hArg0, hArg1, hLength, hCheck, hMagic⟩ := word_encodeHeader header
  simp only [decodeHeader, hCode, hArg0, hArg1, hLength, hCheck, hMagic, Command.fromCode_code,
    ne_eq, not_true_eq_false, ↓reduceIte, gt_iff_lt]
  rw [if_neg (UInt32.not_lt.mpr hBound)]

/-- Behind what stands in front of it, a word is written back where it was read. -/
theorem take_word {bytes : Bytes} {offset : Nat} (h : offset + 4 ≤ bytes.length) :
    bytes.take offset ++ toLeBytes (word bytes offset) = bytes.take (offset + 4) := by
  have hFour : ((bytes.drop offset).take 4).length = 4 := by
    rw [List.length_take, List.length_drop]
    omega
  rw [word, toLeBytes_fromLeBytes hFour, List.take_add]

/-- What the decoder accepts is within the bound, and the header it gives is
written in those bytes and no others. -/
theorem encodeHeader_of_decodeHeader {bytes : Bytes} (hLength : bytes.length = HEADER_LEN)
    {maxPayload : UInt32} {header : Header} (h : decodeHeader bytes maxPayload = .ok header) :
    header.dataLength ≤ min maxPayload MAX_PAYLOAD ∧ encodeHeader header = bytes := by
  have hLong : bytes.length = 24 := hLength
  cases hCommand : Command.fromCode (word bytes 0) with
  | none =>
      simp only [decodeHeader, hCommand] at h
      split at h <;> cases h
  | some command =>
      simp only [decodeHeader, hCommand] at h
      split_ifs at h with hMagic hBound
      cases h
      refine ⟨UInt32.not_lt.mp hBound, ?_⟩
      have hFirst : toLeBytes (word bytes 0) = bytes.take 4 := by
        simpa using take_word (show 0 + 4 ≤ bytes.length by omega)
      simp only [encodeHeader, Command.code_of_fromCode hCommand, ← not_not.mp hMagic, hFirst]
      rw [take_word (by omega), take_word (by omega), take_word (by omega), take_word (by omega),
        take_word (by omega), List.take_of_length_le (by omega)]

/-- The headers that are turned away: a magic that is not the complement of the
command word, an unknown command, or a length over the bound. -/
def Rejected (maxPayload : UInt32) (bytes : Bytes) : Prop :=
  word bytes 20 ≠ word bytes 0 ^^^ 0xFFFFFFFF ∨ Command.fromCode (word bytes 0) = none ∨
    word bytes 12 > min maxPayload MAX_PAYLOAD

theorem decodeHeader_rejected {maxPayload : UInt32} {bytes : Bytes} (h : Rejected maxPayload bytes) :
    ∃ message, decodeHeader bytes maxPayload = .error (.protocol message) := by
  by_cases hMagic : word bytes 20 ≠ word bytes 0 ^^^ 0xFFFFFFFF
  · exact ⟨_, if_pos hMagic⟩
  · cases hCommand : Command.fromCode (word bytes 0) with
    | none => exact ⟨_, by rw [decodeHeader, if_neg hMagic, hCommand]⟩
    | some command =>
        have hLong := (h.resolve_left hMagic).resolve_left (by simp [hCommand])
        exact ⟨_, by rw [decodeHeader, if_neg hMagic, hCommand]; exact if_pos hLong⟩

end Rsadb
