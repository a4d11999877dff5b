import Rsadb.Library.Utf8

/-! Slices of UTF-8 text. A text is the bytes of its characters; it may be cut
where a character begins, or at its end, and nowhere else. -/
namespace Utf8

/-- These bytes are a text. -/
def Valid (bytes : List UInt8) : Prop := ∃ text : String, bytes = encode text

/-- A byte that is not the continuation of a character. -/
def leads (byte : UInt8) : Bool := byte < 0x80 || 0xC0 ≤ byte

/-- The text may be cut here: at its start, at its end, or before a character. -/
def isCharBoundary (bytes : List UInt8) (index : Nat) : Bool :=
  index = 0 || (bytes[index]?).elim (index = bytes.length) leads

/-- The slice up to an index; cutting elsewhere than between characters gives nothing. -/
def sliceTo (bytes : List UInt8) (index : Nat) : Option (List UInt8) :=
  if isCharBoundary bytes index then some (bytes.take index) else none

/-- The slice from an index on. -/
def sliceFrom (bytes : List UInt8) (index : Nat) : Option (List UInt8) :=
  if isCharBoundary bytes index then some (bytes.drop index) else none

theorem valid_iff_chars {bytes : List UInt8} :
    Valid bytes ↔ ∃ chars : List Char, bytes = chars.flatMap String.utf8EncodeChar := by
  constructor
  · rintro ⟨text, rfl⟩
    exact ⟨text.toList, rfl⟩
  · rintro ⟨chars, rfl⟩
    exact ⟨String.ofList chars, by rw [encode, String.toList_ofList]⟩

theorem valid_iff_core {bytes : List UInt8} : Valid bytes ↔ ByteArray.IsValidUTF8 bytes.toByteArray := by
  rw [valid_iff_chars]
  constructor
  · rintro ⟨chars, rfl⟩
    exact ⟨chars, rfl⟩
  · rintro ⟨chars, hChars⟩
    refine ⟨chars, ?_⟩
    have h := congrArg (fun array => array.data.toList) hChars
    simpa [List.utf8Encode] using h

/-- Text is what can be read as a string. -/
theorem valid_iff_text {bytes : List UInt8} : Valid bytes ↔ ∃ text, String.fromUTF8? ⟨bytes.toArray⟩ = some text := by
  constructor
  · rintro ⟨text, rfl⟩
    exact ⟨text, fromUTF8_encode text⟩
  · rintro ⟨text, h⟩
    rw [String.fromUTF8?] at h
    split_ifs at h with hValid
    have hCore : (⟨bytes.toArray⟩ : ByteArray) = bytes.toByteArray := ByteArray.ext (by rw [List.data_toByteArray])
    rw [hCore] at hValid
    exact valid_iff_core.mpr hValid

theorem valid_nil : Valid [] := ⟨"", rfl⟩

theorem Valid.append {before after : List UInt8} (hBefore : Valid before) (hAfter : Valid after) :
    Valid (before ++ after) := by
  obtain ⟨chars, rfl⟩ := valid_iff_chars.mp hBefore
  obtain ⟨more, rfl⟩ := valid_iff_chars.mp hAfter
  exact valid_iff_chars.mpr ⟨chars ++ more, by rw [List.flatMap_append]⟩

/-- Where a text comes behind another it is a text on its own. -/
theorem Valid.of_append {before after : List UInt8} (h : Valid (before ++ after)) (hBefore : Valid before) :
    Valid after := by
  obtain ⟨chars, rfl⟩ := valid_iff_chars.mp hBefore
  induction chars with
  | nil => exact h
  | cons c chars ih =>
      refine ih ?_ (valid_iff_chars.mpr ⟨chars, rfl⟩)
      rw [valid_iff_core] at h ⊢
      rw [List.flatMap_cons, List.append_assoc, List.toByteArray_append, ← List.utf8Encode_singleton,
        ByteArray.isValidUTF8_utf8Encode_singleton_append_iff] at h
      exact h

/-- A character begins with a leading byte and goes on with continuation bytes. -/
theorem leads_encodeChar (c : Char) : ∃ first others, String.utf8EncodeChar c = first :: others ∧
    leads first = true ∧ ∀ byte ∈ others, leads byte = false := by
  have hValid : c.val.toNat < 0xD800 ∨ 0xDFFF < c.val.toNat ∧ c.val.toNat < 0x110000 := c.valid
  have hFirst : ∀ n, n < 0x80 ∨ 0xC0 ≤ n ∧ n < 0x100 → leads (UInt8.ofNat n) = true := by
    intro n h
    simp only [leads, UInt8.lt_iff_toNat_lt, UInt8.le_iff_toNat_le, UInt8.reduceToNat,
      UInt8.toNat_ofNat_of_lt' (show n < 256 by omega), Bool.or_eq_true, decide_eq_true_eq]
    omega
  have hOther : ∀ n, leads (UInt8.ofNat (n % 64 + 128)) = false := by
    intro n
    simp only [leads, UInt8.lt_iff_toNat_lt, UInt8.le_iff_toNat_le, UInt8.reduceToNat,
      UInt8.toNat_ofNat_of_lt' (show n % 64 + 128 < 256 by omega), Bool.or_eq_false_iff, decide_eq_false_iff_not]
    omega
  unfold String.utf8EncodeChar
  generalize c.val.toNat = v at hValid
  simp only
  split_ifs with hOne hTwo hThree
  · exact ⟨_, [], rfl, hFirst _ (by omega), by simp⟩
  all_goals
    refine ⟨_, _, rfl, hFirst _ (by omega), ?_⟩
    simp only [List.forall_mem_cons, hOther, List.not_mem_nil, false_implies, implies_true, and_self]

/-- A text that is not empty begins with a character. -/
theorem Valid.leads_head {byte : UInt8} {rest : List UInt8} (h : Valid (byte :: rest)) : leads byte = true := by
  obtain ⟨chars, hChars⟩ := valid_iff_chars.mp h
  cases chars with
  | nil => cases hChars
  | cons c chars =>
      obtain ⟨first, others, hChar, hLeads, -⟩ := leads_encodeChar c
      rw [List.flatMap_cons, hChar, List.cons_append] at hChars
      rw [(List.cons.inj hChars).1]
      exact hLeads

/-- Cut before a leading byte, a text falls into two texts. -/
theorem Valid.split {before after : List UInt8} (h : Valid (before ++ after))
    (hLeads : ∀ byte ∈ after.head?, leads byte = true) : Valid before ∧ Valid after := by
  obtain ⟨chars, hChars⟩ := valid_iff_chars.mp h
  induction chars generalizing before with
  | nil =>
      obtain ⟨rfl, rfl⟩ := List.append_eq_nil_iff.mp hChars
      exact ⟨valid_nil, valid_nil⟩
  | cons c chars ih =>
      rw [List.flatMap_cons] at hChars
      cases before with
      | nil => exact ⟨valid_nil, h⟩
      | cons byte before =>
          have hBehind : Valid (chars.flatMap String.utf8EncodeChar) := valid_iff_chars.mpr ⟨chars, rfl⟩
          have hOne : Valid (String.utf8EncodeChar c) := valid_iff_chars.mpr ⟨[c], by simp⟩
          obtain ⟨inside, hChar, hAfter⟩ | ⟨inside, hBefore, hRest⟩ := List.append_eq_append_iff.mp hChars
          · -- Nothing of the first character is cut off, since what is cut off would lead.
            have hNone : inside = [] := by
              cases inside with
              | nil => rfl
              | cons cutOff inside =>
                  obtain ⟨first, others, hShape, -, hOthers⟩ := leads_encodeChar c
                  rw [hShape, List.cons_append] at hChar
                  obtain ⟨-, rfl⟩ := List.cons.inj hChar
                  have hContinues := hOthers cutOff (by simp)
                  rw [hLeads cutOff (by rw [hAfter]; rfl)] at hContinues
                  cases hContinues
            subst hNone
            rw [List.append_nil] at hChar
            rw [List.nil_append] at hAfter
            exact ⟨hChar ▸ hOne, hAfter ▸ hBehind⟩
          · obtain ⟨hInside, hEnd⟩ := ih (hRest ▸ hBehind) hRest.symm
            exact ⟨hBefore ▸ hOne.append hInside, hEnd⟩

/-- A slice in front of a leading byte, or of the end, can be taken. -/
theorem isCharBoundary_append {before after : List UInt8} (hLeads : ∀ byte ∈ after.head?, leads byte = true) :
    isCharBoundary (before ++ after) before.length = true := by
  unfold isCharBoundary
  cases after with
  | nil => simp
  | cons byte after => simp [hLeads byte rfl]

theorem sliceTo_append {before after : List UInt8} (hLeads : ∀ byte ∈ after.head?, leads byte = true) :
    sliceTo (before ++ after) before.length = some before := by
  rw [sliceTo, if_pos (isCharBoundary_append hLeads), List.take_left]

theorem sliceFrom_append {before after : List UInt8} (hLeads : ∀ byte ∈ after.head?, leads byte = true) :
    sliceFrom (before ++ after) before.length = some after := by
  rw [sliceFrom, if_pos (isCharBoundary_append hLeads), List.drop_left]

/-- An ASCII byte of a text is a character of it. -/
theorem mem_of_mem_encode {byte : UInt8} (hAscii : byte < 0x80) {text : String} (h : byte ∈ encode text) :
    Char.ofNat byte.toNat ∈ text.toList := by
  obtain ⟨before, after, hText⟩ := List.append_of_mem h
  have hLeads : leads byte = true := by simp [leads, hAscii]
  have hByte : [byte] = encode (String.ofList [Char.ofNat byte.toNat]) :=
    (encode_ascii (List.forall_mem_singleton.mpr hAscii)).symm
  have hValid : Valid (before ++ byte :: after) := ⟨text, hText.symm⟩
  obtain ⟨⟨front, rfl⟩, hBehind⟩ := hValid.split (by
    rintro other ⟨⟩
    exact hLeads)
  rw [← List.singleton_append] at hBehind
  obtain ⟨rest, rfl⟩ := hBehind.of_append ⟨_, hByte⟩
  rw [← List.singleton_append, hByte, ← encode_append, ← encode_append] at hText
  have hSame := congrArg Utf8.text hText
  rw [text_encode, text_encode] at hSame
  rw [hSame]
  simp

end Utf8
