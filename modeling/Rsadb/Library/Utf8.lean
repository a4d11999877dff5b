import Mathlib.Data.List.Basic
import Mathlib.Tactic.SplitIfs

/-! Lossy UTF-8 decoding, with text kept as its UTF-8 bytes. A byte sequence
that cannot be continued is replaced once, and the byte that broke it is looked
at again. Valid text is decoded to itself. -/
namespace Utf8

/-- The bytes of U+FFFD. -/
def replacement : List UInt8 := [0xEF, 0xBF, 0xBD]

/-- A character begun but not finished: the bytes held back, how many are still
missing, and the range in which the next one must lie. -/
structure Opened where
  held : List UInt8
  missing : Nat
  low : UInt8
  high : UInt8

/-- What a byte starts when no character is open. -/
def start (byte : UInt8) : Option Opened :=
  if 0xC2 ≤ byte ∧ byte ≤ 0xDF then some ⟨[byte], 1, 0x80, 0xBF⟩
  else if byte = 0xE0 then some ⟨[byte], 2, 0xA0, 0xBF⟩
  else if byte = 0xED then some ⟨[byte], 2, 0x80, 0x9F⟩
  else if 0xE1 ≤ byte ∧ byte ≤ 0xEF then some ⟨[byte], 2, 0x80, 0xBF⟩
  else if byte = 0xF0 then some ⟨[byte], 3, 0x90, 0xBF⟩
  else if 0xF1 ≤ byte ∧ byte ≤ 0xF3 then some ⟨[byte], 3, 0x80, 0xBF⟩
  else if byte = 0xF4 then some ⟨[byte], 3, 0x80, 0x8F⟩
  else none

/-- Decode the remaining bytes, given the character that is open. -/
def lossyFrom : Option Opened → List UInt8 → List UInt8
  | none, [] => []
  | some _, [] => replacement
  | none, byte :: rest =>
      if byte < 0x80 then byte :: lossyFrom none rest
      else match start byte with
        | none => replacement ++ lossyFrom none rest
        | some opened => lossyFrom (some opened) rest
  | some opened, byte :: rest =>
      if opened.low ≤ byte ∧ byte ≤ opened.high then
        if opened.missing = 1 then opened.held ++ byte :: lossyFrom none rest
        else lossyFrom (some ⟨opened.held ++ [byte], opened.missing - 1, 0x80, 0xBF⟩) rest
      else
        -- The byte that broke the character may itself start one.
        replacement ++
          if byte < 0x80 then byte :: lossyFrom none rest
          else match start byte with
            | none => replacement ++ lossyFrom none rest
            | some next => lossyFrom (some next) rest

/-- Decode, replacing every broken sequence. -/
def lossy (bytes : List UInt8) : List UInt8 := lossyFrom none bytes

/-- The text that a lossy decoding shows. Its bytes are always valid, so the default is not met. -/
def text (bytes : List UInt8) : String := (String.fromUTF8? ⟨(lossy bytes).toArray⟩).getD ""

/-- A byte that opens a character is not ASCII, takes no ASCII byte next, and is held back. -/
private theorem start_spec {byte : UInt8} {opened : Opened} (h : start byte = some opened) :
    0x80 ≤ byte ∧ 0x80 ≤ opened.low ∧ opened.held = [byte] := by
  have hAll : ∀ n < 256, ∀ opened ∈ start (UInt8.ofNat n), 0x80 ≤ UInt8.ofNat n ∧ 0x80 ≤ opened.low ∧
      opened.held = [UInt8.ofNat n] := by decide +kernel
  have hByte := hAll byte.toNat byte.toNat_lt opened
  rw [UInt8.ofNat_toNat] at hByte
  exact hByte h

/-- A byte that opens a character stays until the character is complete. -/
private theorem lossyFrom_start {byte : UInt8} {opened : Opened} (h : start byte = some opened)
    (rest : List UInt8) : lossyFrom none (byte :: rest) = lossyFrom (some opened) rest := by
  rw [lossyFrom, if_neg (UInt8.not_lt.mpr (start_spec h).1), h]

/-- A byte that is neither ASCII nor opens a character is replaced. -/
private theorem lossyFrom_stray {byte : UInt8} (hAscii : ¬byte < 0x80) (h : start byte = none)
    (rest : List UInt8) : lossyFrom none (byte :: rest) = replacement ++ lossyFrom none rest := by
  rw [lossyFrom, if_neg hAscii, h]

/-- A continuation byte in range is held back, or completes the character. -/
private theorem lossyFrom_continue {opened : Opened} {byte : UInt8} (hLow : opened.low ≤ byte)
    (hHigh : byte ≤ opened.high) (rest : List UInt8) : lossyFrom (some opened) (byte :: rest) =
      if opened.missing = 1 then opened.held ++ byte :: lossyFrom none rest
      else lossyFrom (some ⟨opened.held ++ [byte], opened.missing - 1, 0x80, 0xBF⟩) rest := by
  rw [lossyFrom, if_pos ⟨hLow, hHigh⟩]

/-- A byte out of range breaks the character off, and is read as if none were open. -/
private theorem lossyFrom_broken {opened : Opened} {byte : UInt8}
    (h : ¬(opened.low ≤ byte ∧ byte ≤ opened.high)) (rest : List UInt8) :
    lossyFrom (some opened) (byte :: rest) = replacement ++ lossyFrom none (byte :: rest) := by
  simp only [lossyFrom, if_neg h]

/-- The byte after an opening one has the range that the opening one sets. -/
private def Opens (first : UInt8) (missing : Nat) (second : UInt8) : Prop :=
  ∃ low high, start first = some ⟨[first], missing, low, high⟩ ∧ low ≤ second ∧ second ≤ high

private def Continues (byte : UInt8) : Prop := 0x80 ≤ byte ∧ byte ≤ 0xBF

private theorem continues_ofNat (n : Nat) : Continues (UInt8.ofNat (n % 64 + 128)) := by
  simp only [Continues, UInt8.le_iff_toNat_le, UInt8.toNat_ofNat_of_lt' (show n % 64 + 128 < 256 by omega),
    UInt8.reduceToNat]
  omega

private theorem lossyFrom_two {a b : UInt8} (h : Opens a 1 b) (rest : List UInt8) :
    lossyFrom none (a :: b :: rest) = a :: b :: lossyFrom none rest := by
  obtain ⟨low, high, hStart, hLow, hHigh⟩ := h
  rw [lossyFrom_start hStart, lossyFrom_continue hLow hHigh]
  rfl

private theorem lossyFrom_three {a b c : UInt8} (h : Opens a 2 b) (hC : Continues c)
    (rest : List UInt8) :
    lossyFrom none (a :: b :: c :: rest) = a :: b :: c :: lossyFrom none rest := by
  obtain ⟨low, high, hStart, hLow, hHigh⟩ := h
  rw [lossyFrom_start hStart, lossyFrom_continue hLow hHigh, if_neg (by simp),
    lossyFrom_continue hC.1 hC.2]
  rfl

private theorem lossyFrom_four {a b c d : UInt8} (h : Opens a 3 b) (hC : Continues c)
    (hD : Continues d) (rest : List UInt8) :
    lossyFrom none (a :: b :: c :: d :: rest) = a :: b :: c :: d :: lossyFrom none rest := by
  obtain ⟨low, high, hStart, hLow, hHigh⟩ := h
  rw [lossyFrom_start hStart, lossyFrom_continue hLow hHigh, if_neg (by simp),
    lossyFrom_continue hC.1 hC.2, if_neg (by simp), lossyFrom_continue hD.1 hD.2]
  rfl

/-- How many bytes are missing, and the range of the next one. -/
private def range (opened : Opened) : Nat × UInt8 × UInt8 := (opened.missing, opened.low, opened.high)

/-- What each first byte of a character starts. -/
private theorem start_two : ∀ n < 0xE0, 0xC2 ≤ n →
    (start (UInt8.ofNat n)).map range = some (1, 0x80, 0xBF) := by decide +kernel

private theorem start_three : ∀ n < 0xF0, 0xE0 ≤ n → (start (UInt8.ofNat n)).map range =
    some (2, if n = 0xE0 then 0xA0 else 0x80, if n = 0xED then 0x9F else 0xBF) := by decide +kernel

private theorem start_four : ∀ n < 0xF5, 0xF0 ≤ n → (start (UInt8.ofNat n)).map range =
    some (3, if n = 0xF0 then 0x90 else 0x80, if n = 0xF4 then 0x8F else 0xBF) := by decide +kernel

/-- Which first bytes open a character of a given length, and what may follow them. -/
private theorem opens_of {a b : UInt8} {missing : Nat} (h :
    missing = 1 ∧ 0xC2 ≤ a.toNat ∧ a.toNat ≤ 0xDF ∧ 0x80 ≤ b.toNat ∧ b.toNat ≤ 0xBF ∨
    missing = 2 ∧ 0xE0 ≤ a.toNat ∧ a.toNat ≤ 0xEF ∧ 0x80 ≤ b.toNat ∧ b.toNat ≤ 0xBF ∧
      (a.toNat = 0xE0 → 0xA0 ≤ b.toNat) ∧ (a.toNat = 0xED → b.toNat ≤ 0x9F) ∨
    missing = 3 ∧ 0xF0 ≤ a.toNat ∧ a.toNat ≤ 0xF4 ∧ 0x80 ≤ b.toNat ∧ b.toNat ≤ 0xBF ∧
      (a.toNat = 0xF0 → 0x90 ≤ b.toNat) ∧ (a.toNat = 0xF4 → b.toNat ≤ 0x8F)) :
    Opens a missing b := by
  have hTwo := start_two a.toNat
  have hThree := start_three a.toNat
  have hFour := start_four a.toNat
  rw [UInt8.ofNat_toNat] at hTwo hThree hFour
  have hRange : ∀ low high, (start a).map range = some (missing, low, high) →
      low.toNat ≤ b.toNat → b.toNat ≤ high.toNat → Opens a missing b := by
    intro low high hStart hLow hHigh
    obtain ⟨⟨held, _, _, _⟩, hOpened, hFields⟩ := Option.map_eq_some_iff.mp hStart
    obtain rfl : held = [a] := (start_spec hOpened).2.2
    cases hFields
    exact ⟨_, _, hOpened, UInt8.le_iff_toNat_le.mpr hLow, UInt8.le_iff_toNat_le.mpr hHigh⟩
  rcases h with ⟨rfl, hFrom, hTo, hLow, hHigh⟩ | ⟨rfl, hFrom, hTo, hLow, hHigh, hFirst, hLast⟩ |
    ⟨rfl, hFrom, hTo, hLow, hHigh, hFirst, hLast⟩
  · exact hRange _ _ (hTwo (Nat.lt_succ_of_le hTo) hFrom) hLow hHigh
  · apply hRange _ _ (hThree (Nat.lt_succ_of_le hTo) hFrom)
    · split_ifs with hLead
      · exact hFirst hLead
      · exact hLow
    · split_ifs with hLead
      · exact hLast hLead
      · exact hHigh
  · apply hRange _ _ (hFour (Nat.lt_succ_of_le hTo) hFrom)
    · split_ifs with hLead
      · exact hFirst hLead
      · exact hLow
    · split_ifs with hLead
      · exact hLast hLead
      · exact hHigh

theorem lossyFrom_char (c : Char) (rest : List UInt8) :
    lossyFrom none (String.utf8EncodeChar c ++ rest) =
      String.utf8EncodeChar c ++ lossyFrom none rest := by
  have hValid : c.val.toNat < 0xD800 ∨ 0xDFFF < c.val.toNat ∧ c.val.toNat < 0x110000 := c.valid
  have hByte : ∀ n, n < 256 → (UInt8.ofNat n).toNat = n := fun n h => UInt8.toNat_ofNat_of_lt' h
  unfold String.utf8EncodeChar
  generalize c.val.toNat = v at hValid
  simp only
  split_ifs with hOne hTwo hThree
  · have hAscii : UInt8.ofNat v < 0x80 := by
      rw [UInt8.lt_iff_toNat_lt, hByte v (by omega)]
      exact Nat.lt_succ_of_le hOne
    rw [List.singleton_append, lossyFrom, if_pos hAscii, List.singleton_append]
  · apply lossyFrom_two
    apply opens_of
    rw [hByte _ (by omega), hByte _ (by omega)]
    omega
  · apply lossyFrom_three _ (continues_ofNat v)
    apply opens_of
    rw [hByte _ (by omega), hByte _ (by omega)]
    omega
  · apply lossyFrom_four _ (continues_ofNat _) (continues_ofNat v)
    apply opens_of
    rw [hByte _ (by omega), hByte _ (by omega)]
    omega

/-- The UTF-8 bytes of a text. -/
def encode (text : String) : List UInt8 := text.toList.flatMap String.utf8EncodeChar

/-- Valid text decodes to itself. -/
theorem lossy_encode (text : String) : lossy (encode text) = encode text := by
  unfold lossy encode
  induction text.toList with
  | nil => rfl
  | cons c rest ih => rw [List.flatMap_cons, lossyFrom_char, ih]

theorem lossyFrom_ascii {byte : UInt8} (h : byte < 0x80) (rest : List UInt8) :
    lossyFrom none (byte :: rest) = byte :: lossyFrom none rest := by
  rw [lossyFrom, if_pos h]

/-- Decoding begins anew at an ASCII byte. -/
private theorem lossyFrom_append {o : Option Opened} (hOpen : ∀ opened ∈ o, 0x80 ≤ opened.low)
    {byte : UInt8} (hAscii : byte < 0x80) (before rest : List UInt8) :
    lossyFrom o (before ++ byte :: rest) = lossyFrom o before ++ byte :: lossyFrom none rest := by
  have hFresh : ∀ {first : UInt8} {opened : Opened}, start first = some opened →
      ∀ found ∈ some opened, 0x80 ≤ found.low := by
    rintro first opened hStart found ⟨⟩
    exact (start_spec hStart).2.1
  have hNone : ∀ opened ∈ (none : Option Opened), 0x80 ≤ opened.low := by simp
  induction before generalizing o with
  | nil =>
      cases o with
      | none => exact lossyFrom_ascii hAscii rest
      | some opened =>
          have hRefused : ¬(opened.low ≤ byte ∧ byte ≤ opened.high) := fun h =>
            UInt8.not_lt.mpr h.1 (UInt8.lt_of_lt_of_le hAscii (hOpen opened rfl))
          rw [List.nil_append, lossyFrom_broken hRefused, lossyFrom_ascii hAscii]
          rfl
  | cons other before ih =>
      rw [List.cons_append]
      have hAnew : lossyFrom none (other :: (before ++ byte :: rest)) =
          lossyFrom none (other :: before) ++ byte :: lossyFrom none rest := by
        by_cases hPlain : other < 0x80
        · rw [lossyFrom_ascii hPlain, lossyFrom_ascii hPlain, ih hNone, List.cons_append]
        · cases hStart : start other with
          | none => rw [lossyFrom_stray hPlain hStart, lossyFrom_stray hPlain hStart, ih hNone, List.append_assoc]
          | some opened =>
              rw [lossyFrom_start hStart, lossyFrom_start hStart]
              exact ih (hFresh hStart)
      cases o with
      | none => exact hAnew
      | some opened =>
          by_cases hTakes : opened.low ≤ other ∧ other ≤ opened.high
          · rw [lossyFrom_continue hTakes.1 hTakes.2, lossyFrom_continue hTakes.1 hTakes.2]
            by_cases hLast : opened.missing = 1
            · rw [if_pos hLast, if_pos hLast, ih hNone, List.append_assoc, List.cons_append]
            · rw [if_neg hLast, if_neg hLast]
              apply ih
              rintro _ ⟨⟩
              exact UInt8.le_refl _
          · rw [lossyFrom_broken hTakes, lossyFrom_broken hTakes, hAnew, List.append_assoc]

/-- Bytes before and behind an ASCII byte are decoded on their own. -/
theorem lossy_append {byte : UInt8} (h : byte < 0x80) (before rest : List UInt8) :
    lossy (before ++ byte :: rest) = lossy before ++ byte :: lossy rest :=
  lossyFrom_append (by simp) h before rest

/-- ASCII bytes are decoded to themselves. -/
theorem lossy_ascii {front : List UInt8} (h : ∀ byte ∈ front, byte < 0x80) (rest : List UInt8) :
    lossy (front ++ rest) = front ++ lossy rest := by
  induction front with
  | nil => rfl
  | cons byte front ih =>
      obtain ⟨hByte, hFront⟩ := List.forall_mem_cons.mp h
      rw [List.cons_append, lossy, lossyFrom_ascii hByte, ← lossy, ih hFront, List.cons_append]

/-- Every byte of a decoding is one that was read, held back before, or part of a replacement. -/
private theorem mem_lossyFrom {o : Option Opened} {byte : UInt8} {bytes : List UInt8} (h : byte ∈ lossyFrom o bytes) :
    byte ∈ bytes ∨ byte ∈ replacement ∨ ∃ opened ∈ o, byte ∈ opened.held := by
  induction bytes generalizing o with
  | nil =>
      cases o with
      | none => exact Or.inl h
      | some opened => exact Or.inr (Or.inl h)
  | cons other bytes ih =>
      have hLater : byte ∈ lossyFrom none bytes → byte ∈ other :: bytes ∨ byte ∈ replacement := by
        intro hMem
        obtain hRead | hReplaced | ⟨_, hNone, -⟩ := ih hMem
        · exact Or.inl (List.mem_cons_of_mem other hRead)
        · exact Or.inr hReplaced
        · cases hNone
      have hOpened : ∀ {opened : Opened}, byte ∈ lossyFrom (some opened) bytes →
          byte ∈ other :: bytes ∨ byte ∈ replacement ∨ byte ∈ opened.held := by
        intro opened hMem
        obtain hRead | hReplaced | ⟨_, ⟨⟩, hHeld⟩ := ih hMem
        · exact Or.inl (List.mem_cons_of_mem other hRead)
        · exact Or.inr (Or.inl hReplaced)
        · exact Or.inr (Or.inr hHeld)
      have hAnew : byte ∈ lossyFrom none (other :: bytes) → byte ∈ other :: bytes ∨ byte ∈ replacement := by
        intro hMem
        by_cases hPlain : other < 0x80
        · rw [lossyFrom_ascii hPlain] at hMem
          rcases List.mem_cons.mp hMem with rfl | hMem
          · exact Or.inl List.mem_cons_self
          · exact hLater hMem
        · cases hStart : start other with
          | none =>
              rw [lossyFrom_stray hPlain hStart] at hMem
              rcases List.mem_append.mp hMem with hReplaced | hMem
              · exact Or.inr hReplaced
              · exact hLater hMem
          | some opened =>
              rw [lossyFrom_start hStart] at hMem
              obtain hRead | hReplaced | hHeld := hOpened hMem
              · exact Or.inl hRead
              · exact Or.inr hReplaced
              · rw [(start_spec hStart).2.2] at hHeld
                exact Or.inl (List.mem_singleton.mp hHeld ▸ List.mem_cons_self)
      cases o with
      | none => exact (hAnew h).imp_right Or.inl
      | some opened =>
          by_cases hTakes : opened.low ≤ other ∧ other ≤ opened.high
          · rw [lossyFrom_continue hTakes.1 hTakes.2] at h
            by_cases hLast : opened.missing = 1
            · rw [if_pos hLast] at h
              rcases List.mem_append.mp h with hHeld | hMem
              · exact Or.inr (Or.inr ⟨opened, rfl, hHeld⟩)
              · rcases List.mem_cons.mp hMem with rfl | hMem
                · exact Or.inl List.mem_cons_self
                · exact (hLater hMem).imp_right Or.inl
            · rw [if_neg hLast] at h
              obtain hRead | hReplaced | hHeld := hOpened h
              · exact Or.inl hRead
              · exact Or.inr (Or.inl hReplaced)
              · rcases List.mem_append.mp hHeld with hHeld | hNew
                · exact Or.inr (Or.inr ⟨opened, rfl, hHeld⟩)
                · exact Or.inl (List.mem_singleton.mp hNew ▸ List.mem_cons_self)
          · rw [lossyFrom_broken hTakes] at h
            rcases List.mem_append.mp h with hReplaced | hMem
            · exact Or.inr (Or.inl hReplaced)
            · exact (hAnew hMem).imp_right Or.inl

/-- Decoding makes no ASCII byte up. -/
theorem mem_of_mem_lossy {byte : UInt8} (hAscii : byte < 0x80) {bytes : List UInt8} (h : byte ∈ lossy bytes) :
    byte ∈ bytes := by
  obtain hRead | hReplaced | ⟨opened, hNone, -⟩ := mem_lossyFrom h
  · exact hRead
  · have hHigh : ∀ b ∈ replacement, ¬b < 0x80 := by simp [replacement]
    exact absurd hAscii (hHigh byte hReplaced)
  · cases hNone

theorem encode_append (first second : String) : encode (first ++ second) = encode first ++ encode second := by
  rw [encode, String.toList_append, List.flatMap_append]
  rfl

/-- A text that was encoded is decoded to itself. -/
theorem fromUTF8_encode (s : String) : String.fromUTF8? ⟨(encode s).toArray⟩ = some s := by
  have hCore : (⟨(encode s).toArray⟩ : ByteArray) = s.toByteArray := by
    rw [← String.utf8Encode_toList]
    exact ByteArray.ext (by rw [encode, List.utf8Encode, List.data_toByteArray])
  rw [hCore, String.fromUTF8?, dif_pos s.isValidUTF8]
  rfl

/-- A text that was encoded shows as itself. -/
theorem text_encode (s : String) : text (encode s) = s := by
  rw [text, lossy_encode, fromUTF8_encode]
  rfl

/-- ASCII bytes are the characters with these numbers. -/
theorem encode_ascii {front : List UInt8} (h : ∀ byte ∈ front, byte < 0x80) :
    encode (String.ofList (front.map fun byte => Char.ofNat byte.toNat)) = front := by
  rw [encode, String.toList_ofList]
  induction front with
  | nil => rfl
  | cons byte front ih =>
      obtain ⟨hByte, hFront⟩ := List.forall_mem_cons.mp h
      have hAll : ∀ n < 128, String.utf8EncodeChar (Char.ofNat n) = [UInt8.ofNat n] := by decide
      rw [List.map_cons, List.flatMap_cons, ih hFront, hAll _ (UInt8.lt_iff_toNat_lt.mp hByte), UInt8.ofNat_toNat]
      rfl

end Utf8
