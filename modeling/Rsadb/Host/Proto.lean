import Rsadb.Error
import Rsadb.Library.Radix
import Rsadb.Library.Source
import Rsadb.Library.Utf8

/-! The protocol of an adb server: requests behind a length of four hexadecimal
digits, and blocks of text behind such a length. -/
namespace Rsadb.Host

/-- The value of a hexadecimal digit, in either case. -/
def hexDigit (byte : UInt8) : Option Nat :=
  if 48 ≤ byte ∧ byte ≤ 57 then some (byte.toNat - 48)
  else if 97 ≤ byte ∧ byte ≤ 102 then some (byte.toNat - 87)
  else if 65 ≤ byte ∧ byte ≤ 70 then some (byte.toNat - 55)
  else none

/-- The digit as `{:x}` prints it. -/
def lowerHex (value : Nat) : UInt8 :=
  if value < 10 then UInt8.ofNat (48 + value) else UInt8.ofNat (87 + value)

/-- Send one request: its length as `{:04x}` prints it, and its text. -/
def sendRequest (written : Bytes) (request : String) : Result Unit × Bytes :=
  let text := Utf8.encode request
  if 0xFFFF < text.length then
    (.error (.invalidArgument "host request longer than 65535 bytes"), written)
  else (.ok (), written ++ (Radix.digits 16 lowerHex 4 text.length ++ text))

/-- `usize::from_str_radix` with base 16: digits, of which a sign may stand in front. -/
def fromStrRadix (text : Bytes) : Option Nat :=
  match text with
  | [] => none
  | [43] | [45] => none
  | 43 :: digits => Radix.value 16 hexDigit digits
  | digits => Radix.value 16 hexDigit digits

/-- Read a four-hex-digit length. `debug` is how a text is shown in an error. -/
def readLen (debug : String → String) (source : Source UInt8) : Result Nat × Source UInt8 :=
  match source.readExact 4 with
  | (none, source) => (.error .disconnected, source)
  | (some hex, source) =>
      (match String.fromUTF8? ⟨hex.toArray⟩ with
        | none => .error (.protocol "length is not ASCII hex")
        | some text =>
            match fromStrRadix hex with
            | none => .error (.protocol s!"bad length {debug text}")
            | some len => .ok len, source)

/-- Read a length-prefixed block as text. -/
def readBlock (debug : String → String) (source : Source UInt8) : Result Bytes × Source UInt8 :=
  match readLen debug source with
  | (.error e, source) => (.error e, source)
  | (.ok len, source) =>
      match source.readExact len with
      | (none, source) => (.error .disconnected, source)
      | (some buf, source) => (.ok (Utf8.lossy buf), source)

/-- The stream begins with four hexadecimal digits and as many bytes as they say. -/
def Announces (stream : Bytes) (n : Nat) : Prop :=
  4 + n ≤ stream.length ∧ Radix.value 16 hexDigit (stream.take 4) = some n

/-- The stream begins with a plus sign, three digits and as many bytes as they say. -/
def Signed (stream : Bytes) (n : Nat) : Prop :=
  4 + n ≤ stream.length ∧
    ∃ digits, stream.take 4 = 43 :: digits ∧ Radix.value 16 hexDigit digits = some n

section

variable {debug : String → String} {source left : Source UInt8} {stream text hex : Bytes} {n : Nat}

theorem hexDigit_lowerHex {value : Nat} (h : value < 16) : hexDigit (lowerHex value) = some value := by
  decide +revert

/-- A digit is ASCII. -/
theorem lt_of_hexDigit {byte : UInt8} (h : (hexDigit byte).isSome) : byte < 0x80 := by
  unfold hexDigit at h
  split_ifs at h with hDecimal hLower hUpper
  · exact UInt8.lt_of_le_of_lt hDecimal.2 (by decide)
  · exact UInt8.lt_of_le_of_lt hLower.2 (by decide)
  · exact UInt8.lt_of_le_of_lt hUpper.2 (by decide)
  · cases h

theorem fromStrRadix_plus {digits : Bytes} (hSome : digits ≠ []) :
    fromStrRadix (43 :: digits) = Radix.value 16 hexDigit digits := by
  obtain ⟨digit, rest, rfl⟩ := List.exists_cons_of_ne_nil hSome
  rfl

/-- Without a sign in front all of the text has to be digits. -/
theorem fromStrRadix_digits (hSome : hex ≠ []) (h : hex.head? ≠ some 43) :
    fromStrRadix hex = Radix.value 16 hexDigit hex := by
  unfold fromStrRadix
  split
  · exact absurd rfl hSome
  · exact absurd rfl h
  · rfl
  · exact absurd rfl h
  · rfl

/-- A plus sign is no digit. -/
theorem value_plus (digits : Bytes) : Radix.value 16 hexDigit (43 :: digits) = none := rfl

/-- The number before which a block stands is announced, or signed. -/
theorem fromStrRadix_take (hEnough : 4 + n ≤ stream.length) :
    fromStrRadix (stream.take 4) = some n ↔ Announces stream n ∨ Signed stream n := by
  have hLength : (stream.take 4).length = 4 := by
    rw [List.length_take]
    omega
  obtain ⟨first, digits, hHex⟩ := List.exists_cons_of_length_eq_add_one hLength
  have hSome : digits ≠ [] := by
    rintro rfl
    rw [hHex] at hLength
    cases hLength
  by_cases hPlus : first = 43
  · subst hPlus
    rw [hHex, fromStrRadix_plus hSome]
    constructor
    · intro h
      exact Or.inr ⟨hEnough, digits, hHex, h⟩
    · rintro (⟨-, hDigits⟩ | ⟨-, others, hOthers, hValue⟩)
      · rw [hHex, value_plus] at hDigits
        cases hDigits
      · rw [hHex] at hOthers
        obtain ⟨-, rfl⟩ := List.cons.inj hOthers
        exact hValue
  · have hHead : (first :: digits).head? ≠ some 43 := fun h => hPlus (Option.some.inj h)
    rw [hHex, fromStrRadix_digits (List.cons_ne_nil first digits) hHead]
    constructor
    · intro h
      exact Or.inl ⟨hEnough, hHex ▸ h⟩
    · rintro (⟨-, hDigits⟩ | ⟨-, others, hOthers, -⟩)
      · rw [hHex] at hDigits
        exact hDigits
      · rw [hHex] at hOthers
        exact absurd (List.cons.inj hOthers).1 hPlus

/-- A stream is not both: its first byte is a digit or a plus sign. -/
theorem not_announces_of_signed {m : Nat} (h : Signed stream n) : ¬Announces stream m := by
  obtain ⟨-, digits, hHex, -⟩ := h
  rintro ⟨-, hDigits⟩
  rw [hHex, value_plus] at hDigits
  cases hDigits

/-- What is read as a number is text. -/
theorem fromUTF8_header (h : Announces stream n ∨ Signed stream n) :
    String.fromUTF8? ⟨(stream.take 4).toArray⟩ ≠ none := by
  have hAscii : ∀ byte ∈ stream.take 4, byte < 0x80 := by
    intro byte hMem
    rcases h with ⟨-, hDigits⟩ | ⟨-, digits, hHex, hDigits⟩
    · exact lt_of_hexDigit (Radix.read_isSome hDigits byte hMem)
    · rw [hHex] at hMem
      obtain rfl | hLater := List.mem_cons.mp hMem
      · decide
      · exact lt_of_hexDigit (Radix.read_isSome hDigits byte hLater)
  rw [← Utf8.encode_ascii hAscii, Utf8.fromUTF8_encode]
  exact Option.some_ne_none _

/-- A length is read from four bytes that are a number. -/
theorem readLen_ok (h : readLen debug source = (.ok n, left)) : 4 ≤ source.pending.length ∧
    fromStrRadix (source.pending.take 4) = some n ∧ left.pending = source.pending.drop 4 := by
  rcases Nat.lt_or_ge source.pending.length 4 with hShort | hEnough
  · obtain ⟨next, hRead⟩ := source.readExact_short hShort
    rw [readLen, hRead] at h
    cases (Prod.mk.inj h).1
  · obtain ⟨next, hRead, hNext⟩ := source.readExact_enough hEnough
    rw [readLen, hRead] at h
    obtain ⟨hResult, rfl⟩ := Prod.mk.inj h
    refine ⟨hEnough, ?_, hNext⟩
    split at hResult
    · cases hResult
    · split at hResult
      · cases hResult
      · rename_i hValue
        cases hResult
        exact hValue

/-- A block is read only behind a length, and with all of its bytes. -/
theorem readBlock_ok (h : readBlock debug source = (.ok text, left)) : ∃ n,
    (Announces source.pending n ∨ Signed source.pending n) ∧
    left.pending = source.pending.drop (4 + n) := by
  unfold readBlock at h
  split at h
  · cases (Prod.mk.inj h).1
  · rename_i len middle hLen
    obtain ⟨hEnough, hValue, hMiddle⟩ := readLen_ok hLen
    split at h
    · cases (Prod.mk.inj h).1
    · rename_i buf next hRead
      obtain ⟨-, rfl⟩ := Prod.mk.inj h
      rcases Nat.lt_or_ge middle.pending.length len with hShort | hLong
      · obtain ⟨_, hNone⟩ := middle.readExact_short hShort
        rw [hNone] at hRead
        cases hRead
      · obtain ⟨_, hSome, hLeft⟩ := middle.readExact_enough hLong
        obtain ⟨-, rfl⟩ := Prod.mk.inj (hRead.symm.trans hSome)
        have hWhole : 4 + len ≤ source.pending.length := by
          rw [hMiddle, List.length_drop] at hLong
          omega
        refine ⟨len, (fromStrRadix_take hWhole).mp hValue, ?_⟩
        rw [hLeft, hMiddle, List.drop_drop]

/-- Behind a length with all of its bytes the block is read, and no more than that. -/
theorem readBlock_of_length (debug : String → String)
    (h : Announces source.pending n ∨ Signed source.pending n) : ∃ left,
    readBlock debug source = (.ok (Utf8.lossy ((source.pending.drop 4).take n)), left) ∧
    left.pending = source.pending.drop (4 + n) := by
  have hWhole : 4 + n ≤ source.pending.length := by
    rcases h with ⟨hWhole, -⟩ | ⟨hWhole, -⟩ <;> exact hWhole
  obtain ⟨header, hHeader⟩ := Option.ne_none_iff_exists'.mp (fromUTF8_header h)
  obtain ⟨middle, hRead, hMiddle⟩ := source.readExact_enough (Nat.le_of_add_right_le hWhole)
  have hLen : readLen debug source = (.ok n, middle) := by
    simp only [readLen, hRead, hHeader, (fromStrRadix_take hWhole).mpr h]
  have hLong : n ≤ middle.pending.length := by
    rw [hMiddle, List.length_drop]
    omega
  obtain ⟨left, hBlock, hLeft⟩ := middle.readExact_enough hLong
  refine ⟨left, ?_, ?_⟩
  · simp only [readBlock, hLen, hBlock, hMiddle]
  · rw [hLeft, hMiddle, List.drop_drop]

/-- What a request is sent as announces the request, whatever comes behind it. -/
theorem sendRequest_announces {request : String} (written rest : Bytes)
    (h : (Utf8.encode request).length ≤ 0xFFFF) : ∃ frame,
    sendRequest written request = (.ok (), written ++ frame) ∧
    Announces (frame ++ rest) (Utf8.encode request).length ∧
    (frame ++ rest).drop 4 = Utf8.encode request ++ rest := by
  have hDigits : (Radix.digits 16 lowerHex 4 (Utf8.encode request).length).length = 4 :=
    Radix.digits_length 4 _
  have hFits : (Utf8.encode request).length < 16 ^ 4 := Nat.lt_succ_of_le h
  refine ⟨_, if_neg (Nat.not_lt.mpr h), ⟨?_, ?_⟩, ?_⟩
  · rw [List.length_append, List.length_append, hDigits]
    exact Nat.le_add_right _ _
  · rw [List.append_assoc, List.take_left' hDigits]
    exact Radix.value_digits (fun _ => hexDigit_lowerHex) hFits
  · rw [List.append_assoc, List.drop_left' hDigits]

end

/-- A request of up to 65535 bytes is read back as it was written, in whatever
fragments it arrives, and what is behind it stays; a longer one is not written.
A block is read from a stream only where a length announces it, and then no more
than the block, exactly if the stream does not begin with a plus sign, a length of
three digits and the bytes it says. -/
theorem read_block_exact (debug : String → String) :
    (∀ (request : String) (written : Bytes), (Utf8.encode request).length ≤ 65535 → ∃ frame,
      sendRequest written request = (.ok (), written ++ frame) ∧
      ∀ (source : Source UInt8) (rest : Bytes), source.pending = frame ++ rest → ∃ left,
        readBlock debug source = (.ok (Utf8.encode request), left) ∧ left.pending = rest) ∧
    (∀ (request : String) (written : Bytes), 65535 < (Utf8.encode request).length → ∃ e,
      sendRequest written request = (.error e, written)) ∧
    ∀ source : Source UInt8,
      (∀ text left, readBlock debug source = (.ok text, left) → ∃ n,
        Announces source.pending n ∧ left.pending = source.pending.drop (4 + n)) ↔
      ¬∃ n, Signed source.pending n := by
  refine ⟨?_, ?_, ?_⟩
  · intro request written hFits
    obtain ⟨frame, hSent, -⟩ := sendRequest_announces written [] hFits
    refine ⟨frame, hSent, ?_⟩
    intro source rest hPending
    obtain ⟨other, hOther, hAnnounces, hBehind⟩ := sendRequest_announces written rest hFits
    obtain rfl : other = frame :=
      List.append_cancel_left (Prod.mk.inj (hOther.symm.trans hSent)).2
    rw [← hPending] at hAnnounces hBehind
    obtain ⟨left, hBlock, hLeft⟩ := readBlock_of_length debug (Or.inl hAnnounces)
    rw [hBehind, List.take_left, Utf8.lossy_encode] at hBlock
    rw [← List.drop_drop, hBehind, List.drop_left] at hLeft
    exact ⟨left, hBlock, hLeft⟩
  · intro request written hLong
    exact ⟨_, if_pos hLong⟩
  · intro source
    constructor
    · rintro hExact ⟨n, hSigned⟩
      obtain ⟨left, hBlock, -⟩ := readBlock_of_length debug (Or.inr hSigned)
      obtain ⟨m, hAnnounces, -⟩ := hExact _ left hBlock
      exact not_announces_of_signed hSigned hAnnounces
    · intro hUnsigned text left hBlock
      obtain ⟨n, hAnnounces | hSigned, hLeft⟩ := readBlock_ok hBlock
      · exact ⟨n, hAnnounces, hLeft⟩
      · exact absurd ⟨n, hSigned⟩ hUnsigned

/-- The stream `+003abc` is read as the block `abc`. -/
theorem read_block_signed : ∃ source left : Source UInt8, source.pending = ascii "+003abc" ∧
    readBlock toString source = (.ok (ascii "abc"), left) ∧
    ¬∃ n, Announces source.pending n := by
  have hSome : ∀ fragment ∈ [ascii "+003abc"], fragment ≠ [] := by
    intro fragment hMem
    obtain rfl := List.mem_singleton.mp hMem
    decide
  have hSigned : Signed (⟨[ascii "+003abc"], hSome⟩ : Source UInt8).pending 3 :=
    ⟨Nat.le_refl 7, ascii "003", rfl, rfl⟩
  obtain ⟨left, hBlock, -⟩ := readBlock_of_length toString (Or.inr hSigned)
  refine ⟨_, left, rfl, hBlock, ?_⟩
  rintro ⟨n, hAnnounces⟩
  exact not_announces_of_signed hSigned hAnnounces

end Rsadb.Host
