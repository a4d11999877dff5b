import Mathlib.Data.UInt
import Rsadb.Auth.Pubkey
import Rsadb.Library.Base64
import Rsadb.Library.Newton

/-! The encoding of a public key is what the device expects, and decoding takes
back exactly what encoding gives. -/
namespace Rsadb.Pubkey

/-- Five Newton steps find the inverse of every odd word. -/
theorem newtonStep_inverse {n0 : UInt32} (hOdd : n0 % 2 = 1) : n0 * (newtonStep n0)^[5] n0 = 1 := by
  open scoped UInt32.CommRing in
  have hStep : newtonStep n0 = Newton.step n0 := rfl
  obtain ⟨half, hHalf⟩ : ∃ half : UInt32, 1 - n0 * n0 = 2 * half := by
    refine ⟨-(n0 / 2) * (n0 + 1), ?_⟩
    have hDouble : n0 = 2 * (n0 / 2) + 1 := by
      have hNat := n0.toNat_lt
      rw [← UInt32.toNat_inj] at hOdd ⊢
      simp only [UInt32.toNat_mod, UInt32.toNat_add, UInt32.toNat_mul, UInt32.toNat_div, UInt32.reduceToNat] at hOdd ⊢
      omega
    generalize n0 / 2 = half at hDouble ⊢
    rw [hDouble]
    ring
  have hVanishes : (2 : UInt32) ^ 2 ^ 5 = 0 := by decide
  rw [hStep]
  refine Newton.inverse_of_missing ?_
  rw [hHalf, mul_pow, hVanishes, zero_mul]

theorem n0inv_inverse {n0 : UInt32} (hOdd : n0 % 2 = 1) : n0 * n0inv n0 = 0 - 1 := by
  rw [n0inv, UInt32.mul_sub, newtonStep_inverse hOdd, UInt32.mul_zero]

/-- The keys that Android takes: an odd modulus of 2048 bits and a small exponent. -/
def Suitable (key : RsaPublicKey) : Prop := bits key.n = 2048 ∧ key.n % 2 = 1 ∧ key.e < 2 ^ 32

/-- The number that a modulus of 2048 bits is below. -/
def R : Nat := 2 ^ (MODULUS_BYTES * 8)

/-- The fields of an encoded key, with a word for the Montgomery constant. -/
def layout (key : RsaPublicKey) (k : UInt32) : Bytes :=
  toLeBytes 64 ++ toLeBytes k ++ LittleEndian.encode 256 key.n ++ LittleEndian.encode 256 (R * R % key.n) ++
    LittleEndian.encode 4 key.e

theorem layout_length (key : RsaPublicKey) (k : UInt32) : (layout key k).length = 524 := by
  simp only [layout, List.length_append, toLeBytes_length, LittleEndian.encode_length]

theorem modulus_pow : 256 ^ MODULUS_BYTES = R := by
  rw [R, Nat.mul_comm, Nat.pow_mul]

theorem lt_of_bits {value : Nat} (h : bits value = 2048) : value < R := by
  unfold bits at h
  split_ifs at h with hZero
  have hLog : value.log2 < MODULUS_BYTES * 8 := by
    show value.log2 < 2048
    omega
  exact (Nat.log2_lt hZero).mp hLog

theorem toLePadded_of_lt {value : Nat} (h : value < R) : toLePadded value = .ok (LittleEndian.encode 256 value) := by
  rw [toLePadded, modulus_pow, if_neg (Nat.not_le.mpr h)]
  rfl

/-- The lowest word of the modulus, as it is read from the encoded modulus. -/
theorem lowest_word (n : Nat) : fromLeBytes ((LittleEndian.encode 256 n).take 4) = UInt32.ofNat n := by
  have hTake : (LittleEndian.encode 256 n).take 4 = LittleEndian.encode 4 n := rfl
  rw [hTake, fromLeBytes, LittleEndian.value_encode_mod]
  exact UInt32.toNat_inj.mp (by simp)

variable {key : RsaPublicKey} {bytes : Bytes}

private theorem ok_bind {α β : Type} (a : α) (next : α → Result β) : (Except.ok a >>= next) = next a := rfl

/-- The encoding of a key that Android takes. -/
theorem encode_of_suitable (h : Suitable key) : encode key = .ok (layout key (n0inv (UInt32.ofNat key.n))) := by
  obtain ⟨hBits, hOdd, hExponent⟩ := h
  have hModulus := lt_of_bits hBits
  have hSome : 0 < key.n := by omega
  have hRr := toLePadded_of_lt (Nat.lt_trans (Nat.mod_lt (R * R) hSome) hModulus)
  have hSize : bits key.n = MODULUS_BYTES * 8 := hBits
  have hEven : ¬key.n % 2 = 0 := by omega
  have hFits : ¬256 ^ 4 ≤ key.e := Nat.not_le.mpr hExponent
  have hExponentBytes : toLeBytes (UInt32.ofNat key.e) = LittleEndian.encode 4 key.e := by
    rw [toLeBytes, UInt32.toNat_ofNat_of_lt' hExponent]
  unfold encode
  rw [if_neg (not_not.mpr hSize), if_neg hEven, toLePadded_of_lt hModulus, ← R.eq_def]
  simp only [ok_bind, hRr, hFits, if_false, lowest_word, hExponentBytes]
  rfl

/-- No other key is encoded. -/
theorem encode_of_unsuitable (h : ¬Suitable key) : ∃ message, encode key = .error (.key message) := by
  unfold encode
  by_cases hSize : bits key.n = MODULUS_BYTES * 8
  · rw [if_neg (not_not.mpr hSize)]
    by_cases hEven : key.n % 2 = 0
    · rw [if_pos hEven]
      exact ⟨_, rfl⟩
    · have hModulus := lt_of_bits hSize
      have hSome : 0 < key.n := by omega
      have hRr := toLePadded_of_lt (Nat.lt_trans (Nat.mod_lt (R * R) hSome) hModulus)
      have hLarge : 256 ^ 4 ≤ key.e := by
        by_contra hFits
        exact h ⟨hSize, by omega, Nat.lt_of_not_le hFits⟩
      rw [if_neg hEven, toLePadded_of_lt hModulus, ← R.eq_def]
      simp only [ok_bind, hRr, hLarge, if_true]
      exact ⟨_, rfl⟩
  · rw [if_pos hSize]
    exact ⟨_, rfl⟩

/-- What is encoded is a suitable key, and it is laid out as its fields. -/
theorem encode_ok (h : encode key = .ok bytes) :
    Suitable key ∧ bytes = layout key (n0inv (UInt32.ofNat key.n)) := by
  have hSuitable : Suitable key := by
    by_contra hNot
    obtain ⟨message, hError⟩ := encode_of_unsuitable hNot
    rw [hError] at h
    cases h
  rw [encode_of_suitable hSuitable] at h
  exact ⟨hSuitable, (Except.ok.inj h).symm⟩

/-- The word before the modulus is the negative inverse of the modulus. -/
theorem montgomery_word {n : Nat} (hOdd : n % 2 = 1) : (n * (n0inv (UInt32.ofNat n)).toNat + 1) % 2 ^ 32 = 0 := by
  have hWord : UInt32.ofNat n % 2 = 1 := by
    rw [← UInt32.toNat_inj]
    simp only [UInt32.toNat_mod, UInt32.toNat_ofNat', UInt32.reduceToNat]
    omega
  have hProduct := congrArg UInt32.toNat (n0inv_inverse hWord)
  rw [UInt32.toNat_mul, UInt32.toNat_ofNat'] at hProduct
  have hReduced : (n * (n0inv (UInt32.ofNat n)).toNat) % 2 ^ 32 = 2 ^ 32 - 1 := by
    rw [← Nat.mod_mul_mod]
    exact hProduct
  omega

/-- The fields of the layout stand where decoding reads them. -/
theorem layout_fields {key : RsaPublicKey} (hExponent : key.e < 2 ^ 32) (k : UInt32) :
    word (layout key k) 0 = 64 ∧ ((layout key k).drop 8).take 256 = LittleEndian.encode 256 key.n ∧
      word (layout key k) 520 = UInt32.ofNat key.e := by
  have hExponentBytes : LittleEndian.encode 4 key.e = toLeBytes (UInt32.ofNat key.e) ++ [] := by
    rw [toLeBytes, UInt32.toNat_ofNat_of_lt' hExponent, List.append_nil]
  rw [layout, hExponentBytes]
  refine ⟨?_, ?_, ?_⟩
  · simp only [List.append_assoc]
    exact @word_append [] _ 64 0 rfl
  · rw [List.append_assoc, List.append_assoc, List.drop_left' (by simp), List.take_left' (by simp)]
  · exact @word_append _ [] (UInt32.ofNat key.e) 520 (by simp)

section decode

variable {new : Nat → Nat → Result RsaPublicKey}

/-- An encoded key that the library accepts is decoded. -/
theorem decode_of_encode (hNew : new key.n key.e = .ok key) (h : encode key = .ok bytes) :
    decode new bytes = .ok key := by
  obtain ⟨⟨hBits, -, hExponent⟩, hLayout⟩ := encode_ok h
  obtain ⟨hWords, hModulus, hLast⟩ := layout_fields hExponent (n0inv (UInt32.ofNat key.n))
  have hLength : bytes.length = ENCODED_LEN := by
    rw [hLayout, layout_length]
    rfl
  rw [← hLayout] at hWords hModulus hLast
  have hN : LittleEndian.value ((bytes.drop 8).take MODULUS_BYTES) = key.n := by
    rw [show MODULUS_BYTES = 256 from rfl, hModulus, LittleEndian.value_encode]
    exact modulus_pow ▸ lt_of_bits hBits
  have hE : (word bytes (8 + 2 * MODULUS_BYTES)).toNat = key.e := by
    rw [show 8 + 2 * MODULUS_BYTES = 520 from rfl, hLast, UInt32.toNat_ofNat_of_lt' hExponent]
  unfold decode
  rw [if_neg (not_not.mpr hLength)]
  rw [hWords, show (64 : UInt32) = MODULUS_WORDS from rfl]
  simp only [hN, hE, hNew, h, ok_bind, ne_eq, not_true_eq_false, if_false]
  rfl

/-- What is decoded is the encoding of the key that it is decoded to. -/
theorem encode_of_decode (h : decode new bytes = .ok key) : encode key = .ok bytes := by
  unfold decode at h
  by_cases hLength : bytes.length = ENCODED_LEN
  · rw [if_neg (not_not.mpr hLength)] at h
    by_cases hWords : word bytes 0 = MODULUS_WORDS
    · rw [if_neg (not_not.mpr hWords)] at h
      dsimp only at h
      cases hNew : new (LittleEndian.value ((bytes.drop 8).take MODULUS_BYTES))
          (word bytes (8 + 2 * MODULUS_BYTES)).toNat with
      | error e =>
          rw [hNew] at h
          cases h
      | ok accepted =>
          simp only [hNew, ok_bind] at h
          cases hEncode : encode accepted with
          | error e =>
              rw [hEncode] at h
              cases h
          | ok expected =>
              simp only [hEncode, ok_bind] at h
              by_cases hSame : expected = bytes
              · rw [if_neg (not_not.mpr hSame)] at h
                obtain rfl : accepted = key := Except.ok.inj h
                rw [hEncode, hSame]
              · rw [if_pos hSame] at h
                cases h
    · rw [if_pos hWords] at h
      cases h
  · rw [if_pos hLength] at h
    cases h

end decode

/-- The standard base64 engine, as far as key lines depend on it: what it encodes it
decodes again, and it writes visible ASCII characters, four for every three bytes begun. -/
structure Standard (encode64 : Bytes → Bytes) (decode64 : Bytes → Result Bytes) : Prop where
  inverse : ∀ bytes, decode64 (encode64 bytes) = .ok bytes
  length : ∀ bytes, (encode64 bytes).length = 4 * ((bytes.length + 2) / 3)
  visible : ∀ bytes, ∀ byte ∈ encode64 bytes, 0x20 < byte ∧ byte < 0x7F

/-- No visible ASCII character is white space. -/
theorem not_whitespace {byte : UInt8} (h : 0x20 < byte ∧ byte < 0x7F) :
    Text.isWhitespace (Char.ofNat byte.toNat) = false := by
  have hAll : ∀ n < 127, 32 < n → Text.isWhitespace (Char.ofNat n) = false := by decide
  exact hAll _ (UInt8.lt_iff_toNat_lt.mp h.2) (UInt8.lt_iff_toNat_lt.mp h.1)

/-- The line of a key is decoded from its first word, whatever the comment is. -/
theorem decodeLine_of_encodeLine {new : Nat → Nat → Result RsaPublicKey} {encode64 : Bytes → Bytes}
    {decode64 : Bytes → Result Bytes} (hStandard : Standard encode64 decode64) (comment : String)
    (hNew : new key.n key.e = .ok key) (hEncode : encode key = .ok bytes) :
    ∃ line, encodeLine encode64 key (Utf8.encode comment) = .ok line ∧ decodeLine new decode64 line = .ok key := by
  have hVisible := hStandard.visible bytes
  have hAscii : ∀ byte ∈ encode64 bytes, byte < 0x80 := fun byte hMem =>
    UInt8.lt_trans (hVisible byte hMem).2 (by decide)
  have hSome : encode64 bytes ≠ [] := by
    intro hNone
    have hLength := hStandard.length bytes
    rw [hNone, (encode_ok hEncode).2, layout_length] at hLength
    cases hLength
  let word := (encode64 bytes).map fun byte => Char.ofNat byte.toNat
  have hWord : Utf8.encode (String.ofList word) = encode64 bytes := Utf8.encode_ascii hAscii
  have hLine : encode64 bytes ++ 0x20 :: Utf8.encode comment =
      Utf8.encode (String.ofList word ++ (" " ++ comment)) := by
    rw [Utf8.encode_append, Utf8.encode_append, hWord]
    rfl
  have hFirst : Text.firstWord (String.ofList word ++ (" " ++ comment)) = some (String.ofList word) := by
    refine Text.firstWord_append (by simpa [word] using hSome) ?_ comment
    intro c hMem
    obtain ⟨byte, hByte, rfl⟩ := List.mem_map.mp hMem
    exact not_whitespace (hVisible byte hByte)
  refine ⟨encode64 bytes ++ 0x20 :: Utf8.encode comment, by rw [encodeLine, hEncode]; rfl, ?_⟩
  rw [decodeLine, hLine, Utf8.text_encode, hFirst]
  simp only [hWord, hStandard.inverse, ok_bind]
  exact decode_of_encode hNew hEncode

/-- Encoding gives what Android expects for the keys that it takes, and fails for
all others; a key that the RSA library accepts is decoded from its encoding and from
its line, and nothing but an encoding is decoded. -/
theorem pubkey_exact {new : Nat → Nat → Result RsaPublicKey} {encode64 : Bytes → Bytes}
    {decode64 : Bytes → Result Bytes} (hNew : ∀ n e key, new n e = .ok key → key = ⟨n, e⟩)
    (hStandard : Standard encode64 decode64) :
    (∀ n0 : UInt32, n0 % 2 = 1 → n0 * n0inv n0 = 0 - 1) ∧
    (∀ key, Suitable key → ∃ k : UInt32, (key.n * k.toNat + 1) % 2 ^ 32 = 0 ∧
      encode key = .ok (layout key k) ∧ (layout key k).length = 524) ∧
    (∀ key, ¬Suitable key → ∃ message, encode key = .error (.key message)) ∧
    (∀ key accepted bytes, new key.n key.e = .ok accepted → encode key = .ok bytes → decode new bytes = .ok key ∧
      ∀ comment, ∃ line, encodeLine encode64 key (Utf8.encode comment) = .ok line ∧
        decodeLine new decode64 line = .ok key) ∧
    ∀ bytes key, decode new bytes = .ok key → encode key = .ok bytes := by
  refine ⟨fun n0 hOdd => n0inv_inverse hOdd, fun key hKey => ?_, fun key hKey => encode_of_unsuitable hKey,
    fun key accepted bytes hAccepted hEncode => ?_, fun bytes key hDecode => encode_of_decode hDecode⟩
  · exact ⟨_, montgomery_word hKey.2.1, encode_of_suitable hKey, layout_length _ _⟩
  · obtain rfl : accepted = key := hNew _ _ _ hAccepted
    exact ⟨decode_of_encode hAccepted hEncode, fun comment =>
      decodeLine_of_encodeLine hStandard comment hAccepted hEncode⟩

/-- The bounds within which the RSA library accepts a public key. -/
def newBounded (n e : Nat) : Result RsaPublicKey :=
  if bits n ≤ 4096 ∧ 2 ≤ e ∧ e < 2 ^ 33 then .ok ⟨n, e⟩ else .error (.key "public key out of bounds")

def decodeStandard (text : Bytes) : Result Bytes := (Base64.decode text).elim (.error (.key "invalid base64")) .ok

theorem standard_base64 : Standard Base64.encode decodeStandard where
  inverse := fun bytes => by rw [decodeStandard, Base64.decode_encode, Option.elim_some]
  length := Base64.length_encode
  visible := fun bytes byte hMem => Base64.visible_of_mem_encode hMem

theorem pubkey_exact_smallest : ∃ line, encodeLine Base64.encode ⟨2 ^ 2047 + 1, 65537⟩ (Utf8.encode "user@host") =
    .ok line ∧ decodeLine newBounded decodeStandard line = .ok ⟨2 ^ 2047 + 1, 65537⟩ := by
  have hNew : ∀ n e key, newBounded n e = .ok key → key = ⟨n, e⟩ := by
    intro n e key h
    unfold newBounded at h
    split_ifs at h
    exact (Except.ok.inj h).symm
  obtain ⟨-, hLayout, -, hBack, -⟩ := pubkey_exact hNew standard_base64
  obtain ⟨k, -, hEncode, -⟩ := hLayout ⟨2 ^ 2047 + 1, 65537⟩ (by unfold Suitable; decide +kernel)
  exact (hBack _ ⟨2 ^ 2047 + 1, 65537⟩ _ (by decide +kernel) hEncode).2 "user@host"

end Rsadb.Pubkey
