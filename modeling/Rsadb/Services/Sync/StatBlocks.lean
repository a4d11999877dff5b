import Rsadb.Services.Sync.Codec

/-! Stat blocks of both versions against everything that may stand in one. The
decoder and the encoder are inverse to each other, so no two fields share a byte
and no byte is skipped. -/
namespace Rsadb.Sync

section

variable {bytes : Bytes} {offset : Nat}

/-- Behind what stands in front of it, a field is written back where it was read. -/
theorem take_u32At (h : offset + 4 ≤ bytes.length) :
    bytes.take offset ++ toLeBytes (u32At bytes offset) = bytes.take (offset + 4) :=
  take_word h

theorem take_u64At (h : offset + 8 ≤ bytes.length) :
    bytes.take offset ++ u64ToLeBytes (u64At bytes offset) = bytes.take (offset + 8) := by
  have hEight : ((bytes.drop offset).take 8).length = 8 := by
    rw [List.length_take, List.length_drop]
    omega
  have hFits : LittleEndian.value ((bytes.drop offset).take 8) < UInt64.size := by
    simpa [hEight] using LittleEndian.value_lt ((bytes.drop offset).take 8)
  have hField : LittleEndian.encode 8 (LittleEndian.value ((bytes.drop offset).take 8)) =
      (bytes.drop offset).take 8 := by
    simpa only [hEight] using LittleEndian.encode_value ((bytes.drop offset).take 8)
  rw [u64ToLeBytes, u64At, UInt64.toNat_ofNat_of_lt' hFits, hField, List.take_add]

theorem take_i64At (h : offset + 8 ≤ bytes.length) :
    bytes.take offset ++ i64ToLeBytes (i64At bytes offset) = bytes.take (offset + 8) := by
  rw [i64ToLeBytes, i64At, UInt64.toUInt64_toInt64]
  exact take_u64At h

end

/-- What a first-version block says fits into one. -/
theorem sizeV1_toUInt64 (size : UInt32) : sizeV1 size.toUInt64 = size := by
  have hFits : size.toUInt64.toNat < 2 ^ 32 := by
    rw [UInt32.toNat_toUInt64]
    exact size.toNat_lt
  rw [sizeV1, if_pos hFits, UInt32.toNat_toUInt64, UInt32.ofNat_toNat]

theorem mtimeV1_toInt64 (mtime : UInt32) : mtimeV1 mtime.toUInt64.toInt64 = mtime := by
  have hSmall := mtime.toNat_lt
  have hInt : mtime.toUInt64.toInt64.toInt = mtime.toNat := by
    rw [← UInt64.ofNat_toNat (x := mtime.toUInt64), UInt64.toInt64_ofNat', UInt32.toNat_toUInt64,
      Int64.toInt_ofNat_of_lt (by omega)]
  rw [mtimeV1, if_pos (by omega), hInt, Int.toNat_natCast, UInt32.ofNat_toNat]

/-- What a block of the second version says is written back as that block. -/
theorem encodeStatV2_statV2 {bytes : Bytes} (h : bytes.length = STAT_V2_LEN) :
    encodeStatV2 (bytes.take 4) (statV2 bytes) = bytes := by
  have hLong : bytes.length = 72 := h
  simp only [encodeStatV2, statV2, Option.getD_some]
  rw [take_u32At (by omega), take_u64At (by omega), take_u64At (by omega), take_u32At (by omega),
    take_u32At (by omega), take_u32At (by omega), take_u32At (by omega), take_u64At (by omega),
    take_i64At (by omega), take_i64At (by omega), take_i64At (by omega),
    List.take_of_length_le (by omega)]

theorem encodeStatV1_statV1 {bytes : Bytes} (h : bytes.length = STAT_V1_LEN) :
    encodeStatV1 (bytes.take 4) (statV1 bytes) = bytes := by
  have hLong : bytes.length = 16 := h
  simp only [encodeStatV1, statV1, sizeV1_toUInt64, mtimeV1_toInt64]
  rw [take_u32At (by omega), take_u32At (by omega), take_u32At (by omega),
    List.take_of_length_le (by omega)]

/-- Stat blocks of both versions round trip, from the stat and from the bytes. In
the first version the size and the time must fit in 32 bits. -/
theorem stat_blocks_exact :
    (∀ (id : Bytes) (stat : Stat), id.length = 4 → stat.error.isSome → stat.detail.isSome →
      (encodeStatV2 id stat).length = 72 ∧ statV2 (encodeStatV2 id stat) = stat) ∧
    (∀ bytes : Bytes, bytes.length = 72 → encodeStatV2 (bytes.take 4) (statV2 bytes) = bytes) ∧
    (∀ (id : Bytes) (stat : Stat), id.length = 4 → stat.error = none → stat.detail = none →
      stat.size.toNat < 2 ^ 32 → 0 ≤ stat.mtime.toInt → stat.mtime.toInt < 2 ^ 32 →
      (encodeStatV1 id stat).length = 16 ∧ statV1 (encodeStatV1 id stat) = stat) ∧
    ∀ bytes : Bytes, bytes.length = 16 → encodeStatV1 (bytes.take 4) (statV1 bytes) = bytes := by
  refine ⟨?_, fun bytes h => encodeStatV2_statV2 h, ?_, fun bytes h => encodeStatV1_statV1 h⟩
  · rintro id ⟨mode, size, mtime, error, detail⟩ hId hError hDetail
    obtain ⟨errno, rfl⟩ := Option.isSome_iff_exists.mp hError
    obtain ⟨fields, rfl⟩ := Option.isSome_iff_exists.mp hDetail
    refine ⟨encodeStatV2_length hId _, ?_⟩
    have hRead := statV2_encodeStatV2 hId ⟨mode, size, mtime, some errno, some fields⟩ []
    rwa [List.append_nil] at hRead
  · rintro id ⟨mode, size, mtime, error, detail⟩ hId rfl rfl hSize hPast hFits
    refine ⟨encodeStatV1_length hId _, ?_⟩
    have hRead := statV1_encodeStatV1 hId ⟨mode, size, mtime, none, none⟩ []
    rwa [List.append_nil, sizeV1_fits hSize, mtimeV1_fits hPast hFits] at hRead

end Rsadb.Sync
