import Rsadb.Services.Sync.Isolation

/-! Directory listings. A device emulator encodes each entry in one of the two
stat layouts and pads the word behind the last one to the size of a header. The
client reads back the same entries from either layout, except that the first
has room for 32 bits of size and time only. -/
namespace Rsadb.Sync

open ChannelReader

/-- A file as the device knows it. A length field has 32 bits, so no name is longer. -/
structure File where
  name : String
  stat : Stat
  nameFits : (Utf8.encode name).length < 2 ^ 32

/-- The fields of a directory entry between its id and the length of its name. -/
def dentBody (features : SyncFeatures) (stat : Stat) : Bytes :=
  if features.lsV2 then encodeStatV2 [] stat else encodeStatV1 [] stat

/-- One directory entry: an encoded stat, the length of the name and the name. -/
def dentOf (features : SyncFeatures) (file : File) : Bytes :=
  (if features.lsV2 then encodeStatV2 id.DNT2 file.stat else encodeStatV1 id.DENT file.stat) ++
    toLeBytes (UInt32.ofNat (Utf8.encode file.name).length) ++ Utf8.encode file.name

/-- The reply to a list request: the entries, and a padded word behind them. -/
def listing (features : SyncFeatures) (files : List File) (padding : Bytes) : Bytes :=
  files.flatMap (dentOf features) ++ (id.DONE ++ padding)

/-- What a listing says about a file. -/
def File.entry (file : File) : Entry :=
  ⟨Utf8.encode file.name, file.stat.mode, file.stat.size, file.stat.mtime⟩

/-- What a first-version listing says about a file. -/
def File.entryV1 (file : File) : Entry :=
  ⟨Utf8.encode file.name, file.stat.mode, (sizeV1 file.stat.size).toUInt64,
    (mtimeV1 file.stat.mtime).toUInt64.toInt64⟩

/-- The size and the time of the file fit a first-version stat. -/
def File.FitsV1 (file : File) : Prop :=
  file.stat.size.toNat < 2 ^ 32 ∧ 0 ≤ file.stat.mtime.toInt ∧ file.stat.mtime.toInt < 2 ^ 32

/-- A size or a time that fits is not changed. -/
theorem File.entryV1_eq {file : File} (h : file.FitsV1) : file.entryV1 = file.entry := by
  obtain ⟨hSize, hPast, hMtime⟩ := h
  rw [entryV1, entry, sizeV1_fits hSize, mtimeV1_fits hPast hMtime]

/-- The encoded entry is a well-formed one, and the client parses it back. -/
private theorem dentOf_spec (features : SyncFeatures) (file : File) :
    dentOf features file = dentFrame features (dentBody features file.stat, Utf8.encode file.name) ∧
    (dentBody features file.stat).length + 8 = (SyncClient.dent features).2 ∧
    Reply.entryOf features (dentBody features file.stat, Utf8.encode file.name) =
      if features.lsV2 then file.entry else file.entryV1 := by
  by_cases hV2 : features.lsV2
  · have hBody : encodeStatV2 id.DNT2 file.stat = id.DNT2 ++ encodeStatV2 [] file.stat := by
      simp [encodeStatV2]
    refine ⟨?_, ?_, ?_⟩
    · simp only [dentOf, dentFrame, dentHeader, dentBody, SyncClient.dent, if_pos hV2, hBody]
    · simp [dentBody, SyncClient.dent, hV2, encodeStatV2, DENT_V2_LEN]
    · simp only [Reply.entryOf, Sync.entry, SyncClient.dentStat, dentHeader, dentBody,
        SyncClient.dent, if_pos hV2, ← hBody, statV2_encodeStatV2 (show id.DNT2.length = 4 by decide),
        Utf8.lossy_encode, File.entry]
  · have hBody : encodeStatV1 id.DENT file.stat = id.DENT ++ encodeStatV1 [] file.stat := by
      simp [encodeStatV1]
    refine ⟨?_, ?_, ?_⟩
    · simp only [dentOf, dentFrame, dentHeader, dentBody, SyncClient.dent, if_neg hV2, hBody]
    · simp [dentBody, SyncClient.dent, hV2, encodeStatV1, DENT_V1_LEN]
    · simp only [Reply.entryOf, Sync.entry, SyncClient.dentStat, dentHeader, dentBody,
        SyncClient.dent, if_neg hV2, ← hBody, statV1_encodeStatV1 (show id.DENT.length = 4 by decide),
        Utf8.lossy_encode, File.entryV1]

/-- What the client makes of a file's entry. -/
def File.listed (features : SyncFeatures) (file : File) : Entry :=
  if features.lsV2 then file.entry else file.entryV1

/-- The client has asked for the directory, and the reply is on its way, however it is cut. -/
structure Serving (features : SyncFeatures) (path : Bytes) (files : List File)
    (reader : ChannelReader) : Prop where
  sent : (Call.list path).Delivered features reader
  reply : ∃ padding rest : Bytes, padding.length + 4 = (SyncClient.dent features).2 ∧
    reader.Holds (listing features files padding ++ rest)

/-- A listing yields one entry for each file, in order. -/
theorem Serving.list {features : SyncFeatures} {path : Bytes} {files : List File}
    {reader : ChannelReader} (h : Serving features path files reader) :
    (SyncClient.list features path reader).1 = some (.ok (files.map (File.listed features))) := by
  obtain ⟨hSent, padding, rest, hPadding, hHolds⟩ := h
  obtain ⟨tail, hBefore⟩ := holds_iff.mp hHolds
  let dents := files.map fun file => (dentBody features file.stat, Utf8.encode file.name)
  have hReply : listing features files padding =
      (Reply.listing dents padding).encode features := by
    have hDents : dentOf features = fun file =>
        dentFrame features (dentBody features file.stat, Utf8.encode file.name) :=
      funext fun file => (dentOf_spec features file).1
    simp only [listing, Reply.encode, dents, List.flatMap_map, hDents]
  have hEntries : dents.map (Reply.entryOf features) = files.map (File.listed features) := by
    rw [List.map_map]
    exact List.map_congr_left fun file _ => (dentOf_spec features file).2.2
  have hAnswers : (Reply.listing dents padding).Answers features (.list path) := by
    refine ⟨hPadding, ?_⟩
    simp only [dents, List.mem_map]
    rintro dent ⟨file, -, rfl⟩
    exact ⟨(dentOf_spec features file).2.1, file.nameFits⟩
  rw [hReply] at hBefore
  obtain ⟨next, hRun, -⟩ := answer_consumes hAnswers trivial _ rest
    (Call.request_keeps features (.list path) _ reader hBefore)
  rw [← Call.exec_delivered hSent] at hRun
  obtain ⟨entries, middle, hList, hPure⟩ := Async.bind_eq_ok hRun
  have hSame : entries = dents.map (Reply.entryOf features) :=
    Outcome.listing.inj (Except.ok.inj (Option.some.inj (congrArg Prod.fst hPure)))
  rw [hList, hSame, hEntries]

/-- A second-version listing gives every file as the device knows it. A
first-version listing does so too, except for a size that does not fit in 32
bits, which is given as the largest that does, and a time that does not, which
is given as zero. Where all fit, the two are equal. -/
theorem listing_round_trip {old new : SyncFeatures} (hOld : old.lsV2 = false)
    (hNew : new.lsV2 = true) {path : Bytes} {files : List File} {readerV1 readerV2 : ChannelReader}
    (hV1 : Serving old path files readerV1) (hV2 : Serving new path files readerV2) :
    (SyncClient.list new path readerV2).1 = some (.ok (files.map File.entry)) ∧
    (SyncClient.list old path readerV1).1 = some (.ok (files.map File.entryV1)) ∧
    (∀ file : File, file.FitsV1 → file.entryV1 = file.entry) ∧
    ((∀ file ∈ files, file.FitsV1) →
      (SyncClient.list old path readerV1).1 = (SyncClient.list new path readerV2).1) := by
  have hListed : File.listed new = File.entry := by
    funext file
    rw [File.listed, if_pos hNew]
  have hListedV1 : File.listed old = File.entryV1 := by
    funext file
    rw [File.listed, if_neg (by simp [hOld])]
  rw [hV1.list, hV2.list, hListed, hListedV1]
  refine ⟨rfl, rfl, fun _ => File.entryV1_eq, fun hFits => ?_⟩
  have hSame : files.map File.entryV1 = files.map File.entry :=
    List.map_congr_left fun file hFile => File.entryV1_eq (hFits file hFile)
  rw [hSame]

/-- A client that has not asked yet, and whose device sends two chunks, the first of
thirty bytes. -/
private def asking (reply : Bytes) : ChannelReader :=
  ⟨⟨[.ok (reply.take 30), .ok (reply.drop 30)], false, [], fun _ => none, false⟩, []⟩

private theorem asking_serving {features : SyncFeatures} {path : Bytes} {files : List File}
    {padding : Bytes} (hPath : path.length < 2 ^ 32)
    (hPadding : padding.length + 4 = (SyncClient.dent features).2) :
    Serving features path files (asking (listing features files padding)) := by
  refine ⟨?_, padding, [], hPadding,
    [(listing features files padding).take 30, (listing features files padding).drop 30], [], rfl, by simp [asking]⟩
  simp only [Call.Delivered, Call.request, request, if_pos hPath]
  rfl

private def twoFiles : List File :=
  [⟨"a", ⟨33188, 5, 7, none, none⟩, by decide⟩, ⟨"bin", ⟨16877, 4096, 1700000000, none, none⟩, by decide⟩]

/-- A directory of two files, listed in both versions, cut inside an entry. -/
theorem listing_round_trip_two_files :
    (SyncClient.list ⟨false, false, false⟩ [47] (asking (listing ⟨false, false, false⟩ twoFiles
        (List.replicate 16 0)))).1 =
      (SyncClient.list ⟨true, false, false⟩ [47] (asking (listing ⟨true, false, false⟩ twoFiles
        (List.replicate 72 0)))).1 :=
  (listing_round_trip rfl rfl (asking_serving (by decide) (by decide))
    (asking_serving (by decide) (by decide))).2.2.2 (by
      rw [twoFiles, List.forall_mem_cons, List.forall_mem_singleton]
      exact ⟨⟨by decide, by decide, by decide⟩, by decide, by decide, by decide⟩)

/-- A file of four gigabytes is listed one byte short in the first version. -/
theorem large_file_listed_short :
    ¬∀ (features : SyncFeatures) (path : Bytes) (files : List File) (reader : ChannelReader),
      Serving features path files reader →
      (SyncClient.list features path reader).1 = some (.ok (files.map File.entry)) := by
  intro hClaim
  have hServing : Serving ⟨false, false, false⟩ [47]
      [⟨"a", ⟨33188, 4294967296, 7, none, none⟩, by decide⟩] (asking (listing ⟨false, false, false⟩
        [⟨"a", ⟨33188, 4294967296, 7, none, none⟩, by decide⟩] (List.replicate 16 0))) :=
    asking_serving (by decide) (by decide)
  have hSame := hClaim _ _ _ _ hServing
  rw [hServing.list] at hSame
  exact absurd (Except.ok.inj (Option.some.inj hSame)) (by decide)

end Rsadb.Sync
