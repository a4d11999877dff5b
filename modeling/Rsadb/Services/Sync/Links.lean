import Rsadb.Services.Sync.Exchange
import Rsadb.Library.FileTree

/-! Both versions of a stat, asked of a device whose file system has symbolic
links. The first version is answered for the link, the second for what the link
leads to. -/
namespace Rsadb.Sync

open ChannelReader

/-- What a device knows of a file. Its size and time fit in 32 bits. -/
structure FileInfo where
  mode : UInt32
  size : UInt64
  mtime : Int64
  detail : StatDetail
  size_fits : size.toNat < 2 ^ 32
  mtime_past : 0 ≤ mtime.toInt
  mtime_fits : mtime.toInt < 2 ^ 32

/-- The file type that a mode has to name. -/
def fileType {Inode : Type} : FileTree.Node Inode Bytes FileInfo → UInt32
  | .file _ => S_IFREG
  | .directory .. => S_IFDIR
  | .link .. => S_IFLNK

/-- The file system of a device: every mode names the type of its file. -/
structure DeviceFs (Inode : Type) where
  tree : FileTree Inode Bytes FileInfo
  typed : ∀ inode, (tree.node inode).info.mode &&& S_IFMT = fileType (tree.node inode)

/-- The names of a path. One that ends in a slash is that of a directory, and is
resolved as if a dot stood behind the slash. -/
def pathNames (path : Bytes) : FileTree.Path Bytes where
  absolute := path.head? == some 47
  names := (path.splitOn 47).filter (· != []) ++ if path.getLast? = some 47 then [ascii "."] else []

/-- The error numbers `ENOENT`, `ENOTDIR` and `ELOOP`. -/
def errno : FileTree.Failure → UInt32
  | .missing => 2
  | .notDirectory => 20
  | .loop => 40

namespace DeviceFs

variable {Inode : Type}

/-- `stat` or `lstat` of a path. Nothing but the error is reported of one that is not found. -/
def statOf (fs : DeviceFs Inode) (follow : Bool) (path : Bytes) : Stat :=
  match fs.tree.lookup follow (pathNames path) with
  | .ok node => ⟨node.info.mode, node.info.size, node.info.mtime, some 0, some node.info.detail⟩
  | .error failure => ⟨0, 0, 0, some (errno failure), none⟩

/-- The answer to a stat request: `STAT` is lstat, `STA2` follows links, `LST2` is
a second-version lstat. -/
def reply (fs : DeviceFs Inode) (want path : Bytes) : Bytes :=
  if want = id.STA2 then encodeStatV2 id.STA2 (fs.statOf true path)
  else if want = id.LST2 then encodeStatV2 id.LST2 (fs.statOf false path)
  else encodeStatV1 id.STAT (fs.statOf false path)

/-- The last name of the path is that of a symbolic link. -/
def NamesLink (fs : DeviceFs Inode) (path : Bytes) : Prop :=
  ∃ node, fs.tree.lookup false (pathNames path) = .ok node ∧ node.isLink = true

/-- The reader's channel takes requests, and the device's reply stands first in it. -/
def Answers (fs : DeviceFs Inode) (want path : Bytes) (reader : ChannelReader) : Prop :=
  reader.Accepts ∧ ∃ tail rest, reader.HoldsBefore tail (fs.reply want path ++ rest)

/-- A reader whose device has answered and closed the stream. -/
def answering (fs : DeviceFs Inode) (want path : Bytes) : ChannelReader :=
  ⟨⟨[.ok (fs.reply want path)], true, [], fun _ => none, false⟩, []⟩

theorem answering_answers (fs : DeviceFs Inode) (want path : Bytes) :
    fs.Answers want path (fs.answering want path) :=
  ⟨fun _ => rfl, [], [], [fs.reply want path], rfl, by simp [answering]⟩

end DeviceFs

/-- What a first-version answer says of a file. -/
def reportV1 (stat : Stat) : Stat := ⟨stat.mode, stat.size, stat.mtime, none, none⟩

/-- What a second-version answer says of it. -/
def reportV2 (stat : Stat) : Stat :=
  ⟨stat.mode, stat.size, stat.mtime, some (stat.error.getD 0), some (stat.detail.getD .default)⟩

/-- The same existence, mode, size and time. -/
def SameReport (old new : Stat) : Prop :=
  old.exists = new.exists ∧ old.mode = new.mode ∧ old.size = new.size ∧ old.mtime = new.mtime

section

variable {Inode : Type} {fs : DeviceFs Inode} {path : Bytes} {features : SyncFeatures}
  {reader : ChannelReader}

/-- What is looked up has a size and a time that a first-version block has room for. -/
theorem statOf_fits (fs : DeviceFs Inode) (follow : Bool) (path : Bytes) :
    (sizeV1 (fs.statOf follow path).size).toUInt64 = (fs.statOf follow path).size ∧
    (mtimeV1 (fs.statOf follow path).mtime).toUInt64.toInt64 = (fs.statOf follow path).mtime := by
  unfold DeviceFs.statOf
  split
  · rename_i node hNode
    exact ⟨sizeV1_fits node.info.size_fits, mtimeV1_fits node.info.mtime_past node.info.mtime_fits⟩
  · exact ⟨@sizeV1_fits 0 (by decide), @mtimeV1_fits 0 (by decide) (by decide)⟩

/-- A stat sends its request and parses the block that it finds. -/
theorem stat_run {want block rest : Bytes} {tail : List (Result Bytes)} {len : Nat}
    {parse : Bytes → Stat} (hAccepts : reader.Accepts) (hPath : path.length < 2 ^ 32)
    (hWant : want.length = 4) (hId : block.take 4 = want) (hLength : block.length = len)
    (hReply : reader.HoldsBefore tail (block ++ rest)) : ∃ next,
    (do
      let request ← Async.lift (request want path)
      send request
      let b ← readExact len
      Async.lift (expectId b want)
      pure (parse b) : Async Error ChannelReader Stat) reader = (some (.ok (parse block)), next) := by
  have hBlock : want ++ block.drop 4 = block := by
    rw [← hId, List.take_append_drop]
  have hBody : (block.drop 4).length + 4 = len := by
    have hWhole := congrArg List.length hBlock
    rw [List.length_append] at hWhole
    omega
  have hRequest : request want path = .ok (want ++ toLeBytes (UInt32.ofNat path.length) ++ path) :=
    if_pos hPath
  obtain ⟨next, hRun, -⟩ := statBlock_consumes hWant hBody parse
    (reader.afterSending [want ++ toLeBytes (UInt32.ofNat path.length) ++ path]) rest (by
      rw [hBlock, holdsBefore_afterSending]
      exact hReply)
  refine ⟨next, ?_⟩
  rw [hRequest, Async.lift_bind, Async.bind_ok (send_accepted hAccepts _), hRun, hBlock]

/-- Without the second version a stat is an lstat. -/
theorem stat_old (hPath : path.length < 2 ^ 32) (hV1 : features.statV2 = false)
    (h : fs.Answers id.STAT path reader) : ∃ next, SyncClient.stat features path reader =
      (some (.ok (reportV1 (fs.statOf false path))), next) := by
  obtain ⟨hAccepts, tail, rest, hReply⟩ := h
  obtain ⟨hSize, hTime⟩ := statOf_fits fs false path
  have hRead := @statV1_encodeStatV1 id.STAT rfl (fs.statOf false path) []
  rw [List.append_nil, hSize, hTime] at hRead
  rw [SyncClient.stat, hV1, reportV1, ← hRead]
  exact stat_run hAccepts hPath rfl (encodeStatV1_id rfl _) (encodeStatV1_length rfl _) hReply

/-- With it links are followed. -/
theorem stat_new (hPath : path.length < 2 ^ 32) (hV2 : features.statV2 = true)
    (h : fs.Answers id.STA2 path reader) : ∃ next, SyncClient.stat features path reader =
      (some (.ok (reportV2 (fs.statOf true path))), next) := by
  obtain ⟨hAccepts, tail, rest, hReply⟩ := h
  have hRead := @statV2_encodeStatV2 id.STA2 rfl (fs.statOf true path) []
  rw [List.append_nil] at hRead
  rw [SyncClient.stat, hV2, reportV2, ← hRead]
  exact stat_run hAccepts hPath rfl (encodeStatV2_id rfl _) (encodeStatV2_length rfl _) hReply

/-- Whether a path exists is told by the mode as well as by the error. -/
theorem exists_statOf (fs : DeviceFs Inode) (follow : Bool) (path : Bytes) :
    (reportV1 (fs.statOf follow path)).exists = (reportV2 (fs.statOf follow path)).exists := by
  unfold DeviceFs.statOf
  split
  · simp [reportV1, reportV2, Stat.exists]
  · simp [reportV1, reportV2, Stat.exists]

/-- Where the last name is not that of a link, both lookups give the same. -/
theorem statOf_follow (h : ¬fs.NamesLink path) : fs.statOf true path = fs.statOf false path := by
  rcases fs.tree.lookup_follow (pathNames path) with hSame | hLink
  · rw [DeviceFs.statOf, hSame, DeviceFs.statOf]
  · exact absurd hLink h

/-- What is found has the type that its mode names. -/
theorem lookup_typed {follow : Bool} {node : FileTree.Node Inode Bytes FileInfo}
    (h : fs.tree.lookup follow (pathNames path) = .ok node) :
    node.info.mode &&& S_IFMT = fileType node := by
  obtain ⟨inode, rfl⟩ := FileTree.exists_inode h
  exact fs.typed inode

/-- Asked for a second-version lstat, the device reports what it does in the first version. -/
theorem lstat_same (fs : DeviceFs Inode) (path : Bytes) :
    SameReport (statV1 (fs.reply id.STAT path)) (statV2 (fs.reply id.LST2 path)) := by
  obtain ⟨hSize, hTime⟩ := statOf_fits fs false path
  have hOld := @statV1_encodeStatV1 id.STAT rfl (fs.statOf false path) []
  have hNew := @statV2_encodeStatV2 id.LST2 rfl (fs.statOf false path) []
  rw [List.append_nil, hSize, hTime] at hOld
  rw [List.append_nil] at hNew
  rw [show fs.reply id.STAT path = encodeStatV1 id.STAT (fs.statOf false path) from rfl, hOld,
    show fs.reply id.LST2 path = encodeStatV2 id.LST2 (fs.statOf false path) from rfl, hNew]
  exact ⟨exists_statOf fs false path, rfl, rfl, rfl⟩

theorem fileType_eq_link_iff {node : FileTree.Node Inode Bytes FileInfo} :
    fileType node = S_IFLNK ↔ node.isLink = true := by
  cases node with
  | file info => exact iff_of_false (show S_IFREG ≠ S_IFLNK by decide) Bool.false_ne_true
  | directory info entries => exact iff_of_false (show S_IFDIR ≠ S_IFLNK by decide) Bool.false_ne_true
  | link info target => exact iff_of_true rfl rfl

/-- A link and what it leads to differ in their modes. -/
theorem statOf_link (h : fs.NamesLink path) :
    (fs.statOf true path).mode ≠ (fs.statOf false path).mode := by
  obtain ⟨node, hNode, hLink⟩ := h
  have hOld : (fs.statOf false path).mode &&& S_IFMT = S_IFLNK := by
    rw [DeviceFs.statOf, hNode]
    exact (lookup_typed hNode).trans (fileType_eq_link_iff.mpr hLink)
  have hNew : (fs.statOf true path).mode &&& S_IFMT ≠ S_IFLNK := by
    rw [DeviceFs.statOf]
    cases hTarget : fs.tree.lookup true (pathNames path) with
    | error failure =>
        show (0 : UInt32) &&& S_IFMT ≠ S_IFLNK
        decide
    | ok target =>
        intro hType
        have hFollowed := fileType_eq_link_iff.mp ((lookup_typed hTarget).symm.trans hType)
        rw [FileTree.lookup_not_link hTarget] at hFollowed
        cases hFollowed
  intro hSame
  exact hNew (hSame ▸ hOld)

end

/-- A stat with and without the second version reports the same existence, mode,
size and time exactly where the last name of the path is not that of a symbolic
link: the first version reports what an lstat does, the second what a stat does.
A path too long for a request is refused alike. -/
theorem stat_same_iff {Inode : Type} {fs : DeviceFs Inode} {path : Bytes}
    {oldFeatures newFeatures : SyncFeatures} {old new : ChannelReader}
    (hV1 : oldFeatures.statV2 = false) (hV2 : newFeatures.statV2 = true)
    (hOld : fs.Answers id.STAT path old) (hNew : fs.Answers id.STA2 path new) :
    (path.length < 2 ^ 32 → ∃ before after,
      (SyncClient.stat oldFeatures path old).1 = some (.ok before) ∧
      (SyncClient.stat newFeatures path new).1 = some (.ok after) ∧
      before = reportV1 (fs.statOf false path) ∧ after = reportV2 (fs.statOf true path) ∧
      (SameReport before after ↔ ¬fs.NamesLink path)) ∧
    (2 ^ 32 ≤ path.length → ∃ e, (SyncClient.stat oldFeatures path old).1 = some (.error e) ∧
      (SyncClient.stat newFeatures path new).1 = some (.error e)) := by
  constructor
  · intro hPath
    obtain ⟨_, hBefore⟩ := stat_old hPath hV1 hOld
    obtain ⟨_, hAfter⟩ := stat_new hPath hV2 hNew
    refine ⟨_, _, congrArg Prod.fst hBefore, congrArg Prod.fst hAfter, rfl, rfl, ?_⟩
    constructor
    · rintro ⟨-, hMode, -⟩ hLink
      exact statOf_link hLink hMode.symm
    · intro hNoLink
      rw [statOf_follow hNoLink]
      refine ⟨?_, rfl, rfl, rfl⟩
      exact exists_statOf fs false path
  · intro hLong
    have hRequest : ∀ want, request want path = .error (.invalidArgument "path longer than u32::MAX") :=
      fun want => if_neg (Nat.not_lt.mpr hLong)
    refine ⟨.invalidArgument "path longer than u32::MAX", ?_, ?_⟩
    · rw [SyncClient.stat, hV1, hRequest id.STAT]
      rfl
    · rw [SyncClient.stat, hV2, hRequest id.STA2]
      rfl

/-- A device with a directory `/sdcard`, and a link `/s` to it. -/
def linkedFs : DeviceFs (Fin 3) where
  tree := {
    node := fun
      | 0 => .directory ⟨0o040755, 0, 0, .default, by decide, by decide, by decide⟩ fun name =>
          if name = ascii "sdcard" then some 1 else if name = ascii "s" then some 2 else none
      | 1 => .directory ⟨0o040770, 4096, 1700000000, .default, by decide, by decide, by decide⟩
          fun _ => none
      | 2 => .link ⟨0o120777, 7, 0, .default, by decide, by decide, by decide⟩
          ⟨true, [ascii "sdcard"]⟩
    root := 0
    limit := 40
    root_not_link := rfl }
  typed := by decide

/-- Of the directory both versions report the same. -/
theorem stat_same_directory : ∃ before after,
    (SyncClient.stat ⟨false, false, false⟩ (ascii "/sdcard")
      (linkedFs.answering id.STAT (ascii "/sdcard"))).1 = some (.ok before) ∧
    (SyncClient.stat ⟨false, true, false⟩ (ascii "/sdcard")
      (linkedFs.answering id.STA2 (ascii "/sdcard"))).1 = some (.ok after) ∧
    SameReport before after := by
  have hNoLink : ¬linkedFs.NamesLink (ascii "/sdcard") := by
    rintro ⟨node, hNode, hLink⟩
    cases hNode
    cases hLink
  obtain ⟨before, after, hBefore, hAfter, -, -, hSame⟩ := (@stat_same_iff _ linkedFs (ascii "/sdcard")
    ⟨false, false, false⟩ ⟨false, true, false⟩ _ _ rfl rfl (linkedFs.answering_answers _ _)
    (linkedFs.answering_answers _ _)).1 (by decide)
  exact ⟨before, after, hBefore, hAfter, hSame.mpr hNoLink⟩

/-- Of the link the first version reports a link, the second a directory. -/
theorem stat_link_differs : ∃ before after,
    (SyncClient.stat ⟨false, false, false⟩ (ascii "/s")
      (linkedFs.answering id.STAT (ascii "/s"))).1 = some (.ok before) ∧
    (SyncClient.stat ⟨false, true, false⟩ (ascii "/s")
      (linkedFs.answering id.STA2 (ascii "/s"))).1 = some (.ok after) ∧
    before.isDir = false ∧ after.isDir = true ∧ ¬SameReport before after := by
  obtain ⟨_, hBefore⟩ := @stat_old _ linkedFs (ascii "/s") ⟨false, false, false⟩ _ (by decide) rfl
    (linkedFs.answering_answers _ _)
  obtain ⟨_, hAfter⟩ := @stat_new _ linkedFs (ascii "/s") ⟨false, true, false⟩ _ (by decide) rfl
    (linkedFs.answering_answers _ _)
  refine ⟨_, _, congrArg Prod.fst hBefore, congrArg Prod.fst hAfter, rfl, rfl, ?_⟩
  rintro ⟨-, hMode, -⟩
  revert hMode
  decide

end Rsadb.Sync
