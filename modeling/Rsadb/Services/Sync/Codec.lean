import Mathlib.Algebra.Group.Int.Defs
import Rsadb.Wire.Codec
import Rsadb.Library.Utf8

/-! Byte layouts of the `sync:` sub-protocol. Every message starts with a
four-character id. Requests are the id, the length of the path and the path;
replies have fixed layouts. -/
namespace Rsadb

/-- Extra fields only the second version of a stat block provides. -/
structure StatDetail where
  dev : UInt64
  ino : UInt64
  nlink : UInt32
  uid : UInt32
  gid : UInt32
  atime : Int64
  ctime : Int64
  deriving DecidableEq

/-- The derived default: every field is zero. -/
def StatDetail.default : StatDetail := ⟨0, 0, 0, 0, 0, 0, 0⟩

/-- Result of a stat request. -/
structure Stat where
  mode : UInt32
  size : UInt64
  mtime : Int64
  error : Option UInt32
  detail : Option StatDetail
  deriving DecidableEq

/-- File-type bits of a mode word. -/
def S_IFMT : UInt32 := 0o170000
def S_IFDIR : UInt32 := 0o040000
def S_IFREG : UInt32 := 0o100000
def S_IFLNK : UInt32 := 0o120000

/-- Whether the path exists: a mode that is not zero, and no error reported. -/
def Stat.exists (stat : Stat) : Bool := stat.mode != 0 && stat.error.all (· == 0)

def Stat.isDir (stat : Stat) : Bool := stat.mode &&& S_IFMT == S_IFDIR

/-- A directory entry. -/
structure Entry where
  name : Bytes
  mode : UInt32
  size : UInt64
  mtime : Int64
  deriving DecidableEq

namespace Sync

namespace id

def LIST : Bytes := ascii "LIST"
def LIS2 : Bytes := ascii "LIS2"
def DENT : Bytes := ascii "DENT"
def DNT2 : Bytes := ascii "DNT2"
def STAT : Bytes := ascii "STAT"
def STA2 : Bytes := ascii "STA2"
def LST2 : Bytes := ascii "LST2"
def RECV : Bytes := ascii "RECV"
def RCV2 : Bytes := ascii "RCV2"
def SEND : Bytes := ascii "SEND"
def SND2 : Bytes := ascii "SND2"
def DATA : Bytes := ascii "DATA"
def DONE : Bytes := ascii "DONE"
def OKAY : Bytes := ascii "OKAY"
def FAIL : Bytes := ascii "FAIL"
def QUIT : Bytes := ascii "QUIT"

end id

/-- Largest data chunk either side sends. -/
def DATA_MAX : Nat := 64 * 1024
def STAT_V1_LEN : Nat := 16
def STAT_V2_LEN : Nat := 72
/-- Size of a directory entry header, and of the word that ends a listing. -/
def DENT_V1_LEN : Nat := 20
def DENT_V2_LEN : Nat := 76

/-- Encode the id, the length of the path and the path. -/
def request (id path : Bytes) : Result Bytes :=
  if path.length < 2 ^ 32 then .ok (id ++ toLeBytes (UInt32.ofNat path.length) ++ path)
  else .error (.invalidArgument "path longer than u32::MAX")

/-- Encode an id and a word. -/
def word (id : Bytes) (value : UInt32) : Bytes := id ++ toLeBytes value

def u32At (bytes : Bytes) (offset : Nat) : UInt32 := Rsadb.word bytes offset

def u64At (bytes : Bytes) (offset : Nat) : UInt64 :=
  UInt64.ofNat (LittleEndian.value ((bytes.drop offset).take 8))

def i64At (bytes : Bytes) (offset : Nat) : Int64 := (u64At bytes offset).toInt64

/-- Parse the twelve bytes after the id in a first-version stat or entry. -/
def statV1 (bytes : Bytes) : Stat where
  mode := u32At bytes 4
  size := (u32At bytes 8).toUInt64
  mtime := (u32At bytes 12).toUInt64.toInt64
  error := none
  detail := none

/-- Parse a second-version stat, or the first 72 bytes of such an entry. -/
def statV2 (bytes : Bytes) : Stat where
  mode := u32At bytes 24
  size := u64At bytes 40
  mtime := i64At bytes 56
  error := some (u32At bytes 4)
  detail := some {
    dev := u64At bytes 8
    ino := u64At bytes 16
    nlink := u32At bytes 28
    uid := u32At bytes 32
    gid := u32At bytes 36
    atime := i64At bytes 48
    ctime := i64At bytes 64 }

def dentV1Namelen (bytes : Bytes) : Nat := (u32At bytes 16).toNat

def dentV2Namelen (bytes : Bytes) : Nat := (u32At bytes 72).toNat

/-- Build an entry from a parsed stat and its name bytes. -/
def entry (stat : Stat) (name : Bytes) : Entry :=
  ⟨Utf8.lossy name, stat.mode, stat.size, stat.mtime⟩

/-- Check the id that a reply starts with. -/
def expectId (bytes want : Bytes) : Result Unit :=
  if bytes.take 4 = want then .ok ()
  else .error (.protocol s!"expected {Utf8.text want} got {Utf8.text (bytes.take 4)}")

/-- `u64::to_le_bytes`. -/
def u64ToLeBytes (value : UInt64) : Bytes := LittleEndian.encode 8 value.toNat

/-- `i64::to_le_bytes`. -/
def i64ToLeBytes (value : Int64) : Bytes := u64ToLeBytes value.toUInt64

/-- The size that a first-version stat has room for. -/
def sizeV1 (size : UInt64) : UInt32 :=
  if size.toNat < 2 ^ 32 then UInt32.ofNat size.toNat else UInt32.ofNat (2 ^ 32 - 1)

/-- The time that a first-version stat has room for. -/
def mtimeV1 (mtime : Int64) : UInt32 :=
  if 0 ≤ mtime.toInt ∧ mtime.toInt < 2 ^ 32 then UInt32.ofNat mtime.toInt.toNat else 0

/-- Encode a first-version stat reply, as device emulators do. -/
def encodeStatV1 (id : Bytes) (stat : Stat) : Bytes :=
  id ++ toLeBytes stat.mode ++ toLeBytes (sizeV1 stat.size) ++ toLeBytes (mtimeV1 stat.mtime)

/-- Encode a second-version stat reply, as device emulators do. -/
def encodeStatV2 (id : Bytes) (stat : Stat) : Bytes :=
  let d := stat.detail.getD StatDetail.default
  id ++ toLeBytes (stat.error.getD 0) ++ u64ToLeBytes d.dev ++ u64ToLeBytes d.ino ++
    toLeBytes stat.mode ++ toLeBytes d.nlink ++ toLeBytes d.uid ++ toLeBytes d.gid ++
    u64ToLeBytes stat.size ++ i64ToLeBytes d.atime ++ i64ToLeBytes stat.mtime ++
    i64ToLeBytes d.ctime

@[simp] theorem u64ToLeBytes_length (value : UInt64) : (u64ToLeBytes value).length = 8 :=
  LittleEndian.encode_length 8 value.toNat

@[simp] theorem i64ToLeBytes_length (value : Int64) : (i64ToLeBytes value).length = 8 :=
  u64ToLeBytes_length value.toUInt64

theorem encodeStatV1_length {id : Bytes} (hId : id.length = 4) (stat : Stat) :
    (encodeStatV1 id stat).length = STAT_V1_LEN := by
  simp [encodeStatV1, hId, STAT_V1_LEN]

theorem encodeStatV2_length {id : Bytes} (hId : id.length = 4) (stat : Stat) :
    (encodeStatV2 id stat).length = STAT_V2_LEN := by
  simp [encodeStatV2, hId, STAT_V2_LEN]

theorem encodeStatV1_id {id : Bytes} (hId : id.length = 4) (stat : Stat) :
    (encodeStatV1 id stat).take 4 = id := by
  simp only [encodeStatV1, List.append_assoc]
  exact List.take_left' hId

theorem encodeStatV2_id {id : Bytes} (hId : id.length = 4) (stat : Stat) :
    (encodeStatV2 id stat).take 4 = id := by
  simp only [encodeStatV2, List.append_assoc]
  exact List.take_left' hId

/-- A field that lies behind another one is read behind it. -/
theorem u32At_skip (field rest : Bytes) {offset : Nat} (h : field.length ≤ offset) :
    u32At (field ++ rest) offset = u32At rest (offset - field.length) := by
  rw [u32At, u32At, Rsadb.word, Rsadb.word, List.drop_append, List.drop_eq_nil_of_le h, List.nil_append]

theorem u64At_skip (field rest : Bytes) {offset : Nat} (h : field.length ≤ offset) :
    u64At (field ++ rest) offset = u64At rest (offset - field.length) := by
  rw [u64At, u64At, List.drop_append, List.drop_eq_nil_of_le h, List.nil_append]

@[simp] theorem u32At_toLeBytes (value : UInt32) (rest : Bytes) :
    u32At (toLeBytes value ++ rest) 0 = value :=
  word_append [] rest value rfl

@[simp] theorem u64At_u64ToLeBytes (value : UInt64) (rest : Bytes) :
    u64At (u64ToLeBytes value ++ rest) 0 = value := by
  have hFits : value.toNat < 256 ^ 8 := value.toNat_lt
  rw [u64At, List.drop_zero, List.take_left' (u64ToLeBytes_length value), u64ToLeBytes,
    LittleEndian.value_encode hFits, UInt64.ofNat_toNat]

/-- What the client reads of a first-version stat that an emulator encoded. -/
theorem statV1_encodeStatV1 {id : Bytes} (hId : id.length = 4) (stat : Stat) (rest : Bytes) :
    statV1 (encodeStatV1 id stat ++ rest) =
      ⟨stat.mode, (sizeV1 stat.size).toUInt64, (mtimeV1 stat.mtime).toUInt64.toInt64, none, none⟩ := by
  simp only [statV1, encodeStatV1, List.append_assoc]
  simp [u32At_skip, hId]

/-- What the client reads of a second-version stat that an emulator encoded. -/
theorem statV2_encodeStatV2 {id : Bytes} (hId : id.length = 4) (stat : Stat) (rest : Bytes) :
    statV2 (encodeStatV2 id stat ++ rest) =
      ⟨stat.mode, stat.size, stat.mtime, some (stat.error.getD 0),
        some (stat.detail.getD StatDetail.default)⟩ := by
  simp only [statV2, encodeStatV2, List.append_assoc, i64At, i64ToLeBytes]
  simp [u32At_skip, u64At_skip, hId]

/-- A size that fits is not changed. -/
theorem sizeV1_fits {size : UInt64} (h : size.toNat < 2 ^ 32) : (sizeV1 size).toUInt64 = size := by
  rw [sizeV1, if_pos h]
  apply UInt64.toNat_inj.mp
  rw [UInt32.toNat_toUInt64, UInt32.toNat_ofNat_of_lt' h]

/-- A time that fits is not changed. -/
theorem mtimeV1_fits {mtime : Int64} (hPast : 0 ≤ mtime.toInt) (hFits : mtime.toInt < 2 ^ 32) :
    (mtimeV1 mtime).toUInt64.toInt64 = mtime := by
  have hNat : (mtime.toInt.toNat : Int) = mtime.toInt := Int.toNat_of_nonneg hPast
  have hSmall : mtime.toInt.toNat < UInt32.size := by
    have hSize : UInt32.size = 4294967296 := rfl
    omega
  have hWide : (UInt32.ofNat mtime.toInt.toNat).toUInt64 = UInt64.ofNat mtime.toInt.toNat := by
    apply UInt64.toNat_inj.mp
    rw [UInt32.toNat_toUInt64, UInt32.toNat_ofNat_of_lt' hSmall,
      UInt64.toNat_ofNat_of_lt' (Nat.lt_trans hSmall (by decide))]
  rw [mtimeV1, if_pos ⟨hPast, hFits⟩, hWide, UInt64.toInt64_ofNat', ← Int64.ofInt_eq_ofNat, hNat,
    Int64.ofInt_toInt]

@[simp] theorem word_length {id : Bytes} (hId : id.length = 4) (value : UInt32) :
    (word id value).length = 8 := by
  simp [word, hId]

end Sync
end Rsadb
