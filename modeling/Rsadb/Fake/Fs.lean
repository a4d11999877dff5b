import Std.Data.ExtTreeMap
import Rsadb.Services.Sync.Codec
import Rsadb.Library.Lines

/-! The in-memory file system behind the `sync:` service of the emulated device.
A path is looked up by its text, without slashes at its end; there are no links. -/
namespace Rsadb.Fake

inductive Node where
  | file (mode : UInt32) (mtime : Int64) (data : Bytes)
  | dir (mode : UInt32) (mtime : Int64)
  deriving DecidableEq

/-- What `stat` says of a node. -/
def Node.stat (node : Node) : Stat :=
  let (mode, mtime, size) : UInt32 × Int64 × UInt64 := match node with
    | .file mode mtime data => (mode, mtime, UInt64.ofNat data.length)
    | .dir mode mtime => (mode, mtime, 4096)
  { mode := mode
    size := size
    mtime := mtime
    error := some 0
    detail := some ⟨1, 7, 1, 2000, 2000, mtime, mtime⟩ }

structure Fs where
  nodes : Std.ExtTreeMap Bytes Node

namespace Fs

def mkdir (fs : Fs) (path : Bytes) (perm : UInt32) (mtime : Int64) : Fs :=
  ⟨fs.nodes.insert path (.dir (S_IFDIR ||| perm) mtime)⟩

/-- The root, and the directory for shared files. -/
def new : Fs :=
  (mkdir ⟨∅⟩ (ascii "/") 0o755 0).mkdir (ascii "/sdcard") 0o771 1700000000

/-- The key of a path: without slashes at its end, and never less than the root. -/
def key (path : Bytes) : Bytes :=
  let trimmed := Text.trimEnd 47 path
  if compare trimmed (ascii "/") = .lt then ascii "/" else trimmed

def get (fs : Fs) (path : Bytes) : Option Node := fs.nodes[key path]?

def stat (fs : Fs) (path : Bytes) : Option Stat := (fs.get path).map Node.stat

/-- Direct children of a directory, each with its stat. -/
def list (fs : Fs) (dir : Bytes) : Option (List (Bytes × Stat)) :=
  let dir := Text.trimEnd 47 dir
  match fs.get (if dir = [] then ascii "/" else dir) with
  | none => none
  | some (.file ..) => none
  | some (.dir ..) =>
      some (fs.nodes.keys.filterMap fun path =>
        match Text.stripPrefix (dir ++ ascii "/") path with
        | none => none
        | some rest =>
            if rest = [] ∨ 47 ∈ rest then none else (fs.stat path).map fun stat => (rest, stat))

def read (fs : Fs) (path : Bytes) : Option Bytes :=
  match fs.get path with
  | some (.file _ _ data) => some data
  | _ => none

/-- The directory that a path lies in. -/
def parent (path : Bytes) : Option Bytes :=
  (Text.rsplitOnce 47 path).map fun parts => if parts.1 = [] then ascii "/" else parts.1

/-- Write a file; fails when the parent directory does not exist. -/
def write (fs : Fs) (path : Bytes) (mode : UInt32) (mtime : Int64) (data : Bytes) :
    Except Bytes Unit × Fs :=
  match (parent path).bind fs.get with
  | some (.dir ..) => (.ok (), ⟨fs.nodes.insert path (.file (S_IFREG ||| mode &&& 0o777) mtime data)⟩)
  | _ => (.error (ascii "couldn't create file: No such file or directory (" ++ path ++ ascii ")"), fs)

/-- The path begins with a slash and does not end with one. -/
def Absolute (path : Bytes) : Prop := [47] <+: path ∧ ¬[47] <:+ path

instance (path : Bytes) : Decidable (Absolute path) :=
  inferInstanceAs (Decidable ([47] <+: path ∧ ¬[47] <:+ path))

/-- Such a path is looked up as it is written. -/
theorem key_of_absolute {path : Bytes} (h : Absolute path) : key path = path := by
  obtain ⟨⟨rest, rfl⟩, hEnd⟩ := h
  have hLater : compare ([47] ++ rest) (ascii "/") ≠ .lt := by
    cases rest with
    | nil => decide
    | cons head more =>
        change List.compareLex compare (47 :: head :: more) [47] ≠ .lt
        simp [List.compareLex]
  simp only [key, Text.trimEnd_eq_self_iff.mpr hEnd, if_neg hLater]

/-- A write that succeeds puts the file at its path. -/
theorem write_ok {fs next : Fs} {path data : Bytes} {mode : UInt32} {mtime : Int64}
    (h : fs.write path mode mtime data = (.ok (), next)) (hPath : Absolute path) :
    next.get path = some (.file (S_IFREG ||| mode &&& 0o777) mtime data) := by
  unfold write at h
  split at h
  · cases h
    rw [get, key_of_absolute hPath, Std.ExtTreeMap.getElem?_insert_self]
  · cases h

/-- Writing to one path leaves what is at another one. -/
theorem get_write {fs : Fs} {path other data : Bytes} {mode : UInt32} {mtime : Int64}
    (hPath : Absolute path) (hOther : other ≠ path) : (fs.write other mode mtime data).2.get path = fs.get path := by
  unfold write
  split
  · rw [get, key_of_absolute hPath, Std.ExtTreeMap.getElem?_insert,
      if_neg (fun hSame => hOther (Std.compare_eq_iff_eq.mp hSame)), get, key_of_absolute hPath]
  · rfl

end Fs
end Rsadb.Fake
