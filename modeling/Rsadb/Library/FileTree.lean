import Mathlib.Data.List.Basic
import Mathlib.Tactic.Cases
import Mathlib.Tactic.SplitIfs

/-! File systems with directories and symbolic links, and how a path is resolved
in one. A link in front of the last name of a path is followed; whether one that
the last name leads to is followed is up to the caller. -/
namespace FileTree

variable {Inode Name Info : Type}

/-- A path: its names, from the root or from where it is used. -/
structure Path (Name : Type) where
  absolute : Bool
  names : List Name

inductive Node (Inode Name Info : Type) where
  | file (info : Info)
  | directory (info : Info) (entries : Name → Option Inode)
  | link (info : Info) (target : Path Name)

/-- Why nothing is found. -/
inductive Failure where
  | missing
  | notDirectory
  | loop
  deriving DecidableEq

namespace Node

def info : Node Inode Name Info → Info
  | file info | directory info _ | link info _ => info

def isLink : Node Inode Name Info → Bool
  | link .. => true
  | _ => false

end Node

end FileTree

/-- The nodes of a file system. Names such as `.` and `..` are entries of their
directory. A resolution that would follow more than `limit` links is given up. -/
structure FileTree (Inode Name Info : Type) where
  node : Inode → FileTree.Node Inode Name Info
  root : Inode
  limit : Nat
  root_not_link : (node root).isLink = false

namespace FileTree

variable {Inode Name Info : Type}

/-- How far names lead without crossing a link. -/
inductive Reached (Inode Name : Type) where
  | found (inode : Inode)
  | failed (failure : Failure)
  | crossing (directory : Inode) (target : Path Name) (rest : List Name)

/-- One name down. -/
def child (tree : FileTree Inode Name Info) (inode : Inode) (name : Name) : Except Failure Inode :=
  match tree.node inode with
  | .directory _ entries => (entries name).elim (.error .missing) .ok
  | _ => .error .notDirectory

/-- Go down from `inode` along the names. -/
def descend (tree : FileTree Inode Name Info) (follow : Bool) (inode : Inode) :
    List Name → Reached Inode Name
  | [] => .found inode
  | name :: rest =>
      match tree.child inode name with
      | .error failure => .failed failure
      | .ok next =>
          match tree.node next with
          | .link _ target =>
              if rest.isEmpty && !follow then .found next else .crossing inode target rest
          | _ => tree.descend follow next rest

/-- Resolve names, going on at the target of each link that is crossed. -/
def resolve (tree : FileTree Inode Name Info) (follow : Bool) :
    Nat → Inode → List Name → Except Failure Inode
  | limit, inode, names =>
      match tree.descend follow inode names with
      | .found found => .ok found
      | .failed failure => .error failure
      | .crossing directory target rest =>
          match limit with
          | 0 => .error .loop
          | limit + 1 =>
              tree.resolve follow limit (if target.absolute then tree.root else directory)
                (target.names ++ rest)

/-- The node that a path leads to. Relative paths start at the root. -/
def lookup (tree : FileTree Inode Name Info) (follow : Bool) (path : Path Name) :
    Except Failure (Node Inode Name Info) :=
  if path.absolute = false ∧ path.names = [] then .error .missing
  else (tree.resolve follow tree.limit tree.root path.names).map tree.node

variable {tree : FileTree Inode Name Info} {path : Path Name}

/-- Only a directory has names below it. -/
theorem child_not_link {inode next : Inode} {name : Name} (h : tree.child inode name = .ok next) :
    (tree.node inode).isLink = false := by
  unfold child at h
  cases hNode : tree.node inode with
  | directory info entries => rfl
  | file info => rfl
  | link info target =>
      rw [hNode] at h
      cases h

/-- The way down is the same, unless the last name is that of a link. -/
theorem descend_follow (tree : FileTree Inode Name Info) (inode : Inode) (names : List Name) :
    tree.descend true inode names = tree.descend false inode names ∨
      ∃ found, tree.descend false inode names = .found found ∧ (tree.node found).isLink = true := by
  induction names generalizing inode with
  | nil => exact Or.inl rfl
  | cons name rest ih =>
      simp only [descend]
      cases tree.child inode name with
      | error failure => exact Or.inl rfl
      | ok next =>
          simp only
          split
          · rename_i info target hNext
            cases rest with
            | nil => exact Or.inr ⟨next, rfl, by rw [hNext]; rfl⟩
            | cons other rest => exact Or.inl rfl
          · exact ih next

/-- A way down that follows links does not end at one. -/
theorem descend_not_link {inode found : Inode} {names : List Name}
    (hStart : (tree.node inode).isLink = false) (h : tree.descend true inode names = .found found) :
    (tree.node found).isLink = false := by
  induction names generalizing inode with
  | nil =>
      cases h
      exact hStart
  | cons name rest ih =>
      simp only [descend] at h
      cases hChild : tree.child inode name with
      | error failure =>
          rw [hChild] at h
          cases h
      | ok next =>
          rw [hChild] at h
          cases hNext : tree.node next with
          | file info => exact ih (by rw [hNext]; rfl) (by simpa only [hNext] using h)
          | directory info entries => exact ih (by rw [hNext]; rfl) (by simpa only [hNext] using h)
          | link info target => simp [hNext] at h

/-- A link is crossed in a directory. -/
theorem descend_crossing {follow : Bool} {inode directory : Inode} {names rest : List Name}
    {target : Path Name} (h : tree.descend follow inode names = .crossing directory target rest) :
    (tree.node directory).isLink = false := by
  induction names generalizing inode with
  | nil => cases h
  | cons name rest ih =>
      simp only [descend] at h
      split at h
      · cases h
      · rename_i hChild
        split at h
        · split_ifs at h
          cases h
          exact child_not_link hChild
        · exact ih h

/-- The resolution is the same, unless without following the last name it ends at a link. -/
theorem resolve_follow (tree : FileTree Inode Name Info) (limit : Nat) (inode : Inode)
    (names : List Name) : tree.resolve true limit inode names = tree.resolve false limit inode names ∨
      ∃ found, tree.resolve false limit inode names = .ok found ∧ (tree.node found).isLink = true := by
  induction limit generalizing inode names with
  | zero =>
      rcases tree.descend_follow inode names with hSame | ⟨found, hFound, hLink⟩
      · exact Or.inl (by rw [resolve, hSame, resolve])
      · exact Or.inr ⟨found, by rw [resolve, hFound], hLink⟩
  | succ limit ih =>
      rcases tree.descend_follow inode names with hSame | ⟨found, hFound, hLink⟩
      · rw [resolve, hSame, resolve]
        cases tree.descend false inode names with
        | found found => exact Or.inl rfl
        | failed failure => exact Or.inl rfl
        | crossing directory target rest => exact ih _ _
      · exact Or.inr ⟨found, by rw [resolve, hFound], hLink⟩

theorem resolve_not_link {limit : Nat} {inode found : Inode} {names : List Name}
    (hStart : (tree.node inode).isLink = false)
    (h : tree.resolve true limit inode names = .ok found) : (tree.node found).isLink = false := by
  induction limit generalizing inode names with
  | zero =>
      rw [resolve] at h
      split at h <;> cases h
      rename_i hDescend
      exact descend_not_link hStart hDescend
  | succ limit ih =>
      rw [resolve] at h
      split at h
      · rename_i hDescend
        cases h
        exact descend_not_link hStart hDescend
      · cases h
      · rename_i directory target rest hDescend
        apply ih _ h
        split_ifs
        · exact tree.root_not_link
        · exact descend_crossing hDescend

/-- Following the last name makes a difference only where it is that of a link. -/
theorem lookup_follow (tree : FileTree Inode Name Info) (path : Path Name) :
    tree.lookup true path = tree.lookup false path ∨
      ∃ node, tree.lookup false path = .ok node ∧ node.isLink = true := by
  unfold lookup
  split_ifs with hEmpty
  · exact Or.inl rfl
  · rcases tree.resolve_follow tree.limit tree.root path.names with hSame | ⟨found, hFound, hLink⟩
    · exact Or.inl (by rw [hSame])
    · exact Or.inr ⟨tree.node found, by rw [hFound]; rfl, hLink⟩

theorem exists_inode {follow : Bool} {node : Node Inode Name Info}
    (h : tree.lookup follow path = .ok node) : ∃ inode, tree.node inode = node := by
  unfold lookup at h
  split_ifs at h with hEmpty
  cases hFound : tree.resolve follow tree.limit tree.root path.names with
  | error failure =>
      rw [hFound] at h
      cases h
  | ok found =>
      rw [hFound] at h
      cases h
      exact ⟨found, rfl⟩

theorem lookup_not_link {node : Node Inode Name Info} (h : tree.lookup true path = .ok node) :
    node.isLink = false := by
  unfold lookup at h
  split_ifs at h with hEmpty
  cases hFound : tree.resolve true tree.limit tree.root path.names with
  | error failure =>
      rw [hFound] at h
      cases h
  | ok found =>
      rw [hFound] at h
      cases h
      exact resolve_not_link tree.root_not_link hFound

end FileTree
