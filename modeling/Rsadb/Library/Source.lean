import Mathlib.Data.List.Basic
import Mathlib.Tactic.SplitIfs

/-! A byte source that delivers its content in fragments of its own choosing.
A read returns at most one fragment, so a reader that must see a fixed amount
has to loop. The results below say that such a loop sees only the content, not
the fragmentation. Nothing here depends on the element type. -/

/-- What a peer has written and closed behind it: fragments in the order in
which reads meet them. No fragment is empty, because an empty read means the end. -/
structure Source (α : Type) where
  fragments : List (List α)
  nonempty : ∀ fragment ∈ fragments, fragment ≠ []

namespace Source

variable {α : Type}

/-- Everything still to be read, fragmentation forgotten. -/
def pending (source : Source α) : List α := source.fragments.flatten

/-- One read of at most `limit` elements: a prefix of the first fragment. -/
def read (source : Source α) (limit : Nat) : List α × Source α :=
  match source with
  | ⟨[], h⟩ => ([], ⟨[], h⟩)
  | ⟨fragment :: rest, h⟩ =>
      if hShort : fragment.length ≤ limit then
        (fragment, ⟨rest, fun other hOther => h other (List.mem_cons_of_mem _ hOther)⟩)
      else
        (fragment.take limit, ⟨fragment.drop limit :: rest, by
          intro other hOther
          rcases List.mem_cons.mp hOther with hEq | hRest
          · subst other
            rw [Ne, List.drop_eq_nil_iff]
            exact hShort
          · exact h other (List.mem_cons_of_mem _ hRest)⟩)

/-- Read until `count` elements have arrived, or report the end of the source. -/
def readExactFrom : (fragments : List (List α)) → (∀ fragment ∈ fragments, fragment ≠ []) →
    Nat → Option (List α) × Source α
  | [], h, count => (if count = 0 then some [] else none, ⟨[], h⟩)
  | fragment :: rest, h, count =>
      if count = 0 then (some [], ⟨fragment :: rest, h⟩)
      else
        let first := (Source.mk (fragment :: rest) h).read count
        if fragment.length ≤ count then
          let more := readExactFrom rest
            (fun other hOther => h other (List.mem_cons_of_mem _ hOther)) (count - fragment.length)
          (more.1.map (first.1 ++ ·), more.2)
        else (some first.1, first.2)

def readExact (source : Source α) (count : Nat) : Option (List α) × Source α :=
  readExactFrom source.fragments source.nonempty count

theorem pending_eq_nil_iff (source : Source α) :
    source.pending = [] ↔ source.fragments = [] := by
  obtain ⟨fragments, h⟩ := source
  cases fragments with
  | nil => simp [pending]
  | cons fragment rest =>
      have hFirst := h fragment List.mem_cons_self
      simp [pending, hFirst]

/-- A read moves a prefix of the content to the reader and loses nothing. -/
theorem read_append_pending (source : Source α) (limit : Nat) :
    (source.read limit).1 ++ (source.read limit).2.pending = source.pending := by
  obtain ⟨fragments, h⟩ := source
  cases fragments with
  | nil => simp [read, pending]
  | cons fragment rest =>
      simp only [read]
      split_ifs with hShort
      · simp [pending]
      · simp [pending, ← List.append_assoc, List.take_append_drop]

theorem read_length_le (source : Source α) (limit : Nat) :
    (source.read limit).1.length ≤ limit := by
  obtain ⟨fragments, h⟩ := source
  cases fragments with
  | nil => simp [read]
  | cons fragment rest =>
      simp only [read]
      split_ifs with hShort
      · exact hShort
      · exact List.length_take_le _ _

/-- An empty read means the end: no fragment is empty. -/
theorem read_eq_nil_iff (source : Source α) {limit : Nat} (hLimit : 0 < limit) :
    (source.read limit).1 = [] ↔ source.pending = [] := by
  rw [pending_eq_nil_iff]
  obtain ⟨fragments, h⟩ := source
  cases fragments with
  | nil => simp [read]
  | cons fragment rest =>
      have hFirst := h fragment List.mem_cons_self
      simp only [read]
      split_ifs with hShort
      · simp [hFirst]
      · simp [List.take_eq_nil_iff, hFirst, Nat.ne_of_gt hLimit]

private theorem readExactFrom_pending (fragments : List (List α))
    (h : ∀ fragment ∈ fragments, fragment ≠ []) (count : Nat) :
    (count ≤ fragments.flatten.length →
      (readExactFrom fragments h count).1 = some (fragments.flatten.take count) ∧
      (readExactFrom fragments h count).2.pending = fragments.flatten.drop count) ∧
    (fragments.flatten.length < count →
      (readExactFrom fragments h count).1 = none ∧
      (readExactFrom fragments h count).2.pending = []) := by
  induction fragments generalizing count with
  | nil => cases count <;> simp [readExactFrom, pending]
  | cons fragment rest ih =>
      obtain ⟨ihEnough, ihShort⟩ :=
        ih (fun other hOther => h other (List.mem_cons_of_mem _ hOther)) (count - fragment.length)
      unfold readExactFrom
      split_ifs with hZero hWhole
      · subst count
        simp [pending]
      · simp only [List.flatten_cons, List.length_append]
        constructor
        · intro hLe
          obtain ⟨hGot, hRest⟩ := ihEnough (by omega)
          refine ⟨?_, ?_⟩
          · simp [hGot, read, hWhole, List.take_append, List.take_of_length_le hWhole]
          · simp [hRest, List.drop_append, List.drop_eq_nil_of_le hWhole]
        · intro hLt
          obtain ⟨hGot, hRest⟩ := ihShort (by omega)
          exact ⟨by simp [hGot], hRest⟩
      · simp only [List.flatten_cons, List.length_append]
        constructor
        · intro _
          have hTake : count - fragment.length = 0 := by omega
          refine ⟨?_, ?_⟩
          · simp [read, hWhole, List.take_append, hTake]
          · simp [read, hWhole, pending, List.drop_append, hTake]
        · intro hLt
          omega

/-- A loop that finds enough content returns exactly its prefix. -/
theorem readExact_of_le (source : Source α) {count : Nat} (h : count ≤ source.pending.length) :
    (source.readExact count).1 = some (source.pending.take count) ∧
    (source.readExact count).2.pending = source.pending.drop count :=
  (readExactFrom_pending source.fragments source.nonempty count).1 h

/-- A loop that runs out of content reports the end and has consumed everything. -/
theorem readExact_of_lt (source : Source α) {count : Nat} (h : source.pending.length < count) :
    (source.readExact count).1 = none ∧ (source.readExact count).2.pending = [] :=
  (readExactFrom_pending source.fragments source.nonempty count).2 h

theorem readExact_enough (source : Source α) {count : Nat} (h : count ≤ source.pending.length) :
    ∃ left, source.readExact count = (some (source.pending.take count), left) ∧
      left.pending = source.pending.drop count := by
  obtain ⟨hGot, hLeft⟩ := source.readExact_of_le h
  exact ⟨_, Prod.ext hGot rfl, hLeft⟩

theorem readExact_short (source : Source α) {count : Nat} (h : source.pending.length < count) :
    ∃ left, source.readExact count = (none, left) :=
  ⟨_, Prod.ext (source.readExact_of_lt h).1 rfl⟩

end Source
