import Mathlib.Data.List.AList

/-! Hash maps. A map is iterated in an order that its hasher picks: every entry
comes once, and nothing else is known of the order. -/

/-- The hasher of a map, as far as it shows: an order of iteration. -/
structure RandomState where
  arrange : {α : Type} → List α → List α
  perm : ∀ {α : Type} (entries : List α), (arrange entries).Perm entries

structure HashMap (K V : Type) [DecidableEq K] where
  map : AList fun _ : K => V
  hasher : RandomState

namespace HashMap

variable {K V : Type} [DecidableEq K]

def new (hasher : RandomState) : HashMap K V := ⟨∅, hasher⟩

def containsKey (m : HashMap K V) (key : K) : Bool := decide (key ∈ m.map)

/-- The entries in the order of iteration. -/
def iter (m : HashMap K V) : List (K × V) :=
  (m.hasher.arrange m.map.entries).map fun entry => (entry.1, entry.2)

def keys (m : HashMap K V) : List K := m.iter.map Prod.fst

/-- Insert pairs one after the other; a later one replaces an earlier one. -/
def collect (hasher : RandomState) (pairs : List (K × V)) : HashMap K V :=
  ⟨pairs.foldl (fun map pair => map.insert pair.1 pair.2) ∅, hasher⟩

theorem keys_perm (m : HashMap K V) : m.keys.Perm m.map.keys := by
  have hEntries : m.keys = (m.hasher.arrange m.map.entries).map Sigma.fst := by
    rw [keys, iter, List.map_map]
    rfl
  rw [hEntries]
  exact (m.hasher.perm m.map.entries).map Sigma.fst

theorem keys_nodup (m : HashMap K V) : m.keys.Nodup := m.keys_perm.nodup_iff.mpr m.map.keys_nodup

theorem mem_keys {m : HashMap K V} {key : K} : key ∈ m.keys ↔ m.containsKey key = true := by
  rw [m.keys_perm.mem_iff, containsKey, decide_eq_true_iff]
  rfl

@[simp] theorem keys_new (hasher : RandomState) : (new hasher : HashMap K V).keys = [] :=
  List.Perm.eq_nil (keys_perm _)

theorem mem_iter {m : HashMap K V} {key : K} {value : V} :
    (key, value) ∈ m.iter ↔ m.map.lookup key = some value := by
  rw [iter, List.mem_map]
  constructor
  · rintro ⟨entry, hEntry, hSame⟩
    cases hSame
    exact AList.mem_lookup_iff.mpr ((m.hasher.perm _).mem_iff.mp hEntry)
  · intro h
    exact ⟨⟨key, value⟩, (m.hasher.perm _).mem_iff.mpr (AList.mem_lookup_iff.mp h), rfl⟩

private theorem mem_inserted {map : AList fun _ : K => V} {pairs : List (K × V)} {key : K} :
    key ∈ pairs.foldl (fun map pair => map.insert pair.1 pair.2) map ↔
      key ∈ pairs.map Prod.fst ∨ key ∈ map := by
  induction pairs generalizing map with
  | nil => simp
  | cons pair rest ih =>
      rw [List.foldl_cons, ih, AList.mem_insert, List.map_cons, List.mem_cons]
      tauto

private theorem lookup_inserted {map : AList fun _ : K => V} {pairs : List (K × V)} {key : K} {value : V}
    (h : (pairs.foldl (fun map pair => map.insert pair.1 pair.2) map).lookup key = some value) :
    (key, value) ∈ pairs ∨ map.lookup key = some value := by
  induction pairs generalizing map with
  | nil => exact Or.inr h
  | cons pair rest ih =>
      rcases ih h with hLater | hNow
      · exact Or.inl (List.mem_cons_of_mem _ hLater)
      · by_cases hKey : key = pair.1
        · subst hKey
          rw [AList.lookup_insert] at hNow
          cases hNow
          exact Or.inl List.mem_cons_self
        · rw [AList.lookup_insert_ne hKey] at hNow
          exact Or.inr hNow

/-- A collected map has the keys of the pairs. -/
@[simp] theorem mem_keys_collect {hasher : RandomState} {pairs : List (K × V)} {key : K} :
    key ∈ (collect hasher pairs).keys ↔ key ∈ pairs.map Prod.fst := by
  rw [mem_keys, containsKey, decide_eq_true_iff, collect, mem_inserted]
  exact or_iff_left (AList.notMem_empty key)

/-- A collected map holds nothing but pairs that were inserted. -/
theorem mem_of_mem_collect {hasher : RandomState} {pairs : List (K × V)} {key : K} {value : V}
    (h : (key, value) ∈ (collect hasher pairs).iter) : (key, value) ∈ pairs := by
  rcases lookup_inserted (mem_iter.mp h) with hPair | hEmpty
  · exact hPair
  · cases hEmpty

end HashMap
