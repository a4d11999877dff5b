import Mathlib.Data.List.Basic
import Std.Data.ExtTreeMap

/-! Ordered maps that are filled entry by entry. -/
namespace OrderedMap

variable {K V : Type} {cmp : K → K → Ordering} [Std.TransCmp cmp] [Std.LawfulEqCmp cmp]

/-- Enter every entry of a list; a later one replaces an earlier one. -/
def enter (map : Std.ExtTreeMap K V cmp) (entries : List (K × V)) : Std.ExtTreeMap K V cmp :=
  entries.foldl (fun map entry => map.insert entry.1 entry.2) map

/-- Entries that a map has are looked up as in the map. -/
theorem getElem?_enter [DecidableEq K] {entries : List (K × V)} {map wanted : Std.ExtTreeMap K V cmp}
    (h : ∀ entry ∈ entries, wanted[entry.1]? = some entry.2) (key : K) :
    (enter map entries)[key]? = if key ∈ entries.map Prod.fst then wanted[key]? else map[key]? := by
  induction entries generalizing map with
  | nil => rfl
  | cons entry entries ih =>
      obtain ⟨hEntry, hEntries⟩ := List.forall_mem_cons.mp h
      rw [enter, List.foldl_cons, ← enter, ih hEntries, Std.ExtTreeMap.getElem?_insert, List.map_cons]
      by_cases hLater : key ∈ entries.map Prod.fst
      · simp [hLater]
      · by_cases hHere : key = entry.1
        · simp [hHere, hEntry]
        · simp [hLater, hHere, Ne.symm hHere]

/-- The entries of a map make up the map, in whatever order they are entered. -/
theorem enter_perm {entries : List (K × V)} {map : Std.ExtTreeMap K V cmp} (hOrder : entries.Perm map.toList) :
    enter ∅ entries = map := by
  classical
  have hEntries : ∀ entry ∈ entries, map[entry.1]? = some entry.2 := by
    intro entry hMem
    exact Std.ExtTreeMap.mem_toList_iff_getElem?_eq_some.mp (hOrder.mem_iff.mp hMem)
  apply Std.ExtTreeMap.ext_getElem?
  intro key
  rw [getElem?_enter hEntries]
  split_ifs with hKey
  · rfl
  · cases hFound : map[key]? with
    | none => exact Std.ExtTreeMap.getElem?_empty
    | some value =>
        have hMem := hOrder.mem_iff.mpr (Std.ExtTreeMap.mem_toList_iff_getElem?_eq_some.mpr hFound)
        exact absurd (List.mem_map_of_mem hMem) hKey

end OrderedMap
