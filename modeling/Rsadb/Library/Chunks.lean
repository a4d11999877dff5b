import Mathlib.Data.List.Basic

/-! Cutting a list into pieces of one size, the last of which may be shorter. -/
namespace Chunks

variable {α : Type} {size : Nat} {list : List α}

/-- Pieces of `size` elements. There are none of size zero. -/
def chunks (size : Nat) (list : List α) : List (List α) :=
  if 0 < size ∧ list ≠ [] then list.take size :: chunks size (list.drop size) else []
  termination_by list.length
  decreasing_by
    have hSome : 0 < list.length := List.length_pos_iff.mpr (by tauto)
    rw [List.length_drop]
    omega

theorem chunks_nil (size : Nat) : chunks size ([] : List α) = [] := by
  rw [chunks, if_neg (by simp)]

theorem chunks_cons (hSize : 0 < size) (hSome : list ≠ []) :
    chunks size list = list.take size :: chunks size (list.drop size) := by
  rw [chunks, if_pos ⟨hSize, hSome⟩]

/-- The pieces make up the list. -/
theorem flatten_chunks (hSize : 0 < size) (list : List α) : (chunks size list).flatten = list := by
  induction list using chunks.induct size with
  | case1 list h ih =>
      rw [chunks_cons h.1 h.2, List.flatten_cons, ih, List.take_append_drop]
  | case2 list h =>
      have hNone : list = [] := by
        by_contra hSome
        exact h ⟨hSize, hSome⟩
      rw [hNone, chunks_nil, List.flatten_nil]

/-- No piece is empty, and none is longer than the size. -/
theorem mem_chunks {piece : List α} (h : piece ∈ chunks size list) :
    piece ≠ [] ∧ piece.length ≤ size := by
  induction list using chunks.induct size with
  | case1 list hSome ih =>
      rw [chunks_cons hSome.1 hSome.2] at h
      rcases List.mem_cons.mp h with rfl | hLater
      · refine ⟨?_, List.length_take_le _ _⟩
        rw [Ne, List.take_eq_nil_iff, not_or]
        exact ⟨Nat.pos_iff_ne_zero.mp hSome.1, hSome.2⟩
      · exact ih hLater
  | case2 list hNone =>
      rw [chunks, if_neg hNone] at h
      cases h

/-- There are no more pieces than elements. -/
theorem length_chunks_le (size : Nat) (list : List α) : (chunks size list).length ≤ list.length := by
  induction list using chunks.induct size with
  | case1 list h ih =>
      have hSome : 0 < list.length := List.length_pos_iff.mpr h.2
      rw [chunks_cons h.1 h.2, List.length_cons]
      rw [List.length_drop] at ih
      omega
  | case2 list h =>
      rw [chunks, if_neg h]
      exact Nat.zero_le _

end Chunks
