import Mathlib.Data.List.Basic
import Mathlib.Tactic.Cases

/-! The fields of a text that stand between blanks, wherever and however many
these are. What a blank is is left open. -/
namespace Blanks

variable {α : Type} {blank : α → Bool}

/-- The fields of a text: what stands between its blanks, unless it is empty. -/
def fields (blank : α → Bool) (text : List α) : List (List α) :=
  (text.splitOnP blank).filter fun piece => !piece.isEmpty

/-- The fields stand in the text in this order, with blanks between any two of them. -/
inductive Spaced (blank : α → Bool) : List (List α) → List α → Prop where
  | done {gap : List α} (hGap : ∀ a ∈ gap, blank a = true) : Spaced blank [] gap
  | field {gap word rest : List α} {words : List (List α)} (hGap : ∀ a ∈ gap, blank a = true)
      (hSome : word ≠ []) (hWord : ∀ a ∈ word, blank a = false) (hApart : ∀ a ∈ rest.head?, blank a = true)
      (hRest : Spaced blank words rest) : Spaced blank (word :: words) (gap ++ (word ++ rest))

/-- A blank in front changes nothing. -/
theorem fields_blank {a : α} (h : blank a = true) (text : List α) : fields blank (a :: text) = fields blank text := by
  rw [fields, List.splitOnP_cons_eq_if_modifyHead, if_pos h]
  rfl

theorem fields_gap {gap : List α} (h : ∀ a ∈ gap, blank a = true) (text : List α) :
    fields blank (gap ++ text) = fields blank text := by
  induction gap with
  | nil => rfl
  | cons a gap ih =>
      obtain ⟨hHere, hGap⟩ := List.forall_mem_cons.mp h
      rw [List.cons_append, fields_blank hHere, ih hGap]

/-- A word that a blank follows, or nothing, is a field. -/
theorem fields_word {word rest : List α} (hSome : word ≠ []) (hWord : ∀ a ∈ word, blank a = false)
    (hApart : ∀ a ∈ rest.head?, blank a = true) : fields blank (word ++ rest) = word :: fields blank rest := by
  cases rest with
  | nil => simp [fields, List.splitOnP_eq_singleton hWord, hSome]
  | cons a rest =>
      have hBlank : blank a = true := hApart a rfl
      rw [fields_blank hBlank, fields, List.splitOnP_append_cons word rest hBlank,
        List.splitOnP_eq_singleton hWord, List.singleton_append, List.filter_cons_of_pos (by simpa using hSome)]
      rfl

/-- Fields that stand in a text are read from it. -/
theorem Spaced.fields {words : List (List α)} {text : List α} (h : Spaced blank words text) :
    fields blank text = words := by
  induction h with
  | done hGap =>
      rename_i gap
      rw [← List.append_nil gap, fields_gap hGap]
      rfl
  | field hGap hSome hWord hApart _ ih => rw [fields_gap hGap, fields_word hSome hWord hApart, ih]

theorem Spaced.cons {a : α} {words : List (List α)} {text : List α} (hBlank : blank a = true)
    (h : Spaced blank words text) : Spaced blank words (a :: text) := by
  cases h with
  | done hGap => exact .done (List.forall_mem_cons.mpr ⟨hBlank, hGap⟩)
  | field hGap hSome hWord hApart hRest =>
      exact .field (List.forall_mem_cons.mpr ⟨hBlank, hGap⟩) hSome hWord hApart hRest

/-- In every text some fields stand. -/
theorem exists_spaced (blank : α → Bool) (text : List α) : ∃ words, Spaced blank words text := by
  induction text with
  | nil => exact ⟨[], .done (by simp)⟩
  | cons a text ih =>
      obtain ⟨words, hText⟩ := ih
      cases hBlank : blank a with
      | true => exact ⟨words, hText.cons hBlank⟩
      | false =>
          have hAlone : ∀ b ∈ [a], blank b = false := List.forall_mem_singleton.mpr hBlank
          have hNone : ∀ b ∈ ([] : List α), blank b = true := by simp
          cases hText with
          | done hGap =>
              have hApart : ∀ b ∈ text.head?, blank b = true := fun b hHead => hGap b (List.mem_of_mem_head? hHead)
              exact ⟨_, @Spaced.field _ blank [] _ _ _ hNone (List.cons_ne_nil a []) hAlone hApart (.done hGap)⟩
          | @field gap word rest words hGap hSome hWord hApart hRest =>
              cases gap with
              | nil =>
                  -- The element belongs to the field that comes next.
                  have hLonger : ∀ b ∈ a :: word, blank b = false := List.forall_mem_cons.mpr ⟨hBlank, hWord⟩
                  exact ⟨_, @Spaced.field _ blank [] _ _ _ hNone (List.cons_ne_nil a word) hLonger hApart hRest⟩
              | cons b gap =>
                  have hHead : ∀ c ∈ (b :: gap ++ (word ++ rest)).head?, blank c = true := by
                    rintro c ⟨⟩
                    exact hGap b List.mem_cons_self
                  exact ⟨_, @Spaced.field _ blank [] _ _ _ hNone (List.cons_ne_nil a []) hAlone hHead
                    (.field hGap hSome hWord hApart hRest)⟩

/-- The fields of a text are those that stand in it, and no others. -/
theorem fields_eq_iff {words : List (List α)} {text : List α} : fields blank text = words ↔ Spaced blank words text := by
  constructor
  · rintro rfl
    obtain ⟨words, hText⟩ := exists_spaced blank text
    rwa [hText.fields]
  · exact Spaced.fields

/-- A blank behind the text changes nothing either. -/
theorem Spaced.concat {a : α} {words : List (List α)} {text : List α} (hBlank : blank a = true)
    (h : Spaced blank words text) : Spaced blank words (text ++ [a]) := by
  induction h with
  | done hGap =>
      apply Spaced.done
      intro b hMem
      rcases List.mem_append.mp hMem with hMem | hMem
      · exact hGap b hMem
      · rw [List.mem_singleton.mp hMem]
        exact hBlank
  | @field gap word rest words hGap hSome hWord hApart hRest ih =>
      rw [List.append_assoc, List.append_assoc]
      apply Spaced.field hGap hSome hWord _ ih
      cases rest with
      | nil => simpa using hBlank
      | cons b rest => exact hApart

end Blanks
