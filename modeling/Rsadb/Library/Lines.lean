import Mathlib.Data.List.DropRight
import Rsadb.Library.Text

/-! The lines of a text, and what is trimmed off their ends. -/
namespace Text

variable {α : Type} [DecidableEq α]

/-- Take a suffix off a text that has it. -/
def stripSuffix (unwanted text : List α) : Option (List α) :=
  if unwanted.isSuffixOf text then some (text.take (text.length - unwanted.length)) else none

/-- Split behind every separator. -/
def splitInclusive (separator : α) : List α → List (List α)
  | [] => []
  | head :: rest =>
      if head = separator then [head] :: splitInclusive separator rest
      else match splitInclusive separator rest with
        | [] => [[head]]
        | line :: lines => (head :: line) :: lines

/-- A line without its line feed, or its carriage return and line feed. -/
def bareLine (line : List UInt8) : List UInt8 :=
  match stripSuffix [10] line with
  | none => line
  | some line => (stripSuffix [13] line).getD line

/-- The lines of a text, without what ends them. -/
def lines (text : List UInt8) : List (List UInt8) := (splitInclusive 10 text).map bareLine

theorem stripSuffix_append (text unwanted : List α) : stripSuffix unwanted (text ++ unwanted) = some text := by
  rw [stripSuffix, if_pos (List.isSuffixOf_iff_suffix.mpr (List.suffix_append _ _)), List.length_append,
    Nat.add_sub_cancel, List.take_left]

/-- Splitting goes on behind a separator as if the text began there. -/
theorem splitInclusive_append (separator : α) (text rest : List α) :
    splitInclusive separator (text ++ separator :: rest) =
      (text.splitOn separator).map (· ++ [separator]) ++ splitInclusive separator rest := by
  induction text with
  | nil => simp [splitInclusive]
  | cons head text ih =>
      rw [List.cons_append, splitInclusive, ih, List.splitOn_cons_eq_if_modifyHead]
      obtain ⟨line, lines, hLines⟩ := List.exists_cons_of_ne_nil (List.splitOn_ne_nil separator text)
      rw [hLines]
      by_cases hHead : head = separator
      · simp [hHead]
      · simp [hHead]

/-- A front without separators belongs to the first piece. -/
theorem splitOn_append_left {separator : α} {front : List α} (h : separator ∉ front) (text : List α) :
    (front ++ text).splitOn separator = (text.splitOn separator).modifyHead (front ++ ·) := by
  induction front with
  | nil =>
      obtain ⟨line, lines, hLines⟩ := List.exists_cons_of_ne_nil (List.splitOn_ne_nil separator text)
      simp [hLines]
  | cons head front ih =>
      obtain ⟨hHead, hFront⟩ := not_or.mp (mt List.mem_cons.mpr h)
      obtain ⟨line, lines, hLines⟩ := List.exists_cons_of_ne_nil (List.splitOn_ne_nil separator text)
      rw [List.cons_append, List.splitOn_cons_eq_if_modifyHead, ih hFront, hLines,
        if_neg (by simpa using Ne.symm hHead)]
      rfl

/-- What has no separator and stands behind a text belongs to its last piece. -/
theorem splitOn_append_right {separator : α} {behind : List α} (h : separator ∉ behind) {text last : List α}
    {init : List (List α)} (hText : text.splitOn separator = init ++ [last]) :
    (text ++ behind).splitOn separator = init ++ [last ++ behind] := by
  induction text generalizing init last with
  | nil =>
      obtain ⟨rfl, rfl⟩ : init = [] ∧ last = [] := by
        simpa [eq_comm, List.append_eq_singleton_iff] using hText
      simpa using List.splitOn_eq_singleton h
  | cons head text ih =>
      obtain ⟨before, final, hPieces⟩ :=
        (List.eq_nil_or_concat (text.splitOn separator)).resolve_left (List.splitOn_ne_nil separator text)
      rw [List.concat_eq_append] at hPieces
      rw [List.splitOn_cons_eq_if_modifyHead, hPieces] at hText
      rw [List.cons_append, List.splitOn_cons_eq_if_modifyHead, ih hPieces]
      have hSplit : ∀ (front : List (List α)) (final : List α), front ++ [final] = init ++ [last] →
          front = init ∧ final = last := fun front final hSame => by
        obtain ⟨hInit, hLast⟩ := List.append_inj' hSame rfl
        exact ⟨hInit, (List.cons.inj hLast).1⟩
      by_cases hHead : head = separator
      · simp only [beq_iff_eq, hHead, ↓reduceIte, ← List.cons_append] at hText ⊢
        obtain ⟨rfl, rfl⟩ := hSplit _ _ hText
        rfl
      · simp only [beq_iff_eq, hHead, ↓reduceIte] at hText ⊢
        cases before with
        | nil =>
            obtain ⟨rfl, rfl⟩ := hSplit [] _ hText
            rfl
        | cons first before =>
            obtain ⟨rfl, rfl⟩ := hSplit ((head :: first) :: before) _ hText
            rfl

/-- The pieces, each but the first behind a separator, are the text. -/
theorem splitOn_join (separator : α) (text : List α) :
    (text.splitOn separator).headD [] ++ (text.splitOn separator).tail.flatMap (separator :: ·) = text := by
  induction text with
  | nil => rfl
  | cons head text ih =>
      rw [List.splitOn_cons_eq_if_modifyHead]
      obtain ⟨line, lines, hLines⟩ := List.exists_cons_of_ne_nil (List.splitOn_ne_nil separator text)
      rw [hLines] at ih ⊢
      by_cases hHead : head = separator
      · simpa [hHead] using ih
      · simpa [hHead] using ih

/-- A line as the end of its line leaves it: one carriage return is taken off. -/
def dropReturn (line : List UInt8) : List UInt8 := (stripSuffix [13] line).getD line

theorem lines_append (text rest : List UInt8) :
    lines (text ++ 10 :: rest) = (text.splitOn 10).map dropReturn ++ lines rest := by
  rw [lines, splitInclusive_append, List.map_append, List.map_map, ← lines]
  congr 1
  refine List.map_congr_left fun line _ => ?_
  rw [Function.comp_apply, bareLine, stripSuffix_append]
  rfl

section trimEnd

variable {unwanted : α}

theorem trimEnd_eq_rdropWhile (text : List α) : trimEnd unwanted text = text.rdropWhile (· = unwanted) := rfl

theorem trimEnd_start (text : List α) : trimEnd unwanted text <+: text :=
  List.rdropWhile_prefix _ _

theorem trimEnd_concat (text : List α) : trimEnd unwanted (text ++ [unwanted]) = trimEnd unwanted text :=
  List.rdropWhile_concat_pos _ _ _ (by simp)

theorem trimEnd_eq_self_iff {text : List α} : trimEnd unwanted text = text ↔ ¬[unwanted] <:+ text := by
  rw [trimEnd_eq_rdropWhile, List.rdropWhile_eq_self_iff]
  constructor
  · rintro h ⟨before, rfl⟩
    exact h (by simp) (by simp)
  · rintro h hSome hLast
    refine h ⟨text.dropLast, ?_⟩
    rw [← of_decide_eq_true hLast]
    exact List.dropLast_append_getLast hSome

omit [DecidableEq α] in
/-- What is joined from two texts ends as one of them does. -/
theorem not_suffix_append {front text : List α} (hFront : ¬[unwanted] <:+ front) (hText : ¬[unwanted] <:+ text) :
    ¬[unwanted] <:+ front ++ text := by
  rw [List.singleton_suffix_iff_getLast?_eq_some] at hFront hText ⊢
  rw [List.getLast?_append, Option.or_eq_some_iff]
  rintro (hLast | ⟨-, hLast⟩)
  · exact hText hLast
  · exact hFront hLast

/-- What does not end in the unwanted element is not touched by trimming behind it. -/
theorem trimEnd_append {front : List α} (h : ¬[unwanted] <:+ front) (text : List α) :
    trimEnd unwanted (front ++ text) = front ++ trimEnd unwanted text := by
  induction text using List.reverseRecOn with
  | nil =>
      rw [List.append_nil, trimEnd_eq_self_iff.mpr h]
      exact (List.append_nil _).symm
  | append_singleton text last ih =>
      by_cases hLast : last = unwanted
      · rw [hLast, ← List.append_assoc, trimEnd_concat, trimEnd_concat, ih]
      · rw [trimEnd_eq_self_iff.mpr, trimEnd_eq_self_iff.mpr]
        · rintro ⟨before, hBefore⟩
          exact hLast (by simpa using (List.append_inj' hBefore rfl).2.symm)
        · rintro ⟨before, hBefore⟩
          rw [← List.append_assoc] at hBefore
          exact hLast (by simpa using (List.append_inj' hBefore rfl).2.symm)

/-- Only the unwanted element is trimmed. -/
theorem trimEnd_split (text : List α) :
    ∃ trimmed, text = trimEnd unwanted text ++ trimmed ∧ ∀ a ∈ trimmed, a = unwanted := by
  refine ⟨text.rtakeWhile (· = unwanted), ?_, fun a hMem => ?_⟩
  · rw [trimEnd_eq_rdropWhile, List.rdropWhile_append_rtakeWhile]
  · simpa using List.mem_rtakeWhile_imp hMem

theorem prefix_trimEnd_iff {front text : List α} (h : ¬[unwanted] <:+ front) :
    front <+: trimEnd unwanted text ↔ front <+: text := by
  constructor
  · exact fun hTrimmed => hTrimmed.trans (trimEnd_start text)
  · rintro ⟨behind, rfl⟩
    rw [trimEnd_append h]
    exact List.prefix_append _ _

end trimEnd

/-- Trimming carriage returns makes up for the one that the end of the line took. -/
theorem trimEnd_dropReturn (line : List UInt8) : trimEnd 13 (dropReturn line) = trimEnd 13 line := by
  rw [dropReturn, stripSuffix]
  split_ifs with hReturn
  · obtain ⟨before, rfl⟩ := List.isSuffixOf_iff_suffix.mp hReturn
    rw [List.length_append, Nat.add_sub_cancel, List.take_left, trimEnd_concat]
    rfl
  · rfl

theorem prefix_dropReturn_iff {front line : List UInt8} (h : ¬[13] <:+ front) :
    front <+: dropReturn line ↔ front <+: line := by
  rw [← prefix_trimEnd_iff h, trimEnd_dropReturn, prefix_trimEnd_iff h]

end Text
