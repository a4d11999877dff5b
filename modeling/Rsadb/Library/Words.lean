import Rsadb.Library.Lines

/-! The words of a text, which stand between separators. -/
namespace Text

variable {α : Type} [DecidableEq α]

/-- The words of a text. Between separators that stand next to each other there is none. -/
def words (separator : α) (text : List α) : List (List α) := (text.splitOn separator).filter (· ≠ [])

variable {separator : α}

theorem not_mem_of_mem_splitOn {text piece : List α} (hPiece : piece ∈ text.splitOn separator) :
    separator ∉ piece := by
  induction text generalizing piece with
  | nil =>
      obtain rfl : piece = [] := by simpa using hPiece
      exact List.not_mem_nil
  | cons head text ih =>
      rw [List.splitOn_cons_eq_if_modifyHead] at hPiece
      obtain ⟨line, lines, hLines⟩ := List.exists_cons_of_ne_nil (List.splitOn_ne_nil separator text)
      rw [hLines] at hPiece ih
      obtain ⟨hLine, hOthers⟩ := List.forall_mem_cons.mp fun piece hMem => @ih piece hMem
      by_cases hHead : head = separator
      · simp only [beq_iff_eq, hHead, ↓reduceIte] at hPiece
        rcases List.mem_cons.mp hPiece with rfl | hMem
        · exact List.not_mem_nil
        · exact ih hMem
      · simp only [beq_iff_eq, hHead, ↓reduceIte, List.modifyHead_cons] at hPiece
        rcases List.mem_cons.mp hPiece with rfl | hMem
        · exact mt List.mem_cons.mp (not_or.mpr ⟨Ne.symm hHead, hLine⟩)
        · exact hOthers _ hMem

theorem word_ne_nil {text word : List α} (hWord : word ∈ words separator text) : word ≠ [] := by
  simpa using (List.mem_filter.mp hWord).2

theorem word_plain {text word : List α} (hWord : word ∈ words separator text) : separator ∉ word :=
  not_mem_of_mem_splitOn (List.mem_filter.mp hWord).1

@[simp] theorem words_nil : words separator ([] : List α) = [] := by simp [words]

theorem words_append_cons (front text : List α) :
    words separator (front ++ separator :: text) = words separator front ++ words separator text := by
  rw [words, List.splitOn_append_cons_self, List.filter_append]
  rfl

/-- A text without separators is one word, or none. -/
theorem words_of_not_mem {text : List α} (h : separator ∉ text) :
    words separator text = if text = [] then [] else [text] := by
  rw [words, List.splitOn_eq_singleton h]
  split_ifs with hText
  · simp [hText]
  · simp [hText]

/-- Only the separators do not belong to a word. -/
theorem flatten_words (text : List α) : (words separator text).flatten = text.filter (· ≠ separator) := by
  induction text with
  | nil => simp
  | cons head text ih =>
      by_cases hHead : head = separator
      · rw [hHead, ← List.nil_append (separator :: text), words_append_cons, words_nil, List.nil_append, ih]
        simp
      · rw [words, List.flatten_filter_ne_nil] at ih ⊢
        obtain ⟨line, lines, hLines⟩ := List.exists_cons_of_ne_nil (List.splitOn_ne_nil separator text)
        rw [List.splitOn_cons_eq_if_modifyHead, if_neg (by simpa using hHead), hLines] 
        rw [hLines] at ih
        rw [List.filter_cons_of_pos (by simpa using hHead), ← ih]
        rfl

/-- Words that are joined are read again. -/
theorem words_intercalate {text : List (List α)} (hPlain : ∀ word ∈ text, separator ∉ word)
    (hSome : ∀ word ∈ text, word ≠ []) : words separator ([separator].intercalate text) = text := by
  by_cases hText : text = []
  · simp [hText]
  · rw [words, List.splitOn_intercalate separator hPlain hText, List.filter_eq_self]
    simpa using hSome

omit [DecidableEq α] in
/-- What stands behind the last element of a kind, one element later. -/
theorem exists_last_concat_iff {p q : α → Prop} {text : List α} {last : α} :
    (∃ front a behind, text ++ [last] = front ++ a :: behind ∧ p a ∧ ∀ b ∈ behind, q b) ↔
      p last ∨ q last ∧ ∃ front a behind, text = front ++ a :: behind ∧ p a ∧ ∀ b ∈ behind, q b := by
  constructor
  · rintro ⟨front, a, behind, hText, hHere, hBehind⟩
    rcases List.eq_nil_or_concat behind with rfl | ⟨init, final, rfl⟩
    · obtain ⟨-, hLast⟩ := List.append_inj' hText rfl
      rw [List.singleton_inj.mp hLast]
      exact .inl hHere
    · rw [List.concat_eq_append, ← List.cons_append, ← List.append_assoc] at hText
      obtain ⟨rfl, hLast⟩ := List.append_inj' hText rfl
      rw [List.concat_eq_append, List.forall_mem_append, List.forall_mem_singleton] at hBehind
      rw [List.singleton_inj.mp hLast]
      exact .inr ⟨hBehind.2, front, a, init, rfl, hHere, hBehind.1⟩
  · rintro (hLast | ⟨hLast, front, a, behind, rfl, hHere, hBehind⟩)
    · exact ⟨text, last, [], rfl, hLast, by simp⟩
    · refine ⟨front, a, behind ++ [last], by simp, hHere, ?_⟩
      rw [List.forall_mem_append, List.forall_mem_singleton]
      exact ⟨hBehind, hLast⟩

/-- The words of a text end in what only separators stand behind. -/
theorem suffix_flatten_words_iff {text : List α} {wanted : α} (hOther : wanted ≠ separator) :
    [wanted] <:+ (words separator text).flatten ↔
      ∃ front a behind, text = front ++ a :: behind ∧ a = wanted ∧ ∀ b ∈ behind, b = separator := by
  rw [flatten_words]
  induction text using List.reverseRecOn with
  | nil => simp
  | append_singleton text last ih =>
      rw [exists_last_concat_iff, ← ih, List.filter_append]
      by_cases hLast : last = separator
      · simp [hLast, Ne.symm hOther]
      · rw [List.filter_cons_of_pos (by simpa using hLast), List.filter_nil,
          List.singleton_suffix_iff_getLast?_eq_some, List.getLast?_concat]
        simp [hLast]

omit [DecidableEq α] in
/-- Words that are joined end in what the last of them ends in. -/
theorem getLast?_intercalate {text : List (List α)} (hSome : ∀ word ∈ text, word ≠ []) :
    ([separator].intercalate text).getLast? = text.flatten.getLast? := by
  induction text with
  | nil => rfl
  | cons word text ih =>
      obtain ⟨-, hOthers⟩ := List.forall_mem_cons.mp hSome
      cases text with
      | nil => simp
      | cons next text =>
          obtain ⟨hNext, -⟩ := List.forall_mem_cons.mp hOthers
          have hBehind : (next :: text).flatten ≠ [] := by simp [hNext]
          calc ([separator].intercalate (word :: next :: text)).getLast?
              = (word ++ [separator] ++ [separator].intercalate (next :: text)).getLast? := by
                rw [List.intercalate_cons_cons]
            _ = (word ++ [separator] ++ (next :: text).flatten).getLast? := by
                rw [List.getLast?_append, ih hOthers, ← List.getLast?_append]
            _ = (word ++ (next :: text).flatten).getLast? := by
                rw [List.getLast?_append_of_ne_nil _ hBehind, List.getLast?_append_of_ne_nil _ hBehind]

/-- Joined words are still read when the end is trimmed, unless there is something to trim. -/
theorem words_trimEnd_iff {text : List (List α)} {unwanted : α} (hOther : unwanted ≠ separator)
    (hPlain : ∀ word ∈ text, separator ∉ word) (hSome : ∀ word ∈ text, word ≠ []) :
    words separator (trimEnd unwanted ([separator].intercalate text)) = text ↔ ¬[unwanted] <:+ text.flatten := by
  rw [List.singleton_suffix_iff_getLast?_eq_some, ← @getLast?_intercalate _ separator _ hSome,
    ← List.singleton_suffix_iff_getLast?_eq_some, ← trimEnd_eq_self_iff]
  have hRead := words_intercalate hPlain hSome
  constructor
  · intro h
    obtain ⟨trimmed, hJoined, hTrimmed⟩ := @trimEnd_split _ _ unwanted ([separator].intercalate text)
    have hKept : trimmed.filter (· ≠ separator) = trimmed := by
      apply List.filter_eq_self.mpr
      intro a hMem
      simpa [hTrimmed a hMem] using hOther
    -- Whatever is trimmed would be missing from the words.
    have hSame := congrArg (List.length ∘ List.flatten) (h.trans hRead.symm)
    simp only [Function.comp_apply] at hSame
    rw [flatten_words, flatten_words] at hSame
    nth_rewrite 2 [hJoined] at hSame
    rw [List.filter_append, hKept, List.length_append] at hSame
    have hNone : trimmed = [] := List.length_eq_zero_iff.mp (by omega)
    rw [hNone, List.append_nil] at hJoined
    exact hJoined.symm
  · intro h
    rw [h, hRead]

end Text
