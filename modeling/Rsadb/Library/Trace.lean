import Mathlib.Data.List.Basic

/-! Facts about logs that only grow at their end. -/
namespace Trace

variable {Event : Type}

/-- An entry of a log that has grown is an old one, or stands among the new ones. -/
theorem split_append {before after trace events : List Event} {entry : Event}
    (h : trace ++ events = before ++ entry :: after) :
    (∃ rest, trace = before ++ entry :: rest) ∨
      ∃ middle, before = trace ++ middle ∧ events = middle ++ entry :: after := by
  rcases List.append_eq_append_iff.mp h with ⟨middle, hBefore, hEvents⟩ | ⟨middle, hTrace, hRest⟩
  · exact Or.inr ⟨middle, hBefore, hEvents⟩
  · cases middle with
    | nil =>
        rw [List.append_nil] at hTrace
        exact Or.inr ⟨[], by rw [List.append_nil, hTrace], hRest.symm⟩
    | cons head rest =>
        rw [List.cons_append, List.cons.injEq] at hRest
        exact Or.inl ⟨rest, by rw [hTrace, ← hRest.1]⟩

/-- Nothing stands before the only entry of a log. -/
theorem split_singleton {before after : List Event} {last entry : Event}
    (h : [last] = before ++ entry :: after) : before = [] ∧ entry = last := by
  obtain ⟨hBefore, hEntry⟩ := (List.append_eq_singleton_iff.mp h.symm).resolve_right (by simp)
  exact ⟨hBefore, (List.cons.inj hEntry).1⟩

/-- A law about every entry and what precedes it survives new entries that obey it. -/
theorem law_append {law : List Event → Event → Prop} {trace events : List Event}
    (hTrace : ∀ before entry after, trace = before ++ entry :: after → law before entry)
    (hEvents : ∀ before entry after, events = before ++ entry :: after → law (trace ++ before) entry) :
    ∀ before entry after, trace ++ events = before ++ entry :: after → law before entry := by
  intro before entry after hSplit
  rcases split_append hSplit with ⟨rest, hOld⟩ | ⟨middle, rfl, hNew⟩
  · exact hTrace before entry rest hOld
  · exact hEvents middle entry after hNew

/-- A law about every entry and what precedes it survives a new entry that obeys it. -/
theorem law_concat {law : List Event → Event → Prop} {trace : List Event} {last : Event}
    (hTrace : ∀ before entry after, trace = before ++ entry :: after → law before entry)
    (hLast : law trace last) :
    ∀ before entry after, trace ++ [last] = before ++ entry :: after → law before entry := by
  refine law_append hTrace fun before entry after hSplit => ?_
  obtain ⟨rfl, rfl⟩ := split_singleton hSplit
  rw [List.append_nil]
  exact hLast

end Trace
