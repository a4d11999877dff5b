import Mathlib.Data.List.Basic
import Mathlib.Data.List.Infix
import Mathlib.Data.Nat.Find
import Mathlib.Tactic.SplitIfs

/-! Searching and splitting lists the way text libraries do. -/
namespace Text

variable {α : Type} [DecidableEq α]

/-- Split at the first occurrence of a separator. -/
def splitOnce (separator : List α) : List α → Option (List α × List α)
  | [] => if separator = [] then some ([], []) else none
  | head :: rest =>
      if separator.isPrefixOf (head :: rest) then
        some ([], (head :: rest).drop separator.length)
      else (splitOnce separator rest).map fun parts => (head :: parts.1, parts.2)

/-- A text is split where the separator stands and does not stand before, nor overlaps what stands before. -/
theorem splitOnce_eq_some_iff {separator text before after : List α} (hSome : separator ≠ []) :
    splitOnce separator text = some (before, after) ↔
      text = before ++ (separator ++ after) ∧ ¬separator <:+: before ++ separator.dropLast := by
  have hLength : separator.dropLast.length < separator.length := by
    have hPos := List.length_pos_iff.mpr hSome
    rw [List.length_dropLast]
    omega
  -- The part of the text in which an earlier separator would end.
  have hFront (before : List α) : before ++ separator.dropLast <+: before ++ (separator ++ after) :=
    (List.prefix_append_right_inj before).mpr (separator.dropLast_prefix.trans (List.prefix_append _ _))
  induction text generalizing before with
  | nil => simp [splitOnce, hSome]
  | cons head rest ih =>
      rw [splitOnce]
      split_ifs with hHere
      · obtain ⟨behind, hText⟩ := List.isPrefixOf_iff_prefix.mp hHere
        rw [← hText, List.drop_left, Option.some.injEq, Prod.mk.injEq]
        constructor
        · rintro ⟨rfl, rfl⟩
          refine ⟨rfl, fun hInfix => ?_⟩
          exact absurd hInfix.length_le (Nat.not_le.mpr hLength)
        · rintro ⟨hSame, hFirst⟩
          cases before with
          | nil => exact ⟨rfl, List.append_cancel_left hSame⟩
          | cons first before =>
              refine absurd (List.prefix_of_prefix_length_le ⟨behind, hSame⟩ (hFront _) ?_).isInfix hFirst
              rw [List.length_append, List.length_cons, List.length_dropLast]
              omega
      · have hNotHere : ¬separator <+: head :: rest := fun h => hHere (List.isPrefixOf_iff_prefix.mpr h)
        rw [Option.map_eq_some_iff]
        constructor
        · rintro ⟨⟨before, after⟩, hRest, hSame⟩
          cases hSame
          obtain ⟨rfl, hFirst⟩ := ih.mp hRest
          refine ⟨rfl, fun hInfix => ?_⟩
          rcases List.infix_cons_iff.mp hInfix with hStart | hLater
          · exact hNotHere (hStart.trans (hFront (head :: before)))
          · exact hFirst hLater
        · rintro ⟨hText, hFirst⟩
          cases before with
          | nil => exact absurd ⟨after, hText.symm⟩ hNotHere
          | cons first before =>
              obtain ⟨rfl, hRest⟩ := List.cons.inj hText
              refine ⟨(before, after), ih.mpr ⟨hRest, fun hLater => ?_⟩, rfl⟩
              exact hFirst (List.infix_cons_iff.mpr (.inr hLater))

theorem splitOnce_eq_none_iff {separator text : List α} (hSome : separator ≠ []) :
    splitOnce separator text = none ↔ ¬separator <:+: text := by
  induction text with
  | nil => simp [splitOnce, hSome]
  | cons head rest ih =>
      rw [splitOnce, List.infix_cons_iff, not_or, ← ih, ← List.isPrefixOf_iff_prefix]
      split_ifs with hHere
      · simp [hHere]
      · simp [hHere]

theorem splitOnce_singleton_eq_some_iff {separator : α} {text before after : List α} :
    splitOnce [separator] text = some (before, after) ↔
      text = before ++ separator :: after ∧ separator ∉ before := by
  rw [splitOnce_eq_some_iff (List.cons_ne_nil _ _), List.dropLast_singleton, List.append_nil,
    List.singleton_infix_iff]
  rfl

theorem splitOnce_singleton_eq_none_iff {separator : α} {text : List α} :
    splitOnce [separator] text = none ↔ separator ∉ text := by
  rw [splitOnce_eq_none_iff (List.cons_ne_nil _ _), List.singleton_infix_iff]

/-- A separator whose first element does not stand before it is the first one. -/
theorem splitOnce_append_cons {first : α} {before : List α} (h : first ∉ before) (more after : List α) :
    splitOnce (first :: more) (before ++ (first :: more ++ after)) = some (before, after) := by
  induction before with
  | nil => simp [splitOnce, List.isPrefixOf]
  | cons head before ih =>
      obtain ⟨hHead, hBefore⟩ := not_or.mp (mt List.mem_cons.mpr h)
      rw [List.cons_append, splitOnce, ih hBefore, if_neg (by simp [List.isPrefixOf, hHead])]
      rfl

/-- A separator with none before it is the first one. -/
theorem splitOnce_append {separator : α} {before : List α} (h : separator ∉ before) (after : List α) :
    splitOnce [separator] (before ++ separator :: after) = some (before, after) :=
  splitOnce_singleton_eq_some_iff.mpr ⟨rfl, h⟩

/-- Drop trailing occurrences of one element. -/
def trimEnd (unwanted : α) (text : List α) : List α :=
  (text.reverse.dropWhile (· = unwanted)).reverse

/-- Split at the last occurrence of a separating element. -/
def rsplitOnce (separator : α) : List α → Option (List α × List α)
  | [] => none
  | head :: rest =>
      match rsplitOnce separator rest with
      | some (before, after) => some (head :: before, after)
      | none => if head = separator then some ([], rest) else none

theorem rsplitOnce_eq_none {separator : α} {text : List α} (h : separator ∉ text) :
    rsplitOnce separator text = none := by
  induction text with
  | nil => rfl
  | cons head rest ih =>
      obtain ⟨hHead, hRest⟩ := not_or.mp (mt List.mem_cons.mpr h)
      rw [rsplitOnce, ih hRest]
      exact if_neg fun hEq => hHead hEq.symm

/-- A separator with none behind it is the last one. -/
theorem rsplitOnce_append (before : List α) {separator : α} {after : List α}
    (h : separator ∉ after) :
    rsplitOnce separator (before ++ separator :: after) = some (before, after) := by
  induction before with
  | nil => rw [List.nil_append, rsplitOnce, rsplitOnce_eq_none h, if_pos rfl]
  | cons head rest ih => rw [List.cons_append, rsplitOnce, ih]

/-- A text is split at its last separator, unless it has none. -/
theorem rsplitOnce_cases (separator : α) (text : List α) :
    (rsplitOnce separator text = none ∧ separator ∉ text) ∨ ∃ before after,
      rsplitOnce separator text = some (before, after) ∧ text = before ++ separator :: after ∧ separator ∉ after := by
  by_cases hInside : separator ∈ text.reverse
  · obtain ⟨after, before, hReverse, hNot⟩ := List.eq_append_cons_of_mem hInside
    have hText : text = before.reverse ++ separator :: after.reverse := by
      rw [← List.reverse_reverse text, hReverse]
      simp
    have hLast : separator ∉ after.reverse := by simpa using hNot
    exact Or.inr ⟨_, _, by rw [hText, rsplitOnce_append _ hLast], hText, hLast⟩
  · have hNone : separator ∉ text := by simpa using hInside
    exact Or.inl ⟨rsplitOnce_eq_none hNone, hNone⟩

/-- Take a prefix off a text that has it. -/
def stripPrefix (unwanted text : List α) : Option (List α) :=
  if unwanted.isPrefixOf text then some (text.drop unwanted.length) else none

theorem stripPrefix_eq_some_iff {unwanted text rest : List α} :
    stripPrefix unwanted text = some rest ↔ text = unwanted ++ rest := by
  unfold stripPrefix
  constructor
  · intro h
    split_ifs at h with hPrefix
    obtain ⟨after, rfl⟩ := List.isPrefixOf_iff_prefix.mp hPrefix
    rw [List.drop_left, Option.some.injEq] at h
    rw [h]
  · rintro rfl
    rw [if_pos (List.isPrefixOf_iff_prefix.mpr (List.prefix_append _ _)), List.drop_left]

@[simp] theorem stripPrefix_append (unwanted rest : List α) :
    stripPrefix unwanted (unwanted ++ rest) = some rest :=
  stripPrefix_eq_some_iff.mpr rfl

/-- Where a pattern first occurs in a text. -/
def find (pattern : List α) : List α → Option Nat
  | [] => if pattern = [] then some 0 else none
  | head :: rest =>
      if pattern.isPrefixOf (head :: rest) then some 0 else (find pattern rest).map (· + 1)

/-- The pattern is found where it occurs and has not occurred before. -/
theorem find_eq_some_iff {pattern text : List α} {n : Nat} :
    find pattern text = some n ↔
      n ≤ text.length ∧ pattern <+: text.drop n ∧ ∀ m < n, ¬pattern <+: text.drop m := by
  induction text generalizing n with
  | nil =>
      cases n with
      | zero => simp [find]
      | succ n => simp [find]
  | cons head rest ih =>
      rw [find]
      split_ifs with hPrefix
      · have hHere := List.isPrefixOf_iff_prefix.mp hPrefix
        constructor
        · intro h
          obtain rfl := Option.some.inj h
          exact ⟨Nat.zero_le _, hHere, fun m hLess => absurd hLess (Nat.not_lt_zero m)⟩
        · rintro ⟨-, -, hFirst⟩
          cases n with
          | zero => rfl
          | succ n => exact absurd hHere (hFirst 0 (Nat.succ_pos n))
      · have hNotHere : ¬pattern <+: head :: rest := fun h =>
          hPrefix (List.isPrefixOf_iff_prefix.mpr h)
        cases n with
        | zero => simp [hNotHere]
        | succ n =>
            rw [Option.map_eq_some_iff]
            constructor
            · rintro ⟨m, hFound, hSame⟩
              obtain rfl := Nat.succ.inj hSame
              obtain ⟨hInside, hThere, hFirst⟩ := ih.mp hFound
              refine ⟨Nat.succ_le_succ hInside, hThere, fun k hLess => ?_⟩
              cases k with
              | zero => exact hNotHere
              | succ k => exact hFirst k (Nat.lt_of_succ_lt_succ hLess)
            · rintro ⟨hInside, hThere, hFirst⟩
              exact ⟨n, ih.mpr ⟨Nat.le_of_succ_le_succ hInside, hThere, fun k hLess =>
                hFirst (k + 1) (Nat.succ_lt_succ hLess)⟩, rfl⟩

/-- A pattern that occurs is found, at that place or before it. -/
theorem find_of_occurs {pattern text : List α} {n : Nat} (hInside : n ≤ text.length)
    (hThere : pattern <+: text.drop n) : ∃ m ≤ n, find pattern text = some m := by
  classical
  have hSome : ∃ m, pattern <+: text.drop m := ⟨n, hThere⟩
  have hLess : Nat.find hSome ≤ n := Nat.find_min' hSome hThere
  exact ⟨Nat.find hSome, hLess, find_eq_some_iff.mpr ⟨Nat.le_trans hLess hInside, Nat.find_spec hSome,
    fun m => Nat.find_min hSome⟩⟩

/-- The characters with the Unicode property White_Space. -/
def isWhitespace (c : Char) : Bool :=
  let code := c.toNat
  (9 ≤ code && code ≤ 13) || code = 0x20 || code = 0x85 || code = 0xA0 || code = 0x1680 ||
    (0x2000 ≤ code && code ≤ 0x200A) || code = 0x2028 || code = 0x2029 || code = 0x202F || code = 0x205F ||
    code = 0x3000

/-- A text without white space at its ends. -/
def trim (text : String) : String :=
  String.ofList ((text.toList.dropWhile isWhitespace).reverse.dropWhile isWhitespace).reverse

/-- The first of the words of a text that stand between white space. -/
def firstWord (text : String) : Option String :=
  match (text.toList.dropWhile isWhitespace).takeWhile (fun c => !isWhitespace c) with
  | [] => none
  | word => some (String.ofList word)

/-- A word in front of a space is the first word. -/
theorem firstWord_append {word : List Char} (hSome : word ≠ []) (hPlain : ∀ c ∈ word, isWhitespace c = false)
    (rest : String) : firstWord (String.ofList word ++ (" " ++ rest)) = some (String.ofList word) := by
  have hDrop : (word ++ ' ' :: rest.toList).dropWhile isWhitespace = word ++ ' ' :: rest.toList := by
    cases word with
    | nil => exact absurd rfl hSome
    | cons first word => rw [List.cons_append, List.dropWhile_cons_of_neg (by simp [hPlain first])]
  have hTake : (word ++ ' ' :: rest.toList).takeWhile (fun c => !isWhitespace c) = word := by
    rw [List.takeWhile_append_of_pos (by simpa using hPlain), List.takeWhile_cons_of_neg (by decide), List.append_nil]
  have hList : (String.ofList word ++ (" " ++ rest)).toList = word ++ ' ' :: rest.toList := by
    rw [String.toList_append, String.toList_ofList, String.toList_append]
    rfl
  rw [firstWord, hList, hDrop, hTake]
  cases word with
  | nil => exact absurd rfl hSome
  | cons first word => rfl

end Text
