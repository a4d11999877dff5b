import Rsadb.Library.Text

/-! Labelled fields in one text: every label is followed by its value, and a
separator stands before every label but the first. Values are not escaped, so a
text may be read in several ways; cutting it at the first places that will do
finds one whenever there is any. -/
namespace Fields

variable {α : Type}

/-- Write the values behind their labels. -/
def render (separator : List α) (labels values : List (List α)) : List α :=
  List.intercalate separator (List.zipWith (· ++ ·) labels values)

/-- The text is what one gets by writing these values behind the labels. -/
def Reads (separator : List α) (labels : List (List α)) (text : List α) (values : List (List α)) : Prop :=
  values.length = labels.length ∧ text = render separator labels values

/-- The delimiter occurs in the value followed by the delimiter at the end only. -/
def EndsAt (delimiter value : List α) : Prop :=
  ∀ before after, value ++ delimiter = before ++ delimiter ++ after → after = []

variable {separator label next : List α} {labels : List (List α)} {text : List α}
  {values : List (List α)}

@[simp] theorem render_single (label value : List α) : render separator [label] [value] = label ++ value := by
  simp [render]

@[simp] theorem render_cons (label next value second : List α) (labels values : List (List α)) :
    render separator (label :: next :: labels) (value :: second :: values) =
      label ++ (value ++ (separator ++ render separator (next :: labels) (second :: values))) := by
  simp [render, List.append_assoc]

/-- What is written starts with its first label. -/
theorem render_start (hLength : values.length = (label :: labels).length) :
    ∃ body, render separator (label :: labels) values = label ++ body := by
  cases values with
  | nil => cases hLength
  | cons value values =>
      cases labels with
      | nil =>
          obtain rfl := List.length_eq_zero_iff.mp (Nat.succ.inj hLength)
          exact ⟨value, render_single _ _⟩
      | cons next labels =>
          cases values with
          | nil => cases hLength
          | cons second values => exact ⟨_, render_cons _ _ _ _ _ _⟩

/-- A text that starts with a label and ends in a readable text is readable itself: what
stands between goes to the first value. -/
theorem reads_of_suffix {before body : List α} (hText : text = label ++ body)
    (hEnd : text = before ++ render separator (label :: labels) values)
    (hLength : values.length = (label :: labels).length) :
    ∃ value, Reads separator (label :: labels) text (value :: values.tail) := by
  cases values with
  | nil => cases hLength
  | cons value values =>
      cases labels with
      | nil =>
          obtain rfl := List.length_eq_zero_iff.mp (Nat.succ.inj hLength)
          exact ⟨body, rfl, by rw [hText]; exact (render_single _ _).symm⟩
      | cons next labels =>
          cases values with
          | nil => cases hLength
          | cons second values =>
              rw [render_cons, hText] at hEnd
              -- The label at the front is not longer than everything before the first separator.
              have hFront : label.length ≤ (before ++ (label ++ value)).length := by
                simp only [List.length_append]
                omega
              have hSplit : label ++ body = (before ++ (label ++ value)) ++
                  (separator ++ render separator (next :: labels) (second :: values)) := by
                rw [hEnd]
                simp only [List.append_assoc]
              obtain ⟨first, hFirst, hBody⟩ | ⟨first, hFirst, hBody⟩ := List.append_eq_append_iff.mp hSplit
              · refine ⟨first, hLength, ?_⟩
                rw [hText, hBody, List.tail_cons, render_cons]
              · have hNone : first = [] := by
                  have hSizes := congrArg List.length hFirst
                  rw [List.length_append] at hSizes
                  exact List.length_eq_zero_iff.mp (by omega)
                subst hNone
                refine ⟨[], hLength, ?_⟩
                rw [hText, List.tail_cons, render_cons, List.nil_append, hBody, List.nil_append]

/-- What is written before the last label. -/
def front (separator : List α) (labels values : List (List α)) : List α :=
  (List.zipWith (· ++ ·) labels values).flatMap (· ++ separator)

/-- The last value stands at the end, whatever it is. -/
theorem render_concat (hLength : labels.length = values.length) (label value : List α) :
    render separator (labels ++ [label]) (values ++ [value]) = front separator labels values ++ (label ++ value) := by
  rw [render, front, List.zipWith_append hLength]
  induction List.zipWith (· ++ ·) labels values with
  | nil => simp
  | cons field fields ih =>
      rw [List.flatMap_cons, List.append_assoc, ← ih]
      cases fields <;> simp [List.append_assoc]

/-- What separators, labels and values have, and two texts in a row keep, the front has. -/
theorem front_closed {P : List α → Prop} (hNil : P []) (hAppend : ∀ a b, P a → P b → P (a ++ b))
    (hSeparator : P separator) (hLabels : ∀ label ∈ labels, P label) (hValues : ∀ value ∈ values, P value) :
    P (front separator labels values) := by
  induction labels generalizing values with
  | nil => exact hNil
  | cons label labels ih =>
      cases values with
      | nil => exact hNil
      | cons value values =>
          obtain ⟨hLabel, hLabels⟩ := List.forall_mem_cons.mp hLabels
          obtain ⟨hValue, hValues⟩ := List.forall_mem_cons.mp hValues
          exact hAppend _ _ (hAppend _ _ (hAppend _ _ hLabel hValue) hSeparator) (ih hLabels hValues)

variable [DecidableEq α]

/-- Read the values from left to right, each up to the next separator and label. -/
def cut (separator : List α) : List (List α) → List α → Option (List (List α))
  | [], _ => some []
  | [label], text => (Text.stripPrefix label text).map fun value => [value]
  | label :: next :: labels, text =>
      (Text.stripPrefix label text).bind fun body =>
        (Text.find (separator ++ next) body).bind fun place =>
          (cut separator (next :: labels) (body.drop (place + separator.length))).map fun values =>
            body.take place :: values

/-- One label of several is cut up to the first separator with the next label. -/
private theorem cut_step {found : List (List α)} :
    cut separator (label :: next :: labels) text = some found ↔
      ∃ body place rest, text = label ++ body ∧ Text.find (separator ++ next) body = some place ∧
        cut separator (next :: labels) (body.drop (place + separator.length)) = some rest ∧
        found = body.take place :: rest := by
  simp only [cut, Option.bind_eq_some_iff, Option.map_eq_some_iff, Text.stripPrefix_eq_some_iff]
  constructor
  · rintro ⟨body, hText, place, hPlace, rest, hRest, rfl⟩
    exact ⟨body, place, rest, hText, hPlace, hRest, rfl⟩
  · rintro ⟨body, place, rest, hText, hPlace, hRest, rfl⟩
    exact ⟨body, hText, place, hPlace, rest, hRest, rfl⟩

private theorem cut_last {found : List (List α)} :
    cut separator [label] text = some found ↔ ∃ value, text = label ++ value ∧ found = [value] := by
  simp only [cut, Option.map_eq_some_iff, Text.stripPrefix_eq_some_iff]
  exact exists_congr fun value => and_congr_right fun _ => eq_comm

/-- Whatever is cut is a way to read the text. -/
theorem reads_of_cut (hSome : labels ≠ []) (h : cut separator labels text = some values) :
    Reads separator labels text values := by
  induction labels generalizing text values with
  | nil => exact absurd rfl hSome
  | cons label labels ih =>
      cases labels with
      | nil =>
          obtain ⟨value, hText, rfl⟩ := cut_last.mp h
          exact ⟨rfl, by rw [hText, render_single]⟩
      | cons next labels =>
          obtain ⟨body, place, rest, hText, hPlace, hRest, rfl⟩ := cut_step.mp h
          obtain ⟨hLength, hRead⟩ := ih (by simp) hRest
          obtain ⟨-, ⟨after, hAfter⟩, -⟩ := Text.find_eq_some_iff.mp hPlace
          cases rest with
          | nil => cases hLength
          | cons second rest =>
              have hBody : body.drop place = separator ++ body.drop (place + separator.length) := by
                rw [← List.drop_drop, ← hAfter, List.append_assoc, List.drop_left]
              refine ⟨by simpa using hLength, ?_⟩
              rw [render_cons, ← hRead, ← hBody, List.take_append_drop, hText]

/-- What can be read in any way is cut in some way. -/
theorem cut_of_reads (hSome : labels ≠ []) (h : Reads separator labels text values) :
    ∃ found, cut separator labels text = some found := by
  induction labels generalizing text values with
  | nil => exact absurd rfl hSome
  | cons label labels ih =>
      obtain ⟨hLength, hText⟩ := h
      cases labels with
      | nil =>
          obtain ⟨body, hBody⟩ := @render_start _ separator _ _ _ hLength
          exact ⟨_, cut_last.mpr ⟨body, hText.trans hBody, rfl⟩⟩
      | cons next labels =>
          match values, hLength with
          | value :: second :: values, hLength =>
            rw [render_cons] at hText
            obtain ⟨tail, hTail⟩ := @render_start _ separator _ _ _ (Nat.succ.inj hLength)
            generalize hRest : render separator (next :: labels) (second :: values) = written at hText hTail
            obtain ⟨place, hLess, hPlace⟩ := @Text.find_of_occurs _ _ (separator ++ next)
              (value ++ (separator ++ written)) value.length (by simp) (by
                rw [List.drop_left, hTail, ← List.append_assoc]
                exact List.prefix_append _ _)
            -- Behind the first place that will do stands the next label, and the text ends as it should.
            obtain ⟨-, ⟨after, hAfter⟩, -⟩ := Text.find_eq_some_iff.mp hPlace
            have hFront : (value ++ (separator ++ written)).drop (place + separator.length) = next ++ after := by
              rw [← List.drop_drop, ← hAfter, List.append_assoc, List.drop_left]
            have hEnd : (value ++ (separator ++ written)).drop (place + separator.length) =
                (value ++ separator).drop (place + separator.length) ++ written := by
              rw [← List.append_assoc, List.drop_append_of_le_length]
              rw [List.length_append]
              omega
            obtain ⟨first, hReads⟩ := reads_of_suffix hFront (by rw [hRest]; exact hEnd)
              (Nat.succ.inj hLength)
            obtain ⟨found, hFound⟩ := ih (by simp) hReads
            exact ⟨_, cut_step.mpr ⟨_, place, found, hText, hPlace, hFound, rfl⟩⟩

/-- The values that are cut are the shortest: whoever reads the values before one
the same way reads at least as much there, the last value excepted. -/
theorem cut_shortest {other : List (List α)} (h : cut separator labels text = some values)
    (hOther : Reads separator labels text other) {i : Nat} (hNotLast : i + 1 < labels.length)
    (hSame : other.take i = values.take i) : (values.getD i []).length ≤ (other.getD i []).length := by
  induction labels generalizing text values other i with
  | nil => cases hNotLast
  | cons label labels ih =>
      cases labels with
      | nil =>
          rw [List.length_singleton] at hNotLast
          omega
      | cons next labels =>
          obtain ⟨body, place, rest, hText, hPlace, hRest, rfl⟩ := cut_step.mp h
          obtain ⟨hLength, hRead⟩ := hOther
          match other, hLength with
          | value :: second :: others, hLength =>
            rw [render_cons, hText] at hRead
            have hBody := List.append_cancel_left hRead
            cases i with
            | zero =>
                obtain ⟨tail, hTail⟩ := @render_start _ separator _ _ _ (Nat.succ.inj hLength)
                obtain ⟨-, -, hFirst⟩ := Text.find_eq_some_iff.mp hPlace
                have hPlaced : place ≤ value.length := by
                  by_contra hBefore
                  refine hFirst value.length (Nat.lt_of_not_le hBefore) ?_
                  rw [hBody, List.drop_left, hTail, ← List.append_assoc]
                  exact List.prefix_append _ _
                rw [List.getD_cons_zero, List.getD_cons_zero, List.length_take]
                omega
            | succ i =>
                rw [List.take_succ_cons, List.take_succ_cons, List.cons.injEq] at hSame
                obtain ⟨rfl, hRestSame⟩ := hSame
                have hPlaced : (body.take place).length = place := by
                  rw [List.length_take]
                  exact Nat.min_eq_left (Text.find_eq_some_iff.mp hPlace).1
                rw [List.getD_cons_succ, List.getD_cons_succ]
                refine ih hRest ⟨Nat.succ.inj hLength, ?_⟩ (Nat.lt_of_succ_lt_succ hNotLast) hRestSame
                conv_lhs => rw [hBody]
                rw [← List.append_assoc]
                exact List.drop_left' (by rw [List.length_append, hPlaced])

/-- A delimiter is found behind the value exactly when the value cannot end earlier. -/
theorem find_delimiter_iff {delimiter value rest : List α} :
    Text.find delimiter (value ++ (delimiter ++ rest)) = some value.length ↔ EndsAt delimiter value := by
  rw [Text.find_eq_some_iff, ← List.append_assoc]
  constructor
  · rintro ⟨-, -, hFirst⟩ before after hSplit
    have hSizes := congrArg List.length hSplit
    simp only [List.length_append] at hSizes
    by_contra hMore
    have hPositive := List.length_pos_iff.mpr hMore
    refine hFirst before.length (by omega) ?_
    rw [hSplit, List.append_assoc, List.append_assoc, List.drop_left]
    exact List.prefix_append _ _
  · intro hEnds
    refine ⟨by rw [List.length_append, List.length_append]; omega, ?_, fun m hLess hOccurs => ?_⟩
    · rw [List.append_assoc, List.drop_left]
      exact List.prefix_append _ _
    · have hInside : m ≤ (value ++ delimiter).length := by
        rw [List.length_append]
        omega
      rw [List.drop_append_of_le_length hInside] at hOccurs
      obtain ⟨after, hAfter⟩ := List.prefix_of_prefix_length_le hOccurs (List.prefix_append _ rest) (by
        rw [List.length_drop, List.length_append]
        omega)
      have hNone := hEnds ((value ++ delimiter).take m) after (by
        rw [List.append_assoc, hAfter, List.take_append_drop])
      have hSizes := congrArg List.length hAfter
      rw [hNone, List.append_nil, List.length_drop, List.length_append] at hSizes
      omega

/-- Cutting gives back what was written exactly when no value can be taken to end earlier. -/
theorem cut_render_iff (hSome : labels ≠ []) (hLength : values.length = labels.length) :
    cut separator labels (render separator labels values) = some values ↔
      ∀ pair ∈ values.zip labels.tail, EndsAt (separator ++ pair.2) pair.1 := by
  induction labels generalizing values with
  | nil => exact absurd rfl hSome
  | cons label labels ih =>
      cases labels with
      | nil =>
          obtain ⟨value, rfl⟩ := List.length_eq_one_iff.mp hLength
          simp [cut_last]
      | cons next labels =>
          match values, hLength with
          | value :: second :: values, hLength =>
            rw [List.tail_cons, List.zip_cons_cons, List.forall_mem_cons]
            obtain ⟨tail, hTail⟩ := @render_start _ separator _ _ _ (Nat.succ.inj hLength)
            have hRest := @ih (second :: values) (by simp) (Nat.succ.inj hLength)
            rw [List.tail_cons] at hRest
            rw [render_cons, ← hRest]
            generalize render separator (next :: labels) (second :: values) = written at hTail hRest ⊢
            have hPlaced : Text.find (separator ++ next) (value ++ (separator ++ written)) =
                some value.length ↔ EndsAt (separator ++ next) value := by
              rw [hTail, ← List.append_assoc separator]
              exact find_delimiter_iff
            have hBehind : (value ++ (separator ++ written)).drop (value.length + separator.length) =
                written := by
              rw [← List.append_assoc]
              exact List.drop_left' List.length_append
            rw [cut_step]
            constructor
            · rintro ⟨body, place, rest, hText, hPlace, hCut, hValues⟩
              obtain rfl := List.append_cancel_left hText
              obtain ⟨hValue, rfl⟩ := List.cons.inj hValues
              have hLength := congrArg List.length hValue
              rw [List.length_take, Nat.min_eq_left (Text.find_eq_some_iff.mp hPlace).1] at hLength
              rw [← hLength] at hPlace hCut
              rw [hBehind] at hCut
              exact ⟨hPlaced.mp hPlace, hCut⟩
            · rintro ⟨hEnds, hCut⟩
              refine ⟨_, value.length, _, rfl, hPlaced.mpr hEnds, by rwa [hBehind], ?_⟩
              rw [List.take_left]

end Fields
