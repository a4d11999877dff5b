import Rsadb.Services.Content

/-! The lines that make up a row. A table is printed row by row, each behind its
heading; since values are not escaped a row may go on over several lines, which
the parser gives to its last column. -/
namespace Rsadb.Content

/-- A number in decimal digits. -/
def decimal (number : Nat) : Bytes := (Nat.toDigits 10 number).map fun digit => UInt8.ofNat digit.toNat

def heading (number : Nat) : Bytes := ascii "Row: " ++ decimal number ++ ascii " "

/-- The rows of a table as the tool prints them, each behind its heading. -/
def printRows (number : Nat) : List Bytes → Bytes
  | [] => []
  | body :: bodies => heading number ++ body ++ 10 :: printRows (number + 1) bodies

/-- What the tool prints for a table. Of one without rows it prints the notice, and
never an empty text. -/
def printTable (bodies : List Bytes) : Bytes :=
  if bodies = [] then ascii "No result found.\n" else printRows 0 bodies

theorem decimal_digits {number : Nat} {byte : UInt8} (h : byte ∈ decimal number) : 48 ≤ byte ∧ byte ≤ 57 := by
  obtain ⟨digit, hDigit, rfl⟩ := List.mem_map.mp h
  have hRange := Nat.isDigit_of_mem_toDigits (by decide) (by decide) hDigit
  simp only [Char.isDigit, Bool.and_eq_true, decide_eq_true_eq, ge_iff_le, UInt32.le_iff_toNat_le] at hRange
  have hNat : 48 ≤ digit.toNat ∧ digit.toNat ≤ 57 := hRange
  have hByte : digit.toNat < 256 := by omega
  rw [UInt8.le_iff_toNat_le, UInt8.le_iff_toNat_le, UInt8.toNat_ofNat_of_lt' hByte]
  exact hNat

theorem notMem_heading {number : Nat} : 10 ∉ heading number := by
  simp only [heading, List.mem_append, not_or]
  refine ⟨⟨by decide, fun hDigit => ?_⟩, by decide⟩
  exact absurd (decimal_digits hDigit).1 (by decide)

/-- The lines of one row, without what ends them. -/
def group (number : Nat) (body : Bytes) : List Bytes := (body.splitOn 10).modifyHead (heading number ++ ·)

/-- The lines of a printed row come before those of the next ones. -/
theorem lines_row (number : Nat) (body rest : Bytes) : Text.lines (heading number ++ body ++ 10 :: rest) =
    (group number body).map Text.dropReturn ++ Text.lines rest := by
  rw [Text.lines_append, Text.splitOn_append_left notMem_heading]
  rfl

/-- The line opens a row. -/
def opens (line : Bytes) : Bool := (ascii "Row: ").isPrefixOf line

theorem opens_iff {line : Bytes} : opens line = true ↔ ascii "Row: " <+: line := List.isPrefixOf_iff_prefix

theorem opens_trimEnd (line : Bytes) : opens (Text.trimEnd 13 line) = opens line := by
  rw [Bool.eq_iff_iff, opens_iff, opens_iff, Text.prefix_trimEnd_iff (by decide)]

theorem opens_dropReturn (line : Bytes) : opens (Text.dropReturn line) = opens line := by
  rw [Bool.eq_iff_iff, opens_iff, opens_iff, Text.prefix_dropReturn_iff (by decide)]

theorem opens_heading (number : Nat) (fields : Bytes) : opens (heading number ++ fields) = true := by
  rw [opens_iff, heading, List.append_assoc, List.append_assoc]
  exact List.prefix_append _ _

/-- The row after one more line of its last column. -/
def extend (column : Bytes) (row : Row) (line : Bytes) : Row :=
  if Text.trimEnd 13 line = [] ∨ Text.trimEnd 13 line = ascii "No result found." then row
  else row.insert column (row.getD column [] ++ 10 :: Text.trimEnd 13 line)

variable {debug : Bytes → String} {projection : List Bytes} {rows : List Row}

theorem parseLine_dropReturn (line : Bytes) :
    parseLine debug projection rows (Text.dropReturn line) = parseLine debug projection rows line := by
  rw [parseLine, parseLine, Text.trimEnd_dropReturn]

/-- The heading is taken off a row, and carriage returns at its end are ignored. -/
theorem parseLine_heading (number : Nat) (fields : Bytes) :
    parseLine debug projection rows (heading number ++ fields) =
      (parseFields debug (Text.trimEnd 13 fields) projection).map fun row =>
        row.map fun row => rows ++ [row] := by
  have hSpace : (32 : UInt8) ∉ decimal number := fun hDigit => absurd (decimal_digits hDigit).1 (by decide)
  have hTrimmed : Text.trimEnd 13 (heading number ++ fields) =
      ascii "Row: " ++ (decimal number ++ 32 :: Text.trimEnd 13 fields) := by
    rw [Text.trimEnd_append, heading, List.append_assoc, List.append_assoc]
    · rfl
    · rintro ⟨before, hBefore⟩
      rw [heading] at hBefore
      exact absurd (List.append_inj' hBefore rfl).2 (by decide)
  rw [parseLine, hTrimmed, Text.stripPrefix_append]
  simp only
  rw [show ascii " " = [32] from rfl, Text.splitOnce_append hSpace]

/-- A line that opens no row belongs to the row before it. -/
theorem parseLine_continued {column line : Bytes} {row : Row} (hLine : opens line = false)
    (hColumn : projection.getLast? = some column) : parseLine debug projection (rows ++ [row]) line =
      some (.ok (rows ++ [extend column row line])) := by
  have hNone : Text.stripPrefix (ascii "Row: ") (Text.trimEnd 13 line) = none := by
    rw [← opens_trimEnd, opens] at hLine
    rw [Text.stripPrefix, hLine]
    rfl
  rw [parseLine, hNone, extend]
  simp only [hColumn, List.getLast?_concat, List.dropLast_concat]
  split_ifs <;> rfl

/-- A line that is accepted adds a row when it opens one, and none otherwise. -/
theorem length_parseLine {line : Bytes} {found : List Row}
    (h : parseLine debug projection rows line = some (.ok found)) :
    found.length = rows.length + if opens line then 1 else 0 := by
  rw [← opens_trimEnd, opens]
  unfold parseLine at h
  cases hOpens : (ascii "Row: ").isPrefixOf (Text.trimEnd 13 line) with
  | true =>
      -- The row that the line opens is added behind the others.
      simp only [Text.stripPrefix, hOpens, if_true] at h ⊢
      split at h
      · cases h
      · obtain ⟨result, -, hResult⟩ := Option.map_eq_some_iff.mp h
        cases result with
        | error e => cases hResult
        | ok row =>
            obtain rfl := Except.ok.inj hResult
            exact List.length_append
  | false =>
      simp only [Text.stripPrefix, hOpens, Bool.false_eq_true, if_false] at h ⊢
      split_ifs at h with hSkipped
      · obtain rfl := Except.ok.inj (Option.some.inj h)
        rfl
      · split at h
        · rename_i column row _ hLast
          obtain rfl := Except.ok.inj (Option.some.inj h)
          have hSome : rows ≠ [] := fun hNone => by
            rw [hNone] at hLast
            cases hLast
          rw [List.length_append, List.length_dropLast, List.length_singleton]
          exact Nat.sub_add_cancel (List.length_pos_iff.mpr hSome)
        · cases h

theorem parseLines_append (first second : List Bytes) :
    parseLines debug projection rows (first ++ second) = match parseLines debug projection rows first with
      | some (.ok rows) => parseLines debug projection rows second
      | other => other := by
  induction first generalizing rows with
  | nil => rfl
  | cons line first ih =>
      rw [List.cons_append, parseLines, parseLines]
      rcases parseLine debug projection rows line with _ | e | rows'
      · rfl
      · rfl
      · exact ih

theorem parseLines_dropReturn (lines : List Bytes) :
    parseLines debug projection rows (lines.map Text.dropReturn) = parseLines debug projection rows lines := by
  induction lines generalizing rows with
  | nil => rfl
  | cons line lines ih =>
      rw [List.map_cons, parseLines, parseLines, parseLine_dropReturn]
      split
      · exact ih
      · rfl

theorem parseLines_continued {column : Bytes} {lines : List Bytes} {row : Row}
    (hLines : ∀ line ∈ lines, opens line = false) (hColumn : projection.getLast? = some column) :
    parseLines debug projection (rows ++ [row]) lines =
      some (.ok (rows ++ [lines.foldl (extend column) row])) := by
  induction lines generalizing row with
  | nil => rfl
  | cons line lines ih =>
      obtain ⟨hLine, hRest⟩ := List.forall_mem_cons.mp hLines
      rw [parseLines, parseLine_continued hLine hColumn]
      exact ih hRest

theorem length_parseLines {lines : List Bytes} {found : List Row}
    (h : parseLines debug projection rows lines = some (.ok found)) :
    found.length = rows.length + lines.countP opens := by
  induction lines generalizing rows with
  | nil =>
      obtain rfl := Except.ok.inj (Option.some.inj h)
      rfl
  | cons line lines ih =>
      rw [parseLines] at h
      split at h
      · rename_i middle hLine
        rw [ih h, length_parseLine hLine, List.countP_cons]
        omega
      · rename_i hOther
        exact absurd h (hOther found)

/-- The row that is read from what is printed behind one heading. -/
def rowOf (debug : Bytes → String) (projection : List Bytes) (column body : Bytes) : Option (Result Row) :=
  (parseFields debug (Text.trimEnd 13 ((body.splitOn 10).headD [])) projection).map fun row =>
    row.map ((body.splitOn 10).tail.foldl (extend column))

/-- No line after the first opens a row. -/
def Unforged (body : Bytes) : Prop := ∀ line ∈ (body.splitOn 10).tail, opens line = false

variable {column body : Bytes} {bodies : List Bytes} {number : Nat}

theorem group_eq (number : Nat) (body : Bytes) :
    group number body = (heading number ++ (body.splitOn 10).headD []) :: (body.splitOn 10).tail := by
  obtain ⟨first, others, hLines⟩ := List.exists_cons_of_ne_nil (List.splitOn_ne_nil 10 body)
  rw [group, hLines]
  rfl

theorem parseLines_group (hColumn : projection.getLast? = some column) (hBody : Unforged body) :
    parseLines debug projection rows (group number body) =
      (rowOf debug projection column body).map fun row => row.map fun row => rows ++ [row] := by
  rw [group_eq, parseLines, parseLine_heading, rowOf]
  rcases parseFields debug (Text.trimEnd 13 ((body.splitOn 10).headD [])) projection with _ | e | row
  · rfl
  · rfl
  · exact parseLines_continued hBody hColumn

/-- Rows without forged lines are read one by one. -/
theorem parseLines_rows (hColumn : projection.getLast? = some column)
    (hBodies : ∀ body ∈ bodies, Unforged body) {found : List Row} :
    parseLines debug projection rows (Text.lines (printRows number bodies)) = some (.ok found) ↔
      ∃ new, found = rows ++ new ∧
        bodies.map (rowOf debug projection column) = new.map fun row => some (.ok row) := by
  induction bodies generalizing number rows with
  | nil =>
      have hNone : parseLines debug projection rows (Text.lines (printRows number [])) = some (.ok rows) := rfl
      rw [hNone]
      constructor
      · intro h
        obtain rfl := Except.ok.inj (Option.some.inj h)
        exact ⟨[], (List.append_nil _).symm, rfl⟩
      · rintro ⟨new, rfl, hNew⟩
        rw [List.map_eq_nil_iff.mp hNew.symm, List.append_nil]
  | cons body bodies ih =>
      obtain ⟨hBody, hOthers⟩ := List.forall_mem_cons.mp hBodies
      rw [printRows, lines_row, parseLines_append, parseLines_dropReturn, parseLines_group hColumn hBody]
      simp only [List.map_cons]
      rcases rowOf debug projection column body with _ | e | row
      · constructor
        · rintro ⟨⟩
        · rintro ⟨_ | _, -, hNew⟩ <;> cases hNew
      · constructor
        · rintro ⟨⟩
        · rintro ⟨_ | _, -, hNew⟩ <;> cases hNew
      · refine (ih hOthers).trans ⟨?_, ?_⟩
        · rintro ⟨new, rfl, hNew⟩
          exact ⟨row :: new, by rw [List.append_assoc, List.singleton_append], by rw [List.map_cons, hNew]⟩
        · rintro ⟨_ | ⟨other, new⟩, rfl, hNew⟩
          · cases hNew
          · obtain ⟨hSame, hRest⟩ := List.cons.inj hNew
            obtain rfl := Except.ok.inj (Option.some.inj hSame)
            exact ⟨new, by rw [List.append_assoc, List.singleton_append], hRest⟩

/-- A table without forged lines is read as the rows that its parts are read as. -/
theorem parseRows_printTable (hColumn : projection.getLast? = some column)
    (hBodies : ∀ body ∈ bodies, Unforged body) :
    parseRows debug (printTable bodies) projection = some (.ok rows) ↔
      bodies.map (rowOf debug projection column) = rows.map fun row => some (.ok row) := by
  unfold printTable
  split_ifs with hEmpty
  · have hLines : Text.lines (ascii "No result found.\n") = [ascii "No result found."] := by decide
    have hNone : parseRows debug (ascii "No result found.\n") projection = some (.ok []) := by
      rw [parseRows, hLines]
      rfl
    rw [hNone, hEmpty, List.map_nil]
    constructor
    · intro h
      obtain rfl := Except.ok.inj (Option.some.inj h)
      rfl
    · intro h
      rw [List.map_eq_nil_iff.mp h.symm]
  · rw [parseRows, parseLines_rows hColumn hBodies]
    simp

theorem countRows_eq (output : Bytes) : countRows output = (Text.lines output).countP opens := by
  rw [countRows, List.countP_eq_length_filter]
  rfl

/-- Every row is counted, and so is every line in a value that reads like one. -/
theorem countP_printRows (number : Nat) (bodies : List Bytes) :
    (Text.lines (printRows number bodies)).countP opens =
      bodies.length + (bodies.map fun body => (body.splitOn 10).tail.countP opens).sum := by
  induction bodies generalizing number with
  | nil => rfl
  | cons body bodies ih =>
      have hReturn : (opens ∘ Text.dropReturn : Bytes → Bool) = opens := funext opens_dropReturn
      rw [printRows, lines_row, List.countP_append, List.countP_map, hReturn, ih, group_eq, List.countP_cons,
        opens_heading, if_pos rfl, List.map_cons, List.sum_cons, List.length_cons]
      omega

/-- What is printed for a table counts at least its rows, and no more when no line is forged. -/
theorem countRows_printTable (bodies : List Bytes) : countRows (printTable bodies) =
    bodies.length + (bodies.map fun body => (body.splitOn 10).tail.countP opens).sum := by
  rw [countRows_eq, printTable]
  split_ifs with hEmpty
  · rw [hEmpty]
    decide
  · exact countP_printRows 0 bodies

theorem countRows_of_plain (h : ∀ body ∈ bodies, 10 ∉ body) : countRows (printTable bodies) = bodies.length := by
  rw [countRows_printTable, List.sum_eq_zero_iff_forall_eq_nat.mpr, Nat.add_zero]
  intro count hCount
  obtain ⟨body, hBody, rfl⟩ := List.mem_map.mp hCount
  rw [List.splitOn_eq_singleton (h body hBody)]
  rfl

theorem unforged_of_count (h : countRows (printTable bodies) = bodies.length) :
    ∀ body ∈ bodies, Unforged body := by
  intro body hBody line hLine
  rw [countRows_printTable] at h
  have hSum : (bodies.map fun body => (body.splitOn 10).tail.countP opens).sum = 0 := by omega
  have hNone := List.sum_eq_zero_iff_forall_eq_nat.mp hSum _ (List.mem_map_of_mem hBody)
  exact Bool.eq_false_iff.mpr (List.countP_eq_zero.mp hNone line hLine)

/-- Parsing gives as many rows as are counted. -/
theorem length_parseRows {output : Bytes} (h : parseRows debug output projection = some (.ok rows)) :
    rows.length = countRows output := by
  rw [length_parseLines h, countRows_eq, List.length_nil, Nat.zero_add]

theorem heading_ascii {number : Nat} : ∀ byte ∈ heading number, byte < 0x80 := by
  have hRow : ∀ byte ∈ ascii "Row: ", byte < 0x80 := by simp [ascii]
  have hSpace : ∀ byte ∈ ascii " ", byte < 0x80 := by simp [ascii]
  simp only [heading, List.mem_append, or_imp, forall_and]
  exact ⟨⟨hRow, fun byte hDigit => UInt8.lt_of_le_of_lt (decimal_digits hDigit).2 (by decide)⟩, hSpace⟩

/-- Broken characters stay inside the rows that they are in. -/
theorem lossy_printRows (number : Nat) (bodies : List Bytes) :
    Utf8.lossy (printRows number bodies) = printRows number (bodies.map Utf8.lossy) := by
  induction bodies generalizing number with
  | nil => rfl
  | cons body bodies ih =>
      rw [printRows, List.map_cons, printRows, List.append_assoc, Utf8.lossy_ascii heading_ascii,
        Utf8.lossy_append (by decide), ih, List.append_assoc]

theorem lossy_printTable (bodies : List Bytes) :
    Utf8.lossy (printTable bodies) = printTable (bodies.map Utf8.lossy) := by
  unfold printTable
  simp only [List.map_eq_nil_iff]
  split_ifs
  · decide
  · exact lossy_printRows 0 bodies

end Rsadb.Content
