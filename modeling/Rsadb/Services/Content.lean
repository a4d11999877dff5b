import Rsadb.Services.CommandLine
import Rsadb.Library.Fields
import Rsadb.Library.Lines
import Rsadb.Library.Utf8Slices

/-! The rows that the `content` tool prints. Text is kept as its UTF-8 bytes;
where the source would panic there is no result. `debug` is how a text is shown
in an error. -/
namespace Rsadb.Content

/-- One row, keyed by projected column name. -/
abbrev Row := Std.ExtTreeMap Bytes Bytes

/-- Take the columns in turn from the text that is left. -/
def parseColumns (debug : Bytes → String) (fields : Bytes) : List Bytes → Bytes → Row → Option (Result Row)
  | [], _, row => some (.ok row)
  | column :: columns, rest, row =>
      match Text.stripPrefix (column ++ ascii "=") rest with
      | none => some (.error (.parse s!"expected column {Utf8.text column} in {debug fields}"))
      | some rest =>
          match columns.head? with
          | some next =>
              match Text.find (ascii ", " ++ next ++ ascii "=") rest with
              | none => some (.error (.parse s!"missing column {Utf8.text next} in {debug fields}"))
              | some place =>
                  (Utf8.sliceTo rest place).bind fun value =>
                    (Utf8.sliceFrom rest (place + 2)).bind fun rest =>
                      parseColumns debug fields columns rest (row.insert column value)
          | none => parseColumns debug fields columns [] (row.insert column rest)

def parseFields (debug : Bytes → String) (fields : Bytes) (projection : List Bytes) : Option (Result Row) :=
  parseColumns debug fields projection fields ∅

/-- How one line of the output changes the rows found so far. -/
def parseLine (debug : Bytes → String) (projection : List Bytes) (rows : List Row) (line : Bytes) :
    Option (Result (List Row)) :=
  let line := Text.trimEnd 13 line
  match Text.stripPrefix (ascii "Row: ") line with
  | none =>
      if line = [] ∨ line = ascii "No result found." then some (.ok rows)
      else match projection.getLast?, rows.getLast? with
        | some column, some row =>
            some (.ok (rows.dropLast ++ [row.insert column (row.getD column [] ++ 10 :: line)]))
        | _, _ => some (.error (.parse s!"unexpected content line: {debug line}"))
  | some rest =>
      match Text.splitOnce (ascii " ") rest with
      | none => some (.error (.parse s!"row without fields: {debug line}"))
      | some (_, fields) => (parseFields debug fields projection).map fun row => row.map fun row => rows ++ [row]

def parseLines (debug : Bytes → String) (projection : List Bytes) : List Row → List Bytes →
    Option (Result (List Row))
  | rows, [] => some (.ok rows)
  | rows, line :: lines =>
      match parseLine debug projection rows line with
      | some (.ok rows) => parseLines debug projection rows lines
      | other => other

/-- Parse `content query` output into rows using the projected column order. -/
def parseRows (debug : Bytes → String) (output : Bytes) (projection : List Bytes) : Option (Result (List Row)) :=
  parseLines debug projection [] (Text.lines output)

/-- Count `Row:` lines (for the `_id`-only cross-check). -/
def countRows (output : Bytes) : Nat :=
  ((Text.lines output).filter fun line => (ascii "Row: ").isPrefixOf line).length

/-- A row as the tool prints its columns. -/
def printed (columns values : List Bytes) : Bytes :=
  Fields.render (ascii ", ") (columns.map (· ++ ascii "=")) values

/-- Enter values under their columns. -/
def fill (row : Row) (entries : List (Bytes × Bytes)) : Row :=
  entries.foldl (fun row entry => row.insert entry.1 entry.2) row

theorem valid_equals : Utf8.Valid (ascii "=") := ⟨"=", rfl⟩

theorem valid_label {column : Bytes} (h : Utf8.Valid column) : Utf8.Valid (column ++ ascii "=") :=
  h.append valid_equals

/-- A separator may be cut off in front. -/
private theorem comma_leads {rest : Bytes} : ∀ byte ∈ (ascii ", " ++ rest).head?, Utf8.leads byte = true := by
  rintro byte ⟨⟩
  rfl

/-- Where the next column is found the text falls into a value, a separator and the rest. -/
private theorem split_found {body next : Bytes} {place : Nat} (hBody : Utf8.Valid body)
    (hPlace : Text.find (ascii ", " ++ next ++ ascii "=") body = some place) :
    ∃ value rest, body = value ++ (ascii ", " ++ rest) ∧ value.length = place ∧ Utf8.Valid value ∧
      Utf8.Valid rest ∧ ∀ byte ∈ rest.head?, Utf8.leads byte = true := by
  obtain ⟨hInside, ⟨after, hAfter⟩, -⟩ := Text.find_eq_some_iff.mp hPlace
  rw [List.append_assoc, List.append_assoc] at hAfter
  have hSplit : body = body.take place ++ (ascii ", " ++ (next ++ ascii "=" ++ after)) := by
    rw [List.append_assoc, hAfter, List.take_append_drop]
  have hLength : (body.take place).length = place := by
    rw [List.length_take]
    exact Nat.min_eq_left hInside
  obtain ⟨hValue, hRest⟩ := Utf8.Valid.split (hSplit ▸ hBody) comma_leads
  have hBehind := hRest.of_append ⟨", ", rfl⟩
  refine ⟨_, _, hSplit, hLength, hValue, hBehind, fun byte hHead => ?_⟩
  obtain ⟨others, hOthers⟩ := List.head?_eq_some_iff.mp hHead
  exact Utf8.Valid.leads_head (hOthers ▸ hBehind)

variable {debug : Bytes → String} {fields rest : Bytes} {projection columns : List Bytes} {row : Row}

/-- What becomes of a row: the values found are entered under the columns, and
where none are found there is a parse error. -/
inductive Parsed (row : Row) (columns : List Bytes) : Option (List Bytes) → Option (Result Row) → Prop where
  | found (values : List Bytes) : Parsed row columns (some values) (some (.ok (fill row (columns.zip values))))
  | missing (message : String) : Parsed row columns none (some (.error (.parse message)))

/-- The loop over the columns cuts the text at its labels, and panics nowhere. -/
theorem parsed_columns (hText : Utf8.Valid rest) (hColumns : ∀ column ∈ columns, Utf8.Valid column) :
    Parsed row columns (Fields.cut (ascii ", ") (columns.map (· ++ ascii "=")) rest)
      (parseColumns debug fields columns rest row) := by
  induction columns generalizing rest row with
  | nil => exact .found []
  | cons column columns ih =>
      obtain ⟨hColumn, hOthers⟩ := List.forall_mem_cons.mp hColumns
      cases columns with
      | nil =>
          simp only [List.map_cons, List.map_nil, Fields.cut, parseColumns, List.head?_nil]
          cases Text.stripPrefix (column ++ ascii "=") rest with
          | none => exact .missing _
          | some value => exact .found [value]
      | cons next columns =>
          simp only [List.map_cons, Fields.cut]
          rw [parseColumns, List.head?_cons]
          cases hStrip : Text.stripPrefix (column ++ ascii "=") rest with
          | none => exact .missing _
          | some body =>
              rw [Text.stripPrefix_eq_some_iff] at hStrip
              have hBody := Utf8.Valid.of_append (hStrip ▸ hText) (valid_label hColumn)
              simp only [Option.bind_some, ← List.append_assoc]
              cases hPlace : Text.find (ascii ", " ++ next ++ ascii "=") body with
              | none => exact .missing _
              | some place =>
                  obtain ⟨value, behind, rfl, rfl, -, hBehind, hLeads⟩ :=
                    split_found hBody hPlace
                  have hTwo : (value ++ ascii ", ").length = value.length + 2 := List.length_append
                  have hTo := @Utf8.sliceTo_append value (ascii ", " ++ behind) comma_leads
                  have hFrom := @Utf8.sliceFrom_append (value ++ ascii ", ") behind hLeads
                  have hDrop : (value ++ (ascii ", " ++ behind)).drop (value.length + (ascii ", ").length) = behind := by
                    rw [← List.append_assoc]
                    exact List.drop_left' hTwo
                  rw [hTwo, List.append_assoc] at hFrom
                  simp only [hTo, hFrom, hDrop, Option.bind_some, List.take_left]
                  have hRest := @ih behind (row.insert column value) hBehind hOthers
                  rw [List.map_cons] at hRest
                  revert hRest
                  generalize Fields.cut (ascii ", ") _ behind = found
                  generalize parseColumns debug fields (next :: columns) behind _ = result
                  rintro (values | message)
                  · exact .found (value :: values)
                  · exact .missing message

/-- The pieces that a text is cut into are texts. -/
theorem valid_of_cut {values : List Bytes} (hText : Utf8.Valid rest)
    (hColumns : ∀ column ∈ columns, Utf8.Valid column)
    (h : Fields.cut (ascii ", ") (columns.map (· ++ ascii "=")) rest = some values) :
    ∀ value ∈ values, Utf8.Valid value := by
  induction columns generalizing rest values with
  | nil =>
      obtain rfl := Option.some.inj h
      simp
  | cons column columns ih =>
      obtain ⟨hColumn, hOthers⟩ := List.forall_mem_cons.mp hColumns
      cases columns with
      | nil =>
          obtain ⟨value, hStrip, rfl⟩ := Option.map_eq_some_iff.mp h
          rw [Text.stripPrefix_eq_some_iff] at hStrip
          rw [List.forall_mem_singleton]
          exact Utf8.Valid.of_append (hStrip ▸ hText) (valid_label hColumn)
      | cons next columns =>
          obtain ⟨body, hStrip, place, hPlace, found, hFound, rfl⟩ := by
            simpa only [List.map_cons, Fields.cut, Option.bind_eq_some_iff, Option.map_eq_some_iff] using h
          rw [Text.stripPrefix_eq_some_iff] at hStrip
          rw [← List.append_assoc] at hPlace
          obtain ⟨value, behind, rfl, rfl, hValue, hBehind, -⟩ :=
            split_found (Utf8.Valid.of_append (hStrip ▸ hText) (valid_label hColumn)) hPlace
          rw [← List.append_assoc, List.drop_left' List.length_append] at hFound
          rw [List.take_left, List.forall_mem_cons]
          exact ⟨hValue, ih hBehind hOthers hFound⟩

theorem getD_fill_of_notMem {column : Bytes} {values : List Bytes} (h : column ∉ columns) :
    (fill row (columns.zip values)).getD column [] = row.getD column [] := by
  induction columns generalizing row values with
  | nil => rfl
  | cons other columns ih =>
      cases values with
      | nil => rfl
      | cons value values =>
          obtain ⟨hOther, hRest⟩ := not_or.mp (mt List.mem_cons.mpr h)
          rw [List.zip_cons_cons, fill, List.foldl_cons, ← fill, ih hRest, Std.ExtTreeMap.getD_insert,
            if_neg (by simpa using Ne.symm hOther)]

/-- Distinct columns keep the values that are entered under them. -/
theorem map_getD_fill {values : List Bytes} (hDistinct : columns.Nodup) (hLength : values.length = columns.length) :
    columns.map (fun column => (fill row (columns.zip values)).getD column []) = values := by
  induction columns generalizing row values with
  | nil => exact (List.length_eq_zero_iff.mp hLength).symm
  | cons column columns ih =>
      cases values with
      | nil => cases hLength
      | cons value values =>
          obtain ⟨hNew, hOthers⟩ := List.nodup_cons.mp hDistinct
          have hFill : fill row ((column :: columns).zip (value :: values)) =
              fill (row.insert column value) (columns.zip values) := rfl
          rw [List.map_cons, hFill, ih hOthers (Nat.succ.inj hLength), getD_fill_of_notMem hNew,
            Std.ExtTreeMap.getD_insert_self]

theorem mem_fill {column : Bytes} {values : List Bytes} (hLength : values.length = columns.length) :
    column ∈ fill row (columns.zip values) ↔ column ∈ columns ∨ column ∈ row := by
  induction columns generalizing row values with
  | nil => simp [fill]
  | cons other columns ih =>
      cases values with
      | nil => cases hLength
      | cons value values =>
          rw [List.zip_cons_cons, fill, List.foldl_cons, ← fill, ih (Nat.succ.inj hLength)]
          simp only [Std.ExtTreeMap.mem_insert, List.mem_cons]
          simp only [Std.compare_eq_iff_eq]
          tauto

/-- Splitting fails nowhere inside the text. It succeeds exactly on what can be
written from some values; the row then holds the projected columns, is the text
again when it is written out, and has under each column but the last the shortest
value that the ones before it allow. -/
theorem parseFields_splits (debug : Bytes → String) {fields : Bytes} {projection : List Bytes}
    (hText : Utf8.Valid fields) (hColumns : ∀ column ∈ projection, Utf8.Valid column)
    (hSome : projection ≠ []) (hDistinct : projection.Nodup) :
    ∃ result, parseFields debug fields projection = some result ∧
      ((∃ row, result = .ok row) ↔ ∃ values, (∀ value ∈ values, Utf8.Valid value) ∧
        values.length = projection.length ∧ fields = printed projection values) ∧
      ∀ row, result = .ok row →
        let values := projection.map fun column => row.getD column []
        (∀ column, column ∈ row ↔ column ∈ projection) ∧ (∀ value ∈ values, Utf8.Valid value) ∧
          printed projection values = fields ∧
          ∀ other : List Bytes, other.length = projection.length → fields = printed projection other →
            ∀ i, i + 1 < projection.length → other.take i = values.take i →
              (values.getD i []).length ≤ (other.getD i []).length := by
  have hLabels : projection.map (· ++ ascii "=") ≠ [] := by simpa using hSome
  have hParsed := @parsed_columns debug fields fields projection ∅ hText hColumns
  rw [← parseFields] at hParsed
  generalize hCut : Fields.cut (ascii ", ") (projection.map (· ++ ascii "=")) fields = found at hParsed
  generalize parseFields debug fields projection = result at hParsed ⊢
  rcases hParsed with values | message
  · have hReads := Fields.reads_of_cut hLabels hCut
    have hLength : values.length = projection.length := by rw [hReads.1, List.length_map]
    have hValid := valid_of_cut hText hColumns hCut
    refine ⟨_, rfl, ⟨fun _ => ⟨values, hValid, hLength, hReads.2⟩, fun _ => ⟨_, rfl⟩⟩, ?_⟩
    rintro row hRow
    obtain rfl := Except.ok.inj hRow
    rw [map_getD_fill hDistinct hLength]
    refine ⟨fun column => ?_, hValid, hReads.2.symm, fun other hOther hText i hNotLast hSame => ?_⟩
    · simp [mem_fill hLength]
    · refine Fields.cut_shortest hCut ⟨?_, hText⟩ ?_ hSame
      · rw [hOther, List.length_map]
      · rwa [List.length_map]
  · refine ⟨_, rfl, ⟨?_, ?_⟩, fun row hRow => by cases hRow⟩
    · rintro ⟨row, hRow⟩
      cases hRow
    · rintro ⟨values, -, hLength, hText⟩
      obtain ⟨found, hFound⟩ := Fields.cut_of_reads hLabels ⟨by rw [hLength, List.length_map], hText⟩
      rw [hCut] at hFound
      cases hFound

theorem parseFields_splits_message : ∃ row, parseFields (fun _ => "") (ascii "_id=1, body=Hello, world")
    [ascii "_id", ascii "body"] = some (.ok row) := by
  obtain ⟨result, hResult, hIff, -⟩ := @parseFields_splits (fun _ => "") (ascii "_id=1, body=Hello, world")
    [ascii "_id", ascii "body"] ⟨"_id=1, body=Hello, world", by decide⟩
    (List.forall_mem_cons.mpr ⟨⟨"_id", by decide⟩, List.forall_mem_singleton.mpr ⟨"body", by decide⟩⟩)
    (by simp) (by decide)
  obtain ⟨row, rfl⟩ := hIff.mpr ⟨[ascii "1", ascii "Hello, world"],
    List.forall_mem_cons.mpr ⟨⟨"1", by decide⟩, List.forall_mem_singleton.mpr ⟨"Hello, world", by decide⟩⟩,
    rfl, by decide⟩
  exact ⟨row, hResult⟩

end Rsadb.Content
