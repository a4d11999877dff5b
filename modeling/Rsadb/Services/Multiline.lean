import Rsadb.Services.ContentRows

/-! What becomes of a value that is printed on several lines. The lines that
follow the first are given back to the last column one by one, but carriage
returns at their ends, empty lines and lines that read like the notice of an
empty result are not. -/
namespace Rsadb.Content

open Utf8 (Valid)

/-- A row with these values under the projected columns. -/
def toRow (projection values : List Bytes) : Row := fill ∅ (projection.zip values)

/-- What the values of a row are assumed to be: texts, one for each column. Those
before the last have no line feed in them, and not the column that follows; no
line of the last but its first reads like the start of a row. -/
structure Printable (projection values : List Bytes) : Prop where
  complete : values.length = projection.length
  texts : ∀ value ∈ values, Valid value
  plain : ∀ pair ∈ values.zip projection.tail, 10 ∉ pair.1 ∧ ¬ascii ", " ++ pair.2 ++ ascii "=" <:+: pair.1
  unforged : Unforged (values.getLastD [])

/-- The values that come back as they were printed. -/
structure Kept (projection values : List Bytes) : Prop where
  ends : ∀ pair ∈ values.zip projection.tail, Fields.EndsAt (ascii ", " ++ pair.2 ++ ascii "=") pair.1
  returns : ∀ line ∈ (values.getLastD []).splitOn 10, ¬[13] <:+ line
  lines : ∀ line ∈ ((values.getLastD []).splitOn 10).tail, line ≠ [] ∧ line ≠ ascii "No result found."

/-- What one more line adds to the last value. -/
def kept (line : Bytes) : Bytes :=
  if Text.trimEnd 13 line = [] ∨ Text.trimEnd 13 line = ascii "No result found." then []
  else 10 :: Text.trimEnd 13 line

/-- Everything that is printed before the last value of a row. -/
def lead (columns init : List Bytes) (column : Bytes) : Bytes :=
  Fields.front (ascii ", ") (columns.map (· ++ ascii "=")) init ++ (column ++ ascii "=")

section row

variable {columns init lines : List Bytes} {column last value : Bytes}

theorem printed_concat (hLength : columns.length = init.length) :
    printed (columns ++ [column]) (init ++ [value]) = lead columns init column ++ value := by
  rw [printed, List.map_append, List.map_singleton, Fields.render_concat (by rw [List.length_map, hLength]), lead,
    List.append_assoc, List.append_assoc, List.append_assoc]

theorem notMem_lead (hColumns : ∀ c ∈ columns, 10 ∉ c) (hColumn : 10 ∉ column) (hInit : ∀ v ∈ init, 10 ∉ v) :
    10 ∉ lead columns init column := by
  have hFront : 10 ∉ Fields.front (ascii ", ") (columns.map (· ++ ascii "=")) init := by
    refine Fields.front_closed (by simp) (fun a b hA hB => by simp [hA, hB]) (by decide) ?_ hInit
    rintro label hLabel
    obtain ⟨c, hMem, rfl⟩ := List.mem_map.mp hLabel
    have hEquals : (10 : UInt8) ∉ ascii "=" := by decide
    simp [hColumns c hMem, hEquals]
  have hEquals : (10 : UInt8) ∉ ascii "=" := by decide
  simp [lead, hFront, hColumn, hEquals]

theorem valid_lead (hColumns : ∀ c ∈ columns, Valid c) (hColumn : Valid column) (hInit : ∀ v ∈ init, Valid v) :
    Valid (lead columns init column) := by
  refine Valid.append (Fields.front_closed Utf8.valid_nil (fun a b hA hB => hA.append hB) ⟨", ", rfl⟩ ?_ hInit)
    (valid_label hColumn)
  rintro label hLabel
  obtain ⟨c, hMem, rfl⟩ := List.mem_map.mp hLabel
  exact valid_label (hColumns c hMem)

/-- Trimming the first line of a row trims the first line of its last value. -/
theorem trimEnd_lead (line : Bytes) : Text.trimEnd 13 (lead columns init column ++ line) =
    lead columns init column ++ Text.trimEnd 13 line := by
  refine Text.trimEnd_append ?_ line
  rintro ⟨before, hBefore⟩
  rw [lead, ← List.append_assoc] at hBefore
  exact absurd (List.append_inj' hBefore rfl).2 (by decide)

theorem toRow_concat (hLength : columns.length = init.length) :
    toRow (columns ++ [column]) (init ++ [value]) = (toRow columns init).insert column value := by
  rw [toRow, List.zip_append hLength, fill, List.foldl_append]
  rfl

/-- The lines after the first go to the last value of a row. -/
theorem foldl_extend (hLength : columns.length = init.length) :
    lines.foldl (extend column) (toRow (columns ++ [column]) (init ++ [value])) =
      toRow (columns ++ [column]) (init ++ [value ++ lines.flatMap kept]) := by
  induction lines generalizing value with
  | nil => rw [List.foldl_nil, List.flatMap_nil, List.append_nil]
  | cons line lines ih =>
      have hLine : extend column (toRow (columns ++ [column]) (init ++ [value])) line =
          toRow (columns ++ [column]) (init ++ [value ++ kept line]) := by
        rw [extend, kept]
        split_ifs with hSkipped
        · rw [List.append_nil]
        · rw [toRow_concat hLength, toRow_concat hLength, Std.ExtTreeMap.getD_insert_self]
          refine Std.ExtTreeMap.ext_getElem? fun key => ?_
          simp only [Std.ExtTreeMap.getElem?_insert]
          split_ifs <;> rfl
      rw [List.foldl_cons, hLine, ih, List.flatMap_cons, List.append_assoc]

/-- What is printed for a row falls into lines where the last value does. -/
theorem splitOn_printed (hLength : columns.length = init.length) (hColumns : ∀ c ∈ columns, 10 ∉ c)
    (hColumn : 10 ∉ column) (hInit : ∀ v ∈ init, 10 ∉ v) :
    (printed (columns ++ [column]) (init ++ [last])).splitOn 10 =
      (last.splitOn 10).modifyHead (lead columns init column ++ ·) := by
  rw [printed_concat hLength, Text.splitOn_append_left (notMem_lead hColumns hColumn hInit)]

/-- The first line of a text, trimmed, is a text. -/
theorem valid_first (hLast : Valid last) : Valid (Text.trimEnd 13 ((last.splitOn 10).headD [])) := by
  have hFirst : Valid ((last.splitOn 10).headD []) := by
    rw [← Text.splitOn_join 10 last] at hLast
    refine (Valid.split hLast fun byte hHead => ?_).1
    cases hTail : (last.splitOn 10).tail with
    | nil =>
        rw [hTail] at hHead
        cases hHead
    | cons line lines =>
        rw [hTail] at hHead
        obtain rfl := Option.some.inj hHead
        rfl
  obtain ⟨trimmed, hTrimmed, hAll⟩ := @Text.trimEnd_split _ _ 13 ((last.splitOn 10).headD [])
  rw [hTrimmed] at hFirst
  refine (Valid.split hFirst fun byte hHead => ?_).1
  rw [hAll byte (List.mem_of_mem_head? hHead)]
  rfl

/-- A printed row is read as some values that its first line can be read as, the
last with the lines that follow. -/
theorem rowOf_printed {debug : Bytes → String} (hLength : columns.length = init.length)
    (hColumns : ∀ c ∈ columns, Valid c ∧ 10 ∉ c) (hColumn : Valid column ∧ 10 ∉ column)
    (hInit : ∀ v ∈ init, Valid v ∧ 10 ∉ v) (hLast : Valid last) :
    ∃ init' value', Fields.cut (ascii ", ") ((columns ++ [column]).map (· ++ ascii "="))
        (printed (columns ++ [column]) (init ++ [Text.trimEnd 13 ((last.splitOn 10).headD [])])) =
          some (init' ++ [value']) ∧ columns.length = init'.length ∧
      rowOf debug (columns ++ [column]) column (printed (columns ++ [column]) (init ++ [last])) =
        some (.ok (toRow (columns ++ [column])
          (init' ++ [value' ++ (last.splitOn 10).tail.flatMap kept]))) := by
  have hFirst := valid_first hLast
  have hLabels : (columns ++ [column]).map (· ++ ascii "=") ≠ [] := by simp
  have hText : Valid (printed (columns ++ [column]) (init ++ [Text.trimEnd 13 ((last.splitOn 10).headD [])])) := by
    rw [printed_concat hLength]
    exact (valid_lead (fun c h => (hColumns c h).1) hColumn.1 fun v h => (hInit v h).1).append hFirst
  have hProjection : ∀ c ∈ columns ++ [column], Valid c := by
    rw [List.forall_mem_append, List.forall_mem_singleton]
    exact ⟨fun c h => (hColumns c h).1, hColumn.1⟩
  obtain ⟨values, hCut⟩ := Fields.cut_of_reads hLabels
    (⟨by simp [hLength], rfl⟩ : Fields.Reads (ascii ", ") ((columns ++ [column]).map (· ++ ascii "="))
      (printed (columns ++ [column]) (init ++ [Text.trimEnd 13 ((last.splitOn 10).headD [])])) _)
  have hValues := (Fields.reads_of_cut hLabels hCut).1
  rw [List.length_map, List.length_append] at hValues
  obtain ⟨init', value', rfl⟩ : ∃ init' value', values = init' ++ [value'] := by
    refine ⟨values.dropLast, values.getLast (fun hNone => ?_), (List.dropLast_append_getLast _).symm⟩
    rw [hNone] at hValues
    cases hValues
  have hLength' : columns.length = init'.length := by
    simpa using hValues.symm
  refine ⟨init', value', hCut, hLength', ?_⟩
  obtain ⟨first, others, hLines⟩ := List.exists_cons_of_ne_nil (List.splitOn_ne_nil 10 last)
  have hParsed := @parsed_columns debug (printed (columns ++ [column])
    (init ++ [Text.trimEnd 13 ((last.splitOn 10).headD [])])) _ _ ∅ hText hProjection
  rw [hCut, ← parseFields] at hParsed
  generalize hResult : parseFields debug _ (columns ++ [column]) = result at hParsed
  cases hParsed
  rw [rowOf, splitOn_printed hLength (fun c h => (hColumns c h).2) hColumn.2 fun v h => (hInit v h).2, hLines]
  rw [hLines, printed_concat hLength] at hResult
  rw [List.modifyHead_cons, List.headD_cons, trimEnd_lead, List.tail_cons]
  rw [List.headD_cons] at hResult
  rw [hResult]
  exact congrArg (fun row => some (Except.ok row)) (foldl_extend hLength')

theorem kept_start (line : Bytes) : kept line <+: 10 :: line := by
  rw [kept]
  split_ifs
  · exact List.nil_prefix
  · exact List.cons_prefix_cons.mpr ⟨rfl, Text.trimEnd_start line⟩

theorem kept_eq_iff {line : Bytes} :
    kept line = 10 :: line ↔ ¬[13] <:+ line ∧ line ≠ [] ∧ line ≠ ascii "No result found." := by
  rw [kept, ← Text.trimEnd_eq_self_iff]
  split_ifs with hSkipped
  · refine iff_of_false (by simp) ?_
    rintro ⟨hSame, hSome, hNotice⟩
    rw [hSame] at hSkipped
    exact hSkipped.elim hSome hNotice
  · rw [List.cons.injEq, and_iff_right rfl]
    refine ⟨fun hSame => ⟨hSame, ?_⟩, And.left⟩
    rwa [hSame, not_or] at hSkipped

/-- Nothing is lost of lines of which nothing is lost together. -/
theorem flatMap_kept_eq {first : Bytes} (h : Text.trimEnd 13 first ++ lines.flatMap kept = first ++ lines.flatMap (10 :: ·)) :
    Text.trimEnd 13 first = first ∧ ∀ line ∈ lines, kept line = 10 :: line := by
  have hShort : ∀ lines : List Bytes, (lines.flatMap kept).length ≤ (lines.flatMap (10 :: ·)).length := by
    intro lines
    induction lines with
    | nil => exact Nat.le_refl _
    | cons line lines ih =>
        rw [List.flatMap_cons, List.flatMap_cons, List.length_append, List.length_append]
        exact Nat.add_le_add (kept_start line).length_le ih
  have hFirst := (@Text.trimEnd_start _ _ 13 first).length_le
  have hAll : (lines.flatMap (10 :: ·)).length ≤ (lines.flatMap kept).length := by
    have hSizes := congrArg List.length h
    simp only [List.length_append] at hSizes
    omega
  obtain ⟨hSame, -⟩ := List.append_inj h (by
    have hSizes := congrArg List.length h
    have hLines := hShort lines
    simp only [List.length_append] at hSizes
    omega)
  refine ⟨hSame, ?_⟩
  clear h hFirst hSame
  induction lines with
  | nil => simp
  | cons line lines ih =>
      have hLine := (kept_start line).length_le
      have hRest := hShort lines
      simp only [List.flatMap_cons, List.length_append] at hAll
      rw [List.forall_mem_cons]
      exact ⟨(kept_start line).eq_of_length (by omega), ih (by omega)⟩

/-- Written rows are told apart by their values. -/
theorem toRow_inj {projection values other : List Bytes} (hDistinct : projection.Nodup)
    (hLength : values.length = projection.length) (hOther : other.length = projection.length)
    (h : toRow projection values = toRow projection other) : values = other := by
  rw [← @map_getD_fill _ ∅ _ hDistinct hLength, ← @map_getD_fill _ ∅ _ hDistinct hOther]
  exact congrArg (fun row : Row => projection.map fun column => row.getD column []) h

/-- Only the values before the last have a column behind them. -/
private theorem zip_tail (hLength : columns.length = init.length) :
    (init ++ [value]).zip (columns ++ [column]).tail = init.zip (columns ++ [column]).tail ∧
      (init.zip (columns ++ [column]).tail).map Prod.fst = init := by
  have hTail : init.length = (columns ++ [column]).tail.length := by
    rw [List.length_tail, List.length_append, List.length_singleton, ← hLength, Nat.add_sub_cancel]
  refine ⟨?_, List.map_fst_zip hTail.le⟩
  have hNone := @List.zip_append _ _ init [value] (columns ++ [column]).tail [] hTail
  rwa [List.append_nil, List.zip_nil_right, List.append_nil] at hNone

private theorem pairs_iff (hLength : columns.length = init.length) :
    (∀ pair ∈ (init ++ [value]).zip ((columns ++ [column]).map (· ++ ascii "=")).tail,
        Fields.EndsAt (ascii ", " ++ pair.2) pair.1) ↔
      ∀ pair ∈ (init ++ [last]).zip (columns ++ [column]).tail,
        Fields.EndsAt (ascii ", " ++ pair.2 ++ ascii "=") pair.1 := by
  rw [← List.map_tail, List.zip_map_right, (zip_tail hLength).1, (zip_tail hLength).1]
  simp only [List.forall_mem_map, Prod.map, id, List.append_assoc]

/-- A printed row is read as it was exactly when all its values are kept. -/
theorem rowOf_printed_iff {debug : Bytes → String} (hLength : columns.length = init.length)
    (hColumns : ∀ c ∈ columns, Valid c ∧ 10 ∉ c) (hColumn : Valid column ∧ 10 ∉ column)
    (hDistinct : (columns ++ [column]).Nodup) (hInit : ∀ v ∈ init, Valid v ∧ 10 ∉ v) (hLast : Valid last) :
    rowOf debug (columns ++ [column]) column (printed (columns ++ [column]) (init ++ [last])) =
      some (.ok (toRow (columns ++ [column]) (init ++ [last]))) ↔ Kept (columns ++ [column]) (init ++ [last]) := by
  obtain ⟨init', value', hCut, hLength', hRow⟩ := @rowOf_printed _ _ _ _ debug hLength hColumns hColumn hInit hLast
  have hLabels : (columns ++ [column]).map (· ++ ascii "=") ≠ [] := by simp
  have hJoin := Text.splitOn_join 10 last
  have hCutIff := @Fields.cut_render_iff _ (ascii ", ") _ (init ++ [Text.trimEnd 13 ((last.splitOn 10).headD [])]) _
    hLabels (by simp [hLength])
  rw [@pairs_iff columns init column last _ hLength] at hCutIff
  have hWhole : (init ++ [last]).getLastD [] = last := List.getLastD_concat
  obtain ⟨first, others, hSplit⟩ := List.exists_cons_of_ne_nil (List.splitOn_ne_nil 10 last)
  rw [hSplit, List.headD_cons, List.tail_cons] at hJoin
  rw [hSplit, List.headD_cons] at hCut hCutIff
  rw [hRow, hSplit, List.tail_cons]
  constructor
  · intro h
    have hValues := toRow_inj hDistinct (by simp [hLength']) (by simp [hLength])
      (Except.ok.inj (Option.some.inj h))
    obtain ⟨rfl, hSame⟩ := List.append_inj' hValues rfl
    have hText := (Fields.reads_of_cut hLabels hCut).2
    rw [← printed, printed_concat hLength, printed_concat hLength] at hText
    obtain rfl := List.append_cancel_left hText
    obtain ⟨hFirst, hOthers⟩ := flatMap_kept_eq ((List.cons.inj hSame).1.trans hJoin.symm)
    refine ⟨hCutIff.mp hCut, ?_, ?_⟩
    · rw [hWhole, hSplit, List.forall_mem_cons]
      exact ⟨Text.trimEnd_eq_self_iff.mp hFirst, fun line hLine => (kept_eq_iff.mp (hOthers line hLine)).1⟩
    · rw [hWhole, hSplit, List.tail_cons]
      exact fun line hLine => (kept_eq_iff.mp (hOthers line hLine)).2
  · rintro ⟨hEnds, hReturns, hLines⟩
    rw [hWhole, hSplit, List.forall_mem_cons] at hReturns
    rw [hWhole, hSplit, List.tail_cons] at hLines
    rw [printed, hCutIff.mpr hEnds, Option.some.injEq] at hCut
    obtain ⟨rfl, hFirst⟩ := List.append_inj' hCut rfl
    rw [List.cons.injEq, and_iff_left rfl, Text.trimEnd_eq_self_iff.mpr hReturns.1] at hFirst
    have hOthers : others.flatMap kept = others.flatMap (10 :: ·) :=
      List.flatMap_congr fun line hLine => kept_eq_iff.mpr ⟨hReturns.2 line hLine, hLines line hLine⟩
    rw [← hFirst, hOthers, hJoin]

end row

/-- A printed table is read as it was exactly when every value of every row is kept. -/
theorem parseRows_keeps_iff (debug : Bytes → String) {projection : List Bytes}
    (hColumns : ∀ column ∈ projection, Valid column ∧ 10 ∉ column) (hSome : projection ≠ [])
    (hDistinct : projection.Nodup) {rows : List (List Bytes)}
    (hRows : ∀ values ∈ rows, Printable projection values) :
    parseRows debug (printTable (rows.map (printed projection))) projection =
        some (.ok (rows.map (toRow projection))) ↔ ∀ values ∈ rows, Kept projection values := by
  obtain ⟨columns, column, rfl⟩ : ∃ columns column, projection = columns ++ [column] :=
    ⟨_, _, (List.dropLast_append_getLast hSome).symm⟩
  rw [List.forall_mem_append, List.forall_mem_singleton] at hColumns
  have hRow : ∀ values ∈ rows, Unforged (printed (columns ++ [column]) values) ∧
      (rowOf debug (columns ++ [column]) column (printed (columns ++ [column]) values) =
        some (.ok (toRow (columns ++ [column]) values)) ↔ Kept (columns ++ [column]) values) := by
    intro values hMem
    obtain ⟨hComplete, hTexts, hPlain, hUnforged⟩ := hRows values hMem
    obtain ⟨init, last, rfl⟩ : ∃ init last, values = init ++ [last] := by
      refine ⟨_, _, (List.dropLast_append_getLast (fun hNone => ?_)).symm⟩
      rw [hNone] at hComplete
      simp at hComplete
    rw [List.getLastD_concat] at hUnforged
    rw [List.forall_mem_append, List.forall_mem_singleton] at hTexts
    have hLength : columns.length = init.length := by simpa using hComplete.symm
    have hInit : ∀ v ∈ init, Valid v ∧ 10 ∉ v := by
      intro v hV
      obtain ⟨hZip, hFirst⟩ := @zip_tail columns init column last hLength
      rw [← hFirst] at hV
      obtain ⟨pair, hPair, rfl⟩ := List.mem_map.mp hV
      refine ⟨hTexts.1 _ (hFirst ▸ List.mem_map_of_mem hPair), ?_⟩
      rw [hZip] at hPlain
      exact (hPlain pair hPair).1
    refine ⟨?_, rowOf_printed_iff hLength hColumns.1 hColumns.2 hDistinct hInit hTexts.2⟩
    rw [Unforged, splitOn_printed hLength (fun c h => (hColumns.1 c h).2) hColumns.2.2 fun v h => (hInit v h).2,
      List.tail_modifyHead]
    exact hUnforged
  rw [parseRows_printTable List.getLast?_concat, List.map_map, List.map_map, List.map_inj_left]
  · exact forall₂_congr fun values hMem => (hRow values hMem).2
  · intro body hBody
    obtain ⟨values, hMem, rfl⟩ := List.mem_map.mp hBody
    exact (hRow values hMem).1

/-- A message of two lines is kept. -/
theorem parseRows_keeps_iff_message :
    parseRows (fun _ => "") (printTable ([[ascii "1", ascii "a\nb"]].map (printed [ascii "_id", ascii "body"])))
      [ascii "_id", ascii "body"] = some (.ok ([[ascii "1", ascii "a\nb"]].map (toRow [ascii "_id", ascii "body"]))) := by
  have hColumns : ∀ column ∈ [ascii "_id", ascii "body"], Valid column ∧ 10 ∉ column :=
    List.forall_mem_cons.mpr ⟨⟨⟨"_id", by decide⟩, by decide⟩,
      List.forall_mem_singleton.mpr ⟨⟨"body", by decide⟩, by decide⟩⟩
  have hRow : Printable [ascii "_id", ascii "body"] [ascii "1", ascii "a\nb"] := by
    refine ⟨rfl, List.forall_mem_cons.mpr ⟨⟨"1", by decide⟩, List.forall_mem_singleton.mpr ⟨"a\nb", by decide⟩⟩,
      by decide, ?_⟩
    unfold Unforged
    decide
  refine (parseRows_keeps_iff _ hColumns (by decide) (by decide) (List.forall_mem_singleton.mpr hRow)).mpr
    (List.forall_mem_singleton.mpr ⟨?_, by decide, by decide⟩)
  exact List.forall_mem_singleton.mpr ((@Fields.find_delimiter_iff _ _ _ _ []).mp (by decide))

/-- The blank line of a message with one is lost. -/
theorem blank_line_lost : Printable [ascii "_id", ascii "body"] [ascii "1", ascii "a\n\nb"] ∧
    parseRows (fun _ => "") (printTable [printed [ascii "_id", ascii "body"] [ascii "1", ascii "a\n\nb"]])
      [ascii "_id", ascii "body"] = some (.ok [toRow [ascii "_id", ascii "body"] [ascii "1", ascii "a\nb"]]) ∧
    parseRows (fun _ => "") (printTable [printed [ascii "_id", ascii "body"] [ascii "1", ascii "a\n\nb"]])
      [ascii "_id", ascii "body"] ≠ some (.ok [toRow [ascii "_id", ascii "body"] [ascii "1", ascii "a\n\nb"]]) := by
  refine ⟨⟨rfl, List.forall_mem_cons.mpr ⟨⟨"1", by decide⟩, List.forall_mem_singleton.mpr ⟨"a\n\nb", by decide⟩⟩,
    by decide, ?_⟩, by decide +kernel, by decide +kernel⟩
  unfold Unforged
  decide

end Rsadb.Content
