import Rsadb.Library.Async
import Rsadb.Services.ContentRows
import Rsadb.Services.ShellV2

/-! Querying a content provider. The values that are printed for a row are not
escaped, so a value may read like further rows; counting the rows of a second
query, which prints identifiers only, tells whether one does. -/
namespace Rsadb.Device

open ShellV2 Content

variable {σ : Type}

/-- A panic gives no result either. -/
def orPanic {α : Type} : Option (Result α) → Async Error σ α
  | some result => Async.lift result
  | none => Async.wait

/-- Run a command and fail unless it exited 0 (when an exit code is available). `shell` runs a
command on the device, and `debug` is how a text is shown in an error. -/
def shellChecked (debug : Bytes → String) (shell : Bytes → Async Error σ ShellOutput) (command : Bytes) :
    Async Error σ ShellOutput :=
  shell command >>= fun out =>
    if out.success then pure out
    else Async.fail (.remoteFailure (Utf8.encode
      s!"{debug command} exited {(out.exitCode.getD 0).toNat}: {Text.trim (Utf8.text out.stderr)}"))

/-- Query a content provider with extra arguments. -/
def contentQueryWith (debug : Bytes → String) (shell : Bytes → Async Error σ ShellOutput) (uri : Bytes)
    (projection extra : List Bytes) : Async Error σ (List Row) :=
  if projection = [] then Async.fail (.invalidArgument "projection must name at least one column")
  else do
    let out ← shellChecked debug shell (command uri projection extra)
    let rows ← orPanic (parseRows debug out.stdoutText projection)
    let check ← shellChecked debug shell (command uri [ascii "_id"] extra)
    let expected := countRows check.stdoutText
    if expected ≠ rows.length then
      Async.fail (.parse s!"parsed {rows.length} rows but the _id-only query reports {expected}")
    else pure rows

/-- A row of a table: what it has under every column. -/
abbrev Record := Bytes → Bytes

/-- What is printed behind the heading of a row. -/
def bodyOf (columns : List Bytes) (record : Record) : Bytes := printed columns (columns.map record)

/-- Whatever the command writes when it is run is what the tool prints for the table. -/
def Prints (shell : Bytes → Async Error σ ShellOutput) (command : Bytes) (columns : List Bytes)
    (table : List Record) : Prop :=
  ∀ s out s', shell command s = (some (.ok out), s') → out.stdout = printTable (table.map (bodyOf columns))

variable {debug : Bytes → String} {shell : Bytes → Async Error σ ShellOutput} {columns : List Bytes}
  {table : List Record} {s s' : σ}

/-- A checked command gives the output of the command. -/
theorem stdoutText_of_prints {command : Bytes} {out : ShellOutput} (hPrints : Prints shell command columns table)
    (h : shellChecked debug shell command s = (some (.ok out), s')) :
    out.stdoutText = printTable ((table.map (bodyOf columns)).map Utf8.lossy) := by
  obtain ⟨given, middle, hRun, hChecked⟩ := Async.bind_eq_ok h
  split_ifs at hChecked with hSuccess
  · cases hChecked
    rw [ShellOutput.stdoutText, hPrints s _ _ hRun, lossy_printTable]
  · cases hChecked

/-- If a query gives rows, they are as many as the table has, and each is what is
read from the text that was printed for that row alone. -/
theorem contentQuery_rows (debug : Bytes → String) (uri : Bytes) {projection extra : List Bytes} {rows : List Row}
    (hQuery : Prints shell (command uri projection extra) projection table)
    (hCheck : Prints shell (command uri [ascii "_id"] extra) [ascii "_id"] table)
    (hIds : ∀ record ∈ table, 10 ∉ record (ascii "_id"))
    (h : contentQueryWith debug shell uri projection extra s = (some (.ok rows), s')) :
    rows.length = table.length ∧ ∀ i record row, table[i]? = some record → rows[i]? = some row →
      parseRows debug (Utf8.lossy (printRows i [bodyOf projection record])) projection = some (.ok [row]) := by
  unfold contentQueryWith at h
  split_ifs at h with hEmpty
  · cases h
  · obtain ⟨out, middle, hOut, hRest⟩ := Async.bind_eq_ok h
    obtain ⟨parsed, after, hParsed, hRest⟩ := Async.bind_eq_ok hRest
    obtain ⟨check, last, hCheckRun, hEnd⟩ := Async.bind_eq_ok hRest
    rw [stdoutText_of_prints hQuery hOut] at hParsed
    rw [stdoutText_of_prints hCheck hCheckRun] at hEnd
    have hIdsPlain : countRows (printTable ((table.map (bodyOf [ascii "_id"])).map Utf8.lossy)) = table.length := by
      rw [countRows_of_plain, List.length_map, List.length_map]
      simp only [List.forall_mem_map]
      intro record hRecord hForged
      have hLine := Utf8.mem_of_mem_lossy (by decide) hForged
      have hLabel : (10 : UInt8) ∉ ascii "_id" ++ ascii "=" := by decide
      rw [bodyOf, printed, List.map_singleton, List.map_singleton, Fields.render_single] at hLine
      exact (List.mem_append.mp hLine).elim hLabel (hIds record hRecord)
    have hParse : parseRows debug (printTable ((table.map (bodyOf projection)).map Utf8.lossy)) projection =
        some (.ok parsed) := by
      cases hResult : parseRows debug (printTable ((table.map (bodyOf projection)).map Utf8.lossy)) projection with
      | none => rw [hResult] at hParsed; cases hParsed
      | some result => rw [hResult] at hParsed; cases hParsed; rfl
    have hEqual : parsed.length = table.length ∧ parsed = rows := by
      dsimp only at hEnd
      rw [hIdsPlain] at hEnd
      split_ifs at hEnd with hCount
      · cases hEnd
      · cases hEnd
        exact ⟨(not_not.mp hCount).symm, rfl⟩
    obtain ⟨hLength, rfl⟩ := hEqual
    obtain ⟨column, hColumn⟩ : ∃ column, projection.getLast? = some column :=
      ⟨_, List.getLast?_eq_some_getLast hEmpty⟩
    have hUnforged := @unforged_of_count ((table.map (bodyOf projection)).map Utf8.lossy) (by
      rw [← length_parseRows hParse, hLength, List.length_map, List.length_map])
    have hRows := (parseRows_printTable hColumn hUnforged).mp hParse
    refine ⟨hLength, fun i record row hRecord hRow => ?_⟩
    have hBody : Utf8.lossy (bodyOf projection record) ∈ (table.map (bodyOf projection)).map Utf8.lossy :=
      List.mem_map_of_mem (List.mem_map_of_mem (List.mem_of_getElem? hRecord))
    have hOne := congrArg (fun list => list[i]?) hRows
    simp only [List.getElem?_map, hRecord, hRow, Option.map_some, Option.some.injEq] at hOne
    rw [lossy_printRows, List.map_singleton, parseRows,
      parseLines_rows hColumn (List.forall_mem_singleton.mpr (hUnforged _ hBody))]
    exact ⟨[row], rfl, congrArg (fun result => [result]) hOne⟩

/-- A shell that prints one table, the identifiers only when it is asked for them. -/
def tableShell (table : List Record) (uri : Bytes) (projection extra : List Bytes) :
    Bytes → Async Error Unit ShellOutput := fun asked =>
  if asked = command uri [ascii "_id"] extra then pure ⟨printTable (table.map (bodyOf [ascii "_id"])), [], some 0⟩
  else pure ⟨printTable (table.map (bodyOf projection)), [], some 0⟩

/-- A message of two lines, the second of which reads like the notice of a row. -/
def message : Record := fun column => if column = ascii "_id" then ascii "7" else ascii "a\nRow:"

/-- A message with a whole row in it. -/
def forger : Record := fun column => if column = ascii "_id" then ascii "8" else ascii "b\nRow: 2 _id=9, body=c"

/-- An ordinary message. -/
def plain : Record := fun column => if column = ascii "_id" then ascii "8" else ascii "b"

/-- Query a shell that prints these messages. -/
def queryMessages (table : List Record) : Option (Result (List Row)) :=
  (contentQueryWith (fun _ => "") (tableShell table (ascii "content://sms") [ascii "_id", ascii "body"] [])
    (ascii "content://sms") [ascii "_id", ascii "body"] [] ()).1

/-- Two messages are read each from its own text. A message that forges a row is
found out: the query fails. -/
theorem contentQuery_rows_message :
    (parseRows (fun _ => "") (Utf8.lossy (printRows 0 [bodyOf [ascii "_id", ascii "body"] message]))
        [ascii "_id", ascii "body"] =
      some (.ok [fill ∅ [(ascii "_id", ascii "7"), (ascii "body", ascii "a\nRow:")]]) ∧
    parseRows (fun _ => "") (Utf8.lossy (printRows 1 [bodyOf [ascii "_id", ascii "body"] plain]))
        [ascii "_id", ascii "body"] =
      some (.ok [fill ∅ [(ascii "_id", ascii "8"), (ascii "body", ascii "b")]])) ∧
    queryMessages [message, forger] =
      some (.error (.parse "parsed 3 rows but the _id-only query reports 2")) := by
  let shell := tableShell [message, plain] (ascii "content://sms") [ascii "_id", ascii "body"] []
  have hQuery : Prints shell (command (ascii "content://sms") [ascii "_id", ascii "body"] [])
      [ascii "_id", ascii "body"] [message, plain] := by
    rintro s out s' ⟨⟩
    decide +kernel
  have hCheck : Prints shell (command (ascii "content://sms") [ascii "_id"] []) [ascii "_id"]
      [message, plain] := by
    rintro s out s' ⟨⟩
    decide +kernel
  have hRun : queryMessages [message, plain] =
      some (.ok [fill ∅ [(ascii "_id", ascii "7"), (ascii "body", ascii "a\nRow:")],
        fill ∅ [(ascii "_id", ascii "8"), (ascii "body", ascii "b")]]) := by
    decide +kernel
  have hRows := (contentQuery_rows (fun _ => "") (ascii "content://sms") hQuery hCheck
    (List.forall_mem_cons.mpr ⟨by decide, List.forall_mem_singleton.mpr (by decide)⟩) (Prod.ext hRun rfl)).2
  exact ⟨⟨hRows 0 message _ rfl rfl, hRows 1 plain _ rfl rfl⟩, by decide +kernel⟩

end Rsadb.Device
