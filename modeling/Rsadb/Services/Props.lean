import Rsadb.Services.CommandLine
import Rsadb.Library.Lines
import Rsadb.Library.OrderedMap

/-! The properties that `getprop` prints, one `[name]: [value]` after the other.
A value may go on over several lines; the parser takes it to end at the first
line that ends in a bracket. -/
namespace Rsadb.Props

/-- Properties by name. -/
abbrev Map := Std.ExtTreeMap Bytes Bytes

/-- The properties found so far, and the one whose value goes on. -/
structure Found where
  props : Map
  pending : Option (Bytes × Bytes)

/-- Enter a property whose value has been read up to here. -/
def Found.close (props : Map) (name value : Bytes) : Found :=
  match Text.stripSuffix [93] value with
  | some v => ⟨props.insert name v, none⟩
  | none => ⟨props, some (name, value)⟩

/-- One round of the loop over the lines. -/
def parseLine (found : Found) (line : Bytes) : Found :=
  let line := Text.trimEnd 13 line
  match found.pending with
  | some (name, value) => Found.close found.props name (value ++ 10 :: line)
  | none =>
      match Text.stripPrefix (ascii "[") line with
      | none => found
      | some rest =>
          match Text.splitOnce (ascii "]: [") rest with
          | none => found
          | some (name, value) => Found.close found.props name value

/-- Parse the `[name]: [value]` lines that `getprop` prints. A value that does not end is lost. -/
def parseAll (output : Bytes) : Map := ((Text.lines output).foldl parseLine ⟨∅, none⟩).props

/-- The tool prints a property like this. -/
def printEntry (entry : Bytes × Bytes) : Bytes :=
  ascii "[" ++ entry.1 ++ ascii "]: [" ++ entry.2 ++ ascii "]\n"

/-- No line of the value but the last ends in a bracket, or in a carriage return. -/
def Printable (value : Bytes) : Prop :=
  ∀ line ∈ (value.splitOn 10).dropLast, ¬[93] <:+ line ∧ ¬[13] <:+ line

section

variable {found : Found} {props : Map} {name value line : Bytes}

/-- A line that goes on with a value, or that does not, changes what is found like this. -/
theorem close_bracket : Found.close props name (value ++ [93]) = ⟨props.insert name value, none⟩ := by
  rw [Found.close, Text.stripSuffix_append]

theorem close_open (h : ¬[93] <:+ value) :
    Found.close props name value = ⟨props, some (name, value)⟩ := by
  rw [Found.close, Text.stripSuffix, if_neg (fun hSuffix => h (List.isSuffixOf_iff_suffix.mp hSuffix))]

theorem parseLine_pending (h : ¬[13] <:+ line) : parseLine ⟨props, some (name, value)⟩ line =
    Found.close props name (value ++ 10 :: line) := by
  rw [parseLine, Text.trimEnd_eq_self_iff.mpr h]

/-- The line that a property begins with. -/
theorem parseLine_entry (hName : 93 ∉ name) (h : ¬[13] <:+ value) :
    parseLine ⟨props, none⟩ (ascii "[" ++ (name ++ (ascii "]: [" ++ value))) =
      Found.close props name value := by
  have hKept : Text.trimEnd 13 (ascii "[" ++ (name ++ (ascii "]: [" ++ value))) =
      ascii "[" ++ (name ++ (ascii "]: [" ++ value)) := by
    have hFront : ¬[13] <:+ ascii "[" ++ (name ++ ascii "]: [") := by
      have hLast : (ascii "]: [").getLast? = some 91 := by decide
      simp [List.singleton_suffix_iff_getLast?_eq_some, hLast]
    rw [Text.trimEnd_eq_self_iff]
    simpa only [List.append_assoc] using Text.not_suffix_append hFront h
  have hSplit : Text.splitOnce (ascii "]: [") (name ++ (ascii "]: [" ++ value)) = some (name, value) :=
    Text.splitOnce_append_cons hName (ascii ": [") value
  rw [parseLine, hKept]
  simp only [Text.stripPrefix_append, hSplit]

/-- A value that goes on ends with the line behind which a bracket stands. -/
theorem foldl_pending (lines : List Bytes) (last : Bytes)
    (hLines : ∀ line ∈ lines, ¬[93] <:+ line ∧ ¬[13] <:+ line) :
    (lines ++ [last ++ [93]]).foldl parseLine ⟨props, some (name, value)⟩ =
      ⟨props.insert name (value ++ lines.flatMap (10 :: ·) ++ 10 :: last), none⟩ := by
  induction lines generalizing value with
  | nil =>
      rw [List.nil_append, List.foldl_cons, List.foldl_nil, parseLine_pending, ← List.cons_append,
        ← List.append_assoc, close_bracket, List.flatMap_nil, List.append_nil]
      simp
  | cons line lines ih =>
      obtain ⟨⟨hBracket, hReturn⟩, hOthers⟩ := List.forall_mem_cons.mp hLines
      have hOpen : ¬[93] <:+ value ++ 10 :: line := by
        have hFront : ¬[93] <:+ value ++ [10] := by simp [List.singleton_suffix_iff_getLast?_eq_some]
        simpa only [List.append_assoc, List.singleton_append] using Text.not_suffix_append hFront hBracket
      rw [List.cons_append, List.foldl_cons, parseLine_pending hReturn, close_open hOpen, ih hOthers]
      simp

/-- What a name consists of: no bracket, and no line feed. -/
theorem plain_of_valid {debug : Bytes → String} (h : validateName debug name = .ok ()) :
    93 ∉ name ∧ 10 ∉ name := by
  unfold validateName at h
  split_ifs at h with hValid
  have hAll := List.all_eq_true.mp hValid.2.2
  exact ⟨fun hMem => absurd (hAll _ hMem) (by decide), fun hMem => absurd (hAll _ hMem) (by decide)⟩

theorem parseLine_dropReturn (found : Found) (line : Bytes) :
    parseLine found (Text.dropReturn line) = parseLine found line := by
  simp only [parseLine, Text.trimEnd_dropReturn]

/-- The lines of one printed property enter it, and leave nothing pending. -/
theorem foldl_entry (hBracket : 93 ∉ name) (hFeed : 10 ∉ name) (hValue : Printable value) :
    ((ascii "[" ++ (name ++ (ascii "]: [" ++ (value ++ [93])))).splitOn 10).foldl parseLine ⟨props, none⟩ =
      ⟨props.insert name value, none⟩ := by
  have hFront : 10 ∉ ascii "[" ++ (name ++ ascii "]: [") := by
    simp only [List.mem_append, not_or]
    exact ⟨by decide, hFeed, by decide⟩
  obtain ⟨init, last, hPieces⟩ :=
    (List.eq_nil_or_concat (value.splitOn 10)).resolve_left (List.splitOn_ne_nil 10 value)
  rw [List.concat_eq_append] at hPieces
  have hJoin := Text.splitOn_join 10 value
  have hLines := Text.splitOn_append_left hFront (value ++ [93])
  rw [Text.splitOn_append_right (by decide) hPieces] at hLines
  simp only [List.append_assoc] at hLines
  rw [hLines]
  rw [Printable, hPieces, List.dropLast_concat] at hValue
  rw [hPieces] at hJoin
  cases init with
  | nil =>
      obtain rfl : last = value := by simpa using hJoin
      have hLast : ¬[13] <:+ last ++ [93] := by simp [List.singleton_suffix_iff_getLast?_eq_some]
      simp only [List.nil_append, List.modifyHead_cons, List.foldl_cons, List.foldl_nil]
      rw [parseLine_entry hBracket hLast, close_bracket]
  | cons first lines =>
      obtain ⟨⟨hOpen, hReturn⟩, hOthers⟩ := List.forall_mem_cons.mp hValue
      simp only [List.cons_append, List.modifyHead_cons, List.foldl_cons]
      rw [parseLine_entry hBracket hReturn, close_open hOpen, foldl_pending lines last hOthers, ← hJoin]
      simp

theorem foldl_print {debug : Bytes → String} {entries : List (Bytes × Bytes)}
    (hNames : ∀ entry ∈ entries, validateName debug entry.1 = .ok ())
    (hValues : ∀ entry ∈ entries, Printable entry.2) :
    (Text.lines (entries.flatMap printEntry)).foldl parseLine ⟨props, none⟩ =
      ⟨OrderedMap.enter props entries, none⟩ := by
  induction entries generalizing props with
  | nil => rfl
  | cons entry entries ih =>
      obtain ⟨hName, hNames⟩ := List.forall_mem_cons.mp hNames
      obtain ⟨hValue, hValues⟩ := List.forall_mem_cons.mp hValues
      obtain ⟨hBracket, hFeed⟩ := plain_of_valid hName
      have hText : (entry :: entries).flatMap printEntry =
          ascii "[" ++ (entry.1 ++ (ascii "]: [" ++ (entry.2 ++ [93]))) ++ 10 :: entries.flatMap printEntry := by
        rw [List.flatMap_cons, printEntry, show ascii "]\n" = [93, 10] by decide]
        simp
      rw [hText, Text.lines_append, List.foldl_append, List.foldl_map]
      simp only [parseLine_dropReturn]
      rw [foldl_entry hBracket hFeed hValue, ih hNames hValues]
      rfl

end

/-- Whatever the values are and whatever the order is in which the properties are
printed, just these properties are read. -/
theorem parseAll_print {debug : Bytes → String} {props : Map} {entries : List (Bytes × Bytes)}
    (hOrder : entries.Perm props.toList) (hNames : ∀ name ∈ props, validateName debug name = .ok ())
    (hValues : ∀ name value : Bytes, props[name]? = some value → Printable value) :
    parseAll (entries.flatMap printEntry) = props := by
  have hEntries : ∀ entry ∈ entries, props[entry.1]? = some entry.2 := fun entry hMem =>
    Std.ExtTreeMap.mem_toList_iff_getElem?_eq_some.mp (hOrder.mem_iff.mp hMem)
  have hValid : ∀ entry ∈ entries, validateName debug entry.1 = .ok () := fun entry hMem => by
    apply hNames
    rw [Std.ExtTreeMap.mem_iff_isSome_getElem?, hEntries entry hMem]
    rfl
  rw [parseAll, foldl_print hValid fun entry hMem => hValues entry.1 entry.2 (hEntries entry hMem)]
  exact OrderedMap.enter_perm hOrder

/-- Two properties, one of which has a value that looks like an entry. -/
theorem parseAll_print_two :
    parseAll ([(ascii "b", ascii "x\n[a]: [y"), (ascii "a", [])].flatMap printEntry) =
      ((∅ : Map).insert (ascii "b") (ascii "x\n[a]: [y")).insert (ascii "a") [] := by
  apply @parseAll_print fun _ => ""
  · rw [show (((∅ : Map).insert (ascii "b") (ascii "x\n[a]: [y")).insert (ascii "a") []).toList =
      [(ascii "a", []), (ascii "b", ascii "x\n[a]: [y")] by decide]
    exact List.Perm.swap ..
  · intro name hMem
    simp only [Std.ExtTreeMap.mem_insert, Std.compare_eq_iff_eq, Std.ExtTreeMap.not_mem_empty,
      or_false] at hMem
    rcases hMem with rfl | rfl <;> rfl
  · intro name value hFound
    rw [Std.ExtTreeMap.getElem?_insert, Std.ExtTreeMap.getElem?_insert,
      Std.ExtTreeMap.getElem?_empty] at hFound
    split_ifs at hFound
    · cases hFound
      simp [Printable]
    · cases hFound
      unfold Printable
      decide

end Rsadb.Props
