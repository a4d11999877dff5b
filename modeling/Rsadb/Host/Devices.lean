import Rsadb.Error
import Rsadb.Library.Blanks
import Rsadb.Library.Lines
import Rsadb.Library.Utf8Slices

/-! The device lists that an adb server prints, one device to a line. -/
namespace Rsadb.Host

/-- A line of `host:devices-l` output. -/
structure DeviceEntry where
  serial : String
  state : String
  attributes : List (String × String)
  deriving DecidableEq, Repr

/-- A `key:value` field. -/
def parseAttribute (part : List Char) : Option (String × String) :=
  (Text.splitOnce [':'] part).map fun (key, value) => (String.ofList key, String.ofList value)

/-- One line, unless it has less than a serial number and a state. -/
def parseDevice (line : Bytes) : Option DeviceEntry :=
  match Blanks.fields Text.isWhitespace (Utf8.text line).toList with
  | serial :: state :: parts =>
      some ⟨String.ofList serial, String.ofList state, parts.filterMap parseAttribute⟩
  | _ => none

/-- Parse `host:devices` / `host:devices-l` output. -/
def parseDevices (text : Bytes) : List DeviceEntry := (Text.lines text).filterMap parseDevice

namespace DeviceEntry

/-- What is printed for an attribute. -/
def printAttribute (pair : String × String) : List Char := pair.1.toList ++ ':' :: pair.2.toList

/-- The words of a line for the device. -/
def words (entry : DeviceEntry) : List (List Char) :=
  entry.serial.toList :: entry.state.toList :: entry.attributes.map printAttribute

/-- The line shows the device: its words with whatever blanks between them. -/
structure Shown (entry : DeviceEntry) (line : String) : Prop where
  spaced : Blanks.Spaced Text.isWhitespace entry.words line.toList
  keys : ∀ pair ∈ entry.attributes, ':' ∉ pair.1.toList
  oneLine : '\n' ∉ line.toList

end DeviceEntry

variable {entry : DeviceEntry} {line : String}

theorem parseAttribute_print {pair : String × String} (h : ':' ∉ pair.1.toList) :
    parseAttribute (DeviceEntry.printAttribute pair) = some pair := by
  rw [parseAttribute, DeviceEntry.printAttribute, Text.splitOnce_append h]
  simp

/-- A line that shows a device is read as the device. -/
theorem parseDevice_shown (h : entry.Shown line) : parseDevice (Utf8.encode line) = some entry := by
  have hAttributes : (entry.attributes.map DeviceEntry.printAttribute).filterMap parseAttribute = entry.attributes := by
    rw [List.filterMap_map]
    calc
      entry.attributes.filterMap (parseAttribute ∘ DeviceEntry.printAttribute) = entry.attributes.filterMap some :=
        List.filterMap_congr fun pair hMem => parseAttribute_print (h.keys pair hMem)
      _ = entry.attributes := List.filterMap_some
  have hFields := h.spaced.fields
  rw [DeviceEntry.words] at hFields
  simp only [parseDevice, Utf8.text_encode, hFields, hAttributes, String.ofList_toList]

/-- A carriage return at the end of a line is one more blank. -/
theorem parseDevice_dropReturn (line : String) :
    parseDevice (Text.dropReturn (Utf8.encode line)) = parseDevice (Utf8.encode line) := by
  by_cases hReturn : [13] <:+ Utf8.encode line
  · obtain ⟨front, hFront⟩ := hReturn
    have hValid : Utf8.Valid (front ++ [13]) := ⟨line, hFront⟩
    obtain ⟨text, rfl⟩ := (hValid.split (by rintro byte ⟨⟩; rfl)).1
    rw [← hFront, Text.dropReturn, Text.stripSuffix_append, Option.getD_some]
    have hLine : Utf8.encode text ++ [13] = Utf8.encode (text ++ "\r") := by
      rw [Utf8.encode_append]
      rfl
    obtain ⟨words, hWords⟩ := Blanks.exists_spaced Text.isWhitespace text.toList
    have hMore : Blanks.Spaced Text.isWhitespace words (text ++ "\r").toList := by
      rw [String.toList_append]
      exact hWords.concat rfl
    simp only [hLine, parseDevice, Utf8.text_encode, hWords.fields, hMore.fields]
  · rw [Text.dropReturn, Text.stripSuffix, if_neg (fun hSuffix => hReturn (List.isSuffixOf_iff_suffix.mp hSuffix)),
      Option.getD_none]

/-- Device lists are read as they were printed, whatever the blanks between the
words of a line are. -/
theorem parseDevices_shown {rows : List (DeviceEntry × String)} (h : ∀ row ∈ rows, row.1.Shown row.2) :
    parseDevices (rows.flatMap fun row => Utf8.encode row.2 ++ [10]) = rows.map Prod.fst := by
  induction rows with
  | nil => rfl
  | cons row rows ih =>
      obtain ⟨hHere, hRows⟩ := List.forall_mem_cons.mp h
      have hLine : 10 ∉ Utf8.encode row.2 := fun hMem => hHere.oneLine (Utf8.mem_of_mem_encode (by decide) hMem)
      rw [List.flatMap_cons, List.append_assoc, List.singleton_append, parseDevices, Text.lines_append,
        List.splitOn_eq_singleton hLine, List.map_singleton, List.singleton_append, List.map_cons,
        List.filterMap_cons_some ((parseDevice_dropReturn row.2).trans (parseDevice_shown hHere)), ← parseDevices,
        ih hRows]

end Rsadb.Host
