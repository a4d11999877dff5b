import Rsadb.Error
import Rsadb.Library.PosixShell

/-! The command lines that reach the shell of a device. Every argument of a
caller is quoted, or is restricted to bytes without a meaning to the shell, so
that it arrives there as one word and unchanged. -/
namespace Rsadb

open PosixShell

/-- `u8::is_ascii_alphanumeric`. -/
def isAsciiAlphanumeric (byte : UInt8) : Bool :=
  48 ≤ byte ∧ byte ≤ 57 || 65 ≤ byte ∧ byte ≤ 90 || 97 ≤ byte ∧ byte ≤ 122

namespace Shell

/-- The bytes that are passed on without quotes. -/
def isPlain (byte : UInt8) : Bool := isAsciiAlphanumeric byte || byte ∈ ascii "-_./:=@,"

/-- What stands for a byte between quotes: a quote closes them, stands escaped
and opens them again. -/
def escape (byte : UInt8) : Bytes := if byte = 39 then ascii "'\\''" else [byte]

/-- Quote `arg` for the shell so that it is passed through verbatim. -/
def quote (arg : Bytes) : Bytes :=
  if arg ≠ [] ∧ arg.all isPlain then arg
  else ascii "'" ++ arg.flatMap escape ++ ascii "'"

end Shell

namespace Content

/-- Build the shell command for a query. -/
def command (uri : Bytes) (projection extraArgs : List Bytes) : Bytes :=
  ascii "content query --uri " ++ Shell.quote uri ++
    (if projection = [] then []
      else ascii " --projection " ++ Shell.quote (List.intercalate (ascii ":") projection)) ++
    extraArgs.flatMap fun arg => ascii " " ++ Shell.quote arg

/-- The words that a query consists of. -/
def words (uri : Bytes) (projection extraArgs : List Bytes) : List Bytes :=
  [ascii "content", ascii "query", ascii "--uri", uri] ++
    (if projection = [] then []
      else [ascii "--projection", List.intercalate (ascii ":") projection]) ++ extraArgs

end Content

namespace Props

/-- Reject anything that is not a plain property name. `debug` is how a text is
shown in an error. -/
def validateName (debug : Bytes → String) (name : Bytes) : Result Unit :=
  if name ≠ [] ∧ name.length ≤ 255 ∧
      name.all (fun byte => isAsciiAlphanumeric byte || byte ∈ ascii "._-:@") then .ok ()
  else .error (.invalidArgument s!"invalid property name {debug name}")

/-- The command that reads one property. -/
def getprop (debug : Bytes → String) (name : Bytes) : Result Bytes := do
  validateName debug name
  pure (ascii "getprop " ++ name)

end Props

/-- What is passed on without quotes has no meaning to the shell. -/
private theorem ordinary_of_isPlain {byte : UInt8} (h : Shell.isPlain byte) : Ordinary byte := by
  have hAll : ∀ n, n < 256 → Shell.isPlain (UInt8.ofNat n) → Ordinary (UInt8.ofNat n) := by
    unfold Ordinary
    decide +kernel
  have hByte := hAll byte.toNat byte.toNat_lt
  rw [UInt8.ofNat_toNat] at hByte
  exact hByte h

/-- Inside the quotes every byte of the argument stands for itself. -/
private theorem lexFrom_quoted (arg : Bytes) (parts : List Part) (rest : Bytes) :
    lexFrom (.single parts) (arg.flatMap Shell.escape ++ 39 :: rest) =
      lexFrom (.plain (some (parts ++ arg.map .literal))) rest := by
  induction arg generalizing parts with
  | nil =>
      have hClose : step (.single parts) 39 = (.plain (some parts), []) := rfl
      rw [List.flatMap_nil, List.nil_append, lexFrom_cons hClose, List.map_nil, List.append_nil]
  | cons byte arg ih =>
      have hByte : ∀ more, lexFrom (.single parts) (Shell.escape byte ++ more) =
          lexFrom (.single (parts ++ [.literal byte])) more := by
        intro more
        unfold Shell.escape
        split_ifs with hQuote
        · subst byte
          exact lexFrom_single_quote parts more
        · exact lexFrom_single hQuote parts more
      rw [List.flatMap_cons, List.append_assoc, hByte, ih, List.map_cons, List.append_assoc,
        List.singleton_append]

/-- A quoted argument is read as the argument, whatever its bytes are. -/
theorem spells_quote (arg : Bytes) : Spells (Shell.quote arg) arg := by
  unfold Shell.quote
  split_ifs with hPlain
  · refine spells_ordinary hPlain.1 fun byte hMem => ordinary_of_isPlain ?_
    exact List.all_eq_true.mp hPlain.2 byte hMem
  · intro rest
    have hOpen : step (.plain none) 39 = (.single [], []) := rfl
    rw [show ascii "'" = [39] by decide, List.append_assoc, List.append_assoc, List.singleton_append,
      lexFrom_cons hOpen, List.singleton_append, lexFrom_quoted, List.nil_append]

/-- A fixed text of plain bytes is read as itself. -/
private theorem spells_plain {text : Bytes} (hSome : text ≠ []) (h : text.all Shell.isPlain) :
    Spells text text :=
  spells_ordinary hSome fun byte hMem => ordinary_of_isPlain (List.all_eq_true.mp h byte hMem)

/-- A query is read as exactly its words: the tool and its options, the uri, the
columns if there are any, and each extra argument as one word. -/
theorem lex_command (uri : Bytes) (projection extraArgs : List Bytes) :
    lex (Content.command uri projection extraArgs) =
      some ((Content.words uri projection extraArgs).map literal) := by
  -- The texts behind the first word, each with the word that it spells.
  let joined := List.intercalate (ascii ":") projection
  let columns : List (Bytes × Bytes) := if projection = [] then [] else
    [(ascii "--projection", ascii "--projection"), (Shell.quote joined, joined)]
  let texts : List (Bytes × Bytes) := [(ascii "query", ascii "query"), (ascii "--uri", ascii "--uri"),
    (Shell.quote uri, uri)] ++ columns ++ extraArgs.map fun arg => (Shell.quote arg, arg)
  have hColumns : ∀ text ∈ columns, Spells text.1 text.2 := by
    intro text hMem
    by_cases hEmpty : projection = []
    · simp [columns, hEmpty] at hMem
    · simp only [columns, hEmpty, ↓reduceIte, List.mem_cons, List.not_mem_nil, or_false] at hMem
      rcases hMem with rfl | rfl
      · exact spells_plain (by decide) (by decide)
      · exact spells_quote joined
  have hTexts : ∀ text ∈ texts, Spells text.1 text.2 := by
    intro text hMem
    simp only [texts, List.mem_append, List.mem_cons, List.not_mem_nil, or_false, List.mem_map] at hMem
    rcases hMem with ((rfl | rfl | rfl) | hColumn) | ⟨arg, -, rfl⟩
    · exact spells_plain (by decide) (by decide)
    · exact spells_plain (by decide) (by decide)
    · exact spells_quote uri
    · exact hColumns text hColumn
    · exact spells_quote arg
  have hCommand : Content.command uri projection extraArgs =
      ascii "content" ++ texts.flatMap fun text => 32 :: text.1 := by
    by_cases hEmpty : projection = []
    · simp [Content.command, texts, columns, hEmpty, ascii, List.flatMap_map]
    · simp [Content.command, texts, columns, joined, hEmpty, ascii, List.flatMap_map]
  have hWords : Content.words uri projection extraArgs =
      ascii "content" :: texts.map Prod.snd := by
    by_cases hEmpty : projection = []
    · simp [Content.words, texts, columns, hEmpty, Function.comp_def]
    · simp [Content.words, texts, columns, joined, hEmpty, Function.comp_def]
  rw [hCommand, hWords, lex_spaced (spells_plain (by decide) (by decide)) texts hTexts, List.map_cons,
    List.map_map]
  rfl

/-- A name that is accepted is one word behind the name of the tool. -/
theorem lex_getprop {debug : Bytes → String} {name : Bytes}
    (h : Props.validateName debug name = .ok ()) :
    Props.getprop debug name = .ok (ascii "getprop " ++ name) ∧
    lex (ascii "getprop " ++ name) = some [literal (ascii "getprop"), literal name] := by
  refine ⟨by rw [Props.getprop, h]; rfl, ?_⟩
  unfold Props.validateName at h
  split_ifs at h with hValid
  obtain ⟨hSome, -, hBytes⟩ := hValid
  have hName : Spells name name := by
    refine spells_plain hSome (List.all_eq_true.mpr fun byte hMem => ?_)
    have hMarks : ∀ mark ∈ ascii "._-:@", mark ∈ ascii "-_./:=@," := by
      decide +kernel
    have hByte := List.all_eq_true.mp hBytes byte hMem
    simp only [Shell.isPlain, Bool.or_eq_true, decide_eq_true_eq] at hByte ⊢
    exact hByte.imp_right (hMarks byte)
  have hSplit : ascii "getprop " ++ name =
      ascii "getprop" ++ [(name, name)].flatMap fun text => 32 :: text.1 := by
    simp [ascii]
  rw [hSplit, lex_spaced (spells_plain (by decide) (by decide)) [(name, name)]
    (fun text hMem => by rw [List.mem_singleton.mp hMem]; exact hName)]
  rfl

/-- Every argument of a query is one word and unchanged, whatever its bytes are,
and a property name that is accepted is one word: no operator, no expansion and
no word besides. -/
theorem arguments_verbatim (debug : Bytes → String) :
    (∀ (uri : Bytes) (projection extraArgs : List Bytes),
      lex (Content.command uri projection extraArgs) =
        some ((Content.words uri projection extraArgs).map literal)) ∧
    ∀ name, Props.validateName debug name = .ok () →
      ∃ command, Props.getprop debug name = .ok command ∧
        lex command = some [literal (ascii "getprop"), literal name] :=
  ⟨lex_command, fun _ h => ⟨_, lex_getprop h⟩⟩

/-- A name with a colon, and a query whose uri holds a quote. -/
theorem arguments_verbatim_samples :
    lex (Content.command [39] [[97], [98]] [[]]) = some ((Content.words [39] [[97], [98]] [[]]).map literal) ∧
    ∃ command, Props.getprop (fun _ => "") (ascii "a:b") = .ok command ∧
      lex command = some [literal (ascii "getprop"), literal (ascii "a:b")] :=
  ⟨(arguments_verbatim fun _ => "").1 _ _ _, (arguments_verbatim fun _ => "").2 _ (by decide)⟩

end Rsadb
