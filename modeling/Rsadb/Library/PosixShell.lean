import Mathlib.Data.List.Basic

/-! How a POSIX shell cuts a command line into words. Blanks separate words,
single quotes keep everything, double quotes keep all but expansions, and a
backslash outside of quotes keeps the next byte. Whatever else has a meaning to
the shell is active: operators, expansions and comments. -/
namespace PosixShell

/-- A byte of a word: it stands for itself, or it begins an expansion. -/
inductive Part where
  | literal (byte : UInt8)
  | expansion (byte : UInt8)
  deriving DecidableEq

inductive Token where
  | word (parts : List Part)
  | operator (byte : UInt8)
  deriving DecidableEq

/-- Where the lexer stands. Outside of quotes a word may be open or not. -/
inductive Mode where
  | plain (word : Option (List Part))
  | escaped (word : Option (List Part))
  | single (parts : List Part)
  | double (parts : List Part)
  | doubleEscaped (parts : List Part)
  | comment

def newline : UInt8 := 10

def isBlank (byte : UInt8) : Bool := byte ∈ [32, 9]

/-- `&`, `;`, `<`, `>`, `(`, `)`, `|` and the end of a line. -/
def isOperator (byte : UInt8) : Bool := byte ∈ [38, 59, 60, 62, 40, 41, 124, newline]

/-- `$` and the backquote are active even in double quotes. -/
def expandsQuoted (byte : UInt8) : Bool := byte ∈ [36, 96]

/-- Outside of quotes patterns, tildes and braces are active too, wherever they stand. -/
def expands (byte : UInt8) : Bool := expandsQuoted byte || byte ∈ [42, 63, 91, 123, 126]

/-- A byte of a word outside of quotes. -/
def stepWord (word : Option (List Part)) (byte : UInt8) : Mode × List Token :=
  let parts := word.getD []
  if byte = 92 then (.escaped word, [])
  else if byte = 39 then (.single parts, [])
  else if byte = 34 then (.double parts, [])
  else if expands byte then (.plain (some (parts ++ [.expansion byte])), [])
  else (.plain (some (parts ++ [.literal byte])), [])

/-- The tokens that end where a word ends. -/
def ended (word : Option (List Part)) : List Token := word.toList.map .word

def step : Mode → UInt8 → Mode × List Token
  | .plain word, byte =>
      if isBlank byte then (.plain none, ended word)
      else if isOperator byte then (.plain none, ended word ++ [.operator byte])
      -- A comment begins only where a word could begin.
      else if byte = 35 ∧ word = none then (.comment, [])
      else stepWord word byte
  | .escaped word, byte =>
      -- An escaped end of line joins two lines.
      if byte = newline then (.plain word, [])
      else (.plain (some (word.getD [] ++ [.literal byte])), [])
  | .single parts, byte =>
      if byte = 39 then (.plain (some parts), []) else (.single (parts ++ [.literal byte]), [])
  | .double parts, byte =>
      if byte = 34 then (.plain (some parts), [])
      else if byte = 92 then (.doubleEscaped parts, [])
      else if expandsQuoted byte then (.double (parts ++ [.expansion byte]), [])
      else (.double (parts ++ [.literal byte]), [])
  | .doubleEscaped parts, byte =>
      if byte = newline then (.double parts, [])
      else if expandsQuoted byte ∨ byte = 34 ∨ byte = 92 then (.double (parts ++ [.literal byte]), [])
      else (.double (parts ++ [.literal 92, .literal byte]), [])
  | .comment, byte => if byte = newline then (.plain none, [.operator byte]) else (.comment, [])

/-- What the end of the text makes of the last word; nothing, if a quotation is open. -/
def finish : Mode → Option (List Token)
  | .plain word => some (ended word)
  | .comment => some []
  | _ => none

/-- The tokens of the remaining text. -/
def lexFrom : Mode → List UInt8 → Option (List Token)
  | mode, [] => finish mode
  | mode, byte :: rest => (lexFrom (step mode byte).1 rest).map ((step mode byte).2 ++ ·)

/-- The tokens of a command line. -/
def lex (text : List UInt8) : Option (List Token) := lexFrom (.plain none) text

/-- A word that is exactly `text`, with no part of it active. -/
def literal (text : List UInt8) : Token := .word (text.map .literal)

theorem lexFrom_cons {mode next : Mode} {byte : UInt8} (h : step mode byte = (next, []))
    (rest : List UInt8) : lexFrom mode (byte :: rest) = lexFrom next rest := by
  rw [lexFrom, h]
  simp

/-- Bytes without a meaning to the shell stand for themselves. -/
def Ordinary (byte : UInt8) : Prop :=
  isBlank byte = false ∧ isOperator byte = false ∧ expands byte = false ∧ byte ≠ 92 ∧ byte ≠ 39 ∧
    byte ≠ 34 ∧ byte ≠ 35

private theorem step_ordinary {byte : UInt8} (h : Ordinary byte) (word : Option (List Part)) :
    step (.plain word) byte = (.plain (some (word.getD [] ++ [.literal byte])), []) := by
  obtain ⟨hBlank, hOperator, hExpands, hEscape, hSingle, hDouble, hComment⟩ := h
  simp [step, stepWord, hBlank, hOperator, hExpands, hEscape, hSingle, hDouble, hComment]

theorem lexFrom_ordinary (text : List UInt8) (h : ∀ byte ∈ text, Ordinary byte)
    (parts : List Part) (rest : List UInt8) :
    lexFrom (.plain (some parts)) (text ++ rest) =
      lexFrom (.plain (some (parts ++ text.map .literal))) rest := by
  induction text generalizing parts with
  | nil => simp
  | cons byte text ih =>
      rw [List.cons_append, lexFrom_cons (step_ordinary (h byte List.mem_cons_self) _),
        ih fun other hOther => h other (List.mem_cons_of_mem _ hOther)]
      simp

/-- Single quotes keep every byte but their own. -/
theorem lexFrom_single {byte : UInt8} (h : byte ≠ 39) (parts : List Part) (rest : List UInt8) :
    lexFrom (.single parts) (byte :: rest) = lexFrom (.single (parts ++ [.literal byte])) rest :=
  lexFrom_cons (show step (.single parts) byte = _ from if_neg h) rest

/-- A quotation can be closed, followed by an escaped quote, and opened again. -/
theorem lexFrom_single_quote (parts : List Part) (rest : List UInt8) :
    lexFrom (.single parts) (39 :: 92 :: 39 :: 39 :: rest) =
      lexFrom (.single (parts ++ [.literal 39])) rest := by
  have hClose : step (.single parts) 39 = (.plain (some parts), []) := rfl
  have hEscape : step (.plain (some parts)) 92 = (.escaped (some parts), []) := rfl
  have hKeep : step (.escaped (some parts)) 39 = (.plain (some (parts ++ [.literal 39])), []) := rfl
  have hOpen : step (.plain (some (parts ++ [.literal 39]))) 39 =
      (.single (parts ++ [.literal 39]), []) := rfl
  rw [lexFrom_cons hClose, lexFrom_cons hEscape, lexFrom_cons hKeep, lexFrom_cons hOpen]

/-- Wherever a word can begin, the text is read as the given word, which stays open. -/
def Spells (text word : List UInt8) : Prop :=
  ∀ rest, lexFrom (.plain none) (text ++ rest) = lexFrom (.plain (some (word.map .literal))) rest

/-- Ordinary bytes spell themselves. -/
theorem spells_ordinary {text : List UInt8} (hSome : text ≠ []) (h : ∀ byte ∈ text, Ordinary byte) :
    Spells text text := by
  intro rest
  obtain ⟨byte, text, rfl⟩ := List.exists_cons_of_ne_nil hSome
  rw [List.cons_append, lexFrom_cons (step_ordinary (h byte List.mem_cons_self) none),
    lexFrom_ordinary text fun other hOther => h other (List.mem_cons_of_mem _ hOther)]
  rfl

/-- Texts that spell words, with blanks between them, are lexed to those words. -/
theorem lex_spaced {first firstWord : List UInt8} (hFirst : Spells first firstWord)
    (texts : List (List UInt8 × List UInt8)) (h : ∀ text ∈ texts, Spells text.1 text.2) :
    lex (first ++ texts.flatMap fun text => 32 :: text.1) =
      some (literal firstWord :: texts.map fun text => literal text.2) := by
  induction texts generalizing first firstWord with
  | nil =>
      rw [lex, List.flatMap_nil, hFirst]
      rfl
  | cons text texts ih =>
      have hRest := ih (h text List.mem_cons_self)
        fun other hOther => h other (List.mem_cons_of_mem _ hOther)
      have hBlank : step (.plain (some (firstWord.map .literal))) 32 =
          (.plain none, [literal firstWord]) := rfl
      rw [lex] at hRest
      rw [lex, List.flatMap_cons, hFirst, List.cons_append, lexFrom, hBlank, hRest]
      rfl

end PosixShell
