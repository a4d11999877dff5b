import Rsadb.Error
import Rsadb.Library.Radix
import Rsadb.Library.Text

/-! The address of a device that is reached over TCP, `host[:port]`. An IPv6
address with a port stands in brackets. -/
namespace Rsadb.Tcp

/-- The port `adbd` listens on when TCP debugging is enabled. -/
def DEFAULT_PORT : UInt16 := 5555

def decimalDigit (c : Char) : Option Nat :=
  if '0' ≤ c ∧ c ≤ '9' then some (c.toNat - 48) else none

/-- The decimal number of a text, if it is one of 16 bits. A plus sign may stand in front of it. -/
def portFromStr (text : List Char) : Option UInt16 :=
  let number := fun digits =>
    (Radix.value 10 decimalDigit digits).bind fun n => if n < 2 ^ 16 then some (UInt16.ofNat n) else none
  match text with
  | [] | ['+'] => none
  | '+' :: digits => number digits
  | digits => number digits

def parsePort (debug : String → String) (text : List Char) : Result UInt16 :=
  match portFromStr text with
  | some port => .ok port
  | none => .error (.invalidArgument s!"bad port {debug (String.ofList text)}")

/-- What stands behind an address in brackets. -/
def parseTail (debug : String → String) (tail : List Char) : Result UInt16 :=
  match Text.stripPrefix [':'] tail with
  | some port => parsePort debug port
  | none =>
      if tail = [] then .ok DEFAULT_PORT
      else .error (.invalidArgument s!"unexpected {debug (String.ofList tail)} after host")

/-- Split `host[:port]` into an address, applying the default port when the port is absent. -/
def parseEndpoint (debug : String → String) (spec : String) : Result (String × UInt16) :=
  let text := (Text.trim spec).toList
  if text = [] then .error (.invalidArgument "empty address")
  else match Text.stripPrefix ['['] text with
  | some rest =>
      match Text.splitOnce [']'] rest with
      | none => .error (.invalidArgument s!"unterminated IPv6 literal {debug (Text.trim spec)}")
      | some (host, tail) => (parseTail debug tail).map fun port => (String.ofList host, port)
  | none =>
      match Text.rsplitOnce ':' text with
      | some (host, port) =>
          if ':' ∈ host then .ok (Text.trim spec, DEFAULT_PORT)
          else (parsePort debug port).map fun port => (String.ofList host, port)
      | none => .ok (Text.trim spec, DEFAULT_PORT)

/-- The text names this host and this port: the host in brackets, or as it is if
it has no colon in it or more than one, or with the port behind its only colon. -/
inductive Names : List Char → List Char → UInt16 → Prop where
  | literal {host : List Char} (hClosed : ']' ∉ host) : Names ('[' :: (host ++ [']'])) host DEFAULT_PORT
  | literalPort {host digits : List Char} {port : UInt16} (hClosed : ']' ∉ host)
      (hPort : portFromStr digits = some port) : Names ('[' :: (host ++ ']' :: ':' :: digits)) host port
  | plain {host : List Char} (hSome : host ≠ []) (hOpen : ¬['['] <+: host) (hColons : host.count ':' ≠ 1) :
      Names host host DEFAULT_PORT
  | port {host digits : List Char} {port : UInt16} (hOpen : ¬['['] <+: host ++ ':' :: digits)
      (hColons : (host ++ ':' :: digits).count ':' = 1) (hPort : portFromStr digits = some port) :
      Names (host ++ ':' :: digits) host port

variable {debug : String → String} {text host : List Char} {port : UInt16}

theorem parsePort_ok : parsePort debug text = .ok port ↔ portFromStr text = some port := by
  unfold parsePort
  split
  · rename_i found hFound
    simp [hFound]
  · rename_i hNone
    simp [hNone]

theorem parseTail_ok : parseTail debug text = .ok port ↔
    (text = [] ∧ port = DEFAULT_PORT) ∨ ∃ digits, text = ':' :: digits ∧ portFromStr digits = some port := by
  unfold parseTail
  split
  · rename_i digits hDigits
    obtain rfl := Text.stripPrefix_eq_some_iff.mp hDigits
    simp [parsePort_ok]
  · rename_i hNone
    have hOther : ∀ digits, text ≠ ':' :: digits := by
      rintro digits rfl
      cases hNone.symm.trans (Text.stripPrefix_append [':'] digits)
    split_ifs with hEmpty
    · simp [hEmpty, eq_comm]
    · simp [hEmpty, hOther]

/-- Behind an opening bracket the host ends at the first closing one. -/
theorem names_open {rest : List Char} (debug : String → String) : Names ('[' :: rest) host port ↔
    ∃ tail, rest = host ++ ']' :: tail ∧ ']' ∉ host ∧ parseTail debug tail = .ok port := by
  constructor
  · intro h
    generalize hText : '[' :: rest = text at h
    cases h with
    | literal hClosed =>
        obtain ⟨-, rfl⟩ := List.cons.inj hText
        exact ⟨[], rfl, hClosed, parseTail_ok.mpr (Or.inl ⟨rfl, rfl⟩)⟩
    | literalPort hClosed hPort =>
        obtain ⟨-, rfl⟩ := List.cons.inj hText
        exact ⟨_, rfl, hClosed, parseTail_ok.mpr (Or.inr ⟨_, rfl, hPort⟩)⟩
    | plain _ hOpen _ => exact absurd ⟨rest, hText⟩ hOpen
    | port hOpen _ _ => exact absurd ⟨rest, hText⟩ hOpen
  · rintro ⟨tail, rfl, hClosed, hTail⟩
    rcases parseTail_ok.mp hTail with ⟨rfl, rfl⟩ | ⟨digits, rfl, hPort⟩
    · exact .literal hClosed
    · exact .literalPort hClosed hPort

/-- Elsewhere it is the number of colons that tells whether there is a port. -/
theorem names_closed (hSome : text ≠ []) (hOpen : ¬['['] <+: text) : Names text host port ↔
    (text.count ':' ≠ 1 ∧ host = text ∧ port = DEFAULT_PORT) ∨
      (text.count ':' = 1 ∧ ∃ digits, text = host ++ ':' :: digits ∧ portFromStr digits = some port) := by
  constructor
  · intro h
    cases h with
    | literal _ => exact absurd ⟨_, rfl⟩ hOpen
    | literalPort _ _ => exact absurd ⟨_, rfl⟩ hOpen
    | plain _ _ hColons => exact Or.inl ⟨hColons, rfl, rfl⟩
    | port _ hColons hPort => exact Or.inr ⟨hColons, _, rfl, hPort⟩
  · rintro (⟨hColons, rfl, rfl⟩ | ⟨hColons, digits, rfl, hPort⟩)
    · exact .plain hSome hOpen hColons
    · exact .port hOpen hColons hPort

theorem ofList_eq_iff {chars : List Char} {host : String} : String.ofList chars = host ↔ chars = host.toList := by
  rw [← String.toList_inj, String.toList_ofList]

section

variable {spec host : String}

/-- A host in brackets is read up to the first closing one. -/
theorem parseEndpoint_open {rest : List Char} (hText : (Text.trim spec).toList = '[' :: rest) :
    parseEndpoint debug spec = .ok (host, port) ↔
      ∃ tail, rest = host.toList ++ ']' :: tail ∧ ']' ∉ host.toList ∧ parseTail debug tail = .ok port := by
  have hBracket : Text.stripPrefix ['['] ('[' :: rest) = some rest := Text.stripPrefix_append ['['] rest
  simp only [parseEndpoint, hText, hBracket, if_neg (List.cons_ne_nil '[' rest)]
  split
  · rename_i hNone
    have hUnclosed := Text.splitOnce_singleton_eq_none_iff.mp hNone
    constructor
    · intro h
      cases h
    · rintro ⟨tail, rfl, -, -⟩
      exact absurd (by simp) hUnclosed
  · rename_i inner tail hSplit
    obtain ⟨rfl, hClosed⟩ := Text.splitOnce_singleton_eq_some_iff.mp hSplit
    constructor
    · intro h
      cases hTail : parseTail debug tail with
      | error e =>
          rw [hTail] at h
          cases h
      | ok found =>
          rw [hTail] at h
          obtain ⟨hSame, rfl⟩ := Prod.mk.inj (Except.ok.inj h)
          obtain rfl := ofList_eq_iff.mp hSame
          exact ⟨tail, rfl, hClosed, hTail⟩
    · rintro ⟨other, hOther, hInner, hTail⟩
      have hSame := (Text.splitOnce_append hClosed tail).symm.trans
        ((congrArg (Text.splitOnce [']']) hOther).trans (Text.splitOnce_append hInner other))
      obtain ⟨rfl, rfl⟩ := Prod.mk.inj (Option.some.inj hSame)
      rw [hTail]
      exact congrArg Except.ok (Prod.ext (ofList_eq_iff.mpr rfl) rfl)

/-- Without a bracket in front, a port is read behind the only colon. -/
theorem parseEndpoint_closed {text : List Char} (hText : (Text.trim spec).toList = text) (hSome : text ≠ [])
    (hOpen : ¬['['] <+: text) : parseEndpoint debug spec = .ok (host, port) ↔
      (text.count ':' ≠ 1 ∧ host.toList = text ∧ port = DEFAULT_PORT) ∨
      (text.count ':' = 1 ∧ ∃ digits, text = host.toList ++ ':' :: digits ∧ portFromStr digits = some port) := by
  have hNoBracket : Text.stripPrefix ['['] text = none := by
    rw [Option.eq_none_iff_forall_ne_some]
    intro rest hRest
    exact hOpen ⟨rest, (Text.stripPrefix_eq_some_iff.mp hRest).symm⟩
  have hWhole : (.ok (Text.trim spec, DEFAULT_PORT) : Result (String × UInt16)) = .ok (host, port) ↔
      host.toList = text ∧ port = DEFAULT_PORT := by
    rw [Except.ok.injEq, Prod.mk.injEq, ← String.toList_inj, hText, eq_comm, @eq_comm _ DEFAULT_PORT]
  simp only [parseEndpoint, hText, hNoBracket, if_neg hSome]
  rcases Text.rsplitOnce_cases ':' text with ⟨hSplit, hNot⟩ | ⟨before, after, hSplit, rfl, hAfter⟩
  · simp only [hSplit, hWhole, List.count_eq_zero.mpr hNot]
    simp
  · have hCount : (before ++ ':' :: after).count ':' = before.count ':' + 1 := by
      simp [List.count_eq_zero.mpr hAfter]
    rw [hCount]
    simp only [hSplit]
    split_ifs with hMore
    · have hPositive := List.count_pos_iff.mpr hMore
      simp only [hWhole]
      constructor
      · exact fun h => Or.inl ⟨by omega, h⟩
      · rintro (⟨-, h⟩ | ⟨hOne, -⟩)
        · exact h
        · omega
    · rw [List.count_eq_zero.mpr hMore]
      constructor
      · intro h
        cases hPort : parsePort debug after with
        | error e =>
            rw [hPort] at h
            cases h
        | ok found =>
            rw [hPort] at h
            obtain ⟨hSame, rfl⟩ := Prod.mk.inj (Except.ok.inj h)
            obtain rfl := ofList_eq_iff.mp hSame
            exact Or.inr ⟨rfl, after, rfl, parsePort_ok.mp hPort⟩
      · rintro (⟨hOne, -⟩ | ⟨-, digits, hDigits, hPort⟩)
        · exact absurd rfl hOne
        · have hHost : ':' ∉ host.toList := by
            intro hInside
            have hTwice := congrArg (List.count ':') hDigits
            have hPositive := List.count_pos_iff.mpr hInside
            simp only [List.count_append, List.count_cons_self, List.count_eq_zero.mpr hAfter,
              List.count_eq_zero.mpr hMore] at hTwice
            omega
          have hSame := (Text.splitOnce_append hMore after).symm.trans
            ((congrArg (Text.splitOnce [':']) hDigits).trans (Text.splitOnce_append hHost digits))
          obtain ⟨rfl, rfl⟩ := Prod.mk.inj (Option.some.inj hSame)
          rw [parsePort_ok.mpr hPort]
          exact congrArg Except.ok (Prod.ext (ofList_eq_iff.mpr rfl) rfl)

end

/-- An address is accepted exactly if its text names a host and a port, and these
are what it is taken for: with the port behind the only colon, or behind the
brackets, and the default port otherwise, as for an IPv6 address without brackets. -/
theorem endpoint_exact (debug : String → String) (spec host : String) (port : UInt16) :
    parseEndpoint debug spec = .ok (host, port) ↔ Names (Text.trim spec).toList host.toList port := by
  generalize hText : (Text.trim spec).toList = text
  by_cases hEmpty : text = []
  · subst hEmpty
    constructor
    · intro h
      simp only [parseEndpoint, hText] at h
      cases h
    · intro h
      generalize hNone : ([] : List Char) = text at h
      cases h with
      | literal _ => cases hNone
      | literalPort _ _ => cases hNone
      | plain hSome _ _ => exact absurd hNone.symm hSome
      | port _ _ _ => cases (List.append_eq_nil_iff.mp hNone.symm).2
  · by_cases hOpen : ['['] <+: text
    · obtain ⟨rest, rfl⟩ := hOpen
      exact (parseEndpoint_open hText).trans (names_open debug).symm
    · exact (parseEndpoint_closed hText hEmpty hOpen).trans (names_closed hEmpty hOpen).symm

end Rsadb.Tcp
