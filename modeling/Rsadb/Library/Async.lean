import Mathlib.Data.List.Basic
import Mathlib.Tactic.Cases

/-! Computations that may fail, and that may still be waiting for their peer
when they are observed. A waiting computation has changed its state as far as
it came. The consumption rules relate such a computation to the part of its
input that it reads: `holds s input` says that `input` is all that is still to
be read in state `s`. -/

/-- A stateful computation; no result means that it is waiting. -/
def Async (ε σ α : Type) : Type := σ → Option (Except ε α) × σ

namespace Async

variable {ε σ α β Item : Type}

def pure (value : α) : Async ε σ α := fun s => (some (.ok value), s)

def fail (e : ε) : Async ε σ α := fun s => (some (.error e), s)

def bind (first : Async ε σ α) (next : α → Async ε σ β) : Async ε σ β := fun s =>
  match first s with
  | (some (.ok value), s) => next value s
  | (some (.error e), s) => (some (.error e), s)
  | (none, s) => (none, s)

instance : Monad (Async ε σ) where
  pure := pure
  bind := bind

/-- A pure result, as a computation that changes nothing. -/
def lift (result : Except ε α) : Async ε σ α := fun s => (some result, s)

/-- A computation on the first of two states. -/
def onFst {τ : Type} (op : Async ε σ α) : Async ε (σ × τ) α := fun s => ((op s.1).1, ((op s.1).2, s.2))

/-- A computation on the second of two states. -/
def onSnd {τ : Type} (op : Async ε τ α) : Async ε (σ × τ) α := fun s => ((op s.2).1, (s.1, (op s.2).2))

/-- Wait for ever. -/
def wait : Async ε σ α := fun s => (none, s)

/-- Run `body` on every value that `next` gives until it gives none, for at
most `fuel` rounds. -/
def whileSome (next : Async ε σ (Option α)) (body : β → α → Async ε σ β) : Nat → β → Async ε σ β
  | 0, _ => wait
  | fuel + 1, acc => next >>= fun
      | some value => body acc value >>= whileSome next body fuel
      | none => Pure.pure acc

@[simp] theorem pure_apply (value : α) (s : σ) :
    (Pure.pure value : Async ε σ α) s = (some (.ok value), s) := rfl

@[simp] theorem fail_apply (e : ε) (s : σ) : (fail e : Async ε σ α) s = (some (.error e), s) := rfl

@[simp] theorem lift_apply (result : Except ε α) (s : σ) :
    (lift result : Async ε σ α) s = (some result, s) := rfl

/-- A computation followed by another continues with the value of the first. -/
theorem bind_ok {first : Async ε σ α} {next : α → Async ε σ β} {s s' : σ} {value : α}
    (h : first s = (some (.ok value), s')) : (first >>= next) s = next value s' := by
  show bind first next s = next value s'
  simp only [bind, h]

theorem bind_error {first : Async ε σ α} {next : α → Async ε σ β} {s s' : σ} {e : ε}
    (h : first s = (some (.error e), s')) : (first >>= next) s = (some (.error e), s') := by
  show bind first next s = _
  simp only [bind, h]

theorem bind_waits {first : Async ε σ α} {next : α → Async ε σ β} {s s' : σ}
    (h : first s = (none, s')) : (first >>= next) s = (none, s') := by
  show bind first next s = _
  simp only [bind, h]

/-- A computation that ends well has ended well in both of its parts. -/
theorem bind_eq_ok {first : Async ε σ α} {next : α → Async ε σ β} {s s' : σ} {result : β}
    (h : (first >>= next) s = (some (.ok result), s')) :
    ∃ value middle, first s = (some (.ok value), middle) ∧
      next value middle = (some (.ok result), s') := by
  change bind first next s = _ at h
  unfold bind at h
  split at h
  · rename_i value middle hFirst
    exact ⟨value, middle, hFirst, h⟩
  · cases h
  · cases h

/-- The rule for loops: what every round keeps holds when the loop has ended,
in a state in which there is no further value. -/
theorem whileSome_ok (Inv : β → σ → Prop) {next : Async ε σ (Option α)}
    {body : β → α → Async ε σ β}
    (hBody : ∀ acc s value middle acc' s', Inv acc s → next s = (some (.ok (some value)), middle) →
      body acc value middle = (some (.ok acc'), s') → Inv acc' s')
    {fuel : Nat} {acc result : β} {s s' : σ} (hStart : Inv acc s)
    (h : whileSome next body fuel acc s = (some (.ok result), s')) :
    ∃ last, Inv result last ∧ next last = (some (.ok none), s') := by
  induction fuel generalizing acc s with
  | zero => cases h
  | succ fuel ih =>
      obtain ⟨step, middle, hNext, hRest⟩ := bind_eq_ok h
      cases step with
      | none =>
          cases hRest
          exact ⟨s, hStart, hNext⟩
      | some value =>
          obtain ⟨acc', after, hRound, hLater⟩ := bind_eq_ok hRest
          exact ih (hBody _ _ _ _ _ _ hStart hNext hRound) hLater

/-- A computation followed by another fails as one of the two does. -/
theorem bind_failed_iff {first : Async ε σ α} {next : α → Async ε σ β} {s : σ} {e : ε} :
    ((first >>= next) s).1 = some (.error e) ↔ (first s).1 = some (.error e) ∨
      ∃ value s', first s = (some (.ok value), s') ∧ (next value s').1 = some (.error e) := by
  rcases hFirst : first s with ⟨_ | failed | value, s'⟩
  · simp [bind_waits hFirst]
  · simp [bind_error hFirst]
  · simp [bind_ok hFirst]

/-- A computation followed by another goes no further than itself, or goes on with the other. -/
theorem bind_cases (first : Async ε σ α) (next : α → Async ε σ β) (s : σ) :
    ((first >>= next) s).2 = (first s).2 ∨
      ∃ value s', first s = (some (.ok value), s') ∧ (first >>= next) s = next value s' := by
  rcases hFirst : first s with ⟨_ | failed | value, s'⟩
  · simp [bind_waits hFirst]
  · simp [bind_error hFirst]
  · exact Or.inr ⟨value, s', rfl, bind_ok hFirst⟩

/-- A computation followed by another goes from states in which it does the same. -/
theorem bind_congr {first : Async ε σ α} {next : α → Async ε σ β} {s s' : σ} (h : first s = first s') :
    (first >>= next) s = (first >>= next) s' := by
  show bind first next s = bind first next s'
  simp only [bind, h]

/-- Nesting to the left or to the right makes no difference. -/
theorem bind_assoc {γ : Type} (first : Async ε σ α) (second : α → Async ε σ β)
    (third : β → Async ε σ γ) :
    first >>= second >>= third = first >>= fun value => second value >>= third := by
  funext s
  show bind (bind first second) third s = bind first (fun value => bind (second value) third) s
  simp only [bind]
  rcases first s with ⟨_ | _ | _, _⟩ <;> rfl

theorem lift_bind (value : α) (next : α → Async ε σ β) : (lift (.ok value) >>= next) = next value := rfl

theorem bind_unit (op : Async ε σ Unit) : (op >>= fun _ => Pure.pure ()) = op := by
  funext s
  show bind op (fun _ => pure ()) s = op s
  simp only [bind]
  rcases op s with ⟨_ | _ | ⟨⟩, _⟩ <;> rfl

/-- The computation leaves a property of the state as it finds it, however it ends. -/
def Keeps (inv : σ → Prop) (op : Async ε σ α) : Prop := ∀ s, inv s → inv (op s).2

namespace Keeps

variable {inv : σ → Prop}

theorem pure (value : α) : Keeps inv (Pure.pure value : Async ε σ α) := fun _ h => h

theorem lift (result : Except ε α) : Keeps inv (Async.lift result) := fun _ h => h

theorem fail (e : ε) : Keeps inv (Async.fail e : Async ε σ α) := fun _ h => h

theorem bind {first : Async ε σ α} {next : α → Async ε σ β} (hFirst : Keeps inv first)
    (hNext : ∀ value, Keeps inv (next value)) : Keeps inv (first >>= next) := by
  intro s h
  have hMiddle := hFirst s h
  show inv (Async.bind first next s).2
  simp only [Async.bind]
  split
  · rename_i value middle hRun
    rw [hRun] at hMiddle
    exact hNext value middle hMiddle
  · rename_i e middle hRun
    rwa [hRun] at hMiddle
  · rename_i middle hRun
    rwa [hRun] at hMiddle

end Keeps

/-- On related states the computation gives the same result, and leaves them related. -/
def Agrees (rel : σ → σ → Prop) (op : Async ε σ α) : Prop :=
  ∀ s t, rel s t → (op s).1 = (op t).1 ∧ rel (op s).2 (op t).2

namespace Agrees

variable {rel : σ → σ → Prop}

theorem lift (result : Except ε α) : Agrees rel (Async.lift result) := fun _ _ h => ⟨rfl, h⟩

theorem bind {first : Async ε σ α} {next : α → Async ε σ β} (hFirst : Agrees rel first)
    (hNext : ∀ value, Agrees rel (next value)) : Agrees rel (first >>= next) := by
  intro s t h
  obtain ⟨hSame, hRelated⟩ := hFirst s t h
  show (Async.bind first next s).1 = (Async.bind first next t).1 ∧
    rel (Async.bind first next s).2 (Async.bind first next t).2
  rcases hS : first s with ⟨result, s'⟩
  rcases hT : first t with ⟨result', t'⟩
  rw [hS, hT] at hSame hRelated
  obtain rfl : result = result' := hSame
  simp only [Async.bind, hS, hT]
  rcases result with _ | e | value
  · exact ⟨rfl, hRelated⟩
  · exact ⟨rfl, hRelated⟩
  · exact hNext value s' t' hRelated

end Agrees

/-- A result that the computation gives does not change when its input grows. -/
def Steady (grows : σ → σ → Prop) (op : Async ε σ α) : Prop :=
  ∀ s t, grows s t → ∀ result, (op s).1 = some result → (op t).1 = some result ∧ grows (op s).2 (op t).2

namespace Steady

variable {grows : σ → σ → Prop}

theorem pure (value : α) : Steady grows (Pure.pure value : Async ε σ α) := fun _ _ h _ hResult => ⟨hResult, h⟩

theorem fail (e : ε) : Steady grows (Async.fail e : Async ε σ α) := fun _ _ h _ hResult => ⟨hResult, h⟩

theorem bind {first : Async ε σ α} {next : α → Async ε σ β} (hFirst : Steady grows first)
    (hNext : ∀ value, Steady grows (next value)) : Steady grows (first >>= next) := by
  intro s t h result hResult
  change (Async.bind first next s).1 = some result at hResult
  show (Async.bind first next t).1 = some result ∧
    grows (Async.bind first next s).2 (Async.bind first next t).2
  rcases hS : first s with ⟨_ | e | value, s'⟩
  · simp only [Async.bind, hS] at hResult
    cases hResult
  · obtain ⟨hSame, hGrown⟩ := hFirst s t h _ (congrArg Prod.fst hS)
    rcases hT : first t with ⟨answer, t'⟩
    rw [hS, hT] at hGrown
    obtain rfl : answer = some (.error e) := by rw [hT] at hSame; exact hSame
    simp only [Async.bind, hS, hT] at hResult ⊢
    exact ⟨hResult, hGrown⟩
  · obtain ⟨hSame, hGrown⟩ := hFirst s t h _ (congrArg Prod.fst hS)
    rcases hT : first t with ⟨answer, t'⟩
    rw [hS, hT] at hGrown
    obtain rfl : answer = some (.ok value) := by rw [hT] at hSame; exact hSame
    simp only [Async.bind, hS, hT] at hResult ⊢
    exact hNext value s' t' hGrown result hResult

end Steady

/-- Where the computation waits, it fails with `e` as soon as its input has grown. -/
def Breaks (e : ε) (grows : σ → σ → Prop) (op : Async ε σ α) : Prop :=
  ∀ s t, grows s t → (op s).1 = none → (op t).1 = some (.error e)

namespace Breaks

variable {e : ε} {grows : σ → σ → Prop}

theorem pure (value : α) : Breaks e grows (Pure.pure value : Async ε σ α) := fun _ _ _ hWaits => by cases hWaits

theorem fail (other : ε) : Breaks e grows (Async.fail other : Async ε σ α) := fun _ _ _ hWaits => by cases hWaits

theorem bind {first : Async ε σ α} {next : α → Async ε σ β} (hSteady : Steady grows first)
    (hFirst : Breaks e grows first) (hNext : ∀ value, Breaks e grows (next value)) :
    Breaks e grows (first >>= next) := by
  intro s t h hWaits
  rcases hS : first s with ⟨_ | failed | value, s'⟩
  · have hFails := hFirst s t h (congrArg Prod.fst hS)
    exact congrArg Prod.fst (bind_error (Prod.ext hFails rfl))
  · rw [bind_error hS] at hWaits
    cases hWaits
  · obtain ⟨hSame, hGrown⟩ := hSteady s t h _ (congrArg Prod.fst hS)
    rw [hS] at hGrown
    rw [bind_ok hS] at hWaits
    rw [bind_ok (Prod.ext hSame rfl)]
    exact hNext value s' _ hGrown hWaits

end Breaks

/-- The computation does not wait in the states that have the property, and it keeps the property. -/
def Prompt (inv : σ → Prop) (op : Async ε σ α) : Prop := ∀ s, inv s → (op s).1 ≠ none ∧ inv (op s).2

namespace Prompt

variable {inv : σ → Prop}

theorem pure (value : α) : Prompt inv (Pure.pure value : Async ε σ α) := fun _ h => ⟨by simp, h⟩

theorem fail (e : ε) : Prompt inv (Async.fail e : Async ε σ α) := fun _ h => ⟨by simp, h⟩

theorem bind {first : Async ε σ α} {next : α → Async ε σ β} (hFirst : Prompt inv first)
    (hNext : ∀ value, Prompt inv (next value)) : Prompt inv (first >>= next) := by
  intro s h
  obtain ⟨hGives, hMiddle⟩ := hFirst s h
  show (Async.bind first next s).1 ≠ none ∧ inv (Async.bind first next s).2
  rcases hRun : first s with ⟨_ | e | value, middle⟩ <;> rw [hRun] at hGives hMiddle <;>
    simp only [Async.bind, hRun]
  · exact absurd rfl hGives
  · exact ⟨by simp, hMiddle⟩
  · exact hNext value middle hMiddle

end Prompt

variable (holds : σ → List Item → Prop)

/-- From every state in which `input` comes first, the computation ends with
`result` and leaves what comes behind `input`. -/
def Consumes (op : Async ε σ α) (input : List Item) (result : Except ε α) : Prop :=
  ∀ s rest, holds s (input ++ rest) → ∃ s', op s = (some result, s') ∧ holds s' rest

variable {holds}

namespace Consumes

theorem pure (value : α) : Consumes holds (Pure.pure value : Async ε σ α) [] (.ok value) :=
  fun s _ h => ⟨s, rfl, h⟩

theorem lift (result : Except ε α) : Consumes holds (Async.lift result) [] result :=
  fun s _ h => ⟨s, rfl, h⟩

theorem fail (e : ε) : Consumes holds (Async.fail e : Async ε σ α) [] (.error e) :=
  fun s _ h => ⟨s, rfl, h⟩

/-- A computation consumes its input also in the states that have what it keeps. -/
theorem and_keeps {op : Async ε σ α} {input : List Item} {result : Except ε α} {inv : σ → Prop}
    (h : Consumes holds op input result) (hKeeps : Keeps inv op) :
    Consumes (fun s rest => holds s rest ∧ inv s) op input result := by
  rintro s rest ⟨hHolds, hInv⟩
  obtain ⟨s', hRun, hRest⟩ := h s rest hHolds
  have hAfter := hKeeps s hInv
  rw [hRun] at hAfter
  exact ⟨s', hRun, hRest, hAfter⟩

/-- Two computations in a row consume their inputs in a row. -/
theorem bind {first : Async ε σ α} {next : α → Async ε σ β} {before after : List Item} {value : α}
    {result : Except ε β} (hFirst : Consumes holds first before (.ok value))
    (hNext : Consumes holds (next value) after result) :
    Consumes holds (first >>= next) (before ++ after) result := by
  intro s rest h
  rw [List.append_assoc] at h
  obtain ⟨middle, hRun, hMiddle⟩ := hFirst s _ h
  rw [bind_ok hRun]
  exact hNext middle rest hMiddle

/-- A failure ends the whole computation. -/
theorem bind_error {first : Async ε σ α} {next : α → Async ε σ β} {input : List Item} {e : ε}
    (hFirst : Consumes holds first input (.error e)) :
    Consumes holds (first >>= next) input (.error e) := by
  intro s rest h
  obtain ⟨s', hRun, hRest⟩ := hFirst s rest h
  exact ⟨s', Async.bind_error hRun, hRest⟩

/-- What follows the last read consumes nothing more. -/
theorem bind_nil {op : Async ε σ α} {next : α → Async ε σ β} {input : List Item} {value : α}
    {result : Except ε β} (h : Consumes holds op input (.ok value))
    (hNext : Consumes holds (next value) [] result) :
    Consumes holds (op >>= next) input result := by
  rw [← List.append_nil input]
  exact bind h hNext

theorem map {op : Async ε σ α} {input : List Item} {value : α} (f : α → β)
    (h : Consumes holds op input (.ok value)) :
    Consumes holds (op >>= fun value => Pure.pure (f value)) input (.ok (f value)) :=
  bind_nil h (pure (f value))

end Consumes

end Async
