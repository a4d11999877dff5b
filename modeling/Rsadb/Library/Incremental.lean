import Mathlib.Data.List.Basic

/-! Decoders that are fed their input in pieces. A step takes one unit off the
front of what is buffered, or finds the unit incomplete and takes nothing. The
result below says that such a decoder sees only the input, not the pieces. -/

/-- A step takes a non-empty front of the input, and what comes behind that
front has no influence on what is taken. -/
structure Incremental (State Item : Type) where
  step : State → List Item → Option (State × List Item)
  shrinks : ∀ {s s' : State} {input rest : List Item},
    step s input = some (s', rest) → rest.length < input.length
  stable : ∀ {s s' : State} {input rest : List Item} (more : List Item),
    step s input = some (s', rest) → step s (input ++ more) = some (s', rest ++ more)

namespace Incremental

variable {State Item : Type} (decoder : Incremental State Item)

/-- Take steps as long as there is a complete unit. -/
def drain (s : State) (input : List Item) : State × List Item :=
  match _hStep : decoder.step s input with
  | none => (s, input)
  | some (s', rest) => drain s' rest
  termination_by input.length
  decreasing_by exact decoder.shrinks _hStep

/-- Take one more piece. -/
def feed (now : State × List Item) (piece : List Item) : State × List Item :=
  decoder.drain now.1 (now.2 ++ piece)

variable {decoder}

theorem drain_of_none {s : State} {input : List Item} (h : decoder.step s input = none) :
    decoder.drain s input = (s, input) := by
  rw [drain]
  split
  · rfl
  · rename_i hStep
    rw [h] at hStep
    cases hStep

theorem drain_of_some {s s' : State} {input rest : List Item}
    (h : decoder.step s input = some (s', rest)) :
    decoder.drain s input = decoder.drain s' rest := by
  rw [drain]
  split
  · rename_i hStep
    rw [h] at hStep
    cases hStep
  · rename_i hStep
    rw [h] at hStep
    cases hStep
    rfl

variable (decoder)

/-- Input behind the first part can wait until the first part is decoded. -/
theorem drain_append (s : State) (input more : List Item) :
    decoder.drain s (input ++ more) = decoder.feed (decoder.drain s input) more := by
  induction hLength : input.length using Nat.strongRecOn generalizing s input with
  | _ length ih =>
      cases hStep : decoder.step s input with
      | none => rw [drain_of_none hStep, feed]
      | some next =>
          obtain ⟨s', rest⟩ := next
          rw [drain_of_some hStep, drain_of_some (decoder.stable more hStep)]
          exact ih rest.length (hLength ▸ decoder.shrinks hStep) s' rest rfl

/-- However the input is cut, the decoder ends where it ends on the whole of it. -/
theorem feed_flatten (s : State) (pieces : List (List Item)) :
    pieces.foldl decoder.feed (s, []) = decoder.drain s pieces.flatten := by
  have hFrom : ∀ input, pieces.foldl decoder.feed (decoder.drain s input) =
      decoder.drain s (input ++ pieces.flatten) := by
    induction pieces with
    | nil => simp
    | cons piece pieces ih =>
        intro input
        rw [List.foldl_cons, ← drain_append, ih, List.flatten_cons, List.append_assoc]
  have hStart : decoder.step s [] = none := by
    cases hStep : decoder.step s [] with
    | none => rfl
    | some next => exact absurd (decoder.shrinks hStep) (Nat.not_lt_zero _)
  have hWhole := hFrom []
  rwa [drain_of_none hStart, List.nil_append] at hWhole

/-- Units that begin with a header of fixed size, from which the length of the
whole unit can be told. A header that does not belong has no length. -/
def ofFrames (header : Nat) (length : State → List Item → Option Nat)
    (positive : ∀ s front count, length s front = some count → 0 < count)
    (accept : State → List Item → State) : Incremental State Item where
  step s input :=
    if input.length < header then none
    else match length s (input.take header) with
      | none => none
      | some count =>
          if input.length < count then none
          else some (accept s (input.take count), input.drop count)
  shrinks := by
    intro s s' input rest h
    split at h
    · cases h
    · rename_i hHeader
      split at h
      · cases h
      · rename_i count hCount
        split at h
        · cases h
        · cases h
          have hPositive := positive s _ count hCount
          rw [List.length_drop]
          omega
  stable := by
    intro s s' input rest more h
    split at h
    · cases h
    · rename_i hHeader
      rw [if_neg (by rw [List.length_append]; omega), List.take_append_of_le_length (by omega)]
      split at h
      · cases h
      · rename_i count hCount
        split at h
        · cases h
        · rename_i hWhole
          cases h
          rw [if_neg (by rw [List.length_append]; omega), List.take_append_of_le_length (by omega),
            List.drop_append_of_le_length (by omega)]

/-- A whole unit in front of the input is taken. -/
theorem ofFrames_drain {header : Nat} {length : State → List Item → Option Nat}
    {positive : ∀ s front count, length s front = some count → 0 < count}
    {accept : State → List Item → State} {s : State} {frame : List Item} (more : List Item)
    (hHeader : header ≤ frame.length) (hLength : length s (frame.take header) = some frame.length) :
    (ofFrames header length positive accept).drain s (frame ++ more) =
      (ofFrames header length positive accept).drain (accept s frame) more := by
  apply drain_of_some
  simp only [ofFrames]
  rw [if_neg (by rw [List.length_append]; omega), List.take_append_of_le_length hHeader, hLength]
  simp

end Incremental
