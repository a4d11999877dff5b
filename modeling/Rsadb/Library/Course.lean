import Rsadb.Library.Transition
import Mathlib.Data.Nat.Init

/-! Runs that go on for ever. An action is treated fairly when it is not put off
for ever while it is enabled. What has to happen on a course follows from steps
that fairness takes and a rank that they bring down. -/
namespace Transition

variable {State Action Event : Type}

/-- An endless run. At each moment one action is carried out, or none. -/
structure Course (step : State → Action → Option (State × List Event)) (initial : State) where
  state : Nat → State
  trace : Nat → List Event
  action : Nat → Option Action
  state_zero : state 0 = initial
  trace_zero : trace 0 = []
  pause : ∀ n, action n = none → state (n + 1) = state n ∧ trace (n + 1) = trace n
  next : ∀ n taken, action n = some taken → ∃ events,
    step (state n) taken = some (state (n + 1), events) ∧ trace (n + 1) = trace n ++ events

/-- Where every moment of a kind is followed by one that is wanted, or by one of
the kind with a smaller rank, a wanted moment follows. -/
theorem eventually_of_rank {Pending Wanted : Nat → Prop} (rank : Nat → Nat)
    (hFalls : ∀ n, Pending n → ∃ m ≥ n, Wanted m ∨ Pending m ∧ rank m < rank n) {n : Nat}
    (hPending : Pending n) : ∃ m ≥ n, Wanted m := by
  induction hRank : rank n using Nat.strong_induction_on generalizing n with
  | h bound ih =>
      obtain ⟨m, hLater, hWanted | ⟨hStill, hLess⟩⟩ := hFalls n hPending
      · exact ⟨m, hLater, hWanted⟩
      · obtain ⟨k, hAfter, hWanted⟩ := ih (rank m) (hRank ▸ hLess) hStill rfl
        exact ⟨k, Nat.le_trans hLater hAfter, hWanted⟩

namespace Course

variable {step : State → Action → Option (State × List Event)} {initial : State}
  {course : Course step initial}

/-- What has happened up to a moment is a run. -/
theorem runs (course : Course step initial) (n : Nat) :
    Runs step (fun _ _ _ => True) initial (course.trace n) (course.state n) := by
  induction n with
  | zero =>
      rw [course.state_zero, course.trace_zero]
      exact .start
  | succ n ih =>
      cases hAction : course.action n with
      | none =>
          obtain ⟨hState, hTrace⟩ := course.pause n hAction
          rwa [hState, hTrace]
      | some action =>
          obtain ⟨events, hTaken, hTrace⟩ := course.next n action hAction
          rw [hTrace]
          exact ih.next trivial hTaken

/-- The action is not put off for ever: time and again it is taken, or cannot be. -/
def Fair (course : Course step initial) (action : Action) : Prop :=
  ∀ n, ∃ m ≥ n, course.action m = some action ∨ step (course.state m) action = none

/-- An action that stays enabled until it is taken is taken. -/
theorem Fair.taken {action : Action} (hFair : course.Fair action) {Pending : Nat → Prop}
    (hKept : ∀ m, Pending m → course.action m ≠ some action → Pending (m + 1))
    (hEnabled : ∀ m, Pending m → step (course.state m) action ≠ none) {n : Nat} (hPending : Pending n) :
    ∃ m ≥ n, Pending m ∧ course.action m = some action := by
  by_contra hNever
  have hAlways : ∀ m ≥ n, Pending m := fun m hLater => by
    induction m, hLater using Nat.le_induction with
    | base => exact hPending
    | succ m hLater ih => exact hKept m ih fun hTaken => hNever ⟨m, hLater, ih, hTaken⟩
  obtain ⟨m, hLater, hTaken | hDisabled⟩ := hFair n
  · exact hNever ⟨m, hLater, hAlways m hLater, hTaken⟩
  · exact hEnabled m (hAlways m hLater) hDisabled

end Course

section Replay

variable {step : State → Action → Option (State × List Event)}
  {allowed : List Event → State → Action → Prop}
  [∀ trace s action, Decidable (allowed trace s action)]

theorem execute_append (trace : List Event) (s : State) (before after : List Action) :
    execute step allowed trace s (before ++ after) =
      (execute step allowed trace s before).bind fun reached =>
        execute step allowed reached.1 reached.2 after := by
  induction before generalizing trace s with
  | nil => rfl
  | cons action rest ih =>
      simp only [List.cons_append, execute]
      split
      · split
        · exact ih _ _
        · rfl
      · rfl

end Replay

/-- What the first actions of a list reach. -/
def replayed (step : State → Action → Option (State × List Event)) (initial : State)
    (actions : List Action) (n : Nat) : List Event × State :=
  (execute step (fun _ _ _ => True) [] initial (actions.take n)).getD ([], initial)

namespace Course

variable {step : State → Action → Option (State × List Event)} {initial : State} {actions : List Action}

private theorem replayed_succ (hAll : (execute step (fun _ _ _ => True) [] initial actions).isSome)
    {n : Nat} {action : Action} (hAction : actions[n]? = some action) :
    ∃ events, step (replayed step initial actions n).2 action =
        some ((replayed step initial actions (n + 1)).2, events) ∧
      (replayed step initial actions (n + 1)).1 = (replayed step initial actions n).1 ++ events := by
  obtain ⟨hBound, hGet⟩ := List.getElem?_eq_some_iff.mp hAction
  have hFirst : actions.take (n + 1) = actions.take n ++ [action] := by
    rw [List.take_add_one, hAction]
    rfl
  have hSplit : actions.take n ++ action :: actions.drop (n + 1) = actions := by
    rw [← hGet, List.getElem_cons_drop, List.take_append_drop]
  rw [← hSplit, execute_append] at hAll
  obtain ⟨⟨trace, s⟩, hBefore⟩ := Option.isSome_iff_exists.mp (Option.isSome_of_isSome_bind hAll)
  rw [hBefore, Option.bind_some, execute, if_pos trivial] at hAll
  cases hTaken : step s action with
  | none =>
      rw [hTaken] at hAll
      cases hAll
  | some next =>
      have hAfter : execute step (fun _ _ _ => True) [] initial (actions.take (n + 1)) =
          some (trace ++ next.2, next.1) := by
        rw [hFirst, execute_append, hBefore, Option.bind_some, execute, if_pos trivial, hTaken]
        rfl
      simp only [replayed, hBefore, hAfter, Option.getD_some]
      exact ⟨next.2, hTaken, rfl⟩

/-- The course that takes the given actions and then pauses for ever. -/
def replay (step : State → Action → Option (State × List Event)) (initial : State)
    (actions : List Action) (hAll : (execute step (fun _ _ _ => True) [] initial actions).isSome) :
    Course step initial where
  state n := (replayed step initial actions n).2
  trace n := (replayed step initial actions n).1
  action n := actions[n]?
  state_zero := rfl
  trace_zero := rfl
  pause n hPause := by
    have hEnd : actions.length ≤ n := List.getElem?_eq_none_iff.mp hPause
    have hSame : replayed step initial actions (n + 1) = replayed step initial actions n := by
      rw [replayed, replayed, List.take_of_length_le hEnd, List.take_of_length_le (Nat.le_succ_of_le hEnd)]
    exact ⟨congrArg Prod.snd hSame, congrArg Prod.fst hSame⟩
  next n action hAction := replayed_succ hAll hAction

variable {hAll : (execute step (fun _ _ _ => True) [] initial actions).isSome}

/-- What holds after every action of a replay holds at every moment. -/
theorem replay_all {P : State → Prop} (h : ∀ n ≤ actions.length, P (replayed step initial actions n).2)
    (n : Nat) : P ((replay step initial actions hAll).state n) := by
  rcases Nat.le_total n actions.length with hDuring | hAfter
  · exact h n hDuring
  · have hEnd := h actions.length (Nat.le_refl _)
    rw [replayed, List.take_length] at hEnd
    change P (replayed step initial actions n).2
    rwa [replayed, List.take_of_length_le hAfter]

/-- After its last action a replay stays where it is. -/
theorem replay_end {n : Nat} (hAfter : actions.length ≤ n) :
    (replay step initial actions hAll).state n = (replayed step initial actions actions.length).2 := by
  change (replayed step initial actions n).2 = _
  rw [replayed, replayed, List.take_of_length_le hAfter, List.take_length]

/-- What cannot be done at the end of a replay is not put off. -/
theorem replay_fair {action : Action}
    (hDisabled : step (replayed step initial actions actions.length).2 action = none) :
    (replay step initial actions hAll).Fair action := by
  intro n
  refine ⟨max n actions.length, Nat.le_max_left _ _, Or.inr ?_⟩
  rw [replay_end (Nat.le_max_right _ _), hDisabled]

end Course
end Transition
