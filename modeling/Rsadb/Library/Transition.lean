import Mathlib.Tactic.Cases
import Rsadb.Library.Trace

/-! Systems that take steps and report events. A run is any sequence of enabled
steps from an initial state, each of which its environment allows; the trace
collects the events. -/
namespace Transition

variable {State Action Event : Type}

/-- The traces of the runs from `initial`, with the states they reach. What the
environment allows may depend on all that has happened. -/
inductive Runs (step : State → Action → Option (State × List Event))
    (allowed : List Event → State → Action → Prop) (initial : State) :
    List Event → State → Prop
  | start : Runs step allowed initial [] initial
  | next {trace : List Event} {s s' : State} {action : Action} {events : List Event} :
      Runs step allowed initial trace s → allowed trace s action →
      step s action = some (s', events) → Runs step allowed initial (trace ++ events) s'

variable {step : State → Action → Option (State × List Event)}
  {allowed : List Event → State → Action → Prop} {initial : State}

/-- What holds at the start and is kept by every step of a run holds throughout. -/
theorem Runs.invariant {Inv : List Event → State → Prop} (hStart : Inv [] initial)
    (hStep : ∀ trace s action s' events, Runs step allowed initial trace s → Inv trace s →
      allowed trace s action → step s action = some (s', events) → Inv (trace ++ events) s')
    {trace : List Event} {s : State} (h : Runs step allowed initial trace s) : Inv trace s := by
  induction h with
  | start => exact hStart
  | next hRun hAllowed hTaken ih => exact hStep _ _ _ _ _ hRun ih hAllowed hTaken

/-- A law about every event and what precedes it holds of a run whose steps obey it. -/
theorem Runs.law {Law : List Event → Event → Prop}
    (hStep : ∀ {trace s action s' events}, Runs step allowed initial trace s → allowed trace s action →
      step s action = some (s', events) → ∀ before entry after, events = before ++ entry :: after →
      Law (trace ++ before) entry)
    {trace : List Event} {s : State} (h : Runs step allowed initial trace s) :
    ∀ before entry after, trace = before ++ entry :: after → Law before entry := by
  refine @Runs.invariant _ _ _ _ _ _ (fun trace _ => ∀ before entry after, trace = before ++ entry :: after →
    Law before entry) ?_ ?_ _ _ h
  · simp
  · intro trace s action s' events hRun hLaw hAllowed hTaken
    exact Trace.law_append hLaw (hStep hRun hAllowed hTaken)

/-- An environment that allows more has at least the same runs. -/
theorem Runs.mono {wider : List Event → State → Action → Prop}
    (hWider : ∀ trace s action, allowed trace s action → wider trace s action)
    {trace : List Event} {s : State} (h : Runs step allowed initial trace s) :
    Runs step wider initial trace s := by
  induction h with
  | start => exact .start
  | next _ hAllowed hTaken ih => exact ih.next (hWider _ _ _ hAllowed) hTaken

/-- A run that goes on where another one stopped, in an environment that remembers it. -/
theorem Runs.append {before : List Event} {middle : State}
    (hBefore : Runs step allowed initial before middle) {trace : List Event} {s : State}
    (h : Runs step (fun trace s action => allowed (before ++ trace) s action) middle trace s) :
    Runs step allowed initial (before ++ trace) s := by
  induction h with
  | start => rwa [List.append_nil]
  | next _ hAllowed hTaken ih =>
      rw [← List.append_assoc]
      exact ih.next hAllowed hTaken

/-- Take the given steps, as far as they are enabled and allowed. -/
def execute (step : State → Action → Option (State × List Event))
    (allowed : List Event → State → Action → Prop)
    [∀ trace s action, Decidable (allowed trace s action)] :
    List Event → State → List Action → Option (List Event × State)
  | trace, s, [] => some (trace, s)
  | trace, s, action :: rest =>
      if allowed trace s action then
        match step s action with
        | some (s', events) => execute step allowed (trace ++ events) s' rest
        | none => none
      else none

/-- What was executed is a run. -/
theorem Runs.execute [∀ trace s action, Decidable (allowed trace s action)]
    (actions : List Action) {trace trace' : List Event} {s s' : State}
    (hRun : Runs step allowed initial trace s)
    (h : execute step allowed trace s actions = some (trace', s')) :
    Runs step allowed initial trace' s' := by
  induction actions generalizing trace s with
  | nil =>
      cases h
      exact hRun
  | cons action rest ih =>
      unfold Transition.execute at h
      split at h
      · rename_i hAllowed
        split at h
        · rename_i hTaken
          exact ih (hRun.next hAllowed hTaken) h
        · cases h
      · cases h

/-- What can be executed from the start reaches the end of a run. -/
theorem Runs.executed [∀ trace s action, Decidable (allowed trace s action)] (actions : List Action)
    (h : (Transition.execute step allowed [] initial actions).isSome) :
    Runs step allowed initial ((Transition.execute step allowed [] initial actions).get h).1
      ((Transition.execute step allowed [] initial actions).get h).2 :=
  Runs.start.execute actions (Option.some_get h).symm

/-- There is a run that was executed, and it shows what the execution shows. -/
theorem Runs.of_execute {Seen : Type} (step : State → Action → Option (State × List Event))
    (allowed : List Event → State → Action → Prop)
    [∀ trace s action, Decidable (allowed trace s action)] (initial : State) (actions : List Action)
    (observe : List Event × State → Seen) (seen : Seen)
    (h : (Transition.execute step allowed [] initial actions).map observe = some seen) :
    ∃ trace s, Runs step allowed initial trace s ∧ observe (trace, s) = seen := by
  obtain ⟨⟨trace, s⟩, hExecute, hSeen⟩ := Option.map_eq_some_iff.mp h
  exact ⟨trace, s, Runs.start.execute actions hExecute, hSeen⟩

end Transition
