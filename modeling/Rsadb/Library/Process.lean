import Rsadb.Library.Transition

/-! Programs that make one call at a time and go on with the answer, and the
runs of a system that hosts one. The system shows the answers in its trace; what
the program does next depends on them alone. -/

/-- A program as its caller sees it: what it asks for where it stands, how it
goes on with an answer, and its outcome once it has one. -/
structure Process (State Call Answer Outcome : Type) where
  initial : State
  asks : State → Option Call
  resume : State → Answer → State
  outcome : State → Option Outcome

namespace Process

variable {State Call Answer Outcome System Action Event : Type}

/-- Where the program stands after the given answers. -/
def after (process : Process State Call Answer Outcome) (answers : List Answer) : State :=
  answers.foldl process.resume process.initial

theorem after_append (process : Process State Call Answer Outcome) (first second : List Answer) :
    process.after (first ++ second) = second.foldl process.resume (process.after first) :=
  List.foldl_append

/-- What holds of the initial state and is kept by every answer always holds. -/
theorem after_invariant {process : Process State Call Answer Outcome} {Inv : State → Prop}
    (hInitial : Inv process.initial) (hResume : ∀ state answer, Inv state → Inv (process.resume state answer))
    (answers : List Answer) : Inv (process.after answers) :=
  List.foldlRecOn answers process.resume hInitial fun state hInv answer _ => hResume state answer hInv

/-- Wherever an action carries out a call of the program, it is the one that the program asks for. -/
def Hosts (process : Process State Call Answer Outcome) (answer : Event → Option Answer)
    (call : System → Action → Option Call) (trace : List Event) (s : System) (action : Action) : Prop :=
  ∀ c ∈ call s action, process.asks (process.after (trace.filterMap answer)) = some c

instance [DecidableEq Call] (process : Process State Call Answer Outcome)
    (answer : Event → Option Answer) (call : System → Action → Option Call) (trace : List Event)
    (s : System) (action : Action) : Decidable (process.Hosts answer call trace s action) :=
  inferInstanceAs (Decidable (∀ c ∈ call s action, _))

/-- What every step keeps of the program and the system together, if the program
asks for the calls that are made in its name, holds in every run that hosts it. -/
theorem hosted_invariant {process : Process State Call Answer Outcome}
    {answer : Event → Option Answer} {call : System → Action → Option Call}
    {step : System → Action → Option (System × List Event)}
    {allowed : List Event → System → Action → Prop} {initial : System}
    {Inv : State → List Event → System → Prop} (hStart : Inv process.initial [] initial)
    (hStep : ∀ {state trace s action s' events}, allowed trace s action →
      (∀ c ∈ call s action, process.asks state = some c) → step s action = some (s', events) →
      Inv state trace s →
      Inv ((events.filterMap answer).foldl process.resume state) (trace ++ events) s')
    {trace : List Event} {s : System}
    (h : Transition.Runs step (fun trace s action => allowed trace s action ∧
      process.Hosts answer call trace s action) initial trace s) :
    Inv (process.after (trace.filterMap answer)) trace s := by
  induction h with
  | start => exact hStart
  | next _ hAllowed hTaken ih =>
      rw [List.filterMap_append, after_append]
      exact hStep hAllowed.1 hAllowed.2 hTaken ih

end Process
