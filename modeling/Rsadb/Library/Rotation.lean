import Mathlib.Data.Nat.ModEq
import Rsadb.Library.Trace

/-! Names that a counter hands out in a cycle. A name is live from where it is
taken to where it is released, and the counter does not ask whether it is. -/
namespace Rotation

inductive Use (Name : Type) where
  | take
  | release (name : Name)
  deriving DecidableEq

variable {Name : Type}

def Use.isTake : Use Name → Bool
  | take => true
  | release _ => false

/-- How many names a log has taken. -/
def takes (log : List (Use Name)) : Nat := log.countP Use.isTake

@[simp] theorem takes_nil : takes ([] : List (Use Name)) = 0 := rfl

@[simp] theorem takes_append (before after : List (Use Name)) :
    takes (before ++ after) = takes before + takes after :=
  List.countP_append

@[simp] theorem takes_take (log : List (Use Name)) : takes (.take :: log) = takes log + 1 :=
  List.countP_cons_of_pos rfl

@[simp] theorem takes_release (id : Name) (log : List (Use Name)) :
    takes (.release id :: log) = takes log :=
  List.countP_cons_of_neg (by simp [Use.isTake])

/-- A log with enough takes has one that is followed by just so many. -/
theorem exists_take {count : Nat} {log : List (Use Name)} (h : count < takes log) :
    ∃ before after, log = before ++ .take :: after ∧ takes after = count := by
  induction log with
  | nil => exact absurd h (Nat.not_lt_zero count)
  | cons use log ih =>
      by_cases hLater : count < takes log
      · obtain ⟨before, after, rfl, hCount⟩ := ih hLater
        exact ⟨use :: before, after, rfl, hCount⟩
      · cases use with
        | take =>
            rw [takes_take] at h
            exact ⟨[], log, rfl, by omega⟩
        | release id => exact absurd (takes_release id log ▸ h) hLater

variable (name : Nat → Name)

/-- The name was taken in the log, and it was not released since. -/
def Live (log : List (Use Name)) (id : Name) : Prop :=
  ∃ before after, log = before ++ .take :: after ∧ name (takes before) = id ∧ .release id ∉ after

theorem not_live_nil (id : Name) : ¬Live name [] id := by
  rintro ⟨before, after, hSplit, -⟩
  simp at hSplit

/-- What the last entry of a log makes live. -/
theorem live_take {log : List (Use Name)} {id : Name} :
    Live name (log ++ [.take]) id ↔ id = name (takes log) ∨ Live name log id := by
  constructor
  · rintro ⟨before, after, hSplit, hName, hKept⟩
    rcases Trace.split_append hSplit with ⟨rest, rfl⟩ | ⟨middle, rfl, hLast⟩
    · obtain rfl : rest ++ [.take] = after := by simpa using hSplit
      exact Or.inr ⟨before, rest, rfl, hName, fun hOld => hKept (List.mem_append_left _ hOld)⟩
    · obtain ⟨rfl, -⟩ := Trace.split_singleton hLast
      rw [List.append_nil] at hName
      exact Or.inl hName.symm
  · rintro (rfl | ⟨before, after, rfl, hName, hKept⟩)
    · exact ⟨log, [], rfl, rfl, List.not_mem_nil⟩
    · refine ⟨before, after ++ [.take], by simp, hName, ?_⟩
      simpa using hKept

theorem live_release {log : List (Use Name)} {gone id : Name} :
    Live name (log ++ [.release gone]) id ↔ id ≠ gone ∧ Live name log id := by
  constructor
  · rintro ⟨before, after, hSplit, hName, hKept⟩
    rcases Trace.split_append hSplit with ⟨rest, rfl⟩ | ⟨middle, rfl, hLast⟩
    · obtain rfl : rest ++ [.release gone] = after := by simpa using hSplit
      rw [List.mem_append, not_or, List.mem_singleton, Use.release.injEq] at hKept
      exact ⟨hKept.2, before, rest, rfl, hName, hKept.1⟩
    · cases (Trace.split_singleton hLast).2
  · rintro ⟨hOther, before, after, rfl, hName, hKept⟩
    refine ⟨before, after ++ [.release gone], by simp, hName, ?_⟩
    simpa [hOther] using hKept

/-- Every name is released before the counter comes to it again, `period` takes later. -/
def Reclaimed (period : Nat) (log : List (Use Name)) : Prop :=
  ∀ before middle after, log = before ++ .take :: (middle ++ .take :: after) →
    takes middle + 1 = period → .release (name (takes before)) ∈ middle

/-- No live name is handed out exactly if every name is released within the period. -/
theorem fresh_iff_reclaimed {period : Nat} (hPeriod : ∀ m n, name m = name n ↔ m % period = n % period)
    (hPositive : 0 < period) {log : List (Use Name)} :
    (∀ before after, log = before ++ .take :: after → ¬Live name before (name (takes before))) ↔
      Reclaimed name period log := by
  have hNext : ∀ n, name (n + period) = name n := fun n => (hPeriod _ _).mpr (Nat.add_mod_right n period)
  constructor
  · intro hFresh before middle after hSplit hFull
    by_contra hKept
    refine hFresh (before ++ .take :: middle) after (by simp [hSplit]) ⟨before, middle, rfl, ?_, ?_⟩
    · rw [takes_append, takes_take, hFull, hNext]
    · rwa [takes_append, takes_take, hFull, hNext]
  · rintro hReclaimed before after rfl ⟨first, middle, rfl, hName, hKept⟩
    -- The counter may have gone round several times, so the last round is looked at.
    have hRound : period ∣ takes middle + 1 := by
      rw [takes_append, takes_take, hPeriod] at hName
      have hSame : Nat.ModEq period (takes first + 0) (takes first + (takes middle + 1)) := hName
      exact Nat.modEq_zero_iff_dvd.mp (Nat.ModEq.add_left_cancel' _ hSame).symm
    have hEnough : period - 1 < takes (.take :: middle) := by
      have hLe := Nat.le_of_dvd (Nat.succ_pos _) hRound
      rw [takes_take]
      omega
    obtain ⟨skipped, round, hSplit, hCount⟩ := exists_take hEnough
    have hFound := hReclaimed (first ++ skipped) round after
      (by rw [hSplit]; simp) (by omega)
    have hLast : name (takes (first ++ .take :: middle)) = name (takes (first ++ skipped)) := by
      rw [hSplit, ← List.append_assoc, takes_append _ (.take :: round), takes_take, hCount,
        Nat.sub_add_cancel hPositive, hNext]
    rw [hLast] at hKept
    have hInside : Use.release (name (takes (first ++ skipped))) ∈ (.take :: middle) := by
      rw [hSplit]
      exact List.mem_append_right _ (List.mem_cons_of_mem _ hFound)
    exact hKept ((List.mem_cons.mp hInside).resolve_left (by simp))

end Rotation
