import Mathlib.Data.List.Induction
import Rsadb.Library.Rotation
import Rsadb.Session.System

/-! The local ids that the registry gives. Its counter wraps around, leaving out
zero, and a stream is inserted under its id whether or not another one still is
there. -/
namespace Rsadb

open Rotation

/-- The streams of one session by local id, and the counter for the next one. -/
structure Bookkeeping where
  streams : AList fun _ : UInt32 => StreamState
  nextId : UInt32

namespace Bookkeeping

def new : Bookkeeping := ⟨∅, 1⟩

/-- Take the counter's value and move it on, around its end if need be. -/
def fetchAdd (registry : Bookkeeping) : UInt32 × Bookkeeping :=
  (registry.nextId, { registry with nextId := registry.nextId + 1 })

/-- Allocate a local id and register a fresh stream. -/
def register (registry : Bookkeeping) : StreamState × Bookkeeping :=
  let (localId, registry) := registry.fetchAdd
  let (localId, registry) := if localId = 0 then registry.fetchAdd else (localId, registry)
  let state := StreamState.fresh localId
  (state, { registry with streams := registry.streams.insert localId state })

def remove (registry : Bookkeeping) (localId : UInt32) : Option StreamState × Bookkeeping :=
  (registry.streams.lookup localId, { registry with streams := registry.streams.erase localId })

def step (registry : Bookkeeping) : Use UInt32 → Bookkeeping
  | .take => registry.register.2
  | .release localId => (registry.remove localId).2

/-- The registry after a sequence of calls. -/
def run (calls : List (Use UInt32)) : Bookkeeping := calls.foldl step new

theorem run_concat (calls : List (Use UInt32)) (call : Use UInt32) :
    run (calls ++ [call]) = (run calls).step call :=
  List.foldl_concat ..

/-- How many different ids there are. -/
def period : Nat := 2 ^ 32 - 1

/-- The id that is given after `count` others. -/
def idAfter (count : Nat) : UInt32 := UInt32.ofNat (count % period + 1)

theorem idAfter_toNat (count : Nat) : (idAfter count).toNat = count % period + 1 := by
  have hSmall : count % period < 2 ^ 32 - 1 := Nat.mod_lt count (by decide)
  exact UInt32.toNat_ofNat_of_lt' (Nat.add_lt_of_lt_sub hSmall)

theorem idAfter_ne_zero (count : Nat) : idAfter count ≠ 0 := by
  intro hZero
  have hPositive := idAfter_toNat count
  rw [hZero] at hPositive
  cases hPositive

theorem idAfter_eq_iff (m n : Nat) : idAfter m = idAfter n ↔ m % period = n % period := by
  rw [← UInt32.toNat_inj, idAfter_toNat, idAfter_toNat, Nat.add_right_cancel_iff]

/-- The counter stands at the id that follows `count` others, or at the zero before it. -/
def Counts (registry : Bookkeeping) (count : Nat) : Prop :=
  registry.nextId = idAfter count ∨ registry.nextId = 0 ∧ count % period = 0

/-- Behind an id the counter comes to the next one, or to the zero before it. -/
theorem counts_succ {registry : Bookkeeping} {count : Nat} (h : registry.nextId = idAfter count + 1) :
    registry.Counts (count + 1) := by
  have hPeriod : period = 4294967295 := rfl
  have hId := idAfter_toNat count
  by_cases hLast : count % period + 1 = period
  · right
    constructor
    · apply UInt32.toNat_inj.mp
      rw [h, UInt32.toNat_add, hId, hLast]
      rfl
    · rw [← Nat.mod_add_mod, hLast, Nat.mod_self]
  · left
    have hSmall : count % period < period := Nat.mod_lt count (by decide)
    have hNext : (count + 1) % period = count % period + 1 := by
      rw [← Nat.mod_add_mod, Nat.mod_eq_of_lt (Nat.lt_of_le_of_ne hSmall hLast)]
    apply UInt32.toNat_inj.mp
    rw [h, UInt32.toNat_add, hId, idAfter_toNat, hNext, UInt32.toNat_one]
    omega

/-- A registration gives the counter's value, or the one behind it where that is zero. -/
theorem register_of_id {registry : Bookkeeping} {id : UInt32}
    (h : (if registry.nextId = 0 then registry.nextId + 1 else registry.nextId) = id) :
    registry.register = (StreamState.fresh id,
      ⟨registry.streams.insert id (StreamState.fresh id), id + 1⟩) := by
  subst h
  by_cases hZero : registry.nextId = 0
  · simp only [register, fetchAdd, hZero, ↓reduceIte]
  · simp only [register, fetchAdd, hZero, ↓reduceIte]

/-- The id that is given depends on how many were given before, and on nothing else. -/
theorem register_eq {registry : Bookkeeping} {count : Nat} (h : registry.Counts count) :
    registry.register.1.localId = idAfter count ∧
    registry.register.2.streams =
      registry.streams.insert (idAfter count) (StreamState.fresh (idAfter count)) ∧
    registry.register.2.Counts (count + 1) := by
  have hGiven : (if registry.nextId = 0 then registry.nextId + 1 else registry.nextId) = idAfter count := by
    rcases h with hNext | ⟨hZero, hRound⟩
    · rw [hNext, if_neg (idAfter_ne_zero count)]
    · rw [if_pos hZero, hZero, idAfter, hRound]
      rfl
  rw [register_of_id hGiven]
  exact ⟨rfl, rfl, counts_succ rfl⟩

/-- Whatever was called, the counter follows the registrations, and the map has
the ids that are live. -/
theorem run_live (calls : List (Use UInt32)) :
    (run calls).Counts (takes calls) ∧ ∀ id, id ∈ (run calls).streams ↔ Live idAfter calls id := by
  induction calls using List.reverseRecOn with
  | nil => exact ⟨Or.inl rfl, fun id => iff_of_false (AList.notMem_empty id) (not_live_nil idAfter id)⟩
  | append_singleton calls call ih =>
      obtain ⟨hCounts, hStreams⟩ := ih
      rw [run_concat, takes_append]
      cases call with
      | take =>
          obtain ⟨-, hInsert, hNext⟩ := register_eq hCounts
          refine ⟨hNext, fun id => ?_⟩
          rw [step, hInsert, AList.mem_insert, hStreams, live_take]
      | release gone =>
          refine ⟨hCounts, fun id => ?_⟩
          rw [live_release, ← hStreams]
          exact AList.mem_erase

/-- The ids that are given are never zero. They are all free if and only if each
id is removed between the registration that gives it and the one that comes to it
again, after all the others were given. -/
theorem register_fresh_iff (calls : List (Use UInt32)) :
    (∀ before after, calls = before ++ .take :: after →
      (run before).register.1.localId ≠ 0 ∧
      (run before).register.1.localId ∉ (run before).streams) ↔
    ∀ before middle after, calls = before ++ .take :: (middle ++ .take :: after) →
      takes middle + 1 = 2 ^ 32 - 1 → .release (idAfter (takes before)) ∈ middle := by
  have hGiven : ∀ before, (run before).register.1.localId = idAfter (takes before) :=
    fun before => (register_eq (run_live before).1).1
  simp only [hGiven, (run_live _).2]
  refine Iff.trans ?_ (fresh_iff_reclaimed idAfter idAfter_eq_iff (by decide))
  exact forall₃_congr fun before _ _ => and_iff_right (idAfter_ne_zero (takes before))

/-- Register a stream with each of the next ids, and remove it again. -/
def passing (count : Nat) : List (Use UInt32) :=
  (List.range count).flatMap fun n => [.take, .release (idAfter (n + 1))]

theorem takes_passing (count : Nat) : takes (passing count) = count := by
  induction count with
  | zero => rfl
  | succ count ih =>
      rw [passing, List.range_succ, List.flatMap_append, takes_append, ← passing, ih]
      rfl

/-- The only stream that stays open is displaced by the first one after the counter
has gone once around. -/
theorem register_displaces : ¬∀ calls before after : List (Use UInt32), calls = before ++ .take :: after →
    (run before).register.1.localId ≠ 0 ∧
    (run before).register.1.localId ∉ (run before).streams := by
  intro hClaim
  obtain ⟨-, hFree⟩ := hClaim _ (.take :: passing (period - 1)) [] rfl
  obtain ⟨hCounts, hStreams⟩ := run_live (.take :: passing (period - 1))
  have hTakes : takes (.take :: passing (period - 1)) = period := by
    rw [takes_take, takes_passing]
    exact Nat.sub_add_cancel (by decide)
  have hSame : idAfter period = idAfter 0 := (idAfter_eq_iff _ _).mpr (Nat.mod_self period)
  rw [(register_eq hCounts).1, hStreams, hTakes, hSame] at hFree
  refine hFree ⟨[], _, rfl, rfl, ?_⟩
  intro hReleased
  obtain ⟨n, hRange, hMember⟩ := List.mem_flatMap.mp hReleased
  have hOther : idAfter 0 = idAfter (n + 1) := by simpa using hMember
  have hLess : n + 1 < period := Nat.add_lt_of_lt_sub (List.mem_range.mp hRange)
  have hRound := (idAfter_eq_iff _ _).mp hOther
  rw [Nat.zero_mod, Nat.mod_eq_of_lt hLess] at hRound
  cases hRound

end Bookkeeping

/-- A session gives its streams the ids that its registry would give them. -/
theorem Session.allocate_register (s : Session) (service : Bytes)
    (streams : AList fun _ : UInt32 => StreamState) :
    (s.allocate service).streams s.nextRef = (Bookkeeping.mk streams s.nextId).register.1 ∧
    (s.allocate service).nextId = (Bookkeeping.mk streams s.nextId).register.2.nextId := by
  rw [Bookkeeping.register_of_id rfl]
  exact ⟨Function.update_self .., rfl⟩

end Rsadb
