import Mathlib.Data.Finset.Basic
import Mathlib.Data.Finset.Lattice.Lemmas
import Mathlib.Data.Finset.Dedup
import Mathlib.Tactic.SplitIfs

/-! Logs of arrivals and departures. A log is legal when only the absent arrive
and only the present leave; then the entries of every key alternate. -/
namespace Presence

/-- One entry of a log. -/
inductive Change (Key : Type) where
  | arrived (key : Key)
  | left (key : Key)
  deriving DecidableEq, Repr

variable {Key : Type}

def Change.key : Change Key → Key
  | arrived key => key
  | left key => key

def Change.isArrival : Change Key → Bool
  | arrived _ => true
  | left _ => false

@[simp] theorem Change.key_arrived (key : Key) : (Change.arrived key).key = key := rfl
@[simp] theorem Change.key_left (key : Key) : (Change.left key).key = key := rfl

/-- The key leaves before it arrives. -/
def Waits (key : Key) (log : List (Change Key)) : Prop :=
  ∀ before after, log = before ++ .arrived key :: after → .left key ∈ before

/-- Whoever has arrived leaves before arriving again. -/
def Spaced (log : List (Change Key)) : Prop :=
  ∀ key before after, log = before ++ .arrived key :: after → Waits key after

private theorem waits_arrived {key other : Key} {rest : List (Change Key)} :
    Waits key (.arrived other :: rest) ↔ other ≠ key ∧ Waits key rest := by
  constructor
  · refine fun h => ⟨fun hSame => ?_, fun before after hSplit => ?_⟩
    · have hNever := h [] rest (by rw [hSame]; rfl)
      cases hNever
    · have hEarlier := h (.arrived other :: before) after (by rw [hSplit]; rfl)
      simpa using hEarlier
  · rintro ⟨hOther, hRest⟩ before after hSplit
    cases before with
    | nil =>
        cases hSplit
        exact absurd rfl hOther
    | cons change before =>
        cases hSplit
        exact List.mem_cons_of_mem _ (hRest before after rfl)

private theorem waits_left {key other : Key} {rest : List (Change Key)} :
    Waits key (.left other :: rest) ↔ other = key ∨ Waits key rest := by
  constructor
  · intro h
    by_cases hSame : other = key
    · exact Or.inl hSame
    · refine Or.inr fun before after hSplit => ?_
      have hEarlier := h (.left other :: before) after (by rw [hSplit]; rfl)
      simpa [Ne.symm hSame] using hEarlier
  · intro h before after hSplit
    cases before with
    | nil => cases hSplit
    | cons change before =>
        cases hSplit
        rcases h with rfl | hRest
        · exact List.mem_cons_self
        · exact List.mem_cons_of_mem _ (hRest before after rfl)

private theorem spaced_cons {change : Change Key} {rest : List (Change Key)} :
    Spaced (change :: rest) ↔ (∀ key, change = .arrived key → Waits key rest) ∧ Spaced rest := by
  constructor
  · intro h
    exact ⟨fun key hFirst => h key [] rest (by rw [hFirst]; rfl), fun key before after hSplit =>
      h key (change :: before) after (by rw [hSplit]; rfl)⟩
  · rintro ⟨hFirst, hRest⟩ key before after hSplit
    cases before with
    | nil =>
        cases hSplit
        exact hFirst key rfl
    | cons other before =>
        cases hSplit
        exact hRest key before after rfl

variable [DecidableEq Key]

/-- Who is present after one more entry. -/
def apply (present : Finset Key) : Change Key → Finset Key
  | .arrived key => insert key present
  | .left key => present.erase key

/-- Who is present after a log. -/
def replay (present : Finset Key) (log : List (Change Key)) : Finset Key := log.foldl apply present

/-- An entry that tells something new. -/
def Fits (present : Finset Key) : Change Key → Prop
  | .arrived key => key ∉ present
  | .left key => key ∈ present

instance (present : Finset Key) (change : Change Key) : Decidable (Fits present change) := by
  rcases change <;> unfold Fits <;> infer_instance

/-- Every entry tells something new. -/
def Legal : Finset Key → List (Change Key) → Prop
  | _, [] => True
  | present, change :: rest => Fits present change ∧ Legal (apply present change) rest

/-- The entries of a key, in order, are an arrival, a departure, an arrival and so on. -/
def Alternates (key : Key) (log : List (Change Key)) : Prop :=
  ∀ i change, (log.filter (·.key = key))[i]? = some change → (change.isArrival = true ↔ i % 2 = 0)

/-- Drop the departures of those who are absent. -/
def heed : Finset Key → List (Change Key) → List (Change Key)
  | _, [] => []
  | present, .arrived key :: rest => .arrived key :: heed (insert key present) rest
  | present, .left key :: rest =>
      if key ∈ present then .left key :: heed (present.erase key) rest else heed present rest

@[simp] theorem replay_nil (present : Finset Key) : replay present [] = present := rfl

@[simp] theorem replay_cons (present : Finset Key) (change : Change Key) (rest : List (Change Key)) :
    replay present (change :: rest) = replay (apply present change) rest := rfl

theorem replay_append (present : Finset Key) (first second : List (Change Key)) :
    replay present (first ++ second) = replay (replay present first) second :=
  List.foldl_append

theorem legal_append {present : Finset Key} {first second : List (Change Key)} :
    Legal present (first ++ second) ↔ Legal present first ∧ Legal (replay present first) second := by
  induction first generalizing present with
  | nil => simp [Legal]
  | cons change rest ih => simp only [List.cons_append, Legal, replay_cons, ih, and_assoc]

/-- Arrivals are never dropped. -/
theorem heed_arrivals (present : Finset Key) (keys : List Key) (rest : List (Change Key)) :
    heed present (keys.map .arrived ++ rest) =
      keys.map .arrived ++ heed (present ∪ keys.toFinset) rest := by
  induction keys generalizing present with
  | nil => simp
  | cons key keys ih =>
      have hSame : insert key present ∪ keys.toFinset = present ∪ (key :: keys).toFinset := by
        ext other
        simp only [Finset.mem_union, Finset.mem_insert, List.toFinset_cons]
        tauto
      rw [List.map_cons, List.cons_append, heed, ih, hSame]
      rfl

/-- Everybody in a list without repetitions may arrive, and is present then. -/
theorem arrive_all {present : Finset Key} {keys : List Key} (hDistinct : keys.Nodup)
    (hAbsent : ∀ key ∈ keys, key ∉ present) :
    Legal present (keys.map .arrived) ∧ replay present (keys.map .arrived) = present ∪ keys.toFinset := by
  induction keys generalizing present with
  | nil => simp [Legal]
  | cons key rest ih =>
      obtain ⟨hNew, hRest⟩ := List.nodup_cons.mp hDistinct
      obtain ⟨hLegal, hPresent⟩ := @ih (insert key present) hRest (fun other hMember hIn => by
        rcases Finset.mem_insert.mp hIn with rfl | hOld
        · exact hNew hMember
        · exact hAbsent other (List.mem_cons_of_mem _ hMember) hOld)
      refine ⟨⟨hAbsent key List.mem_cons_self, hLegal⟩, ?_⟩
      rw [List.map_cons, replay_cons, apply, hPresent, List.toFinset_cons]
      ext other
      simp only [Finset.mem_union, Finset.mem_insert]
      tauto

/-- Everybody in a list without repetitions may leave, and is absent then. -/
theorem leave_all {present : Finset Key} {keys : List Key} (hDistinct : keys.Nodup)
    (hThere : ∀ key ∈ keys, key ∈ present) :
    Legal present (keys.map .left) ∧ replay present (keys.map .left) = present \ keys.toFinset := by
  induction keys generalizing present with
  | nil => simp [Legal]
  | cons key rest ih =>
      obtain ⟨hNew, hRest⟩ := List.nodup_cons.mp hDistinct
      obtain ⟨hLegal, hPresent⟩ := @ih (present.erase key) hRest (fun other hMember =>
        Finset.mem_erase.mpr ⟨fun hSame => hNew (hSame ▸ hMember),
          hThere other (List.mem_cons_of_mem _ hMember)⟩)
      refine ⟨⟨hThere key List.mem_cons_self, hLegal⟩, ?_⟩
      rw [List.map_cons, replay_cons, apply, hPresent, List.toFinset_cons]
      ext other
      simp only [Finset.mem_sdiff, Finset.mem_erase, Finset.mem_insert]
      tauto

/-- Whoever is missing from the next state leaves and whoever is new in it
arrives: that is legal, and leads to the next state. -/
theorem renew {present next : Finset Key} {gone fresh : List Key} (hGoneOnce : gone.Nodup)
    (hFreshOnce : fresh.Nodup) (hGone : ∀ key, key ∈ gone ↔ key ∈ present ∧ key ∉ next)
    (hFresh : ∀ key, key ∈ fresh ↔ key ∈ next ∧ key ∉ present) :
    Legal present (gone.map .left ++ fresh.map .arrived) ∧
      replay present (gone.map .left ++ fresh.map .arrived) = next := by
  obtain ⟨hLeave, hLeft⟩ := leave_all hGoneOnce fun key hKey => ((hGone key).mp hKey).1
  have hAbsent : ∀ key ∈ fresh, key ∉ present \ gone.toFinset := fun key hKey hThere =>
    ((hFresh key).mp hKey).2 (Finset.mem_sdiff.mp hThere).1
  obtain ⟨hArrive, hArrived⟩ := arrive_all hFreshOnce hAbsent
  rw [legal_append, replay_append, hLeft, hArrived]
  refine ⟨⟨hLeave, hArrive⟩, ?_⟩
  ext key
  simp only [Finset.mem_union, Finset.mem_sdiff, List.mem_toFinset, hGone, hFresh]
  tauto

/-- A place that is entered and left in turns, starting as it is now. -/
private def Flips : Prop → List Bool → Prop
  | _, [] => True
  | here, arrives :: rest => (arrives = true ↔ ¬here) ∧ Flips (arrives = true) rest

private theorem flips_iff {here : Prop} {kinds : List Bool} :
    Flips here kinds ↔
      ∀ i arrives, kinds[i]? = some arrives → (arrives = true ↔ (i % 2 = 0 ↔ ¬here)) := by
  induction kinds generalizing here with
  | nil => simp [Flips]
  | cons first rest ih =>
      have hTurn : ∀ i : Nat, (i + 1) % 2 = 0 ↔ ¬i % 2 = 0 := fun i => by omega
      rw [Flips, ih]
      constructor
      · rintro ⟨hFirst, hRest⟩ i arrives hArrives
        cases i with
        | zero =>
            obtain rfl := Option.some.inj hArrives
            simpa using hFirst
        | succ i =>
            rw [hRest i arrives hArrives, hTurn, hFirst]
            tauto
      · intro h
        have hFirst : first = true ↔ ¬here := by simpa using h 0 first rfl
        refine ⟨hFirst, fun i arrives hArrives => ?_⟩
        rw [h (i + 1) arrives hArrives, hTurn, hFirst]
        tauto

/-- One entry, as every key sees it. -/
private theorem flips_cons {present : Finset Key} {key : Key} {change : Change Key}
    {rest : List (Change Key)} :
    Flips (key ∈ present) (((change :: rest).filter (·.key = key)).map Change.isArrival) ↔
      (change.key = key → Fits present change) ∧
        Flips (key ∈ apply present change) ((rest.filter (·.key = key)).map Change.isArrival) := by
  by_cases hKey : change.key = key
  · rw [List.filter_cons_of_pos (by simpa using hKey), List.map_cons, Flips]
    subst hKey
    cases change <;> simp [Change.isArrival, Fits, apply]
  · rw [List.filter_cons_of_neg (by simpa using hKey)]
    have hSame : key ∈ apply present change ↔ key ∈ present := by
      cases change with
      | arrived other => simp [apply, show key ≠ other from Ne.symm hKey]
      | left other => simp [apply, show key ≠ other from Ne.symm hKey]
    simp [hKey, hSame]

private theorem legal_iff_flips {present : Finset Key} {log : List (Change Key)} :
    Legal present log ↔
      ∀ key, Flips (key ∈ present) ((log.filter (·.key = key)).map Change.isArrival) := by
  induction log generalizing present with
  | nil => simp [Legal, Flips]
  | cons change rest ih => simp only [Legal, ih, flips_cons, forall_and, forall_eq']

/-- A log that starts with nobody is legal exactly when the entries of every key alternate. -/
theorem legal_iff_alternates {log : List (Change Key)} :
    Legal ∅ log ↔ ∀ key, Alternates key log := by
  rw [legal_iff_flips]
  refine forall_congr' fun key => ?_
  rw [flips_iff, Alternates]
  constructor
  · intro h i change hChange
    have hIndex := h i change.isArrival (by rw [List.getElem?_map, hChange]; rfl)
    simpa using hIndex
  · intro h i arrives hArrives
    rw [List.getElem?_map, Option.map_eq_some_iff] at hArrives
    obtain ⟨change, hChange, rfl⟩ := hArrives
    simpa using h i change hChange

/-- Dropping the departures of those who are absent makes a log legal exactly
when whoever is present or has arrived leaves before arriving again. -/
theorem legal_heed_iff {present : Finset Key} {log : List (Change Key)} :
    Legal present (heed present log) ↔ (∀ key ∈ present, Waits key log) ∧ Spaced log := by
  induction log generalizing present with
  | nil => simp [heed, Legal, Waits, Spaced]
  | cons change rest ih =>
      rw [spaced_cons]
      cases change with
      | arrived key =>
          simp only [heed, Legal, Fits, apply, ih, waits_arrived, Change.arrived.injEq, forall_eq',
            Finset.mem_insert, forall_eq_or_imp]
          constructor
          · rintro ⟨hAbsent, ⟨hKey, hOthers⟩, hSpaced⟩
            exact ⟨fun other hThere => ⟨fun hSame => hAbsent (hSame ▸ hThere), hOthers other hThere⟩,
              hKey, hSpaced⟩
          · rintro ⟨hOthers, hKey, hSpaced⟩
            exact ⟨fun hThere => (hOthers key hThere).1 rfl,
              ⟨hKey, fun other hThere => (hOthers other hThere).2⟩, hSpaced⟩
      | left key =>
          simp only [waits_left, reduceCtorEq, false_imp_iff, implies_true, true_and]
          rw [heed]
          split_ifs with hThere
          · simp only [Legal, Fits, apply, ih, hThere, true_and, Finset.mem_erase, and_imp]
            refine and_congr_left fun _ => forall_congr' fun other => ?_
            constructor
            · intro h hOther
              by_cases hSame : key = other
              · exact Or.inl hSame
              · exact Or.inr (h (Ne.symm hSame) hOther)
            · exact fun h hNot hOther => (h hOther).resolve_left (Ne.symm hNot)
          · rw [ih]
            refine and_congr_left fun _ => forall₂_congr fun other hOther => ?_
            exact ⟨Or.inr, fun h => h.resolve_left fun hSame => hThere (hSame ▸ hOther)⟩

end Presence
