import Rsadb.Transport.Devices
import Rsadb.Library.HashMap
import Rsadb.Library.Presence

/-! Attach and detach tracking for ADB devices: from the hotplug notifications
of the operating system, or by enumerating again and again. The pause between
two enumerations has no part in what is emitted and is left out. -/
namespace Rsadb

/-- A change in the set of attached ADB devices. -/
inductive UsbEvent (DeviceId : Type) where
  | attached (device : UsbDeviceInfo DeviceId)
  | detached (id : DeviceId)
  deriving DecidableEq, Repr

/-- A notification of the operating system. -/
inductive HotplugEvent (DeviceId : Type) where
  | connected (info : DeviceInfo DeviceId)
  | disconnected (id : DeviceId)
  deriving DecidableEq, Repr

/-- Compare two snapshots keyed by identity: what was added and what was removed. -/
def diff {K V : Type} [DecidableEq K] (previous current : HashMap K V) : List V × List K :=
  let added := (current.iter.filter fun entry => !previous.containsKey entry.1).map Prod.snd
  let removed := previous.keys.filter fun key => !current.containsKey key
  (added, removed)

variable {DeviceId : Type}

section Streams

variable [DecidableEq DeviceId]

/-- The events that follow the initial list, given the devices known so far. -/
def hotplugEvents : Finset DeviceId → List (HotplugEvent DeviceId) → List (Result (UsbEvent DeviceId))
  | _, [] => []
  | known, .connected info :: rest =>
      match adbInterface info with
      | some interfaceNumber =>
          .ok (.attached ⟨info, interfaceNumber⟩) :: hotplugEvents (insert info.id known) rest
      | none => hotplugEvents known rest
  | known, .disconnected id :: rest =>
      if id ∈ known then .ok (.detached id) :: hotplugEvents (known.erase id) rest
      else hotplugEvents known rest

/-- Hotplug-driven stream of events: what it has emitted when the notifications
in `watch` have come, `listed` being what was enumerated after the watch began. -/
def watchUsb (watch : Except UsbError (List (HotplugEvent DeviceId)))
    (listed : Except UsbError (List (DeviceInfo DeviceId))) :
    Result (List (Result (UsbEvent DeviceId))) :=
  match watch with
  | .error e => .error (.usb e.text)
  | .ok hotplug =>
      .ok (match list listed with
        | .ok devices =>
            let ids := (devices.map UsbDeviceInfo.id).toFinset
            devices.map (fun device => .ok (.attached device)) ++ hotplugEvents ids hotplug
        | .error e => [.error e])

/-- The outcome of one enumeration, with the hasher of the map that collects it. -/
abbrev Enumeration (DeviceId : Type) : Type 1 :=
  RandomState × Except UsbError (List (DeviceInfo DeviceId))

/-- The devices known to the polling stream. -/
abbrev Known (DeviceId : Type) [DecidableEq DeviceId] : Type 1 := HashMap DeviceId (UsbDeviceInfo DeviceId)

/-- One round of the polling stream. -/
def pollStep (known : Known DeviceId) (enumeration : Enumeration DeviceId) :
    List (Result (UsbEvent DeviceId)) × Known DeviceId :=
  match list enumeration.2 with
  | .error e => ([.error e], known)
  | .ok devices =>
      let current := HashMap.collect enumeration.1 (devices.map fun device => (device.id, device))
      let (added, removed) := diff known current
      (removed.map (fun id => .ok (.detached id)) ++ added.map (fun device => .ok (.attached device)),
        current)

/-- What the stream knows after some rounds. -/
def pollKnown (known : Known DeviceId) (enumerations : List (Enumeration DeviceId)) : Known DeviceId :=
  enumerations.foldl (fun known enumeration => (pollStep known enumeration).2) known

def pollFrom : Known DeviceId → List (Enumeration DeviceId) → List (Result (UsbEvent DeviceId))
  | _, [] => []
  | known, enumeration :: rest =>
      (pollStep known enumeration).1 ++ pollFrom (pollStep known enumeration).2 rest

/-- Polling stream of events, after the given enumerations. -/
def pollUsb (hasher : RandomState) (enumerations : List (Enumeration DeviceId)) :
    List (Result (UsbEvent DeviceId)) :=
  pollFrom (HashMap.new hasher) enumerations

end Streams

/-- The log that the events make up. -/
def changes (events : List (Result (UsbEvent DeviceId))) : List (Presence.Change DeviceId) :=
  events.filterMap fun
    | .ok (.attached device) => some (.arrived device.id)
    | .ok (.detached id) => some (.left id)
    | .error _ => none

/-- What a notification reports of an ADB device, or of a device that may have been one. -/
def HotplugEvent.report : HotplugEvent DeviceId → Option (Presence.Change DeviceId)
  | connected info => (adbInterface info).map fun _ => .arrived info.id
  | disconnected id => some (.left id)

/-- What the system reports of the bus: the initial list, then the notifications.
Where listing fails nothing of it is read. -/
def reports (notifications : List (HotplugEvent DeviceId))
    (listed : Except UsbError (List (DeviceInfo DeviceId))) : List (Presence.Change DeviceId) :=
  match list listed with
  | .ok devices =>
      (devices.map fun device => .arrived device.id) ++ notifications.filterMap HotplugEvent.report
  | .error _ => []

@[simp] theorem changes_append (first second : List (Result (UsbEvent DeviceId))) :
    changes (first ++ second) = changes first ++ changes second :=
  List.filterMap_append

@[simp] theorem changes_attached (devices : List (UsbDeviceInfo DeviceId)) :
    changes (devices.map fun device => .ok (.attached device)) =
      (devices.map UsbDeviceInfo.id).map .arrived := by
  simp [changes, List.filterMap_map, Function.comp_def]

@[simp] theorem changes_detached (ids : List DeviceId) :
    changes (ids.map fun id => .ok (.detached id)) = ids.map .left := by
  simp [changes, List.filterMap_map]

variable [DecidableEq DeviceId]

/-- The hotplug stream passes its notifications on, but for departures of unknown devices. -/
theorem changes_hotplugEvents (known : Finset DeviceId) (notifications : List (HotplugEvent DeviceId)) :
    changes (hotplugEvents known notifications) =
      Presence.heed known (notifications.filterMap HotplugEvent.report) := by
  induction notifications generalizing known with
  | nil => rfl
  | cons event rest ih =>
      cases event with
      | connected info =>
          cases hInterface : adbInterface info with
          | none =>
              have hReport : (HotplugEvent.connected info).report = none := by
                rw [HotplugEvent.report, hInterface, Option.map_none]
              rw [List.filterMap_cons_none hReport, ← ih]
              simp only [hotplugEvents, hInterface]
          | some interfaceNumber =>
              have hReport : (HotplugEvent.connected info).report = some (.arrived info.id) := by
                rw [HotplugEvent.report, hInterface, Option.map_some]
              rw [List.filterMap_cons_some hReport, Presence.heed, ← ih]
              simp only [hotplugEvents, hInterface]
              rfl
      | disconnected id =>
          have hReport : (HotplugEvent.disconnected id).report = some (.left id) := rfl
          rw [List.filterMap_cons_some hReport, hotplugEvents, Presence.heed]
          split_ifs with hKnown
          · rw [← ih]
            rfl
          · exact ih known

/-- Hotplug events. However the notifications overlap with the initial list: the
events of every device alternate, an attachment first, exactly when the system
reports a device as gone between any two reports that it is there. -/
theorem hotplug_alternates_iff (notifications : List (HotplugEvent DeviceId))
    (listed : Except UsbError (List (DeviceInfo DeviceId))) :
    ∃ events, watchUsb (.ok notifications) listed = .ok events ∧
      ((∀ id, Presence.Alternates id (changes events)) ↔
        Presence.Spaced (reports notifications listed)) := by
  refine ⟨_, rfl, ?_⟩
  rw [← Presence.legal_iff_alternates]
  suffices hHeeded : changes (match list listed with
      | .ok devices => devices.map (fun device => .ok (.attached device)) ++
          hotplugEvents (devices.map UsbDeviceInfo.id).toFinset notifications
      | .error e => [.error e]) = Presence.heed ∅ (reports notifications listed) by
    rw [hHeeded, Presence.legal_heed_iff]
    simp
  unfold reports
  cases list listed with
  | error e => rfl
  | ok devices =>
      have hArrivals : (devices.map fun device => Presence.Change.arrived device.id) =
          (devices.map UsbDeviceInfo.id).map .arrived := by
        rw [List.map_map]
        rfl
      dsimp only
      rw [hArrivals, Presence.heed_arrivals, changes_append, changes_attached, changes_hotplugEvents,
        Finset.empty_union]

/-- A device is listed, and the notification of its arrival comes after that. -/
theorem listed_device_attached_twice :
    ¬∀ (notifications : List (HotplugEvent Nat)) (listed : Except UsbError (List (DeviceInfo Nat)))
      (events : List (Result (UsbEvent Nat))), watchUsb (.ok notifications) listed = .ok events →
      ∀ id, Presence.Alternates id (changes events) := by
  intro hClaim
  have hSecond := hClaim [.connected ⟨1, [⟨0, ADB_CLASS, ADB_SUBCLASS, ADB_PROTOCOL⟩]⟩]
    (.ok [⟨1, [⟨0, ADB_CLASS, ADB_SUBCLASS, ADB_PROTOCOL⟩]⟩]) _ rfl 1 1 (.arrived 1) (by decide)
  revert hSecond
  decide

/-- The ids of the devices in a snapshot. -/
def snapshotIds (devices : List (UsbDeviceInfo DeviceId)) : Finset DeviceId :=
  (devices.map UsbDeviceInfo.id).toFinset

/-- The ids that the stream knows. -/
def knownIds (known : Known DeviceId) : Finset DeviceId := known.keys.toFinset

/-- What a round emits for a snapshot: whoever is missing leaves, whoever is new arrives. -/
theorem pollStep_snapshot {known : Known DeviceId} {enumeration : Enumeration DeviceId}
    {devices : List (UsbDeviceInfo DeviceId)} (hList : list enumeration.2 = .ok devices) :
    ∃ gone fresh : List DeviceId,
      changes (pollStep known enumeration).1 = gone.map .left ++ fresh.map .arrived ∧
      (∀ e, .error e ∉ (pollStep known enumeration).1) ∧
      (∀ device, .ok (.attached device) ∈ (pollStep known enumeration).1 → device ∈ devices) ∧
      gone.Nodup ∧ fresh.Nodup ∧
      (∀ id, id ∈ gone ↔ id ∈ knownIds known ∧ id ∉ snapshotIds devices) ∧
      (∀ id, id ∈ fresh ↔ id ∈ snapshotIds devices ∧ id ∉ knownIds known) ∧
      knownIds (pollStep known enumeration).2 = snapshotIds devices := by
  let current := HashMap.collect enumeration.1 (devices.map fun device => (device.id, device))
  let added := current.iter.filter fun entry => !known.containsKey entry.1
  let gone := known.keys.filter fun id => !current.containsKey id
  let fresh := current.keys.filter fun id => !known.containsKey id
  have hStep : pollStep known enumeration = (gone.map (fun id => .ok (.detached id)) ++
      (added.map Prod.snd).map (fun device => .ok (.attached device)), current) := by
    simp only [pollStep, hList]
    rfl
  -- The map holds every device under its own id.
  have hEntries : ∀ entry ∈ added, entry.2.id = entry.1 ∧ entry.2 ∈ devices := by
    rintro ⟨id, device⟩ hEntry
    obtain ⟨other, hOther, hSame⟩ :=
      List.mem_map.mp (HashMap.mem_of_mem_collect (List.mem_filter.mp hEntry).1)
    cases hSame
    exact ⟨rfl, hOther⟩
  have hFresh : (added.map Prod.snd).map UsbDeviceInfo.id = fresh := by
    simp only [fresh, HashMap.keys, List.filter_map]
    rw [List.map_map]
    exact List.map_congr_left fun entry hEntry => (hEntries entry hEntry).1
  have hCurrent : ∀ id, id ∈ current.keys ↔ id ∈ snapshotIds devices := fun id => by
    simp [current, snapshotIds]
  refine ⟨gone, fresh, ?_, ?_, ?_, known.keys_nodup.filter _, current.keys_nodup.filter _, ?_, ?_, ?_⟩
  · rw [hStep, changes_append, changes_detached, changes_attached, hFresh]
  · simp [hStep]
  · intro device hAttached
    simp only [hStep, List.mem_append, List.mem_map, reduceCtorEq, and_false, exists_false, false_or,
      Except.ok.injEq, UsbEvent.attached.injEq, exists_eq_right] at hAttached
    obtain ⟨entry, hEntry, rfl⟩ := hAttached
    exact (hEntries entry hEntry).2
  · simp [gone, knownIds, ← hCurrent, HashMap.mem_keys]
  · simp [fresh, knownIds, ← hCurrent, HashMap.mem_keys]
  · ext id
    rw [knownIds, List.mem_toFinset, hStep]
    exact hCurrent id

/-- A round that fails emits its error and knows what was known. -/
theorem pollStep_error {known : Known DeviceId} {enumeration : Enumeration DeviceId} {e : Error}
    (hList : list enumeration.2 = .error e) : pollStep known enumeration = ([.error e], known) := by
  simp only [pollStep, hList]

/-- The log of one round is legal, and takes what was known to what is known after it. -/
theorem pollStep_legal (known : Known DeviceId) (enumeration : Enumeration DeviceId) :
    Presence.Legal (knownIds known) (changes (pollStep known enumeration).1) ∧
    Presence.replay (knownIds known) (changes (pollStep known enumeration).1) =
      knownIds (pollStep known enumeration).2 := by
  cases hList : list enumeration.2 with
  | error e =>
      rw [pollStep_error hList]
      exact ⟨trivial, rfl⟩
  | ok devices =>
      obtain ⟨gone, fresh, hLog, -, -, hGoneOnce, hFreshOnce, hGone, hFresh, hKnown⟩ :=
        @pollStep_snapshot _ _ known _ _ hList
      rw [hLog, hKnown]
      exact Presence.renew hGoneOnce hFreshOnce hGone hFresh

/-- The log of a whole run is legal, and leads to what is known at its end. -/
theorem pollFrom_legal (known : Known DeviceId) (enumerations : List (Enumeration DeviceId)) :
    Presence.Legal (knownIds known) (changes (pollFrom known enumerations)) ∧
    Presence.replay (knownIds known) (changes (pollFrom known enumerations)) =
      knownIds (pollKnown known enumerations) := by
  induction enumerations generalizing known with
  | nil => exact ⟨trivial, rfl⟩
  | cons enumeration rest ih =>
      obtain ⟨hLegal, hReplay⟩ := pollStep_legal known enumeration
      obtain ⟨hRest, hLast⟩ := ih (pollStep known enumeration).2
      rw [pollFrom, changes_append, Presence.legal_append, Presence.replay_append, hReplay]
      exact ⟨⟨hLegal, hRest⟩, hLast⟩

theorem pollFrom_append (known : Known DeviceId) (before : List (Enumeration DeviceId))
    (enumeration : Enumeration DeviceId) :
    pollFrom known (before ++ [enumeration]) =
      pollFrom known before ++ (pollStep (pollKnown known before) enumeration).1 := by
  induction before generalizing known with
  | nil => simp [pollFrom, pollKnown]
  | cons first rest ih =>
      rw [List.cons_append, pollFrom, ih, pollFrom, List.append_assoc]
      rfl

/-- The ids that the events emitted so far leave attached. -/
def replayed (events : List (Result (UsbEvent DeviceId))) : Finset DeviceId :=
  Presence.replay ∅ (changes events)

/-- Polling events replay the bus. After every enumeration of every run the log
is legal: what is attached was not, and what is detached was. A snapshot is
compared with what was attached before, and is what is attached then; a failed
enumeration emits its error and nothing else. -/
theorem polling_replays_bus (hasher : RandomState) (before : List (Enumeration DeviceId))
    (enumeration : Enumeration DeviceId) :
    ∃ events, pollUsb hasher (before ++ [enumeration]) = pollUsb hasher before ++ events ∧
      Presence.Legal ∅ (changes (pollUsb hasher before ++ events)) ∧
      match list enumeration.2 with
      | .ok devices =>
          replayed (pollUsb hasher before ++ events) = snapshotIds devices ∧
          (∀ e, .error e ∉ events) ∧ (∀ device, .ok (.attached device) ∈ events → device ∈ devices) ∧
          (∀ id, .arrived id ∈ changes events ↔
            id ∈ snapshotIds devices ∧ id ∉ replayed (pollUsb hasher before)) ∧
          ∀ id, .left id ∈ changes events ↔
            id ∈ replayed (pollUsb hasher before) ∧ id ∉ snapshotIds devices
      | .error e =>
          events = [.error e] ∧
          replayed (pollUsb hasher before ++ events) = replayed (pollUsb hasher before) := by
  let known := pollKnown (HashMap.new hasher) before
  have hStart : knownIds (HashMap.new hasher : Known DeviceId) = ∅ := by
    rw [knownIds, HashMap.keys_new]
    rfl
  obtain ⟨hBefore, hReplayed⟩ := pollFrom_legal (HashMap.new hasher) before
  rw [hStart] at hBefore hReplayed
  have hKnown : replayed (pollUsb hasher before) = knownIds known := hReplayed
  obtain ⟨hLegal, hAfter⟩ := pollStep_legal known enumeration
  rw [← hKnown] at hLegal hAfter
  have hEnd : replayed (pollUsb hasher before ++ (pollStep known enumeration).1) =
      knownIds (pollStep known enumeration).2 := by
    rw [replayed, changes_append, Presence.replay_append]
    exact hAfter
  refine ⟨(pollStep known enumeration).1, pollFrom_append _ before enumeration, ?_, ?_⟩
  · rw [changes_append, Presence.legal_append]
    exact ⟨hBefore, hLegal⟩
  · cases hList : list enumeration.2 with
    | error e =>
        have hStep := @pollStep_error _ _ known _ _ hList
        rw [hStep] at hEnd ⊢
        exact ⟨rfl, hEnd.trans hKnown.symm⟩
    | ok devices =>
        obtain ⟨gone, fresh, hLog, hErrors, hDevices, -, -, hGone, hFresh, hNow⟩ :=
          @pollStep_snapshot _ _ known _ _ hList
        refine ⟨hEnd.trans hNow, hErrors, hDevices, fun id => ?_, fun id => ?_⟩
        · rw [hLog, hKnown, ← hFresh]
          simp
        · rw [hLog, hKnown, ← hGone]
          simp

end Rsadb
