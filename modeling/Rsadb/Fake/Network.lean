import Rsadb.Fake.Peers

/-! The session and the emulated device, with the two pipes between them. A pipe
keeps the order of the messages. One that breaks is one from which nothing more
is taken, so that every beginning of a run is covered. -/
namespace Rsadb

/-- The message from the device that an action of the session takes. -/
def Action.message : Action → Option Message
  | .arrive msg => some msg
  | _ => none

namespace Fake

/-- No pending call is dropped. -/
def Patient : Action → Prop
  | .cancel _ => False
  | _ => True

instance : DecidablePred Patient := fun action => by
  cases action <;> unfold Patient <;> infer_instance

/-- Both ends of a connection, and the messages on their way up to the device
and down to the host. -/
structure Network (Shared Handler : Type) where
  host : Session
  device : Device Shared Handler
  up : List Message
  down : List Message

/-- The steps of the parts. `arrive` is the next message from the device that
the session's reader takes, `serve` the next one from the host that the device takes. -/
inductive NetworkAction where
  | host (action : Action)
  | arrive
  | serve
  deriving DecidableEq, Repr

inductive NetworkEvent where
  | host (event : Event)
  | device (event : DeviceEvent)
  deriving DecidableEq, Repr

def NetworkEvent.ofHost : NetworkEvent → Option Event
  | .host event => some event
  | .device _ => none

def NetworkEvent.ofDevice : NetworkEvent → Option DeviceEvent
  | .host _ => none
  | .device event => some event

/-- What happened in the session. -/
def hostTrace (trace : List NetworkEvent) : List Event := trace.filterMap NetworkEvent.ofHost

/-- What happened on the device. -/
def deviceTrace (trace : List NetworkEvent) : List DeviceEvent := trace.filterMap NetworkEvent.ofDevice

theorem hostTrace_host (trace : List NetworkEvent) (events : List Event) :
    hostTrace (trace ++ events.map .host) = hostTrace trace ++ events := by
  rw [hostTrace, List.filterMap_append, ← hostTrace, List.filterMap_map]
  simp [Function.comp_def, NetworkEvent.ofHost]

theorem hostTrace_device (trace : List NetworkEvent) (events : List DeviceEvent) :
    hostTrace (trace ++ events.map .device) = hostTrace trace := by
  rw [hostTrace, List.filterMap_append, ← hostTrace, List.filterMap_map]
  simp [Function.comp_def, NetworkEvent.ofHost]

theorem deviceTrace_host (trace : List NetworkEvent) (events : List Event) :
    deviceTrace (trace ++ events.map .host) = deviceTrace trace := by
  rw [deviceTrace, List.filterMap_append, ← deviceTrace, List.filterMap_map]
  simp [Function.comp_def, NetworkEvent.ofDevice]

theorem deviceTrace_device (trace : List NetworkEvent) (events : List DeviceEvent) :
    deviceTrace (trace ++ events.map .device) = deviceTrace trace ++ events := by
  rw [deviceTrace, List.filterMap_append, ← deviceTrace, List.filterMap_map]
  simp [Function.comp_def, NetworkEvent.ofDevice]

namespace Network

variable {Shared Handler : Type}

/-- After the handshake, with nothing on its way. -/
def start (limit maxPayload : UInt32) (shared : Shared) : Network Shared Handler :=
  ⟨.start limit, .start maxPayload shared, [], []⟩

/-- A step of the session. What it hands to the transport is on its way up. -/
def hostStep (n : Network Shared Handler) (action : Action) :
    Option (Network Shared Handler × List NetworkEvent) :=
  (n.host.step action).map fun next =>
    ({ n with host := next.1, up := n.up ++ (hands next.2).map Prod.snd }, next.2.map .host)

def step (services : Services Shared Handler) (n : Network Shared Handler) :
    NetworkAction → Option (Network Shared Handler × List NetworkEvent)
  | .host action => if action.message = none then n.hostStep action else none
  | .arrive =>
      match n.down with
      | msg :: rest => { n with down := rest }.hostStep (.arrive msg)
      | [] => none
  | .serve =>
      match n.up with
      | msg :: rest =>
          (n.device.step services msg).map fun next =>
            ({ n with device := next.1, up := rest, down := n.down ++ sends next.2 }, next.2.map .device)
      | [] => none

/-- The runs in which the owners of the streams make only these calls. -/
def Calls (calls : Action → Prop) (_ : List NetworkEvent) (_ : Network Shared Handler) : NetworkAction → Prop
  | .host action => calls action
  | _ => True

instance (calls : Action → Prop) [DecidablePred calls] (trace : List NetworkEvent) (n : Network Shared Handler)
    (action : NetworkAction) : Decidable (Calls calls trace n action) := by
  cases action <;> unfold Calls <;> infer_instance

end Network

/-- The same, of a session alone. -/
def Called (calls : Action → Prop) (_ : List Event) (_ : Session) (action : Action) : Prop :=
  action.message ≠ none ∨ calls action

end Fake

namespace Session

/-- A step takes the message that arrives, and no other. -/
theorem step_dispatches {s s' : Session} {action : Action} {events : List Event}
    (h : s.step action = some (s', events)) :
    dispatches events = action.message.toList := by
  have hEvents : ∀ ref p, dispatches (Session.events ref p) = [] := by
    intro ref p
    have hReports : dispatches (p.reports.map (Event.owner ref)) = [] := by
      rw [dispatches, List.filterMap_eq_nil_iff]
      intro event hMem
      obtain ⟨report, -, rfl⟩ := List.mem_map.mp hMem
      rfl
    unfold Session.events
    rw [dispatches_append, hReports, List.append_nil]
    cases p.effect <;> rfl
  cases step_cases h with
  | called | advanced => exact hEvents _ _
  | @arrived msg =>
      obtain ⟨-, -, -, -, -, hMore, -⟩ := (route_routed s msg).frame
      have hNone : dispatches (s.route msg).2 = [] := by
        rw [dispatches, List.filterMap_eq_nil_iff]
        intro event hMem
        obtain ⟨refusal, rfl⟩ := hMore event hMem
        rfl
      change msg :: dispatches (s.route msg).2 = [msg]
      rw [hNone]
  | _ => rfl

end Session

namespace Fake

/-- A device takes a message in each step. -/
theorem Reaction.receipts_eq {Shared Handler : Type} {services : Services Shared Handler}
    {device device' : Device Shared Handler} {msg : Message} {events : List DeviceEvent}
    (h : Reaction services device msg device' events) : receipts events = [] := by
  cases h with
  | accepted hCommand hPumped | written hCommand hStream hPumped | acknowledged hCommand hStream hPumped =>
      cases hPumped <;> rfl
  | refused | closed | missed => rfl

namespace Network

variable {Shared Handler : Type} {services : Services Shared Handler} {calls : Action → Prop}
  {limit maxPayload : UInt32} {shared : Shared}

/-- A step of the network is one of the session, or leaves the session alone. -/
theorem step_host {n n' : Network Shared Handler} {action : NetworkAction} {events : List NetworkEvent}
    (h : n.step services action = some (n', events)) :
    (n'.host = n.host ∧ ∀ trace, hostTrace (trace ++ events) = hostTrace trace) ∨
    ∃ own more, n.host.step own = some (n'.host, more) ∧
      ∀ trace, hostTrace (trace ++ events) = hostTrace trace ++ more := by
  have hHost : ∀ {n n' : Network Shared Handler} {own events}, n.hostStep own = some (n', events) →
      ∃ more, n.host.step own = some (n'.host, more) ∧
        ∀ trace, hostTrace (trace ++ events) = hostTrace trace ++ more := by
    intro n n' own events hStep
    obtain ⟨⟨host, more⟩, hTaken, hSame⟩ := Option.map_eq_some_iff.mp hStep
    cases hSame
    exact ⟨more, hTaken, fun trace => hostTrace_host trace more⟩
  cases action with
  | host own =>
      simp only [step] at h
      split at h
      · exact Or.inr ⟨own, hHost h⟩
      · cases h
  | arrive =>
      simp only [step] at h
      split at h
      · rename_i rest _
        exact Or.inr ⟨_, @hHost { n with down := rest } _ _ _ h⟩
      · cases h
  | serve =>
      simp only [step] at h
      split at h
      · obtain ⟨⟨device, more⟩, -, hSame⟩ := Option.map_eq_some_iff.mp h
        cases hSame
        exact Or.inl ⟨rfl, fun trace => hostTrace_device trace more⟩
      · cases h

/-- A step of the network is one of the device, or leaves the device alone. -/
theorem step_device {n n' : Network Shared Handler} {action : NetworkAction} {events : List NetworkEvent}
    (h : n.step services action = some (n', events)) :
    (n'.device = n.device ∧ ∀ trace, deviceTrace (trace ++ events) = deviceTrace trace) ∨
    ∃ msg rest more, n.up = msg :: rest ∧ Reaction services n.device msg n'.device more ∧
      ∀ trace, deviceTrace (trace ++ events) = deviceTrace trace ++ .received msg :: more := by
  have hHost : ∀ {n n' : Network Shared Handler} {own events}, n.hostStep own = some (n', events) →
      n'.device = n.device ∧ ∀ trace, deviceTrace (trace ++ events) = deviceTrace trace := by
    intro n n' own events hStep
    obtain ⟨⟨host, more⟩, -, hSame⟩ := Option.map_eq_some_iff.mp hStep
    cases hSame
    exact ⟨rfl, fun trace => deviceTrace_host trace more⟩
  cases action with
  | host own =>
      simp only [step] at h
      split at h
      · exact Or.inl (hHost h)
      · cases h
  | arrive =>
      simp only [step] at h
      split at h
      · rename_i rest _
        exact Or.inl (@hHost { n with down := rest } _ _ _ h)
      · cases h
  | serve =>
      simp only [step] at h
      split at h
      · rename_i msg rest hNext
        obtain ⟨⟨device, more⟩, hTaken, hSame⟩ := Option.map_eq_some_iff.mp h
        cases hSame
        obtain ⟨reaction, rfl, hReaction⟩ := Device.step_cases hTaken
        exact Or.inr ⟨msg, rest, reaction, hNext, hReaction, fun trace => deviceTrace_device trace _⟩
      · cases h

/-- Each end has run by itself, and each pipe holds what went in and has not come out. -/
structure Coherent (services : Services Shared Handler) (calls : Action → Prop) (limit maxPayload : UInt32)
    (shared : Shared) (trace : List NetworkEvent) (n : Network Shared Handler) : Prop where
  host : Transition.Runs Session.step (Called calls) (.start limit) (hostTrace trace) n.host
  device : Transition.Runs (Device.step services) (fun _ _ _ => True) (.start maxPayload shared)
    (deviceTrace trace) n.device
  up : (hands (hostTrace trace)).map Prod.snd = receipts (deviceTrace trace) ++ n.up
  down : sends (deviceTrace trace) = dispatches (hostTrace trace) ++ n.down

theorem coherent_of_runs {trace : List NetworkEvent} {n : Network Shared Handler}
    (hRun : Transition.Runs (step services) (Calls calls) (start limit maxPayload shared) trace n) :
    n.Coherent services calls limit maxPayload shared trace := by
  induction hRun with
  | start => exact ⟨.start, .start, rfl, rfl⟩
  | @next trace n n' action events hRun hAllowed hTaken ih =>
      obtain ⟨hHost, hDevice, hUp, hDown⟩ := ih
      cases action with
      | host action =>
          simp only [step] at hTaken
          split at hTaken
          · rename_i hOwn
            obtain ⟨⟨host, more⟩, hStep, hSame⟩ := Option.map_eq_some_iff.mp hTaken
            cases hSame
            have hNone := Session.step_dispatches hStep
            rw [hOwn] at hNone
            constructor
            · rw [hostTrace_host]
              exact hHost.next (Or.inr hAllowed) hStep
            · rwa [deviceTrace_host]
            · rw [hostTrace_host, deviceTrace_host, hands_append, List.map_append, hUp, List.append_assoc]
            · rw [hostTrace_host, deviceTrace_host, dispatches_append, hNone, hDown]
              simp
          · cases hTaken
      | arrive =>
          simp only [step] at hTaken
          split at hTaken
          · rename_i msg rest hNext
            obtain ⟨⟨host, more⟩, hStep, hSame⟩ := Option.map_eq_some_iff.mp hTaken
            cases hSame
            constructor
            · rw [hostTrace_host]
              exact hHost.next (Or.inl (by simp [Action.message])) hStep
            · rwa [deviceTrace_host]
            · rw [hostTrace_host, deviceTrace_host, hands_append, List.map_append, hUp, List.append_assoc]
            · rw [hostTrace_host, deviceTrace_host, dispatches_append, Session.step_dispatches hStep, hDown, hNext]
              simp [Action.message]
          · cases hTaken
      | serve =>
          simp only [step] at hTaken
          split at hTaken
          · rename_i msg rest hNext
            obtain ⟨⟨device, more⟩, hStep, hSame⟩ := Option.map_eq_some_iff.mp hTaken
            cases hSame
            obtain ⟨reaction, rfl, hReaction⟩ := Device.step_cases hStep
            have hReceived : receipts (.received msg :: reaction) = [msg] := by
              change msg :: receipts reaction = [msg]
              rw [hReaction.receipts_eq]
            constructor
            · rwa [hostTrace_device]
            · rw [deviceTrace_device]
              exact hDevice.next trivial hStep
            · rw [hostTrace_device, deviceTrace_device, receipts_append, hReceived, hUp, hNext]
              simp
            · rw [hostTrace_device, deviceTrace_device, sends_append, hDown, List.append_assoc]
          · cases hTaken

end Network
end Fake
end Rsadb
