import Rsadb.Fake.Network
import Rsadb.Fake.Services
import Rsadb.Session.OneInFlight

/-! The emulated device keeps the rules of flow control. Together with it the
session makes only runs with a mannered device, whatever the schedule. -/
namespace Rsadb

/-- The device acknowledges what reached it, each message at most once, and sends
a payload only when its last one was acknowledged. -/
def Session.Obedient (trace : List Event) (s : Session) : Action → Prop
  | .arrive msg => ∀ ref ∈ s.get msg.arg1,
      (msg.command = .okay → (ledger ref trace).okays < (ledger ref trace).asked) ∧
      (msg.command = .write → (ledger ref trace).arrivals ≤ (ledger ref trace).acknowledged)
  | _ => True

namespace Fake.Network

variable {Shared Handler : Type} {services : Services Shared Handler} {calls : Action → Prop}
  {limit maxPayload : UInt32} {shared : Shared} {trace : List NetworkEvent} {n : Network Shared Handler}

/-- The number of streams of the session never falls. -/
theorem step_nextRef {n' : Network Shared Handler} {action : NetworkAction} {events : List NetworkEvent}
    (h : n.step services action = some (n', events)) : n.host.nextRef ≤ n'.host.nextRef := by
  rcases step_host h with ⟨hSame, -⟩ | ⟨own, more, hStep, -⟩
  · rw [hSame]
  · exact Session.nextRef_mono hStep

namespace Coherent

variable (h : n.Coherent services calls limit maxPayload shared trace)
include h

/-- What the device has taken was handed to the transport. -/
theorem handed_of_received {msg : Message} (hMem : msg ∈ receipts (deviceTrace trace)) :
    msg ∈ (hands (hostTrace trace)).map Prod.snd := by
  rw [h.up]
  exact List.mem_append_left _ hMem

/-- What was dispatched was sent by the device. -/
theorem sent_of_dispatched {msg : Message} (hMem : msg ∈ dispatches (hostTrace trace)) :
    msg ∈ sends (deviceTrace trace) := by
  rw [h.down]
  exact List.mem_append_left _ hMem

/-- The device has numbers enough. -/
theorem opens_le (hLimit : n.host.nextRef ≤ idLimit) : opens (deviceTrace trace) ≤ idLimit := by
  have hOpens := Device.opens_of_runs h.device
  have hHanded := Session.opens_of_handed h.host (Nat.lt_of_le_of_lt hLimit (by decide))
  rw [h.up, List.countP_append] at hHanded
  exact Nat.le_trans hOpens (Nat.le_trans (Nat.le_of_add_right_le hHanded) hLimit)

/-- An owner that goes on knows its peer from an acknowledgement of the device. -/
theorem acknowledged_peer {msg : Message} (hMem : msg ∈ (hands (hostTrace trace)).map Prod.snd)
    (hCommand : msg.command = .write ∨ msg.command = .okay) :
    ∃ okay ∈ sends (deviceTrace trace), okay.command = .okay ∧ okay.arg0 = msg.arg1 ∧ okay.arg1 = msg.arg0 := by
  obtain ⟨⟨source, msg⟩, hEntry, rfl⟩ := List.mem_map.mp hMem
  have hSaid : msg.command = .write ∨ msg.command = .okay := hCommand
  have hOther : msg.command ≠ .close ∧ msg.command ≠ .open := by
    rcases hSaid with hWrite | hOkay
    · simp [hWrite]
    · simp [hOkay]
  obtain ⟨ref, rfl, hHanded⟩ := Session.owner_of_handed h.host hEntry hOther.1
  obtain ⟨hLocal, hRemote⟩ := Session.named_of_handed h.host hHanded
  obtain ⟨okay, hDispatched, hOkay, hPeer⟩ := Session.dispatched_of_remote h.host (hRemote hOther.2)
  refine ⟨okay, h.sent_of_dispatched (mem_dispatches.mpr ⟨_, hDispatched⟩), hOkay, hPeer, ?_⟩
  rw [(Session.named_of_dispatched h.host hDispatched).1, hLocal]

/-- A stream of the host has one stream of the device. -/
theorem peer_unique (hLimit : n.host.nextRef ≤ idLimit) {id other hostId : UInt32}
    (hOpened : .opened id hostId ∈ deviceTrace trace) (hOther : .opened other hostId ∈ deviceTrace trace) :
    id = other := by
  have hOnce := Session.opens_once_of_handed h.host (Nat.lt_of_le_of_lt hLimit (by decide)) hostId
  have hOpens := Device.opened_of_runs h.device hostId
  rw [h.up, List.countP_append] at hOnce
  apply Device.opened_unique _ hOpened hOther
  omega

/-- A stream of the device has one stream of the host. -/
theorem host_unique (hLimit : n.host.nextRef ≤ idLimit) {id hostId other : UInt32}
    (hOpened : .opened id hostId ∈ deviceTrace trace) (hOther : .opened id other ∈ deviceTrace trace) :
    hostId = other := by
  have hNumbers := h.opens_le hLimit
  have hHost := (Device.host_iff h.device hNumbers).mpr hOpened
  rw [(Device.host_iff h.device hNumbers).mpr hOther] at hHost
  exact (Option.some.inj hHost).symm

end Coherent

/-- The device acknowledges under the number that it opened a stream with. -/
theorem opened_of_okay
    (hRun : Transition.Runs (step services) (Calls calls) (start limit maxPayload shared) trace n) :
    ∀ msg ∈ sends (deviceTrace trace), msg.command = .okay → .opened msg.arg0 msg.arg1 ∈ deviceTrace trace := by
  induction hRun with
  | start => simp [deviceTrace, sends]
  | @next trace n n' action events hRun hAllowed hTaken ih =>
      have hCoherent := coherent_of_runs hRun
      rcases step_device hTaken with ⟨-, hSame⟩ | ⟨taken, rest, more, hNext, hReaction, hMore⟩
      · rwa [hSame]
      · rw [hMore]
        intro msg hMem hOkay
        rw [sends_append, List.mem_append] at hMem
        rcases hMem with hEarlier | hNow
        · exact List.mem_append_left _ (ih msg hEarlier hOkay)
        · have hSent : .sent msg ∈ more := (List.mem_cons.mp (mem_sends.mp hNow)).resolve_left (by simp)
          rcases hReaction.sent hSent with ⟨-, hOpened⟩ | ⟨-, hWrite, hTo, hFrom⟩ | ⟨hClose, -⟩ | ⟨hOther, -⟩
          · exact List.mem_append_right _ (List.mem_cons_of_mem _ hOpened)
          · have hHanded : taken ∈ (hands (hostTrace trace)).map Prod.snd := by
              rw [hCoherent.up, hNext]
              simp
            obtain ⟨okay, hOkaySent, hOkayCommand, hPeer, hHost⟩ :=
              hCoherent.acknowledged_peer hHanded (Or.inl hWrite)
            have hOpened := ih okay hOkaySent hOkayCommand
            rw [hPeer, hHost, ← hTo, ← hFrom] at hOpened
            exact List.mem_append_left _ hOpened
          · rw [hOkay] at hClose
            cases hClose
          · rw [hOkay] at hOther
            simp at hOther

namespace Coherent

variable (h : n.Coherent services calls limit maxPayload shared trace)
  (hOkays : ∀ msg ∈ sends (deviceTrace trace), msg.command = .okay →
    .opened msg.arg0 msg.arg1 ∈ deviceTrace trace)
include h hOkays

/-- The host uses a number of the device only for the stream that it was opened for. -/
theorem opened_of_received {msg : Message} (hMem : msg ∈ (hands (hostTrace trace)).map Prod.snd)
    (hCommand : msg.command = .write ∨ msg.command = .okay) : .opened msg.arg1 msg.arg0 ∈ deviceTrace trace := by
  obtain ⟨okay, hSent, hOkay, hPeer, hHost⟩ := h.acknowledged_peer hMem hCommand
  rw [← hPeer, ← hHost]
  exact hOkays okay hSent hOkay

omit hOkays in
/-- A stream of the host is not acknowledged more often than it has asked. -/
theorem okays_le (hLimit : n.host.nextRef ≤ idLimit) {ref : Ref} (hBorn : ref < n.host.nextRef) :
    (sends (deviceTrace trace)).countP (Message.AcknowledgesTo (n.host.streams ref).localId) ≤
      (ledger ref (hostTrace trace)).asked := by
  have hAcknowledged := Device.acknowledges_of_runs h.device (n.host.streams ref).localId
  have hAsked := Session.asked_of_handed h.host (Nat.lt_of_le_of_lt hLimit (by decide)) hBorn
  rw [h.up, List.countP_append] at hAsked
  omega

/-- A stream of the host is sent at most one payload more than it has acknowledged. -/
theorem payloads_le (hLimit : n.host.nextRef ≤ idLimit) {ref : Ref} (hBorn : ref < n.host.nextRef) :
    (sends (deviceTrace trace)).countP (Message.CarriesTo (n.host.streams ref).localId) ≤
      (ledger ref (hostTrace trace)).acknowledged + 1 := by
  by_cases hAny : ∃ msg ∈ sends (deviceTrace trace), Message.CarriesTo (n.host.streams ref).localId msg
  · obtain ⟨first, hFirst, hWrite, hHost⟩ := hAny
    have hNumbers := h.opens_le hLimit
    have hSent : ∀ msg ∈ sends (deviceTrace trace), msg.command = .write →
        msg.arg0 ≠ 0 ∧ .opened msg.arg0 msg.arg1 ∈ deviceTrace trace := by
      intro msg hMem hCommand
      have hId := Device.id_of_payload h.device hNumbers (mem_sends.mp hMem) hCommand
      exact ⟨hId, Device.sent_to_host h.device hNumbers (mem_sends.mp hMem) (Or.inl hCommand) hId⟩
    obtain ⟨hId, hOpened⟩ := hSent first hFirst hWrite
    -- All payloads for the stream come from one stream of the device.
    have hWritten : (sends (deviceTrace trace)).countP (Message.CarriesTo (n.host.streams ref).localId) ≤
        (traffic first.arg0 (deviceTrace trace)).written.length := by
      rw [traffic_written, List.length_map, ← List.countP_eq_length_filter]
      apply List.countP_mono_left
      intro msg hMem hCarries
      obtain ⟨hCommand, hArg⟩ := of_decide_eq_true hCarries
      refine decide_eq_true ⟨hCommand, ?_⟩
      have hOther := (hSent msg hMem hCommand).2
      rw [hArg, ← hHost] at hOther
      exact h.peer_unique hLimit hOther hOpened
    have hPaced := ((Device.accounted_of_runs h.device hNumbers).1.sound hId).paced
    -- What it has been acknowledged comes from this stream of the host.
    have hOkay : (traffic first.arg0 (deviceTrace trace)).okays ≤
        (receipts (deviceTrace trace)).countP (Message.AcknowledgesFrom (n.host.streams ref).localId) := by
      rw [traffic_okays]
      apply List.countP_mono_left
      intro msg hMem hAcknowledges
      obtain ⟨hCommand, hArg⟩ := of_decide_eq_true hAcknowledges
      refine decide_eq_true ⟨hCommand, ?_⟩
      have hOther := h.opened_of_received hOkays (h.handed_of_received hMem) (Or.inr hCommand)
      rw [hArg] at hOther
      exact (h.host_unique hLimit hOther hOpened).trans hHost
    have hAcknowledged := Session.acknowledged_of_handed h.host (Nat.lt_of_le_of_lt hLimit (by decide)) hBorn
    rw [h.up, List.countP_append] at hAcknowledged
    omega
  · rw [List.countP_eq_zero.mpr]
    · exact Nat.zero_le _
    · intro msg hMem hCarries
      exact hAny ⟨msg, hMem, of_decide_eq_true hCarries⟩

end Coherent

/-- Whatever calls are made, the session's part of a run is one with a device that keeps the rules. -/
theorem obedient_of_runs
    (hRun : Transition.Runs (step services) (Calls calls) (start limit maxPayload shared) trace n)
    (hLimit : n.host.nextRef ≤ idLimit) :
    Transition.Runs Session.step (fun trace s action => s.Obedient trace action ∧ Called calls trace s action)
      (.start limit) (hostTrace trace) n.host := by
  induction hRun with
  | start => exact .start
  | @next trace n n' action events hRun hAllowed hTaken ih =>
      have hBefore := Nat.le_trans (step_nextRef hTaken) hLimit
      have hHost := ih hBefore
      have hCoherent := coherent_of_runs hRun
      cases action with
      | host action =>
          simp only [step] at hTaken
          split at hTaken
          · rename_i hOwn
            obtain ⟨⟨host, more⟩, hStep, hSame⟩ := Option.map_eq_some_iff.mp hTaken
            cases hSame
            rw [hostTrace_host]
            refine hHost.next ⟨?_, Or.inr hAllowed⟩ hStep
            cases action <;> trivial
          · cases hTaken
      | arrive =>
          simp only [step] at hTaken
          split at hTaken
          · rename_i msg rest hNext
            obtain ⟨⟨host, more⟩, hStep, hSame⟩ := Option.map_eq_some_iff.mp hTaken
            cases hSame
            rw [hostTrace_host]
            refine hHost.next ⟨?_, Or.inl (by simp [Action.message])⟩ hStep
            intro ref hTarget
            obtain ⟨hNamed, -⟩ := Session.named_of_runs hCoherent.host
            have hId : (n.host.streams ref).localId = msg.arg1 := hNamed.names _ _ hTarget
            have hBorn : ref < n.host.nextRef := hNamed.registered_born _ _ hTarget
            have hNames : ∀ msg, .dispatched msg (some ref) ∈ hostTrace trace →
                msg.arg1 = (n.host.streams ref).localId :=
              fun msg hMem => (Session.named_of_dispatched hCoherent.host hMem).1
            obtain ⟨hOkays, hArrivals⟩ := Session.ledger_of_dispatched hNames
            have hDown := hCoherent.down
            rw [hNext] at hDown
            constructor
            · intro hCommand
              have hAsked := hCoherent.okays_le hBefore hBorn
              rw [hDown, List.countP_append, List.countP_cons,
                if_pos (decide_eq_true ⟨hCommand, hId.symm⟩)] at hAsked
              omega
            · intro hCommand
              have hAcknowledged := hCoherent.payloads_le (opened_of_okay hRun) hBefore hBorn
              rw [hDown, List.countP_append, List.countP_cons,
                if_pos (decide_eq_true ⟨hCommand, hId.symm⟩)] at hAcknowledged
              omega
          · cases hTaken
      | serve =>
          simp only [step] at hTaken
          split at hTaken
          · obtain ⟨next, -, hSame⟩ := Option.map_eq_some_iff.mp hTaken
            cases hSame
            rwa [hostTrace_device]
          · cases hTaken

/-- Where no pending call is dropped the device is mannered. -/
theorem mannered_of_runs
    (hRun : Transition.Runs (step services) (Calls Patient) (start limit maxPayload shared) trace n)
    (hLimit : n.host.nextRef ≤ idLimit) :
    Transition.Runs Session.step Session.Mannered (.start limit) (hostTrace trace) n.host := by
  apply (obedient_of_runs hRun hLimit).mono
  rintro trace s action ⟨hObedient, hCalled⟩
  cases action with
  | arrive msg => exact hObedient
  | cancel ref => exact hCalled.resolve_left (by simp [Action.message])
  | _ => trivial

/-- The session and the emulated device keep flow control together, with any
services, whatever the calls and the schedule, as long as no pending call is
dropped. The session makes a run with a mannered device, at most one message of
each stream waits for an acknowledgement, and at most one payload is anywhere
between the device and the owner of a stream. -/
theorem network_flow_control
    (hRun : Transition.Runs (step services) (Calls Patient) (start limit maxPayload shared) trace n)
    (hLimit : n.host.nextRef ≤ idLimit) :
    Transition.Runs Session.step Session.Mannered (.start limit) (hostTrace trace) n.host ∧
    ∀ ref < n.host.nextRef, (ledger ref (hostTrace trace)).outstanding ≤ 1 ∧
      n.down.countP (Message.CarriesTo (n.host.streams ref).localId) + (n.host.streams ref).queue.length ≤ 1 := by
  have hMannered := mannered_of_runs hRun hLimit
  refine ⟨hMannered, fun ref hBorn => ?_⟩
  have hCoherent := coherent_of_runs hRun
  have hLimited := (Session.settled_of_mannered hMannered ref).1.limited
  obtain ⟨hOwed, hQueued⟩ := Session.consumed_of_runs hMannered ref
  have hHanded := (Session.handed_counts hMannered ref).2
  have hPayloads := hCoherent.payloads_le (opened_of_okay hRun) hLimit hBorn
  have hNames : ∀ msg, .dispatched msg (some ref) ∈ hostTrace trace → msg.arg1 = (n.host.streams ref).localId :=
    fun msg hMem => (Session.named_of_dispatched hMannered hMem).1
  have hArrivals := (Session.ledger_of_dispatched hNames).2
  rw [hCoherent.down, List.countP_append] at hPayloads
  constructor
  · rw [Ledger.outstanding]
    omega
  · omega

end Fake.Network

namespace Fake

open Network

/-- A command is run, up to its output on the way to the owner. -/
private def commandRun : List NetworkAction :=
  [.host (.openStream (ascii "exec:id")), .host (.advance 0), .host (.advance 0), .host .hand, .host .handed,
    .serve, .arrive, .host (.advance 0), .host (.advance 0), .arrive]

/-- The output is all that is there. -/
theorem network_flow_control_command : ∃ trace n,
    Transition.Runs (step services) (Calls Patient) (start 4096 4096 plainDevice) trace n ∧
    (n.host.streams 0).queue = [ascii "uid=2000(shell) gid=2000(shell)\n"] ∧
    n.down.countP (Message.CarriesTo (n.host.streams 0).localId) + (n.host.streams 0).queue.length ≤ 1 := by
  obtain ⟨trace, n, hRun, hSeen⟩ := Transition.Runs.of_execute (step services) (Calls Patient)
    (start 4096 4096 plainDevice) commandRun
    (fun result => (result.2.host.nextRef, (result.2.host.streams 0).queue))
    (1, [ascii "uid=2000(shell) gid=2000(shell)\n"]) (by decide +kernel)
  obtain ⟨hNext, hQueue⟩ := Prod.mk.inj hSeen
  have hLimit : n.host.nextRef ≤ idLimit := by rw [hNext]; decide
  have hBorn : 0 < n.host.nextRef := by rw [hNext]; decide
  exact ⟨trace, n, hRun, hQueue, ((network_flow_control hRun hLimit).2 0 hBorn).2⟩

end Fake
end Rsadb
