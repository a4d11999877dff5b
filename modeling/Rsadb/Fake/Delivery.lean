import Rsadb.Fake.Closing
import Rsadb.Fake.Obedience
import Rsadb.Session.Truncation

/-! What goes through a stream from one end to the other. The owner of a stream
gets what the service on the device has replied, in order and, when it has read
to the end, whole. The service is given what the owner has sent. -/
namespace Rsadb.Fake.Network

variable {Shared Handler : Type} {services : Services Shared Handler} {calls : Action → Prop}
  {limit maxPayload : UInt32} {shared : Shared} {trace : List NetworkEvent} {n : Network Shared Handler}

/-- A stream that is known to the device by a number, and by its local id to the host. -/
structure Delivers (ref : Ref) (id : UInt32) (trace : List NetworkEvent) : Prop where
  upwards : (traffic id (deviceTrace trace)).given <+:
    ((ledger ref (hostTrace trace)).posted.filter fun msg => msg.command = .write).map Message.payload
  downwards : NoRecvError ref (hostTrace trace) →
    received ref (hostTrace trace) <+: (traffic id (deviceTrace trace)).written
  sent : (traffic id (deviceTrace trace)).written.flatten <+: (traffic id (deviceTrace trace)).replies
  whole : .owner ref .closed ∉ hostTrace trace → (∀ refs, .drained refs ∈ hostTrace trace → ref ∉ refs) →
    ∀ bytes, Rsadb.drain (Channel.ofAnswers (answers ref (hostTrace trace))) = some (.ok bytes) →
      bytes = (traffic id (deviceTrace trace)).replies ∧ (traffic id (deviceTrace trace)).closed = true

/-- The payloads that have come for a stream are those that the host has sent to its number. -/
theorem addressed_of_runs
    (hRun : Transition.Runs (step services) (Calls calls) (start limit maxPayload shared) trace n)
    (hLimit : n.host.nextRef ≤ idLimit) (id : UInt32) :
    (traffic id (deviceTrace trace)).addressed = carried id (receipts (deviceTrace trace)) := by
  induction hRun with
  | start => rfl
  | @next trace n n' action events hRun hAllowed hTaken ih =>
      have hBefore := Nat.le_trans (step_nextRef hTaken) hLimit
      have hCoherent := coherent_of_runs hRun
      rcases step_device hTaken with ⟨-, hSame⟩ | ⟨msg, rest, more, hNext, hReaction, hMore⟩
      · rw [hSame]
        exact ih hBefore
      · rw [hMore, traffic_append, receipts_append, carried_append, ← ih hBefore]
        by_cases hAny : ∃ hostId, .opened id hostId ∈ more
        · -- Nothing has come for a number that is given only now.
          obtain ⟨hostId, hOpened⟩ := hAny
          obtain ⟨rfl, hCommand, hAddressed⟩ := hReaction.opened hOpened
          have hReceived : receipts (.received msg :: more) = [msg] := by
            change msg :: receipts more = [msg]
            rw [hReaction.receipts_eq]
          rw [List.foldl_cons, (hAddressed _).2, hReceived, ih hBefore, carried_singleton, if_neg, List.append_nil,
            carried_eq_nil]
          · intro earlier hEarlier hCarries
            have hThere := hCoherent.opened_of_received (opened_of_okay hRun) (hCoherent.handed_of_received hEarlier)
              (Or.inl hCarries.1)
            rw [hCarries.2] at hThere
            exact Device.unopened_next hCoherent.device (hCoherent.opens_le hBefore) _ hThere
          · rintro ⟨hWrite, -⟩
            rw [hCommand] at hWrite
            cases hWrite
        · apply Traffic.foldl_addressed
          intro hostId hMem
          exact hAny ⟨hostId, (List.mem_cons.mp hMem).resolve_left (by simp)⟩

namespace Coherent

/-- Nothing comes for a stream before it is registered. -/
theorem fresh (h : n.Coherent services calls limit maxPayload shared trace) (hLimit : n.host.nextRef ≤ idLimit) :
    n.host.Fresh (hostTrace trace) := by
  intro ref service hInserting
  apply carried_eq_nil
  rintro msg hMem ⟨hWrite, hTo⟩
  have hNumbers := h.opens_le hLimit
  have hSmall := Nat.lt_of_le_of_lt hLimit (by decide : idLimit < Session.openLimit)
  have hSent := mem_sends.mp (h.sent_of_dispatched hMem)
  have hOpened := Device.sent_to_host h.device hNumbers hSent (Or.inl hWrite)
    (Device.id_of_payload h.device hNumbers hSent hWrite)
  -- The device has opened the stream, so that its owner has asked for that.
  have hAsked := Nat.le_trans (List.countP_pos_iff.mpr ⟨_, hOpened, decide_eq_true ⟨_, rfl⟩⟩)
    (Device.opened_of_runs h.device msg.arg1)
  obtain ⟨request, hReceived, hOpens⟩ := List.countP_pos_iff.mp hAsked
  obtain ⟨hCommand, hFrom⟩ := of_decide_eq_true hOpens
  have hBorn : ref < n.host.nextRef := (Session.named_of_runs h.host).1.born (by rw [hInserting]; simp)
  have hHanded := Session.handed_of_named h.host hSmall hBorn (h.handed_of_received hReceived) (by simp [hCommand])
    (hFrom.trans hTo)
  have hPosted := (Session.handed_of_posted h.host ref).subset hHanded
  have hSaid := Session.said_of_runs h.host ref
  rw [hInserting] at hSaid
  rw [show (ledger ref (hostTrace trace)).posted = [] from hSaid] at hPosted
  cases hPosted

/-- The device sends nothing to a stream after its end. -/
theorem endsLast (h : n.Coherent services calls limit maxPayload shared trace) (hLimit : n.host.nextRef ≤ idLimit)
    (hostId : UInt32) : EndsLast hostId (sends (deviceTrace trace)) := by
  have hSmall := Nat.lt_of_le_of_lt hLimit (by decide : idLimit < Session.openLimit)
  apply Device.endsLast_of_runs h.device (h.opens_le hLimit)
  have hOnce := Session.opens_once_of_handed h.host hSmall hostId
  rw [h.up, List.countP_append] at hOnce
  omega

end Coherent

/-- In the session's part of a run nothing comes for a stream before it is registered. -/
theorem fresh_of_runs
    (hRun : Transition.Runs (step services) (Calls calls) (start limit maxPayload shared) trace n)
    (hLimit : n.host.nextRef ≤ idLimit) :
    Transition.Runs Session.step (fun trace s _ => s.Fresh trace) (.start limit) (hostTrace trace) n.host := by
  induction hRun with
  | start => exact .start
  | @next trace n n' action events hRun hAllowed hTaken ih =>
      have hBefore := Nat.le_trans (step_nextRef hTaken) hLimit
      rcases step_host hTaken with ⟨hHost, hSame⟩ | ⟨own, more, hStep, hMore⟩
      · rw [hHost, hSame]
        exact ih hBefore
      · rw [hMore]
        exact (ih hBefore).next ((coherent_of_runs hRun).fresh hBefore) hStep

namespace Coherent

variable (h : n.Coherent services calls limit maxPayload shared trace)
  (hOkays : ∀ msg ∈ sends (deviceTrace trace), msg.command = .okay →
    .opened msg.arg0 msg.arg1 ∈ deviceTrace trace) (hLimit : n.host.nextRef ≤ idLimit)
  {ref : Ref} {id : UInt32} (hRemote : (n.host.streams ref).remote = some id)
include h hOkays hRemote

/-- The peer of a stream is the stream that the device has opened for it. -/
theorem opened_of_remote : .opened id (n.host.streams ref).localId ∈ deviceTrace trace := by
  obtain ⟨okay, hDispatched, hOkay, hPeer⟩ := Session.dispatched_of_remote h.host hRemote
  have hOpened := hOkays okay (h.sent_of_dispatched (mem_dispatches.mpr ⟨_, hDispatched⟩)) hOkay
  rwa [hPeer, (Session.named_of_dispatched h.host hDispatched).1] at hOpened

omit hOkays in
/-- A stream that has a peer was born. -/
theorem born_of_remote : ref < n.host.nextRef := by
  obtain ⟨okay, hDispatched, -⟩ := Session.dispatched_of_remote h.host hRemote
  exact (Session.named_of_runs h.host).1.born (Session.named_of_dispatched h.host hDispatched).2

include hLimit

/-- What the device sends to a stream of the host it sends under the number of its peer. -/
theorem carried_sends : carried (n.host.streams ref).localId (sends (deviceTrace trace)) =
    (traffic id (deviceTrace trace)).written := by
  have hNumbers := h.opens_le hLimit
  have hPeer := h.opened_of_remote hOkays hRemote
  rw [traffic_written, carried]
  congr 1
  apply List.filter_congr
  intro msg hMem
  rw [decide_eq_decide]
  apply and_congr_right
  intro hWrite
  have hOpened := Device.sent_to_host h.device hNumbers (mem_sends.mp hMem) (Or.inl hWrite)
    (Device.id_of_payload h.device hNumbers (mem_sends.mp hMem) hWrite)
  constructor
  · intro hTo
    rw [hTo] at hOpened
    exact h.peer_unique hLimit hOpened hPeer
  · intro hFrom
    rw [hFrom] at hOpened
    exact h.host_unique hLimit hOpened hPeer

/-- What the host sends to a number it sends in the name of the stream that has it for its peer. -/
theorem carried_handed : carried id ((hands (hostTrace trace)).map Prod.snd) =
    ((ledger ref (hostTrace trace)).handed.filter fun msg => msg.command = .write).map Message.payload := by
  have hSmall := Nat.lt_of_le_of_lt hLimit (by decide : idLimit < Session.openLimit)
  have hPeer := h.opened_of_remote hOkays hRemote
  have hNamed : ∀ msg ∈ (hands (hostTrace trace)).map Prod.snd, msg.command = .write →
      (msg.arg1 = id ↔ msg.arg0 = (n.host.streams ref).localId) := by
    intro msg hMem hWrite
    have hOpened := h.opened_of_received hOkays hMem (Or.inl hWrite)
    constructor
    · intro hTo
      rw [hTo] at hOpened
      exact h.host_unique hLimit hOpened hPeer
    · intro hFrom
      rw [hFrom] at hOpened
      exact h.peer_unique hLimit hOpened hPeer
  have hHere : ((hands (hostTrace trace)).map Prod.snd).filter (fun msg =>
      msg.command = .write ∧ msg.arg0 = (n.host.streams ref).localId) =
      (ledger ref (hostTrace trace)).handed.filter (fun msg => msg.command = .write) := by
    rw [Session.filter_handed h.host hSmall (h.born_of_remote hRemote)]
    · apply List.filter_congr
      intro msg hMem
      have hFrom := (Session.named_of_handed h.host hMem).1
      simp [hFrom]
    · intro msg hHolds
      obtain ⟨hWrite, hFrom⟩ := of_decide_eq_true hHolds
      exact ⟨by simp [hWrite], hFrom⟩
  rw [carried, ← hHere]
  congr 1
  apply List.filter_congr
  intro msg hMem
  rw [decide_eq_decide]
  exact and_congr_right (hNamed msg hMem)

/-- The end of a stream is that of its peer. -/
theorem closed_of_end {msg : Message} (hMem : msg ∈ sends (deviceTrace trace))
    (hCloses : msg.ClosesTo (n.host.streams ref).localId) : (traffic id (deviceTrace trace)).closed = true := by
  obtain ⟨hClose, hTo⟩ := hCloses
  have hNumbers := h.opens_le hLimit
  have hSmall := Nat.lt_of_le_of_lt hLimit (by decide : idLimit < Session.openLimit)
  have hPeer := h.opened_of_remote hOkays hRemote
  apply (traffic_closed _ _).mpr
  refine ⟨msg, hMem, hClose, ?_⟩
  have hId : msg.arg0 ≠ 0 := by
    intro hZero
    have hOnce := Session.opens_once_of_handed h.host hSmall (n.host.streams ref).localId
    have hAnswers := Device.answers_of_runs h.device hNumbers (n.host.streams ref).localId
    have hRefused : 0 < (sends (deviceTrace trace)).countP (RefusesTo (n.host.streams ref).localId) :=
      List.countP_pos_iff.mpr ⟨msg, hMem, decide_eq_true ⟨hClose, hZero, hTo⟩⟩
    have hOpened : 0 < (deviceTrace trace).countP (OpenedFor (n.host.streams ref).localId) :=
      List.countP_pos_iff.mpr ⟨_, hPeer, decide_eq_true ⟨_, rfl⟩⟩
    rw [h.up, List.countP_append] at hOnce
    omega
  have hOpened := Device.sent_to_host h.device hNumbers (mem_sends.mp hMem) (Or.inr hClose) hId
  rw [hTo] at hOpened
  exact h.peer_unique hLimit hOpened hPeer

end Coherent

section

variable (hRun : Transition.Runs (step services) (Calls calls) (start limit maxPayload shared) trace n)
  (hLimit : n.host.nextRef ≤ idLimit) {ref : Ref} {id : UInt32} (hRemote : (n.host.streams ref).remote = some id)
include hRun hLimit hRemote

/-- The service is given, in order, what the owner has sent. -/
theorem upwards_of_runs : (traffic id (deviceTrace trace)).given <+:
    ((ledger ref (hostTrace trace)).posted.filter fun msg => msg.command = .write).map Message.payload := by
  have hCoherent := coherent_of_runs hRun
  have hSound := (Device.accounted_of_runs hCoherent.device (hCoherent.opens_le hLimit)).1.sound
    (StreamState.remote_ne_zero hRemote)
  have hHanded := hCoherent.carried_handed (opened_of_okay hRun) hLimit hRemote
  rw [hCoherent.up, carried_append] at hHanded
  have hTaken : carried id (receipts (deviceTrace trace)) <+:
      ((ledger ref (hostTrace trace)).handed.filter fun msg => msg.command = .write).map Message.payload :=
    ⟨_, hHanded⟩
  have hPosted := Session.handed_of_posted hCoherent.host ref
  apply hSound.fed.trans
  rw [addressed_of_runs hRun hLimit id]
  exact hTaken.trans ((hPosted.filter _).map _)

/-- The owner receives, payload by payload, what the device sends. -/
theorem downwards_of_runs (hFailed : NoRecvError ref (hostTrace trace)) :
    received ref (hostTrace trace) <+: (traffic id (deviceTrace trace)).written := by
  have hCoherent := coherent_of_runs hRun
  have hSmall := Nat.lt_of_le_of_lt hLimit (by decide : idLimit < Session.openLimit)
  have hFresh := fresh_of_runs hRun hLimit
  have hTraced := Session.traced_of_runs hFresh hSmall hFailed (False.elim : False → _)
  have hTaken := (Session.flow_of_run (hFresh.mono fun _ _ _ _ => trivial) hSmall hFailed).taken
  have hSent : carried (n.host.streams ref).localId (dispatches (hostTrace trace)) <+:
      (traffic id (deviceTrace trace)).written := by
    rw [← hCoherent.carried_sends (opened_of_okay hRun) hLimit hRemote, hCoherent.down, carried_append]
    exact List.prefix_append _ _
  exact (hTaken.trans hTraced.front).trans hSent

/-- The device sends, in order, what the service replies. -/
theorem sent_of_runs : (traffic id (deviceTrace trace)).written.flatten <+: (traffic id (deviceTrace trace)).replies := by
  have hCoherent := coherent_of_runs hRun
  exact ((Device.accounted_of_runs hCoherent.device (hCoherent.opens_le hLimit)).1.sound
    (StreamState.remote_ne_zero hRemote)).order

/-- An owner that reads to an end which only the device puts to the stream has
all that the service replies. -/
theorem whole_of_runs (hUnclosed : .owner ref .closed ∉ hostTrace trace)
    (hKept : ∀ refs, .drained refs ∈ hostTrace trace → ref ∉ refs) {chunks : List Bytes}
    (hEnds : ChannelReader.Ends (Channel.ofAnswers (answers ref (hostTrace trace))) chunks) :
    chunks.flatten = (traffic id (deviceTrace trace)).replies ∧ (traffic id (deviceTrace trace)).closed = true := by
  have hCoherent := coherent_of_runs hRun
  have hOkays := opened_of_okay hRun
  have hSmall := Nat.lt_of_le_of_lt hLimit (by decide : idLimit < Session.openLimit)
  have hFresh := fresh_of_runs hRun hLimit
  have hSound := (Device.accounted_of_runs hCoherent.device (hCoherent.opens_le hLimit)).1.sound
    (StreamState.remote_ne_zero hRemote)
  have hWritten := hCoherent.carried_sends hOkays hLimit hRemote
  obtain ⟨rfl, hFailed, hEnd⟩ := Session.answered_of_ends hCoherent.host hUnclosed hEnds
  have hLast := hCoherent.endsLast hLimit (n.host.streams ref).localId
  rw [hCoherent.down] at hLast
  obtain ⟨hEarlier, -, hAfter⟩ := List.pairwise_append.mp hLast
  have hTraced := Session.traced_of_runs hFresh hSmall hFailed fun _ : True => ⟨hUnclosed, hKept, hEarlier⟩
  obtain ⟨hAll, hShut, -⟩ :=
    (Session.flow_of_run (hFresh.mono fun _ _ _ _ => trivial) hSmall hFailed).ended hEnd
  rw [Inflow.Traced, hShut] at hTraced
  obtain ⟨hPayloads, close, hClose, hCloses⟩ := hTraced.2 trivial
  have hClosed := hCoherent.closed_of_end hOkays hLimit hRemote (hCoherent.sent_of_dispatched hClose) hCloses
  have hNothing : carried (n.host.streams ref).localId n.down = [] :=
    carried_eq_nil fun msg hMem => hAfter close hClose msg hMem hCloses
  rw [hCoherent.down, carried_append, hNothing, List.append_nil] at hWritten
  refine ⟨?_, hClosed⟩
  rw [hAll, hPayloads, hWritten, hSound.whole hClosed]

/-- In every run a stream delivers what is sent through it, whatever the calls
and the schedule. The service is given, in order, what the owner has sent. The
owner receives the payloads that the device sends, in order, unless a `recv` has
failed; they carry what the service replies, and all of it when the owner reads
the stream to an end that neither it nor a `close_all` has put to it. -/
theorem network_delivers : Delivers ref id trace := by
  constructor
  · exact upwards_of_runs hRun hLimit hRemote
  · exact downwards_of_runs hRun hLimit hRemote
  · exact sent_of_runs hRun hLimit hRemote
  · intro hUnclosed hKept bytes hDrain
    obtain ⟨chunks, hEnds, rfl⟩ := (drain_ok_iff _ _).mp hDrain
    exact whole_of_runs hRun hLimit hRemote hUnclosed hKept hEnds

end

end Rsadb.Fake.Network

namespace Rsadb.Fake

open Network

/-- A command is run, and its output read to the end. -/
def outputRun : List NetworkAction :=
  [.host (.openStream (ascii "exec:id")), .host (.advance 0), .host (.advance 0), .host .hand, .host .handed,
    .serve, .arrive, .host (.advance 0), .host (.advance 0), .arrive, .host (.call 0 .recv), .host (.advance 0),
    .host (.advance 0), .host .hand, .host .handed, .serve, .arrive, .host (.call 0 .recv)]

/-- What happens in the session meanwhile. -/
def outputTrace (output : Bytes) : List Event :=
  [.registered 0 1, .posted (some 0) ⟨.open, 1, 0, ascii "exec:id" ++ [0]⟩,
    .handed (some 0) ⟨.open, 1, 0, ascii "exec:id" ++ [0]⟩, .dispatched (.empty .okay 100 1) (some 0),
    .owner 0 (.returned .opened), .dispatched ⟨.write, 100, 1, output⟩ (some 0), .owner 0 (.took output),
    .posted (some 0) (.empty .okay 1 100), .owner 0 (.returned (.received (some output))),
    .handed (some 0) (.empty .okay 1 100), .dispatched (.empty .close 100 1) (some 0),
    .owner 0 (.returned (.received none))]

/-- The command can be run so. -/
theorem output_run : ∃ trace n,
    Transition.Runs (step services) (Calls fun _ => True) (start 4096 4096 plainDevice) trace n ∧
    n.host.nextRef ≤ idLimit ∧ (n.host.streams 0).localId = 1 ∧ (n.host.streams 0).remote = some 100 ∧
    hostTrace trace = outputTrace (ascii "uid=2000(shell) gid=2000(shell)\n") := by
  obtain ⟨trace, n, hRun, hSeen⟩ := Transition.Runs.of_execute (step services) (Calls fun _ => True)
    (start 4096 4096 plainDevice) outputRun
    (fun result => (result.2.host.nextRef, (result.2.host.streams 0).localId,
      (result.2.host.streams 0).remote, hostTrace result.1))
    (1, 1, some 100, outputTrace (ascii "uid=2000(shell) gid=2000(shell)\n")) (by decide +kernel)
  obtain ⟨hNext, hRest⟩ := Prod.mk.inj hSeen
  obtain ⟨hLocal, hMore⟩ := Prod.mk.inj hRest
  obtain ⟨hRemote, hTrace⟩ := Prod.mk.inj hMore
  have hLimit : n.host.nextRef ≤ idLimit := by rw [hNext]; decide
  exact ⟨trace, n, hRun, hLimit, hLocal, hRemote, hTrace⟩

/-- The output is what the service has replied. -/
theorem network_delivers_command : ∃ trace n,
    Transition.Runs (step services) (Calls fun _ => True) (start 4096 4096 plainDevice) trace n ∧
    (traffic 100 (deviceTrace trace)).replies = ascii "uid=2000(shell) gid=2000(shell)\n" := by
  obtain ⟨trace, n, hRun, hLimit, -, hRemote, hTrace⟩ := output_run
  have hWhole := (network_delivers hRun hLimit hRemote).whole (by rw [hTrace]; simp [outputTrace])
    (by rw [hTrace]; simp [outputTrace]) (ascii "uid=2000(shell) gid=2000(shell)\n")
    (by rw [hTrace]; decide +kernel)
  exact ⟨trace, n, hRun, hWhole.1.symm⟩

end Rsadb.Fake
