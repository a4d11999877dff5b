import Rsadb.Session.Client
import Rsadb.Session.Stranding

/-! What the writer takes with it. When a send of the transport fails the writer
ends, and what is still queued is dropped. Nobody closes the streams of those
messages: unlike the reader, the writer leaves without a `close_all`. -/
namespace Rsadb

/-- What was posted and never handed to the transport. -/
def unhanded (trace : List Event) : List (Option Ref × Message) :=
  (posts trace).drop (hands trace).length

namespace Session

variable {allowed : List Event → Session → Action → Prop} {maxPayload : UInt32}

/-- Until the writer ends, what was not handed over is queued. -/
theorem unhanded_of_runs {trace : List Event} {s : Session}
    (hRun : Transition.Runs step allowed (start maxPayload) trace s) (hWriter : s.writer ≠ .ended) :
    unhanded trace = s.outbox := by
  rw [unhanded, ← (outbox_of_runs hRun).2 hWriter, List.drop_left]

/-- After the end of the writer nothing is posted and nothing handed over. -/
theorem silent_of_ended {t : Session} (hEnded : t.writer = .ended) {later : List Event} {s : Session}
    (hLater : Transition.Runs step allowed t later s) :
    s.writer = .ended ∧ posts later = [] ∧ hands later = [] := by
  induction hLater with
  | start => exact ⟨hEnded, rfl, rfl⟩
  | next _ _ hTaken ih =>
      obtain ⟨hBefore, hPosts, hHands⟩ := ih
      refine ⟨writer_ended hTaken hBefore, ?_⟩
      rw [posts_append, hands_append, hPosts, hHands]
      cases step_outbox hTaken with
      | quiet hNoPosts hNoHands => exact ⟨hNoPosts, hNoHands⟩
      | posted _ _ _ hRunning | handed _ hRunning => exact absurd hBefore hRunning
      | dropped => exact ⟨rfl, rfl⟩

/-- However a run goes on, a closed stream stays closed. -/
theorem closed_later {trace later : List Event} {t s : Session} (hRun : Run maxPayload trace t)
    (hLater : Transition.Runs step (fun _ _ _ => True) t later s) {ref : Ref}
    (hClosed : (t.streams ref).closed = true) : (s.streams ref).closed = true := by
  induction hLater with
  | start => exact hClosed
  | @next later s s' _ _ hBefore _ hTaken ih =>
      have hWhole : Run maxPayload (trace ++ later) s := Transition.Runs.append hRun hBefore
      refine (step_view (named_of_runs hWhole).1 hTaken ref).closed_of (fun hUnborn => ?_) ih
      have hOpen := ((intact_of_runs hWhole ref).fresh (Or.inl hUnborn)).2.2
      rw [show (s.streams ref).closed = false from hOpen] at ih
      cases ih

/-- Nobody waits for what was dropped: every stream of which an OPEN or a WRTE was
never handed over is closed, and whoever waits on it has a wakeup pending. -/
def NobodyWaits (trace : List Event) (s : Session) : Prop :=
  ∀ ref msg, (some ref, msg) ∈ unhanded trace → Ledger.Asks msg →
    (s.streams ref).closed = true ∧
    ∀ purpose seen, s.owners ref = .waiting purpose seen .parked → (s.streams ref).wake = true

/-- A dead writer. When the send of a message fails, then nobody waits for what is
dropped, however the session goes on, exactly if every OPEN and WRTE that is queued
at that moment is of a stream that is closed already. -/
theorem nobody_waits_iff {trace events : List Event} {t t' : Session} (hRun : Run maxPayload trace t)
    (hFail : t.step .sinkFail = some (t', events)) :
    (∀ later s, Transition.Runs step (fun _ _ _ => True) t' later s →
      s.NobodyWaits (trace ++ events ++ later)) ↔
    ∀ ref msg, (some ref, msg) ∈ t.outbox → Ledger.Asks msg → (t.streams ref).closed = true := by
  have hAfter : Run maxPayload (trace ++ events) t' := hRun.next trivial hFail
  cases step_cases hFail with
  | sinkFailed hSending =>
      have hDropped : ∀ later s, Transition.Runs step (fun _ _ _ => True) { t with writer := .ended, outbox := [] }
          later s → unhanded (trace ++ [] ++ later) = t.outbox := by
        intro later s hLater
        obtain ⟨-, hPosts, hHands⟩ := silent_of_ended rfl hLater
        rw [List.append_nil, unhanded, posts_append, hands_append, hPosts, hHands, List.append_nil,
          List.append_nil]
        exact unhanded_of_runs hRun (by simp [hSending])
      constructor
      · intro hNobody ref msg hQueued hAsks
        have hNow := hNobody [] _ .start ref msg
        rw [hDropped [] _ .start] at hNow
        exact (hNow hQueued hAsks).1
      · intro hClosed later s hLater ref msg hUnhanded hAsks
        rw [hDropped later s hLater] at hUnhanded
        have hShut := closed_later hAfter hLater (hClosed ref msg hUnhanded hAsks)
        have hWhole : Run maxPayload (trace ++ [] ++ later) s := Transition.Runs.append hAfter hLater
        exact ⟨hShut, fun purpose seen hParked => woken_of_runs hWhole ref purpose seen hParked hShut⟩

/-- Post the OPEN of a stream and wait for its answer. -/
private def asking (ref : Ref) : List Action :=
  [.openStream (ascii "exec:id"), .advance ref, .advance ref, .advance ref, .advance ref]

/-- A write is queued when its stream is closed by the device, and then a send fails. -/
private def closedInTime : List Action :=
  asking 0 ++ [.hand, .handed, .arrive (.empty .okay 5 1), .advance 0, .advance 0, .advance 0] ++
    asking 1 ++ [.hand, .call 0 (.send (ascii "hi")), .advance 0, .advance 0, .advance 0,
      .arrive (.empty .close 5 1)]

/-- The write that is dropped belongs to a closed stream, and nobody waits for it. -/
theorem nobody_waits_iff_closed_write : ∃ trace t t' events,
    Run 4096 trace t ∧ t.step .sinkFail = some (t', events) ∧
    t.outbox = [(some 0, ⟨.write, 1, 5, ascii "hi"⟩)] ∧
    ∀ later s, Transition.Runs step (fun _ _ _ => True) t' later s →
      s.NobodyWaits (trace ++ events ++ later) := by
  obtain ⟨trace, t, hRun, hSeen⟩ := Transition.Runs.of_execute step (fun _ _ _ => True) (start 4096)
    closedInTime (fun result => (result.2.writer, result.2.outbox, (result.2.streams 0).closed))
    (.sending, [(some 0, ⟨.write, 1, 5, ascii "hi"⟩)], true) (by decide)
  rw [Prod.mk.injEq, Prod.mk.injEq] at hSeen
  obtain ⟨hWriter, hOutbox, hClosed⟩ := hSeen
  have hFail : t.step .sinkFail = some ({ t with writer := .ended, outbox := [] }, []) := if_pos hWriter
  refine ⟨trace, t, _, _, hRun, hFail, hOutbox, (nobody_waits_iff hRun hFail).mpr ?_⟩
  intro ref msg hQueued _
  rw [hOutbox, List.mem_singleton, Prod.mk.injEq, Option.some.injEq] at hQueued
  rw [hQueued.1]
  exact hClosed

/-- Two opens are pending when the send of the first OPEN fails. The second OPEN is
dropped, and its stream is not closed. -/
theorem dropped_open_waits : ¬∀ (maxPayload : UInt32) (trace events later : List Event)
    (t t' s : Session), Run maxPayload trace t → t.step .sinkFail = some (t', events) →
      Transition.Runs step (fun _ _ _ => True) t' later s → s.NobodyWaits (trace ++ events ++ later) := by
  intro hClaim
  obtain ⟨trace, t, hRun, hSeen⟩ := Transition.Runs.of_execute step (fun _ _ _ => True) (start 4096)
    (asking 0 ++ asking 1 ++ [.hand])
    (fun result => (result.2.writer, unhanded result.1, (result.2.streams 1).closed))
    (.sending, [(some 1, ⟨.open, 2, 0, ascii "exec:id" ++ [0]⟩)], false) (by decide)
  rw [Prod.mk.injEq, Prod.mk.injEq] at hSeen
  obtain ⟨hWriter, hUnhanded, hOpen⟩ := hSeen
  have hFail : t.step .sinkFail = some ({ t with writer := .ended, outbox := [] }, []) := if_pos hWriter
  have hNobody := hClaim 4096 trace [] [] t _ _ hRun hFail .start 1 ⟨.open, 2, 0, ascii "exec:id" ++ [0]⟩
  rw [List.append_nil, List.append_nil, hUnhanded] at hNobody
  have hClosed := (hNobody List.mem_cons_self (Or.inl rfl)).1
  change (t.streams 1).closed = true at hClosed
  rw [hOpen] at hClosed
  cases hClosed

end Session
end Rsadb
