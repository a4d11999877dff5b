import Rsadb.Session.Custody

/-! The payloads that a stream should receive, read off the trace by local id,
and the invariant that ties them to the stream's queue: what `recv` returned,
what it holds and what is queued are those payloads, in order. -/
namespace Rsadb

/-- A stream's life as the trace tells it. -/
inductive Phase where
  | unborn
  | live (id : UInt32)
  | shut
  deriving DecidableEq, Repr

/-- The phase of a stream and the payloads sent to its local id while it was live. -/
structure Inflow where
  phase : Phase
  payloads : List Bytes
  deriving DecidableEq, Repr

/-- A stream is live from its registration until the device closes its id, its
owner closes it, or `close_all` takes it out of the registry. -/
def Inflow.next (ref : Ref) (f : Inflow) : Event → Inflow
  | .registered other id => if other = ref then { f with phase := .live id } else f
  | .dispatched msg _ =>
      match f.phase, msg.command with
      | .live id, .write =>
          if msg.arg1 = id then { f with payloads := f.payloads ++ [msg.payload] } else f
      | .live id, .close => if msg.arg1 = id then { f with phase := .shut } else f
      | _, _ => f
  | .owner other .closed => if other = ref then { f with phase := .shut } else f
  | .drained refs => if ref ∈ refs then { f with phase := .shut } else f
  | _ => f

/-- What the whole trace sends to a stream. -/
def inflow (ref : Ref) (trace : List Event) : Inflow :=
  trace.foldl (Inflow.next ref) ⟨.unborn, []⟩

/-- The chunk that an event returns to the owner of a stream. -/
def Event.receivedBy (ref : Ref) : Event → Option Bytes
  | .owner other (.returned (.received (some chunk))) => if other = ref then some chunk else none
  | _ => none

/-- The chunks that `recv` has returned on a stream. -/
def received (ref : Ref) (trace : List Event) : List Bytes := trace.filterMap (Event.receivedBy ref)

/-- The chunk that a pending `recv` has taken from the queue. -/
def Owner.held : Owner → List Bytes
  | .took chunk => [chunk]
  | .acking chunk _ => [chunk]
  | _ => []

/-- The end of the stream has been reported by `recv`. -/
def EndSeen (ref : Ref) (trace : List Event) : Prop :=
  .owner ref (.returned (.received none)) ∈ trace

/-- No `recv` on the stream has returned an error. -/
def NoRecvError (ref : Ref) (trace : List Event) : Prop :=
  ∀ e, .owner ref (.returned (.recvFailed e)) ∉ trace

/-- The invariant of one stream's incoming data. -/
structure Flow (ref : Ref) (trace : List Event) (v : StreamView) : Prop where
  listening : v.owner.Alive → v.state.dataRx = true
  unborn : v.owner = .unborn → (inflow ref trace).phase = .unborn ∧ v.state.dataTx = true ∧
    ¬v.registered ∧ ¬v.pending
  inserting : ∀ service, v.owner = .inserting service → (inflow ref trace).phase = .unborn ∧
    v.state.queue = [] ∧ v.state.dataTx = true ∧ ¬v.registered ∧ ¬v.pending
  silent : (inflow ref trace).phase = .unborn → (inflow ref trace).payloads = [] ∧
    received ref trace = []
  named : ∀ id, (inflow ref trace).phase = .live id → id = v.state.localId
  live : v.registered → v.state.dataTx = true → (inflow ref trace).phase = .live v.state.localId
  shut : v.pending ∨ v.state.dataTx = false → (inflow ref trace).phase = .shut
  taken : received ref trace <+: (inflow ref trace).payloads
  queued : v.owner.Alive →
    received ref trace ++ v.owner.held ++ v.state.queue <+: (inflow ref trace).payloads
  exact : v.owner.Alive → v.registered ∨ v.pending ∨ v.state.dataTx = false →
    received ref trace ++ v.owner.held ++ v.state.queue = (inflow ref trace).payloads
  ended : EndSeen ref trace → received ref trace = (inflow ref trace).payloads ∧
    (inflow ref trace).phase = .shut ∧ v.state.queue = [] ∧ v.owner.held = [] ∧
    v.state.dataTx = false

theorem inflow_append (ref : Ref) (trace events : List Event) :
    inflow ref (trace ++ events) = events.foldl (Inflow.next ref) (inflow ref trace) := by
  simp [inflow, List.foldl_append]

@[simp] theorem received_append (ref : Ref) (trace events : List Event) :
    received ref (trace ++ events) = received ref trace ++ received ref events :=
  List.filterMap_append

/-- One event about other streams adds at most a payload, and only while the stream is live. -/
private theorem next_other {ref : Ref} {event : Event} (hEvent : ¬event.Concerns ref) (f : Inflow) :
    f.payloads <+: (f.next ref event).payloads ∧
    ((∀ id, f.phase = .live id → ∀ msg target, event = .dispatched msg target → msg.arg1 ≠ id) →
      f.next ref event = f) ∧
    ∀ id, (f.next ref event).phase = .live id → f.phase = .live id := by
  cases event with
  | registered other id =>
      have hOther : other ≠ ref := hEvent
      simp [Inflow.next, hOther]
  | dispatched msg target =>
      rcases f with ⟨phase, payloads⟩
      cases phase with
      | unborn => simp [Inflow.next]
      | shut => simp [Inflow.next]
      | live id =>
          by_cases hId : msg.arg1 = id
          · cases hCommand : msg.command <;> simp [Inflow.next, hCommand, hId]
          · cases hCommand : msg.command <;> simp [Inflow.next, hCommand, hId]
  | posted source msg => simp [Inflow.next]
  | handed source msg => simp [Inflow.next]
  | owner other report =>
      have hOther : other ≠ ref := hEvent
      cases report <;> simp [Inflow.next, hOther]
  | drained refs =>
      have hMember : ref ∉ refs := hEvent
      simp [Inflow.next, hMember]
  | cancelled other => simp [Inflow.next]
  | readerEnded => simp [Inflow.next]

/-- Events about other streams add at most payloads, and only while the stream is live. -/
theorem inflow_other {ref : Ref} {events : List Event}
    (hEvents : ∀ event ∈ events, ¬event.Concerns ref) (f : Inflow) :
    f.payloads <+: (events.foldl (Inflow.next ref) f).payloads ∧
    ((∀ id, f.phase = .live id → ∀ msg target, .dispatched msg target ∈ events → msg.arg1 ≠ id) →
      events.foldl (Inflow.next ref) f = f) ∧
    ∀ id, (events.foldl (Inflow.next ref) f).phase = .live id → f.phase = .live id := by
  induction events generalizing f with
  | nil => simp
  | cons event rest ih =>
      obtain ⟨hGrow, hSame, hBack⟩ := next_other (hEvents event List.mem_cons_self) f
      obtain ⟨hGrowRest, hSameRest, hBackRest⟩ :=
        ih (fun other hOther => hEvents other (List.mem_cons_of_mem _ hOther)) (f.next ref event)
      rw [List.foldl_cons]
      refine ⟨hGrow.trans hGrowRest, fun hMissed => ?_, fun id hLive => hBack id (hBackRest id hLive)⟩
      have hFirst := hSame fun id hLive msg target hEvent =>
        hMissed id hLive msg target (hEvent ▸ List.mem_cons_self)
      rw [hFirst] at hSameRest ⊢
      exact hSameRest fun id hLive msg target hMember =>
        hMissed id hLive msg target (List.mem_cons_of_mem _ hMember)

/-- No event takes a stream back to before its registration. -/
theorem phase_born {ref : Ref} {events : List Event} {f : Inflow}
    (h : (events.foldl (Inflow.next ref) f).phase = .unborn) : f.phase = .unborn := by
  induction events generalizing f with
  | nil => exact h
  | cons event rest ih =>
      have hNext := ih h
      revert hNext
      rcases f with ⟨phase, payloads⟩
      unfold Inflow.next
      split <;> try split
      all_goals try split
      all_goals simp_all

/-- Nothing about other streams is received. -/
theorem received_other {ref : Ref} {events : List Event}
    (hEvents : ∀ event ∈ events, ¬event.Concerns ref) :
    received ref events = [] ∧ ¬EndSeen ref events := by
  refine ⟨?_, fun hEnd => hEvents _ hEnd rfl⟩
  rw [received, List.filterMap_eq_nil_iff]
  intro event hMember
  have hEvent := hEvents event hMember
  unfold Event.receivedBy
  split
  · rename_i other chunk
    exact if_neg hEvent
  · rfl

theorem endSeen_append (ref : Ref) (trace events : List Event) :
    EndSeen ref (trace ++ events) ↔ EndSeen ref trace ∨ EndSeen ref events := List.mem_append

namespace Flow

variable {ref : Ref} {trace events : List Event} {v v' : StreamView}

/-- A step that takes nothing from the queue and puts nothing in keeps the
invariant, as long as the trace sends the stream nothing that it should have got. -/
theorem keep (h : Flow ref trace v)
    (hGrow : (inflow ref trace).payloads <+: (inflow ref (trace ++ events)).payloads)
    (hStable : (∀ id, (inflow ref trace).phase ≠ .live id) →
      inflow ref (trace ++ events) = inflow ref trace)
    (hPhase : v'.registered → (inflow ref (trace ++ events)).phase = (inflow ref trace).phase)
    (hExact : v'.owner.Alive → v'.registered → inflow ref (trace ++ events) = inflow ref trace)
    (hBack : ∀ id, (inflow ref (trace ++ events)).phase = .live id → (inflow ref trace).phase = .live id)
    (hReceived : received ref events = [] ∧ ¬EndSeen ref events)
    (hAlive : v'.owner.Alive → v.owner.Alive ∧ v'.state.dataRx = v.state.dataRx)
    (hYoung : v'.owner = v.owner ∨ (v'.owner ≠ .unborn ∧ ∀ service, v'.owner ≠ .inserting service))
    (hQueue : v'.state.queue = v.state.queue) (hHeld : v'.owner.held = v.owner.held)
    (hId : v'.state.localId = v.state.localId)
    (hTx : v'.state.dataTx = true → v.state.dataTx = true)
    (hRegistered : v'.registered → v.registered)
    (hShut : v'.pending ∨ v'.state.dataTx = false → v.pending ∨ v.state.dataTx = false) :
    Flow ref (trace ++ events) v' := by
  obtain ⟨hNothing, hNoEnd⟩ := hReceived
  have hSame : received ref (trace ++ events) = received ref trace := by
    rw [received_append, hNothing, List.append_nil]
  have hShutPhase : v'.pending ∨ v'.state.dataTx = false → (inflow ref trace).phase = .shut ∧
      inflow ref (trace ++ events) = inflow ref trace := fun hLost => by
    have hPhaseShut := h.shut (hShut hLost)
    exact ⟨hPhaseShut, hStable fun id hLive => by rw [hPhaseShut] at hLive; cases hLive⟩
  have hUnbornPhase : (inflow ref trace).phase = .unborn →
      inflow ref (trace ++ events) = inflow ref trace := fun hUnborn =>
    hStable fun id hLive => by rw [hUnborn] at hLive; cases hLive
  -- An open stream that nobody is about to mark stays so.
  have hUntouched : v.state.dataTx = true → ¬v.pending → v'.state.dataTx = true ∧ ¬v'.pending := by
    intro hOpen hNotPending
    have hNotShut : ¬(v'.pending ∨ v'.state.dataTx = false) := fun hLost => by
      rcases hShut hLost with hPending | hClosed
      · exact hNotPending hPending
      · rw [hOpen] at hClosed
        cases hClosed
    exact ⟨by simpa using fun hClosed => hNotShut (Or.inr hClosed), fun hNow => hNotShut (Or.inl hNow)⟩
  refine ⟨?_, ?_, ?_, ?_, ?_, ?_, ?_, ?_, ?_, ?_, ?_⟩
  · intro hLives
    obtain ⟨hLived, hRx⟩ := hAlive hLives
    rw [hRx, h.listening hLived]
  · intro hUnborn
    rcases hYoung with hOwner | ⟨hBorn, -⟩
    · obtain ⟨hPhaseUnborn, hOpen, hUnregistered, hNotPending⟩ := h.unborn (hOwner ▸ hUnborn)
      obtain ⟨hStays, hNoMark⟩ := hUntouched hOpen hNotPending
      rw [hUnbornPhase hPhaseUnborn]
      exact ⟨hPhaseUnborn, hStays, fun hNow => hUnregistered (hRegistered hNow), hNoMark⟩
    · exact absurd hUnborn hBorn
  · intro service hInserting
    rcases hYoung with hOwner | ⟨-, hNot⟩
    · obtain ⟨hPhaseUnborn, hEmpty, hOpen, hUnregistered, hNotPending⟩ :=
        h.inserting service (hOwner ▸ hInserting)
      obtain ⟨hStays, hNoMark⟩ := hUntouched hOpen hNotPending
      rw [hUnbornPhase hPhaseUnborn, hQueue]
      exact ⟨hPhaseUnborn, hEmpty, hStays, fun hNow => hUnregistered (hRegistered hNow), hNoMark⟩
    · exact absurd hInserting (hNot service)
  · intro hUnborn
    rw [inflow_append] at hUnborn
    have hBefore := phase_born hUnborn
    rw [hUnbornPhase hBefore, hSame]
    exact h.silent hBefore
  · intro id hLive
    rw [hId]
    exact h.named id (hBack id hLive)
  · intro hHeldBy hOpen
    rw [hPhase hHeldBy, hId]
    exact h.live (hRegistered hHeldBy) (hTx hOpen)
  · intro hLost
    obtain ⟨hPhaseShut, hInflow⟩ := hShutPhase hLost
    rw [hInflow, hPhaseShut]
  · rw [hSame]
    exact h.taken.trans hGrow
  · intro hLives
    rw [hSame, hHeld, hQueue]
    exact (h.queued (hAlive hLives).1).trans hGrow
  · intro hLives hPlace
    have hPlaceBefore : v.registered ∨ v.pending ∨ v.state.dataTx = false := by
      rcases hPlace with hNow | hLost
      · exact Or.inl (hRegistered hNow)
      · exact Or.inr (hShut hLost)
    have hInflow : inflow ref (trace ++ events) = inflow ref trace := by
      rcases hPlace with hNow | hLost
      · exact hExact hLives hNow
      · exact (hShutPhase hLost).2
    rw [hSame, hHeld, hQueue, hInflow]
    exact h.exact (hAlive hLives).1 hPlaceBefore
  · intro hEnd
    rcases (endSeen_append ref trace events).mp hEnd with hEarlier | hNow
    · obtain ⟨hAll, hPhaseShut, hEmpty, hNone, hClosed⟩ := h.ended hEarlier
      have hInflow := hStable fun id hLive => by rw [hPhaseShut] at hLive; cases hLive
      rw [hInflow, hSame, hQueue, hHeld]
      refine ⟨hAll, hPhaseShut, hEmpty, hNone, ?_⟩
      by_contra hOpen
      rw [hTx (by simpa using hOpen)] at hClosed
      cases hClosed
    · exact absurd hNow hNoEnd

/-- A step about other streams. -/
private theorem of_other (h : Flow ref trace v) (hEvents : ∀ event ∈ events, ¬event.Concerns ref)
    (hMissed : v.registered → ∀ msg target, .dispatched msg target ∈ events →
      msg.arg1 ≠ v.state.localId)
    (hState : v'.state = v.state) (hOwner : v'.owner = v.owner) (hLost : v'.registered → v.registered)
    (hPending : v'.pending ↔ v.pending) : Flow ref (trace ++ events) v' := by
  obtain ⟨hGrow, hSame, hBack⟩ := inflow_other hEvents (inflow ref trace)
  rw [← inflow_append] at hGrow hSame hBack
  have hRegistered : v'.registered → inflow ref (trace ++ events) = inflow ref trace := fun hNow =>
    hSame fun id hLive msg target hMember => h.named id hLive ▸ hMissed (hLost hNow) msg target hMember
  refine h.keep hGrow (fun hNot => hSame fun id hLive => absurd hLive (hNot id))
    (fun hNow => by rw [hRegistered hNow]) (fun _ hNow => hRegistered hNow) hBack
    (received_other hEvents) ?_ (Or.inl hOwner) (by rw [hState]) (by rw [hOwner]) (by rw [hState])
    (by rw [hState]; exact id) hLost ?_
  · rw [hOwner, hState]
    exact fun hLives => ⟨hLives, rfl⟩
  · rw [hState, hPending]
    exact id

/-- Events that say nothing about the payloads, whatever stream they concern. -/
def Neutral (ref : Ref) (events : List Event) : Prop :=
  (∀ f, events.foldl (Inflow.next ref) f = f) ∧ received ref events = [] ∧ ¬EndSeen ref events

/-- A step whose events say nothing about the payloads. -/
private theorem of_neutral (h : Flow ref trace v) (hEvents : Neutral ref events)
    (hAlive : v'.owner.Alive → v.owner.Alive ∧ v'.state.dataRx = v.state.dataRx)
    (hYoung : v'.owner = v.owner ∨ (v'.owner ≠ .unborn ∧ ∀ service, v'.owner ≠ .inserting service))
    (hQueue : v'.state.queue = v.state.queue) (hHeld : v'.owner.held = v.owner.held)
    (hId : v'.state.localId = v.state.localId)
    (hTx : v'.state.dataTx = true → v.state.dataTx = true)
    (hRegistered : v'.registered → v.registered)
    (hShut : v'.pending ∨ v'.state.dataTx = false → v.pending ∨ v.state.dataTx = false) :
    Flow ref (trace ++ events) v' := by
  have hSame : inflow ref (trace ++ events) = inflow ref trace := by
    rw [inflow_append, hEvents.1]
  exact h.keep (hSame ▸ List.prefix_refl _) (fun _ => hSame) (fun _ => by rw [hSame])
    (fun _ _ => hSame) (fun id hLive => hSame ▸ hLive) hEvents.2 hAlive hYoung hQueue hHeld hId hTx
    hRegistered hShut

end Flow

/-- What a report answers to a `recv`, if it does. -/
@[simp] def Report.answer : Report → Option (Result (Option Bytes))
  | .returned (.received chunk) => some (.ok chunk)
  | .returned (.recvFailed e) => some (.error e)
  | _ => none

/-- What the steps of an owner do with the payloads. -/
inductive FlowMove (state : StreamState) (owner : Owner) (p : OwnerStep) : Prop
  | quiet (hQueue : p.state.queue = state.queue) (hTx : p.state.dataTx = state.dataTx)
      (hRx : p.owner.Alive → p.state.dataRx = state.dataRx) (hHeld : p.owner.held = owner.held)
      (hOwner : ∀ service, p.owner ≠ .inserting service) (hEffect : p.effect ≠ .insert)
      (hReports : p.reports = [] ∨ ∃ result, p.reports = [.returned result] ∧
        (Report.returned result).answer = none)
  | insert {service : Bytes} (hOwner : owner = .inserting service)
      (hStep : p = ⟨state, .posting service, .insert, []⟩)
  | take {chunk : Bytes} {rest : List Bytes} (hOwner : owner = .idle)
      (hQueue : state.queue = chunk :: rest)
      (hStep : p = ⟨{ state with queue := rest }, .took chunk, .nothing, [.took chunk]⟩)
  | give {chunk : Bytes} (hHeld : owner.held = [chunk]) (hState : p.state = state)
      (hOwner : p.owner = .idle) (hEffect : p.effect ≠ .insert ∧ p.effect ≠ .remove)
      (hReports : p.reports = [.returned (.received (some chunk))])
  | fail {chunk : Bytes} {e : Error} (hHeld : owner.held = [chunk]) (hOwner : p.owner = .idle)
      (hReports : p.reports = [.returned (.recvFailed e)])
  | finish (hOwner : owner = .idle) (hQueue : state.queue = []) (hTx : state.dataTx = false)
      (hStep : p = ⟨state, .idle, .nothing, [.returned (.received none)]⟩)
  | close {remote : UInt32} {final : Bool} (hOwner : owner = .idle)
      (hStep : p = ⟨state.markClosed, .removing remote final, .nothing, [.closed]⟩)

theorem OwnerMoves.flow {maxPayload : UInt32} {outboxOpen : Bool} {state : StreamState}
    {owner : Owner} {p : OwnerStep} (h : OwnerMoves maxPayload outboxOpen state owner p) :
    FlowMove state owner p := by
  cases h.move with
  | inserted => exact .insert rfl rfl
  | received hQueue => exact .take rfl hQueue rfl
  | exhausted hQueue hTx => exact .finish rfl hQueue hTx rfl
  | unacknowledging => exact .give rfl rfl rfl (by simp) rfl
  | acknowledged => exact .give rfl rfl rfl (by simp) rfl
  | unheard => exact .fail rfl rfl rfl
  | closing => exact .close rfl rfl
  | unrequested | refused | droppedClosed =>
      exact .quiet rfl rfl (fun hAlive => hAlive.elim) rfl (by simp [Owner.leave])
        (by simp [Owner.leave]) (by simp [Owner.leave])
  | parted =>
      refine .quiet rfl rfl (fun _ => rfl) rfl (by simp) ?_ (by simp)
      cases outboxOpen <;> simp
  | left =>
      refine .quiet rfl rfl (fun hAlive => hAlive.elim) rfl (by simp [Owner.leave]) ?_
        (by simp [Owner.leave])
      cases outboxOpen <;> simp [Owner.leave]
  | _ => exact .quiet rfl rfl (fun _ => rfl) rfl (by simp) (by simp) (by simp)

namespace Flow

variable {ref : Ref} {trace : List Event} {v v' : StreamView}

/-- An owner that inserts nothing posts at most one message and reports. -/
private theorem events_posted (ref : Ref) {p : OwnerStep} (hEffect : p.effect ≠ .insert) :
    ∃ posts : List Message, Session.events ref p =
      posts.map (Event.posted (some ref)) ++ p.reports.map (Event.owner ref) := by
  cases hCase : p.effect with
  | insert => exact absurd hCase hEffect
  | post msg => exact ⟨[msg], by simp [Session.events, hCase]⟩
  | nothing | remove => exact ⟨[], by simp [Session.events, hCase]⟩

/-- Messages that an owner posts say nothing about the payloads. -/
private theorem neutral_posts (ref : Ref) (posts : List Message) :
    Neutral ref (posts.map (Event.posted (some ref))) := by
  refine ⟨fun f => ?_, ?_, by simp [EndSeen]⟩
  · induction posts with
    | nil => rfl
    | cons msg rest ih => exact ih
  · rw [received, List.filterMap_eq_nil_iff]
    rintro event hMember
    obtain ⟨msg, -, rfl⟩ := List.mem_map.mp hMember
    rfl

private theorem neutral_append {first second : List Event} (hFirst : Neutral ref first)
    (hSecond : Neutral ref second) : Neutral ref (first ++ second) := by
  refine ⟨fun f => ?_, ?_, ?_⟩
  · rw [List.foldl_append, hFirst.1, hSecond.1]
  · rw [received_append, hFirst.2.1, hSecond.2.1, List.append_nil]
  · rw [endSeen_append]
    exact fun hEnd => hEnd.elim hFirst.2.2 hSecond.2.2

private theorem neutral_of_reports {p : OwnerStep} (hEffect : p.effect ≠ .insert)
    (hReports : p.reports = [] ∨ ∃ result, p.reports = [.returned result] ∧
      (Report.returned result).answer = none) : Neutral ref (Session.events ref p) := by
  obtain ⟨posts, hEvents⟩ := events_posted ref hEffect
  rw [hEvents]
  refine neutral_append (neutral_posts ref posts) ?_
  rcases hReports with hNone | ⟨result, hOne, hNot⟩
  · rw [hNone]
    exact ⟨fun _ => rfl, rfl, by simp [EndSeen]⟩
  · rw [hOne]
    refine ⟨fun _ => rfl, ?_, ?_⟩
    · cases result with
      | received chunk => cases hNot
      | _ => rfl
    · have hNotEnd : result ≠ .received none := by
        rintro rfl
        cases hNot
      simpa [EndSeen] using Ne.symm hNotEnd

/-- A stream that enters the registry was sent nothing, and from here on it is live. -/
private theorem of_inserted (h : Flow ref trace v) {service : Bytes}
    (hInserting : v.owner = .inserting service) (hState : v'.state = v.state)
    (hOwner : v'.owner = .posting service) (hPending : v'.pending ↔ v.pending) :
    Flow ref (trace ++ [.registered ref v.state.localId]) v' := by
  obtain ⟨hPhase, hEmpty, hOpen, hUnregistered, hNotPending⟩ := h.inserting _ hInserting
  obtain ⟨hNoPayloads, hNothing⟩ := h.silent hPhase
  have hInflow : inflow ref (trace ++ [.registered ref v.state.localId]) =
      ⟨.live v.state.localId, []⟩ := by
    rw [inflow_append]
    simp [Inflow.next, hNoPayloads]
  have hReceived : received ref (trace ++ [.registered ref v.state.localId]) = [] := by
    rw [received_append, hNothing]
    rfl
  have hNotShut : ¬(v'.pending ∨ v.state.dataTx = false) := by
    rw [hPending, hOpen]
    simp [hNotPending]
  have hNotEnd : ¬EndSeen ref (trace ++ [.registered ref v.state.localId]) := by
    rw [endSeen_append]
    rintro (hEarlier | hNow)
    · have hShut := (h.ended hEarlier).2.1
      rw [hPhase] at hShut
      cases hShut
    · simp [EndSeen] at hNow
  constructor <;> simp only [hInflow, hReceived, hState, hOwner]
  · exact fun _ => h.listening (hInserting ▸ trivial)
  · simp
  · simp
  · simp
  · exact fun id hId => (Phase.live.inj hId).symm
  · simp
  · exact fun hLost => absurd hLost hNotShut
  · exact List.prefix_refl _
  · simp [Owner.held, hEmpty]
  · simp [Owner.held, hEmpty]
  · exact fun hEnd => absurd hEnd hNotEnd

/-- A payload goes from the queue into the hands of the owner. -/
private theorem of_taken (h : Flow ref trace v) {chunk : Bytes} {rest : List Bytes}
    (hIdle : v.owner = .idle) (hQueue : v.state.queue = chunk :: rest)
    (hState : v'.state = { v.state with queue := rest }) (hOwner : v'.owner = .took chunk)
    (hRegistered : v'.registered ↔ v.registered) (hPending : v'.pending ↔ v.pending) :
    Flow ref (trace ++ [.owner ref (.took chunk)]) v' := by
  have hBorn : v.owner.Alive := hIdle ▸ trivial
  have hInflow : inflow ref (trace ++ [.owner ref (.took chunk)]) = inflow ref trace := by
    rw [inflow_append]
    rfl
  have hReceived : received ref (trace ++ [.owner ref (.took chunk)]) = received ref trace := by
    rw [received_append]
    exact List.append_nil _
  have hMoved : received ref trace ++ [chunk] ++ rest =
      received ref trace ++ v.owner.held ++ v.state.queue := by
    rw [hIdle, hQueue]
    simp [Owner.held]
  constructor <;> simp only [hInflow, hReceived, hState, hOwner, hRegistered, hPending]
  · exact fun _ => h.listening hBorn
  · simp
  · simp
  · exact h.silent
  · exact h.named
  · exact h.live
  · exact h.shut
  · exact h.taken
  · exact fun _ => hMoved ▸ h.queued hBorn
  · exact fun _ hPlace => hMoved.trans (h.exact hBorn hPlace)
  · rw [endSeen_append]
    rintro (hEarlier | hNow)
    · have hEmpty := (h.ended hEarlier).2.2.1
      rw [hQueue] at hEmpty
      cases hEmpty
    · simp [EndSeen] at hNow

/-- The owner hands its payload to its caller, after it posted an acknowledgement or none. -/
private theorem of_given (h : Flow ref trace v) {chunk : Bytes} (hBorn : v.owner.Alive)
    (hHeld : v.owner.held = [chunk]) (hState : v'.state = v.state) (hOwner : v'.owner = .idle)
    (hRegistered : v'.registered ↔ v.registered) (hPending : v'.pending ↔ v.pending)
    (posts : List Message) :
    Flow ref (trace ++ (posts.map (Event.posted (some ref)) ++
      [.owner ref (.returned (.received (some chunk)))])) v' := by
  obtain ⟨hPostsFlow, hPostsReceived, hPostsEnd⟩ := neutral_posts ref posts
  have hInflow : inflow ref (trace ++ (posts.map (Event.posted (some ref)) ++
      [.owner ref (.returned (.received (some chunk)))])) = inflow ref trace := by
    rw [inflow_append, List.foldl_append, hPostsFlow]
    rfl
  have hReceived : received ref (trace ++ (posts.map (Event.posted (some ref)) ++
      [.owner ref (.returned (.received (some chunk)))])) = received ref trace ++ [chunk] := by
    rw [received_append, received_append, hPostsReceived]
    simp [received, Event.receivedBy]
  have hNotEnd : ¬EndSeen ref (trace ++ (posts.map (Event.posted (some ref)) ++
      [.owner ref (.returned (.received (some chunk)))])) := by
    rw [endSeen_append, endSeen_append]
    rintro (hEarlier | hPosts | hGiven)
    · have hNone := (h.ended hEarlier).2.2.2.1
      rw [hHeld] at hNone
      cases hNone
    · exact hPostsEnd hPosts
    · simp [EndSeen] at hGiven
  have hMoved : received ref trace ++ [chunk] ++ [] ++ v.state.queue =
      received ref trace ++ v.owner.held ++ v.state.queue := by
    rw [hHeld]
    simp
  constructor <;> simp only [hInflow, hReceived, hState, hOwner, hRegistered, hPending]
  · exact fun _ => h.listening hBorn
  · simp
  · simp
  · intro hUnborn
    have hQueued := h.queued hBorn
    rw [(h.silent hUnborn).1, hHeld] at hQueued
    simp at hQueued
  · exact h.named
  · exact h.live
  · exact h.shut
  · have hQueued := h.queued hBorn
    rw [hHeld] at hQueued
    exact (List.prefix_append _ _).trans hQueued
  · exact fun _ => hMoved ▸ h.queued hBorn
  · exact fun _ hPlace => hMoved.trans (h.exact hBorn hPlace)
  · exact fun hEnd => absurd hEnd hNotEnd

/-- The owner tells its caller that the data has ended, when the queue is empty and the stream shut. -/
private theorem of_finished (h : Flow ref trace v) (hIdle : v.owner = .idle)
    (hQueue : v.state.queue = []) (hTx : v.state.dataTx = false) (hState : v'.state = v.state)
    (hOwner : v'.owner = .idle) (hRegistered : v'.registered ↔ v.registered)
    (hPending : v'.pending ↔ v.pending) :
    Flow ref (trace ++ [.owner ref (.returned (.received none))]) v' := by
  have hBorn : v.owner.Alive := hIdle ▸ trivial
  have hInflow : inflow ref (trace ++ [.owner ref (.returned (.received none))]) =
      inflow ref trace := by
    rw [inflow_append]
    rfl
  have hReceived : received ref (trace ++ [.owner ref (.returned (.received none))]) =
      received ref trace := by
    rw [received_append]
    exact List.append_nil _
  have hAll := h.exact hBorn (Or.inr (Or.inr hTx))
  constructor <;> simp only [hInflow, hReceived, hState, hOwner, hRegistered, hPending]
  · exact fun _ => h.listening hBorn
  · simp
  · simp
  · exact h.silent
  · exact h.named
  · exact h.live
  · exact h.shut
  · exact h.taken
  · exact fun _ => hIdle ▸ h.queued hBorn
  · exact fun _ _ => hIdle ▸ hAll
  · refine fun _ => ⟨?_, h.shut (Or.inr hTx), hQueue, rfl, hTx⟩
    simpa [hIdle, hQueue, Owner.held] using hAll

/-- The owner closes a stream that still gets all that it is sent. -/
private theorem of_closed (h : Flow ref trace v) {remote : UInt32} {final : Bool}
    (hIdle : v.owner = .idle) (hState : v'.state = v.state.markClosed)
    (hOwner : v'.owner = .removing remote final)
    (hClose : v.registered ∨ v.pending ∨ v.state.dataTx = false) :
    Flow ref (trace ++ [.owner ref .closed]) v' := by
  have hBorn : v.owner.Alive := hIdle ▸ trivial
  have hAll := h.exact hBorn hClose
  have hInflow : inflow ref (trace ++ [.owner ref .closed]) =
      ⟨.shut, (inflow ref trace).payloads⟩ := by
    rw [inflow_append]
    simp [Inflow.next]
  have hReceived : received ref (trace ++ [.owner ref .closed]) = received ref trace := by
    rw [received_append]
    exact List.append_nil _
  have hHeld : (Owner.removing remote final).held = v.owner.held := by
    rw [hIdle]
    rfl
  constructor <;> simp only [hInflow, hReceived, hState, hOwner, hHeld]
  · exact fun _ => h.listening hBorn
  · simp
  · simp
  · simp
  · simp
  · simp [StreamState.markClosed, StreamState.release, StreamState.notifyOne]
  · simp
  · exact h.taken
  · exact fun _ => h.queued hBorn
  · exact fun _ _ => hAll
  · rw [endSeen_append]
    rintro (hEarlier | hNow)
    · obtain ⟨hDone, -, hEmpty, hNone, -⟩ := h.ended hEarlier
      exact ⟨hDone, trivial, hEmpty, hNone, rfl⟩
    · simp [EndSeen] at hNow

/-- An owner that leaves the payloads alone keeps the invariant; an owner that
moves one moves it from the queue to its caller. -/
theorem of_move (h : Flow ref trace v) {p : OwnerStep} (hMove : FlowMove v.state v.owner p)
    (hBorn : v.owner.Alive) (hNotUnborn : p.owner ≠ .unborn)
    (hLocal : p.state.localId = v.state.localId)
    (hState : v'.state = p.state) (hOwner : v'.owner = p.owner)
    (hRegistered : match p.effect with
        | .insert => v'.registered
        | .remove => ¬v'.registered
        | _ => (v'.registered ↔ v.registered))
    (hPending : v'.pending ↔ v.pending)
    (hFailed : NoRecvError ref (Session.events ref p))
    (hClose : .owner ref .closed ∈ Session.events ref p →
      v.registered ∨ v.pending ∨ v.state.dataTx = false) :
    Flow ref (trace ++ Session.events ref p) v' := by
  cases hMove with
  | quiet hQueue hTx hRx hHeld hNotNew hEffect hReports =>
      have hKept : v'.registered → v.registered := by
        intro hNow
        cases hCase : p.effect <;> simp only [hCase] at hRegistered hEffect
        · exact hRegistered.mp hNow
        · exact absurd rfl hEffect
        · exact absurd hNow hRegistered
        · exact hRegistered.mp hNow
      refine h.of_neutral (neutral_of_reports hEffect hReports) ?_ (Or.inr ⟨?_, ?_⟩)
        (by rw [hState, hQueue]) (by rw [hOwner, hHeld]) (by rw [hState, hLocal])
        (by rw [hState, hTx]; exact id) hKept (by rw [hState, hTx, hPending]; exact id)
      · rw [hOwner, hState]
        exact fun hAlive => ⟨hBorn, hRx hAlive⟩
      · rw [hOwner]
        exact hNotUnborn
      · rw [hOwner]
        exact hNotNew
  | insert hInserting hStep =>
      subst hStep
      exact h.of_inserted hInserting hState hOwner hPending
  | take hIdle hQueue hStep =>
      subst hStep
      exact h.of_taken hIdle hQueue hState hOwner hRegistered hPending
  | give hHeld hSame hIdle hEffect hReports =>
      have hKept : v'.registered ↔ v.registered := by
        cases hCase : p.effect <;> simp only [hCase, ne_eq, not_true_eq_false, false_and, and_false]
          at hRegistered hEffect <;> exact hRegistered
      obtain ⟨posts, hEvents⟩ := events_posted ref hEffect.1
      rw [hEvents, hReports]
      exact h.of_given hBorn hHeld (hState.trans hSame) (hOwner.trans hIdle) hKept hPending posts
  | @fail _ e _ _ hReports =>
      refine absurd ?_ (hFailed e)
      simp [Session.events, hReports]
  | finish hIdle hQueue hTx hStep =>
      subst hStep
      exact h.of_finished hIdle hQueue hTx hState hOwner hRegistered hPending
  | close hIdle hStep =>
      subst hStep
      exact h.of_closed hIdle hState hOwner (hClose List.mem_cons_self)

/-- A message that the stream does not take is at most one more payload, and
changes the phase only if it is a close. -/
private theorem next_dispatched (ref : Ref) (msg : Message) (target : Option Ref) (f : Inflow) :
    f.payloads <+: (f.next ref (.dispatched msg target)).payloads ∧
    (msg.command ≠ .close → (f.next ref (.dispatched msg target)).phase = f.phase) ∧
    (msg.command ≠ .write → msg.command ≠ .close → f.next ref (.dispatched msg target) = f) ∧
    ((∀ id, f.phase ≠ .live id) → f.next ref (.dispatched msg target) = f) := by
  rcases f with ⟨phase, payloads⟩
  cases phase with
  | unborn => simp [Inflow.next]
  | shut => simp [Inflow.next]
  | live id =>
      by_cases hId : msg.arg1 = id <;> cases hCommand : msg.command <;>
        simp [Inflow.next, hCommand, hId]

/-- A message with neither payload nor end, and whatever the reader posts about it. -/
private theorem neutral_dispatched {msg : Message} (hWrite : msg.command ≠ .write)
    (hClose : msg.command ≠ .close) (target : Option Ref) : Neutral ref [.dispatched msg target] :=
  ⟨fun f => (next_dispatched ref msg target f).2.2.1 hWrite hClose, rfl, by simp [EndSeen]⟩

/-- A new stream has received nothing and was sent nothing. -/
private theorem of_born (h : Flow ref trace v) {id : UInt32} {service : Bytes}
    (hUnborn : v.owner = .unborn) (hState : v'.state = StreamState.fresh id)
    (hOwner : v'.owner = .inserting service) (hUnregistered : ¬v'.registered)
    (hPending : ¬v'.pending) : Flow ref trace v' := by
  obtain ⟨hPhase, -, -, -⟩ := h.unborn hUnborn
  obtain ⟨hPayloads, hNothing⟩ := h.silent hPhase
  have hNotEnd : ¬EndSeen ref trace := fun hEnd => by
    have hShut := (h.ended hEnd).2.1
    rw [hPhase] at hShut
    cases hShut
  constructor <;> simp only [hState, hOwner, hPhase, hPayloads, hNothing]
  · exact fun _ => rfl
  · simp
  · exact fun _ _ => ⟨trivial, rfl, rfl, hUnregistered, hPending⟩
  · exact fun _ => ⟨trivial, trivial⟩
  · simp
  · exact fun hNow => absurd hNow hUnregistered
  · rintro (hNow | hTx)
    · exact absurd hNow hPending
    · cases hTx
  · exact List.prefix_refl _
  · simp [Owner.held, StreamState.fresh]
  · simp [Owner.held, StreamState.fresh]
  · exact fun hEnd => absurd hEnd hNotEnd

/-- A payload goes to the end of the queue and to the end of what the trace sends. -/
private theorem of_delivered (h : Flow ref trace v) {msg : Message} (hCommand : msg.command = .write)
    (hTarget : v.registered) (hId : msg.arg1 = v.state.localId)
    (hState : v.state.deliver msg.payload = (v'.state, true)) (hOwner : v'.owner = v.owner)
    (hPending : v'.pending ↔ v.pending) : Flow ref (trace ++ [.dispatched msg (some ref)]) v' := by
  obtain ⟨hTx, -, hState⟩ := StreamState.deliver_eq hState
  have hLive := h.live hTarget hTx
  have hNext : inflow ref (trace ++ [.dispatched msg (some ref)]) =
      ⟨.live v.state.localId, (inflow ref trace).payloads ++ [msg.payload]⟩ := by
    rw [inflow_append]
    simp [Inflow.next, hLive, hCommand, hId]
  have hReceived : received ref (trace ++ [.dispatched msg (some ref)]) = received ref trace := by
    rw [received_append]
    exact List.append_nil _
  have hNotPending : ¬v.pending := fun hNow => by
    have hShut := h.shut (Or.inl hNow)
    rw [hLive] at hShut
    cases hShut
  have hNotEnd : ¬EndSeen ref (trace ++ [.dispatched msg (some ref)]) := by
    rw [endSeen_append]
    rintro (hEarlier | hNow)
    · have hClosed := (h.ended hEarlier).2.2.2.2
      rw [hTx] at hClosed
      cases hClosed
    · simp [EndSeen] at hNow
  have hNotYoung : v.owner ≠ .unborn ∧ ∀ service, v.owner ≠ .inserting service :=
    ⟨fun hUnborn => (h.unborn hUnborn).2.2.1 hTarget,
      fun service hInserting => (h.inserting service hInserting).2.2.2.1 hTarget⟩
  have hMoved : v.owner.Alive → received ref trace ++ v.owner.held ++
      (v.state.queue ++ [msg.payload]) = (inflow ref trace).payloads ++ [msg.payload] := fun hLives => by
    rw [← h.exact hLives (Or.inl hTarget), List.append_assoc _ v.state.queue]
  constructor <;> simp only [hNext, hReceived, hState, hOwner, hPending]
  · exact h.listening
  · exact fun hUnborn => absurd hUnborn hNotYoung.1
  · exact fun service hInserting => absurd hInserting (hNotYoung.2 service)
  · simp
  · exact fun id hNow => (Phase.live.inj hNow).symm
  · exact fun _ _ => trivial
  · rintro (hNow | hClosed)
    · exact absurd hNow hNotPending
    · rw [hTx] at hClosed
      cases hClosed
  · exact h.taken.trans (List.prefix_append _ _)
  · exact fun hLives => hMoved hLives ▸ List.prefix_refl _
  · exact fun hLives _ => hMoved hLives
  · exact fun hEnd => absurd hEnd hNotEnd

/-- The end of a stream that the registry or a `close_all` still holds: all of
its payloads are on this side, and no more will come. -/
private theorem of_shut (h : Flow ref trace v) {events : List Event}
    (hHeldBy : v.registered ∨ v.pending)
    (hShut : inflow ref (trace ++ events) = ⟨.shut, (inflow ref trace).payloads⟩)
    (hReceived : received ref events = [] ∧ ¬EndSeen ref events)
    (hQueue : v'.state.queue = v.state.queue) (hRx : v'.state.dataRx = v.state.dataRx)
    (hTx : v'.state.dataTx = true → v.state.dataTx = true)
    (hOwner : v'.owner = v.owner) (hRegistered : v'.registered → v'.state.dataTx = false) :
    Flow ref (trace ++ events) v' := by
  have hSame : received ref (trace ++ events) = received ref trace := by
    rw [received_append, hReceived.1, List.append_nil]
  have hNotYoung : v.owner ≠ .unborn ∧ ∀ service, v.owner ≠ .inserting service := by
    refine ⟨fun hUnborn => ?_, fun service hInserting => ?_⟩
    · exact hHeldBy.elim (h.unborn hUnborn).2.2.1 (h.unborn hUnborn).2.2.2
    · exact hHeldBy.elim (h.inserting service hInserting).2.2.2.1
        (h.inserting service hInserting).2.2.2.2
  constructor <;> simp only [hShut, hSame, hQueue, hRx, hOwner]
  · exact h.listening
  · exact fun hUnborn => absurd hUnborn hNotYoung.1
  · exact fun service hInserting => absurd hInserting (hNotYoung.2 service)
  · simp
  · simp
  · intro hNow hOpen
    rw [hRegistered hNow] at hOpen
    cases hOpen
  · exact fun _ => trivial
  · exact h.taken
  · exact h.queued
  · exact fun hLives _ => h.exact hLives (hHeldBy.imp_right Or.inl)
  · intro hEnd
    rcases (endSeen_append ref trace events).mp hEnd with hEarlier | hNow
    · obtain ⟨hAll, -, hEmpty, hNone, hClosed⟩ := h.ended hEarlier
      refine ⟨hAll, trivial, hEmpty, hNone, ?_⟩
      by_contra hOpen
      rw [hTx (by simpa using hOpen)] at hClosed
      cases hClosed
    · exact absurd hNow hReceived.2

/-- A payload that nobody takes: the owner is gone, or the stream has ended before. -/
private theorem of_refused (h : Flow ref trace v) {msg : Message} {more : List Event}
    (hCommand : msg.command = .write) (hTarget : v.registered)
    (hDeliver : v.state.deliver msg.payload = (v.state, false))
    (hMore : ∀ event ∈ more, ∃ refusal, event = .posted none refusal)
    (hState : v'.state = v.state) (hOwner : v'.owner = v.owner) (hPending : v'.pending ↔ v.pending) :
    Flow ref (trace ++ .dispatched msg (some ref) :: more) v' := by
  have hOthers : ∀ event ∈ more, ¬event.Concerns ref := by
    intro event hMember
    obtain ⟨refusal, rfl⟩ := hMore event hMember
    simp [Event.Concerns]
  have hNeutral : more.foldl (Inflow.next ref) ((inflow ref trace).next ref (.dispatched msg (some ref)))
      = (inflow ref trace).next ref (.dispatched msg (some ref)) := by
    refine (inflow_other hOthers _).2.1 fun id _ msg target hMember => ?_
    obtain ⟨refusal, hEvent⟩ := hMore _ hMember
    cases hEvent
  have hNext : inflow ref (trace ++ .dispatched msg (some ref) :: more) =
      (inflow ref trace).next ref (.dispatched msg (some ref)) := by
    rw [inflow_append, List.foldl_cons, hNeutral]
  obtain ⟨hGrow, hPhase, -, hStable⟩ :=
    next_dispatched ref msg (some ref) (inflow ref trace)
  have hNotClose : msg.command ≠ .close := by simp [hCommand]
  have hDeaf : v.state.dataTx = false ∨ v.state.dataRx = false := by
    unfold StreamState.deliver at hDeliver
    split at hDeliver
    · exact Bool.noConfusion (congrArg Prod.snd hDeliver)
    · rename_i hClosed
      exact Bool.and_eq_false_iff.mp (eq_false_of_ne_true hClosed)
  refine h.keep (hNext ▸ hGrow) (fun hNot => hNext ▸ hStable hNot) (fun _ => hNext ▸ hPhase hNotClose)
    ?_ (fun id => by rw [hNext, hPhase hNotClose]; exact fun hLive => hLive) ?_ ?_ (Or.inl hOwner)
    (by rw [hState]) (by rw [hOwner]) (by rw [hState]) (by rw [hState]; exact id) (fun _ => hTarget) ?_
  · intro hLives _
    rw [hNext]
    refine hStable fun id hLive => ?_
    have hTx : v.state.dataTx = false := hDeaf.resolve_right (by
      rw [h.listening (hOwner ▸ hLives)]
      simp)
    rw [h.shut (Or.inr hTx)] at hLive
    cases hLive
  · refine ⟨?_, ?_⟩
    · exact (List.filterMap_cons_none rfl).trans (received_other hOthers).1
    · rintro (_ | ⟨_, hEnd⟩)
      exact (received_other hOthers).2 hEnd
  · rw [hOwner, hState]
    exact fun hLives => ⟨hLives, rfl⟩
  · rw [hState, hPending]
    exact id

/-- A wait that is dropped gives nothing and takes nothing. -/
private theorem of_cancelled (h : Flow ref trace v) {p : OwnerStep} (hCancel : v.owner.cancel v.state = some p)
    (hState : v'.state = p.state) (hOwner : v'.owner = p.owner)
    (hRegistered : v'.registered ↔ v.registered) (hPending : v'.pending ↔ v.pending) :
    Flow ref (trace ++ [.cancelled ref]) v' := by
  obtain ⟨purpose, seen, hWaiting, hLeft⟩ := Owner.cancel_cases hCancel
  have hEvents : Neutral ref [.cancelled ref] := ⟨fun _ => rfl, rfl, by simp [EndSeen]⟩
  rcases hLeft with rfl | rfl
  · refine h.of_neutral hEvents ?_ (Or.inr ?_) (by rw [hState]; rfl) (by rw [hOwner, hWaiting]; rfl)
      (by rw [hState]; rfl) (by rw [hState]; exact id) hRegistered.mp (by rw [hState, hPending]; exact id)
    · rw [hOwner]
      exact False.elim
    · simp [hOwner]
  · refine h.of_neutral hEvents ?_ (Or.inr ?_) (by rw [hState]) (by rw [hOwner, hWaiting]; rfl)
      (by rw [hState]) (by rw [hState]; exact id) hRegistered.mp (by rw [hState, hPending]; exact id)
    · rw [hWaiting, hState]
      exact fun _ => ⟨trivial, rfl⟩
    · simp [hOwner]

/-- The device closes the stream. -/
private theorem of_ended (h : Flow ref trace v) {msg : Message} (hCommand : msg.command = .close)
    (hTarget : v.registered) (hId : msg.arg1 = v.state.localId) (hState : v'.state = v.state.markClosed)
    (hOwner : v'.owner = v.owner) (hRegistered : ¬v'.registered) :
    Flow ref (trace ++ [.dispatched msg (some ref)]) v' := by
  have hShut : inflow ref (trace ++ [.dispatched msg (some ref)]) =
      ⟨.shut, (inflow ref trace).payloads⟩ := by
    rw [inflow_append, List.foldl_cons, List.foldl_nil]
    cases hTx : v.state.dataTx with
    | true => simp [Inflow.next, h.live hTarget hTx, hCommand, hId]
    | false =>
        have hPhase := h.shut (Or.inr hTx)
        rw [(next_dispatched ref msg (some ref) _).2.2.2 (by simp [hPhase]), ← hPhase]
  exact h.of_shut (Or.inl hTarget) hShut ⟨rfl, by simp [EndSeen]⟩ (by rw [hState]; rfl)
    (by rw [hState]; rfl) (by rw [hState]; exact Bool.noConfusion) hOwner
    (fun hNow => absurd hNow hRegistered)

/-- Whatever happens to a stream keeps the invariant, as long as `recv` does
not fail and a stream is closed only while somebody accounts for it. -/
theorem step {maxPayload : UInt32} {clash : Prop} (h : Flow ref trace v)
    (hStep : ViewStep maxPayload clash ref v events v') (hFailed : NoRecvError ref events)
    (hClose : .owner ref .closed ∈ events → v.registered ∨ v.pending ∨ v.state.dataTx = false) :
    Flow ref (trace ++ events) v' := by
  cases hStep with
  | other hEvents hMissed hState hOwner hLost hKept hPending =>
      exact h.of_other hEvents hMissed hState hOwner hLost hPending
  | born hUnborn hState hOwner hUnregistered hPending =>
      rw [List.append_nil]
      exact h.of_born hUnborn hState hOwner hUnregistered hPending
  | own hMoves hState hOwner hRegistered hPending =>
      exact h.of_move hMoves.flow hMoves.alive hMoves.move.born.2 hMoves.move.localId hState hOwner hRegistered
        hPending hFailed hClose
  | cancelled hCancel hState hOwner hRegistered hPending =>
      exact h.of_cancelled hCancel hState hOwner hRegistered hPending
  | acked hCommand hTarget hId hState hOwner hRegistered hPending =>
      refine h.of_neutral (neutral_dispatched (by simp [hCommand]) (by simp [hCommand]) _) ?_
        (Or.inl hOwner) (by rw [hState]; rfl) (by rw [hOwner]) (by rw [hState]; rfl)
        (by rw [hState]; exact id) (fun _ => hTarget) (by rw [hState, hPending]; exact id)
      rw [hOwner, hState]
      exact fun hLives => ⟨hLives, rfl⟩
  | delivered hCommand hTarget hId hState hOwner hRegistered hPending =>
      exact h.of_delivered hCommand hTarget hId hState hOwner hPending
  | refused hCommand hTarget hId hDeliver hMore hState hOwner hRegistered hPending =>
      exact h.of_refused hCommand hTarget hDeliver hMore hState hOwner hPending
  | ended hCommand hTarget hId hState hOwner hRegistered hPending =>
      exact h.of_ended hCommand hTarget hId hState hOwner hRegistered
  | ignored hCommand hTarget hId hState hOwner hRegistered hPending =>
      refine h.of_neutral (neutral_dispatched hCommand.2.1 hCommand.2.2 _) ?_ (Or.inl hOwner)
        (by rw [hState]) (by rw [hOwner]) (by rw [hState]) (by rw [hState]; exact id)
        (fun _ => hTarget) (by rw [hState, hPending]; exact id)
      rw [hOwner, hState]
      exact fun hLives => ⟨hLives, rfl⟩
  | handed hState hOwner hRegistered hPending =>
      refine h.of_neutral ⟨fun _ => rfl, rfl, by simp [EndSeen]⟩ ?_ (Or.inl hOwner)
        (by rw [hState]) (by rw [hOwner]) (by rw [hState]) (by rw [hState]; exact id)
        hRegistered.mp (by rw [hState, hPending]; exact id)
      rw [hOwner, hState]
      exact fun hLives => ⟨hLives, rfl⟩
  | @drained _ refs hMember hTarget hState hOwner hRegistered hPending =>
      have hShut : inflow ref (trace ++ [.drained refs]) = ⟨.shut, (inflow ref trace).payloads⟩ := by
        rw [inflow_append]
        simp [Inflow.next, hMember]
      exact h.of_shut (Or.inl hTarget) hShut ⟨rfl, by simp [EndSeen]⟩ (by rw [hState]) (by rw [hState])
        (by rw [hState]; exact id) hOwner (fun hNow => absurd hNow hRegistered)
  | marked hWaited hState hOwner hRegistered hPending =>
      have hPhase := h.shut (Or.inl hWaited)
      have hShut : inflow ref (trace ++ []) = ⟨.shut, (inflow ref trace).payloads⟩ := by
        rw [List.append_nil, ← hPhase]
      exact h.of_shut (Or.inr hWaited) hShut ⟨rfl, by simp [EndSeen]⟩ (by rw [hState]; rfl)
        (by rw [hState]; rfl) (by rw [hState]; exact Bool.noConfusion) hOwner
        (fun _ => by rw [hState]; rfl)

/-- Only an open stream without a pending call is closed by its owner. -/
theorem closed_idle {maxPayload : UInt32} {clash : Prop}
    (hStep : ViewStep maxPayload clash ref v events v') (hClosed : .owner ref .closed ∈ events) :
    v.owner = .idle := by
  cases hStep with
  | other hEvents => exact absurd rfl (hEvents _ hClosed)
  | own hMoves =>
      unfold Session.events at hClosed
      cases hMoves.flow with
      | close hIdle => exact hIdle
      | take hIdle => exact hIdle
      | finish hIdle => exact hIdle
      | insert hYoung hStep =>
          rw [hStep] at hClosed
          simp at hClosed
      | quiet hQueue hTx hRx hHeld hOwner hEffect hReports =>
          rcases hReports with hNone | ⟨result, hOne, -⟩
          · rw [hNone] at hClosed
            split at hClosed <;> simp at hClosed
          · rw [hOne] at hClosed
            split at hClosed <;> simp at hClosed
      | give hHeld hState hOwner hEffect hReports =>
          rw [hReports] at hClosed
          split at hClosed <;> simp at hClosed
      | fail _ _ hReports =>
          rw [hReports] at hClosed
          split at hClosed <;> simp at hClosed
  | refused hCommand hTarget hId hDeliver hMore =>
      rcases List.mem_cons.mp hClosed with hFirst | hRest
      · cases hFirst
      · obtain ⟨refusal, hPosted⟩ := hMore _ hRest
        cases hPosted
  | _ => simp at hClosed

/-- A session that starts has sent and received nothing. -/
theorem start {maxPayload : UInt32} : Flow ref [] ((Session.start maxPayload).view ref) where
  listening _ := rfl
  unborn _ := ⟨rfl, rfl, by simp [Session.view, Session.Registered, Session.start, Session.get,
    Registry.find_empty], by simp [Session.view, Session.Pending, Session.start, Reader.unmarked,
    Closer.unmarked]⟩
  inserting _ hOwner := by cases hOwner
  silent _ := ⟨rfl, rfl⟩
  named id hLive := by cases hLive
  live hRegistered := by
    simp [Session.view, Session.Registered, Session.start, Session.get, Registry.find_empty]
      at hRegistered
  shut hLost := by
    simp [Session.view, Session.Pending, Session.start, Reader.unmarked, Closer.unmarked,
      StreamState.fresh] at hLost
  taken := List.prefix_refl _
  queued _ := List.prefix_refl _
  exact _ _ := rfl
  ended hEnd := by simp [EndSeen] at hEnd

end Flow

end Rsadb
