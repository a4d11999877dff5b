import Rsadb.Session.Ledger

/-! One stream with its account: what a step of the session enters, and which
action it is. Laws about the traffic of a stream are proved by cases on
`AccountStep`. -/
namespace Rsadb

/-- The stream whose owner acts, if an owner does. -/
def Action.actor : Action → Option Ref
  | .call ref _ => some ref
  | .advance ref => some ref
  | .cancel ref => some ref
  | _ => none

/-- The stream that a `close_all` marks, if one does. -/
def Action.marked : Action → Option Ref
  | .mark ref => some ref
  | .closeMark _ ref => some ref
  | _ => none

/-- A move is seen: the owner stands elsewhere afterwards, or has something to report. -/
theorem Move.seen {maxPayload : UInt32} {outboxOpen : Bool} {state : StreamState} {owner : Owner}
    {p : OwnerStep} (h : Move maxPayload outboxOpen state owner p) :
    p.owner ≠ owner ∨ ∃ report, report ∈ p.reports := by
  cases h <;> first
    | exact Or.inr ⟨_, List.mem_cons_self⟩
    | exact Or.inl (by simp)

namespace Session

/-- What one step does to a stream, its owner and its account. -/
inductive AccountStep (s : Session) (ref : Ref) (action : Action) (l : Ledger) :
    Ledger → StreamState → Owner → Prop
  | same : AccountStep s ref action l l (s.streams ref) (s.owners ref)
  | born {id : UInt32} {service : Bytes} (hUnborn : s.owners ref = .unborn)
      (hAction : action = .openStream service) :
      AccountStep s ref action l l (.fresh id) (.inserting service)
  | moved {outboxOpen : Bool} {p : OwnerStep}
      (hMove : Move s.maxPayload outboxOpen (s.streams ref) (s.owners ref) p)
      (hWriter : ∀ msg, p.effect = .post msg → s.writer ≠ .ended)
      (hAction : action = .advance ref ∨ s.owners ref = .idle ∧ ∃ call, action = .call ref call)
      (hBegun : ∀ data, s.owners ref = .idle → p.owner = .writing data → action = .call ref (.send data)) :
      AccountStep s ref action l (l.enter p) p.state p.owner
  | cancelled {p : OwnerStep} (hCancel : (s.owners ref).cancel (s.streams ref) = some p)
      (hAction : action = .cancel ref) :
      AccountStep s ref action l { l with callWrites := 0 } p.state p.owner
  | acked {msg : Message} (hCommand : msg.command = .okay) (hAction : action = .arrive msg)
      (hTarget : s.get msg.arg1 = some ref) :
      AccountStep s ref action l { l with okays := l.okays + 1 } ((s.streams ref).ack msg.arg0)
        (s.owners ref)
  | delivered {msg : Message} (hCommand : msg.command = .write) (hAction : action = .arrive msg)
      (hTarget : s.get msg.arg1 = some ref) :
      AccountStep s ref action l { l with arrivals := l.arrivals + 1 }
        { s.streams ref with queue := (s.streams ref).queue ++ [msg.payload] } (s.owners ref)
  | refused {msg : Message} (hCommand : msg.command = .write) (hAction : action = .arrive msg)
      (hTarget : s.get msg.arg1 = some ref) :
      AccountStep s ref action l { l with arrivals := l.arrivals + 1 } (s.streams ref) (s.owners ref)
  | ended {msg : Message} (hCommand : msg.command = .close) (hAction : action = .arrive msg)
      (hTarget : s.get msg.arg1 = some ref) :
      AccountStep s ref action l l (s.streams ref).markClosed (s.owners ref)
  | handed {msg : Message} (hAction : action = .hand) :
      AccountStep s ref action l (l.hand msg) (s.streams ref) (s.owners ref)
  | marked (hAction : action.marked = some ref) :
      AccountStep s ref action l l (s.streams ref).markClosed (s.owners ref)

/-- Whom to hold responsible: what an event or a change of a stream says about the action. -/
structure Cause (s : Session) (action : Action) (events : List Event) (s' : Session) : Prop where
  dispatched : ∀ msg target, .dispatched msg target ∈ events →
    action = .arrive msg ∧ s.get msg.arg1 = target
  handed : ∀ source msg, .handed source msg ∈ events → action = .hand
  cancelled : ∀ ref, .cancelled ref ∈ events ↔ action = .cancel ref
  acted : ∀ ref report, .owner ref report ∈ events → action.actor = some ref
  owner : ∀ ref, s'.owners ref = s.owners ref ∨ action.actor = some ref ∨ s.owners ref = .unborn
  stream : ∀ ref, s'.streams ref = s.streams ref ∨ s'.owners ref ≠ s.owners ref ∨ events ≠ [] ∨
    action.marked = some ref

/-- What an own step says, and what it leaves alone. -/
private theorem perform_cause (s : Session) (target : Ref) (p : OwnerStep) :
    (∀ msg other, .dispatched msg other ∉ events target p) ∧
    (∀ source msg, .handed source msg ∉ events target p) ∧
    (∀ other, .cancelled other ∉ events target p) ∧
    (∀ other report, .owner other report ∈ events target p → some target = some other) ∧
    (∀ other, (s.perform target p).1.owners other = s.owners other ∨ some target = some other) ∧
    (s.perform target p).1.owners target = p.owner ∧
    ∀ other, (s.perform target p).1.streams other = s.streams other ∨ other = target := by
  refine ⟨?_, ?_, ?_, ?_, fun other => ?_, by simp, fun other => ?_⟩
  · intro msg other hMember
    cases hEffect : p.effect <;> simp [events, hEffect] at hMember
  · intro source msg hMember
    cases hEffect : p.effect <;> simp [events, hEffect] at hMember
  · intro other hMember
    cases hEffect : p.effect <;> simp [events, hEffect] at hMember
  · intro other report hMember
    cases hEffect : p.effect <;> simp [events, hEffect] at hMember <;> exact congrArg some hMember.2
  · by_cases hOther : other = target
    · exact Or.inr (by rw [hOther])
    · exact Or.inl (by simp [hOther])
  · by_cases hOther : other = target
    · exact Or.inr hOther
    · exact Or.inl (by simp [hOther])

/-- The tasks that touch no owner say nothing that matters here. -/
private theorem cause_quiet {s t : Session} {action : Action} {events : List Event}
    (hCancel : ∀ ref, action ≠ .cancel ref) (hOwners : t.owners = s.owners)
    (hStreams : ∀ ref, t.streams ref = s.streams ref ∨ action.marked = some ref)
    (hEvents : ∀ event ∈ events, event = .readerEnded ∨ ∃ refs, event = .drained refs) :
    Cause s action events t := by
  constructor
  · intro msg target hMember
    rcases hEvents _ hMember with hEvent | ⟨refs, hEvent⟩ <;> cases hEvent
  · intro source msg hMember
    rcases hEvents _ hMember with hEvent | ⟨refs, hEvent⟩ <;> cases hEvent
  · intro ref
    refine ⟨fun hMember => ?_, fun hAction => absurd hAction (hCancel ref)⟩
    rcases hEvents _ hMember with hEvent | ⟨refs, hEvent⟩ <;> cases hEvent
  · intro ref report hMember
    rcases hEvents _ hMember with hEvent | ⟨refs, hEvent⟩ <;> cases hEvent
  · exact fun ref => Or.inl (by rw [hOwners])
  · exact fun ref => (hStreams ref).imp_right fun hMarked => Or.inr (Or.inr hMarked)

/-- An owner that moves is told by the action. -/
private theorem cause_performed {s : Session} {action : Action} {target : Ref} {p : OwnerStep}
    {outboxOpen : Bool} (hMove : Move s.maxPayload outboxOpen (s.streams target) (s.owners target) p)
    (hCancel : ∀ ref, action ≠ .cancel ref) (hActor : action.actor = some target) :
    Cause s action (Session.events target p) (s.perform target p).1 := by
  obtain ⟨hDispatched, hHanded, hCancelled, hActed, hOwner, hThere, hStream⟩ := perform_cause s target p
  constructor
  · exact fun msg other hMember => absurd hMember (hDispatched msg other)
  · exact fun source msg hMember => absurd hMember (hHanded source msg)
  · exact fun other => iff_of_false (hCancelled other) (hCancel other)
  · exact fun other report hMember => hActor.trans (hActed other report hMember)
  · exact fun other => (hOwner other).imp_right fun hSame => Or.inl (hActor.trans hSame)
  · intro other
    refine (hStream other).imp_right fun hOther => ?_
    rw [hOther, hThere]
    refine hMove.seen.imp_right fun ⟨report, hReport⟩ => Or.inl ?_
    have hMember : .owner target report ∈ Session.events target p :=
      List.mem_append_right _ (List.mem_map_of_mem hReport)
    exact List.ne_nil_of_mem hMember

/-- A new stream had no owner. -/
private theorem cause_opened {s : Session} (hNamed : s.Named) (service : Bytes) :
    Cause s (.openStream service) [] (s.allocate service) := by
  have hUnborn := (hNamed.unborn s.nextRef).mpr (Nat.le_refl _)
  refine ⟨by simp, by simp, by simp, by simp, fun ref => ?_, fun ref => ?_⟩ <;>
    by_cases hRef : ref = s.nextRef
  · exact Or.inr (Or.inr (hRef ▸ hUnborn))
  · exact Or.inl (by simp [allocate, setStream, setOwner, hRef])
  · rw [hRef]
    exact Or.inr (Or.inl (by simp [allocate, setStream, setOwner, hUnborn]))
  · exact Or.inl (by simp [allocate, setStream, setOwner, hRef])

/-- A message that arrives is dispatched, and at most refused. -/
private theorem cause_arrived (s : Session) (msg : Message) :
    Cause s (.arrive msg) (.dispatched msg (s.get msg.arg1) :: (s.route msg).2) (s.route msg).1 := by
  obtain ⟨hOwners, -, -, -, -, hMore, -⟩ := (route_routed s msg).frame
  have hFirst : ∀ event ∈ Event.dispatched msg (s.get msg.arg1) :: (s.route msg).2,
      event = .dispatched msg (s.get msg.arg1) ∨ ∃ refusal, event = .posted none refusal :=
    fun event hMember => (List.mem_cons.mp hMember).imp_right (hMore event)
  constructor
  · intro other target hMember
    rcases hFirst _ hMember with hEvent | ⟨refusal, hEvent⟩ <;> cases hEvent
    exact ⟨rfl, rfl⟩
  · intro source other hMember
    rcases hFirst _ hMember with hEvent | ⟨refusal, hEvent⟩ <;> cases hEvent
  · intro ref
    refine ⟨fun hMember => ?_, by simp⟩
    rcases hFirst _ hMember with hEvent | ⟨refusal, hEvent⟩ <;> cases hEvent
  · intro ref report hMember
    rcases hFirst _ hMember with hEvent | ⟨refusal, hEvent⟩ <;> cases hEvent
  · exact fun ref => Or.inl (congrFun hOwners ref)
  · exact fun _ => Or.inr (Or.inr (Or.inl (by simp)))

theorem step_cause {s s' : Session} {action : Action} {events : List Event} (hNamed : s.Named)
    (h : s.step action = some (s', events)) : Cause s action events s' := by
  cases step_cases h with
  | opened => exact cause_opened hNamed _
  | called hIdle hBegin =>
      exact cause_performed (hIdle ▸ @Owner.begin_move _ true _ _ _ hBegin) (by simp) rfl
  | advanced hAdvance => exact cause_performed (Owner.advance_move hAdvance) (by simp) rfl
  | @cancelled target p hCancel =>
      obtain ⟨-, -, -, -, hOwner, -⟩ := perform_cause s target p
      refine ⟨by simp, by simp, fun other => ?_, by simp, fun other => (hOwner other).imp_right Or.inl,
        fun other => Or.inr (Or.inr (Or.inl (by simp)))⟩
      simp [eq_comm]
  | arrived => exact cause_arrived s _
  | handing =>
      exact ⟨by simp, fun _ _ _ => rfl, by simp, by simp, fun _ => Or.inl rfl, fun _ => Or.inl rfl⟩
  | @marked target | @closeMarked _ target =>
      refine cause_quiet (by simp) rfl (fun ref => ?_) (by simp)
      by_cases hRef : ref = target
      · exact Or.inr (by rw [hRef]; rfl)
      · exact Or.inl (by simp [mark, setStream, setCloser, hRef])
  | _ => exact cause_quiet (by simp) rfl (fun _ => Or.inl rfl) (by simp)

/-- The action behind a move of an owner. -/
private theorem actor_of_move {s s' : Session} {action : Action} (hNamed : s.Named) {ref : Ref}
    {outboxOpen : Bool} {p : OwnerStep}
    (hMove : Move s.maxPayload outboxOpen (s.streams ref) (s.owners ref) p)
    (hOwner : s'.owners ref = p.owner) (h : s.step action = some (s', events ref p)) :
    action = .advance ref ∨ s.owners ref = .idle ∧ ∃ call, action = .call ref call := by
  have hCause := step_cause hNamed h
  have hActor : action.actor = some ref := by
    rcases hMove.seen with hElsewhere | ⟨report, hReport⟩
    · rcases hCause.owner ref with hSame | hActor | hUnborn
      · exact absurd (hOwner.symm.trans hSame) hElsewhere
      · exact hActor
      · exact absurd hUnborn hMove.born.1
    · exact hCause.acted ref report (List.mem_append_right _ (List.mem_map_of_mem hReport))
  cases action with
  | advance target =>
      cases hActor
      exact Or.inl rfl
  | call target call =>
      cases hActor
      exact Or.inr ⟨(step_call h).1, call, rfl⟩
  | cancel target =>
      cases hActor
      have hMember := (hCause.cancelled ref).mpr rfl
      cases hEffect : p.effect <;> simp [events, hEffect] at hMember
  | _ => cases hActor

/-- What begins to write is a `send`. -/
private theorem send_of_writing {s s' : Session} {action : Action} {events : List Event}
    (hNamed : s.Named) (h : s.step action = some (s', events)) {ref : Ref} {data : Bytes}
    (hIdle : s.owners ref = .idle) (hWriting : s'.owners ref = .writing data) :
    action = .call ref (.send data) := by
  have hActor : action.actor = some ref := by
    rcases (step_cause hNamed h).owner ref with hSame | hActor | hUnborn
    · rw [hIdle, hWriting] at hSame
      cases hSame
    · exact hActor
    · rw [hIdle] at hUnborn
      cases hUnborn
  cases action with
  | call target call =>
      cases hActor
      obtain ⟨-, p, hBegin, rfl, -⟩ := step_call h
      rw [perform_owners, Function.update_self] at hWriting
      rw [Owner.begin_writing hBegin hWriting]
  | advance target =>
      cases hActor
      obtain ⟨p, hAdvance, -, -⟩ := step_advance h
      rw [hIdle] at hAdvance
      cases hAdvance
  | cancel target =>
      cases hActor
      obtain ⟨p, hCancel, -⟩ := step_cancel h
      rw [hIdle] at hCancel
      cases hCancel
  | _ => cases hActor

/-- What an owner reports, it reports of a move of its own. -/
theorem step_reported {s s' : Session} {action : Action} {events : List Event} (hNamed : s.Named)
    (h : s.step action = some (s', events)) {ref : Ref} {report : Report}
    (hReport : .owner ref report ∈ events) :
    ∃ outboxOpen p, Move s.maxPayload outboxOpen (s.streams ref) (s.owners ref) p ∧
      events = Session.events ref p ∧ s'.streams ref = p.state ∧ s'.owners ref = p.owner ∧
      report ∈ p.reports := by
  have hView := step_view hNamed h ref
  generalize hAfter : s'.view ref = v' at hView
  have hStreams : s'.streams ref = v'.state := by rw [← hAfter]; rfl
  have hOwners : s'.owners ref = v'.owner := by rw [← hAfter]; rfl
  cases hView with
  | other hEvents => exact absurd rfl (hEvents _ hReport)
  | @own _ p outboxOpen hMoves hState hOwner =>
      refine ⟨outboxOpen, p, hMoves.move, rfl, hStreams.trans hState, hOwners.trans hOwner, ?_⟩
      rcases List.mem_append.mp hReport with hEffect | hOwn
      · cases hCase : p.effect <;> simp [hCase] at hEffect
      · simpa using hOwn
  | refused hCommand hTarget hId hDeliver hMore =>
      rcases List.mem_cons.mp hReport with hFirst | hRest
      · cases hFirst
      · obtain ⟨refusal, hPosted⟩ := hMore _ hRest
        cases hPosted
  | _ => simp at hReport

/-- Every step does to every stream what `AccountStep` lists. -/
theorem step_account {s s' : Session} {action : Action} {events : List Event} (hNamed : s.Named)
    (h : s.step action = some (s', events)) (ref : Ref) (trace : List Event) :
    AccountStep s ref action (ledger ref trace) (ledger ref (trace ++ events)) (s'.streams ref)
      (s'.owners ref) := by
  have hCause := step_cause hNamed h
  have hView := step_view hNamed h ref
  rw [ledger_append]
  have hSame : ∀ {t : StreamState} {owner : Owner}, t = s.streams ref → owner = s.owners ref →
      AccountStep s ref action (ledger ref trace) (ledger ref trace) t owner := by
    rintro t owner rfl rfl
    exact .same
  generalize hAfter : s'.view ref = v' at hView
  have hStreams : s'.streams ref = v'.state := by rw [← hAfter]; rfl
  have hOwners : s'.owners ref = v'.owner := by rw [← hAfter]; rfl
  rw [hStreams, hOwners]
  cases hView with
  | other hEvents hMissed hState hOwner =>
      rw [Ledger.note_other hEvents]
      exact hSame hState hOwner
  | born hUnborn hState hOwner =>
      rw [hState, hOwner]
      exact .born hUnborn (born_service h hUnborn (hOwners.trans hOwner)).1
  | @own _ p _ hMoves hState hOwner =>
      rw [Ledger.note_own, hState, hOwner]
      refine .moved hMoves.move (fun msg hEffect => ?_)
        (actor_of_move hNamed hMoves.move (hOwners.trans hOwner) h) fun data hIdle hWriting =>
          send_of_writing hNamed h hIdle ((hOwners.trans hOwner).trans hWriting)
      have hPosted : .posted (some ref) msg ∈ Session.events ref p := by simp [Session.events, hEffect]
      exact writer_of_posted h hPosted
  | cancelled hCancel hState hOwner =>
      rw [hState, hOwner]
      simp only [List.foldl_cons, List.foldl_nil, Ledger.note, ↓reduceIte]
      exact .cancelled hCancel ((hCause.cancelled ref).mp List.mem_cons_self)
  | acked hCommand hTarget hId hState hOwner =>
      rw [hState, hOwner]
      simp only [List.foldl_cons, List.foldl_nil, Ledger.note, ↓reduceIte, Ledger.dispatch, hCommand]
      obtain ⟨hAction, hGet⟩ := hCause.dispatched _ _ List.mem_cons_self
      exact .acked hCommand hAction hGet
  | delivered hCommand hTarget hId hState hOwner =>
      obtain ⟨-, -, hQueued⟩ := StreamState.deliver_eq hState
      rw [hQueued, hOwner]
      simp only [List.foldl_cons, List.foldl_nil, Ledger.note, ↓reduceIte, Ledger.dispatch, hCommand]
      obtain ⟨hAction, hGet⟩ := hCause.dispatched _ _ List.mem_cons_self
      exact .delivered hCommand hAction hGet
  | refused hCommand hTarget hId hDeliver hMore hState hOwner =>
      rw [List.foldl_cons, Ledger.note_other, hState, hOwner]
      · simp only [Ledger.note, ↓reduceIte, Ledger.dispatch, hCommand]
        obtain ⟨hAction, hGet⟩ := hCause.dispatched _ _ List.mem_cons_self
        exact .refused hCommand hAction hGet
      · intro event hMember
        obtain ⟨refusal, rfl⟩ := hMore event hMember
        simp [Event.Concerns]
  | ended hCommand hTarget hId hState hOwner =>
      rw [hState, hOwner]
      simp only [List.foldl_cons, List.foldl_nil, Ledger.note, ↓reduceIte, Ledger.dispatch, hCommand]
      obtain ⟨hAction, hGet⟩ := hCause.dispatched _ _ List.mem_cons_self
      exact .ended hCommand hAction hGet
  | @ignored _ msg hCommand hTarget hId hState hOwner =>
      have hNothing : (ledger ref trace).dispatch msg = ledger ref trace := by
        unfold Ledger.dispatch
        split
        · exact absurd ‹_› hCommand.1
        · exact absurd ‹_› hCommand.2.1
        · rfl
      simp only [List.foldl_cons, List.foldl_nil, Ledger.note, ↓reduceIte, hNothing]
      exact hSame hState hOwner
  | handed hState hOwner =>
      rw [hState, hOwner]
      simp only [List.foldl_cons, List.foldl_nil, Ledger.note, ↓reduceIte]
      exact .handed (hCause.handed _ _ List.mem_cons_self)
  | drained hMember hTarget hState hOwner => exact hSame hState hOwner
  | marked hWaited hState hOwner =>
      rw [hState, hOwner]
      rcases hCause.stream ref with hSameState | hMoved | hEvents | hMarked
      · exact hSame (hState.symm.trans (hStreams.symm.trans hSameState)) rfl
      · exact absurd (hOwners.trans hOwner) hMoved
      · exact absurd rfl hEvents
      · exact .marked hMarked

variable {allowed : List Event → Session → Action → Prop} {maxPayload : UInt32}

/-- What every allowed step keeps of a stream, its owner and its account holds in every run. -/
theorem account_invariant {Inv : Ledger → StreamState → Owner → Prop} (ref : Ref)
    (hStart : Inv .empty (.fresh 0) .unborn)
    (hStep : ∀ {trace s action l state owner}, Transition.Runs step allowed (start maxPayload) trace s →
      allowed trace s action → AccountStep s ref action (ledger ref trace) l state owner →
      Inv (ledger ref trace) (s.streams ref) (s.owners ref) → Inv l state owner)
    {trace : List Event} {s : Session}
    (h : Transition.Runs step allowed (start maxPayload) trace s) :
    Inv (ledger ref trace) (s.streams ref) (s.owners ref) := by
  refine @Transition.Runs.invariant _ _ _ _ _ _
    (fun trace s => Inv (ledger ref trace) (s.streams ref) (s.owners ref)) ?_ ?_ _ _ h
  · exact hStart
  · intro trace s action s' events hRun hBefore hAllowed hTaken
    exact hStep hRun hAllowed (step_account (named_of_runs hRun).1 hTaken ref _) hBefore

end Session
end Rsadb
