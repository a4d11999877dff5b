import Rsadb.Session.System

/-! The steps of the session, listed once: what each action needs and what it
leaves. A law about single steps is proved by cases on `Step`, and nothing below
looks into the step function again. -/
namespace Rsadb.Session

section

variable (s : Session) (ref : Ref) (p : OwnerStep)

@[simp] theorem perform_streams : (s.perform ref p).1.streams = Function.update s.streams ref p.state := by
  cases hEffect : p.effect <;> simp [perform, setStream, setOwner, hEffect]

@[simp] theorem perform_owners : (s.perform ref p).1.owners = Function.update s.owners ref p.owner := by
  cases hEffect : p.effect <;> simp [perform, setStream, setOwner, hEffect]

/-- An owner leaves the tasks and the counters of the session alone. -/
theorem perform_frame : (s.perform ref p).1.reader = s.reader ∧ (s.perform ref p).1.writer = s.writer ∧
    (s.perform ref p).1.closers = s.closers ∧ (s.perform ref p).1.maxPayload = s.maxPayload ∧
    (s.perform ref p).1.nextRef = s.nextRef ∧ (s.perform ref p).1.nextId = s.nextId := by
  cases hEffect : p.effect <;> simp [perform, setStream, setOwner, hEffect]

end

/-- What one step of the session can be. -/
inductive Step (s : Session) : Action → Session → List Event → Prop
  | opened {service : Bytes} (hName : 0 ∉ service) :
      Step s (.openStream service) (s.allocate service) []
  | called {ref : Ref} {call : StreamCall} {p : OwnerStep} (hIdle : s.owners ref = .idle)
      (hBegin : Owner.begin (s.streams ref) call = some p) :
      Step s (.call ref call) (s.perform ref p).1 (events ref p)
  | advanced {ref : Ref} {p : OwnerStep}
      (hAdvance : (s.owners ref).advance s.maxPayload s.outboxOpen (s.streams ref) = some p) :
      Step s (.advance ref) (s.perform ref p).1 (events ref p)
  | cancelled {ref : Ref} {p : OwnerStep} (hCancel : (s.owners ref).cancel (s.streams ref) = some p) :
      Step s (.cancel ref) (s.perform ref p).1 [.cancelled ref]
  | arrived {msg : Message} (hReading : s.reader = .reading) :
      Step s (.arrive msg) (s.route msg).1 (.dispatched msg (s.get msg.arg1) :: (s.route msg).2)
  | failed (hReading : s.reader = .reading) : Step s .fail { s with reader := .stopping } []
  | drained (hStopping : s.reader = .stopping) :
      Step s .drain { s with registry := ∅, reader := .marking s.registered } [.drained s.registered]
  | marked {ref : Ref} {refs : List Ref} (hMarking : s.reader = .marking refs) (hMember : ref ∈ refs) :
      Step s (.mark ref) { s.mark ref with reader := .marking (refs.erase ref) } []
  | finished (hMarking : s.reader = .marking []) :
      Step s .finish { s with reader := .ended } [.readerEnded]
  | readerAborted (hAborted : s.readerAborted = true) (hReading : s.reader = .reading) :
      Step s .abortReader { s with reader := .ended } [.readerEnded]
  | handing {source : Option Ref} {msg : Message} {rest : List (Option Ref × Message)}
      (hWaiting : s.writer = .waiting) (hOutbox : s.outbox = (source, msg) :: rest) :
      Step s .hand { s with writer := .sending, outbox := rest } [.handed source msg]
  | handed (hSending : s.writer = .sending) : Step s .handed { s with writer := .waiting } []
  | sinkFailed (hSending : s.writer = .sending) :
      Step s .sinkFail { s with writer := .ended, outbox := [] } []
  | writerAborted (hAborted : s.writerAborted = true) (hRunning : s.writer ≠ .ended) :
      Step s .abortWriter { s with writer := .ended, outbox := [] } []
  | closing {closer : Nat} (hReady : s.closers closer = .ready) :
      Step s (.close closer) ({ s with registry := ∅ }.setCloser closer (.marking s.registered))
        [.drained s.registered]
  | closeMarked {closer : Nat} {ref : Ref} {refs : List Ref} (hMarking : s.closers closer = .marking refs)
      (hMember : ref ∈ refs) :
      Step s (.closeMark closer ref) ((s.mark ref).setCloser closer (.marking (refs.erase ref))) []
  | readerStopped {closer : Nat} (hMarking : s.closers closer = .marking []) :
      Step s (.closeAbortReader closer) { s.setCloser closer .stopping with readerAborted := true } []
  | writerStopped {closer : Nat} (hStopping : s.closers closer = .stopping) :
      Step s (.closeAbortWriter closer) { s.setCloser closer .done with writerAborted := true } []

theorem step_cases {s s' : Session} {action : Action} {events : List Event}
    (h : s.step action = some (s', events)) : s.Step action s' events := by
  cases action with
  | openStream service =>
      simp only [step] at h
      split at h <;> cases h
      exact .opened ‹_›
  | call ref call =>
      simp only [step] at h
      split at h
      · obtain ⟨p, hBegin, hPair⟩ := Option.map_eq_some_iff.mp h
        cases hPair
        exact .called ‹_› hBegin
      · cases h
  | advance ref =>
      obtain ⟨p, hAdvance, hPair⟩ := Option.map_eq_some_iff.mp h
      cases hPair
      exact .advanced hAdvance
  | cancel ref =>
      obtain ⟨p, hCancel, hPair⟩ := Option.map_eq_some_iff.mp h
      obtain ⟨hState, hEvents⟩ := Prod.mk.inj hPair
      have hNone : (s.perform ref p).2 = [] := by
        unfold Owner.cancel at hCancel
        split at hCancel <;> cases hCancel <;> rfl
      rw [← hState, ← hEvents, hNone]
      exact .cancelled hCancel
  | arrive msg =>
      simp only [step] at h
      split at h <;> cases h
      exact .arrived ‹_›
  | fail =>
      simp only [step, readerStep] at h
      split at h <;> cases h
      exact .failed ‹_›
  | drain =>
      simp only [step, readerStep] at h
      split at h <;> cases h
      exact .drained ‹_›
  | mark ref =>
      simp only [step, readerStep] at h
      split at h
      · split at h <;> cases h
        exact .marked ‹_› ‹_›
      · cases h
  | finish =>
      simp only [step, readerStep] at h
      split at h <;> cases h
      exact .finished ‹_›
  | abortReader =>
      simp only [step, readerStep] at h
      split at h <;> cases h
      rename_i hAborted
      exact .readerAborted hAborted.1 hAborted.2
  | hand =>
      simp only [step, writerStep] at h
      split at h
      · cases h
        exact .handing ‹_› ‹_›
      · cases h
  | handed =>
      simp only [step, writerStep] at h
      split at h <;> cases h
      exact .handed ‹_›
  | sinkFail =>
      simp only [step, writerStep] at h
      split at h <;> cases h
      exact .sinkFailed ‹_›
  | abortWriter =>
      simp only [step, writerStep] at h
      split at h <;> cases h
      rename_i hAborted
      exact .writerAborted hAborted.1 hAborted.2
  | close closer =>
      simp only [step, closerStep] at h
      split at h <;> cases h
      exact .closing ‹_›
  | closeMark closer ref =>
      simp only [step, closerStep] at h
      split at h
      · split at h <;> cases h
        exact .closeMarked ‹_› ‹_›
      · cases h
  | closeAbortReader closer =>
      simp only [step, closerStep] at h
      split at h <;> cases h
      exact .readerStopped ‹_›
  | closeAbortWriter closer =>
      simp only [step, closerStep] at h
      split at h <;> cases h
      exact .writerStopped ‹_›

section

variable {s s' : Session} {ref : Ref} {events : List Event}

theorem step_call {call : StreamCall} (h : s.step (.call ref call) = some (s', events)) :
    s.owners ref = .idle ∧ ∃ p, Owner.begin (s.streams ref) call = some p ∧
      s' = (s.perform ref p).1 ∧ events = Session.events ref p := by
  cases step_cases h with
  | called hIdle hBegin => exact ⟨hIdle, _, hBegin, rfl, rfl⟩

theorem step_advance (h : s.step (.advance ref) = some (s', events)) :
    ∃ p, (s.owners ref).advance s.maxPayload s.outboxOpen (s.streams ref) = some p ∧
      s' = (s.perform ref p).1 ∧ events = Session.events ref p := by
  cases step_cases h with
  | advanced hAdvance => exact ⟨_, hAdvance, rfl, rfl⟩

theorem step_cancel (h : s.step (.cancel ref) = some (s', events)) :
    ∃ p, (s.owners ref).cancel (s.streams ref) = some p ∧ s' = (s.perform ref p).1 ∧
      events = [.cancelled ref] := by
  cases step_cases h with
  | cancelled hCancel => exact ⟨_, hCancel, rfl, rfl⟩

end

end Rsadb.Session
