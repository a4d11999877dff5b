import Rsadb.Session.Custody

/-! The outbox. What the writer hands to the transport is what was posted, in
order: all of it, but for what waits and for what a writer that ended dropped. -/
namespace Rsadb

/-- What an event adds to the outbox. -/
def Event.post : Event → Option (Option Ref × Message)
  | .posted source msg => some (source, msg)
  | _ => none

/-- What an event hands to the transport. -/
def Event.hand : Event → Option (Option Ref × Message)
  | .handed source msg => some (source, msg)
  | _ => none

/-- Everything posted so far, with the streams whose owners posted it. -/
def posts (trace : List Event) : List (Option Ref × Message) := trace.filterMap Event.post

/-- Everything handed to the transport so far. -/
def hands (trace : List Event) : List (Option Ref × Message) := trace.filterMap Event.hand

@[simp] theorem posts_append (trace events : List Event) :
    posts (trace ++ events) = posts trace ++ posts events :=
  List.filterMap_append

@[simp] theorem hands_append (trace events : List Event) :
    hands (trace ++ events) = hands trace ++ hands events :=
  List.filterMap_append

theorem mem_posts {trace : List Event} {source : Option Ref} {msg : Message} :
    (source, msg) ∈ posts trace ↔ .posted source msg ∈ trace := by
  rw [posts, List.mem_filterMap]
  constructor
  · rintro ⟨event, hMember, hPost⟩
    cases event <;> cases hPost
    exact hMember
  · exact fun hMember => ⟨_, hMember, rfl⟩

theorem mem_hands {trace : List Event} {source : Option Ref} {msg : Message} :
    (source, msg) ∈ hands trace ↔ .handed source msg ∈ trace := by
  rw [hands, List.mem_filterMap]
  constructor
  · rintro ⟨event, hMember, hHand⟩
    cases event <;> cases hHand
    exact hMember
  · exact fun hMember => ⟨_, hMember, rfl⟩

namespace Session

/-- Who posts a message: the reader a close without payload, an owner what its move posts. -/
def Posts (s : Session) : Option Ref → Message → Prop
  | none, msg => ∃ arg0 arg1, msg = .empty .close arg0 arg1
  | some ref, msg => ∃ p, Move s.maxPayload true (s.streams ref) (s.owners ref) p ∧ p.effect = .post msg

/-- What a step does to the outbox: nothing, or it queues one message, hands over
what is first, or drops all together with the writer. -/
inductive OutboxStep (s : Session) : List Event → Session → Prop
  | quiet {s' : Session} {events : List Event} (hPosts : posts events = []) (hHands : hands events = [])
      (hOutbox : s'.outbox = s.outbox) (hWriter : s'.writer = .ended ↔ s.writer = .ended) :
      OutboxStep s events s'
  | posted {s' : Session} {events : List Event} {source : Option Ref} {msg : Message}
      (hPosts : posts events = [(source, msg)]) (hHands : hands events = [])
      (hOutbox : s'.outbox = s.outbox ++ [(source, msg)]) (hBefore : s.writer ≠ .ended)
      (hAfter : s'.writer ≠ .ended) (hSource : s.Posts source msg) : OutboxStep s events s'
  | handed {s' : Session} {source : Option Ref} {msg : Message}
      (hOutbox : s.outbox = (source, msg) :: s'.outbox) (hBefore : s.writer ≠ .ended)
      (hAfter : s'.writer ≠ .ended) : OutboxStep s [.handed source msg] s'
  | dropped {s' : Session} (hOutbox : s'.outbox = []) (hWriter : s'.writer = .ended) :
      OutboxStep s [] s'

/-- An owner posts only while the writer takes messages. -/
theorem Move.post_open {maxPayload : UInt32} {outboxOpen : Bool} {state : StreamState}
    {owner : Owner} {p : OwnerStep} (h : Move maxPayload outboxOpen state owner p) {msg : Message}
    (hEffect : p.effect = .post msg) : outboxOpen = true := by
  cases h with
  | requested hOpen | acknowledged hOpen | wrote hOpen => exact hOpen
  | parted | left => cases outboxOpen <;> simp [Owner.leave] at hEffect ⊢
  | _ => simp [Owner.leave] at hEffect

private theorem perform_outbox {s : Session} {ref : Ref} {p : OwnerStep}
    (hPosts : ∀ msg, p.effect = .post msg → s.writer ≠ .ended ∧ s.Posts (some ref) msg) :
    OutboxStep s (s.perform ref p).2 (s.perform ref p).1 := by
  have hReports : ∀ reports : List Report, posts (reports.map (Event.owner ref)) = [] ∧
      hands (reports.map (Event.owner ref)) = [] := fun reports => by
    induction reports with
    | nil => exact ⟨rfl, rfl⟩
    | cons report rest ih => exact ih
  obtain ⟨hNoPosts, hNoHands⟩ := hReports p.reports
  have hHands : hands (events ref p) = [] := by
    unfold events
    rw [hands_append, hNoHands]
    cases p.effect <;> rfl
  cases hEffect : p.effect with
  | post msg =>
      obtain ⟨hRunning, hSource⟩ := hPosts msg hEffect
      refine .posted ?_ hHands ?_ hRunning ?_ hSource
      · simp only [perform, events, hEffect, posts_append, hNoPosts]
        rfl
      · simp [perform, setStream, setOwner, hEffect]
      · rwa [(perform_frame s ref p).2.1]
  | nothing | insert | remove =>
      refine .quiet ?_ hHands ?_ ?_
      · simp only [perform, events, hEffect, posts_append, hNoPosts]
        rfl
      · simp [perform, setStream, setOwner, hEffect]
      · simp [perform, setStream, setOwner, hEffect]

/-- Every step does one of the four. -/
theorem step_outbox {s s' : Session} {action : Action} {events : List Event}
    (h : s.step action = some (s', events)) : OutboxStep s events s' := by
  cases step_cases h with
  | called hIdle hBegin =>
      refine perform_outbox fun msg hEffect => ?_
      rw [Owner.begin_effect hBegin] at hEffect
      cases hEffect
  | @advanced ref p hAdvance =>
      refine perform_outbox fun msg hEffect => ?_
      have hMove := Owner.advance_move hAdvance
      have hOpen := Move.post_open hMove hEffect
      rw [hOpen] at hMove
      exact ⟨by simpa [outboxOpen] using hOpen, p, hMove, hEffect⟩
  | @cancelled ref p hCancel =>
      obtain ⟨-, -, hEffect, -⟩ := Owner.cancel_born hCancel
      exact .quiet rfl rfl (by simp [perform, setStream, setOwner, hEffect])
        (by simp [perform, setStream, setOwner, hEffect])
  | @arrived msg =>
      have hRouted := route_routed s msg
      generalize (s.route msg).1 = after at hRouted ⊢
      generalize (s.route msg).2 = more at hRouted ⊢
      cases hRouted with
      | refused hCommand hDeliver hOpen =>
          have hRunning : s.writer ≠ .ended := by simpa [outboxOpen] using hOpen
          exact .posted rfl rfl rfl hRunning hRunning ⟨_, _, rfl⟩
      | _ => exact .quiet rfl rfl rfl Iff.rfl
  | handing hWaiting hOutbox => exact .handed hOutbox (by simp [hWaiting]) (by simp)
  | handed hSending => exact .quiet rfl rfl rfl (by simp [hSending])
  | sinkFailed | writerAborted => exact .dropped rfl rfl
  | _ => exact .quiet rfl rfl rfl Iff.rfl

/-- Nothing is posted once the writer has ended, and it stays so. -/
theorem writer_of_posted {s s' : Session} {action : Action} {events : List Event}
    (h : s.step action = some (s', events)) {source : Option Ref} {msg : Message}
    (hPosted : .posted source msg ∈ events) : s.writer ≠ .ended := by
  have hMember := mem_posts.mpr hPosted
  cases step_outbox h with
  | quiet hPosts => simp [hPosts] at hMember
  | posted _ _ _ hBefore => exact hBefore
  | handed => simp at hPosted
  | dropped => simp at hPosted

theorem writer_ended {s s' : Session} {action : Action} {events : List Event}
    (h : s.step action = some (s', events)) (hEnded : s.writer = .ended) : s'.writer = .ended := by
  cases step_outbox h with
  | quiet _ _ _ hWriter => exact hWriter.mpr hEnded
  | posted _ _ _ hBefore | handed _ hBefore => exact absurd hEnded hBefore
  | dropped _ hWriter => exact hWriter

variable {allowed : List Event → Session → Action → Prop} {maxPayload : UInt32}

/-- What was handed over and what is queued are what was posted, until the writer ends. -/
theorem outbox_of_runs {trace : List Event} {s : Session}
    (h : Transition.Runs step allowed (start maxPayload) trace s) :
    hands trace ++ s.outbox <+: posts trace ∧
      (s.writer ≠ .ended → hands trace ++ s.outbox = posts trace) := by
  induction h with
  | start => exact ⟨List.prefix_rfl, fun _ => rfl⟩
  | next _ _ hTaken ih =>
      obtain ⟨hPrefix, hSame⟩ := ih
      cases step_outbox hTaken with
      | quiet hPosts hHands hOutbox hWriter =>
          rw [hands_append, posts_append, hPosts, hHands, hOutbox, List.append_nil, List.append_nil]
          exact ⟨hPrefix, fun hRunning => hSame fun hEnded => hRunning (hWriter.mpr hEnded)⟩
      | posted hPosts hHands hOutbox hBefore =>
          rw [hands_append, posts_append, hPosts, hHands, hOutbox, List.append_nil,
            ← List.append_assoc, hSame hBefore]
          exact ⟨List.prefix_rfl, fun _ => rfl⟩
      | handed hOutbox hBefore =>
          have hNow := hSame hBefore
          rw [hOutbox] at hNow
          rw [posts_append, hands_append, show posts [Event.handed _ _] = [] from rfl,
            List.append_nil, List.append_assoc, ← hNow]
          exact ⟨List.prefix_rfl, fun _ => rfl⟩
      | dropped hOutbox hWriter =>
          rw [List.append_nil, hOutbox, List.append_nil]
          exact ⟨(List.prefix_append _ _).trans hPrefix, fun hRunning => absurd hWriter hRunning⟩

/-- Nothing is handed to the transport that was not posted. -/
theorem posted_of_handed {trace : List Event} {s : Session}
    (h : Transition.Runs step allowed (start maxPayload) trace s) {source : Option Ref}
    {msg : Message} (hHanded : .handed source msg ∈ trace) : .posted source msg ∈ trace := by
  have hPrefix := (List.prefix_append _ _).trans (outbox_of_runs h).1
  exact mem_posts.mp (hPrefix.subset (mem_hands.mpr hHanded))

/-- A law that every message obeys which a reachable state posts holds of all that was posted. -/
theorem posted_of_runs {Law : Option Ref → Message → Prop}
    (hLaw : ∀ {trace s source msg}, Transition.Runs step allowed (start maxPayload) trace s →
      s.Posts source msg → Law source msg)
    {trace : List Event} {s : Session}
    (h : Transition.Runs step allowed (start maxPayload) trace s) {source : Option Ref} {msg : Message}
    (hPosted : .posted source msg ∈ trace) : Law source msg := by
  induction h with
  | start => simp at hPosted
  | next hRun _ hTaken ih =>
      rcases List.mem_append.mp hPosted with hEarlier | hNow
      · exact ih hEarlier
      · have hMember := mem_posts.mpr hNow
        cases step_outbox hTaken with
        | quiet hPosts => simp [hPosts] at hMember
        | posted hPosts hHands hOutbox hBefore hAfter hSource =>
            rw [hPosts, List.mem_singleton, Prod.mk.injEq] at hMember
            rw [hMember.1, hMember.2]
            exact hLaw hRun hSource
        | handed => simp at hNow
        | dropped => simp at hNow

end Session
end Rsadb
