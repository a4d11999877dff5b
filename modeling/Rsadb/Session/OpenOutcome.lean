import Rsadb.Session.Refusal

/-! When `ServiceRefused` is the device's answer. A `close_all` that marks a
stream whose open is still undecided makes it look refused. -/
namespace Rsadb

/-- The closed flag would decide the open: nothing is counted that could, or the
owner has just looked at the count. -/
def Owner.Exposed (outboxOpen : Bool) (acks : UInt64) : Owner → Prop
  | .inserting _ | .posting _ => outboxOpen = true ∧ acks = 0
  | .waiting (.opening _) _ .closed => True
  | .waiting (.opening _) _ .acks | .waiting (.opening _) _ .parked => acks = 0
  | _ => False

/-- The owner of a pending open has looked at the count and looks at the flag next. -/
def Owner.Checks : Owner → Prop
  | .waiting (.opening _) _ .closed => True
  | _ => False

instance (outboxOpen : Bool) (acks : UInt64) (owner : Owner) : Decidable (owner.Exposed outboxOpen acks) := by
  rcases owner with _ | _ | _ | ⟨_ | _, _, _ | _ | _⟩ | _ | _ | _ | _ | _ | _ | _ | _ | _ | _ | _ <;>
    first
      | exact isTrue trivial
      | exact isFalse not_false
      | exact inferInstanceAs (Decidable (_ = _))
      | exact inferInstanceAs (Decidable (_ ∧ _))

instance (owner : Owner) : Decidable owner.Checks := by
  rcases owner with _ | _ | _ | ⟨_ | _, _, _ | _ | _⟩ | _ | _ | _ | _ | _ | _ | _ | _ | _ | _ | _ <;>
    first | exact isTrue trivial | exact isFalse not_false

/-- What is known of the open where its owner stands. -/
def Decided (ended : Prop) (refused : Bytes → Prop) (state : StreamState) : Owner → Prop
  | .inserting _ | .posting _ => state.closed = true → state.acks ≠ 0 ∨ ended
  | .waiting (.opening service) seen .closed => seen = 0 ∧ (state.closed = true → refused service)
  | .waiting (.opening service) seen .acks | .waiting (.opening service) seen .parked =>
      seen = 0 ∧ (state.closed = true → state.acks ≠ 0 ∨ refused service)
  | .judging _ => state.acks ≠ 0
  | .refusing service => refused service
  | _ => True

/-- While an open has not returned, its count says whether the device acknowledged
it, and the closed flag without a count that the device refused it. -/
structure Verdict (ended : Prop) (refused : Bytes → Prop) (l : Ledger) (state : StreamState)
    (owner : Owner) : Prop where
  unanswered : owner.Opening → state.acks = 0 → l.okays = 0
  named : owner.Opening → state.acks ≠ 0 → state.remote ≠ none
  decided : Decided ended refused state owner

theorem Decided.mono {ended ended' : Prop} {refused refused' : Bytes → Prop} {state : StreamState}
    {owner : Owner} (h : Decided ended refused state owner) (hEnded : ended → ended')
    (hRefused : ∀ service, refused service → refused' service) : Decided ended' refused' state owner := by
  cases owner with
  | inserting | posting => exact fun hClosed => (h hClosed).imp_right hEnded
  | waiting purpose seen stage =>
      cases purpose with
      | writing => trivial
      | opening service =>
          cases stage with
          | closed => exact ⟨h.1, fun hClosed => hRefused _ (h.2 hClosed)⟩
          | acks | parked => exact ⟨h.1, fun hClosed => (h.2 hClosed).imp_right (hRefused _)⟩
  | judging => exact h
  | refusing => exact hRefused _ h
  | _ => trivial

/-- An OKAY that is counted changes nothing about it. -/
theorem Decided.acked {ended : Prop} {refused : Bytes → Prop} {state state' : StreamState} {owner : Owner}
    (h : Decided ended refused state owner) (hClosed : state'.closed = state.closed)
    (hCount : owner.Opening → state'.acks ≠ 0) : Decided ended refused state' owner := by
  cases owner with
  | inserting | posting => exact fun _ => Or.inl (hCount trivial)
  | waiting purpose seen stage =>
      cases purpose with
      | writing => trivial
      | opening service =>
          cases stage with
          | closed => exact ⟨h.1, fun hShut => h.2 (hClosed ▸ hShut)⟩
          | acks | parked => exact ⟨h.1, fun _ => Or.inl (hCount trivial)⟩
  | judging => exact hCount trivial
  | refusing => exact h
  | _ => trivial

/-- The flag may be set once the count speaks for the open, or what sets it does. -/
theorem Decided.shut {ended : Prop} {refused : Bytes → Prop} {state state' : StreamState} {owner : Owner}
    (h : Decided ended refused state owner) (hAcks : state'.acks = state.acks)
    (hEarly : ∀ service, owner = .inserting service ∨ owner = .posting service → state.acks = 0 → ended)
    (hAnswer : ∀ service seen stage, owner = .waiting (.opening service) seen stage →
      state.acks = 0 ∨ stage = .closed → refused service) : Decided ended refused state' owner := by
  have hCounted : ∀ other : Prop, (state.acks = 0 → other) → state'.acks ≠ 0 ∨ other := by
    intro other hOther
    rw [hAcks]
    exact or_iff_not_imp_left.mpr fun hNone => hOther (not_not.mp hNone)
  cases owner with
  | inserting service => exact fun _ => hCounted _ (hEarly service (Or.inl rfl))
  | posting service => exact fun _ => hCounted _ (hEarly service (Or.inr rfl))
  | waiting purpose seen stage =>
      cases purpose with
      | writing => trivial
      | opening service =>
          have hRefused := hAnswer service seen stage rfl
          cases stage with
          | closed => exact ⟨h.1, fun _ => hRefused (Or.inr rfl)⟩
          | acks | parked => exact ⟨h.1, fun _ => hCounted _ fun hNone => hRefused (Or.inl hNone)⟩
  | judging => exact fun hNone => h (hAcks ▸ hNone)
  | refusing => exact h
  | _ => trivial

/-- A move keeps the verdict. -/
theorem Move.verdict {maxPayload : UInt32} {outboxOpen : Bool} {state : StreamState} {owner : Owner}
    {p : OwnerStep} (h : Move maxPayload outboxOpen state owner p) {ended : Prop}
    {refused : Bytes → Prop} {l : Ledger} (hVerdict : Verdict ended refused l state owner)
    (hWriter : ∀ msg, p.effect = .post msg → ¬ended) : Verdict ended refused (l.enter p) p.state p.owner := by
  obtain ⟨hUnanswered, hNamed, hDecided⟩ := hVerdict
  suffices hOpening : (p.owner.Opening → owner.Opening) ∧ p.state.remote = state.remote ∧
      Decided ended refused p.state p.owner by
    refine ⟨fun hNow => ?_, fun hNow => ?_, hOpening.2.2⟩
    · rw [h.acks, (l.enter_frame p).1]
      exact hUnanswered (hOpening.1 hNow)
    · rw [h.acks, hOpening.2.1]
      exact hNamed (hOpening.1 hNow)
  cases h with
  | inserted => exact ⟨fun _ => trivial, rfl, hDecided⟩
  | requested hOpen =>
      refine ⟨fun _ => trivial, rfl, rfl, fun hClosed => ?_⟩
      exact Or.inl ((hDecided hClosed).resolve_right (hWriter _ rfl))
  | @answered _ seen hAcks =>
      refine ⟨fun _ => trivial, rfl, fun hNone => ?_⟩
      change state.acks = 0 at hNone
      rw [hNone] at hAcks
      exact UInt64.not_lt.mpr UInt64.zero_le hAcks
  | @unanswered purpose seen hAcks =>
      cases purpose with
      | writing => exact ⟨fun h => h.elim, rfl, trivial⟩
      | opening service =>
          obtain ⟨rfl, hKnown⟩ := hDecided
          refine ⟨fun _ => trivial, rfl, rfl, fun hClosed => (hKnown hClosed).resolve_left fun hSome => ?_⟩
          exact hAcks (UInt64.pos_iff_ne_zero.mpr hSome)
  | turnedDown hClosed => exact ⟨fun _ => trivial, rfl, hDecided.2 hClosed⟩
  | @parked purpose seen hOpen =>
      cases purpose with
      | writing => exact ⟨fun h => h.elim, rfl, trivial⟩
      | opening service =>
          refine ⟨fun _ => trivial, rfl, hDecided.1, fun hClosed => ?_⟩
          rw [show state.closed = true from hClosed] at hOpen
          cases hOpen
  | @woken purpose =>
      cases purpose with
      | writing => exact ⟨fun h => h.elim, rfl, trivial⟩
      | opening service => exact ⟨fun _ => trivial, rfl, hDecided⟩
  | nameless hRemote => exact absurd hRemote (hNamed trivial hDecided)
  | _ => exact ⟨fun h => h.elim, rfl, trivial⟩

namespace Session

/-- No `close_all` marks a stream while the flag would decide its open. The first
OKAY of a pending open names its sender, and the count does not wrap meanwhile.
A CLSE comes to a pending open only once its OPEN was handed over, and not
between the owner's look at the count and at the flag when there is a count. -/
def Undisturbed (trace : List Event) (s : Session) : Action → Prop
  | .mark ref | .closeMark _ ref => ¬(s.owners ref).Exposed s.outboxOpen (s.streams ref).acks
  | .arrive msg => ∀ ref ∈ s.get msg.arg1, (s.owners ref).Opening →
      (msg.command = .okay → ((s.streams ref).remote = none → msg.arg0 ≠ 0) ∧
        (s.streams ref).acks + 1 ≠ 0) ∧
      (msg.command = .close → (ledger ref trace).handed ≠ [] ∧
        ((s.owners ref).Checks → (s.streams ref).acks = 0))
  | _ => True

instance (trace : List Event) (s : Session) (action : Action) :
    Decidable (Undisturbed trace s action) := by
  rcases action <;> unfold Undisturbed <;> infer_instance

/-- The OPEN of a pending open that was handed over is all that was. -/
private theorem handed_open {allowed : List Event → Session → Action → Prop} {maxPayload : UInt32}
    {trace : List Event} {s : Session}
    (hRun : Transition.Runs step allowed (start maxPayload) trace s) {ref : Ref} {id : UInt32}
    {service : Bytes} (hTarget : s.get id = some ref)
    (hPosted : (ledger ref trace).posted = [⟨.open, (s.streams ref).localId, 0, service ++ [0]⟩])
    (hHanded : (ledger ref trace).handed ≠ []) :
    (ledger ref trace).handed = [⟨.open, id, 0, service ++ [0]⟩] := by
  have hPrefix := handed_of_posted hRun ref
  rw [hPosted, (named_of_runs hRun).1.names id ref hTarget] at hPrefix
  rcases List.prefix_cons_iff.mp hPrefix with hNone | ⟨rest, hRest, hNil⟩
  · exact absurd hNone hHanded
  · rw [hRest, List.prefix_nil.mp hNil]

/-- A sender that names itself is adopted, unless another one was before. -/
private theorem ack_remote {state : StreamState} {remoteId : UInt32}
    (hNamed : state.remote = none → remoteId ≠ 0) : (state.ack remoteId).remote ≠ none := by
  cases hRemote : state.remote with
  | none =>
      have hAdopted : (state.ack remoteId).remoteId = remoteId := if_pos hRemote
      rw [StreamState.remote, hAdopted, if_neg (hNamed hRemote)]
      simp
  | some remote =>
      rw [(StreamState.Follows.ack state remoteId).remote remote hRemote]
      simp

/-- A message that arrives is the first event of its step. -/
private theorem arrive_events {s s' : Session} {msg : Message} {events : List Event}
    (h : s.step (.arrive msg) = some (s', events)) :
    ∃ more, events = .dispatched msg (s.get msg.arg1) :: more := by
  cases step_cases h
  exact ⟨_, rfl⟩

/-- A mark that nobody can mistake for an answer decides nothing. -/
private theorem decided_marked {s s' : Session} {ref : Ref} {refused : Bytes → Prop}
    (h : Decided (s'.writer = .ended) refused (s.streams ref) (s.owners ref))
    (hEnded : s.writer = .ended → s'.writer = .ended)
    (hHidden : ¬(s.owners ref).Exposed s.outboxOpen (s.streams ref).acks) :
    Decided (s'.writer = .ended) refused (s.streams ref).markClosed (s.owners ref) := by
  refine h.shut rfl ?_ ?_
  · intro service hOwner hNone
    apply hEnded
    by_contra hRunning
    have hOpen : s.outboxOpen = true := by simpa [outboxOpen] using hRunning
    rcases hOwner with hOwner | hOwner
    · exact hHidden (hOwner ▸ ⟨hOpen, hNone⟩)
    · exact hHidden (hOwner ▸ ⟨hOpen, hNone⟩)
  · intro service seen stage hOwner hKnown
    rw [hOwner] at hHidden
    cases stage with
    | closed => exact absurd trivial hHidden
    | acks | parked => exact absurd (hKnown.resolve_right (by decide)) hHidden

/-- A CLSE from the device refuses an open that it has not accepted. -/
private theorem verdict_ended {maxPayload : UInt32} {trace events : List Event} {s s' : Session} {ref : Ref}
    {msg : Message} (hRun : Transition.Runs step Undisturbed (start maxPayload) trace s)
    (h : Verdict (s.writer = .ended) (Refused ref · trace) (ledger ref trace) (s.streams ref) (s.owners ref))
    (hSame : Decided (s'.writer = .ended) (Refused ref · (trace ++ events)) (s.streams ref) (s.owners ref))
    (hAllowed : Undisturbed trace s (.arrive msg)) (hTaken : s.step (.arrive msg) = some (s', events))
    (hCommand : msg.command = .close) (hTarget : s.get msg.arg1 = some ref) :
    Verdict (s'.writer = .ended) (Refused ref · (trace ++ events)) (ledger ref trace)
      (s.streams ref).markClosed (s.owners ref) := by
  have hSaid := said_of_runs hRun ref
  obtain ⟨hUnanswered, hNamed, -⟩ := id h
  obtain ⟨more, hEvents⟩ := arrive_events hTaken
  rw [hTarget] at hEvents
  have hGuard : (s.owners ref).Opening → _ := fun hOpening => (hAllowed ref hTarget hOpening).2 hCommand
  refine ⟨hUnanswered, hNamed, hSame.shut rfl ?_ ?_⟩
  · -- The device has not seen the OPEN, so it has not answered it.
    intro service hOwner _
    have hNothing : (ledger ref trace).posted = [] ∧ (s.owners ref).Opening := by
      rcases hOwner with hOwner | hOwner
      · rw [hOwner] at hSaid ⊢
        exact ⟨hSaid, trivial⟩
      · rw [hOwner] at hSaid ⊢
        exact ⟨hSaid, trivial⟩
    have hPrefix := handed_of_posted hRun ref
    rw [hNothing.1, List.prefix_nil] at hPrefix
    exact absurd hPrefix (hGuard hNothing.2).1
  · -- A CLSE that comes when nothing is counted is the device's refusal.
    intro service seen stage hOwner hKnown
    rw [hOwner] at hGuard hSaid hUnanswered
    have hNone : (s.streams ref).acks = 0 := by
      rcases hKnown with hNone | rfl
      · exact hNone
      · exact (hGuard trivial).2 trivial
    exact ⟨trace, msg, more, by rw [hEvents], hCommand,
      handed_open hRun hTarget hSaid (hGuard trivial).1, hUnanswered trivial hNone⟩

/-- Undisturbed, every open is decided by what the device answered. -/
theorem verdict_of_runs {maxPayload : UInt32} {trace : List Event} {s : Session}
    (hRun : Transition.Runs step Undisturbed (start maxPayload) trace s) (ref : Ref) :
    Verdict (s.writer = .ended) (Refused ref · trace) (ledger ref trace) (s.streams ref)
      (s.owners ref) := by
  induction hRun with
  | start => exact ⟨fun _ _ => rfl, fun _ h => absurd rfl h, trivial⟩
  | @next trace s s' action events hRun hAllowed hTaken ih =>
      have hStep := step_account (named_of_runs hRun).1 hTaken ref trace
      have hEnded : s.writer = .ended → s'.writer = .ended := writer_ended hTaken
      have hRefused : ∀ service, Refused ref service trace → Refused ref service (trace ++ events) :=
        fun service h => h.append events
      generalize hLedger : ledger ref (trace ++ events) = l' at hStep
      generalize s'.streams ref = state at hStep
      generalize s'.owners ref = owner at hStep
      have hCounted := counted_of_runs hRun ref
      obtain ⟨hUnanswered, hNamed, hDecided⟩ := id ih
      have hSame := hDecided.mono hEnded hRefused
      cases hStep with
      | same | delivered | refused | handed => exact ⟨hUnanswered, hNamed, hSame⟩
      | born hUnborn =>
          exact ⟨fun _ _ => hCounted.unborn hUnborn, fun _ h => absurd rfl h, fun h => Bool.noConfusion h⟩
      | moved hMove hWriter =>
          have hAfter := hMove.verdict ih hWriter
          exact ⟨hAfter.unanswered, hAfter.named, hAfter.decided.mono hEnded hRefused⟩
      | cancelled hCancel =>
          rcases Owner.cancel_purpose hCancel with ⟨service, seen, -, rfl⟩ | ⟨rest, seen, -, rfl⟩ <;>
            exact ⟨fun h => h.elim, fun h => h.elim, trivial⟩
      | acked hCommand hAction hTarget =>
          subst hAction
          have hGuard : (s.owners ref).Opening → _ := fun hOpening =>
            (hAllowed ref hTarget hOpening).1 hCommand
          exact ⟨fun hOpening hNone => absurd hNone (hGuard hOpening).2,
            fun hOpening _ => ack_remote (hGuard hOpening).1,
            hSame.acked rfl fun hOpening => (hGuard hOpening).2⟩
      | ended hCommand hAction hTarget =>
          subst hAction
          exact verdict_ended hRun ih hSame hAllowed hTaken hCommand hTarget
      | marked hAction =>
          have hHidden : ¬(s.owners ref).Exposed s.outboxOpen (s.streams ref).acks := by
            cases action <;> cases hAction <;> exact hAllowed
          exact ⟨hUnanswered, hNamed, decided_marked hSame hEnded hHidden⟩

variable {maxPayload : UInt32} {trace : List Event} {s : Session}

/-- An open fails with the refusal out of `refusing`, and otherwise when the writer is gone. -/
private theorem open_failed {outboxOpen : Bool} {state : StreamState} {owner : Owner} {p : OwnerStep}
    (h : Move maxPayload outboxOpen state owner p) {e : Error}
    (hReport : .returned (.openFailed e) ∈ p.reports) :
    (∃ service, owner = .refusing service ∧ e = .serviceRefused service ∧
      p.effect = .remove ∧ p.reports = [.returned (.openFailed e)]) ∨ e = .disconnected := by
  cases h with
  | unrequested =>
      cases List.mem_singleton.mp hReport
      exact Or.inr rfl
  | refused =>
      cases List.mem_singleton.mp hReport
      exact Or.inl ⟨_, rfl, rfl, rfl, rfl⟩
  | _ => simp [Owner.leave] at hReport

/-- Undisturbed, an open that fails was refused by the device or had no writer. -/
private theorem failed_of_runs (hRun : Transition.Runs step Undisturbed (start maxPayload) trace s)
    (ref : Ref) : ∀ before entry after, trace = before ++ entry :: after → ∀ e,
      entry = .owner ref (.returned (.openFailed e)) →
      (∃ service, e = .serviceRefused service ∧ Refused ref service before) ∨ e = .disconnected := by
  refine hRun.law ?_
  rintro trace s action s' events hRun - hTaken middle entry after hSplit e rfl
  have hMember : .owner ref (.returned (.openFailed e)) ∈ events := by simp [hSplit]
  obtain ⟨outboxOpen, p, hMove, hEvents, -, -, hReport⟩ :=
    step_reported (named_of_runs hRun).1 hTaken hMember
  rcases open_failed hMove hReport with ⟨service, hOwner, hError, hEffect, hReports⟩ | hError
  · rw [hEvents, Session.events, hEffect, hReports] at hSplit
    obtain ⟨rfl, -⟩ := Trace.split_singleton hSplit
    have hVerdict := (verdict_of_runs hRun ref).decided
    rw [hOwner] at hVerdict
    rw [List.append_nil]
    exact Or.inl ⟨service, hError, hVerdict⟩
  · exact Or.inr hError

/-- What `open_stream` returns. Undisturbed, an open that fails was refused by the
device, and then fails with `ServiceRefused`, or the writer was gone, and then it
fails with `Disconnected`. In any case an open that the device refuses returns
nothing but `ServiceRefused`, in at most four steps of its own from wherever it
stands. -/
theorem open_outcome (hRun : Transition.Runs step Undisturbed (start maxPayload) trace s) (ref : Ref) :
    (∀ before after e, trace = before ++ .owner ref (.returned (.openFailed e)) :: after →
      (∃ service, e = .serviceRefused service ∧ Refused ref service before) ∨
      (e = .disconnected ∧ ∀ service, ¬Refused ref service before)) ∧
    ∀ service, Refused ref service trace →
      (∀ before after result, trace = before ++ .owner ref (.returned result) :: after →
        Refused ref service before → result = .openFailed (.serviceRefused service)) ∧
      ((s.owners ref).Alive → ∃ n trace' s', n ≤ 4 ∧
        Transition.execute step (fun _ _ _ => True) trace s (List.replicate n (.advance ref)) =
          some (trace', s') ∧
        .owner ref (.returned (.openFailed (.serviceRefused service))) ∈ trace') := by
  refine ⟨fun before after e hSplit => ?_, fun service hRefused => ⟨?_, fun hAlive => ?_⟩⟩
  · have hReturned := @returned_of_refused _ _ _ _ hRun ref
    rcases failed_of_runs hRun ref before _ after hSplit e rfl with hAnswer | hGone
    · exact Or.inl hAnswer
    · refine Or.inr ⟨hGone, fun service hRefused => ?_⟩
      have hResult := hReturned before _ after hSplit _ rfl hRefused
      rw [hGone] at hResult
      cases hResult
  · intro before after result hSplit hBefore
    exact returned_of_refused hRun before _ after hSplit result rfl hBefore
  · obtain ⟨-, hSentenced⟩ := doomed_of_refused hRun hRefused
    obtain ⟨n, hPace, hFew⟩ := hSentenced.pace hAlive
    obtain ⟨trace', s', hExecute, hReturned⟩ := sentenced_returns n hSentenced hPace trace
    exact ⟨n + 1, trace', s', hFew, hExecute, hReturned⟩

/-- A device that knows no service of the name. -/
private def refusal : List Action :=
  [.openStream (ascii "bad:"), .advance 0, .advance 0, .hand, .arrive (.empty .close 0 1), .advance 0,
    .advance 0, .advance 0]

/-- A service that the device refuses. -/
theorem open_outcome_refused : ∃ trace s before after,
    Transition.Runs step Undisturbed (start 4096) trace s ∧
    trace = before ++ .owner 0 (.returned (.openFailed (.serviceRefused (ascii "bad:")))) :: after ∧
    Refused 0 (ascii "bad:") before := by
  obtain ⟨trace, s, hRun, hSeen⟩ := Transition.Runs.of_execute step Undisturbed (start 4096) refusal
    (fun result => result.1)
    ([.registered 0 1, .posted (some 0) ⟨.open, 1, 0, ascii "bad:" ++ [0]⟩,
      .handed (some 0) ⟨.open, 1, 0, ascii "bad:" ++ [0]⟩, .dispatched (.empty .close 0 1) (some 0)] ++
      [.owner 0 (.returned (.openFailed (.serviceRefused (ascii "bad:"))))]) (by decide)
  have hTrace : trace = _ := hSeen
  refine ⟨trace, s, _, [], hRun, hTrace, ?_⟩
  rcases (open_outcome hRun 0).1 _ [] _ hTrace with ⟨service, hName, hRefused⟩ | ⟨hGone, -⟩
  · cases hName
    exact hRefused
  · cases hGone

/-- The session is closed while an open waits for its answer. -/
private def closedMeanwhile : List Action :=
  [.openStream (ascii "shell:"), .advance 0, .advance 0, .hand, .close 0, .closeMark 0 0, .advance 0,
    .advance 0, .advance 0]

/-- A pending open that `Session::close` marks returns `ServiceRefused`, though
the device has said nothing. -/
theorem closed_open_looks_refused : ¬∀ (maxPayload : UInt32) (trace : List Event) (s : Session),
    Run maxPayload trace s → ∀ ref before after service,
      trace = before ++ .owner ref (.returned (.openFailed (.serviceRefused service))) :: after →
      Refused ref service before := by
  intro hClaim
  obtain ⟨trace, s, hRun, hSeen⟩ := Transition.Runs.of_execute step (fun _ _ _ => True) (start 4096)
    closedMeanwhile (fun result => result.1)
    ([.registered 0 1, .posted (some 0) ⟨.open, 1, 0, ascii "shell:" ++ [0]⟩,
      .handed (some 0) ⟨.open, 1, 0, ascii "shell:" ++ [0]⟩, .drained [0]] ++
      [.owner 0 (.returned (.openFailed (.serviceRefused (ascii "shell:"))))]) (by decide)
  have hTrace : trace = _ := hSeen
  obtain ⟨earlier, msg, later, hSplit, -⟩ := hClaim 4096 trace s hRun 0 _ [] _ hTrace
  have hMember : .dispatched msg (some 0) ∈ [Event.registered 0 1,
      .posted (some 0) ⟨.open, 1, 0, ascii "shell:" ++ [0]⟩,
      .handed (some 0) ⟨.open, 1, 0, ascii "shell:" ++ [0]⟩, .drained [0]] := by
    rw [hSplit]
    simp
  simp at hMember

end Session
end Rsadb
