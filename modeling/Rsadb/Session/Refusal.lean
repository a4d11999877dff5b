import Rsadb.Session.Conversation
import Rsadb.Library.Trace

/-! What `ServiceRefused` says. The session infers it from the closed flag and
the count of acknowledgements, which a device that refuses the service sets as
well as a session that goes down. -/
namespace Rsadb

/-- The open of the stream has not returned yet. -/
def Owner.Opening : Owner → Prop
  | .unborn | .inserting _ | .posting _ | .waiting (.opening _) _ _ | .judging _ | .refusing _ => True
  | _ => False

/-- The device has acknowledged the open of the stream. -/
def Owner.Answered : Owner → Prop
  | .judging _ | .idle | .took _ | .acking _ _ | .waiting (.writing _) _ _ | .writing _
  | .counting _ _ | .sending _ _ _ | .removing _ _ | .farewell _ _ => True
  | _ => False

instance (owner : Owner) : Decidable owner.Opening := by
  rcases owner with _ | _ | _ | ⟨_ | _, _, _⟩ | _ | _ | _ | _ | _ | _ | _ | _ | _ | _ | _ <;>
    first | exact isTrue trivial | exact isFalse not_false

/-- The device answered the OPEN for the service, which had been handed to the
transport, with a CLSE for the stream's local id, and no OKAY came before. -/
def Refused (ref : Ref) (service : Bytes) (trace : List Event) : Prop :=
  ∃ before msg after, trace = before ++ .dispatched msg (some ref) :: after ∧ msg.command = .close ∧
    (ledger ref before).handed = [⟨.open, msg.arg1, 0, service ++ [0]⟩] ∧ (ledger ref before).okays = 0

theorem Refused.append {ref : Ref} {service : Bytes} {trace : List Event} (h : Refused ref service trace)
    (events : List Event) : Refused ref service (trace ++ events) := by
  obtain ⟨before, msg, after, rfl, hRest⟩ := h
  exact ⟨before, msg, after ++ events, by rw [List.append_assoc, List.cons_append], hRest⟩

/-- Where the owner of an open stands that the device has refused. -/
def Sentenced (service : Bytes) (state : StreamState) : Owner → Prop
  | .waiting purpose _ stage => purpose = .opening service ∧ state.acks = 0 ∧ state.closed = true ∧
      (stage = .parked → state.wake = true)
  | .refusing name => name = service
  | .gone => True
  | _ => False

/-- How many steps a refused open is from its return. -/
def Owner.pace : Owner → Nat
  | .waiting _ _ .parked => 4
  | .waiting _ _ .acks => 3
  | .waiting _ _ .closed => 2
  | .refusing _ => 1
  | _ => 0

/-- An open that the device has refused: it has left the registry, and nothing else can come of it. -/
def Doomed (service : Bytes) (v : StreamView) : Prop :=
  ¬v.registered ∧ Sentenced service v.state v.owner

theorem Sentenced.pace {service : Bytes} {state : StreamState} {owner : Owner}
    (h : Sentenced service state owner) (hAlive : owner.Alive) :
    ∃ n, owner.pace = n + 1 ∧ n + 1 ≤ 4 := by
  cases owner with
  | waiting purpose seen stage => cases stage <;> exact ⟨_, rfl, by decide⟩
  | refusing name => exact ⟨0, rfl, by decide⟩
  | gone => exact hAlive.elim
  | _ => exact h.elim

namespace Session

variable {allowed : List Event → Session → Action → Prop} {maxPayload : UInt32}

/-- The count of a stream is that of the acknowledgements dispatched to it, and
an open is answered only by one. -/
structure Counted (l : Ledger) (state : StreamState) (owner : Owner) : Prop where
  acks : state.acks = UInt64.ofNat l.okays
  unborn : owner = .unborn → l.okays = 0
  answered : owner.Answered → l.okays ≠ 0

private theorem Move.counted {maxPayload : UInt32} {outboxOpen : Bool} {state : StreamState} {owner : Owner}
    {p : OwnerStep} (h : Move maxPayload outboxOpen state owner p) {l : Ledger}
    (hCounted : Counted l state owner) : Counted (l.enter p) p.state p.owner := by
  obtain ⟨hAcks, -, hAnswered⟩ := hCounted
  refine ⟨?_, fun hUnborn => ?_, fun hNow => ?_⟩
  · rw [h.acks, (l.enter_frame p).1, hAcks]
  · cases h <;> cases hUnborn
  · rw [(l.enter_frame p).1]
    cases h with
    | @answered _ seen hSeen =>
        intro hNone
        rw [hAcks, hNone] at hSeen
        exact UInt64.not_lt.mpr UInt64.zero_le hSeen
    | @unanswered purpose | @parked purpose | @woken purpose =>
        cases purpose with
        | opening service => exact hNow.elim
        | writing rest => exact hAnswered trivial
    | inserted | requested | unrequested | turnedDown | nameless | refused => exact hNow.elim
    | _ => exact hAnswered trivial

theorem counted_of_runs {trace : List Event} {s : Session}
    (hRun : Transition.Runs step allowed (start maxPayload) trace s) (ref : Ref) :
    Counted (ledger ref trace) (s.streams ref) (s.owners ref) := by
  refine account_invariant ref ⟨rfl, fun _ => rfl, fun h => h.elim⟩ ?_ hRun
  intro trace s action l state owner hRun hAllowed hStep hCounted
  obtain ⟨hAcks, hUnborn, hAnswered⟩ := id hCounted
  cases hStep with
  | same | delivered | refused | ended | marked | handed => exact ⟨hAcks, hUnborn, hAnswered⟩
  | born hBefore =>
      refine ⟨?_, by simp, fun h => h.elim⟩
      rw [hUnborn hBefore]
      rfl
  | moved hMove => exact Move.counted hMove hCounted
  | cancelled hCancel =>
      rcases Owner.cancel_purpose hCancel with ⟨service, seen, -, rfl⟩ | ⟨rest, seen, hOwner, rfl⟩
      · exact ⟨hAcks, by simp, fun h => h.elim⟩
      · exact ⟨hAcks, by simp, fun _ => hAnswered (by rw [hOwner]; trivial)⟩
  | acked hCommand hAction hTarget =>
      obtain ⟨hNamed, -⟩ := named_of_runs hRun
      refine ⟨?_, fun hNone => ?_, fun _ => Nat.succ_ne_zero _⟩
      · change (s.streams ref).acks + 1 = UInt64.ofNat (_ + 1)
        rw [hAcks, UInt64.ofNat_add]
        rfl
      · exact absurd ((hNamed.unborn ref).mp hNone)
          (Nat.not_le.mpr (hNamed.registered_born _ ref hTarget))

/-- A refused open makes steps towards its error only. -/
private theorem Move.doomed {maxPayload : UInt32} {outboxOpen : Bool} {v v' : StreamView} {p : OwnerStep}
    (h : Move maxPayload outboxOpen v.state v.owner p) {service : Bytes} (hDoomed : Doomed service v)
    (hState : v'.state = p.state) (hOwner : v'.owner = p.owner)
    (hRegistered : match p.effect with
      | .insert => v'.registered
      | .remove => ¬v'.registered
      | _ => (v'.registered ↔ v.registered)) :
    Doomed service v' ∧ ∀ result, .returned result ∈ p.reports →
      result = .openFailed (.serviceRefused service) := by
  obtain ⟨hUnregistered, hStage⟩ := hDoomed
  obtain ⟨state, owner, registered, pending⟩ := v
  obtain ⟨state', owner', registered', pending'⟩ := v'
  subst hState hOwner
  cases h with
  | @answered _ seen hAcks =>
      rw [hStage.2.1] at hAcks
      exact absurd hAcks (UInt64.not_lt.mpr UInt64.zero_le)
  | completed | continued | interrupted => cases hStage.1
  | unanswered =>
      obtain ⟨hPurpose, hAcks, hClosed, -⟩ := hStage
      exact ⟨⟨mt hRegistered.mp hUnregistered, hPurpose, hAcks, hClosed, by simp⟩, by simp⟩
  | turnedDown =>
      exact ⟨⟨mt hRegistered.mp hUnregistered, Purpose.opening.inj hStage.1⟩, by simp⟩
  | parked hOpen =>
      rw [hStage.2.2.1] at hOpen
      cases hOpen
  | woken =>
      obtain ⟨hPurpose, hAcks, hClosed, -⟩ := hStage
      exact ⟨⟨mt hRegistered.mp hUnregistered, hPurpose, hAcks, hClosed, by simp⟩, by simp⟩
  | refused =>
      have hName : _ = service := hStage
      exact ⟨⟨hRegistered, trivial⟩, by simp [Owner.leave, hName]⟩
  | _ => exact hStage.elim

/-- Every step leaves a refused open refused. -/
private theorem doomed_step {clash : Prop} {ref : Ref} {v v' : StreamView} {events : List Event}
    (h : ViewStep maxPayload clash ref v events v') {service : Bytes} (hDoomed : Doomed service v) :
    Doomed service v' ∧ ∀ result, .owner ref (.returned result) ∈ events →
      result = .openFailed (.serviceRefused service) := by
  obtain ⟨hUnregistered, hStage⟩ := id hDoomed
  have hKeep : v'.state = v.state → v'.owner = v.owner → (v'.registered → v.registered) →
      Doomed service v' := fun hState hOwner hLost => by
    refine ⟨mt hLost hUnregistered, ?_⟩
    rw [hOwner, hState]
    exact hStage
  cases h with
  | other hEvents hMissed hState hOwner hLost =>
      exact ⟨hKeep hState hOwner hLost, fun result hMember => absurd rfl (hEvents _ hMember)⟩
  | born hUnborn =>
      rw [hUnborn] at hStage
      exact hStage.elim
  | @own _ p _ hMoves hState hOwner hRegistered =>
      obtain ⟨hAfter, hReports⟩ := Move.doomed hMoves.move hDoomed hState hOwner hRegistered
      refine ⟨hAfter, fun result hMember => hReports result ?_⟩
      rcases List.mem_append.mp hMember with hEffect | hReport
      · cases hCase : p.effect <;> simp [hCase] at hEffect
      · simpa using hReport
  | cancelled hCancel hState hOwner hRegistered =>
      refine ⟨⟨mt hRegistered.mp hUnregistered, ?_⟩, by simp⟩
      rcases Owner.cancel_purpose hCancel with ⟨name, seen, -, rfl⟩ | ⟨rest, seen, hWaiting, -⟩
      · rw [hOwner]
        trivial
      · rw [hWaiting] at hStage
        cases hStage.1
  | acked hCommand hTarget | delivered hCommand hTarget | refused hCommand hTarget
  | ended hCommand hTarget | ignored hCommand hTarget | drained hMember hTarget =>
      exact absurd hTarget hUnregistered
  | handed hState hOwner hRegistered => exact ⟨hKeep hState hOwner hRegistered.mp, by simp⟩
  | marked hWaited hState hOwner hRegistered =>
      refine ⟨⟨mt hRegistered.mp hUnregistered, ?_⟩, by simp⟩
      rw [hOwner, hState]
      cases hCase : v.owner with
      | waiting purpose seen stage =>
          rw [hCase] at hStage
          exact ⟨hStage.1, hStage.2.1, rfl, fun _ => rfl⟩
      | _ =>
          rw [hCase] at hStage
          exact hStage

/-- Who may be told by a CLSE that comes first: an open that waits, or nobody any more. -/
private theorem doomed_of_close {trace : List Event} {s : Session}
    (hRun : Transition.Runs step allowed (start maxPayload) trace s) {ref : Ref} {service : Bytes}
    {id : UInt32} (hHanded : (ledger ref trace).handed = [⟨.open, id, 0, service ++ [0]⟩])
    (hOkays : (ledger ref trace).okays = 0) {v' : StreamView}
    (hState : v'.state = (s.streams ref).markClosed) (hOwner : v'.owner = s.owners ref)
    (hRegistered : ¬v'.registered) : Doomed service v' := by
  have hCounted := counted_of_runs hRun ref
  have hSaid := said_of_runs hRun ref
  have hPosted := handed_of_posted hRun ref
  rw [hHanded] at hPosted
  have hAcks : (s.streams ref).acks = 0 := by
    rw [hCounted.acks, hOkays]
    rfl
  have hNotAnswered : ¬(s.owners ref).Answered := fun hAnswered => hCounted.answered hAnswered hOkays
  have hName : ∀ {name : Bytes}, (ledger ref trace).posted =
      [⟨.open, (s.streams ref).localId, 0, name ++ [0]⟩] → name = service := fun hSame => by
    rw [hSame, List.cons_prefix_cons] at hPosted
    exact (List.append_cancel_right (Message.mk.inj hPosted.1).2.2.2).symm
  have hNothing : (ledger ref trace).posted ≠ [] := fun hNone => by
    rw [hNone, List.prefix_nil] at hPosted
    cases hPosted
  refine ⟨hRegistered, ?_⟩
  rw [hOwner, hState]
  cases hCase : s.owners ref with
  | unborn | inserting | posting =>
      rw [hCase] at hSaid
      exact hNothing hSaid
  | waiting purpose seen stage =>
      rw [hCase] at hSaid hNotAnswered
      cases purpose with
      | opening name => exact ⟨by rw [hName hSaid], hAcks, rfl, fun _ => rfl⟩
      | writing rest => exact absurd trivial hNotAnswered
  | refusing name =>
      rw [hCase] at hSaid
      exact hName hSaid
  | gone => trivial
  | _ =>
      rw [hCase] at hNotAnswered
      exact hNotAnswered trivial

/-- A close message that reaches a stream takes it out of the registry. -/
theorem ended_of_dispatched {clash : Prop} {ref : Ref} {v v' : StreamView} {events : List Event}
    (h : ViewStep maxPayload clash ref v events v') {msg : Message} (hCommand : msg.command = .close)
    (hMember : .dispatched msg (some ref) ∈ events) :
    events = [.dispatched msg (some ref)] ∧ v'.state = v.state.markClosed ∧ v'.owner = v.owner ∧
      ¬v'.registered := by
  cases h with
  | other hEvents => exact absurd rfl (hEvents _ hMember)
  | @own _ p _ hMoves =>
      rcases List.mem_append.mp hMember with hEffect | hReport
      · cases hCase : p.effect <;> simp [hCase] at hEffect
      · simp at hReport
  | ended _ hTarget hId hState hOwner hRegistered =>
      cases List.mem_singleton.mp hMember
      exact ⟨rfl, hState, hOwner, hRegistered⟩
  | acked hOther | delivered hOther =>
      cases List.mem_singleton.mp hMember
      rw [hCommand] at hOther
      cases hOther
  | ignored hOther =>
      cases List.mem_singleton.mp hMember
      exact absurd hCommand hOther.2.2
  | refused hOther hTarget hId hDeliver hMore =>
      rcases List.mem_cons.mp hMember with hFirst | hRest
      · cases hFirst
        rw [hCommand] at hOther
        cases hOther
      · obtain ⟨refusal, hPosted⟩ := hMore _ hRest
        cases hPosted
  | _ => simp at hMember

/-- After a CLSE that came before any OKAY the open can only end in the refusal. -/
theorem doomed_of_refused {trace : List Event} {s : Session}
    (hRun : Transition.Runs step allowed (start maxPayload) trace s) {ref : Ref} {service : Bytes}
    (hRefused : Refused ref service trace) : Doomed service (s.view ref) := by
  induction hRun with
  | start =>
      obtain ⟨before, msg, after, hSplit, -⟩ := hRefused
      simp at hSplit
  | @next trace s s' action events hRun _ hTaken ih =>
      have hView := step_view (named_of_runs hRun).1 hTaken ref
      obtain ⟨before, msg, after, hSplit, hCommand, hHanded, hOkays⟩ := hRefused
      rcases Trace.split_append hSplit with ⟨rest, hOld⟩ | ⟨middle, rfl, hNow⟩
      · exact (doomed_step hView (ih ⟨before, msg, rest, hOld, hCommand, hHanded, hOkays⟩)).1
      · obtain ⟨hEvents, hState, hOwner, hRegistered⟩ := ended_of_dispatched hView hCommand
          (by rw [hNow]; simp)
        obtain ⟨rfl, -⟩ := Trace.split_singleton (hEvents.symm.trans hNow)
        rw [List.append_nil] at hHanded hOkays
        exact doomed_of_close hRun hHanded hOkays hState hOwner hRegistered

/-- After such a CLSE the call on the stream returns nothing but the refusal. -/
theorem returned_of_refused {trace : List Event} {s : Session}
    (hRun : Transition.Runs step allowed (start maxPayload) trace s) {ref : Ref} {service : Bytes} :
    ∀ before entry after, trace = before ++ entry :: after → ∀ result,
      entry = .owner ref (.returned result) → Refused ref service before →
      result = .openFailed (.serviceRefused service) := by
  refine hRun.law ?_
  rintro trace s action s' events hRun - hTaken middle entry after hSplit result rfl hRefused
  have hView := step_view (named_of_runs hRun).1 hTaken ref
  have hMember : .owner ref (.returned result) ∈ events := by simp [hSplit]
  obtain ⟨before, msg, rest, hBefore, hCommand, hCause⟩ := hRefused
  rcases Trace.split_append hBefore with ⟨rest', hOld⟩ | ⟨other, -, hNow⟩
  · have hDoomed := doomed_of_refused hRun ⟨before, msg, rest', hOld, hCommand, hCause⟩
    exact (doomed_step hView hDoomed).2 result hMember
  · obtain ⟨hAlone, -⟩ := ended_of_dispatched hView hCommand (by rw [hSplit, hNow]; simp)
    rw [hAlone] at hMember
    simp at hMember

private theorem execute_advance {s : Session} {ref : Ref} {p : OwnerStep}
    (h : (s.owners ref).advance s.maxPayload s.outboxOpen (s.streams ref) = some p)
    (trace : List Event) (n : Nat) :
    Transition.execute step (fun _ _ _ => True) trace s (List.replicate (n + 1) (.advance ref)) =
      Transition.execute step (fun _ _ _ => True) (trace ++ events ref p) (s.perform ref p).1
        (List.replicate n (.advance ref)) := by
  simp only [List.replicate_succ, Transition.execute, step, h, Option.map_some, ↓reduceIte]
  rfl

theorem perform_self (s : Session) (ref : Ref) (p : OwnerStep) :
    (s.perform ref p).1.streams ref = p.state ∧ (s.perform ref p).1.owners ref = p.owner := by
  constructor <;> cases hEffect : p.effect <;> simp [perform, setStream, setOwner, hEffect]

/-- A refused open that is still pending returns the refusal in at most four steps of its own. -/
theorem sentenced_returns (n : Nat) {s : Session} {ref : Ref} {service : Bytes}
    (hSentenced : Sentenced service (s.streams ref) (s.owners ref)) (hPace : (s.owners ref).pace = n + 1)
    (trace : List Event) : ∃ trace' s', Transition.execute step (fun _ _ _ => True) trace s
      (List.replicate (n + 1) (.advance ref)) = some (trace', s') ∧
      .owner ref (.returned (.openFailed (.serviceRefused service))) ∈ trace' := by
  induction n generalizing s trace with
  | zero =>
      cases hOwner : s.owners ref with
      | refusing name =>
          rw [hOwner] at hSentenced
          obtain rfl : name = service := hSentenced
          rw [execute_advance (by rw [hOwner]; rfl)]
          exact ⟨_, _, rfl, by simp [events, Owner.leave]⟩
      | waiting purpose seen stage =>
          rw [hOwner] at hPace
          cases stage <;> cases hPace
      | _ =>
          rw [hOwner] at hPace
          cases hPace
  | succ n ih =>
      have hNext : ∀ {p : OwnerStep},
          (s.owners ref).advance s.maxPayload s.outboxOpen (s.streams ref) = some p →
          Sentenced service p.state p.owner → p.owner.pace = n + 1 →
          ∃ trace' s', Transition.execute step (fun _ _ _ => True) trace s
            (List.replicate (n + 1 + 1) (.advance ref)) = some (trace', s') ∧
            .owner ref (.returned (.openFailed (.serviceRefused service))) ∈ trace' := by
        intro p hAdvance hAfter hLeft
        obtain ⟨hState, hStands⟩ := perform_self s ref p
        rw [execute_advance hAdvance]
        exact ih (by rw [hState, hStands]; exact hAfter) (by rw [hStands]; exact hLeft) _
      cases hOwner : s.owners ref with
      | waiting purpose seen stage =>
          rw [hOwner] at hSentenced hPace
          obtain ⟨rfl, hAcks, hClosed, hWake⟩ := hSentenced
          have hBehind : ¬(s.streams ref).acks > seen := fun hMore => by
            rw [hAcks] at hMore
            exact UInt64.not_lt.mpr UInt64.zero_le hMore
          cases stage with
          | acks =>
              have hAdvance : (s.owners ref).advance s.maxPayload s.outboxOpen (s.streams ref) =
                  some ⟨s.streams ref, .waiting (.opening service) seen .closed, .nothing, []⟩ := by
                rw [hOwner]
                exact if_neg hBehind
              exact hNext hAdvance ⟨rfl, hAcks, hClosed, by simp⟩ (Nat.succ.inj hPace)
          | closed =>
              have hAdvance : (s.owners ref).advance s.maxPayload s.outboxOpen (s.streams ref) =
                  some ⟨s.streams ref, .refusing service, .nothing, []⟩ := by
                rw [hOwner]
                exact if_pos hClosed
              exact hNext hAdvance rfl (Nat.succ.inj hPace)
          | parked =>
              have hAdvance : (s.owners ref).advance s.maxPayload s.outboxOpen (s.streams ref) =
                  some ⟨{ s.streams ref with wake := false }, .waiting (.opening service) seen .acks,
                    .nothing, []⟩ := by
                rw [hOwner]
                exact if_pos (hWake rfl)
              exact hNext hAdvance ⟨rfl, hAcks, hClosed, by simp⟩ (Nat.succ.inj hPace)
      | _ =>
          rw [hOwner] at hPace
          cases hPace

end Session
end Rsadb
