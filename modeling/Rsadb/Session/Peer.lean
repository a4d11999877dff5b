import Rsadb.Session.FlowControl

/-! What the session and its peer say to each other, by the names of the
streams. The peer knows a stream by the local id in the first argument of its
messages, and names it in the second argument of its own. -/
namespace Rsadb

/-- The message from the device that an event reports. -/
def Event.dispatch : Event → Option Message
  | .dispatched msg _ => some msg
  | _ => none

/-- The messages from the device, in the order in which they were dispatched. -/
def dispatches (trace : List Event) : List Message := trace.filterMap Event.dispatch

@[simp] theorem dispatches_append (trace events : List Event) :
    dispatches (trace ++ events) = dispatches trace ++ dispatches events :=
  List.filterMap_append

theorem mem_dispatches {trace : List Event} {msg : Message} :
    msg ∈ dispatches trace ↔ ∃ target, .dispatched msg target ∈ trace := by
  rw [dispatches, List.mem_filterMap]
  constructor
  · rintro ⟨event, hMember, hDispatch⟩
    cases event <;> cases hDispatch
    exact ⟨_, hMember⟩
  · rintro ⟨target, hMember⟩
    exact ⟨_, hMember, rfl⟩

namespace Message

/-- The stream with this id asks for something: to be opened, or to have its payload acknowledged. -/
def AsksFrom (id : UInt32) (msg : Message) : Prop := Ledger.Asks msg ∧ msg.arg0 = id

/-- The stream with this id asks to be opened. -/
def OpensFrom (id : UInt32) (msg : Message) : Prop := msg.command = .open ∧ msg.arg0 = id

/-- An acknowledgement by the stream with this id. -/
def AcknowledgesFrom (id : UInt32) (msg : Message) : Prop := msg.command = .okay ∧ msg.arg0 = id

/-- An acknowledgement for the stream with this id. -/
def AcknowledgesTo (id : UInt32) (msg : Message) : Prop := msg.command = .okay ∧ msg.arg1 = id

/-- A payload for the stream with this id. -/
def CarriesTo (id : UInt32) (msg : Message) : Prop := msg.command = .write ∧ msg.arg1 = id

instance (id : UInt32) : DecidablePred (AsksFrom id) := fun msg =>
  inferInstanceAs (Decidable (Ledger.Asks msg ∧ msg.arg0 = id))

instance (id : UInt32) : DecidablePred (OpensFrom id) := fun msg =>
  inferInstanceAs (Decidable (msg.command = .open ∧ msg.arg0 = id))

instance (id : UInt32) : DecidablePred (AcknowledgesFrom id) := fun msg =>
  inferInstanceAs (Decidable (msg.command = .okay ∧ msg.arg0 = id))

instance (id : UInt32) : DecidablePred (AcknowledgesTo id) := fun msg =>
  inferInstanceAs (Decidable (msg.command = .okay ∧ msg.arg1 = id))

instance (id : UInt32) : DecidablePred (CarriesTo id) := fun msg =>
  inferInstanceAs (Decidable (msg.command = .write ∧ msg.arg1 = id))

end Message

/-- The payloads for the stream with this id, in order. -/
def carried (id : UInt32) (msgs : List Message) : List Bytes :=
  (msgs.filter (Message.CarriesTo id)).map Message.payload

@[simp] theorem carried_nil (id : UInt32) : carried id [] = [] := rfl

@[simp] theorem carried_append (id : UInt32) (first second : List Message) :
    carried id (first ++ second) = carried id first ++ carried id second := by
  rw [carried, List.filter_append, List.map_append, ← carried, ← carried]

theorem carried_singleton (id : UInt32) (msg : Message) :
    carried id [msg] = if Message.CarriesTo id msg then [msg.payload] else [] := by
  unfold carried
  by_cases h : Message.CarriesTo id msg <;> simp [h]

theorem carried_eq_nil {id : UInt32} {msgs : List Message} (h : ∀ msg ∈ msgs, ¬Message.CarriesTo id msg) :
    carried id msgs = [] := by
  rw [carried, List.filter_eq_nil_iff.mpr]
  · rfl
  · intro msg hMem
    simpa using h msg hMem

/-- No peer has the number zero. -/
theorem StreamState.remote_ne_zero {state : StreamState} {remote : UInt32} (h : state.remote = some remote) :
    remote ≠ 0 := by
  unfold StreamState.remote at h
  split at h
  · cases h
  · rename_i hSome
    cases h
    exact hSome

/-- A stream takes its peer from an acknowledgement, unless it has one. -/
theorem StreamState.ack_remote {state : StreamState} {remoteId remote : UInt32}
    (h : (state.ack remoteId).remote = some remote) : state.remote = some remote ∨ remoteId = remote := by
  by_cases hNone : state.remote = none
  · have hAdopted : (state.ack remoteId).remoteId = remoteId := if_pos hNone
    unfold StreamState.remote at h
    split at h
    · cases h
    · right
      rw [← hAdopted]
      exact Option.some.inj h
  · have hKept : (state.ack remoteId).remoteId = state.remoteId := if_neg hNone
    left
    unfold StreamState.remote at h ⊢
    rwa [hKept] at h

/-- No move gives a stream another peer. -/
theorem Move.remote {maxPayload : UInt32} {outboxOpen : Bool} {state : StreamState} {owner : Owner}
    {p : OwnerStep} (h : Move maxPayload outboxOpen state owner p) : p.state.remote = state.remote := by
  cases h <;> rfl

/-- What an owner has posted so far is posted under the name of its stream, and
but for the request to open it goes to the stream's peer. -/
theorem InOrder.named {state : StreamState} {posted : List Message} (h : InOrder state posted) {msg : Message}
    (hMem : msg ∈ posted) : msg.arg0 = state.localId ∧
    (msg.command ≠ .open → state.remote = some msg.arg1) := by
  have hTalk : ∀ {talk : List Message}, Talk state talk → msg ∈ talk →
      msg.arg0 = state.localId ∧ (msg.command ≠ .open → state.remote = some msg.arg1) := by
    rintro talk ⟨service, body, rfl, hBody⟩ hMem
    rcases List.mem_cons.mp hMem with rfl | hLater
    · exact ⟨rfl, fun hOther => absurd rfl hOther⟩
    · obtain ⟨-, hLocal, hRemote⟩ := hBody msg hLater
      exact ⟨hLocal, fun _ => hRemote⟩
  rcases h with rfl | hTalking | ⟨talk, remote, hTalking, hRemote, rfl⟩
  · cases hMem
  · exact hTalk hTalking hMem
  · rcases List.mem_append.mp hMem with hEarlier | hLast
    · exact hTalk hTalking hEarlier
    · rw [List.mem_singleton.mp hLast]
      exact ⟨rfl, fun _ => hRemote⟩

/-- A stream asks to be opened at most once. -/
theorem InOrder.opens_once {state : StreamState} {posted : List Message} (h : InOrder state posted) :
    posted.countP (fun msg => msg.command = .open) ≤ 1 := by
  have hTalk : ∀ {talk : List Message}, Talk state talk →
      talk.countP (fun msg => msg.command = .open) ≤ 1 := by
    rintro talk ⟨service, body, rfl, hBody⟩
    rw [List.countP_cons, List.countP_eq_zero.mpr]
    · simp
    · intro msg hMem
      rcases (hBody msg hMem).1 with hWrite | hOkay
      · simp [hWrite]
      · simp [hOkay]
  rcases h with rfl | hTalking | ⟨talk, remote, hTalking, hRemote, rfl⟩
  · exact Nat.zero_le _
  · exact hTalk hTalking
  · rw [List.countP_append]
    simpa [Message.empty] using hTalk hTalking

/-- What a stream asks for when it asks to be opened is fixed. -/
theorem InOrder.open_unique {state : StreamState} {posted : List Message} (h : InOrder state posted)
    {msg other : Message} (hMem : msg ∈ posted) (hOpen : msg.command = .open) (hOther : other ∈ posted)
    (hAlso : other.command = .open) : msg = other := by
  have hTalk : ∀ {talk : List Message}, Talk state talk → ∃ head, ∀ msg ∈ talk, msg.command = .open →
      msg = head := by
    rintro talk ⟨service, body, rfl, hBody⟩
    refine ⟨⟨.open, state.localId, 0, service ++ [0]⟩, fun msg hMem hOpen => ?_⟩
    rcases List.mem_cons.mp hMem with hHead | hLater
    · exact hHead
    · rcases (hBody msg hLater).1 with hWrite | hOkay
      · rw [hWrite] at hOpen
        cases hOpen
      · rw [hOkay] at hOpen
        cases hOpen
  rcases h with rfl | hTalking | ⟨talk, remote, hTalking, hRemote, rfl⟩
  · cases hMem
  · obtain ⟨head, hHead⟩ := hTalk hTalking
    rw [hHead msg hMem hOpen, hHead other hOther hAlso]
  · obtain ⟨head, hHead⟩ := hTalk hTalking
    have hInside : ∀ {msg : Message}, msg ∈ talk ++ [Message.empty .close state.localId remote] →
        msg.command = .open → msg ∈ talk := by
      intro msg hMem hOpen
      rcases List.mem_append.mp hMem with hTalked | hLast
      · exact hTalked
      · rw [List.mem_singleton.mp hLast] at hOpen
        cases hOpen
    rw [hHead msg (hInside hMem hOpen) hOpen, hHead other (hInside hOther hAlso) hAlso]

namespace Session

variable {allowed : List Event → Session → Action → Prop} {maxPayload : UInt32} {trace : List Event}
  {s : Session}

/-- A message that reaches a stream names it. -/
theorem named_of_dispatched (hRun : Transition.Runs step allowed (start maxPayload) trace s) {ref : Ref}
    {msg : Message} (hMem : .dispatched msg (some ref) ∈ trace) :
    msg.arg1 = (s.streams ref).localId ∧ s.owners ref ≠ .unborn := by
  have hView : ∀ msg, .dispatched msg (some ref) ∈ trace →
      msg.arg1 = (s.view ref).state.localId ∧ (s.view ref).owner ≠ .unborn := by
    refine @view_invariant _ _ (fun trace v => ∀ msg, .dispatched msg (some ref) ∈ trace →
      msg.arg1 = v.state.localId ∧ v.owner ≠ .unborn) ref (by simp) ?_ _ _ hRun
    intro trace s s' action events hRun _ hTaken hStep ih msg hMem
    obtain ⟨hNamed, -⟩ := named_of_runs hRun
    have hBorn : (s.view ref).registered → (s.view ref).owner ≠ .unborn := fun hRegistered => by
      change s.owners ref ≠ .unborn
      rw [Ne, hNamed.unborn, Nat.not_le]
      exact hNamed.registered_born _ ref hRegistered
    rcases List.mem_append.mp hMem with hEarlier | hNow
    · obtain ⟨hId, hOwner⟩ := ih msg hEarlier
      exact ⟨hId.trans (hStep.localId_eq hOwner).symm, hStep.owner_born hOwner⟩
    · have hThis : (s.view ref).owner ≠ .unborn ∧ msg.arg1 = (s.view ref).state.localId := by
        cases hStep with
        | other hEvents => exact absurd rfl (hEvents _ hNow)
        | @own _ p =>
            unfold Session.events at hNow
            cases hCase : p.effect <;> simp [hCase] at hNow
        | acked _ hTarget hId | delivered _ hTarget hId | ended _ hTarget hId | ignored _ hTarget hId =>
            obtain ⟨rfl, -⟩ := Event.dispatched.inj (List.mem_singleton.mp hNow)
            exact ⟨hBorn hTarget, hId⟩
        | refused _ hTarget hId _ hMore =>
            rcases List.mem_cons.mp hNow with hFirst | hRest
            · obtain ⟨rfl, -⟩ := Event.dispatched.inj hFirst
              exact ⟨hBorn hTarget, hId⟩
            · obtain ⟨refusal, hPosted⟩ := hMore _ hRest
              cases hPosted
        | _ => simp at hNow
      exact ⟨hThis.2.trans (hStep.localId_eq hThis.1).symm, hStep.owner_born hThis.1⟩
  exact hView msg hMem

/-- A stream has its peer from an acknowledgement that reached it. -/
theorem dispatched_of_remote (hRun : Transition.Runs step allowed (start maxPayload) trace s) {ref : Ref}
    {remote : UInt32} (hRemote : (s.streams ref).remote = some remote) :
    ∃ msg, .dispatched msg (some ref) ∈ trace ∧ msg.command = .okay ∧ msg.arg0 = remote := by
  have hView : (s.view ref).state.remote = some remote →
      ∃ msg, .dispatched msg (some ref) ∈ trace ∧ msg.command = .okay ∧ msg.arg0 = remote := by
    refine @view_invariant _ _ (fun trace v => v.state.remote = some remote →
      ∃ msg, .dispatched msg (some ref) ∈ trace ∧ msg.command = .okay ∧ msg.arg0 = remote) ref ?_ ?_ _ _ hRun
    · intro h
      cases h
    · intro trace s s' action events hRun _ hTaken hStep ih hNow
      have hKept : (s.view ref).state.remote = some remote →
          ∃ msg, .dispatched msg (some ref) ∈ trace ++ events ∧ msg.command = .okay ∧ msg.arg0 = remote := by
        intro hBefore
        obtain ⟨msg, hMem, hRest⟩ := ih hBefore
        exact ⟨msg, List.mem_append_left _ hMem, hRest⟩
      cases hStep with
      | born hUnborn hState =>
          rw [hState] at hNow
          cases hNow
      | own hMoves hState =>
          rw [hState, hMoves.move.remote] at hNow
          exact hKept hNow
      | cancelled hCancel hState =>
          obtain ⟨purpose, seen, -, rfl | rfl⟩ := Owner.cancel_cases hCancel
          all_goals
            rw [hState] at hNow
            exact hKept hNow
      | @acked _ msg hCommand hTarget hId hState =>
          rw [hState] at hNow
          rcases StreamState.ack_remote hNow with hBefore | rfl
          · exact hKept hBefore
          · exact ⟨msg, List.mem_append_right _ List.mem_cons_self, hCommand, rfl⟩
      | delivered hCommand hTarget hId hState =>
          obtain ⟨-, -, hQueued⟩ := StreamState.deliver_eq hState
          rw [hQueued] at hNow
          exact hKept hNow
      | other _ _ hState | refused _ _ _ _ _ hState | ended _ _ _ hState | ignored _ _ _ hState
      | handed hState | drained _ _ hState | marked _ hState =>
          rw [hState] at hNow
          exact hKept hNow
  exact hView hRemote

/-- A stream counts only messages that name it. -/
theorem ledger_of_dispatched {ref : Ref} {id : UInt32}
    (hNamed : ∀ msg, .dispatched msg (some ref) ∈ trace → msg.arg1 = id) :
    (ledger ref trace).okays ≤ (dispatches trace).countP (Message.AcknowledgesTo id) ∧
    (ledger ref trace).arrivals ≤ (dispatches trace).countP (Message.CarriesTo id) := by
  induction trace using List.reverseRecOn with
  | nil => exact ⟨Nat.zero_le _, Nat.zero_le _⟩
  | append_singleton trace event ih =>
      obtain ⟨hOkays, hArrivals⟩ := ih fun msg hMem => hNamed msg (List.mem_append_left _ hMem)
      rw [ledger_append, dispatches_append, List.countP_append, List.countP_append, List.foldl_cons,
        List.foldl_nil]
      cases event with
      | dispatched msg target =>
          have hHere : dispatches [.dispatched msg target] = [msg] := rfl
          rw [hHere, List.countP_singleton, List.countP_singleton, Ledger.note]
          split
          · rename_i hTarget
            subst hTarget
            have hId := hNamed msg (List.mem_append_right _ List.mem_cons_self)
            unfold Ledger.dispatch
            split
            · rename_i hCommand
              rw [if_pos (decide_eq_true ⟨hCommand, hId⟩)]
              exact ⟨Nat.succ_le_succ hOkays, Nat.le_add_right_of_le hArrivals⟩
            · rename_i hCommand
              rw [@if_pos (decide (msg.CarriesTo id) = true) _ (decide_eq_true ⟨hCommand, hId⟩)]
              exact ⟨Nat.le_add_right_of_le hOkays, Nat.succ_le_succ hArrivals⟩
            · exact ⟨Nat.le_add_right_of_le hOkays, Nat.le_add_right_of_le hArrivals⟩
          · exact ⟨Nat.le_add_right_of_le hOkays, Nat.le_add_right_of_le hArrivals⟩
      | owner other report =>
          rw [show dispatches [.owner other report] = [] from rfl, Ledger.note]
          split
          · cases report <;> exact ⟨hOkays, hArrivals⟩
          · exact ⟨hOkays, hArrivals⟩
      | posted | handed | cancelled =>
          rw [show dispatches [_] = [] from rfl, Ledger.note]
          split <;> exact ⟨hOkays, hArrivals⟩
      | registered | drained | readerEnded => exact ⟨hOkays, hArrivals⟩

/-- What was handed to the transport, but for the ends of streams, was posted by owners. -/
theorem owner_of_handed (hRun : Transition.Runs step allowed (start maxPayload) trace s) {source : Option Ref}
    {msg : Message} (hHanded : (source, msg) ∈ hands trace) (hCommand : msg.command ≠ .close) :
    ∃ ref, source = some ref ∧ msg ∈ (ledger ref trace).handed := by
  have hPosted := posted_of_handed hRun (mem_hands.mp hHanded)
  cases source with
  | none =>
      have hLaw : (none : Option Ref) = none → msg.command = .close :=
        @posted_of_runs _ _ (fun source msg => source = none → msg.command = .close)
          (fun {_ s source msg} _ hPosts hNone => by
            subst hNone
            obtain ⟨arg0, arg1, rfl⟩ := hPosts
            rfl) _ _ hRun _ _ hPosted
      exact absurd (hLaw rfl) hCommand
  | some ref =>
      refine ⟨ref, rfl, ?_⟩
      rw [(ledger_messages ref trace).2, List.mem_filterMap]
      exact ⟨_, hHanded, by simp [ownMessage]⟩

/-- What an owner has handed over is in the name of its stream. -/
theorem named_of_handed (hRun : Transition.Runs step allowed (start maxPayload) trace s) {ref : Ref}
    {msg : Message} (hHanded : msg ∈ (ledger ref trace).handed) : msg.arg0 = (s.streams ref).localId ∧
    (msg.command ≠ .open → (s.streams ref).remote = some msg.arg1) :=
  (said_of_runs hRun ref).inOrder.named ((handed_of_posted hRun ref).subset hHanded)

/-- A stream whose owner has handed something over was born. -/
theorem born_of_handed (hRun : Transition.Runs step allowed (start maxPayload) trace s) {ref : Ref}
    {msg : Message} (hHanded : msg ∈ (ledger ref trace).handed) : ref < s.nextRef := by
  apply (named_of_runs hRun).1.born
  intro hUnborn
  have hSaid := said_of_runs hRun ref
  rw [hUnborn] at hSaid
  have hPosted : msg ∈ (ledger ref trace).posted := (handed_of_posted hRun ref).subset hHanded
  rw [show (ledger ref trace).posted = [] from hSaid] at hPosted
  cases hPosted

/-- What is handed over in the name of a stream is handed over by its owner. -/
theorem filter_handed (hRun : Transition.Runs step allowed (start maxPayload) trace s)
    (hLimit : s.nextRef < openLimit) {ref : Ref} (hBorn : ref < s.nextRef) {p : Message → Bool}
    (hNamed : ∀ msg, p msg → msg.command ≠ .close ∧ msg.arg0 = (s.streams ref).localId) :
    ((hands trace).map Prod.snd).filter p = (ledger ref trace).handed.filter p := by
  have hOwn : ∀ entry ∈ hands trace, p entry.2 → entry.1 = some ref := by
    rintro ⟨source, msg⟩ hMem hHolds
    obtain ⟨hCommand, hArg⟩ := hNamed msg hHolds
    obtain ⟨other, rfl, hHanded⟩ := owner_of_handed hRun hMem hCommand
    have hOther := (named_of_handed hRun hHanded).1
    rw [(numbered_of_runs hRun hLimit).eq_of_localId hBorn (born_of_handed hRun hHanded)
      (hOther.symm.trans hArg)]
  rw [(ledger_messages ref trace).2]
  generalize hands trace = entries at hOwn
  induction entries with
  | nil => rfl
  | cons entry rest ih =>
      obtain ⟨hHere, hRest⟩ := List.forall_mem_cons.mp hOwn
      rw [List.map_cons]
      by_cases hHolds : p entry.2
      · rw [List.filterMap_cons_some (by rw [ownMessage, if_pos (hHere hHolds)]), List.filter_cons_of_pos hHolds,
          List.filter_cons_of_pos hHolds, ih hRest]
      · rw [List.filter_cons_of_neg hHolds, ih hRest]
        by_cases hSource : entry.1 = some ref
        · rw [List.filterMap_cons_some (by rw [ownMessage, if_pos hSource]), List.filter_cons_of_neg hHolds]
        · rw [List.filterMap_cons_none (by rw [ownMessage, if_neg hSource])]

/-- What is handed over in the name of a stream is its owner's. -/
theorem handed_of_named (hRun : Transition.Runs step allowed (start maxPayload) trace s)
    (hLimit : s.nextRef < openLimit) {ref : Ref} (hBorn : ref < s.nextRef) {msg : Message}
    (hMem : msg ∈ (hands trace).map Prod.snd) (hCommand : msg.command ≠ .close)
    (hName : msg.arg0 = (s.streams ref).localId) : msg ∈ (ledger ref trace).handed := by
  have hFiltered := filter_handed hRun hLimit hBorn
    (p := fun msg => msg.command ≠ .close ∧ msg.arg0 = (s.streams ref).localId) fun msg => of_decide_eq_true
  have hHere : msg ∈ (ledger ref trace).handed.filter fun msg =>
      msg.command ≠ .close ∧ msg.arg0 = (s.streams ref).localId := by
    rw [← hFiltered, List.mem_filter]
    exact ⟨hMem, decide_eq_true ⟨hCommand, hName⟩⟩
  exact (List.mem_filter.mp hHere).1

theorem countP_handed (hRun : Transition.Runs step allowed (start maxPayload) trace s)
    (hLimit : s.nextRef < openLimit) {ref : Ref} (hBorn : ref < s.nextRef) {p : Message → Bool}
    (hNamed : ∀ msg, p msg → msg.command ≠ .close ∧ msg.arg0 = (s.streams ref).localId) :
    ((hands trace).map Prod.snd).countP p = (ledger ref trace).handed.countP p := by
  rw [List.countP_eq_length_filter, List.countP_eq_length_filter, filter_handed hRun hLimit hBorn hNamed]

/-- The requests that the transport was handed in the name of a stream. -/
theorem asked_of_handed (hRun : Transition.Runs step allowed (start maxPayload) trace s)
    (hLimit : s.nextRef < openLimit) {ref : Ref} (hBorn : ref < s.nextRef) :
    ((hands trace).map Prod.snd).countP (Message.AsksFrom (s.streams ref).localId) ≤
      (ledger ref trace).asked := by
  refine Nat.le_trans (Nat.le_of_eq (countP_handed hRun hLimit hBorn ?_)) (List.countP_mono_left ?_)
  · intro msg hHolds
    obtain ⟨hAsks, hArg⟩ := of_decide_eq_true hHolds
    refine ⟨fun hClose => ?_, hArg⟩
    simp [Ledger.Asks, hClose] at hAsks
  · intro msg _ hHolds
    exact decide_eq_true (of_decide_eq_true hHolds).1

/-- The acknowledgements that the transport was handed in the name of a stream. -/
theorem acknowledged_of_handed (hRun : Transition.Runs step allowed (start maxPayload) trace s)
    (hLimit : s.nextRef < openLimit) {ref : Ref} (hBorn : ref < s.nextRef) :
    ((hands trace).map Prod.snd).countP (Message.AcknowledgesFrom (s.streams ref).localId) ≤
      (ledger ref trace).acknowledged := by
  refine Nat.le_trans (Nat.le_of_eq (countP_handed hRun hLimit hBorn ?_)) (List.countP_mono_left ?_)
  · intro msg hHolds
    obtain ⟨hOkay, hArg⟩ := of_decide_eq_true hHolds
    exact ⟨by simp [hOkay], hArg⟩
  · intro msg _ hHolds
    exact decide_eq_true (of_decide_eq_true hHolds).1

/-- No two requests to open a stream bear the same name. -/
theorem opens_once_of_handed (hRun : Transition.Runs step allowed (start maxPayload) trace s)
    (hLimit : s.nextRef < openLimit) (id : UInt32) :
    ((hands trace).map Prod.snd).countP (Message.OpensFrom id) ≤ 1 := by
  by_cases hAny : ∃ msg ∈ (hands trace).map Prod.snd, Message.OpensFrom id msg
  · obtain ⟨msg, hMem, hOpens, rfl⟩ := hAny
    obtain ⟨⟨source, msg⟩, hEntry, rfl⟩ := List.mem_map.mp hMem
    have hCommand : msg.command = .open := hOpens
    obtain ⟨ref, rfl, hHanded⟩ := owner_of_handed hRun hEntry (by simp [hCommand])
    have hId := (named_of_handed hRun hHanded).1
    refine Nat.le_trans (Nat.le_of_eq (countP_handed hRun hLimit (born_of_handed hRun hHanded) ?_)) ?_
    · intro other hHolds
      obtain ⟨hOpen, hArg⟩ := of_decide_eq_true hHolds
      exact ⟨by simp [hOpen], hArg.trans hId⟩
    · refine Nat.le_trans (List.countP_mono_left fun other _ hHolds => ?_)
        (Nat.le_trans (handed_of_posted hRun ref).sublist.countP_le (said_of_runs hRun ref).inOrder.opens_once)
      exact decide_eq_true (of_decide_eq_true hHolds).1
  · rw [List.countP_eq_zero.mpr]
    · exact Nat.zero_le _
    · intro msg hMem hHolds
      exact hAny ⟨msg, hMem, of_decide_eq_true hHolds⟩

/-- No more streams ask to be opened than there are. -/
theorem opens_of_handed (hRun : Transition.Runs step allowed (start maxPayload) trace s)
    (hLimit : s.nextRef < openLimit) :
    ((hands trace).map Prod.snd).countP (fun msg => msg.command = .open) ≤ s.nextRef := by
  have hOnce := opens_once_of_handed hRun hLimit
  have hNames : (((hands trace).map Prod.snd).filter (fun msg => msg.command = .open)).map Message.arg0 ⊆
      (List.range s.nextRef).map fun ref => (s.streams ref).localId := by
    intro id hMem
    obtain ⟨msg, hFiltered, rfl⟩ := List.mem_map.mp hMem
    obtain ⟨hHands, hOpen⟩ := List.mem_filter.mp hFiltered
    obtain ⟨⟨source, msg⟩, hEntry, rfl⟩ := List.mem_map.mp hHands
    have hCommand : msg.command = .open := of_decide_eq_true hOpen
    obtain ⟨ref, rfl, hHanded⟩ := owner_of_handed hRun hEntry (by simp [hCommand])
    exact List.mem_map.mpr ⟨ref, List.mem_range.mpr (born_of_handed hRun hHanded),
      (named_of_handed hRun hHanded).1.symm⟩
  have hDistinct : (((hands trace).map Prod.snd).filter (fun msg => msg.command = .open)).map Message.arg0
      |>.Nodup := by
    rw [List.nodup_iff_count_le_one]
    intro id
    refine Nat.le_trans (Nat.le_of_eq ?_) (hOnce id)
    rw [List.count, List.countP_map, List.countP_filter]
    apply List.countP_congr
    intro msg _
    simp [Message.OpensFrom, and_comm]
  have hLength := (List.subperm_of_subset hDistinct hNames).length_le
  rwa [List.length_map, List.length_map, List.length_range, ← List.countP_eq_length_filter] at hLength

end Session
end Rsadb
