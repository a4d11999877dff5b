import Rsadb.Session.Stream

/-! The steps of a stream's owner, listed once. A law about owners is proved by
cases on `Move`, and nothing below looks into the step function again. -/
namespace Rsadb

/-- What one step of an owner can be. -/
inductive Move (maxPayload : UInt32) (outboxOpen : Bool) (state : StreamState) :
    Owner → OwnerStep → Prop
  | inserted {service : Bytes} : Move maxPayload outboxOpen state (.inserting service)
      ⟨state, .posting service, .insert, []⟩
  | requested {service : Bytes} (hOpen : outboxOpen = true) :
      Move maxPayload outboxOpen state (.posting service)
        ⟨state, .waiting (.opening service) 0 .acks,
          .post ⟨.open, state.localId, 0, service ++ [0]⟩, []⟩
  | unrequested {service : Bytes} (hOpen : outboxOpen = false) :
      Move maxPayload outboxOpen state (.posting service)
        (Owner.leave state .nothing (.openFailed .disconnected))
  | answered {service : Bytes} {seen : UInt64} (hAcks : state.acks > seen) :
      Move maxPayload outboxOpen state (.waiting (.opening service) seen .acks)
        ⟨state, .judging service, .nothing, []⟩
  | completed {seen : UInt64} (hAcks : state.acks > seen) :
      Move maxPayload outboxOpen state (.waiting (.writing []) seen .acks)
        ⟨state, .idle, .nothing, [.returned .sent]⟩
  | continued {rest : Bytes} {seen : UInt64} (hAcks : state.acks > seen) (hRest : rest ≠ []) :
      Move maxPayload outboxOpen state (.waiting (.writing rest) seen .acks)
        ⟨state, .writing rest, .nothing, []⟩
  | unanswered {purpose : Purpose} {seen : UInt64} (hAcks : ¬state.acks > seen) :
      Move maxPayload outboxOpen state (.waiting purpose seen .acks)
        ⟨state, .waiting purpose seen .closed, .nothing, []⟩
  | turnedDown {service : Bytes} {seen : UInt64} (hClosed : state.closed = true) :
      Move maxPayload outboxOpen state (.waiting (.opening service) seen .closed)
        ⟨state, .refusing service, .nothing, []⟩
  | interrupted {rest : Bytes} {seen : UInt64} (hClosed : state.closed = true) :
      Move maxPayload outboxOpen state (.waiting (.writing rest) seen .closed)
        ⟨state, .idle, .nothing, [.returned (.sendFailed .streamClosed)]⟩
  | parked {purpose : Purpose} {seen : UInt64} (hClosed : state.closed = false) :
      Move maxPayload outboxOpen state (.waiting purpose seen .closed)
        ⟨state, .waiting purpose seen .parked, .nothing, []⟩
  | woken {purpose : Purpose} {seen : UInt64} (hWake : state.wake = true) :
      Move maxPayload outboxOpen state (.waiting purpose seen .parked)
        ⟨{ state with wake := false }, .waiting purpose seen .acks, .nothing, []⟩
  | nameless {service : Bytes} (hRemote : state.remote = none) :
      Move maxPayload outboxOpen state (.judging service) ⟨state, .refusing service, .nothing, []⟩
  | opened {service : Bytes} (hRemote : state.remote ≠ none) :
      Move maxPayload outboxOpen state (.judging service) ⟨state, .idle, .nothing, [.returned .opened]⟩
  | refused {service : Bytes} : Move maxPayload outboxOpen state (.refusing service)
      (Owner.leave state .remove (.openFailed (.serviceRefused service)))
  | acknowledging {chunk : Bytes} {remote : UInt32} (hClosed : state.closed = false)
      (hRemote : state.remote = some remote) :
      Move maxPayload outboxOpen state (.took chunk) ⟨state, .acking chunk remote, .nothing, []⟩
  | unacknowledging {chunk : Bytes} (hIds : state.closed = true ∨ state.remote = none) :
      Move maxPayload outboxOpen state (.took chunk)
        ⟨state, .idle, .nothing, [.returned (.received (some chunk))]⟩
  | acknowledged {chunk : Bytes} {remote : UInt32} (hOpen : outboxOpen = true) :
      Move maxPayload outboxOpen state (.acking chunk remote)
        ⟨state, .idle, .post (.empty .okay state.localId remote),
          [.returned (.received (some chunk))]⟩
  | unheard {chunk : Bytes} {remote : UInt32} (hOpen : outboxOpen = false) :
      Move maxPayload outboxOpen state (.acking chunk remote)
        ⟨state, .idle, .nothing, [.returned (.recvFailed .disconnected)]⟩
  | addressed {rest : Bytes} {remote : UInt32} (hClosed : state.closed = false)
      (hRemote : state.remote = some remote) :
      Move maxPayload outboxOpen state (.writing rest) ⟨state, .counting rest remote, .nothing, []⟩
  | shutOut {rest : Bytes} (hIds : state.closed = true ∨ state.remote = none) :
      Move maxPayload outboxOpen state (.writing rest)
        ⟨state, .idle, .nothing, [.returned (.sendFailed .streamClosed)]⟩
  | counted {rest : Bytes} {remote : UInt32} : Move maxPayload outboxOpen state (.counting rest remote)
      ⟨state, .sending rest remote state.acks, .nothing, []⟩
  | wrote {rest : Bytes} {remote : UInt32} {seen : UInt64} (hOpen : outboxOpen = true) :
      Move maxPayload outboxOpen state (.sending rest remote seen)
        ⟨state, .waiting (.writing (rest.drop (min rest.length maxPayload.toNat))) seen .acks,
          .post ⟨.write, state.localId, remote, rest.take (min rest.length maxPayload.toNat)⟩, []⟩
  | unwritten {rest : Bytes} {remote : UInt32} {seen : UInt64} (hOpen : outboxOpen = false) :
      Move maxPayload outboxOpen state (.sending rest remote seen)
        ⟨state, .idle, .nothing, [.returned (.sendFailed .disconnected)]⟩
  | removed {remote : UInt32} {final : Bool} : Move maxPayload outboxOpen state
      (.removing remote final) ⟨state, .farewell remote final, .remove, []⟩
  | parted {remote : UInt32} : Move maxPayload outboxOpen state (.farewell remote false)
      ⟨state, .idle, if outboxOpen then .post (.empty .close state.localId remote) else .nothing,
        [.returned .closed]⟩
  | left {remote : UInt32} : Move maxPayload outboxOpen state (.farewell remote true)
      (Owner.leave state
        (if outboxOpen then .post (.empty .close state.localId remote) else .nothing) .dropped)
  | received {chunk : Bytes} {rest : List Bytes} (hQueue : state.queue = chunk :: rest) :
      Move maxPayload outboxOpen state .idle
        ⟨{ state with queue := rest }, .took chunk, .nothing, [.took chunk]⟩
  | exhausted (hQueue : state.queue = []) (hTx : state.dataTx = false) :
      Move maxPayload outboxOpen state .idle ⟨state, .idle, .nothing, [.returned (.received none)]⟩
  | sentNothing : Move maxPayload outboxOpen state .idle ⟨state, .idle, .nothing, [.returned .sent]⟩
  | sendBegun {data : Bytes} (hData : data ≠ []) :
      Move maxPayload outboxOpen state .idle ⟨state, .writing data, .nothing, []⟩
  | closedAlready (hClosed : state.closed = true) :
      Move maxPayload outboxOpen state .idle ⟨state, .idle, .nothing, [.returned .closed]⟩
  | droppedClosed (hClosed : state.closed = true) :
      Move maxPayload outboxOpen state .idle (Owner.leave state .nothing .dropped)
  | closing {final : Bool} (hClosed : state.closed = false) :
      Move maxPayload outboxOpen state .idle
        ⟨state.markClosed, .removing (state.remote.getD 0) final, .nothing, [.closed]⟩

/-- The ids of a stream are there when it is open, and then they are its own. -/
theorem StreamState.ids_cases (state : StreamState) :
    (∃ remote, state.ids = .ok (state.localId, remote) ∧ state.closed = false ∧
      state.remote = some remote) ∨
    (state.ids = .error .streamClosed ∧ (state.closed = true ∨ state.remote = none)) := by
  unfold StreamState.ids
  split
  · rename_i hClosed
    exact Or.inr ⟨rfl, Or.inl hClosed⟩
  · rename_i hClosed
    cases hRemote : state.remote with
    | none => exact Or.inr ⟨rfl, Or.inr rfl⟩
    | some remote => exact Or.inl ⟨remote, rfl, by simpa using hClosed, rfl⟩

theorem Owner.begin_move {maxPayload : UInt32} {outboxOpen : Bool} {state : StreamState}
    {call : StreamCall} {p : OwnerStep} (h : Owner.begin state call = some p) :
    Move maxPayload outboxOpen state .idle p := by
  cases call with
  | recv =>
      simp only [Owner.begin] at h
      split at h
      · rename_i hQueue
        cases h
        exact .received hQueue
      · rename_i hQueue
        split at h <;> cases h
        rename_i hTx
        exact .exhausted hQueue (by simpa using hTx)
  | send data =>
      cases data with
      | nil =>
          cases h
          exact .sentNothing
      | cons head rest =>
          cases h
          exact .sendBegun (by simp)
  | close =>
      simp only [Owner.begin] at h
      split at h <;> cases h <;> rename_i hClosed
      · exact .closedAlready hClosed
      · exact .closing (by simpa using hClosed)
  | drop =>
      simp only [Owner.begin] at h
      split at h <;> cases h <;> rename_i hClosed
      · exact .droppedClosed hClosed
      · exact .closing (by simpa using hClosed)

theorem Owner.advance_move {maxPayload : UInt32} {outboxOpen : Bool} {state : StreamState}
    {owner : Owner} {p : OwnerStep} (h : owner.advance maxPayload outboxOpen state = some p) :
    Move maxPayload outboxOpen state owner p := by
  cases owner with
  | unborn | idle | gone => cases h
  | inserting service =>
      cases h
      exact .inserted
  | posting service =>
      simp only [Owner.advance] at h
      split at h <;> cases h <;> rename_i hOpen
      · exact .requested hOpen
      · exact .unrequested (by simpa using hOpen)
  | waiting purpose seen stage =>
      cases stage <;> simp only [Owner.advance] at h <;> split at h
      · rename_i hAcks
        rcases purpose with service | ⟨_ | ⟨head, rest⟩⟩ <;> cases h
        · exact .answered hAcks
        · exact .completed hAcks
        · exact .continued hAcks (by simp)
      · cases h
        exact .unanswered ‹_›
      · rename_i hClosed
        cases purpose <;> cases h
        · exact .turnedDown hClosed
        · exact .interrupted hClosed
      · rename_i hClosed
        cases h
        exact .parked (by simpa using hClosed)
      · cases h
        exact .woken ‹_›
      · cases h
  | judging service =>
      simp only [Owner.advance] at h
      split at h <;> cases h <;> rename_i hRemote
      · exact .nameless hRemote
      · exact .opened hRemote
  | refusing service =>
      cases h
      exact .refused
  | took chunk =>
      simp only [Owner.advance] at h
      rcases state.ids_cases with ⟨remote, hIds, hClosed, hRemote⟩ | ⟨hIds, hCase⟩ <;>
        rw [hIds] at h <;> cases h
      · exact .acknowledging hClosed hRemote
      · exact .unacknowledging hCase
  | acking chunk remote =>
      simp only [Owner.advance] at h
      split at h <;> cases h <;> rename_i hOpen
      · exact .acknowledged hOpen
      · exact .unheard (by simpa using hOpen)
  | writing rest =>
      simp only [Owner.advance] at h
      rcases state.ids_cases with ⟨remote, hIds, hClosed, hRemote⟩ | ⟨hIds, hCase⟩ <;>
        rw [hIds] at h <;> cases h
      · exact .addressed hClosed hRemote
      · exact .shutOut hCase
  | counting rest remote =>
      cases h
      exact .counted
  | sending rest remote seen =>
      simp only [Owner.advance] at h
      split at h <;> cases h <;> rename_i hOpen
      · exact .wrote hOpen
      · exact .unwritten (by simpa using hOpen)
  | removing remote final =>
      cases h
      exact .removed
  | farewell remote final =>
      cases final <;> cases h
      · exact .parted
      · exact .left

/-- Only a `send` begins to write. -/
theorem Owner.begin_writing {state : StreamState} {call : StreamCall} {p : OwnerStep} {data : Bytes}
    (h : Owner.begin state call = some p) (hWriting : p.owner = .writing data) : call = .send data := by
  cases call with
  | send chunk =>
      cases chunk <;> cases h <;> cases hWriting
      rfl
  | recv | close | drop =>
      simp only [Owner.begin] at h
      grind [Owner.leave]

/-- A call that begins does nothing yet outside its own stream. -/
theorem Owner.begin_effect {state : StreamState} {call : StreamCall} {p : OwnerStep}
    (h : Owner.begin state call = some p) : p.effect = .nothing := by
  have hMove := @Owner.begin_move 0 true _ _ _ h
  cases hMove <;> rfl

namespace Move

variable {maxPayload : UInt32} {outboxOpen : Bool} {state : StreamState} {owner : Owner}
  {p : OwnerStep}

/-- No move touches the count of acknowledgements. -/
theorem acks (h : Move maxPayload outboxOpen state owner p) : p.state.acks = state.acks := by
  cases h <;> rfl

theorem localId (h : Move maxPayload outboxOpen state owner p) :
    p.state.localId = state.localId := by
  cases h <;> rfl

/-- Nobody moves before its stream is born, and no step undoes a birth. -/
theorem born (h : Move maxPayload outboxOpen state owner p) :
    owner ≠ .unborn ∧ p.owner ≠ .unborn := by
  cases h <;> exact ⟨by simp, by simp [Owner.leave]⟩

end Move

end Rsadb
