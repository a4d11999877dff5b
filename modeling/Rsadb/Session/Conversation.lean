import Rsadb.Session.Account

/-! What the owner of a stream says: OPEN, then WRTE and OKAY between the two ids
of the stream, then at most one CLSE. This holds in every run, whatever the
device sends and whichever calls are dropped. -/
namespace Rsadb

/-- OPEN, then WRTE and OKAY between the two ids of the stream. -/
def Talk (state : StreamState) (posted : List Message) : Prop :=
  ∃ service body, posted = ⟨.open, state.localId, 0, service ++ [0]⟩ :: body ∧
    ∀ msg ∈ body, (msg.command = .write ∨ msg.command = .okay) ∧ msg.arg0 = state.localId ∧
      state.remote = some msg.arg1

/-- The same, and the CLSE that ends it. -/
def Concluded (state : StreamState) (posted : List Message) : Prop :=
  ∃ talk remote, Talk state talk ∧ state.remote = some remote ∧
    posted = talk ++ [.empty .close state.localId remote]

/-- What the owner of a stream may have posted at any time. -/
def InOrder (state : StreamState) (posted : List Message) : Prop :=
  posted = [] ∨ Talk state posted ∨ Concluded state posted

/-- What the owner has posted where it stands. -/
def Said (state : StreamState) (posted : List Message) : Owner → Prop
  | .unborn | .inserting _ | .posting _ => posted = []
  | .waiting (.opening service) _ _ | .judging service | .refusing service =>
      posted = [⟨.open, state.localId, 0, service ++ [0]⟩]
  | .acking _ remote | .counting _ remote | .sending _ remote _ =>
      state.remote = some remote ∧ Talk state posted
  | .waiting (.writing _) _ _ => state.remote ≠ none ∧ Talk state posted
  | .removing remote _ | .farewell remote _ =>
      state.remote = some remote ∧ state.closed = true ∧ Talk state posted
  | .idle | .took _ | .writing _ =>
      state.remote ≠ none ∧ (Talk state posted ∨ state.closed = true ∧ Concluded state posted)
  | .gone => InOrder state posted

/-- One stream state follows another: its ids stay, and so does the flag. -/
structure StreamState.Follows (state' state : StreamState) : Prop where
  localId : state'.localId = state.localId
  remote : ∀ remote, state.remote = some remote → state'.remote = some remote
  closed : state.closed = true → state'.closed = true

namespace StreamState.Follows

theorem ack (state : StreamState) (remoteId : UInt32) : (state.ack remoteId).Follows state := by
  refine ⟨rfl, fun remote hRemote => ?_, id⟩
  have hKept : (state.ack remoteId).remoteId = state.remoteId :=
    if_neg (by rw [hRemote]; simp)
  unfold StreamState.remote at hRemote ⊢
  rw [hKept]
  exact hRemote

theorem markClosed (state : StreamState) : state.markClosed.Follows state :=
  ⟨rfl, fun _ => id, fun _ => rfl⟩

end StreamState.Follows

section

variable {state state' : StreamState} {posted : List Message}

theorem Talk.follow (h : Talk state posted) (hFollows : state'.Follows state) : Talk state' posted := by
  obtain ⟨service, body, rfl, hBody⟩ := h
  refine ⟨service, body, by rw [hFollows.localId], fun msg hMember => ?_⟩
  obtain ⟨hCommand, hLocal, hRemote⟩ := hBody msg hMember
  exact ⟨hCommand, hLocal.trans hFollows.localId.symm, hFollows.remote _ hRemote⟩

theorem Concluded.follow (h : Concluded state posted) (hFollows : state'.Follows state) :
    Concluded state' posted := by
  obtain ⟨talk, remote, hTalk, hRemote, rfl⟩ := h
  exact ⟨talk, remote, hTalk.follow hFollows, hFollows.remote _ hRemote, by rw [hFollows.localId]⟩

theorem InOrder.follow (h : InOrder state posted) (hFollows : state'.Follows state) :
    InOrder state' posted :=
  h.imp_right (Or.imp (Talk.follow · hFollows) (Concluded.follow · hFollows))

theorem StreamState.Follows.remote_ne (hFollows : state'.Follows state) (h : state.remote ≠ none) :
    state'.remote ≠ none := by
  obtain ⟨remote, hRemote⟩ := Option.ne_none_iff_exists'.mp h
  rw [hFollows.remote _ hRemote]
  simp

theorem Said.follow {owner : Owner} (h : Said state posted owner) (hFollows : state'.Follows state) :
    Said state' posted owner := by
  have hHead : ∀ service : Bytes, posted = [⟨.open, state.localId, 0, service ++ [0]⟩] →
      posted = [⟨.open, state'.localId, 0, service ++ [0]⟩] := fun service hPosted => by
    rw [hFollows.localId]
    exact hPosted
  cases owner with
  | unborn | inserting service | posting service => exact h
  | judging service | refusing service => exact hHead service h
  | waiting purpose seen stage =>
      cases purpose with
      | opening service => exact hHead service h
      | writing rest => exact ⟨hFollows.remote_ne h.1, h.2.follow hFollows⟩
  | acking chunk remote | counting rest remote | sending rest remote seen =>
      exact ⟨hFollows.remote _ h.1, h.2.follow hFollows⟩
  | removing remote final | farewell remote final =>
      exact ⟨hFollows.remote _ h.1, hFollows.closed h.2.1, h.2.2.follow hFollows⟩
  | idle | took chunk | writing rest =>
      refine ⟨hFollows.remote_ne h.1, h.2.imp (Talk.follow · hFollows) fun hEnd => ?_⟩
      exact ⟨hFollows.closed hEnd.1, hEnd.2.follow hFollows⟩
  | gone => exact InOrder.follow h hFollows

/-- A talk may go on with what is addressed to the stream's peer. -/
theorem Talk.append (h : Talk state posted) {msg : Message}
    (hCommand : msg.command = .write ∨ msg.command = .okay) (hLocal : msg.arg0 = state.localId)
    (hRemote : state.remote = some msg.arg1) : Talk state (posted ++ [msg]) := by
  obtain ⟨service, body, rfl, hBody⟩ := h
  refine ⟨service, body ++ [msg], rfl, fun other hMember => ?_⟩
  rcases List.mem_append.mp hMember with hOld | hNew
  · exact hBody other hOld
  · rw [List.mem_singleton.mp hNew]
    exact ⟨hCommand, hLocal, hRemote⟩

/-- What an owner has posted always is in order. -/
theorem Said.inOrder {owner : Owner} (h : Said state posted owner) : InOrder state posted := by
  have hHead : ∀ service : Bytes, posted = [⟨.open, state.localId, 0, service ++ [0]⟩] →
      InOrder state posted := fun service hPosted =>
    Or.inr (Or.inl ⟨service, [], hPosted, by simp⟩)
  cases owner with
  | unborn | inserting service | posting service => exact Or.inl h
  | judging service | refusing service => exact hHead service h
  | waiting purpose seen stage =>
      cases purpose with
      | opening service => exact hHead service h
      | writing rest => exact Or.inr (Or.inl h.2)
  | acking chunk remote | counting rest remote | sending rest remote seen => exact Or.inr (Or.inl h.2)
  | removing remote final | farewell remote final => exact Or.inr (Or.inl h.2.2)
  | idle | took chunk | writing rest => exact Or.inr (h.2.imp_right And.right)
  | gone => exact h

end

/-- The messages after a step's effect. -/
def Effect.after (posted : List Message) : Effect → List Message
  | .post msg => posted ++ [msg]
  | _ => posted

/-- Every move keeps what the owner says in order. -/
theorem Move.said {maxPayload : UInt32} {outboxOpen : Bool} {state : StreamState} {owner : Owner}
    {p : OwnerStep} (h : Move maxPayload outboxOpen state owner p) {posted : List Message}
    (hSaid : Said state posted owner) : Said p.state (p.effect.after posted) p.owner := by
  have hInOrder := hSaid.inOrder
  cases h with
  | inserted | answered | turnedDown | nameless | removed => exact hSaid
  | @unanswered purpose | @parked purpose => cases purpose <;> exact hSaid
  | @woken purpose => cases purpose <;> exact hSaid
  | requested hOpen =>
      change posted = [] at hSaid
      rw [hSaid]
      rfl
  | unrequested hOpen | refused | droppedClosed hClosed =>
      exact hInOrder.follow ⟨rfl, fun _ => id, id⟩
  | completed hAcks | interrupted hClosed => exact ⟨hSaid.1, Or.inl hSaid.2⟩
  | continued hAcks hRest => exact ⟨hSaid.1, Or.inl hSaid.2⟩
  | opened hRemote => exact ⟨hRemote, Or.inl ⟨_, [], hSaid, by simp⟩⟩
  | acknowledging hClosed hRemote | addressed hClosed hRemote =>
      refine ⟨hRemote, hSaid.2.resolve_right fun hEnd => ?_⟩
      rw [hClosed] at hEnd
      cases hEnd.1
  | unacknowledging hIds | shutOut hIds => exact hSaid
  | acknowledged hOpen =>
      exact ⟨by rw [hSaid.1]; simp, Or.inl (hSaid.2.append (Or.inr rfl) rfl hSaid.1)⟩
  | unheard hOpen | unwritten hOpen => exact ⟨by rw [hSaid.1]; simp, Or.inl hSaid.2⟩
  | counted => exact hSaid
  | wrote hOpen => exact ⟨by rw [hSaid.1]; simp, hSaid.2.append (Or.inl rfl) rfl hSaid.1⟩
  | parted =>
      obtain ⟨hRemote, hClosed, hTalk⟩ := hSaid
      refine ⟨by rw [hRemote]; simp, ?_⟩
      cases outboxOpen with
      | true => exact Or.inr ⟨hClosed, posted, _, hTalk, hRemote, rfl⟩
      | false => exact Or.inl hTalk
  | left =>
      obtain ⟨hRemote, hClosed, hTalk⟩ := hSaid
      have hDropped : state.dropReceiver.Follows state := ⟨rfl, fun _ => id, id⟩
      cases outboxOpen with
      | true =>
          have hEnd : Concluded state (posted ++ [.empty .close state.localId _]) :=
            ⟨posted, _, hTalk, hRemote, rfl⟩
          exact Or.inr (Or.inr (hEnd.follow hDropped))
      | false => exact Or.inr (Or.inl (hTalk.follow hDropped))
  | received hQueue => exact hSaid.follow ⟨rfl, fun _ => id, id⟩
  | exhausted hQueue hTx => exact hSaid
  | sentNothing => exact hSaid
  | sendBegun hData => exact hSaid
  | closedAlready hClosed => exact hSaid
  | closing hClosed =>
      obtain ⟨hRemote, hTalk⟩ := hSaid
      obtain ⟨remote, hSome⟩ := Option.ne_none_iff_exists'.mp hRemote
      refine ⟨?_, rfl, ?_⟩
      · change state.remote = some (state.remote.getD 0)
        rw [hSome]
        rfl
      · refine (hTalk.resolve_right fun hEnd => ?_).follow (.markClosed state)
        rw [hClosed] at hEnd
        cases hEnd.1

theorem Owner.cancel_said {state : StreamState} {owner : Owner} {p : OwnerStep}
    (h : owner.cancel state = some p) {posted : List Message} (hSaid : Said state posted owner) :
    Said p.state posted p.owner := by
  have hInOrder := hSaid.inOrder
  unfold Owner.cancel at h
  split at h <;> cases h
  · exact hInOrder.follow ⟨rfl, fun _ => id, id⟩
  · exact ⟨hSaid.1, Or.inl hSaid.2⟩

namespace Ledger

/-- What a step of the owner adds to what was posted. -/
theorem enter_posted (l : Ledger) (p : OwnerStep) : (l.enter p).posted = p.effect.after l.posted := by
  have hReports : ∀ (reports : List Report) (l : Ledger),
      (reports.foldl report l).posted = l.posted := fun reports => by
    induction reports with
    | nil => exact fun _ => rfl
    | cons head rest ih =>
        intro l
        rw [List.foldl_cons, ih]
        cases head <;> rfl
  rw [enter, hReports]
  cases p.effect <;> rfl

end Ledger

namespace Session

variable {allowed : List Event → Session → Action → Prop} {maxPayload : UInt32}

/-- In every run every owner has said what it may have said where it stands. -/
theorem said_of_runs {trace : List Event} {s : Session}
    (hRun : Transition.Runs step allowed (start maxPayload) trace s) (ref : Ref) :
    Said (s.streams ref) (ledger ref trace).posted (s.owners ref) := by
  refine @account_invariant _ _ (fun l state owner => Said state l.posted owner) ref rfl ?_ _ _ hRun
  intro trace s action l state owner hRun hAllowed hStep hSaid
  cases hStep with
  | same | refused | handed => exact hSaid
  | born hUnborn =>
      rw [hUnborn] at hSaid
      exact hSaid
  | moved hMove =>
      rw [Ledger.enter_posted]
      exact hMove.said hSaid
  | cancelled hCancel => exact Owner.cancel_said hCancel hSaid
  | acked => exact hSaid.follow (.ack _ _)
  | delivered => exact hSaid.follow ⟨rfl, fun _ => id, id⟩
  | ended | marked => exact hSaid.follow (.markClosed _)

end Session
end Rsadb
