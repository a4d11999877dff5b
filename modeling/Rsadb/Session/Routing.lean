import Rsadb.Session.Names

/-! Which streams a message from the device affects. The reader finds the
stream by the receiver's id alone; the sender's id is not compared with the
remote id that the stream has adopted. -/
namespace Rsadb.Session

/-- A stream message for an open stream from a sender other than its peer. The
sender's id of a refusal is zero and names nobody. -/
structure Foreign (s : Session) (ref : Ref) (msg : Message) : Prop where
  command : msg.command = .okay ∨ msg.command = .write ∨ msg.command = .close
  receiver : msg.arg1 = (s.streams ref).localId
  sender : ∃ remote, (s.streams ref).remote = some remote ∧ msg.arg0 ≠ remote
  notRefusal : msg.command = .close → msg.arg0 ≠ 0

/-- Dispatching the message leaves its receiver's count, queue and flag as they
are, and every other stream altogether. -/
def Spares (s : Session) (ref : Ref) (msg : Message) : Prop :=
  let after := (s.dispatch msg).1.streams
  ((after ref).acks = (s.streams ref).acks ∧ (after ref).queue = (s.streams ref).queue ∧
    (after ref).closed = (s.streams ref).closed) ∧
  ∀ other, (s.streams other).localId ≠ (s.streams ref).localId → after other = s.streams other

/-- The message cannot take effect: the registry does not hold the stream, or
nobody takes its payload, or the stream that it closes is closed already. -/
def Deaf (s : Session) (ref : Ref) (msg : Message) : Prop :=
  ¬s.Registered ref ∨
  (msg.command = .write ∧ ((s.streams ref).dataTx && (s.streams ref).dataRx) = false) ∨
  (msg.command = .close ∧ (s.streams ref).closed = true)

/-- A message leaves every stream alone that does not have the receiver's id. -/
theorem dispatch_other {s : Session} (hNamed : s.Named) (msg : Message) {other : Ref}
    (hOther : (s.streams other).localId ≠ msg.arg1) :
    (s.dispatch msg).1.streams other = s.streams other := by
  refine (route_routed s msg).frame.2.2.2.2.2.2 other fun hGet => ?_
  exact hOther (hNamed.names _ _ hGet)

/-- A message for a stream that the registry does not hold changes no state of it. -/
theorem dispatch_unregistered {s : Session} (hNamed : s.Named) {msg : Message} {ref : Ref}
    (hRegistered : ¬s.Registered ref) : (s.dispatch msg).1.streams ref = s.streams ref := by
  refine (route_routed s msg).frame.2.2.2.2.2.2 ref fun hGet => ?_
  exact hRegistered ((get_eq_some_iff hNamed _ _).mp hGet).1

/-- In every reachable state every message leaves the streams alone that do not have
the receiver's id, and a message from a foreign sender spares the streams exactly
when it could not have any effect from whatever sender. -/
theorem foreign_spares_iff {maxPayload : UInt32} {trace : List Event} {s : Session}
    (hRun : Run maxPayload trace s) :
    (∀ msg other, (s.streams other).localId ≠ msg.arg1 → (s.dispatch msg).1.streams other = s.streams other) ∧
    ∀ ref msg, s.Foreign ref msg → (s.Spares ref msg ↔ s.Deaf ref msg) := by
  obtain ⟨hNamed, -⟩ := named_of_runs hRun
  refine ⟨fun msg other => dispatch_other hNamed msg, fun ref msg hForeign => ?_⟩
  have hOthers : ∀ other, (s.streams other).localId ≠ (s.streams ref).localId →
      (s.dispatch msg).1.streams other = s.streams other := fun other hOther =>
    dispatch_other hNamed msg (hForeign.receiver ▸ hOther)
  by_cases hRegistered : s.Registered ref
  · have hGet : s.get msg.arg1 = some ref := (get_eq_some_iff hNamed _ _).mpr
      ⟨hRegistered, hForeign.receiver⟩
    simp only [Spares, Deaf, hRegistered, not_true_eq_false, false_or, and_iff_left hOthers]
    rcases hForeign.command with hCommand | hCommand | hCommand
    · -- An acknowledgement is counted whoever sends it.
      have hAfter : (s.dispatch msg).1.streams ref = (s.streams ref).ack msg.arg0 := by
        simp [dispatch, route, hCommand, hGet]
      have hCount : ((s.streams ref).ack msg.arg0).acks ≠ (s.streams ref).acks := by
        simp [StreamState.ack, StreamState.adopt, StreamState.count, StreamState.notifyOne]
      simp [hAfter, hCommand, hCount]
    · by_cases hListens : ((s.streams ref).dataTx && (s.streams ref).dataRx) = true
      · have hAfter : ((s.dispatch msg).1.streams ref).queue =
            (s.streams ref).queue ++ [msg.payload] := by
          simp [dispatch, route, hCommand, hGet, StreamState.deliver, hListens]
        simp [hAfter, hCommand, hListens]
      · have hAfter : (s.dispatch msg).1.streams ref = s.streams ref := by
          have hDeliver : (s.streams ref).deliver msg.payload = (s.streams ref, false) :=
            if_neg hListens
          simp only [dispatch, route, hCommand, hGet, hDeliver, Bool.false_eq_true, ↓reduceIte]
          unfold refuse
          split <;> rfl
        simp [hAfter, hCommand, hListens]
    · have hAfter : (s.dispatch msg).1.streams ref = (s.streams ref).markClosed := by
        simp [dispatch, route, hCommand, hGet]
      rw [hAfter]
      constructor
      · rintro ⟨-, -, hClosed⟩
        exact Or.inr ⟨hCommand, hClosed.symm⟩
      · rintro (⟨hWrite, -⟩ | ⟨-, hClosed⟩)
        · rw [hCommand] at hWrite
          cases hWrite
        · exact ⟨rfl, rfl, hClosed.symm⟩
  · simp only [Spares, Deaf, hRegistered, not_false_eq_true, true_or, iff_true]
    rw [dispatch_unregistered hNamed hRegistered]
    exact ⟨⟨rfl, rfl, rfl⟩, hOthers⟩

/-- A device opens a stream as its number 5 and closes it again. -/
private def openedAndClosed : List Action :=
  [.openStream (ascii "shell:id"), .advance 0, .advance 0, .arrive (.empty .okay 5 1), .advance 0,
    .advance 0, .arrive (.empty .close 5 1)]

/-- After its device has closed it, a stream is safe from foreign acknowledgements. -/
theorem foreign_spares_closed :
    ∃ trace s, Run 4096 trace s ∧ s.Foreign 0 (.empty .okay 9 1) ∧ s.Spares 0 (.empty .okay 9 1) := by
  obtain ⟨trace, s, hRun, hSeen⟩ := Transition.Runs.of_execute step (fun _ _ _ => True) (start 4096)
    openedAndClosed (fun result => (result.2.get 1, result.2.streams 0))
    (none, ⟨1, 5, true, 1, true, false, [], true⟩) (by decide)
  obtain ⟨hGet, hStream⟩ : s.get 1 = none ∧ s.streams 0 = _ := Prod.mk.inj hSeen
  have hForeign : s.Foreign 0 (.empty .okay 9 1) := ⟨Or.inl rfl, by rw [hStream]; rfl,
    ⟨5, by rw [hStream]; rfl, by decide⟩, by decide⟩
  refine ⟨trace, s, hRun, hForeign, ((foreign_spares_iff hRun).2 _ _ hForeign).mpr (Or.inl ?_)⟩
  rw [Registered, hStream, hGet]
  simp

/-- A stale acknowledgement with the id of another sender is counted: it would
complete a pending write. -/
theorem foreign_okay_counts :
    ¬∀ (maxPayload : UInt32) (trace : List Event) (s : Session), Run maxPayload trace s →
      s.reader = .reading → ∀ ref msg, s.Foreign ref msg → s.Spares ref msg := by
  intro hClaim
  obtain ⟨trace, s, hRun, hSeen⟩ := Transition.Runs.of_execute step (fun _ _ _ => True) (start 4096)
    (openedAndClosed.take 6) (fun result => (result.2.reader, result.2.streams 0,
      (result.2.dispatch (.empty .okay 9 1)).1.streams 0))
    (.reading, ⟨1, 5, false, 1, true, true, [], true⟩, ⟨1, 5, false, 2, true, true, [], true⟩)
    (by decide)
  rw [Prod.mk.injEq, Prod.mk.injEq] at hSeen
  obtain ⟨hReader, hStream, hAfter⟩ := hSeen
  have hSpares := hClaim 4096 trace s hRun hReader 0 (.empty .okay 9 1) ⟨Or.inl rfl,
    by rw [hStream]; rfl, ⟨5, by rw [hStream]; rfl, by decide⟩, by decide⟩
  have hCount := hSpares.1.1
  rw [hAfter, hStream] at hCount
  exact absurd hCount (by decide)

end Rsadb.Session
