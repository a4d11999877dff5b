import Rsadb.Session.Inflow

/-! What the owner of a stream receives is what the device sent to it. -/
namespace Rsadb.Session

/-- While `recv` does not fail and the counter has not wrapped, every stream's data is in order. -/
theorem flow_of_run {maxPayload : UInt32} {trace : List Event} {s : Session}
    (hRun : Run maxPayload trace s) (hLimit : s.nextRef < openLimit) {ref : Ref}
    (hFailed : NoRecvError ref trace) : Flow ref trace (s.view ref) := by
  induction hRun with
  | start => exact Flow.start
  | @next trace s s' _ events hRun hAllowed hTaken ih =>
      have hBefore := Nat.lt_of_le_of_lt (nextRef_mono hTaken) hLimit
      have hView := step_view (named_of_runs hRun).1 hTaken ref
      have hTracked := tracked_of_runs hRun hBefore ref
      refine (ih hBefore fun e hMember => hFailed e (List.mem_append_left _ hMember)).step hView
        (fun e hMember => hFailed e (List.mem_append_right _ hMember)) fun hClosed => ?_
      have hIdle := Flow.closed_idle hView hClosed
      cases hFlag : (s.view ref).state.closed with
      | false =>
          have hKnown := hTracked.tracked (by rw [hIdle]; trivial) (by simp [hIdle]) hFlag
          exact hKnown.imp_right Or.inl
      | true =>
          have hTx := hTracked.flag
          rw [hFlag] at hTx
          exact Or.inr (Or.inr (by simpa using hTx.symm))

/-- The trace names a stream by the local id that it has. -/
theorem registered_localId {maxPayload : UInt32} {trace : List Event} {s : Session}
    (hRun : Run maxPayload trace s) {ref : Ref} {id : UInt32} (hMember : .registered ref id ∈ trace) :
    s.owners ref ≠ .unborn ∧ (s.streams ref).localId = id := by
  induction hRun with
  | start => simp at hMember
  | @next trace s s' action events hRun _ hTaken ih =>
      have hView := step_view (named_of_runs hRun).1 hTaken ref
      rcases List.mem_append.mp hMember with hEarlier | hNow
      · obtain ⟨hBorn, hId⟩ := ih hEarlier
        exact ⟨hView.owner_born hBorn, (hView.localId_eq hBorn).trans hId⟩
      · change (s'.view ref).owner ≠ .unborn ∧ (s'.view ref).state.localId = id
        cases hView with
        | other hEvents => exact absurd rfl (hEvents _ hNow)
        | @own _ p _ hMoves hState hOwner hEffect hPending =>
            rw [hState, hOwner]
            refine ⟨hMoves.move.born.2, ?_⟩
            unfold Session.events at hNow
            cases hCase : p.effect <;> simp [hCase] at hNow
            exact hNow.symm
        | refused hCommand hTarget hId hDeliver hMore =>
            rcases List.mem_cons.mp hNow with hFirst | hRest
            · cases hFirst
            · obtain ⟨refusal, hPosted⟩ := hMore _ hRest
              cases hPosted
        | _ => simp at hNow

/-- Stream integrity and isolation: in every run, what `recv` has returned on a
stream is an initial part of the payloads sent to its local id while it was
live, and all of them once the end was reported; no other stream has that id. -/
theorem stream_integrity {maxPayload : UInt32} {trace : List Event} {s : Session}
    (hRun : Run maxPayload trace s) (hLimit : s.nextRef < openLimit) {ref : Ref}
    (hFailed : NoRecvError ref trace) :
    received ref trace <+: (inflow ref trace).payloads ∧
    (EndSeen ref trace → received ref trace = (inflow ref trace).payloads) ∧
    ∀ other id, .registered ref id ∈ trace → .registered other id ∈ trace → other = ref := by
  have hFlow := flow_of_run hRun hLimit hFailed
  refine ⟨hFlow.taken, fun hEnd => (hFlow.ended hEnd).1, fun other id hRef hOther => ?_⟩
  obtain ⟨hNamed, -⟩ := named_of_runs hRun
  obtain ⟨hBorn, hId⟩ := registered_localId hRun hRef
  obtain ⟨hOtherBorn, hOtherId⟩ := registered_localId hRun hOther
  exact (numbered_of_runs hRun hLimit).eq_of_localId (hNamed.born hBorn) (hNamed.born hOtherBorn)
    (hOtherId.trans hId.symm)

/-- Take a payload from a stream, and acknowledge it. -/
private def taking (ref : Ref) : List Action := [.call ref .recv, .advance ref, .advance ref]

/-- A device opens two streams as its numbers 5 and 6. It sends two payloads on the
first and one between them on the other, and closes the first. -/
private def twoStreams : List Action :=
  [.openStream (ascii "exec:a"), .advance 0, .advance 0, .openStream (ascii "exec:b"), .advance 1, .advance 1,
    .arrive (.empty .okay 6 2), .advance 1, .advance 1, .arrive (.empty .okay 5 1), .advance 0, .advance 0,
    .arrive ⟨.write, 5, 1, ascii "a"⟩, .arrive ⟨.write, 6, 2, ascii "x"⟩,
    .arrive ⟨.write, 5, 1, ascii "b"⟩] ++
    taking 0 ++ taking 1 ++ taking 0 ++ [.arrive (.empty .close 5 1), .call 0 .recv]

/-- Each stream has what was sent to it: the first all of it, up to its end. -/
theorem stream_integrity_two_streams : ∃ trace s, Run 4096 trace s ∧
    (received 0 trace = [ascii "a", ascii "b"] ∧ (inflow 0 trace).payloads = [ascii "a", ascii "b"]) ∧
    received 1 trace = [ascii "x"] ∧ [ascii "x"] <+: (inflow 1 trace).payloads := by
  obtain ⟨trace, s, hRun, hSeen⟩ := Transition.Runs.of_execute step (fun _ _ _ => True) (start 4096)
    twoStreams (fun result => (result.2.nextRef, result.1)) (2, [.registered 0 1,
      .posted (some 0) ⟨.open, 1, 0, ascii "exec:a" ++ [0]⟩, .registered 1 2,
      .posted (some 1) ⟨.open, 2, 0, ascii "exec:b" ++ [0]⟩, .dispatched (.empty .okay 6 2) (some 1),
      .owner 1 (.returned .opened), .dispatched (.empty .okay 5 1) (some 0), .owner 0 (.returned .opened),
      .dispatched ⟨.write, 5, 1, ascii "a"⟩ (some 0), .dispatched ⟨.write, 6, 2, ascii "x"⟩ (some 1),
      .dispatched ⟨.write, 5, 1, ascii "b"⟩ (some 0), .owner 0 (.took (ascii "a")),
      .posted (some 0) (.empty .okay 1 5), .owner 0 (.returned (.received (some (ascii "a")))),
      .owner 1 (.took (ascii "x")), .posted (some 1) (.empty .okay 2 6),
      .owner 1 (.returned (.received (some (ascii "x")))), .owner 0 (.took (ascii "b")),
      .posted (some 0) (.empty .okay 1 5), .owner 0 (.returned (.received (some (ascii "b")))),
      .dispatched (.empty .close 5 1) (some 0), .owner 0 (.returned (.received none))]) (by decide)
  obtain ⟨hNext, hEvents⟩ : s.nextRef = 2 ∧ trace = _ := Prod.mk.inj hSeen
  have hLimit : s.nextRef < openLimit := by rw [hNext]; decide
  have hFailed : ∀ ref, NoRecvError ref trace := fun ref => by simp [NoRecvError, hEvents]
  have hEnd : EndSeen 0 trace := by simp [EndSeen, hEvents]
  have hAll := (stream_integrity hRun hLimit (hFailed 0)).2.1 hEnd
  have hReceived : received 0 trace = [ascii "a", ascii "b"] := by rw [hEvents]; decide
  have hOther : received 1 trace = [ascii "x"] := by rw [hEvents]; decide
  have hFront := (stream_integrity hRun hLimit (hFailed 1)).1
  rw [hOther] at hFront
  exact ⟨trace, s, hRun, ⟨hReceived, hAll.symm.trans hReceived⟩, hOther, hFront⟩

end Rsadb.Session
