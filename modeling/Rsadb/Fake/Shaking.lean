import Rsadb.Fake.Verdict

/-! The host of a connection does what its handshake does by itself: the steps of
the one, taken together, are a run of the loop of the other. -/
namespace Rsadb.Fake

/-- Messages as they arrive, without delay. -/
def arrivals (msgs : List Message) : List (Nat × Result Message) := msgs.map fun msg => (0, .ok msg)

namespace Connection

variable {Shared Handler : Type} {parties : Parties Shared Handler} {key : HostKey} {wait : Nat} {config : WireConfig}
  {sendError : Nat → Option Error} {c c' : Connection Shared Handler}

/-- The host answers a message by what it has sent so far, and by nothing else. -/
theorem answer_frame (key : HostKey) (progress : Progress) (msg : Message) (transport : Transport) (now : Nat)
    (incoming : List (Nat × Result Message)) :
    answer key progress msg { transport with now := now, incoming := incoming } =
      ((answer key progress msg transport).1,
        { (answer key progress msg transport).2 with now := now, incoming := incoming }) := by
  obtain ⟨result, config, h⟩ | ⟨-, skipped, h⟩ | ⟨next, reply, -, h⟩ := answer_shape key progress msg <;> rw [h, h]
  rfl

/-- An answer takes nothing from the transport. -/
theorem answer_received (key : HostKey) (progress : Progress) (msg : Message) (transport : Transport) :
    (answer key progress msg transport).2.received = transport.received := by
  obtain ⟨result, config, h⟩ | ⟨-, skipped, h⟩ | ⟨next, reply, -, h⟩ := answer_shape key progress msg <;> rw [h]
  · rfl
  · simp [Transport.received]

/-- How the loop of the handshake goes on behind a turn. -/
def goOn (key : HostKey) (wait : Nat) (later : List (Nat × Result Message)) :
    Turn × Transport → Option (Result Negotiated) × Transport
  | (.done result, after) => (some result, { after with now := 0, incoming := later })
  | (.again next, after) => handshakeLoop key wait later next { after with now := 0, incoming := later }

/-- The loop answers the next message, if it comes without delay. -/
theorem handshakeLoop_arrival (progress : Progress) (msg : Message) (transport : Transport)
    (later : List (Nat × Result Message)) :
    handshakeLoop key wait ((0, .ok msg) :: later) progress { transport with
        now := 0
        incoming := (0, .ok msg) :: later } =
      goOn key wait later
        (answer key progress msg { transport with trace := transport.trace ++ [.received msg] }) := by
  have hSoon : ¬(progress.sentPubkey = true ∧ 0 + wait < 0) := by simp
  have hFrame := answer_frame key progress msg { transport with trace := transport.trace ++ [.received msg] } 0 later
  rw [handshakeLoop, if_neg hSoon]
  dsimp only at hFrame ⊢
  rw [Nat.max_self, hFrame]
  rcases answer key progress msg { transport with trace := transport.trace ++ [.received msg] } with ⟨_ | _, after⟩ <;>
    rfl

/-- What the handshake of the host makes of some arrivals, from the start. -/
def alone (key : HostKey) (wait : Nat) (config : WireConfig) (sendError : Nat → Option Error)
    (incoming : List (Nat × Result Message)) : Option (Result Negotiated) × Transport :=
  handshake key wait (.fresh config 0 incoming sendError)

theorem alone_fails {e : Error} (hError : sendError 0 = some e) (incoming : List (Nat × Result Message)) :
    alone key wait config sendError incoming =
      (some (.error e), ⟨0, incoming, sendError, [.sent connectMessage], .INITIAL⟩) := by
  have hNone : (Transport.sent ⟨0, incoming, sendError, [], .INITIAL⟩).length = 0 := rfl
  simp only [alone, handshake, Transport.fresh, Transport.send, hNone, hError]
  rfl

theorem alone_shakes (hError : sendError 0 = none) (incoming : List (Nat × Result Message)) :
    alone key wait config sendError incoming = handshakeLoop key wait incoming ⟨false, false, 0⟩
      ⟨0, incoming, sendError, [.sent connectMessage], .INITIAL⟩ := by
  have hNone : (Transport.sent ⟨0, incoming, sendError, [], .INITIAL⟩).length = 0 := rfl
  simp only [alone, handshake, Transport.fresh, Transport.send, hNone, hError]
  rfl

/-- The host is as far as its handshake is by itself, with what has arrived so far. -/
def Alone (key : HostKey) (wait : Nat) (config : WireConfig) (sendError : Nat → Option Error)
    (c : Connection Shared Handler) : Prop :=
  match c.host with
  | .idle => c.transport = .fresh config 0 [] sendError
  | .shaking progress => ∀ later, alone key wait config sendError (arrivals c.transport.received ++ later) =
      handshakeLoop key wait later progress { c.transport with now := 0, incoming := later }
  | .session negotiated _ => ∃ transport,
      alone key wait config sendError (arrivals c.transport.received) = (some (.ok negotiated), transport) ∧
        transport.trace = c.transport.trace ∧ transport.config = c.transport.config
  | .failed e => ∃ last transport, (last = [] ∨ ∃ e, last = [(0, .error e)]) ∧
      alone key wait config sendError (arrivals c.transport.received ++ last) = (some (.error e), transport) ∧
        transport.trace = c.transport.trace ∧ transport.config = c.transport.config

theorem Alone.hello (h : c.Alone key wait config sendError) (hHost : c.host = .idle) :
    c.hello.Alone key wait config sendError := by
  obtain ⟨_, transport, device, policy, accepted, up, down⟩ := c
  obtain rfl : _ = HostPhase.idle := hHost
  obtain rfl : transport = .fresh config 0 [] sendError := h
  have hNone : (Transport.sent ⟨0, [], sendError, [], .INITIAL⟩).length = 0 := rfl
  unfold Alone Connection.hello
  dsimp only [Transport.fresh, Transport.send]
  simp only [hNone]
  cases hError : sendError 0 with
  | none =>
      intro later
      change alone key wait config sendError later = _
      rw [alone_shakes hError]
      rfl
  | some e =>
      refine ⟨[], ⟨0, [], sendError, [.sent connectMessage], .INITIAL⟩, Or.inl rfl, ?_, rfl, rfl⟩
      change alone key wait config sendError [] = _
      rw [alone_fails hError]

theorem Alone.read {progress : Progress} (h : c.Alone key wait config sendError) (hHost : c.host = .shaking progress)
    (msg : Message) : (c.read key progress msg).Alone key wait config sendError := by
  unfold Alone at h
  rw [hHost] at h
  dsimp only at h
  have hReceived : arrivals (answer key progress msg (c.heard msg)).2.received =
      arrivals c.transport.received ++ [(0, .ok msg)] := by
    rw [answer_received]
    simp [arrivals, heard, Transport.received]
  have hLoop : ∀ later, alone key wait config sendError
      (arrivals (answer key progress msg (c.heard msg)).2.received ++ later) =
      goOn key wait later (answer key progress msg (c.heard msg)) := by
    intro later
    rw [hReceived, List.append_assoc, List.singleton_append, h]
    exact handshakeLoop_arrival progress msg c.transport later
  unfold Alone Connection.read
  rcases hAnswer : answer key progress msg (c.heard msg) with ⟨⟨e | negotiated⟩ | next, after⟩ <;> rw [hAnswer] at hLoop
  · exact ⟨[], _, Or.inl rfl, hLoop [], rfl, rfl⟩
  · have hAll := hLoop []
    rw [List.append_nil] at hAll
    exact ⟨_, hAll, rfl, rfl⟩
  · exact hLoop

/-- The host is as far as its handshake is by itself, whatever happens. -/
theorem Alone.step {action : ConnectionAction} {events : List ConnectionEvent}
    (h : c.Alone parties.key wait config sendError) (hStep : c.step parties action = some (c', events)) :
    c'.Alone parties.key wait config sendError := by
  have hKept : ∀ {c' : Connection Shared Handler}, c'.host = c.host → c'.transport = c.transport →
      c'.Alone parties.key wait config sendError := by
    intro c' hHost hTransport
    unfold Alone at h ⊢
    rwa [hHost, hTransport]
  have hSession : ∀ {c₁ c₂ : Connection Shared Handler} {negotiated session own events},
      c₁.transport = c.transport → c.host = .session negotiated session →
      c₁.sessionStep negotiated session own = some (c₂, events) → c₂.Alone parties.key wait config sendError := by
    intro c₁ c₂ negotiated session own events hTransport hHost hTaken
    obtain ⟨next, -, hSame⟩ := Option.map_eq_some_iff.mp hTaken
    cases hSame
    unfold Alone at h ⊢
    rw [hHost] at h
    rwa [hTransport]
  cases action with
  | hello =>
      simp only [Connection.step] at hStep
      split at hStep
      · rename_i hHost
        cases hStep
        exact h.hello hHost
      · cases hStep
  | read =>
      simp only [Connection.step] at hStep
      split at hStep
      · rename_i progress sent msg rest hHost _
        cases hStep
        exact (@Alone.read _ _ _ _ _ _ { c with down := rest } _ h hHost msg)
      · cases hStep
  | lose e =>
      simp only [Connection.step] at hStep
      split at hStep
      · rename_i progress hHost
        cases hStep
        unfold Alone at h
        rw [hHost] at h
        have hSoon : ¬(progress.sentPubkey = true ∧ 0 + wait < 0) := by simp
        refine ⟨[(0, .error e)], { c.transport with now := 0, incoming := [] }, Or.inr ⟨e, rfl⟩, (h _).trans ?_,
          rfl, rfl⟩
        rw [handshakeLoop, if_neg hSoon]
        rfl
      · cases hStep
  | giveUp =>
      simp only [Connection.step] at hStep
      split at hStep
      · rename_i progress hHost
        split at hStep
        · rename_i hOffered
          cases hStep
          unfold Alone at h
          rw [hHost] at h
          refine ⟨[], { c.transport with now := 0 + wait, incoming := [] }, Or.inl rfl, (h _).trans ?_, rfl, rfl⟩
          rw [handshakeLoop, if_pos hOffered]
        · cases hStep
      · cases hStep
  | take =>
      simp only [Connection.step] at hStep
      split at hStep
      · cases hStep
        unfold Connection.take
        split <;> exact hKept rfl rfl
      · cases hStep
  | drop =>
      simp only [Connection.step] at hStep
      split at hStep <;> cases hStep <;> exact hKept rfl rfl
  | session action =>
      cases action with
      | host own =>
          simp only [Connection.step] at hStep
          split at hStep
          · rename_i hHost
            split at hStep
            · exact hSession rfl hHost hStep
            · cases hStep
          · cases hStep
      | arrive =>
          simp only [Connection.step] at hStep
          split at hStep
          · rename_i rest hHost _
            obtain ⟨next, hTaken, hSame⟩ := Option.map_eq_some_iff.mp hStep
            cases hSame
            exact @hSession { c with down := rest } _ _ _ _ _ rfl hHost hTaken
          · cases hStep
      | serve =>
          simp only [Connection.step] at hStep
          split at hStep
          · obtain ⟨next, hTaken, hSame⟩ := Option.map_eq_some_iff.mp hStep
            cases hSame
            obtain ⟨served, -, hSame⟩ := Option.map_eq_some_iff.mp hTaken
            cases hSame
            exact hKept rfl rfl
          · cases hStep

theorem alone_of_runs {calls : Action → Prop} {trace : List ConnectionEvent} (wait : Nat)
    (hRun : Transition.Runs (Connection.step parties) (Calls calls) (start config sendError) trace c) :
    c.Alone parties.key wait config sendError := by
  induction hRun with
  | start => rfl
  | next _ _ hTaken ih => exact ih.step hTaken

end Connection

/-- What the host of a connection comes to is what `handshake` comes to on the
messages that the device has sent it, with what becomes of the transport behind
them, and it has said the same on the way. -/
theorem connection_handshakes {Shared Handler : Type} {parties : Parties Shared Handler} {calls : Action → Prop}
    {config : WireConfig} {sendError : Nat → Option Error} {trace : List ConnectionEvent}
    {c : Connection Shared Handler}
    (hRun : Transition.Runs (Connection.step parties) (Connection.Calls calls) (.start config sendError) trace c)
    (wait : Nat) {result : Result Negotiated} (hResult : c.host.result = some result) :
    ∃ last transport, (last = [] ∨ ∃ e, last = [(0, .error e)]) ∧
      handshake parties.key wait (.fresh config 0 (arrivals c.transport.received ++ last) sendError) =
        (some result, transport) ∧
      transport.trace = c.transport.trace ∧ transport.config = c.transport.config := by
  have hAlone := Connection.alone_of_runs wait hRun
  unfold Connection.Alone at hAlone
  split at hAlone
  · rename_i hHost
    rw [hHost] at hResult
    cases hResult
  · rename_i hHost
    rw [hHost] at hResult
    cases hResult
  · rename_i hHost
    rw [hHost] at hResult
    cases hResult
    obtain ⟨transport, hSame, hRest⟩ := hAlone
    exact ⟨[], transport, Or.inl rfl, by rwa [List.append_nil], hRest⟩
  · rename_i hHost
    rw [hHost] at hResult
    cases hResult
    exact hAlone

/-- The handshake with an old device. -/
theorem connection_handshakes_legacy : ∃ incoming negotiated transport,
    handshake plainKey 5 (.fresh .INITIAL 0 incoming fun _ => none) = (some (.ok negotiated), transport) := by
  obtain ⟨trace, c, negotiated, session, hRun, -, hHost⟩ := legacy_run
  obtain ⟨last, transport, -, hHandshake, -⟩ := connection_handshakes hRun 5 (show _ = some (.ok negotiated) by rw [hHost]; rfl)
  exact ⟨_, negotiated, transport, hHandshake⟩

end Rsadb.Fake
