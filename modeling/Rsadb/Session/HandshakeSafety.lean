import Rsadb.Session.Handshake
import Rsadb.Library.Trace

/-! Safety of the handshake against a peer that sends anything in any order.
The loop's flags are tied to what crossed the transport by `Stage`; one answer
preserves it or ends the loop lawfully, and the loop follows by induction. -/
namespace Rsadb

/-- The signature message that answers a token. -/
def signatureMessage (signature : Bytes) : Message := ⟨.auth, AUTH_SIGNATURE, 0, signature⟩

/-- The message that offers the public key. -/
def pubkeyMessage (pubkey : Bytes) : Message := ⟨.auth, AUTH_RSAPUBLICKEY, 0, pubkey⟩

/-- When a message may be sent, given what crossed the transport before it. A
signature answers the first token, which has the agreed length. The public key
follows a signature and a second token. -/
def Permitted (key : HostKey) (before : List Exchange) : Exchange → Prop
  | .received _ => True
  | .sent msg =>
      (msg = connectMessage ∧ before = []) ∨
      (∃ token, before.filterMap Exchange.token = [token] ∧ token.length = TOKEN_LEN ∧
        ∃ signature, key.sign token = .ok signature ∧ msg = signatureMessage signature) ∨
      (∃ first second, before.filterMap Exchange.token = [first, second] ∧
        (∃ signature, .sent (signatureMessage signature) ∈ before) ∧
        ∃ pubkey, key.publicKeyPayload = .ok pubkey ∧ msg = pubkeyMessage pubkey)

/-- Where the loop stands: its flags, the tokens read and the messages sent. -/
inductive Stage : Progress → List Bytes → List Message → Prop where
  | unsigned (skipped : Nat) : Stage ⟨false, false, skipped⟩ [] [connectMessage]
  | signed (skipped : Nat) (token signature : Bytes) :
      Stage ⟨true, false, skipped⟩ [token] [connectMessage, signatureMessage signature]
  | offered (skipped : Nat) (first second signature pubkey : Bytes) :
      Stage ⟨true, true, skipped⟩ [first, second]
        [connectMessage, signatureMessage signature, pubkeyMessage pubkey]

/-- The loop invariant. Everything read was a stale frame or a token. -/
structure Looping (key : HostKey) (progress : Progress) (transport : Transport) : Prop where
  stage : Stage progress transport.tokens transport.sent
  permitted : ∀ before entry after, transport.trace = before ++ entry :: after →
    Permitted key before entry
  reads : transport.received.length = progress.skipped + transport.tokens.length
  stale : progress.skipped ≤ MAX_STALE

/-- What holds of the handshake whenever it is looked at, returned or not. -/
structure HandshakeSafe (key : HostKey) (result : Option (Result Negotiated))
    (transport : Transport) : Prop where
  sent_prefix : ∃ signature pubkey, transport.sent <+:
    [connectMessage, signatureMessage signature, pubkeyMessage pubkey]
  permitted : ∀ before entry after, transport.trace = before ++ entry :: after →
    Permitted key before entry
  third_token : 3 ≤ transport.tokens.length → result = some (.error .unauthorized)
  ok_on_banner : ∀ negotiated, result = some (.ok negotiated) →
    ∃ before msg, transport.trace = before ++ [.received msg] ∧ msg.command = .connect ∧
      VERSION_MIN ≤ msg.arg0 ∧ negotiate msg = .ok negotiated ∧
      transport.config = WireConfig.negotiated negotiated.version negotiated.maxPayload
  reads : transport.received.length ≤ 67

theorem negotiate_ok {msg : Message} {negotiated : Negotiated}
    (h : negotiate msg = .ok negotiated) : VERSION_MIN ≤ msg.arg0 := by
  by_cases hOld : msg.arg0 < VERSION_MIN
  · simp [negotiate, hOld] at h
  · exact UInt32.not_lt.mp hOld

theorem Stage.sent_prefix {progress : Progress} {tokens : List Bytes} {sent : List Message}
    (h : Stage progress tokens sent) : ∃ signature pubkey, sent <+:
      [connectMessage, signatureMessage signature, pubkeyMessage pubkey] := by
  cases h with
  | unsigned => exact ⟨[], [], by simp⟩
  | signed _ _ signature => exact ⟨signature, [], by simp⟩
  | offered _ _ _ signature pubkey => exact ⟨signature, pubkey, List.prefix_rfl⟩

theorem Stage.tokens_le {progress : Progress} {tokens : List Bytes} {sent : List Message}
    (h : Stage progress tokens sent) : tokens.length ≤ 2 := by
  cases h <;> simp

/-- A loop that stops waiting without having read anything more is safe. -/
theorem Looping.safe {key : HostKey} {progress : Progress} {transport : Transport}
    (h : Looping key progress transport) {result : Option (Result Negotiated)}
    (hResult : ∀ negotiated, result ≠ some (.ok negotiated)) :
    HandshakeSafe key result transport where
  sent_prefix := h.stage.sent_prefix
  permitted := h.permitted
  third_token := fun hThree => absurd h.stage.tokens_le (by omega)
  ok_on_banner := fun negotiated hOk => absurd hOk (hResult negotiated)
  reads := by
    have hTokens := h.stage.tokens_le
    have hReads := h.reads
    have hStale := h.stale
    simp only [MAX_STALE] at hStale
    omega

/-- A lawful state may be left with any error, whatever the clock says. -/
theorem Looping.safe_error {key : HostKey} {progress : Progress} {transport : Transport}
    (h : Looping key progress transport) (e : Error) (now : Nat)
    (incoming : List (Nat × Result Message)) :
    HandshakeSafe key (some (.error e)) { transport with now := now, incoming := incoming } := by
  have hMoved : Looping key progress { transport with now := now, incoming := incoming } :=
    ⟨h.stage, h.permitted, h.reads, h.stale⟩
  exact hMoved.safe (by simp)

theorem Stage.of_unsigned {progress : Progress} {tokens : List Bytes} {sent : List Message}
    (h : Stage progress tokens sent) (hSignature : progress.sentSignature = false) :
    progress = ⟨false, false, progress.skipped⟩ ∧ tokens = [] ∧ sent = [connectMessage] := by
  cases h with
  | unsigned => exact ⟨rfl, rfl, rfl⟩
  | signed => cases hSignature
  | offered => cases hSignature

theorem Stage.of_signed {progress : Progress} {tokens : List Bytes} {sent : List Message}
    (h : Stage progress tokens sent) (hSignature : ¬progress.sentSignature = false)
    (hPubkey : progress.sentPubkey = false) :
    progress = ⟨true, false, progress.skipped⟩ ∧ ∃ token signature, tokens = [token] ∧
      sent = [connectMessage, signatureMessage signature] := by
  cases h with
  | unsigned => exact absurd rfl hSignature
  | signed _ token signature => exact ⟨rfl, token, signature, rfl, rfl⟩
  | offered => cases hPubkey

/-- Skipping a frame changes none of the flags. -/
theorem Stage.skip {progress : Progress} {tokens : List Bytes} {sent : List Message}
    (h : Stage progress tokens sent) (skipped : Nat) :
    Stage { progress with skipped := skipped } tokens sent := by
  cases h with
  | unsigned => exact Stage.unsigned skipped
  | signed _ token signature => exact Stage.signed skipped token signature
  | offered _ first second signature pubkey =>
      exact Stage.offered skipped first second signature pubkey

section Answer

variable {key : HostKey} {progress : Progress} {transport read : Transport} {msg : Message}
  (h : Looping key progress transport)
  (hRead : read.trace = transport.trace ++ [.received msg])

include hRead in
private theorem read_views : read.sent = transport.sent ∧
    read.received = transport.received ++ [msg] ∧
    read.tokens = transport.tokens ++
      (if msg.command = .auth ∧ msg.arg0 = AUTH_TOKEN then [msg.payload] else []) := by
  simp only [Transport.sent, Transport.received, Transport.tokens, hRead, List.filterMap_append]
  refine ⟨by simp, by simp, ?_⟩
  by_cases hToken : msg.command = .auth ∧ msg.arg0 = AUTH_TOKEN <;>
    simp [Exchange.token, hToken]

include h hRead in
private theorem read_permitted : ∀ before entry after, read.trace = before ++ entry :: after →
    Permitted key before entry := by
  rw [hRead]
  exact Trace.law_concat h.permitted trivial

include h hRead in
/-- Returning an error right after a read is safe, if a third token gives the right one. -/
private theorem safe_after_read {result : Result Negotiated}
    (hThird : 3 ≤ read.tokens.length → result = .error .unauthorized)
    (hError : ∀ negotiated, result ≠ .ok negotiated) :
    HandshakeSafe key (some result) read where
  sent_prefix := by
    rw [(read_views hRead).1]
    exact h.stage.sent_prefix
  permitted := read_permitted h hRead
  third_token := fun hThree => congrArg some (hThird hThree)
  ok_on_banner := fun negotiated hOk => absurd (Option.some.inj hOk) (hError negotiated)
  reads := by
    have hTokens := h.stage.tokens_le
    have hReads := h.reads
    have hStale := h.stale
    simp only [MAX_STALE] at hStale
    rw [(read_views hRead).2.1, List.length_append, List.length_singleton]
    omega

include h hRead in
/-- A message that is not a token leaves at most two tokens read. -/
private theorem not_third (hNot : ¬(msg.command = .auth ∧ msg.arg0 = AUTH_TOKEN))
    {result : Result Negotiated} : 3 ≤ read.tokens.length → result = .error .unauthorized := by
  have hTokens := h.stage.tokens_le
  rw [(read_views hRead).2.2, if_neg hNot, List.append_nil]
  omega

include h hRead in
private theorem answer_connect (hCommand : msg.command = .connect) :
    ∃ result, (answer key progress msg read).1 = .done result ∧
      HandshakeSafe key (some result) (answer key progress msg read).2 := by
  have hNot : ¬(msg.command = .auth ∧ msg.arg0 = AUTH_TOKEN) := by simp [hCommand]
  simp only [answer, hCommand]
  cases hNegotiate : negotiate msg with
  | error e =>
      exact ⟨_, rfl, safe_after_read h hRead (not_third h hRead hNot) (by simp)⟩
  | ok negotiated =>
      refine ⟨_, rfl, ?_⟩
      have hThird : 3 ≤ read.tokens.length →
          (.error .disconnected : Result Negotiated) = .error .unauthorized := not_third h hRead hNot
      have hSafe := safe_after_read h hRead hThird (by simp)
      exact {
        sent_prefix := hSafe.sent_prefix
        permitted := hSafe.permitted
        third_token := fun hThree => by
          have hError := hSafe.third_token hThree
          simp at hError
        ok_on_banner := by
          rintro other hOk
          cases hOk
          exact ⟨transport.trace, msg, hRead, hCommand, negotiate_ok hNegotiate, hNegotiate, rfl⟩
        reads := hSafe.reads }

include h hRead in
/-- The first token is signed: the loop goes on with the signature sent. -/
private theorem looping_signed (hCommand : msg.command = .auth) (hType : msg.arg0 = AUTH_TOKEN)
    (hUnsigned : progress.sentSignature = false) {signature : Bytes}
    (hSign : key.signToken msg.payload = .ok signature) :
    Looping key { progress with sentSignature := true }
      (read.send (signatureMessage signature)).2 := by
  obtain ⟨hProgress, hTokens, hSent⟩ := h.stage.of_unsigned hUnsigned
  obtain ⟨hReadSent, hReadReceived, hReadTokens⟩ := read_views hRead
  have hNewTokens : read.tokens = [msg.payload] := by
    simp [hReadTokens, hTokens, hCommand, hType]
  obtain ⟨hLength, hRaw⟩ := HostKey.signToken_ok hSign
  have hReads := h.reads
  rw [hTokens] at hReads
  have hSentTokens : (read.send (signatureMessage signature)).2.tokens = [msg.payload] := by
    simpa [Transport.tokens, List.filterMap_cons] using hNewTokens
  refine ⟨?_, ?_, ?_, h.stale⟩
  · have hSentAll : (read.send (signatureMessage signature)).2.sent =
        [connectMessage, signatureMessage signature] := by
      have hOld : read.trace.filterMap Exchange.sentMessage = [connectMessage] :=
        hReadSent.trans hSent
      simp [Transport.sent, hOld]
    rw [hSentTokens, hSentAll, hProgress]
    exact Stage.signed _ _ _
  · rw [Transport.send_trace]
    exact Trace.law_concat (read_permitted h hRead)
      (Or.inr (Or.inl ⟨msg.payload, hNewTokens, hLength, signature, hRaw, rfl⟩))
  · have hReceived : (read.send (signatureMessage signature)).2.received = read.received := by
      simp [Transport.received]
    rw [hSentTokens, hReceived, hReadReceived, List.length_append, hReads]
    simp

include h hRead in
/-- The second token is answered with the public key. -/
private theorem looping_offered (hCommand : msg.command = .auth) (hType : msg.arg0 = AUTH_TOKEN)
    (hSigned : ¬progress.sentSignature = false) (hUnoffered : progress.sentPubkey = false)
    {pubkey : Bytes} (hPubkey : key.publicKeyPayload = .ok pubkey) :
    Looping key { progress with sentPubkey := true } (read.send (pubkeyMessage pubkey)).2 := by
  obtain ⟨hProgress, token, signature, hTokens, hSent⟩ := h.stage.of_signed hSigned hUnoffered
  obtain ⟨hReadSent, hReadReceived, hReadTokens⟩ := read_views hRead
  have hNewTokens : read.tokens = [token, msg.payload] := by
    simp [hReadTokens, hTokens, hCommand, hType]
  have hReads := h.reads
  rw [hTokens] at hReads
  have hSentTokens : (read.send (pubkeyMessage pubkey)).2.tokens = [token, msg.payload] := by
    simpa [Transport.tokens, List.filterMap_cons] using hNewTokens
  have hOld : read.trace.filterMap Exchange.sentMessage =
      [connectMessage, signatureMessage signature] := hReadSent.trans hSent
  refine ⟨?_, ?_, ?_, h.stale⟩
  · have hSentAll : (read.send (pubkeyMessage pubkey)).2.sent =
        [connectMessage, signatureMessage signature, pubkeyMessage pubkey] := by
      simp [Transport.sent, hOld]
    rw [hSentTokens, hSentAll, hProgress]
    exact Stage.offered _ _ _ _ _
  · rw [Transport.send_trace]
    have hMember : Exchange.sent (signatureMessage signature) ∈ read.trace := by
      have hIn : signatureMessage signature ∈ read.trace.filterMap Exchange.sentMessage := by
        simp [hOld]
      obtain ⟨entry, hEntry, hEq⟩ := List.mem_filterMap.mp hIn
      cases entry with
      | sent other =>
          cases hEq
          exact hEntry
      | received other => cases hEq
    exact Trace.law_concat (read_permitted h hRead)
      (Or.inr (Or.inr ⟨token, msg.payload, hNewTokens, ⟨signature, hMember⟩, pubkey, hPubkey, rfl⟩))
  · have hReceived : (read.send (pubkeyMessage pubkey)).2.received = read.received := by
      simp [Transport.received]
    rw [hSentTokens, hReceived, hReadReceived, List.length_append, hReads]
    simp

include h hRead in
/-- A stale frame is skipped, and the loop goes on. -/
private theorem looping_skipped (hNot : ¬(msg.command = .auth ∧ msg.arg0 = AUTH_TOKEN))
    (hStale : progress.skipped + 1 ≤ MAX_STALE) :
    Looping key { progress with skipped := progress.skipped + 1 } read := by
  obtain ⟨hSent, hReceived, hTokens⟩ := read_views hRead
  rw [if_neg hNot, List.append_nil] at hTokens
  refine ⟨?_, read_permitted h hRead, ?_, hStale⟩
  · rw [hTokens, hSent]
    exact h.stage.skip _
  · rw [hTokens, hReceived, List.length_append, h.reads, List.length_singleton]
    dsimp only
    omega

/-- What one answer may lead to: a lawful return, or a lawful state in which one
more message has been read. -/
def Lawful (key : HostKey) (transport : Transport) : Turn × Transport → Prop
  | (.done result, next) => HandshakeSafe key (some result) next
  | (.again progress, next) =>
      Looping key progress next ∧ next.received.length = transport.received.length + 1

include h hRead in
private theorem answer_token (hCommand : msg.command = .auth) (hType : msg.arg0 = AUTH_TOKEN) :
    Lawful key transport (answer key progress msg read) := by
  have hReceived : read.received.length = transport.received.length + 1 := by
    simp [(read_views hRead).2.1]
  simp only [answer, hCommand, hType, ↓reduceIte]
  split_ifs with hUnsigned hUnoffered
  · cases hSign : key.signToken msg.payload with
    | error e =>
        obtain ⟨-, hTokens, -⟩ := h.stage.of_unsigned hUnsigned
        refine safe_after_read h hRead (fun hThree => ?_) (by simp)
        rw [(read_views hRead).2.2, hTokens] at hThree
        simp [hCommand, hType] at hThree
    | ok signature =>
        have hNext := looping_signed h hRead hCommand hType hUnsigned hSign
        rcases hSend : read.send ⟨.auth, AUTH_SIGNATURE, 0, signature⟩ with ⟨sending, next⟩
        have hNextEq : next = (read.send (signatureMessage signature)).2 := by
          rw [signatureMessage, hSend]
        simp only [hSend]
        rw [← hNextEq] at hNext
        cases sending with
        | error e => exact hNext.safe_error e next.now next.incoming
        | ok _ => exact ⟨hNext, by simpa [hNextEq, Transport.received, List.filterMap_cons] using hReceived⟩
  · cases hPubkey : key.publicKeyPayload with
    | error e =>
        obtain ⟨-, _, _, hTokens, -⟩ := h.stage.of_signed hUnsigned hUnoffered
        refine safe_after_read h hRead (fun hThree => ?_) (by simp)
        rw [(read_views hRead).2.2, hTokens] at hThree
        simp [hCommand, hType] at hThree
    | ok pubkey =>
        have hNext := looping_offered h hRead hCommand hType hUnsigned hUnoffered hPubkey
        rcases hSend : read.send ⟨.auth, AUTH_RSAPUBLICKEY, 0, pubkey⟩ with ⟨sending, next⟩
        have hNextEq : next = (read.send (pubkeyMessage pubkey)).2 := by
          rw [pubkeyMessage, hSend]
        simp only [hSend]
        rw [← hNextEq] at hNext
        cases sending with
        | error e => exact hNext.safe_error e next.now next.incoming
        | ok _ => exact ⟨hNext, by simpa [hNextEq, Transport.received, List.filterMap_cons] using hReceived⟩
  · exact safe_after_read h hRead (fun _ => rfl) (by simp)

include h hRead in
/-- One answer is lawful, whatever was read. -/
theorem answer_lawful : Lawful key transport (answer key progress msg read) := by
  have hReceived : read.received.length = transport.received.length + 1 := by
    simp [(read_views hRead).2.1]
  have hStaleFrame (hNot : ¬(msg.command = .auth ∧ msg.arg0 = AUTH_TOKEN)) :
      Lawful key transport
        (if progress.skipped + 1 > MAX_STALE then
          (.done (.error (.protocol
            s!"device sent {progress.skipped + 1} stream frames and no banner during the handshake")),
            read)
        else (.again { progress with skipped := progress.skipped + 1 }, read)) := by
    split_ifs with hMany
    · exact safe_after_read h hRead (not_third h hRead hNot) (by simp)
    · exact ⟨looping_skipped h hRead hNot (by omega), hReceived⟩
  cases hCommand : msg.command with
  | connect =>
      obtain ⟨result, hDone, hSafe⟩ := answer_connect h hRead hCommand
      rw [show answer key progress msg read = ((answer key progress msg read).1,
        (answer key progress msg read).2) from rfl, hDone]
      exact hSafe
  | auth =>
      by_cases hType : msg.arg0 = AUTH_TOKEN
      · exact answer_token h hRead hCommand hType
      · simp only [answer, hCommand, hType, ↓reduceIte]
        exact safe_after_read h hRead (not_third h hRead (by simp [hType])) (by simp)
  | startTls =>
      simp only [answer, hCommand]
      exact safe_after_read h hRead (not_third h hRead (by simp [hCommand])) (by simp)
  | «open» =>
      simp only [answer, hCommand]
      exact safe_after_read h hRead (not_third h hRead (by simp [hCommand])) (by simp)
  | close =>
      simp only [answer, hCommand]
      exact hStaleFrame (by simp [hCommand])
  | write =>
      simp only [answer, hCommand]
      exact hStaleFrame (by simp [hCommand])
  | okay =>
      simp only [answer, hCommand]
      exact hStaleFrame (by simp [hCommand])
  | sync =>
      simp only [answer, hCommand]
      exact hStaleFrame (by simp [hCommand])

end Answer

/-- The loop is safe from every lawful state, and if it is still waiting then
little had arrived. The induction follows what arrives. -/
theorem handshakeLoop_safe (key : HostKey) (authWait : Nat) (incoming : List (Nat × Result Message))
    (progress : Progress) (transport : Transport) (h : Looping key progress transport) :
    HandshakeSafe key (handshakeLoop key authWait incoming progress transport).1
      (handshakeLoop key authWait incoming progress transport).2 ∧
    ((handshakeLoop key authWait incoming progress transport).1 = none →
      transport.received.length + incoming.length < 67) := by
  induction incoming generalizing progress transport with
  | nil =>
      unfold handshakeLoop
      split_ifs
      · exact ⟨h.safe_error _ _ _, by simp⟩
      · refine ⟨h.safe (by simp), fun _ => ?_⟩
        have hTokens := h.stage.tokens_le
        have hReads := h.reads
        have hStale := h.stale
        simp only [MAX_STALE] at hStale
        simp only [List.length_nil]
        omega
  | cons arrival rest ih =>
      obtain ⟨time, outcome⟩ := arrival
      unfold handshakeLoop
      split_ifs with hLate
      · exact ⟨h.safe_error _ _ _, by simp⟩
      · cases outcome with
        | error e => exact ⟨h.safe_error _ _ _, by simp⟩
        | ok msg =>
            have hRead : ({ transport with
              now := max transport.now time
              incoming := rest
              trace := transport.trace ++ [.received msg] } : Transport).trace =
                transport.trace ++ [.received msg] := rfl
            have hAnswer := answer_lawful h hRead
            dsimp only
            generalize answer key progress msg { transport with
              now := max transport.now time
              incoming := rest
              trace := transport.trace ++ [.received msg] } = turn at hAnswer ⊢
            obtain ⟨decision, next⟩ := turn
            cases decision with
            | done result => exact ⟨hAnswer, by simp⟩
            | again later =>
                obtain ⟨hNext, hReceived⟩ := hAnswer
                obtain ⟨hSafe, hWaiting⟩ := ih later next hNext
                refine ⟨hSafe, fun hNone => ?_⟩
                have hLess := hWaiting hNone
                rw [hReceived] at hLess
                simp only [List.length_cons]
                omega

/-- Handshake safety. Whatever arrives and whenever, and whichever sends fail:
what was sent is a prefix of the three messages, each sent only when `Permitted`;
a third token ends in `unauthorized`; the loop returns `ok` only on a banner of a
version that is new enough, with the transport configured for what it returns;
and it has returned once it has read at most 67 messages. -/
theorem handshake_safe (key : HostKey) (authWait now : Nat) (config : WireConfig)
    (incoming : List (Nat × Result Message)) (sendError : Nat → Option Error) :
    let outcome := handshake key authWait (Transport.fresh config now incoming sendError)
    HandshakeSafe key outcome.1 outcome.2 ∧ (67 ≤ incoming.length → outcome.1 ≠ none) := by
  have hStart : Looping key ⟨false, false, 0⟩
      (({ Transport.fresh config now incoming sendError with
        config := WireConfig.INITIAL } : Transport).send connectMessage).2 := by
    refine ⟨Stage.unsigned 0, ?_, rfl, by decide⟩
    exact @Trace.law_concat _ _ [] _ (by simp) (Or.inl ⟨rfl, rfl⟩)
  dsimp only
  unfold handshake
  rcases hSend : ({ Transport.fresh config now incoming sendError with
    config := WireConfig.INITIAL } : Transport).send connectMessage with ⟨sending, transport⟩
  rw [hSend] at hStart
  cases sending with
  | error e => exact ⟨hStart.safe_error e transport.now transport.incoming, by simp⟩
  | ok _ =>
      have hIncoming : transport.incoming = incoming := by
        have hNext : transport = (({ Transport.fresh config now incoming sendError with
          config := WireConfig.INITIAL } : Transport).send connectMessage).2 := by rw [hSend]
        rw [hNext]
        rfl
      obtain ⟨hSafe, hWaiting⟩ := handshakeLoop_safe key authWait transport.incoming _ _ hStart
      refine ⟨hSafe, fun hMany hNone => ?_⟩
      have hLess := hWaiting hNone
      rw [hIncoming] at hLess
      omega

end Rsadb
