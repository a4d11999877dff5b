import Mathlib.Data.List.Chain
import Rsadb.Auth.PubkeyCodec
import Rsadb.Session.HandshakeSafety

/-! How long the handshake waits for the user to accept the key. The wait is for
one message, and every stale frame that is skipped starts it again. -/
namespace Rsadb

/-- When the messages of one connection are there: none is there before the one in front of it. -/
def timeline {α : Type} : Nat → List (Nat × α) → List (Nat × α)
  | _, [] => []
  | now, (time, received) :: rest => (max now time, received) :: timeline (max now time) rest

/-- A frame of a session that is over. -/
def isStale : Result Message → Bool
  | .error _ => false
  | .ok msg =>
      match msg.command with
      | .close | .write | .okay | .sync => true
      | _ => false

/-- The frames that are skipped after `skipped` others, and what comes behind
them: the first arrival that decides the handshake. -/
def skim (skipped : Nat) : List (Nat × Result Message) →
    List (Nat × Result Message) × Option (Nat × Result Message)
  | [] => ([], none)
  | arrival :: rest =>
      if isStale arrival.2 ∧ skipped < MAX_STALE then
        (arrival :: (skim (skipped + 1) rest).1, (skim (skipped + 1) rest).2)
      else ([], some arrival)

/-- A third token, or a transport that reports the refusal itself. -/
def Refuses : Result Message → Prop
  | .error e => e = .unauthorized
  | .ok msg => msg.command = .auth ∧ msg.arg0 = AUTH_TOKEN

/-- From `now` on, nothing takes longer than `wait` to follow what was before it. -/
def Prompt (wait now : Nat) (arrivals : List (Nat × Result Message)) : Prop :=
  List.IsChain (fun earlier later => later ≤ earlier + wait) (now :: arrivals.map Prod.fst)

/-- Run the loop until the public key was offered. What is left to arrive then is returned. -/
def offerLoop (key : HostKey) : List (Nat × Result Message) → Progress → Transport →
    Option (List (Nat × Result Message) × Progress × Transport)
  | [], progress, transport => if progress.sentPubkey then some ([], progress, transport) else none
  | (time, outcome) :: rest, progress, transport =>
      if progress.sentPubkey then some ((time, outcome) :: rest, progress, transport)
      else
        match outcome with
        | .error _ => none
        | .ok msg =>
            match answer key progress msg { transport with
              now := max transport.now time
              incoming := rest
              trace := transport.trace ++ [.received msg] } with
            | (.done _, _) => none
            | (.again progress, transport) => offerLoop key rest progress transport

/-- The moment at which a handshake has offered its public key. -/
def offered (key : HostKey) (transport : Transport) :
    Option (List (Nat × Result Message) × Progress × Transport) :=
  match ({ transport with config := WireConfig.INITIAL } : Transport).send connectMessage with
  | (.error _, _) => none
  | (.ok (), transport) => offerLoop key transport.incoming ⟨false, false, 0⟩ transport

section

variable {key : HostKey} {progress later : Progress} {msg : Message} {transport next : Transport}

/-- What an answer has done that goes on with the loop: it signed a token, it
offered the key, or it skipped a frame. -/
theorem answer_again (h : answer key progress msg transport = (.again later, next)) :
    (∃ signature, later = { progress with sentSignature := true } ∧
      next = (transport.send (signatureMessage signature)).2) ∨
    (∃ pubkey, key.publicKeyPayload = .ok pubkey ∧ progress.sentSignature = true ∧
      later = { progress with sentPubkey := true } ∧
      next = (transport.send (pubkeyMessage pubkey)).2) ∨
    later = { progress with skipped := progress.skipped + 1 } ∧ next = transport := by
  unfold answer at h
  cases hCommand : msg.command with
  | connect =>
      simp only [hCommand] at h
      split at h <;> cases h
  | auth =>
      simp only [hCommand] at h
      split_ifs at h with hToken hUnsigned hUnoffered
      · split at h
        · cases h
        · split at h
          · cases h
          · rename_i _ signature _ _ _ hSend
            cases h
            exact Or.inl ⟨signature, rfl, (congrArg Prod.snd hSend).symm⟩
      · split at h
        · cases h
        · split at h
          · cases h
          · rename_i _ pubkey hPubkey _ _ hSend
            cases h
            exact Or.inr (Or.inl ⟨pubkey, hPubkey, (Bool.not_eq_false _).mp hUnsigned, rfl,
              (congrArg Prod.snd hSend).symm⟩)
      · cases h
      · cases h
  | close | write | okay | sync =>
      simp only [hCommand] at h
      split_ifs at h
      · cases h
      · cases h
        exact Or.inr (Or.inr ⟨rfl, rfl⟩)
  | startTls | «open» =>
      simp only [hCommand] at h
      cases h

/-- An answer that ends the handshake well sends nothing. -/
theorem answer_ok {negotiated : Negotiated}
    (h : answer key progress msg transport = (.done (.ok negotiated), next)) :
    next.trace = transport.trace := by
  unfold answer at h
  cases hCommand : msg.command with
  | connect =>
      simp only [hCommand] at h
      split at h <;> cases h
      rfl
  | auth =>
      simp only [hCommand] at h
      split_ifs at h
      · split at h
        · cases h
        · split at h <;> cases h
      · split at h
        · cases h
        · split at h <;> cases h
      · cases h
      · cases h
  | close | write | okay | sync =>
      simp only [hCommand] at h
      split_ifs at h <;> cases h
  | startTls | «open» =>
      simp only [hCommand] at h
      cases h

/-- What a result must be that comes from the arrival which decides the handshake. -/
def Settles (received : Result Message) (result : Result Negotiated) : Prop :=
  (result = .error .unauthorized ↔ Refuses received) ∧
  ∀ negotiated, result = .ok negotiated → ∃ msg, received = .ok msg ∧ msg.command = .connect

theorem settles_error {received : Result Message} {e : Error} (hOther : e ≠ .unauthorized)
    (hNot : ¬Refuses received) : Settles received (.error e) :=
  ⟨iff_of_false (fun hSame => hOther (Except.error.inj hSame)) hNot, fun _ hOk => by cases hOk⟩

theorem answer_stale {skipped : Nat} (hStale : isStale (.ok msg) = true) (hFew : skipped < MAX_STALE) :
    answer key ⟨true, true, skipped⟩ msg transport = (.again ⟨true, true, skipped + 1⟩, transport) := by
  have hBelow : ¬skipped + 1 > MAX_STALE := Nat.not_lt.mpr hFew
  unfold answer
  unfold isStale at hStale
  cases hCommand : msg.command <;> simp_all

/-- Once the key was offered, whatever is not skipped ends the loop. -/
theorem answer_deciding {skipped : Nat} (h : ¬(isStale (.ok msg) = true ∧ skipped < MAX_STALE)) :
    ∃ result, Settles (.ok msg) result ∧
      (answer key ⟨true, true, skipped⟩ msg transport).1 = .done result := by
  unfold answer
  cases hCommand : msg.command with
  | connect =>
      have hNot : ¬Refuses (.ok msg) := by simp [Refuses, hCommand]
      cases hNegotiate : negotiate msg with
      | error e =>
          refine ⟨_, settles_error ?_ hNot, rfl⟩
          dsimp only [negotiate] at hNegotiate
          split_ifs at hNegotiate
          all_goals
            cases hNegotiate
            simp
      | ok negotiated => exact ⟨_, ⟨by simp [hNot], fun _ _ => ⟨msg, rfl, hCommand⟩⟩, rfl⟩
  | auth =>
      by_cases hToken : msg.arg0 = AUTH_TOKEN
      · refine ⟨_, ⟨iff_of_true rfl ⟨hCommand, hToken⟩, ?_⟩, by simp only [hToken]; rfl⟩
        simp
      · refine ⟨_, settles_error ?_ (fun hRefuses => hToken hRefuses.2), by simp only [if_neg hToken]; rfl⟩
        simp
  | close | write | okay | sync =>
      have hMany : skipped + 1 > MAX_STALE := by
        simp only [isStale, hCommand, true_and, Nat.not_lt] at h
        exact Nat.lt_succ_of_le h
      refine ⟨_, settles_error ?_ (by simp [Refuses, hCommand]), by simp only [if_pos hMany]; rfl⟩
      simp
  | startTls | «open» =>
      refine ⟨_, settles_error ?_ (by simp [Refuses, hCommand]), rfl⟩
      simp

end

section

variable {wait now : Nat} {time : Nat} {received : Result Message} {arrivals : List (Nat × Result Message)}

theorem prompt_cons :
    Prompt wait now ((time, received) :: arrivals) ↔ time ≤ now + wait ∧ Prompt wait time arrivals :=
  List.isChain_cons_cons

theorem prompt_nil : Prompt wait now [] := List.isChain_singleton now

/-- A frame that is skipped stands in front of everything behind it. -/
theorem skim_stale {skipped : Nat} (h : isStale received = true ∧ skipped < MAX_STALE) :
    skim skipped ((time, received) :: arrivals) =
      ((time, received) :: (skim (skipped + 1) arrivals).1, (skim (skipped + 1) arrivals).2) :=
  if_pos h

theorem skim_deciding {skipped : Nat} (h : ¬(isStale received = true ∧ skipped < MAX_STALE)) :
    skim skipped ((time, received) :: arrivals) = ([], some (time, received)) :=
  if_neg h

end

/-- The handshake waits to no end, or too long for the arrival that would decide it. -/
def GivesUp (wait now : Nat)
    (skimmed : List (Nat × Result Message) × Option (Nat × Result Message)) : Prop :=
  ∀ deciding, skimmed.2 = some deciding → ¬Prompt wait now (skimmed.1 ++ [deciding])

/-- Once the key was offered, the loop gives up at the first wait that is too long,
and otherwise comes to the deciding arrival. The induction follows what arrives. -/
theorem loop_offered (key : HostKey) (authWait : Nat) (incoming : List (Nat × Result Message))
    (skipped : Nat) (transport : Transport) :
    let skimmed := skim skipped (timeline transport.now incoming)
    let result := (handshakeLoop key authWait incoming ⟨true, true, skipped⟩ transport).1
    (GivesUp authWait transport.now skimmed → result = some (.error .unauthorized)) ∧
    (∀ deciding, skimmed.2 = some deciding → Prompt authWait transport.now (skimmed.1 ++ [deciding]) →
      ∃ settled, Settles deciding.2 settled ∧ result = some settled) := by
  induction incoming generalizing skipped transport with
  | nil => exact ⟨fun _ => rfl, fun deciding hNone => by cases hNone⟩
  | cons arrival rest ih =>
      obtain ⟨time, received⟩ := arrival
      dsimp only
      unfold handshakeLoop
      rw [timeline]
      by_cases hLate : transport.now + authWait < time
      · rw [if_pos ⟨rfl, hLate⟩]
        refine ⟨fun _ => rfl, fun deciding hSome hPrompt => absurd hPrompt ?_⟩
        by_cases hSkip : isStale received = true ∧ skipped < MAX_STALE
        · rw [skim_stale hSkip, List.cons_append, prompt_cons]
          omega
        · rw [skim_deciding hSkip] at hSome ⊢
          cases hSome
          rw [List.nil_append, prompt_cons]
          omega
      · rw [if_neg (fun hBoth => hLate hBoth.2)]
        have hSoon : max transport.now time ≤ transport.now + authWait := by omega
        by_cases hSkip : isStale received = true ∧ skipped < MAX_STALE
        · cases received with
          | error e => cases hSkip.1
          | ok msg =>
              simp only [answer_stale hSkip.1 hSkip.2, skim_stale hSkip, GivesUp, List.cons_append, prompt_cons,
                hSoon, true_and]
              exact ih (skipped + 1) { transport with
                now := max transport.now time
                incoming := rest
                trace := transport.trace ++ [.received msg] }
        · simp only [skim_deciding hSkip, GivesUp, List.nil_append, Option.some.injEq, forall_eq',
            prompt_cons, hSoon, prompt_nil, and_self, not_true_eq_false, false_implies, true_and, true_implies]
          cases received with
          | error e => exact ⟨.error e, ⟨by simp [Refuses], by simp⟩, rfl⟩
          | ok msg =>
              obtain ⟨settled, hSettles, hDone⟩ := @answer_deciding key msg { transport with
                now := max transport.now time
                incoming := rest
                trace := transport.trace ++ [.received msg] } skipped hSkip
              refine ⟨settled, hSettles, ?_⟩
              dsimp only
              split
              · simp_all
              · simp_all

section

variable {key : HostKey} {transport moment : Transport} {rest : List (Nat × Result Message)}
  {progress : Progress}

theorem offerLoop_of_offered {incoming : List (Nat × Result Message)} (h : progress.sentPubkey = true) :
    offerLoop key incoming progress transport = some (incoming, progress, transport) := by
  cases incoming <;> exact if_pos h

/-- The loop goes on from where the key was offered, and the offer is the last
thing that was sent there. -/
theorem offerLoop_some {incoming : List (Nat × Result Message)} {before : Progress} (authWait : Nat)
    (hUnoffered : before.sentPubkey = false)
    (h : offerLoop key incoming before transport = some (rest, progress, moment)) :
    progress.sentSignature = true ∧ progress.sentPubkey = true ∧
    (∃ pubkey, key.publicKeyPayload = .ok pubkey ∧
      moment.trace.getLast? = some (.sent (pubkeyMessage pubkey))) ∧
    handshakeLoop key authWait incoming before transport =
      handshakeLoop key authWait rest progress moment := by
  induction incoming generalizing before transport with
  | nil =>
      unfold offerLoop at h
      rw [hUnoffered] at h
      cases h
  | cons arrival later ih =>
      obtain ⟨time, received⟩ := arrival
      unfold offerLoop at h
      rw [if_neg (by simp [hUnoffered])] at h
      cases received with
      | error e => cases h
      | ok msg =>
          have hOnTime : ¬(before.sentPubkey = true ∧ transport.now + authWait < time) := by
            simp [hUnoffered]
          dsimp only at h
          conv => rhs; rhs; rhs; lhs; unfold handshakeLoop
          rw [if_neg hOnTime]
          dsimp only
          generalize hAnswer : answer key before msg { transport with
            now := max transport.now time
            incoming := later
            trace := transport.trace ++ [.received msg] } = answered at h ⊢
          obtain ⟨result | again, next⟩ := answered
          · cases h
          · dsimp only at h ⊢
            rcases answer_again hAnswer with
              ⟨signature, rfl, -⟩ | ⟨pubkey, hPubkey, hSigned, rfl, rfl⟩ | ⟨rfl, -⟩
            · exact ih (by exact hUnoffered) h
            · rw [offerLoop_of_offered rfl] at h
              cases h
              exact ⟨hSigned, rfl, ⟨pubkey, hPubkey, by simp⟩, rfl⟩
            · exact ih (by exact hUnoffered) h

/-- A loop that comes to no offer, and ends well, has offered no key. -/
theorem offerLoop_none {incoming : List (Nat × Result Message)} {before : Progress}
    {negotiated : Negotiated} {pubkey : Bytes} {authWait : Nat} (h : offerLoop key incoming before transport = none)
    (hOk : (handshakeLoop key authWait incoming before transport).1 = some (.ok negotiated))
    (hSent : .sent (pubkeyMessage pubkey) ∈ (handshakeLoop key authWait incoming before transport).2.trace) :
    .sent (pubkeyMessage pubkey) ∈ transport.trace := by
  induction incoming generalizing before transport with
  | nil =>
      unfold handshakeLoop at hOk
      split at hOk <;> cases hOk
  | cons arrival later ih =>
      obtain ⟨time, received⟩ := arrival
      unfold handshakeLoop at hOk hSent
      split_ifs at hOk hSent with hLate
      · cases hOk
      cases received with
      | error e => cases hOk
      | ok msg =>
          unfold offerLoop at h
          split_ifs at h
          dsimp only at h hOk hSent
          split at h
          · rename_i result next hAnswer
            rw [hAnswer] at hOk hSent
            obtain rfl : result = .ok negotiated := Option.some.inj hOk
            simpa [answer_ok hAnswer] using hSent
          · rename_i again next hAnswer
            rw [hAnswer] at hOk hSent
            have hNext := ih h hOk hSent
            rcases answer_again hAnswer with ⟨signature, rfl, rfl⟩ | ⟨_, _, _, rfl, -⟩ | ⟨rfl, rfl⟩
            · simpa [signatureMessage, pubkeyMessage, AUTH_SIGNATURE, AUTH_RSAPUBLICKEY] using hNext
            · rw [offerLoop_of_offered rfl] at h
              cases h
            · simpa using hNext

/-- The handshake from the moment of its offer on. -/
theorem offered_some (authWait : Nat) (h : offered key transport = some (rest, progress, moment)) :
    progress.sentSignature = true ∧ progress.sentPubkey = true ∧
    (∃ pubkey, key.publicKeyPayload = .ok pubkey ∧
      moment.trace.getLast? = some (.sent (pubkeyMessage pubkey))) ∧
    handshake key authWait transport = handshakeLoop key authWait rest progress moment := by
  unfold offered at h
  unfold handshake
  generalize ({ transport with config := WireConfig.INITIAL } : Transport).send connectMessage =
    sent at h ⊢
  obtain ⟨e | ⟨⟩, ready⟩ := sent
  · cases h
  · exact offerLoop_some authWait rfl h

/-- A handshake that ends well and has no such moment has offered no key. -/
theorem offered_none {pubkey : Bytes} {negotiated : Negotiated} {authWait : Nat}
    (h : offered key transport = none)
    (hOk : (handshake key authWait transport).1 = some (.ok negotiated))
    (hSent : .sent (pubkeyMessage pubkey) ∈ (handshake key authWait transport).2.trace) :
    .sent (pubkeyMessage pubkey) ∈ transport.trace := by
  unfold offered at h
  unfold handshake at hOk hSent
  split at h
  · rename_i e ready hSend
    rw [hSend] at hOk
    cases hOk
  · rename_i ready hSend
    rw [hSend] at hOk hSent
    have hReady : ready.trace = transport.trace ++ [.sent connectMessage] :=
      (congrArg (fun sending => sending.2.trace) hSend).symm
    have hBefore := offerLoop_none h hOk hSent
    rw [hReady] at hBefore
    simpa [pubkeyMessage, connectMessage] using hBefore

/-- The deadline for the user holds unless the deciding arrival is late, no wait
before it was too long, and it does not refuse the key. -/
theorem deadline_iff {authWait : Nat} (h : offered key transport = some (rest, progress, moment)) :
    ((∀ negotiated, (handshake key authWait transport).1 = some (.ok negotiated) →
        ∃ time msg, (skim progress.skipped (timeline moment.now rest)).2 = some (time, .ok msg) ∧
          msg.command = .connect ∧ time ≤ moment.now + authWait) ∧
      ((∀ deciding, (skim progress.skipped (timeline moment.now rest)).2 = some deciding →
          moment.now + authWait < deciding.1) →
        (handshake key authWait transport).1 = some (.error .unauthorized))) ↔
    ∀ deciding, (skim progress.skipped (timeline moment.now rest)).2 = some deciding →
      deciding.1 ≤ moment.now + authWait ∨
      ¬Prompt authWait moment.now ((skim progress.skipped (timeline moment.now rest)).1 ++ [deciding]) ∨
      Refuses deciding.2 := by
  obtain ⟨hSigned, hOffered, -, hRun⟩ := offered_some authWait h
  obtain ⟨sentSignature, sentPubkey, skipped⟩ := progress
  obtain rfl : sentSignature = true := hSigned
  obtain rfl : sentPubkey = true := hOffered
  obtain ⟨hGivesUp, hDecides⟩ := loop_offered key authWait rest skipped moment
  rw [hRun]
  dsimp only at hGivesUp hDecides ⊢
  generalize (handshakeLoop key authWait rest ⟨true, true, skipped⟩ moment).1 = result
    at hGivesUp hDecides ⊢
  generalize skim skipped (timeline moment.now rest) = skimmed at hGivesUp hDecides ⊢
  obtain ⟨stale, _ | ⟨time, received⟩⟩ := skimmed
  · have hResult := hGivesUp fun _ hNone => by cases hNone
    simp [hResult]
  · by_cases hPrompt : Prompt authWait moment.now (stale ++ [(time, received)])
    · obtain ⟨settled, ⟨hRefuses, hConnect⟩, rfl⟩ := hDecides _ rfl hPrompt
      constructor
      · rintro ⟨-, hExpires⟩ deciding hSome
        cases hSome
        by_cases hLate : moment.now + authWait < time
        · have hUnauthorized := hExpires fun deciding hSome => by
            cases hSome
            exact hLate
          exact Or.inr (Or.inr (hRefuses.mp (Option.some.inj hUnauthorized)))
        · exact Or.inl (Nat.not_lt.mp hLate)
      · intro hWhen
        rcases hWhen _ rfl with hSoon | hNever | hRefused
        · refine ⟨fun negotiated hOk => ?_, fun hLate => absurd (hLate _ rfl) (Nat.not_lt.mpr hSoon)⟩
          obtain ⟨msg, rfl, hCommand⟩ := hConnect negotiated (Option.some.inj hOk)
          exact ⟨time, msg, rfl, hCommand, hSoon⟩
        · exact absurd hPrompt hNever
        · rw [hRefuses.mpr hRefused]
          exact ⟨fun _ hOk => (by cases hOk), fun _ => rfl⟩
    · have hResult : result = some (.error .unauthorized) := hGivesUp fun deciding hSome => by
        cases hSome
        exact hPrompt
      rw [hResult]
      constructor
      · rintro - deciding hSome
        cases hSome
        exact Or.inr (Or.inl hPrompt)
      · exact fun _ => ⟨fun _ hOk => (by cases hOk), fun _ => rfl⟩

end

/-- A host whose key no device knows. -/
private def stranger : HostKey := ⟨fun _ => .ok [], Base64.encode, ⟨2 ^ 2047 + 1, 65537⟩, []⟩

private theorem stranger_payload : ∃ pubkey, stranger.publicKeyPayload = .ok pubkey := by
  have hEncode := @Pubkey.encode_of_suitable stranger.publicKey (by unfold Pubkey.Suitable; decide +kernel)
  rw [HostKey.publicKeyPayload, HostKey.publicKeyLine, Pubkey.encodeLine, hEncode]
  exact ⟨_, rfl⟩

private def tokenOf (byte : UInt8) : Bytes := List.replicate TOKEN_LEN byte

/-- Two tokens at once, and the rest of what the device sends. -/
private def twoTokens (rest : List (Nat × Result Message)) : Transport :=
  Transport.fresh WireConfig.INITIAL 0
    ((0, .ok ⟨.auth, AUTH_TOKEN, 0, tokenOf 7⟩) ::
      (0, .ok ⟨.auth, AUTH_TOKEN, 0, tokenOf 8⟩) :: rest) fun _ => none

private theorem twoTokens_offered (rest : List (Nat × Result Message)) : ∃ moment : Transport,
    offered stranger (twoTokens rest) = some (rest, ⟨true, true, 0⟩, moment) ∧ moment.now = 0 := by
  obtain ⟨pubkey, hPubkey⟩ := stranger_payload
  have hSign : ∀ byte, stranger.signToken (tokenOf byte) = .ok [] := fun _ => rfl
  have hMap : (offered stranger (twoTokens rest)).map (fun offer => (offer.1, offer.2.1, offer.2.2.now)) =
      some (rest, ⟨true, true, 0⟩, 0) := by
    simp [offered, twoTokens, Transport.fresh, Transport.send, offerLoop, answer, hSign, hPubkey,
      offerLoop_of_offered]
  obtain ⟨⟨left, progress, moment⟩, hSome, hSame⟩ := Option.map_eq_some_iff.mp hMap
  simp only [Prod.mk.injEq] at hSame
  obtain ⟨rfl, rfl, hNow⟩ := hSame
  exact ⟨moment, hSome, hNow⟩

private def welcome : Message := ⟨.connect, VERSION, 0, []⟩

/-- The device shows its banner in time. -/
theorem deadline_accepted : ∃ moment : Transport, moment.now = 0 ∧
    ∀ negotiated, (handshake stranger 5 (twoTokens [(3, .ok welcome)])).1 = some (.ok negotiated) →
      ∃ time msg, (skim 0 (timeline moment.now [(3, .ok welcome)])).2 = some (time, .ok msg) ∧
        msg.command = .connect ∧ time ≤ moment.now + 5 := by
  obtain ⟨moment, hOffered, hNow⟩ := twoTokens_offered [(3, .ok welcome)]
  refine ⟨moment, hNow, ((deadline_iff hOffered).mpr fun deciding hSome => Or.inl ?_).1⟩
  rw [hNow] at hSome ⊢
  cases hSome
  decide

/-- One stale frame doubles the time that the user has. -/
theorem deadline_passed : ¬∀ (key : HostKey) (authWait : Nat) (transport moment : Transport)
    (rest : List (Nat × Result Message)) (progress : Progress) (negotiated : Negotiated),
    offered key transport = some (rest, progress, moment) →
    (handshake key authWait transport).1 = some (.ok negotiated) →
    ∃ time msg, (skim progress.skipped (timeline moment.now rest)).2 = some (time, .ok msg) ∧
      msg.command = .connect ∧ time ≤ moment.now + authWait := by
  intro hClaim
  obtain ⟨moment, hOffered, hNow⟩ := twoTokens_offered [(5, .ok ⟨.close, 1, 1, []⟩), (10, .ok welcome)]
  obtain ⟨-, -, -, hRun⟩ := offered_some 5 hOffered
  obtain ⟨negotiated, hNegotiate⟩ : ∃ negotiated, negotiate welcome = .ok negotiated := ⟨_, rfl⟩
  have hCommand : welcome.command = .connect := rfl
  have hOk : (handshake stranger 5 (twoTokens [(5, .ok ⟨.close, 1, 1, []⟩), (10, .ok welcome)])).1 =
      some (.ok negotiated) := by
    rw [hRun]
    simp [handshakeLoop, hNow, answer, hNegotiate, hCommand, MAX_STALE]
  obtain ⟨time, msg, hSome, -, hTime⟩ := hClaim _ _ _ _ _ _ _ hOffered hOk
  rw [hNow] at hSome hTime
  cases hSome
  exact absurd hTime (by decide)

end Rsadb
