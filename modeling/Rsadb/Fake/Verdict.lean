import Rsadb.Fake.Accord
import Rsadb.Library.Course

/-! What comes of the handshake. Where nothing is lost the two ends take turns, and
the host comes to the verdict that the configuration of the device gives. -/
namespace Rsadb.Fake

/-- What the host's handshake has returned. -/
def HostPhase.result : HostPhase → Option (Result Negotiated)
  | .session negotiated _ => some (.ok negotiated)
  | .failed e => some (.error e)
  | _ => none

/-- How many turns the host can still take. -/
def HostPhase.remaining : HostPhase → Nat
  | .idle => 4
  | .shaking progress => 1 + (if progress.sentSignature then 0 else 1) + (if progress.sentPubkey then 0 else 1)
  | _ => 0

/-- How many turns the device can still take. -/
def DevicePhase.remaining {Shared Handler : Type} : DevicePhase Shared Handler → Nat
  | .shaking .connect => 4
  | .shaking .signature => 3
  | .shaking .offer => 2
  | .shaking .anything => 1
  | _ => 0

theorem HostAt.sure {progress : Progress} {host : HostPhase} (h : HostAt False progress host) :
    host = .shaking progress := by
  rcases h with h | ⟨hNo, -⟩
  · exact h
  · exact hNo.elim

theorem DeviceAt.sure {Shared Handler : Type} {awaiting : Awaiting} {device : DevicePhase Shared Handler} (h : DeviceAt False awaiting device) :
    device = .shaking awaiting := by
  rcases h with h | ⟨hNo, -⟩
  · exact h
  · exact hNo.elim

/-- The steps that are left to the ends themselves. -/
def settling : List ConnectionAction := [.hello, .read, .take, .giveUp, .lose .disconnected]

namespace Connection

variable {Shared Handler : Type} {parties : Parties Shared Handler} {calls : Action → Prop}
  {trace : List NetworkEvent} {c c' : Connection Shared Handler} {action : ConnectionAction}
  {events : List ConnectionEvent}

def remaining (c : Connection Shared Handler) : Nat := c.host.remaining + c.device.remaining

/-- The host answers a message by the end of its handshake, by passing it over,
or by a message of its own behind which it goes on unless the send has failed. -/
theorem answer_shape (key : HostKey) (progress : Progress) (msg : Message) :
    (∃ result, ∃ config : WireConfig → WireConfig, ∀ transport, answer key progress msg transport =
      (.done result, { transport with config := config transport.config })) ∨
    ((msg.command ≠ .connect ∧ msg.command ≠ .auth ∧ msg.command ≠ .startTls) ∧ ∃ skipped, ∀ transport,
      answer key progress msg transport = (.again { progress with skipped := skipped }, transport)) ∨
    ∃ next reply, (HostPhase.shaking next).remaining < (HostPhase.shaking progress).remaining ∧
      ∀ transport, answer key progress msg transport =
        (turnOf next (transport.send reply).1, (transport.send reply).2) := by
  cases hCommand : msg.command with
  | connect =>
      apply Or.inl
      cases hNegotiate : negotiate msg with
      | error e => exact ⟨.error e, id, fun transport => by simp only [answer, hCommand, hNegotiate, id]⟩
      | ok negotiated =>
          exact ⟨.ok negotiated, fun _ => .negotiated negotiated.version negotiated.maxPayload,
            fun transport => by simp only [answer, hCommand, hNegotiate]⟩
  | startTls | «open» => exact Or.inl ⟨_, id, fun transport => by simp only [answer, hCommand, id]; rfl⟩
  | close | write | okay | sync =>
      by_cases hSkipped : progress.skipped + 1 > MAX_STALE
      · exact Or.inl ⟨_, id, fun transport => by simp only [answer, hCommand, if_pos hSkipped, id]; rfl⟩
      · refine Or.inr (Or.inl ⟨by simp, progress.skipped + 1, fun transport => ?_⟩)
        simp only [answer, hCommand, if_neg hSkipped]
  | auth =>
      by_cases hToken : msg.arg0 = AUTH_TOKEN
      · by_cases hUnsigned : progress.sentSignature = false
        · cases hSign : key.signToken msg.payload with
          | error e =>
              refine Or.inl ⟨.error e, id, fun transport => ?_⟩
              simp only [answer, hCommand, hToken, hUnsigned, hSign, if_true, id]
          | ok signature =>
              refine Or.inr (Or.inr ⟨{ progress with sentSignature := true }, signatureMessage signature, ?_,
                fun transport => ?_⟩)
              · simp [HostPhase.remaining, hUnsigned]
              · simp only [answer, hCommand, hToken, hUnsigned, hSign, if_true, ← signatureMessage.eq_def]
                rcases transport.send (signatureMessage signature) with ⟨_ | _, after⟩ <;> rfl
        · by_cases hUnoffered : progress.sentPubkey = false
          · cases hPayload : key.publicKeyPayload with
            | error e =>
                refine Or.inl ⟨.error e, id, fun transport => ?_⟩
                simp only [answer, hCommand, hToken, if_neg hUnsigned, hUnoffered, hPayload, if_true, id]
            | ok payload =>
                refine Or.inr (Or.inr ⟨{ progress with sentPubkey := true }, pubkeyMessage payload, ?_,
                  fun transport => ?_⟩)
                · simp [HostPhase.remaining, hUnoffered]
                · simp only [answer, hCommand, hToken, if_neg hUnsigned, hUnoffered, hPayload, if_true,
                    ← pubkeyMessage.eq_def]
                  rcases transport.send (pubkeyMessage payload) with ⟨_ | _, after⟩ <;> rfl
          · refine Or.inl ⟨.error .unauthorized, id, fun transport => ?_⟩
            simp only [answer, hCommand, hToken, if_neg hUnsigned, if_neg hUnoffered, if_true, id]
      · exact Or.inl ⟨_, id, fun transport => by simp only [answer, hCommand, if_neg hToken, id]; rfl⟩

theorem answer_sendError (key : HostKey) (progress : Progress) (msg : Message) (transport : Transport) :
    (answer key progress msg transport).2.sendError = transport.sendError := by
  obtain ⟨result, config, h⟩ | ⟨-, skipped, h⟩ | ⟨next, reply, -, h⟩ := answer_shape key progress msg <;> rw [h]
  rfl

/-- No step changes which sends fail. -/
theorem step_sendError (h : c.step parties action = some (c', events)) :
    c'.transport.sendError = c.transport.sendError := by
  have hSession : ∀ {c c' : Connection Shared Handler} {negotiated session own events},
      c.sessionStep negotiated session own = some (c', events) →
        c'.transport.sendError = c.transport.sendError := by
    intro c c' negotiated session own events hStep
    obtain ⟨next, -, hSame⟩ := Option.map_eq_some_iff.mp hStep
    cases hSame
    rfl
  cases action with
  | hello =>
      simp only [step] at h
      split at h
      · cases h
        obtain ⟨host, transport, hHello, -, -, hSends⟩ := hello_sends c
        rw [hHello, hSends]
      · cases h
  | read =>
      simp only [step] at h
      split at h
      · cases h
        exact answer_sendError _ _ _ _
      · cases h
  | lose | giveUp | drop =>
      simp only [step] at h
      split at h
      all_goals first | cases h | (split at h <;> cases h)
      all_goals rfl
  | take =>
      simp only [step] at h
      split at h
      · cases h
        unfold take
        split <;> rfl
      · cases h
  | session action =>
      cases action with
      | host own =>
          simp only [step] at h
          split at h
          · split at h
            · exact hSession h
            · cases h
          · cases h
      | arrive =>
          simp only [step] at h
          split at h
          · rename_i rest _ _
            obtain ⟨next, hTaken, hSame⟩ := Option.map_eq_some_iff.mp h
            cases hSame
            exact @hSession { c with down := rest } _ _ _ _ _ hTaken
          · cases h
      | serve =>
          simp only [step] at h
          split at h
          · obtain ⟨next, hTaken, hSame⟩ := Option.map_eq_some_iff.mp h
            cases hSame
            obtain ⟨served, -, hSame⟩ := Option.map_eq_some_iff.mp hTaken
            cases hSame
            rfl
          · cases h

/-- A message of the device takes the host further. -/
theorem answer_falls {key : HostKey} {progress : Progress} {msg : Message} {transport : Transport}
    (hCommand : msg.command = .connect ∨ msg.command = .auth ∨ msg.command = .startTls) :
    (HostPhase.of (answer key progress msg transport).1).remaining < (HostPhase.shaking progress).remaining := by
  have hDone : ∀ result, (HostPhase.of (.done result)).remaining < (HostPhase.shaking progress).remaining := by
    rintro (_ | _) <;> simp [HostPhase.of, HostPhase.remaining]
  obtain ⟨result, config, h⟩ | ⟨hOther, -⟩ | ⟨next, reply, hLess, h⟩ := answer_shape key progress msg
  · rw [h]
    exact hDone result
  · simp [hOther] at hCommand
  · rw [h]
    cases (transport.send reply).1 with
    | error e => exact hDone _
    | ok => exact hLess

/-- A message of the host takes the device further. -/
theorem take_falls (awaiting : Awaiting) (msg : Message) :
    (c.take parties awaiting msg).host = c.host ∧
      (c.take parties awaiting msg).device.remaining <
        (.shaking awaiting : DevicePhase Shared Handler).remaining := by
  unfold take Guard.handshake
  cases awaiting with
  | connect | signature =>
      dsimp only
      split_ifs <;> simp [DevicePhase.remaining]
  | offer =>
      cases parties.guard.offeredKey msg with
      | error e =>
          dsimp only
          split_ifs <;> simp [DevicePhase.remaining]
      | ok key =>
          dsimp only
          split_ifs <;> simp [DevicePhase.remaining]
  | anything => simp [DevicePhase.remaining]

/-- Where nothing is lost the result of the host is the verdict. -/
theorem At.result_eq (h : c.At parties calls False trace) {result : Result Negotiated}
    (hResult : c.host.result = some result) : result = parties.verdict := by
  obtain ⟨host, transport, device, policy, accepted, up, down⟩ := c
  unfold At at h
  dsimp only at h hResult
  generalize transport.config = config at h
  cases h with
  | apart => cases hResult
  | greeted hHost | refused hHost | challenged hHost | signed hHost | doubted hHost | offered hHost | ignored hHost
    | unreadable hHost | admitted hHost =>
      rw [HostAt.sure hHost] at hResult
      cases hResult
  | joined hNegotiated hGrounds hRun =>
      cases hResult
      rw [hGrounds.verdict, hNegotiated]
  | ended hVerdict hGrounds =>
      cases hResult
      rw [hVerdict.resolve_left id]

/-- What can be done while the host is at its handshake. -/
theorem step_pending {progress : Progress} {before : List ConnectionEvent} (hHost : c.host = .shaking progress)
    (hSmooth : Smooth before c action) (hEnabled : c.step parties action ≠ none) :
    (action = .read ∧ c.down ≠ []) ∨ (action = .take ∧ c.up ≠ []) ∨
    ((∃ engine, c.device = .engine engine) ∧ c.up ≠ []) ∨
    (action = (if c.device.gone then .lose .disconnected else .giveUp) ∧ c.up = [] ∧ c.down = []) := by
  cases action with
  | hello => simp [step, hHost] at hEnabled
  | read =>
      refine Or.inl ⟨rfl, fun hNone => ?_⟩
      simp [step, hHost, hNone] at hEnabled
  | take =>
      refine Or.inr (Or.inl ⟨rfl, fun hNone => ?_⟩)
      simp [step, hNone] at hEnabled
  | lose e =>
      obtain ⟨rfl, hGone, hUp, hDown⟩ := hSmooth
      exact Or.inr (Or.inr (Or.inr ⟨by rw [if_pos hGone], hUp, hDown⟩))
  | giveUp =>
      obtain ⟨hThere, hUp, hDown⟩ := hSmooth
      exact Or.inr (Or.inr (Or.inr ⟨by simp [hThere], hUp, hDown⟩))
  | drop e => exact hSmooth.elim
  | session action =>
      cases action with
      | host own => simp [step, hHost] at hEnabled
      | arrive => simp [step, hHost] at hEnabled
      | serve =>
          simp only [step] at hEnabled
          split at hEnabled
          · rename_i engine _ _ _ hDevice hUp
            exact Or.inr (Or.inr (Or.inl ⟨⟨engine, hDevice⟩, by simp [hUp]⟩))
          · exact absurd rfl hEnabled

/-- One step and no other can be taken, and it takes the ends further. -/
def Turns (parties : Parties Shared Handler) (c : Connection Shared Handler) : Prop :=
  ∃ action ∈ settling, (∃ next, c.step parties action = some next ∧ next.1.remaining < c.remaining) ∧
    ∀ other before, Smooth before c other → c.step parties other ≠ none → other = action

theorem turns_take {progress : Progress} {awaiting : Awaiting} {sent : WireConfig} {msg : Message}
    {rest : List (WireConfig × Message)} (hHost : c.host = .shaking progress) (hDevice : c.device = .shaking awaiting)
    (hUp : c.up = (sent, msg) :: rest) (hDown : c.down = []) : c.Turns parties := by
  have hStep : c.step parties .take =
      some ({ c with up := rest }.take parties awaiting msg, [.taken sent c.policy msg]) := by
    simp [step, hDevice, hUp]
  obtain ⟨hSame, hLess⟩ := @take_falls _ _ parties { c with up := rest } awaiting msg
  refine ⟨.take, by simp [settling], ⟨_, hStep, ?_⟩, ?_⟩
  · rw [remaining, remaining, hSame, hDevice]
    exact Nat.add_lt_add_left hLess _
  · intro other before hSmooth hEnabled
    rcases step_pending hHost hSmooth hEnabled with ⟨-, hSome⟩ | ⟨hTake, -⟩ | ⟨⟨engine, hEngine⟩, -⟩ | ⟨-, hNone, -⟩
    · exact absurd hDown hSome
    · exact hTake
    · rw [hDevice] at hEngine
      cases hEngine
    · rw [hUp] at hNone
      cases hNone

theorem turns_read {progress : Progress} {sent : WireConfig} {msg : Message} {rest : List (WireConfig × Message)}
    (hHost : c.host = .shaking progress) (hUp : c.up = []) (hDown : c.down = (sent, msg) :: rest)
    (hCommand : msg.command = .connect ∨ msg.command = .auth ∨ msg.command = .startTls) : c.Turns parties := by
  have hStep : c.step parties .read =
      some ({ c with down := rest }.read parties.key progress msg, [.taken sent c.transport.config msg]) := by
    simp [step, hHost, hDown]
  refine ⟨.read, by simp [settling], ⟨_, hStep, ?_⟩, ?_⟩
  · rw [remaining, remaining, hHost]
    exact Nat.add_lt_add_right (answer_falls hCommand) _
  · intro other before hSmooth hEnabled
    rcases step_pending hHost hSmooth hEnabled with ⟨hRead, -⟩ | ⟨-, hSome⟩ | ⟨-, hSome⟩ | ⟨-, -, hNone⟩
    · exact hRead
    · exact absurd hUp hSome
    · exact absurd hUp hSome
    · rw [hDown] at hNone
      cases hNone

theorem turns_stop {progress : Progress} (hHost : c.host = .shaking progress) (hOffered : progress.sentPubkey = true)
    (hUp : c.up = []) (hDown : c.down = []) : c.Turns parties := by
  refine ⟨if c.device.gone then .lose .disconnected else .giveUp, ?_, ?_, ?_⟩
  · split <;> simp [settling]
  · split
    · refine ⟨({ c with host := .failed .disconnected }, []), by simp [step, hHost], ?_⟩
      simp [remaining, hHost, HostPhase.remaining]
    · refine ⟨({ c with host := .failed .unauthorized }, []), by simp [step, hHost, hOffered], ?_⟩
      simp [remaining, hHost, HostPhase.remaining]
  · intro other before hSmooth hEnabled
    rcases step_pending hHost hSmooth hEnabled with ⟨-, hSome⟩ | ⟨-, hSome⟩ | ⟨-, hSome⟩ | ⟨hStop, -⟩
    · exact absurd hDown hSome
    · exact absurd hUp hSome
    · exact absurd hUp hSome
    · exact hStop

/-- While the host is at its handshake the ends take turns. -/
theorem At.turns (h : c.At parties calls False trace) (hPending : c.host.result = none) : c.Turns parties := by
  obtain ⟨host, transport, device, policy, accepted, up, down⟩ := c
  unfold At at h
  dsimp only at h hPending
  generalize transport.config = config at h
  cases h with
  | apart hDevice =>
      obtain rfl := DeviceAt.sure hDevice
      refine ⟨.hello, by simp [settling], ⟨_, rfl, ?_⟩, ?_⟩
      · obtain ⟨host, after, hHello, hGoes, -⟩ := hello_sends
          (⟨.idle, transport, .shaking .connect, .INITIAL, none, [], []⟩ : Connection Shared Handler)
        rw [hHello]
        rcases hGoes with rfl | ⟨e, rfl, -⟩ <;> simp [remaining, HostPhase.remaining]
      · intro other before hSmooth hEnabled
        cases other with
        | hello => rfl
        | session action => cases action <;> simp [step] at hEnabled
        | drop => exact hSmooth.elim
        | _ => simp [step] at hEnabled
  | greeted hHost hDevice => exact turns_take (HostAt.sure hHost) (DeviceAt.sure hDevice) rfl rfl
  | signed hHost hDevice hSigns => exact turns_take (HostAt.sure hHost) (DeviceAt.sure hDevice) rfl rfl
  | offered hHost hDevice hOffers => exact turns_take (HostAt.sure hHost) (DeviceAt.sure hDevice) rfl rfl
  | refused hHost hTls => exact turns_read (HostAt.sure hHost) rfl rfl (Or.inr (Or.inr rfl))
  | challenged hHost hDevice hAsks => exact turns_read (HostAt.sure hHost) rfl rfl (Or.inr (Or.inl rfl))
  | doubted hHost hDevice hDoubts => exact turns_read (HostAt.sure hHost) rfl rfl (Or.inr (Or.inl rfl))
  | admitted hHost hGrounds => exact turns_read (HostAt.sure hHost) rfl rfl (Or.inl rfl)
  | ignored hHost hDevice hOffers hKey hAccept => exact turns_stop (HostAt.sure hHost) rfl rfl rfl
  | unreadable hHost hOffers hKey => exact turns_stop (HostAt.sure hHost) rfl rfl rfl
  | joined | ended => cases hPending

/-- Where nothing is lost the ends stay together. -/
theorem at_of_course {config : WireConfig} {course : Transition.Course (step parties) (start config fun _ => none)}
    (hSmooth : ∀ n action, course.action n = some action → Smooth (course.trace n) (course.state n) action) (n : Nat) :
    (course.state n).At parties (fun _ => True) False (sessionTrace (course.trace n)) ∧
      ∀ count, (course.state n).transport.sendError count = none := by
  induction n with
  | zero =>
      rw [course.state_zero, course.trace_zero]
      exact ⟨.apart (Or.inl rfl), fun count => rfl⟩
  | succ n ih =>
      obtain ⟨hAt, hSends⟩ := ih
      cases hAction : course.action n with
      | none =>
          obtain ⟨hState, hTrace⟩ := course.pause n hAction
          rw [hState, hTrace]
          exact ⟨hAt, hSends⟩
      | some action =>
          obtain ⟨events, hTaken, hTrace⟩ := course.next n action hAction
          have hCalls : Calls (fun _ => True) (course.trace n) (course.state n) action := by
            unfold Calls
            split <;> trivial
          rw [hTrace, step_sendError hTaken]
          exact ⟨(step_at hAt hCalls (Or.inr (hSmooth n action hAction)) (Or.inr hSends) hTaken).1, hSends⟩

end Connection

/-- Where nothing is lost, the host's handshake returns, and what it returns is
the verdict and nothing else: the session that the device offers, a refusal for a
reason of the host's own, or that the device will not have the host. -/
theorem connection_settles {Shared Handler : Type} {parties : Parties Shared Handler} {config : WireConfig}
    (course : Transition.Course (Connection.step parties) (.start config fun _ => none))
    (hSmooth : ∀ n action, course.action n = some action →
      Connection.Smooth (course.trace n) (course.state n) action)
    (hFair : ∀ action ∈ settling, course.Fair action) :
    (∃ n, (course.state n).host.result = some parties.verdict) ∧
      ∀ n result, (course.state n).host.result = some result → result = parties.verdict := by
  have hVerdict : ∀ n result, (course.state n).host.result = some result → result = parties.verdict :=
    fun n result hResult => (Connection.at_of_course hSmooth n).1.result_eq hResult
  refine ⟨?_, hVerdict⟩
  have hFalls : ∀ n, (course.state n).host.result = none → ∃ m ≥ n, (course.state m).host.result ≠ none ∨
      (course.state m).host.result = none ∧ (course.state m).remaining < (course.state n).remaining := by
    intro n hPending
    obtain ⟨action, hOwn, ⟨next, hStep, hLess⟩, hSole⟩ := (Connection.at_of_course hSmooth n).1.turns hPending
    -- Nothing happens until the step is taken whose turn it is.
    have hStays : ∀ m, course.state m = course.state n → course.action m ≠ some action →
        course.state (m + 1) = course.state n := by
      intro m hSame hOther
      cases hAction : course.action m with
      | none => exact (course.pause m hAction).1.trans hSame
      | some other =>
          obtain ⟨events, hTaken, -⟩ := course.next m other hAction
          have hSmoothly := hSmooth m other hAction
          rw [hSame] at hTaken hSmoothly
          have hThis := hSole other _ hSmoothly (by rw [hTaken]; simp)
          exact absurd (hAction.trans (congrArg some hThis)) hOther
    have hEnabled : ∀ m, course.state m = course.state n → (course.state m).step parties action ≠ none := by
      intro m hSame
      rw [hSame, hStep]
      simp
    obtain ⟨m, hLater, hSame, hTaken⟩ := (hFair action hOwn).taken hStays hEnabled rfl
    obtain ⟨events, hNext, -⟩ := course.next m action hTaken
    rw [hSame, hStep] at hNext
    cases hNext
    refine ⟨m + 1, Nat.le_succ_of_le hLater, ?_⟩
    by_cases hWaits : (course.state (m + 1)).host.result = none
    · exact Or.inr ⟨hWaits, hLess⟩
    · exact Or.inl hWaits
  have hStart : (course.state 0).host.result = none := by
    rw [course.state_zero]
    rfl
  obtain ⟨n, -, hSome⟩ := Transition.eventually_of_rank (fun n => (course.state n).remaining) hFalls hStart
  obtain ⟨result, hResult⟩ := Option.ne_none_iff_exists'.mp hSome
  exact ⟨n, hVerdict n result hResult ▸ hResult⟩

/-- The device knows the key, and the host is let in. -/
theorem connection_settles_known : ∃ course : Transition.Course (Connection.step plainParties)
    (.start .INITIAL fun _ => none), ∃ n, (course.state n).host.result = some (negotiate plainParties.guard.connect) := by
  let actions : List ConnectionAction := [.hello, .take, .read, .take, .read]
  have hAll : (Transition.execute (Connection.step plainParties) (fun _ _ _ => True) []
      (.start .INITIAL fun _ => none) actions).isSome := by decide +kernel
  let course := Transition.Course.replay (Connection.step plainParties) (.start .INITIAL fun _ => none) actions hAll
  have hSmooth : ∀ n action, course.action n = some action →
      Connection.Smooth (course.trace n) (course.state n) action := by
    intro n action hAction
    have hMem : action ∈ actions := List.mem_of_getElem? hAction
    simp only [actions, List.mem_cons, List.not_mem_nil, or_false] at hMem
    rcases hMem with rfl | rfl | rfl | rfl | rfl <;> trivial
  have hFair : ∀ action ∈ settling, course.Fair action := by
    intro action hOwn
    have hEnd : ∀ action ∈ settling, (Connection.step plainParties (Transition.replayed (Connection.step plainParties)
        (.start .INITIAL fun _ => none) actions actions.length).2 action).isNone = true := by decide +kernel
    apply Transition.Course.replay_fair
    exact Option.isNone_iff_eq_none.mp (hEnd action hOwn)
  obtain ⟨⟨n, hResult⟩, -⟩ := connection_settles course hSmooth hFair
  have hGrounds : plainParties.Grounds none := by
    apply Parties.Grounds.signed ⟨⟨rfl, rfl⟩, rfl⟩
    decide +kernel
  exact ⟨course, n, hResult.trans (congrArg some hGrounds.verdict)⟩

end Rsadb.Fake
