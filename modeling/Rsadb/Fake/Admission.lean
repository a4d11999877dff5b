import Rsadb.Fake.Connection
import Rsadb.Session.HandshakeSafety

/-! Whom the device lets in. The two ends go through the handshake in step, and
what comes behind it is a run of the network. -/
namespace Rsadb.Fake

/-- The message that carries a token. -/
def tokenMessage (token : Bytes) : Message := ⟨.auth, AUTH_TOKEN, 0, token⟩

namespace Guard

variable {guard : Guard} {signature payload : Bytes}

theorem handshake_tls (hTls : guard.config.requestTls = true) :
    guard.handshake .connect connectMessage = .leave (.ok ()) [.empty .startTls 1 0] := by
  simp [handshake, connectMessage, hTls]

theorem handshake_asks (hTls : guard.config.requestTls = false) (hAuth : guard.config.requireAuth = true) :
    guard.handshake .connect connectMessage = .wait .signature [tokenMessage guard.first] := by
  simp [handshake, connectMessage, tokenMessage, hTls, hAuth]

theorem handshake_free (hTls : guard.config.requestTls = false) (hAuth : guard.config.requireAuth = false) :
    guard.handshake .connect connectMessage = .enter none := by
  simp [handshake, connectMessage, hTls, hAuth]

theorem handshake_trusts (h : guard.trusts (signatureMessage signature) = true) :
    guard.handshake .signature (signatureMessage signature) = .enter none := by
  simp [handshake, h]

theorem handshake_doubts (h : guard.trusts (signatureMessage signature) = false) :
    guard.handshake .signature (signatureMessage signature) = .wait .offer [tokenMessage guard.second] := by
  simp [handshake, h, tokenMessage]

theorem handshake_unreadable {e : Error} (h : guard.offeredKey (pubkeyMessage payload) = .error e) :
    guard.handshake .offer (pubkeyMessage payload) = .leave (.error e) [] := by
  simp only [handshake, h]
  simp [pubkeyMessage]

theorem handshake_accepts {key : RsaPublicKey} (h : guard.offeredKey (pubkeyMessage payload) = .ok key)
    (hAccept : guard.config.acceptNewKeys = true) :
    guard.handshake .offer (pubkeyMessage payload) = .enter (some key) := by
  simp only [handshake, h, hAccept]
  simp [pubkeyMessage]

theorem handshake_ignores {key : RsaPublicKey} (h : guard.offeredKey (pubkeyMessage payload) = .ok key)
    (hAccept : guard.config.acceptNewKeys = false) :
    guard.handshake .offer (pubkeyMessage payload) = .wait .anything [] := by
  simp only [handshake, h, hAccept]
  simp [pubkeyMessage]

end Guard

namespace Parties

variable {Shared Handler : Type} (parties : Parties Shared Handler)

/-- The device asks for a signature. -/
def Asks : Prop := parties.guard.config.requestTls = false ∧ parties.guard.config.requireAuth = true

/-- The host signs the token that the device has drawn for it. -/
def Signs (signature : Bytes) : Prop := parties.Asks ∧ parties.key.signToken parties.guard.first = .ok signature

/-- The device knows none of its keys by the signature. -/
def Doubts : Prop :=
  ∃ signature, parties.Signs signature ∧ parties.guard.trusts (signatureMessage signature) = false

/-- The host offers its public key instead. -/
def Offers (payload : Bytes) : Prop := parties.Doubts ∧ parties.key.publicKeyPayload = .ok payload

/-- Why the device lets the host in, with the key that is taken up on the way. -/
inductive Grounds : Option RsaPublicKey → Prop
  | free (hTls : parties.guard.config.requestTls = false) (hAuth : parties.guard.config.requireAuth = false) :
      Grounds none
  | signed {signature : Bytes} (hSigns : parties.Signs signature)
      (hTrusts : parties.guard.trusts (signatureMessage signature) = true) : Grounds none
  | offered {payload : Bytes} {key : RsaPublicKey} (hOffers : parties.Offers payload)
      (hKey : parties.guard.offeredKey (pubkeyMessage payload) = .ok key)
      (hAccept : parties.guard.config.acceptNewKeys = true) : Grounds (some key)

/-- What comes of the handshake for the host if nothing is lost. -/
def verdict : Result Negotiated :=
  if parties.guard.config.requestTls then
    .error (.unsupported "device requested TLS authentication (A_STLS); rsadb 0.1 only speaks RSA auth")
  else if parties.guard.config.requireAuth then
    match parties.key.signToken parties.guard.first with
    | .error e => .error e
    | .ok signature =>
        if parties.guard.trusts (signatureMessage signature) then negotiate parties.guard.connect
        else match parties.key.publicKeyPayload with
        | .error e => .error e
        | .ok payload =>
            match parties.guard.offeredKey (pubkeyMessage payload) with
            | .error _ => .error .disconnected
            | .ok _ =>
                if parties.guard.config.acceptNewKeys then negotiate parties.guard.connect
                else .error .unauthorized
  else negotiate parties.guard.connect

variable {parties} {signature payload : Bytes} {key : RsaPublicKey} {accepted : Option RsaPublicKey} {e : Error}

theorem verdict_tls (hTls : parties.guard.config.requestTls = true) : parties.verdict =
    .error (.unsupported "device requested TLS authentication (A_STLS); rsadb 0.1 only speaks RSA auth") := by
  rw [verdict, hTls]
  rfl

theorem verdict_asks (h : parties.Asks) (hSign : parties.key.signToken parties.guard.first = .error e) :
    parties.verdict = .error e := by
  simp [verdict, h.1, h.2, hSign]

theorem verdict_doubts (h : parties.Doubts) (hPayload : parties.key.publicKeyPayload = .error e) :
    parties.verdict = .error e := by
  obtain ⟨signature, ⟨hAsks, hSign⟩, hTrusts⟩ := h
  simp [verdict, hAsks.1, hAsks.2, hSign, hTrusts, hPayload]

theorem verdict_unreadable (h : parties.Offers payload)
    (hKey : parties.guard.offeredKey (pubkeyMessage payload) = .error e) :
    parties.verdict = .error .disconnected := by
  obtain ⟨⟨signature, ⟨hAsks, hSign⟩, hTrusts⟩, hPayload⟩ := h
  simp [verdict, hAsks.1, hAsks.2, hSign, hTrusts, hPayload, hKey]

theorem verdict_ignores (h : parties.Offers payload)
    (hKey : parties.guard.offeredKey (pubkeyMessage payload) = .ok key)
    (hAccept : parties.guard.config.acceptNewKeys = false) : parties.verdict = .error .unauthorized := by
  obtain ⟨⟨signature, ⟨hAsks, hSign⟩, hTrusts⟩, hPayload⟩ := h
  simp [verdict, hAsks.1, hAsks.2, hSign, hTrusts, hPayload, hKey, hAccept]

/-- A host that is let in has what it agrees on with the device. -/
theorem Grounds.verdict (h : parties.Grounds accepted) : parties.verdict = negotiate parties.guard.connect := by
  cases h with
  | free hTls hAuth => simp [Parties.verdict, hTls, hAuth]
  | signed hSigns hTrusts =>
      obtain ⟨hAsks, hSign⟩ := hSigns
      simp [Parties.verdict, hAsks.1, hAsks.2, hSign, hTrusts]
  | offered hOffers hKey hAccept =>
      obtain ⟨⟨signature, ⟨hAsks, hSign⟩, hTrusts⟩, hPayload⟩ := hOffers
      simp [Parties.verdict, hAsks.1, hAsks.2, hSign, hTrusts, hPayload, hKey, hAccept]

end Parties

namespace Connection

/-- The host goes on with its handshake, unless a send has failed. -/
def Goes (transport : Transport) (progress : Progress) (host : HostPhase) : Prop :=
  host = .shaking progress ∨ ∃ e, host = .failed e ∧ ∃ count, transport.sendError count = some e

/-- What the host makes of a message that it has sent. -/
def turnOf (progress : Progress) : Result Unit → Turn
  | .ok () => .again progress
  | .error e => .done (.error e)

theorem goes_send (transport : Transport) (msg : Message) (progress : Progress) :
    Goes transport progress (.of (turnOf progress (transport.send msg).1)) := by
  simp only [Transport.send]
  cases hError : transport.sendError transport.sent.length with
  | none => exact Or.inl rfl
  | some e => exact Or.inr ⟨e, rfl, _, hError⟩

section

variable {key : HostKey} {token : Bytes} {offered : Bool} {skipped : Nat} {transport : Transport} {e : Error}

theorem answer_signs {signature : Bytes} (h : key.signToken token = .ok signature) :
    answer key ⟨false, offered, skipped⟩ (tokenMessage token) transport =
      (turnOf ⟨true, offered, skipped⟩ (transport.send (signatureMessage signature)).1,
        (transport.send (signatureMessage signature)).2) := by
  simp only [answer, tokenMessage, if_true, h, ← signatureMessage.eq_def]
  rcases transport.send (signatureMessage signature) with ⟨_ | _, after⟩ <;> rfl

theorem answer_unsigned (h : key.signToken token = .error e) :
    answer key ⟨false, offered, skipped⟩ (tokenMessage token) transport = (.done (.error e), transport) := by
  simp only [answer, tokenMessage, if_true, h]

theorem answer_offers {payload : Bytes} (h : key.publicKeyPayload = .ok payload) :
    answer key ⟨true, false, skipped⟩ (tokenMessage token) transport =
      (turnOf ⟨true, true, skipped⟩ (transport.send (pubkeyMessage payload)).1,
        (transport.send (pubkeyMessage payload)).2) := by
  simp only [answer, tokenMessage, if_true, h, ← pubkeyMessage.eq_def]
  rcases transport.send (pubkeyMessage payload) with ⟨_ | _, after⟩ <;> rfl

theorem answer_unoffered (h : key.publicKeyPayload = .error e) :
    answer key ⟨true, false, skipped⟩ (tokenMessage token) transport = (.done (.error e), transport) := by
  simp [answer, tokenMessage, h]

theorem answer_old {progress : Progress} {msg : Message} (hCommand : msg.command = .connect)
    (h : negotiate msg = .error e) : answer key progress msg transport = (.done (.error e), transport) := by
  simp only [answer, hCommand, h]

end

theorem sentSince_send (transport : Transport) (msg : Message) :
    sentSince transport (transport.send msg).2 = [(transport.config, msg)] := by
  simp [sentSince, under, Transport.sent, Transport.send]

theorem sentSince_same {before after : Transport} (h : after.trace = before.trace) : sentSince before after = [] := by
  simp [sentSince, under, Transport.sent, h]

variable {Shared Handler : Type} {c : Connection Shared Handler} {key : HostKey} {progress next : Progress}
  {msg reply : Message}

/-- The host opens the exchange, under the policy of an unknown peer. -/
theorem hello_sends (c : Connection Shared Handler) : ∃ host transport,
    c.hello = { c with host := host, transport := transport, up := c.up ++ [(.INITIAL, connectMessage)] } ∧
      Goes c.transport ⟨false, false, 0⟩ host ∧ transport.config = .INITIAL ∧
      transport.sendError = c.transport.sendError := by
  refine ⟨_, (({ c.transport with config := .INITIAL } : Transport).send connectMessage).2, ?_,
    goes_send { c.transport with config := .INITIAL } connectMessage ⟨false, false, 0⟩, rfl, rfl⟩
  unfold hello
  simp only [sentSince_send]
  cases (Transport.send { c.transport with config := .INITIAL } connectMessage).1 <;> rfl

/-- The host answers a message with another one. -/
theorem read_sends (h : ∀ transport, answer key progress msg transport =
      (turnOf next (transport.send reply).1, (transport.send reply).2)) :
    ∃ host transport, c.read key progress msg =
        { c with host := host, transport := transport, up := c.up ++ [(c.transport.config, reply)] } ∧
      Goes c.transport next host ∧ transport.config = c.transport.config ∧
      transport.sendError = c.transport.sendError := by
  refine ⟨_, ((c.heard msg).send reply).2, ?_, goes_send (c.heard msg) reply next, rfl, rfl⟩
  unfold read
  rw [h]
  simp only [sentSince_send]
  rfl

/-- A message ends the handshake of the host. -/
theorem read_ends {e : Error} (h : ∀ transport, answer key progress msg transport = (.done (.error e), transport)) :
    c.read key progress msg = { c with host := .failed e, transport := c.heard msg } := by
  unfold read
  rw [h]
  simp only [sentSince_same, List.append_nil]
  rfl

/-- The banner of the device ends the handshake well. -/
theorem read_connect {negotiated : Negotiated} (hCommand : msg.command = .connect)
    (h : negotiate msg = .ok negotiated) :
    c.read key progress msg = { c with
      host := .session negotiated (.start negotiated.maxPayload)
      transport := { c.heard msg with
        config := .negotiated negotiated.version negotiated.maxPayload } } := by
  unfold read
  simp only [answer, hCommand, h, sentSince_same, List.append_nil]
  rfl

end Connection

/-- The host is at some point of its handshake, or has failed there where the
transport may fail. -/
def HostAt (lossy : Prop) (progress : Progress) (host : HostPhase) : Prop :=
  host = .shaking progress ∨ lossy ∧ ∃ e, host = .failed e

/-- The device is at some point of its handshake, or has left it there where the
transport may fail. -/
def DeviceAt {Shared Handler : Type} (lossy : Prop) (awaiting : Awaiting) (device : DevicePhase Shared Handler) :
    Prop :=
  device = .shaking awaiting ∨ lossy ∧ ∃ outcome, device = .left outcome

section

variable {Shared Handler : Type} {lossy : Prop}

/-- Where the two ends can be at the same time, with what is on its way between
them, and with what has happened in the session. -/
inductive Juncture (parties : Parties Shared Handler) (calls : Action → Prop) (lossy : Prop) :
    List NetworkEvent → HostPhase → DevicePhase Shared Handler → WireConfig → WireConfig →
    Option RsaPublicKey → List (WireConfig × Message) → List (WireConfig × Message) → Prop
  | apart {device : DevicePhase Shared Handler} {config : WireConfig} (hDevice : DeviceAt lossy .connect device) :
      Juncture parties calls lossy [] .idle device config .INITIAL none [] []
  | greeted {host : HostPhase} {device : DevicePhase Shared Handler} (hHost : HostAt lossy ⟨false, false, 0⟩ host)
      (hDevice : DeviceAt lossy .connect device) :
      Juncture parties calls lossy [] host device .INITIAL .INITIAL none [(.INITIAL, connectMessage)] []
  | refused {host : HostPhase} {outcome : Result Unit} (hHost : HostAt lossy ⟨false, false, 0⟩ host)
      (hTls : parties.guard.config.requestTls = true) :
      Juncture parties calls lossy [] host (.left outcome) .INITIAL .INITIAL none []
        [(.INITIAL, .empty .startTls 1 0)]
  | challenged {host : HostPhase} {device : DevicePhase Shared Handler}
      (hHost : HostAt lossy ⟨false, false, 0⟩ host) (hDevice : DeviceAt lossy .signature device)
      (hAsks : parties.Asks) :
      Juncture parties calls lossy [] host device .INITIAL .INITIAL none []
        [(.INITIAL, tokenMessage parties.guard.first)]
  | signed {host : HostPhase} {device : DevicePhase Shared Handler} {signature : Bytes}
      (hHost : HostAt lossy ⟨true, false, 0⟩ host) (hDevice : DeviceAt lossy .signature device)
      (hSigns : parties.Signs signature) :
      Juncture parties calls lossy [] host device .INITIAL .INITIAL none
        [(.INITIAL, signatureMessage signature)] []
  | doubted {host : HostPhase} {device : DevicePhase Shared Handler} (hHost : HostAt lossy ⟨true, false, 0⟩ host)
      (hDevice : DeviceAt lossy .offer device) (hDoubts : parties.Doubts) :
      Juncture parties calls lossy [] host device .INITIAL .INITIAL none []
        [(.INITIAL, tokenMessage parties.guard.second)]
  | offered {host : HostPhase} {device : DevicePhase Shared Handler} {payload : Bytes}
      (hHost : HostAt lossy ⟨true, true, 0⟩ host) (hDevice : DeviceAt lossy .offer device)
      (hOffers : parties.Offers payload) :
      Juncture parties calls lossy [] host device .INITIAL .INITIAL none [(.INITIAL, pubkeyMessage payload)] []
  | ignored {host : HostPhase} {device : DevicePhase Shared Handler} {payload : Bytes} {key : RsaPublicKey}
      (hHost : HostAt lossy ⟨true, true, 0⟩ host) (hDevice : DeviceAt lossy .anything device)
      (hOffers : parties.Offers payload) (hKey : parties.guard.offeredKey (pubkeyMessage payload) = .ok key)
      (hAccept : parties.guard.config.acceptNewKeys = false) :
      Juncture parties calls lossy [] host device .INITIAL .INITIAL none [] []
  | unreadable {host : HostPhase} {outcome : Result Unit} {payload : Bytes} {e : Error}
      (hHost : HostAt lossy ⟨true, true, 0⟩ host) (hOffers : parties.Offers payload)
      (hKey : parties.guard.offeredKey (pubkeyMessage payload) = .error e) :
      Juncture parties calls lossy [] host (.left outcome) .INITIAL .INITIAL none [] []
  | admitted {host : HostPhase} {progress : Progress} {accepted : Option RsaPublicKey}
      (hHost : HostAt lossy progress host) (hGrounds : parties.Grounds accepted) :
      Juncture parties calls lossy [] host (.engine (.start parties.guard.config.maxPayload parties.shared))
        .INITIAL (.negotiated parties.guard.config.version parties.guard.limit) accepted []
        [(.INITIAL, parties.guard.connect)]
  | joined {negotiated : Negotiated} {accepted : Option RsaPublicKey} {trace : List NetworkEvent}
      {session : Session} {device : Device Shared Handler} {up down : List Message}
      (hNegotiated : negotiate parties.guard.connect = .ok negotiated) (hGrounds : parties.Grounds accepted)
      (hRun : Transition.Runs (Network.step parties.services) (Network.Calls calls)
        (.start negotiated.maxPayload parties.guard.config.maxPayload parties.shared) trace
        ⟨session, device, up, down⟩) :
      Juncture parties calls lossy trace (.session negotiated session) (.engine device)
        (.negotiated negotiated.version negotiated.maxPayload)
        (.negotiated parties.guard.config.version parties.guard.limit) accepted
        (under (.negotiated negotiated.version negotiated.maxPayload) up)
        (under (.negotiated parties.guard.config.version parties.guard.limit) down)
  | ended {e : Error} {device : DevicePhase Shared Handler} {policy : WireConfig} {accepted : Option RsaPublicKey}
      (hVerdict : lossy ∨ parties.verdict = .error e)
      (hGrounds : ∀ engine, device = .engine engine → parties.Grounds accepted) :
      Juncture parties calls lossy [] (.failed e) device .INITIAL policy accepted [] []

theorem HostAt.progress {progress other : Progress} (h : HostAt lossy other (.shaking progress)) :
    progress = other := by
  rcases h with h | ⟨-, e, h⟩
  · exact HostPhase.shaking.inj h
  · cases h

/-- A host at its handshake has left the start behind, and is not in a session. -/
theorem HostAt.under_way {progress : Progress} {host : HostPhase} (h : HostAt lossy progress host) :
    host ≠ .idle ∧ ∀ negotiated session, host ≠ .session negotiated session := by
  rcases h with rfl | ⟨-, e, rfl⟩ <;> simp

/-- A host that goes on is where it goes, if no send fails. -/
theorem Connection.Goes.at {transport : Transport} {progress : Progress} {host : HostPhase}
    (h : Goes transport progress host) (hSends : lossy ∨ ∀ count, transport.sendError count = none) :
    HostAt lossy progress host := by
  rcases h with h | ⟨e, h, count, hError⟩
  · exact Or.inl h
  · rcases hSends with hLossy | hNone
    · exact Or.inr ⟨hLossy, e, h⟩
    · rw [hNone] at hError
      cases hError

variable {device : DevicePhase Shared Handler}

theorem DeviceAt.awaiting {awaiting other : Awaiting}
    (h : DeviceAt lossy other (.shaking awaiting : DevicePhase Shared Handler)) : awaiting = other := by
  rcases h with h | ⟨-, outcome, h⟩
  · exact DevicePhase.shaking.inj h
  · cases h

/-- A device at its handshake is not in a session. -/
theorem DeviceAt.out {awaiting : Awaiting} (h : DeviceAt lossy awaiting device) (engine : Device Shared Handler) :
    device ≠ .engine engine := by
  rcases h with rfl | ⟨-, outcome, rfl⟩ <;> simp

namespace Connection

variable {parties : Parties Shared Handler} {calls : Action → Prop} {trace : List NetworkEvent}
  {c : Connection Shared Handler}

def At (parties : Parties Shared Handler) (calls : Action → Prop) (lossy : Prop) (trace : List NetworkEvent)
    (c : Connection Shared Handler) : Prop :=
  Juncture parties calls lossy trace c.host c.device c.transport.config c.policy c.accepted c.up c.down

theorem At.hello (h : c.At parties calls lossy trace) (hHost : c.host = .idle)
    (hSends : lossy ∨ ∀ count, c.transport.sendError count = none) : c.hello.At parties calls lossy trace := by
  obtain ⟨host, transport, hHello, hGoes, hConfig, -⟩ := hello_sends c
  rw [hHello]
  obtain ⟨_, before, device, policy, accepted, up, down⟩ := c
  obtain rfl : _ = HostPhase.idle := hHost
  unfold At at h ⊢
  dsimp only at h ⊢
  rw [hConfig]
  generalize before.config = config at h
  cases h with
  | apart hDevice => exact .greeted (hGoes.at hSends) hDevice
  | greeted hHost | refused hHost | challenged hHost | signed hHost | doubted hHost | offered hHost | ignored hHost
    | unreadable hHost | admitted hHost => exact absurd rfl (HostAt.under_way hHost).1

/-- The host has failed, and nothing is on its way any more. -/
theorem at_over {progress : Progress} {msg : Message} {e : Error}
    (hAnswer : ∀ transport, answer parties.key progress msg transport = (.done (.error e), transport))
    (hConfig : c.transport.config = .INITIAL) (hUp : c.up = []) (hDown : c.down = [])
    (hVerdict : parties.verdict = .error e)
    (hGrounds : ∀ engine, c.device = .engine engine → parties.Grounds c.accepted) :
    (c.read parties.key progress msg).At parties calls lossy [] := by
  rw [read_ends hAnswer]
  unfold At
  dsimp only [heard]
  rw [hConfig, hUp, hDown]
  exact .ended (Or.inr hVerdict) hGrounds

/-- The host takes the next message of its handshake. -/
theorem At.read {progress : Progress} {sent : WireConfig} {msg : Message} {rest : List (WireConfig × Message)}
    (h : c.At parties calls lossy trace) (hHost : c.host = .shaking progress) (hDown : c.down = (sent, msg) :: rest)
    (hSends : lossy ∨ ∀ count, c.transport.sendError count = none) :
    ({ c with down := rest }.read parties.key progress msg).At parties calls lossy trace ∧ sent = .INITIAL ∧
      c.transport.config = .INITIAL := by
  obtain ⟨_, before, device, policy, accepted, up, _⟩ := c
  obtain rfl : _ = HostPhase.shaking progress := hHost
  obtain rfl : _ = (sent, msg) :: rest := hDown
  unfold At at h
  dsimp only at h hSends ⊢
  generalize hConfig : before.config = config at h ⊢
  cases h with
  | refused hHost hTls =>
      exact ⟨at_over (fun transport => rfl) hConfig rfl rfl (Parties.verdict_tls hTls) (by simp), rfl, rfl⟩
  | challenged hHost hDevice hAsks =>
      obtain rfl := hHost.progress
      refine ⟨?_, rfl, rfl⟩
      cases hSign : parties.key.signToken parties.guard.first with
      | error e =>
          exact at_over (fun transport => answer_unsigned hSign) hConfig rfl rfl
            (Parties.verdict_asks hAsks hSign) fun engine hEngine => absurd hEngine (hDevice.out engine)
      | ok signature =>
          obtain ⟨host, after, hRead, hGoes, hAfter, -⟩ := read_sends fun transport => answer_signs hSign
          rw [hRead]
          unfold At
          dsimp only at hAfter ⊢
          rw [hAfter, hConfig]
          exact .signed (hGoes.at hSends) hDevice ⟨hAsks, hSign⟩
  | doubted hHost hDevice hDoubts =>
      obtain rfl := hHost.progress
      refine ⟨?_, rfl, rfl⟩
      cases hPayload : parties.key.publicKeyPayload with
      | error e =>
          exact at_over (fun transport => answer_unoffered hPayload) hConfig rfl rfl
            (Parties.verdict_doubts hDoubts hPayload) fun engine hEngine => absurd hEngine (hDevice.out engine)
      | ok payload =>
          obtain ⟨host, after, hRead, hGoes, hAfter, -⟩ := read_sends fun transport => answer_offers hPayload
          rw [hRead]
          unfold At
          dsimp only at hAfter ⊢
          rw [hAfter, hConfig]
          exact .offered (hGoes.at hSends) hDevice ⟨hDoubts, hPayload⟩
  | admitted hHost hGrounds =>
      refine ⟨?_, rfl, rfl⟩
      cases hNegotiate : negotiate parties.guard.connect with
      | error e =>
          exact at_over (fun transport => answer_old rfl hNegotiate) hConfig rfl rfl
            (hGrounds.verdict.trans hNegotiate) fun _ _ => hGrounds
      | ok negotiated =>
          rw [read_connect rfl hNegotiate]
          exact .joined hNegotiate hGrounds .start

/-- The device takes the next message of its handshake. -/
theorem At.take {awaiting : Awaiting} {sent : WireConfig} {msg : Message} {rest : List (WireConfig × Message)}
    (h : c.At parties calls lossy trace) (hDevice : c.device = .shaking awaiting) (hUp : c.up = (sent, msg) :: rest) :
    ({ c with up := rest }.take parties awaiting msg).At parties calls lossy trace ∧ sent = .INITIAL ∧
      c.policy = .INITIAL := by
  obtain ⟨host, transport, _, policy, accepted, _, down⟩ := c
  obtain rfl : _ = DevicePhase.shaking awaiting := hDevice
  obtain rfl : _ = (sent, msg) :: rest := hUp
  unfold At at h ⊢
  unfold Connection.take
  dsimp only at h ⊢
  generalize hConfig : transport.config = config at h
  cases h with
  | greeted hHost hDevice =>
      obtain rfl := hDevice.awaiting
      refine ⟨?_, rfl, rfl⟩
      cases hTls : parties.guard.config.requestTls with
      | true =>
          rw [Guard.handshake_tls hTls]
          dsimp only
          rw [hConfig]
          exact .refused hHost hTls
      | false =>
          cases hAuth : parties.guard.config.requireAuth with
          | true =>
              rw [Guard.handshake_asks hTls hAuth]
              dsimp only
              rw [hConfig]
              exact .challenged hHost (Or.inl rfl) ⟨hTls, hAuth⟩
          | false =>
              rw [Guard.handshake_free hTls hAuth]
              dsimp only
              rw [hConfig]
              exact .admitted hHost (.free hTls hAuth)
  | @signed _ _ signature hHost hDevice hSigns =>
      obtain rfl := hDevice.awaiting
      refine ⟨?_, rfl, rfl⟩
      cases hTrusts : parties.guard.trusts (signatureMessage signature) with
      | true =>
          rw [Guard.handshake_trusts hTrusts]
          dsimp only
          rw [hConfig]
          exact .admitted hHost (.signed hSigns hTrusts)
      | false =>
          rw [Guard.handshake_doubts hTrusts]
          dsimp only
          rw [hConfig]
          exact .doubted hHost (Or.inl rfl) ⟨signature, hSigns, hTrusts⟩
  | @offered _ _ payload hHost hDevice hOffers =>
      obtain rfl := hDevice.awaiting
      refine ⟨?_, rfl, rfl⟩
      cases hKey : parties.guard.offeredKey (pubkeyMessage payload) with
      | error e =>
          rw [Guard.handshake_unreadable hKey]
          dsimp only
          rw [hConfig]
          exact .unreadable hHost hOffers hKey
      | ok key =>
          cases hAccept : parties.guard.config.acceptNewKeys with
          | true =>
              rw [Guard.handshake_accepts hKey hAccept]
              dsimp only
              rw [hConfig]
              exact .admitted hHost (.offered hOffers hKey hAccept)
          | false =>
              rw [Guard.handshake_ignores hKey hAccept]
              dsimp only
              rw [hConfig]
              exact .ignored hHost (Or.inl rfl) hOffers hKey hAccept

/-- The host loses the transport in its handshake, or gives up, wherever it is. -/
theorem At.fails {progress : Progress} (h : c.At parties calls lossy trace) (hHost : c.host = .shaking progress)
    (hLossy : lossy) (e : Error) :
    ({ c with host := .failed e } : Connection Shared Handler).At parties calls lossy trace := by
  obtain ⟨_, transport, device, policy, accepted, up, down⟩ := c
  obtain rfl : _ = HostPhase.shaking progress := hHost
  unfold At at h ⊢
  dsimp only at h ⊢
  generalize transport.config = config at h ⊢
  have hFailed : ∀ other, HostAt lossy other (.failed e) := fun other => Or.inr ⟨hLossy, e, rfl⟩
  cases h with
  | greeted hHost hDevice => exact .greeted (hFailed _) hDevice
  | refused hHost hTls => exact .refused (hFailed _) hTls
  | challenged hHost hDevice hAsks => exact .challenged (hFailed _) hDevice hAsks
  | signed hHost hDevice hSigns => exact .signed (hFailed _) hDevice hSigns
  | doubted hHost hDevice hDoubts => exact .doubted (hFailed _) hDevice hDoubts
  | offered hHost hDevice hOffers => exact .offered (hFailed _) hDevice hOffers
  | ignored hHost hDevice hOffers hKey hAccept => exact .ignored (hFailed _) hDevice hOffers hKey hAccept
  | unreadable hHost hOffers hKey => exact .unreadable (hFailed _) hOffers hKey
  | @admitted _ progress _ hHost hGrounds => exact .admitted (hFailed progress) hGrounds

/-- The device loses the transport in its handshake. -/
theorem At.drops {awaiting : Awaiting} (h : c.At parties calls lossy trace) (hDevice : c.device = .shaking awaiting)
    (hLossy : lossy) (outcome : Result Unit) :
    ({ c with device := .left outcome } : Connection Shared Handler).At parties calls lossy trace := by
  obtain ⟨host, transport, _, policy, accepted, up, down⟩ := c
  obtain rfl : _ = DevicePhase.shaking awaiting := hDevice
  unfold At at h ⊢
  dsimp only at h ⊢
  generalize transport.config = config at h ⊢
  have hLeft : ∀ other, DeviceAt lossy other (.left outcome : DevicePhase Shared Handler) :=
    fun other => Or.inr ⟨hLossy, outcome, rfl⟩
  cases h with
  | apart hDevice => exact .apart (hLeft _)
  | greeted hHost hDevice => exact .greeted hHost (hLeft _)
  | challenged hHost hDevice hAsks => exact .challenged hHost (hLeft _) hAsks
  | signed hHost hDevice hSigns => exact .signed hHost (hLeft _) hSigns
  | doubted hHost hDevice hDoubts => exact .doubted hHost (hLeft _) hDoubts
  | offered hHost hDevice hOffers => exact .offered hHost (hLeft _) hOffers
  | ignored hHost hDevice hOffers hKey hAccept => exact .ignored hHost (hLeft _) hOffers hKey hAccept
  | ended hVerdict hGrounds => exact .ended hVerdict (by simp)

/-- Where nothing is on its way the host gives up on a user who does not accept
its key, and loses a device that has left. -/
theorem At.stops {progress : Progress} (h : c.At parties calls lossy trace) (hHost : c.host = .shaking progress)
    (hUp : c.up = []) (hDown : c.down = []) :
    ({ c with host := .failed (if c.device.gone then .disconnected else .unauthorized) } :
      Connection Shared Handler).At parties calls lossy trace := by
  obtain ⟨_, transport, device, policy, accepted, _, _⟩ := c
  obtain rfl : _ = HostPhase.shaking progress := hHost
  obtain rfl : _ = [] := hUp
  obtain rfl : _ = [] := hDown
  unfold At at h ⊢
  dsimp only at h ⊢
  generalize transport.config = config at h ⊢
  cases h with
  | ignored hHost hDevice hOffers hKey hAccept =>
      rcases hDevice with rfl | ⟨hLossy, outcome, rfl⟩
      · exact .ended (Or.inr (Parties.verdict_ignores hOffers hKey hAccept)) (by simp)
      · exact .ended (Or.inl hLossy) (by simp)
  | unreadable hHost hOffers hKey => exact .ended (Or.inr (Parties.verdict_unreadable hOffers hKey)) (by simp)

end Connection

end

end Rsadb.Fake
