import Rsadb.Auth.PubkeyCodec
import Rsadb.Fake.Admission
import Rsadb.Fake.Services
import Rsadb.Library.Lines
import Rsadb.Library.Utf8Slices
import Rsadb.Transport.FramedRoundTrip

/-! What the two ends of a connection agree on. -/
namespace Rsadb.Fake

/-- A trusted signature is one of a key that the device knows. -/
theorem Guard.trusts_signature {guard : Guard} {signature : Bytes}
    (h : guard.trusts (signatureMessage signature) = true) : ∃ known ∈ guard.config.trusted,
      verifyToken guard.verify known guard.first signature = .ok () := by
  obtain ⟨-, hAny⟩ := (Bool.and_eq_true _ _).mp h
  obtain ⟨known, hKnown, hOk⟩ := List.any_eq_true.mp hAny
  refine ⟨known, hKnown, ?_⟩
  cases hVerify : verifyToken guard.verify known guard.first signature with
  | ok => rfl
  | error e =>
      rw [show (signatureMessage signature).payload = signature from rfl, hVerify] at hOk
      cases hOk

/-- The device takes the key that a host offers for what it is. -/
theorem Guard.offeredKey_payload {guard : Guard} {key : HostKey}
    (hStandard : Pubkey.Standard key.base64 guard.decode64)
    (hNew : guard.newKey key.publicKey.n key.publicKey.e = .ok key.publicKey) (hComment : Utf8.Valid key.comment)
    {payload : Bytes} (h : key.publicKeyPayload = .ok payload) :
    guard.offeredKey (pubkeyMessage payload) = .ok key.publicKey := by
  cases hEncode : Pubkey.encode key.publicKey with
  | error e =>
      rw [HostKey.publicKeyPayload, HostKey.publicKeyLine, Pubkey.encodeLine, hEncode] at h
      cases h
  | ok bytes =>
      rw [HostKey.publicKeyPayload, HostKey.publicKeyLine, Pubkey.encodeLine, hEncode] at h
      cases h
      have hAscii : ∀ byte ∈ key.base64 bytes ++ [0x20], byte < 0x80 := by
        intro byte hMem
        rcases List.mem_append.mp hMem with hText | hSpace
        · exact UInt8.lt_trans (hStandard.visible bytes byte hText).2 (by decide)
        · rw [List.mem_singleton.mp hSpace]
          decide
      have hFront : Utf8.Valid (key.base64 bytes ++ [0x20]) := ⟨_, (Utf8.encode_ascii hAscii).symm⟩
      obtain ⟨trimmed, hTrimmed, hNuls⟩ := @Text.trimEnd_split _ _ 0 key.comment
      have hLeads : ∀ byte ∈ trimmed.head?, Utf8.leads byte = true := by
        intro byte hHead
        rw [hNuls byte (List.mem_of_mem_head? hHead)]
        rfl
      obtain ⟨⟨comment, hShort⟩, -⟩ := Utf8.Valid.split (hTrimmed ▸ hComment) hLeads
      obtain ⟨line, hLine, hDecode⟩ := Pubkey.decodeLine_of_encodeLine hStandard comment hNew hEncode
      rw [Pubkey.encodeLine, hEncode, ← hShort] at hLine
      cases hLine
      have hNul : Utf8.Valid [0] := ⟨"\x00", by decide⟩
      obtain ⟨text, hText⟩ := (hFront.append hComment).append hNul
      have hPayload : key.base64 bytes ++ 0x20 :: key.comment ++ [0] =
          key.base64 bytes ++ [0x20] ++ key.comment ++ [0] := by simp
      have hSpaced : ¬[0] <:+ key.base64 bytes ++ [0x20] := by
        rw [List.singleton_suffix_iff_getLast?_eq_some, List.getLast?_concat]
        decide
      unfold Guard.offeredKey
      change Pubkey.decodeLine _ _ (Text.trimEnd 0 (Utf8.lossy (key.base64 bytes ++ 0x20 :: key.comment ++ [0]))) = _
      rw [hPayload, hText, Utf8.lossy_encode, ← hText, Text.trimEnd_concat, Text.trimEnd_append hSpaced,
        List.append_assoc]
      exact hDecode

namespace Connection

variable {Shared Handler : Type} {parties : Parties Shared Handler} {calls : Action → Prop}
  {lossy : Prop} {trace : List NetworkEvent} {c : Connection Shared Handler}

/-- The policies that the ends of a session go by. -/
theorem agrees_of_negotiate {guard : Guard} {negotiated : Negotiated} (h : negotiate guard.connect = .ok negotiated) :
    WireConfig.Agrees (.negotiated negotiated.version negotiated.maxPayload)
      (.negotiated guard.config.version guard.limit) := by
  unfold negotiate at h
  dsimp only at h
  split at h
  · cases h
  · cases h
    have hVersion : decide (min guard.config.version VERSION < VERSION_SKIP_CHECKSUM) =
        decide (guard.config.version < VERSION_SKIP_CHECKSUM) := by
      have hNewest : VERSION_SKIP_CHECKSUM ≤ VERSION := by decide
      rw [decide_eq_decide, ← UInt32.not_le, ← UInt32.not_le, Std.le_min_iff, and_iff_left hNewest]
    have hBound : min (min guard.limit MAX_PAYLOAD) MAX_PAYLOAD = min guard.limit MAX_PAYLOAD :=
      UInt32.le_antisymm Std.min_le_left (Std.le_min_iff.mpr ⟨UInt32.le_refl _, Std.min_le_right⟩)
    exact ⟨hVersion, hVersion, hBound⟩

/-- A connection whose host is in a session. -/
structure Joined (parties : Parties Shared Handler) (calls : Action → Prop) (trace : List NetworkEvent)
    (c : Connection Shared Handler) (negotiated : Negotiated) (session : Session) (device : Device Shared Handler)
    (up down : List Message) : Prop where
  hosts : c.host = .session negotiated session
  serves : c.device = .engine device
  sends : c.transport.config = .negotiated negotiated.version negotiated.maxPayload
  replies : c.policy = .negotiated parties.guard.config.version parties.guard.limit
  above : c.up = under c.transport.config up
  below : c.down = under c.policy down
  agreed : negotiate parties.guard.connect = .ok negotiated
  grounds : parties.Grounds c.accepted
  run : Transition.Runs (Network.step parties.services) (Network.Calls calls)
    (.start negotiated.maxPayload parties.guard.config.maxPayload parties.shared) trace ⟨session, device, up, down⟩

/-- Both ends are in the session together. -/
theorem At.joined (h : c.At parties calls lossy trace) {negotiated : Negotiated} {session : Session}
    (hHost : c.host = .session negotiated session) :
    ∃ device up down, c.Joined parties calls trace negotiated session device up down := by
  obtain ⟨_, transport, device, policy, accepted, up, down⟩ := c
  obtain rfl : _ = HostPhase.session negotiated session := hHost
  unfold At at h
  dsimp only at h
  generalize hConfig : transport.config = config at h
  cases h with
  | joined hNegotiated hGrounds hRun =>
      exact ⟨_, _, _, rfl, rfl, hConfig, rfl, by rw [hConfig], rfl, hNegotiated, hGrounds, hRun⟩
  | greeted hHost | refused hHost | challenged hHost | signed hHost | doubted hHost | offered hHost | ignored hHost
    | unreadable hHost | admitted hHost => exact absurd rfl ((HostAt.under_way hHost).2 _ _)

/-- A device in a session gets messages of a host in a session. -/
theorem At.served (h : c.At parties calls lossy trace) {device : Device Shared Handler} {msg : WireConfig × Message}
    {rest : List (WireConfig × Message)} (hDevice : c.device = .engine device) (hUp : c.up = msg :: rest) :
    ∃ negotiated session, c.host = .session negotiated session := by
  obtain ⟨host, transport, _, policy, accepted, _, down⟩ := c
  obtain rfl : _ = DevicePhase.engine device := hDevice
  obtain rfl : _ = msg :: rest := hUp
  unfold At at h
  dsimp only at h
  generalize transport.config = config at h
  generalize hUp : msg :: rest = up at h
  cases h with
  | joined => exact ⟨_, _, rfl⟩
  | greeted _ hDevice | signed _ hDevice _ | offered _ hDevice _ => exact absurd rfl (DeviceAt.out hDevice device)
  | _ => cases hUp

theorem Joined.at {negotiated : Negotiated} {session : Session} {device : Device Shared Handler}
    {up down : List Message} (h : c.Joined parties calls trace negotiated session device up down) :
    c.At parties calls lossy trace := by
  unfold At
  rw [h.hosts, h.serves, h.above, h.below, h.sends, h.replies]
  exact .joined h.agreed h.grounds h.run

theorem under_append (policy : WireConfig) (first second : List Message) :
    under policy (first ++ second) = under policy first ++ under policy second := List.map_append

/-- The first of some messages under one policy. -/
theorem exists_under {policy sent : WireConfig} {msgs : List Message} {msg : Message}
    {rest : List (WireConfig × Message)} (h : under policy msgs = (sent, msg) :: rest) :
    ∃ more, msgs = msg :: more ∧ sent = policy ∧ rest = under policy more := by
  cases msgs with
  | nil => cases h
  | cons head more =>
      cases h
      exact ⟨more, rfl, rfl, rfl⟩

/-- The host of a session takes a step that the network takes, too. -/
theorem Joined.sessionStep {negotiated : Negotiated} {session : Session} {device : Device Shared Handler}
    {up down rest : List Message} {own : Action} {action : NetworkAction} {c' : Connection Shared Handler}
    {events : List ConnectionEvent} (h : c.Joined parties calls trace negotiated session device up down)
    (hNetwork : (Network.mk session device up down).step parties.services action =
      (Network.mk session device up rest).hostStep own)
    (hAllowed : Network.Calls calls trace ⟨session, device, up, down⟩ action)
    (hStep : Connection.sessionStep { c with down := under c.policy rest } negotiated session own = some (c', events)) :
    c'.At parties calls lossy (trace ++ sessionTrace events) ∧ ∀ sent read msg, .taken sent read msg ∉ events := by
  obtain ⟨⟨session', more⟩, hTaken, hSame⟩ := Option.map_eq_some_iff.mp hStep
  cases hSame
  have hNext := h.run.next hAllowed (hNetwork.trans (congrArg _ hTaken))
  constructor
  · rw [sessionTrace_map]
    apply Joined.at
    have hAbove : c.up ++ under c.transport.config ((hands more).map Prod.snd) =
        under c.transport.config (up ++ (hands more).map Prod.snd) := by rw [h.above, under_append]
    exact ⟨rfl, h.serves, h.sends, h.replies, hAbove, rfl, h.agreed, h.grounds, hNext⟩
  · intro sent read msg hMem
    obtain ⟨event, -, hEvent⟩ := List.mem_map.mp hMem
    cases hEvent

/-- A step of the session keeps its ends together. -/
theorem step_joined {trace : List ConnectionEvent} {c c' : Connection Shared Handler} {action : NetworkAction}
    {events : List ConnectionEvent} (h : c.At parties calls lossy (sessionTrace trace))
    (hAllowed : Calls calls trace c (.session action)) (hStep : c.step parties (.session action) = some (c', events)) :
    c'.At parties calls lossy (sessionTrace trace ++ sessionTrace events) ∧
      ∀ sent read msg, .taken sent read msg ∈ events → sent.Standard ∧ sent.Agrees read := by
  cases action with
  | host own =>
      simp only [step] at hStep
      split at hStep
      · rename_i negotiated session hHost
        split at hStep
        · rename_i hOwn
          obtain ⟨device, up, down, hJoined⟩ := h.joined hHost
          have hNetwork : (Network.mk session device up down).step parties.services (.host own) =
              (Network.mk session device up down).hostStep own := if_pos hOwn
          have hSame : { c with down := under c.policy down } = c := by rw [← hJoined.below]
          rw [← hSame] at hStep
          obtain ⟨hAt, hNone⟩ := hJoined.sessionStep hNetwork hAllowed hStep
          exact ⟨hAt, fun sent read msg hMem => absurd hMem (hNone sent read msg)⟩
        · cases hStep
      · cases hStep
  | arrive =>
      simp only [step] at hStep
      split at hStep
      · rename_i negotiated session sent msg rest hHost hDown
        obtain ⟨device, up, down, hJoined⟩ := h.joined hHost
        obtain ⟨⟨next, more⟩, hTaken, hSame⟩ := Option.map_eq_some_iff.mp hStep
        cases hSame
        obtain ⟨below, rfl, hMsg, rfl⟩ := exists_under (hJoined.below.symm.trans hDown)
        obtain ⟨hAt, hNone⟩ := @Joined.sessionStep _ _ _ _ _ _ _ _ _ _ _ _ below _ .arrive _ _ hJoined rfl trivial hTaken
        refine ⟨hAt, ?_⟩
        intro sent read msg hMem
        rcases List.mem_cons.mp hMem with hHere | hThere
        · cases hHere
          rw [hMsg, hJoined.sends, hJoined.replies]
          exact ⟨Or.inr ⟨_, _, rfl⟩, (agrees_of_negotiate hJoined.agreed).symm⟩
        · exact absurd hThere (hNone _ _ _)
      · cases hStep
  | serve =>
      simp only [step] at hStep
      split at hStep
      · rename_i device sent msg rest hDevice hUp
        obtain ⟨negotiated, session, hHost⟩ := h.served hDevice hUp
        obtain ⟨device, up, down, hJoined⟩ := h.joined hHost
        obtain rfl := DevicePhase.engine.inj (hDevice.symm.trans hJoined.serves)
        obtain ⟨above, rfl, hMsg, rfl⟩ := exists_under (hJoined.above.symm.trans hUp)
        obtain ⟨⟨next, more⟩, hTaken, hSame⟩ := Option.map_eq_some_iff.mp hStep
        cases hSame
        obtain ⟨⟨device', events⟩, hServed, hSame⟩ := Option.map_eq_some_iff.mp hTaken
        cases hSame
        have hNetwork : (Network.mk session device (msg :: above) down).step parties.services .serve =
            some (⟨session, device', above, down ++ sends events⟩, events.map .device) := by
          simp only [Network.step, hServed, Option.map_some]
        have hCalls : Network.Calls calls (sessionTrace trace) ⟨session, device, msg :: above, down⟩ .serve :=
          trivial
        constructor
        · rw [sessionTrace_taken, sessionTrace_map]
          apply Joined.at
          have hBelow : c.down ++ under c.policy (sends events) = under c.policy (down ++ sends events) := by
            rw [hJoined.below, under_append]
          exact ⟨hJoined.hosts, rfl, hJoined.sends, hJoined.replies, rfl, hBelow, hJoined.agreed, hJoined.grounds,
            hJoined.run.next hCalls hNetwork⟩
        · intro sent read msg hMem
          rcases List.mem_cons.mp hMem with hHere | hThere
          · cases hHere
            rw [hMsg, hJoined.sends, hJoined.replies]
            exact ⟨Or.inr ⟨_, _, rfl⟩, agrees_of_negotiate hJoined.agreed⟩
          · obtain ⟨event, -, hEvent⟩ := List.mem_map.mp hThere
            cases hEvent
      · cases hStep

/-- A step of the connection keeps its ends together, and what is read in it was
sent under a policy that agrees. -/
theorem step_at {trace : List ConnectionEvent} {c c' : Connection Shared Handler} {action : ConnectionAction}
    {events : List ConnectionEvent} (h : c.At parties calls lossy (sessionTrace trace))
    (hAllowed : Calls calls trace c action) (hSmooth : lossy ∨ Smooth trace c action)
    (hSends : lossy ∨ ∀ count, c.transport.sendError count = none)
    (hStep : c.step parties action = some (c', events)) :
    c'.At parties calls lossy (sessionTrace (trace ++ events)) ∧
      ∀ sent read msg, .taken sent read msg ∈ events → sent.Standard ∧ sent.Agrees read := by
  rw [sessionTrace_append]
  cases action with
  | hello =>
      simp only [step] at hStep
      split at hStep
      · rename_i hHost
        cases hStep
        exact ⟨by simpa using h.hello hHost hSends, by simp⟩
      · cases hStep
  | read =>
      simp only [step] at hStep
      split at hStep
      · rename_i hHost hDown
        cases hStep
        obtain ⟨hAt, rfl, hConfig⟩ := h.read hHost hDown hSends
        refine ⟨by simpa using hAt, ?_⟩
        intro sent read msg hMem
        cases List.mem_singleton.mp hMem
        rw [hConfig]
        exact ⟨Or.inl rfl, .refl _⟩
      · cases hStep
  | lose e =>
      simp only [step] at hStep
      split at hStep
      · rename_i hHost
        cases hStep
        rw [sessionTrace_nil, List.append_nil]
        refine ⟨?_, by simp⟩
        rcases hSmooth with hLossy | ⟨rfl, hGone, hUp, hDown⟩
        · exact h.fails hHost hLossy e
        · simpa [hGone] using h.stops hHost hUp hDown
      · cases hStep
  | giveUp =>
      simp only [step] at hStep
      split at hStep
      · rename_i hHost
        split at hStep
        · cases hStep
          rw [sessionTrace_nil, List.append_nil]
          refine ⟨?_, by simp⟩
          rcases hSmooth with hLossy | ⟨hGone, hUp, hDown⟩
          · exact h.fails hHost hLossy Error.unauthorized
          · simpa [hGone] using h.stops hHost hUp hDown
        · cases hStep
      · cases hStep
  | take =>
      simp only [step] at hStep
      split at hStep
      · rename_i hDevice hUp
        cases hStep
        obtain ⟨hAt, rfl, hPolicy⟩ := h.take hDevice hUp
        refine ⟨by simpa using hAt, ?_⟩
        intro sent read msg hMem
        cases List.mem_singleton.mp hMem
        rw [hPolicy]
        exact ⟨Or.inl rfl, .refl _⟩
      · cases hStep
  | drop e =>
      simp only [step] at hStep
      split at hStep
      · rename_i hDevice
        cases hStep
        exact ⟨by simpa using h.drops hDevice (hSmooth.resolve_right id) (.ok ()), by simp⟩
      · rename_i hDevice
        cases hStep
        exact ⟨by simpa using h.drops hDevice (hSmooth.resolve_right id) (.error e), by simp⟩
      · cases hStep
  | session action => exact step_joined h hAllowed hStep

/-- The ends of a connection stay together, whatever is lost on the way. -/
theorem at_of_runs {config : WireConfig} {sendError : Nat → Option Error} {trace : List ConnectionEvent}
    {c : Connection Shared Handler}
    (hRun : Transition.Runs (step parties) (Calls calls) (start config sendError) trace c) :
    c.At parties calls True (sessionTrace trace) ∧
      ∀ sent read msg, .taken sent read msg ∈ trace → sent.Standard ∧ sent.Agrees read := by
  induction hRun with
  | start => exact ⟨.apart (Or.inl rfl), by simp⟩
  | next hRun hAllowed hTaken ih =>
      obtain ⟨hAt, hAgrees⟩ := step_at ih.1 hAllowed (Or.inl trivial) (Or.inl trivial) hTaken
      refine ⟨hAt, ?_⟩
      intro sent read msg hMem
      rcases List.mem_append.mp hMem with hBefore | hNow
      · exact ih.2 sent read msg hBefore
      · exact hAgrees sent read msg hNow

/-- A device in a session has let the host in for a reason. -/
theorem At.grounds {trace : List NetworkEvent} {c : Connection Shared Handler} (h : c.At parties calls lossy trace)
    {device : Device Shared Handler} (hDevice : c.device = .engine device) : parties.Grounds c.accepted := by
  obtain ⟨host, transport, _, policy, accepted, up, down⟩ := c
  obtain rfl : _ = DevicePhase.engine device := hDevice
  unfold At at h
  dsimp only at h
  generalize transport.config = config at h
  cases h with
  | admitted _ hGrounds | joined _ hGrounds _ => exact hGrounds
  | ended _ hGrounds => exact hGrounds device rfl
  | apart hDevice | greeted _ hDevice | challenged _ hDevice _ | signed _ hDevice _ | doubted _ hDevice _
    | offered _ hDevice _ | ignored _ hDevice _ _ _ => exact absurd rfl (DeviceAt.out hDevice device)

end Connection

/-- A frame is parsed alike under policies that agree. -/
theorem parseFrame_agrees {sent read : WireConfig} (h : sent.Agrees read) (bytes : Bytes) :
    parseFrame sent bytes = parseFrame read bytes := by
  obtain ⟨-, hVerify, hBound⟩ := h
  have hHeader : ∀ head, decodeHeader head sent.maxPayload = decodeHeader head read.maxPayload := by
    intro head
    have hMin : min sent.maxPayload MAX_PAYLOAD = min read.maxPayload MAX_PAYLOAD := hBound
    simp only [decodeHeader, hMin]
  simp only [parseFrame, hHeader, hVerify]

/-- A key whose signatures are the tokens turned round. -/
def plainKey : HostKey where
  sign token := .ok token.reverse
  base64 := Base64.encode
  publicKey := ⟨2 ^ 2047 + 1, 65537⟩
  comment := ascii "user@host"

/-- A guard that knows that key. -/
def plainGuard (requireAuth : Bool) (version maxPayload : UInt32) : Guard where
  config := ⟨[plainKey.publicKey], false, requireAuth, false, version, maxPayload, ⟨ascii "device", ∅, []⟩⟩
  verify key token signature :=
    if key.n = plainKey.publicKey.n ∧ signature = token.reverse then none else some "verification error"
  newKey := Pubkey.newBounded
  decode64 := Pubkey.decodeStandard
  first := List.range 20 |>.map UInt8.ofNat
  second := List.replicate 20 0
  first_length := rfl
  second_length := rfl

/-- The policy of a session with an old device. -/
def legacyPolicy : WireConfig := .negotiated VERSION_MIN LEGACY_MAX_PAYLOAD

/-- A host and a device of today, and an old one that asks for no key. -/
def plainParties : Parties Shared Service := ⟨plainKey, plainGuard true VERSION MAX_PAYLOAD, services, plainDevice⟩
def legacyParties : Parties Shared Service := ⟨plainKey, plainGuard false VERSION_MIN 0, services, plainDevice⟩

section

variable {Shared Handler : Type} {parties : Parties Shared Handler} {calls : Action → Prop} {config : WireConfig}
  {sendError : Nat → Option Error} {trace : List ConnectionEvent} {c : Connection Shared Handler}

/-- Whatever becomes of the connection, each message that is taken off it, in the
handshake or behind it, is read from its frame by the policy that the reader has
by then, although each end changes its policy on its own. -/
theorem connection_frames
    (hRun : Transition.Runs (Connection.step parties) (Connection.Calls calls) (.start config sendError) trace c)
    {sent read : WireConfig} {msg : Message} (hTaken : .taken sent read msg ∈ trace) (hFits : msg.Fits sent)
    (rest : Bytes) : parseFrame read (frame sent msg ++ rest) = (.ok msg, rest) := by
  obtain ⟨hStandard, hAgrees⟩ := (Connection.at_of_runs hRun).2 sent read msg hTaken
  rw [← parseFrame_agrees hAgrees]
  exact parseFrame_frame hStandard hFits rest

/-- The first request of a session with an old device. -/
def legacyRequest : Message := ⟨.open, 1, 0, ascii "exec:id" ++ [0]⟩

theorem legacy_run : ∃ trace c negotiated session,
    Transition.Runs (Connection.step legacyParties) (Connection.Calls fun _ => True) (.start .INITIAL fun _ => none)
      trace c ∧
    .taken legacyPolicy legacyPolicy legacyRequest ∈ trace ∧ c.host = .session negotiated session := by
  obtain ⟨trace, c, hRun, hSeen⟩ := Transition.Runs.of_execute (Connection.step legacyParties)
    (Connection.Calls fun _ => True) (.start .INITIAL fun _ => none)
    [.hello, .take, .read, .session (.host (.openStream (ascii "exec:id"))), .session (.host (.advance 0)),
      .session (.host (.advance 0)), .session (.host .hand), .session (.host .handed), .session .serve]
    (fun result => (decide (.taken legacyPolicy legacyPolicy legacyRequest ∈ result.1), result.2.host.isSession))
    (true, true) (by decide +kernel)
  obtain ⟨hTaken, hHost⟩ := Prod.mk.inj hSeen
  obtain ⟨negotiated, session, hSession⟩ := HostPhase.exists_session hHost
  exact ⟨trace, c, negotiated, session, hRun, of_decide_eq_true hTaken, hSession⟩

/-- The request is read with its checksum. -/
theorem connection_frames_legacy : parseFrame legacyPolicy (frame legacyPolicy legacyRequest) =
    (.ok legacyRequest, []) := by
  obtain ⟨trace, c, -, -, hRun, hTaken, -⟩ := legacy_run
  have hParsed := connection_frames hRun hTaken (by decide) []
  rwa [List.append_nil] at hParsed

/-- A host is let in only if the device asks for no key, or knows a key by which
the host has signed the token that was drawn for it, or if its user accepts the
host's own key, and then it is that key which is taken up. -/
theorem connection_admits (hStandard : Pubkey.Standard parties.key.base64 parties.guard.decode64)
    (hNew : parties.guard.newKey parties.key.publicKey.n parties.key.publicKey.e = .ok parties.key.publicKey)
    (hComment : Utf8.Valid parties.key.comment)
    (hRun : Transition.Runs (Connection.step parties) (Connection.Calls calls) (.start config sendError) trace c)
    {device : Device Shared Handler} (hDevice : c.device = .engine device) :
    parties.guard.config.requestTls = false ∧
      (c.accepted = none ∧ (parties.guard.config.requireAuth = false ∨
          ∃ signature, parties.key.signToken parties.guard.first = .ok signature ∧
            ∃ known ∈ parties.guard.config.trusted,
              verifyToken parties.guard.verify known parties.guard.first signature = .ok ()) ∨
        c.accepted = some parties.key.publicKey ∧ parties.guard.config.acceptNewKeys = true) := by
  generalize hAccepted : c.accepted = accepted
  have hGrounds := (Connection.at_of_runs hRun).1.grounds hDevice
  rw [hAccepted] at hGrounds
  cases hGrounds with
  | free hTls hAuth => exact ⟨hTls, Or.inl ⟨rfl, Or.inl hAuth⟩⟩
  | signed hSigns hTrusts =>
      exact ⟨hSigns.1.1, Or.inl ⟨rfl, Or.inr ⟨_, hSigns.2, Guard.trusts_signature hTrusts⟩⟩⟩
  | offered hOffers hKey hAccept =>
      have hOwn := hKey.symm.trans (Guard.offeredKey_payload hStandard hNew hComment hOffers.2)
      cases hOwn
      obtain ⟨⟨_, ⟨hAsks, -⟩, -⟩, -⟩ := hOffers
      exact ⟨hAsks.1, Or.inr ⟨rfl, hAccept⟩⟩

/-- The device knows the key, and takes none up. -/
theorem connection_admits_known : ∃ trace c device,
    Transition.Runs (Connection.step plainParties) (Connection.Calls fun _ => True) (.start .INITIAL fun _ => none)
      trace c ∧
    c.device = .engine device ∧ ∃ known ∈ plainParties.guard.config.trusted,
      verifyToken plainParties.guard.verify known plainParties.guard.first plainParties.guard.first.reverse = .ok () := by
  obtain ⟨trace, c, hRun, hSeen⟩ := Transition.Runs.of_execute (Connection.step plainParties)
    (Connection.Calls fun _ => True) (.start .INITIAL fun _ => none) [.hello, .take, .read, .take]
    (fun result => (result.2.device.isEngine, result.2.accepted.isNone)) (true, true) (by decide +kernel)
  obtain ⟨hDevice, hNone⟩ := Prod.mk.inj hSeen
  obtain ⟨device, hEngine⟩ := DevicePhase.exists_engine hDevice
  obtain ⟨-, ⟨-, hFree | ⟨signature, hSign, hKnown⟩⟩ | ⟨hSome, -⟩⟩ := connection_admits Pubkey.standard_base64
    (by decide +kernel) ⟨"user@host", by decide⟩ hRun hEngine
  · cases hFree
  · cases hSign
    exact ⟨trace, c, device, hRun, hEngine, hKnown⟩
  · rw [hSome] at hNone
    cases hNone

/-- The session of a connection is a run of the network, from its start, between
ends that have agreed on their limits: what is shown of the network holds for
whatever the handshake lets through. -/
theorem connection_joins
    (hRun : Transition.Runs (Connection.step parties) (Connection.Calls calls) (.start config sendError) trace c)
    {negotiated : Negotiated} {session : Session} (hHost : c.host = .session negotiated session) :
    negotiate parties.guard.connect = .ok negotiated ∧ ∃ n : Network Shared Handler,
      n.host = session ∧ c.device = .engine n.device ∧ c.up.map Prod.snd = n.up ∧ c.down.map Prod.snd = n.down ∧
        Transition.Runs (Network.step parties.services) (Network.Calls calls)
          (.start negotiated.maxPayload parties.guard.config.maxPayload parties.shared) (sessionTrace trace) n := by
  obtain ⟨device, up, down, hJoined⟩ := (Connection.at_of_runs hRun).1.joined hHost
  have hMsgs : ∀ policy msgs, (under policy msgs).map Prod.snd = msgs := fun policy msgs => by simp [under]
  refine ⟨hJoined.agreed, ⟨session, device, up, down⟩, rfl, hJoined.serves, ?_, ?_, hJoined.run⟩
  · rw [hJoined.above, hMsgs]
  · rw [hJoined.below, hMsgs]

/-- The session with an old device. -/
theorem connection_joins_legacy : ∃ (negotiated : Negotiated) (trace : List NetworkEvent)
    (n : Network Fake.Shared Service), negotiate legacyParties.guard.connect = .ok negotiated ∧
      Transition.Runs (Network.step services) (Network.Calls fun _ => True)
        (.start negotiated.maxPayload 0 plainDevice) trace n := by
  obtain ⟨trace, c, negotiated, session, hRun, -, hHost⟩ := legacy_run
  obtain ⟨hAgreed, n, -, -, -, -, hNetwork⟩ := connection_joins hRun hHost
  exact ⟨negotiated, sessionTrace trace, n, hAgreed, hNetwork⟩

end

end Rsadb.Fake
