import Rsadb.Session.Outbox
import Rsadb.Session.HandshakeSafety
import Rsadb.Wire.Codec

/-! The payload limit that the handshake agreed on. Data is cut into pieces
within the limit; the name of a service goes into one message as it is. -/
namespace Rsadb

/-- The name that an owner has yet to send. -/
def Owner.unsent : Owner → Option Bytes
  | .inserting service => some service
  | .posting service => some service
  | _ => none

/-- Only a stream that is born has a name to send, and it keeps that name. -/
theorem Move.unsent {maxPayload : UInt32} {outboxOpen : Bool} {state : StreamState}
    {owner : Owner} {p : OwnerStep} (h : Move maxPayload outboxOpen state owner p) {service : Bytes}
    (hUnsent : p.owner.unsent = some service) : owner.unsent = some service := by
  cases h with
  | inserted => exact hUnsent
  | _ => cases hUnsent

/-- What an owner posts fits the limit if its service does. -/
theorem Move.post_fits {maxPayload : UInt32} {outboxOpen : Bool} {state : StreamState}
    {owner : Owner} {p : OwnerStep} (h : Move maxPayload outboxOpen state owner p) {msg : Message}
    (hEffect : p.effect = .post msg)
    (hService : ∀ service, owner.unsent = some service → service.length + 1 ≤ maxPayload.toNat) :
    msg.payload.length ≤ maxPayload.toNat := by
  cases h with
  | @requested service =>
      cases hEffect
      simpa using hService service rfl
  | wrote =>
      cases hEffect
      rw [List.length_take]
      omega
  | acknowledged =>
      cases hEffect
      exact Nat.zero_le _
  | parted | left =>
      cases outboxOpen <;> cases hEffect
      exact Nat.zero_le _
  | _ => cases hEffect

namespace ViewStep

variable {maxPayload : UInt32} {clash : Prop} {ref : Ref} {v v' : StreamView} {events : List Event}

/-- A step that gives a stream a name to send is its birth, or the stream had that name. -/
theorem unsent (h : ViewStep maxPayload clash ref v events v') {service : Bytes}
    (hUnsent : v'.owner.unsent = some service) :
    v.owner.unsent = some service ∨ (v.owner = .unborn ∧ v'.owner = .inserting service) := by
  cases h with
  | @born _ id name hUnborn hState hOwner =>
      rw [hOwner] at hUnsent
      cases hUnsent
      exact Or.inr ⟨hUnborn, hOwner⟩
  | own hMoves hState hOwner =>
      rw [hOwner] at hUnsent
      exact Or.inl (hMoves.move.unsent hUnsent)
  | cancelled hCancel hState hOwner =>
      obtain ⟨purpose, seen, -, hLeft⟩ := Owner.cancel_cases hCancel
      rw [hOwner] at hUnsent
      rcases hLeft with rfl | rfl <;> cases hUnsent
  | other hEvents hMissed hState hOwner | acked hCommand hTarget hId hState hOwner
  | delivered hCommand hTarget hId hState hOwner | handed hState hOwner
  | refused hCommand hTarget hId hDeliver hMore hState hOwner
  | ended hCommand hTarget hId hState hOwner | ignored hCommand hTarget hId hState hOwner
  | drained hMember hTarget hState hOwner | marked hWaited hState hOwner =>
      rw [hOwner] at hUnsent
      exact Or.inl hUnsent

end ViewStep

namespace Session

/-- Every service that is opened fits the limit together with its NUL. -/
def OpensWithin (limit : UInt32) (_ : List Event) (_ : Session) : Action → Prop
  | .openStream service => service.length + 1 ≤ limit.toNat
  | _ => True

instance (limit : UInt32) (trace : List Event) (s : Session) (action : Action) :
    Decidable (OpensWithin limit trace s action) := by
  rcases action <;> unfold OpensWithin <;> infer_instance

/-- While names that are too long are not opened, none is about to be sent. -/
theorem unsent_fits {limit : UInt32} {trace : List Event} {s : Session}
    (hRun : Transition.Runs step (OpensWithin limit) (start limit) trace s) (ref : Ref) {service : Bytes}
    (hUnsent : (s.owners ref).unsent = some service) : service.length + 1 ≤ limit.toNat := by
  revert service
  refine @view_invariant _ _ (fun _ v => ∀ {service}, v.owner.unsent = some service →
    service.length + 1 ≤ limit.toNat) ref ?_ ?_ _ _ hRun
  · intro service hUnsent
    cases hUnsent
  · intro trace s s' action events hRun hAllowed hTaken hView hBefore service hUnsent
    rcases hView.unsent hUnsent with hOld | ⟨hUnborn, hOwner⟩
    · exact hBefore hOld
    · rw [(born_service hTaken hUnborn hOwner).1] at hAllowed
      exact hAllowed

/-- In a session whose services all fit the limit, so does every message handed to the transport. -/
theorem handed_within {limit : UInt32} {trace : List Event} {s : Session}
    (hRun : Transition.Runs step (OpensWithin limit) (start limit) trace s) {source : Option Ref}
    {msg : Message} (hHanded : .handed source msg ∈ trace) : msg.payload.length ≤ limit.toNat := by
  refine @posted_of_runs _ _ (fun _ msg => msg.payload.length ≤ limit.toNat) ?_ _ _ hRun _ _
    (posted_of_handed hRun hHanded)
  intro trace s source msg hRun hPosts
  cases source with
  | none =>
      obtain ⟨arg0, arg1, rfl⟩ := hPosts
      exact Nat.zero_le _
  | some ref =>
      obtain ⟨p, hMove, hEffect⟩ := hPosts
      rw [(named_of_runs hRun).2] at hMove
      exact hMove.post_fits hEffect fun service => unsent_fits hRun ref

end Session

theorem negotiate_limit {msg : Message} {negotiated : Negotiated}
    (h : negotiate msg = .ok negotiated) : negotiated.maxPayload ≤ MAX_PAYLOAD := by
  by_cases hOld : msg.arg0 < VERSION_MIN
  · simp [negotiate, hOld] at h
  · simp only [negotiate, hOld, ↓reduceIte, Except.ok.injEq] at h
    rw [← h]
    exact Std.min_le_right

/-- A message within the limit passes a peer that enforces it. -/
theorem decodeHeader_of_fits {limit : UInt32} {msg : Message} (hLimit : limit ≤ MAX_PAYLOAD)
    (hFits : msg.payload.length ≤ limit.toNat) (withChecksum : Bool) :
    ∃ header, msg.header withChecksum = some header ∧
      decodeHeader (encodeHeader header) limit = .ok header := by
  have hSmall : msg.payload.length < 2 ^ 32 := Nat.lt_of_le_of_lt hFits limit.toNat_lt
  refine ⟨_, if_pos hSmall, decodeHeader_encodeHeader _ _ ?_⟩
  have hLength : UInt32.ofNat msg.payload.length ≤ limit := by
    rw [UInt32.le_iff_toNat_le, UInt32.toNat_ofNat', Nat.mod_eq_of_lt hSmall]
    exact hFits
  exact Std.le_min_iff.mpr ⟨hLength, UInt32.le_trans hLength hLimit⟩

namespace Session

/-- Nothing larger than the negotiated limit is sent: in every run of a session
from a handshake in which only services are opened that fit the limit together
with their NUL, every message handed to the transport is within the limit, and a
peer that enforces the limit takes its header. -/
theorem handed_within_negotiated {key : HostKey} {authWait now : Nat} {config : WireConfig}
    {incoming : List (Nat × Result Message)} {sendError : Nat → Option Error} {negotiated : Negotiated}
    {after : Transport}
    (hHandshake : handshake key authWait (Transport.fresh config now incoming sendError) =
      (some (.ok negotiated), after))
    {trace : List Event} {s : Session}
    (hRun : Transition.Runs step (OpensWithin negotiated.maxPayload) (start negotiated.maxPayload) trace s)
    {source : Option Ref} {msg : Message} (hHanded : .handed source msg ∈ trace) :
    msg.payload.length ≤ negotiated.maxPayload.toNat ∧
    ∀ withChecksum, ∃ header, msg.header withChecksum = some header ∧
      decodeHeader (encodeHeader header) negotiated.maxPayload = .ok header := by
  have hFits := handed_within hRun hHanded
  have hSafe := (handshake_safe key authWait now config incoming sendError).1
  rw [hHandshake] at hSafe
  obtain ⟨-, banner, -, -, -, hNegotiate, -⟩ := hSafe.ok_on_banner negotiated rfl
  exact ⟨hFits, decodeHeader_of_fits (negotiate_limit hNegotiate) hFits⟩

/-- A key that is never asked for. -/
private def anyKey : HostKey := ⟨fun _ => .error .unauthorized, fun bytes => bytes, ⟨1, 1⟩, []⟩

/-- A device that needs no authentication and takes payloads of at most 16 bytes. -/
private def smallDevice : List (Nat × Result Message) := [(0, .ok ⟨.connect, VERSION, 16, []⟩)]

/-- Open a service and hand its name to the transport. -/
private def requested (service : Bytes) : List Action :=
  [.openStream service, .advance 0, .advance 0, .hand]

private theorem small_handshake : ∃ negotiated after,
    handshake anyKey 30 (Transport.fresh WireConfig.INITIAL 0 smallDevice fun _ => none) =
      (some (.ok negotiated), after) ∧ negotiated.maxPayload = 16 :=
  ⟨_, _, rfl, rfl⟩

/-- A short name is handed over within the limit. -/
theorem handed_within_negotiated_short : ∃ (negotiated : Negotiated) (trace : _) (s : _) (msg : _),
    Transition.Runs step (OpensWithin negotiated.maxPayload) (start negotiated.maxPayload) trace s ∧
    .handed (some 0) msg ∈ trace ∧ msg.payload.length ≤ negotiated.maxPayload.toNat := by
  obtain ⟨negotiated, after, hHandshake, hLimit⟩ := small_handshake
  obtain ⟨trace, s, hRun, hSeen⟩ := Transition.Runs.of_execute step (OpensWithin 16) (start 16)
    (requested (ascii "shell:id")) (fun result => result.1)
    [.registered 0 1, .posted (some 0) ⟨.open, 1, 0, ascii "shell:id" ++ [0]⟩,
      .handed (some 0) ⟨.open, 1, 0, ascii "shell:id" ++ [0]⟩] (by decide)
  rw [← hLimit] at hRun
  have hTrace : trace = _ := hSeen
  have hHanded : .handed (some 0) ⟨.open, 1, 0, ascii "shell:id" ++ [0]⟩ ∈ trace := by simp [hTrace]
  exact ⟨negotiated, trace, s, _, hRun, hHanded, (handed_within_negotiated hHandshake hRun hHanded).1⟩

/-- A long name goes out as it is, in a message that the device does not take. -/
theorem long_service_exceeds : ¬∀ (key : HostKey) (authWait now : Nat) (config : WireConfig)
    (incoming : List (Nat × Result Message)) (sendError : Nat → Option Error)
    (negotiated : Negotiated) (after : Transport),
    handshake key authWait (Transport.fresh config now incoming sendError) =
      (some (.ok negotiated), after) →
    ∀ trace s, Run negotiated.maxPayload trace s → ∀ source msg, .handed source msg ∈ trace →
      msg.payload.length ≤ negotiated.maxPayload.toNat := by
  intro hClaim
  obtain ⟨negotiated, after, hHandshake, hLimit⟩ := small_handshake
  obtain ⟨trace, s, hRun, hSeen⟩ := Transition.Runs.of_execute step (fun _ _ _ => True) (start 16)
    (requested (ascii "shell:getprop sys.boot")) (fun result => result.1)
    [.registered 0 1, .posted (some 0) ⟨.open, 1, 0, ascii "shell:getprop sys.boot" ++ [0]⟩,
      .handed (some 0) ⟨.open, 1, 0, ascii "shell:getprop sys.boot" ++ [0]⟩] (by decide)
  have hTrace : trace = _ := hSeen
  have hFits := hClaim anyKey 30 0 WireConfig.INITIAL smallDevice (fun _ => none) negotiated after
    hHandshake trace s (hLimit ▸ hRun) (some 0) ⟨.open, 1, 0, ascii "shell:getprop sys.boot" ++ [0]⟩
    (by simp [hTrace])
  rw [hLimit] at hFits
  exact absurd hFits (by decide)

end Session
end Rsadb
