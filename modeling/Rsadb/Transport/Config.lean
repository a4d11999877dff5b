import Rsadb.Wire.Codec

/-! The framing policy that the connect exchange negotiates. -/
namespace Rsadb

/-- Per-connection framing policy. -/
structure WireConfig where
  computeChecksum : Bool
  verifyChecksum : Bool
  maxPayload : UInt32
  deriving DecidableEq, Repr

namespace WireConfig

/-- Policy before the peer's version is known: checksum on, do not verify. -/
def INITIAL : WireConfig where
  computeChecksum := true
  verifyChecksum := false
  maxPayload := MAX_PAYLOAD

/-- Policy for a peer speaking `version` with the given payload limit. -/
def negotiated (version maxPayload : UInt32) : WireConfig :=
  let checksum := decide (version < VERSION_SKIP_CHECKSUM)
  { computeChecksum := checksum
    verifyChecksum := checksum
    maxPayload := maxPayload }

/-- The policies a session ever runs under. -/
def Standard (config : WireConfig) : Prop :=
  config = INITIAL ∨ ∃ version maxPayload, config = negotiated version maxPayload

/-- The largest payload a message may carry under this policy. -/
def bound (config : WireConfig) : UInt32 := min config.maxPayload MAX_PAYLOAD

/-- No standard policy verifies a checksum that it does not also compute. -/
theorem Standard.computes_what_it_verifies {config : WireConfig} (h : config.Standard)
    (hVerify : config.verifyChecksum = true) : config.computeChecksum = true := by
  rcases h with rfl | ⟨version, maxPayload, rfl⟩
  · rfl
  · simpa [negotiated] using hVerify

/-- Policies under which two ends understand each other: what the one makes of a
message, the other takes it for. -/
def Agrees (sent read : WireConfig) : Prop :=
  sent.computeChecksum = read.computeChecksum ∧ sent.verifyChecksum = read.verifyChecksum ∧ sent.bound = read.bound

theorem Agrees.refl (config : WireConfig) : Agrees config config := ⟨rfl, rfl, rfl⟩

theorem Agrees.symm {sent read : WireConfig} (h : Agrees sent read) : Agrees read sent :=
  ⟨h.1.symm, h.2.1.symm, h.2.2.symm⟩

end WireConfig

/-- A message whose payload respects a policy. -/
def Message.Fits (config : WireConfig) (msg : Message) : Prop :=
  msg.payload.length ≤ config.bound.toNat

instance (config : WireConfig) (msg : Message) : Decidable (msg.Fits config) :=
  inferInstanceAs (Decidable (msg.payload.length ≤ config.bound.toNat))

/-- A header that fits carries the true payload length. -/
theorem Message.header_of_fits {config : WireConfig} {msg : Message} (h : msg.Fits config)
    (withChecksum : Bool) : ∃ header, msg.header withChecksum = some header ∧
      header.withPayload msg.payload = msg ∧
      header.dataLength.toNat = msg.payload.length ∧
      header.dataLength ≤ config.bound ∧
      (withChecksum = true → msg.checksumMatches header = true) := by
  have hSmall : msg.payload.length < 2 ^ 32 := Nat.lt_of_le_of_lt h config.bound.toNat_lt
  have hLength : (UInt32.ofNat msg.payload.length).toNat = msg.payload.length :=
    UInt32.toNat_ofNat_of_lt' hSmall
  refine ⟨_, if_pos hSmall, rfl, hLength, ?_, ?_⟩
  · rw [UInt32.le_iff_toNat_le, hLength]
    exact h
  · rintro rfl
    simp [Message.checksumMatches]

end Rsadb
