import Mathlib.Data.List.Basic
import Mathlib.Tactic.SplitIfs

/-! A bulk pipe that carries transfers as packets of bounded size. A transfer
ends with a short packet, except when it fills its last packet. A read request
is filled, or ended by the first short packet. -/
namespace BulkPipe

variable {α : Type}

/-- `full` packets of the maximum size, then what is left over, if anything. -/
def packetsFrom (maxPacket : Nat) : Nat → List α → List (List α)
  | 0, data => if data.length = 0 then [] else [data]
  | full + 1, data => data.take maxPacket :: packetsFrom maxPacket full (data.drop maxPacket)

/-- The packets of one written transfer. An empty transfer is one empty packet. -/
def packets (maxPacket : Nat) (data : List α) : List (List α) :=
  if data.length = 0 then [[]] else packetsFrom maxPacket (data.length / maxPacket) data

/-- Serve a read request of `room` elements. No result means that the request
is still waiting for a packet. -/
def complete (maxPacket : Nat) : Nat → List (List α) → Option (List α × List (List α))
  | _, [] => none
  | room, packet :: rest =>
      if packet.length < maxPacket ∨ room ≤ packet.length then some (packet, rest)
      else (complete maxPacket (room - packet.length) rest).map fun more =>
        (packet ++ more.1, more.2)

/-- A completed request has consumed at least one packet. -/
theorem complete_shrinks {maxPacket room : Nat} {wire rest : List (List α)} {got : List α}
    (h : complete maxPacket room wire = some (got, rest)) : rest.length < wire.length := by
  induction wire generalizing room got with
  | nil => simp [complete] at h
  | cons packet tail ih =>
      unfold complete at h
      split_ifs at h with hLast
      · obtain ⟨-, rfl⟩ := Prod.mk.inj (Option.some.inj h)
        simp
      · obtain ⟨⟨more, after⟩, hMore, hEq⟩ := Option.map_eq_some_iff.mp h
        obtain ⟨-, rfl⟩ := Prod.mk.inj hEq
        have hTail : after.length < tail.length := ih hMore
        simp only [List.length_cons]
        omega

/-- An empty packet ends any request at once, with nothing. -/
@[simp] theorem complete_empty {maxPacket : Nat} (hMax : 0 < maxPacket) (room : Nat)
    (rest : List (List α)) : complete maxPacket room ([] :: rest) = some ([], rest) := by
  simp [complete, hMax]

private theorem complete_packetsFrom {maxPacket : Nat} (hMax : 0 < maxPacket) (full : Nat)
    (data : List α) (rest : List (List α)) (hData : data.length ≠ 0)
    (hFull : data.length / maxPacket = full) :
    complete maxPacket ((data.length + maxPacket - 1) / maxPacket * maxPacket)
      (packetsFrom maxPacket full data ++ rest) = some (data, rest) := by
  induction full generalizing data with
  | zero =>
      have hShort : data.length < maxPacket := by
        rcases (Nat.div_eq_zero_iff).mp hFull with hZero | hLt
        · omega
        · exact hLt
      simp [packetsFrom, hData, complete, hShort]
  | succ full ih =>
      have hLong : maxPacket ≤ data.length := by
        by_contra hLt
        rw [Nat.div_eq_of_lt (by omega)] at hFull
        omega
      have hFirst : (data.take maxPacket).length = maxPacket := List.length_take_of_le hLong
      have hDrop : (data.drop maxPacket).length + maxPacket = data.length := by
        rw [List.length_drop]
        omega
      have hRequest : (data.length + maxPacket - 1) / maxPacket * maxPacket =
          ((data.drop maxPacket).length + maxPacket - 1) / maxPacket * maxPacket + maxPacket := by
        rw [← hDrop, show (data.drop maxPacket).length + maxPacket + maxPacket - 1 =
          ((data.drop maxPacket).length + maxPacket - 1) + maxPacket by omega,
          Nat.add_div_right _ hMax, Nat.succ_mul]
      rw [packetsFrom, List.cons_append, complete, hFirst, hRequest]
      rcases Nat.eq_zero_or_pos (data.drop maxPacket).length with hNone | hSome
      · -- The packet fills the request: the transfer had this length exactly.
        have hFullZero : full = 0 := by
          rw [← hDrop, hNone, Nat.zero_add, Nat.div_self hMax] at hFull
          omega
        have hEmpty : data.drop maxPacket = [] := List.length_eq_zero_iff.mp hNone
        have hWhole : data.take maxPacket = data := by
          rw [List.take_of_length_le]
          rw [← hDrop, hNone]
          omega
        have hRoom : (0 + maxPacket - 1) / maxPacket = 0 := Nat.div_eq_of_lt (by omega)
        rw [hNone, hRoom]
        simp [hFullZero, hEmpty, hWhole, packetsFrom]
      · have hDiv : (data.drop maxPacket).length / maxPacket = full := by
          rw [← hDrop, Nat.add_div_right _ hMax] at hFull
          omega
        have hMore : 0 < ((data.drop maxPacket).length + maxPacket - 1) / maxPacket * maxPacket :=
          Nat.mul_pos (Nat.div_pos (by omega) hMax) hMax
        rw [if_neg (by omega), Nat.add_sub_cancel, ih _ (by omega) hDiv]
        simp [List.take_append_drop]

/-- A request for the length of a transfer, rounded up to whole packets,
returns exactly that transfer and leaves the packets behind it. -/
theorem complete_packets {maxPacket : Nat} (hMax : 0 < maxPacket) (data : List α)
    (rest : List (List α)) (hData : data.length ≠ 0) :
    complete maxPacket ((data.length + maxPacket - 1) / maxPacket * maxPacket)
      (packets maxPacket data ++ rest) = some (data, rest) := by
  rw [packets, if_neg hData]
  exact complete_packetsFrom hMax _ data rest hData rfl

end BulkPipe
