import Rsadb.Transport.Config
import Rsadb.Library.Source
import Mathlib.Tactic.Cases

/-! Header and payload framing over a byte stream. The reader is translated
read by read; `parseFrame` is the same decision with the fragmentation
forgotten, and `recv_parse` says that the reader computes nothing else. -/
namespace Rsadb

/-- The writing half: the bytes written so far and the policy. -/
structure FramedWriter where
  inner : Bytes
  config : WireConfig

/-- The reading half. -/
structure FramedReader where
  inner : Source UInt8
  config : WireConfig

/-- Write one message: the header, then the payload if there is one. -/
def FramedWriter.send (writer : FramedWriter) (msg : Message) : Result Unit × FramedWriter :=
  match msg.header writer.config.computeChecksum with
  | none => (.error (.invalidArgument "payload longer than u32::MAX"), writer)
  | some header =>
      let inner := writer.inner ++ encodeHeader header
      (.ok (), { writer with inner := if msg.payload = [] then inner else inner ++ msg.payload })

/-- Send a list of messages, stopping at the first error. -/
def FramedWriter.sendAll (writer : FramedWriter) : List Message → Result Unit × FramedWriter
  | [] => (.ok (), writer)
  | msg :: rest =>
      match writer.send msg with
      | (.ok (), next) => next.sendAll rest
      | (.error e, next) => (.error e, next)

namespace FramedReader

/-- The error a short read is mapped to. -/
def truncated (what : String) : Error := .protocol s!"truncated {what}"

/-- Decode the header, read the payload and check the checksum. -/
def recvBody (reader : FramedReader) (head : Bytes) (inner : Source UInt8) :
    Result Message × FramedReader :=
  match decodeHeader head reader.config.maxPayload with
  | .error e => (.error e, { reader with inner := inner })
  | .ok header =>
      let payload := if 0 < header.dataLength.toNat then inner.readExact header.dataLength.toNat
        else (some [], inner)
      match payload.1 with
      | none => (.error (truncated "payload"), { reader with inner := payload.2 })
      | some bytes =>
          let msg := header.withPayload bytes
          if reader.config.verifyChecksum && !msg.checksumMatches header then
            (.error (.protocol s!"checksum mismatch on {header.command.mnemonic}"),
              { reader with inner := payload.2 })
          else (.ok msg, { reader with inner := payload.2 })

/-- Receive one message. The first read may return part of a header, and an
empty first read means that the peer is gone. -/
def recv (reader : FramedReader) : Result Message × FramedReader :=
  let first := reader.inner.read HEADER_LEN
  if first.1.length = 0 then (.error .disconnected, { reader with inner := first.2 })
  else if first.1.length < HEADER_LEN then
    let more := first.2.readExact (HEADER_LEN - first.1.length)
    match more.1 with
    | none => (.error (truncated "header"), { reader with inner := more.2 })
    | some tail => reader.recvBody (first.1 ++ tail) more.2
  else reader.recvBody first.1 first.2

/-- The results of `count` successive calls of `recv`. -/
def recvMany : Nat → FramedReader → List (Result Message)
  | 0, _ => []
  | count + 1, reader => reader.recv.1 :: recvMany count reader.recv.2

end FramedReader

/-- What `recv` makes of the bytes that are still to come, and what it leaves. -/
def parseFrame (config : WireConfig) (bytes : Bytes) : Result Message × Bytes :=
  if bytes = [] then (.error .disconnected, [])
  else if bytes.length < HEADER_LEN then (.error (FramedReader.truncated "header"), [])
  else
    match decodeHeader (bytes.take HEADER_LEN) config.maxPayload with
    | .error e => (.error e, bytes.drop HEADER_LEN)
    | .ok header =>
        let rest := bytes.drop HEADER_LEN
        if rest.length < header.dataLength.toNat then (.error (FramedReader.truncated "payload"), [])
        else
          let msg := header.withPayload (rest.take header.dataLength.toNat)
          if config.verifyChecksum && !msg.checksumMatches header then
            (.error (.protocol s!"checksum mismatch on {header.command.mnemonic}"),
              rest.drop header.dataLength.toNat)
          else (.ok msg, rest.drop header.dataLength.toNat)

/-- The results of parsing `count` frames in a row. -/
def parseMany (config : WireConfig) : Nat → Bytes → List (Result Message)
  | 0, _ => []
  | count + 1, bytes => (parseFrame config bytes).1 :: parseMany config count (parseFrame config bytes).2

namespace FramedReader

/-- The body of `recv` after a complete header, on any fragmentation. -/
theorem recvBody_parse (reader : FramedReader) (head : Bytes) (inner : Source UInt8)
    (hHead : head.length = HEADER_LEN) :
    (reader.recvBody head inner).1 = (parseFrame reader.config (head ++ inner.pending)).1 ∧
    (reader.recvBody head inner).2.inner.pending =
      (parseFrame reader.config (head ++ inner.pending)).2 ∧
    (reader.recvBody head inner).2.config = reader.config := by
  have hNotNil : head ++ inner.pending ≠ [] := by
    intro hNil
    simp [(List.append_eq_nil_iff.mp hNil).1, HEADER_LEN] at hHead
  have hLong : ¬(head ++ inner.pending).length < HEADER_LEN := by
    simp [hHead]
  have hTake : (head ++ inner.pending).take HEADER_LEN = head := List.take_left' hHead
  have hDrop : (head ++ inner.pending).drop HEADER_LEN = inner.pending := List.drop_left' hHead
  simp only [recvBody, parseFrame, hNotNil, hLong, ↓reduceIte, hTake, hDrop]
  cases hDecode : decodeHeader head reader.config.maxPayload with
  | error e => simp
  | ok header =>
      by_cases hShort : inner.pending.length < header.dataLength.toNat
      · have hPositive : 0 < header.dataLength.toNat := by omega
        obtain ⟨hNone, hRest⟩ := inner.readExact_of_lt hShort
        simp [hPositive, hNone, hRest, hShort]
      · have hEnough : header.dataLength.toNat ≤ inner.pending.length := by omega
        have hPayload : ∃ source, (if 0 < header.dataLength.toNat then
            inner.readExact header.dataLength.toNat else (some [], inner)) =
              (some (inner.pending.take header.dataLength.toNat), source) ∧
            source.pending = inner.pending.drop header.dataLength.toNat := by
          by_cases hPositive : 0 < header.dataLength.toNat
          · obtain ⟨hSome, hRest⟩ := inner.readExact_of_le hEnough
            exact ⟨_, by rw [if_pos hPositive, ← hSome], hRest⟩
          · have hZero : header.dataLength.toNat = 0 := by omega
            exact ⟨inner, by simp [hZero], by simp [hZero]⟩
        obtain ⟨source, hRead, hRest⟩ := hPayload
        simp only [hRead, hShort, ↓reduceIte]
        split_ifs <;> simp [hRest]

/-- The reader decides on the content alone: its result and the content it
leaves are those of `parseFrame`, whatever the fragmentation. -/
theorem recv_parse (reader : FramedReader) :
    reader.recv.1 = (parseFrame reader.config reader.inner.pending).1 ∧
    reader.recv.2.inner.pending = (parseFrame reader.config reader.inner.pending).2 ∧
    reader.recv.2.config = reader.config := by
  have hSplit := reader.inner.read_append_pending HEADER_LEN
  have hLe := reader.inner.read_length_le HEADER_LEN
  have hEnd := reader.inner.read_eq_nil_iff (show 0 < HEADER_LEN by decide)
  simp only [recv]
  split_ifs with hZero hShort
  · have hNil := List.length_eq_zero_iff.mp hZero
    have hPending := hEnd.mp hNil
    have hRest : (reader.inner.read HEADER_LEN).2.pending = [] := by
      rw [hNil, List.nil_append] at hSplit
      rw [hSplit, hPending]
    simp [hPending, hRest, parseFrame]
  · have hSome : reader.inner.pending ≠ [] := by
      intro hPending
      exact hZero (List.length_eq_zero_iff.mpr (hEnd.mpr hPending))
    by_cases hEnough : HEADER_LEN - (reader.inner.read HEADER_LEN).1.length ≤
        (reader.inner.read HEADER_LEN).2.pending.length
    · obtain ⟨hTail, hRest⟩ := Source.readExact_of_le _ hEnough
      have hBody := reader.recvBody_parse
        ((reader.inner.read HEADER_LEN).1 ++ (reader.inner.read HEADER_LEN).2.pending.take
          (HEADER_LEN - (reader.inner.read HEADER_LEN).1.length))
        ((reader.inner.read HEADER_LEN).2.readExact
          (HEADER_LEN - (reader.inner.read HEADER_LEN).1.length)).2
        (by rw [List.length_append, List.length_take]; omega)
      rw [hRest, List.append_assoc, List.take_append_drop, hSplit] at hBody
      simpa only [hTail] using hBody
    · obtain ⟨hNone, hRest⟩ := Source.readExact_of_lt _ (Nat.lt_of_not_le hEnough)
      have hLength : reader.inner.pending.length < HEADER_LEN := by
        rw [← hSplit, List.length_append]
        omega
      simp [hNone, hRest, parseFrame, hSome, hLength]
  · have hBody := reader.recvBody_parse (reader.inner.read HEADER_LEN).1
      (reader.inner.read HEADER_LEN).2 (by omega)
    rwa [hSplit] at hBody

/-- Repeated calls of `recv` parse the content frame by frame. -/
theorem recvMany_parse (count : Nat) (reader : FramedReader) :
    recvMany count reader = parseMany reader.config count reader.inner.pending := by
  induction count generalizing reader with
  | zero => rfl
  | succ count ih =>
      obtain ⟨hResult, hRest, hConfig⟩ := reader.recv_parse
      rw [recvMany, parseMany, hResult, ih, hRest, hConfig]

end FramedReader

end Rsadb
