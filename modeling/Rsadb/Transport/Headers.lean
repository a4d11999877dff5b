import Rsadb.Transport.Framed
import Rsadb.Transport.Usb

/-! The header codec against everything that may stand in 24 bytes. It accepts
exactly what it writes, and both transports turn the rest away with the payload
still unread. -/
namespace Rsadb

/-- A header that is turned away leaves the payload in the stream. -/
theorem FramedReader.recv_rejected {reader : FramedReader} {head rest : Bytes} {e : Error}
    (hHead : head.length = HEADER_LEN) (hPending : reader.inner.pending = head ++ rest)
    (h : decodeHeader head reader.config.maxPayload = .error e) :
    reader.recv.1 = .error e ∧ reader.recv.2.inner.pending = rest := by
  obtain ⟨hResult, hRest, -⟩ := reader.recv_parse
  have hSome : head ++ rest ≠ [] := by
    intro hNil
    rw [(List.append_eq_nil_iff.mp hNil).1] at hHead
    cases hHead
  have hLong : ¬(head ++ rest).length < HEADER_LEN := by simp [hHead]
  have hParse : parseFrame reader.config (head ++ rest) = (.error e, rest) := by
    rw [parseFrame, if_neg hSome, if_neg hLong, List.take_left' hHead, h, List.drop_left' hHead]
  rw [hResult, hRest, hPending, hParse]
  exact ⟨rfl, rfl⟩

namespace UsbSource

theorem read_config {source next : UsbSource} {len : Nat} {got : Bytes}
    (h : source.read len = some (got, next)) : next.config = source.config := by
  obtain ⟨done, -, hSame⟩ := Option.map_eq_some_iff.mp h
  rw [← (Prod.mk.inj hSame).2]

/-- Waiting for a header changes nothing but the wire. -/
theorem recvHead_config {source next : UsbSource} {head : Bytes} (h : source.recvHead = some (head, next)) :
    next.config = source.config := by
  induction source using recvHead.induct with
  | case1 source hRead =>
      unfold recvHead at h
      split at h <;> simp_all
  | case2 source middle hRead ih =>
      unfold recvHead at h
      split at h
      · cases h
      · rename_i buffer after hAgain
        obtain ⟨rfl, rfl⟩ := Prod.mk.inj (Option.some.inj (hRead.symm.trans hAgain))
        exact (ih h).trans (read_config hRead)
  | case3 source buffer middle hRead hSome =>
      unfold recvHead at h
      split at h
      · cases h
      · rename_i first after hAgain
        obtain ⟨rfl, rfl⟩ := Prod.mk.inj (Option.some.inj (hRead.symm.trans hAgain))
        rw [if_neg hSome] at h
        cases h
        exact read_config hRead

/-- A header that is turned away leaves the packets behind it on the wire. -/
theorem recv_rejected {source next : UsbSource} {head : Bytes} {e : Error}
    (hHead : head.length = HEADER_LEN) (hRead : source.recvHead = some (head, next))
    (h : decodeHeader head source.config.maxPayload = .error e) : source.recv = some (.error e, next) := by
  simp only [recv, hRead, hHead, ne_eq, not_true_eq_false, if_false, recvHead_config hRead, h]

end UsbSource

/-- The codec is a bijection between the headers within the bound and the arrays
that are accepted. An array with a wrong magic, an unknown command or a length
over the bound is turned away, on either transport before any payload is read. -/
theorem header_codec_exact (maxPayload : UInt32) :
    (∀ header : Header, header.dataLength ≤ min maxPayload MAX_PAYLOAD →
      decodeHeader (encodeHeader header) maxPayload = .ok header) ∧
    (∀ (bytes : Bytes) (header : Header), bytes.length = HEADER_LEN →
      decodeHeader bytes maxPayload = .ok header →
      header.dataLength ≤ min maxPayload MAX_PAYLOAD ∧ encodeHeader header = bytes) ∧
    ∀ bytes : Bytes, bytes.length = HEADER_LEN → Rejected maxPayload bytes → ∃ message,
      decodeHeader bytes maxPayload = .error (.protocol message) ∧
      (∀ (reader : FramedReader) (rest : Bytes), reader.config.maxPayload = maxPayload →
        reader.inner.pending = bytes ++ rest →
        reader.recv.1 = .error (.protocol message) ∧ reader.recv.2.inner.pending = rest) ∧
      ∀ source next : UsbSource, source.config.maxPayload = maxPayload →
        source.recvHead = some (bytes, next) → source.recv = some (.error (.protocol message), next) := by
  refine ⟨?_, ?_, ?_⟩
  · exact fun header hBound => decodeHeader_encodeHeader header maxPayload hBound
  · exact fun bytes header hLength h => encodeHeader_of_decodeHeader hLength h
  · intro bytes hLength hRejected
    obtain ⟨message, hDecode⟩ := decodeHeader_rejected hRejected
    refine ⟨message, hDecode, ?_, ?_⟩
    · rintro reader rest rfl hPending
      exact FramedReader.recv_rejected hLength hPending hDecode
    · rintro source next rfl hRead
      exact UsbSource.recv_rejected hLength hRead hDecode

end Rsadb
