import Rsadb.Transport.Framed

/-! Round trip of the framed transport over message lists, for every
fragmentation of the byte stream and for every point at which it may be cut. -/
namespace Rsadb

/-- The bytes that `send` writes for one message. -/
def frame (config : WireConfig) (msg : Message) : Bytes :=
  match msg.header config.computeChecksum with
  | none => []
  | some header => encodeHeader header ++ msg.payload

/-- Length of a message on the wire. -/
def framedLength (msg : Message) : Nat := HEADER_LEN + msg.payload.length

/-- The messages whose last byte lies before the cut. -/
def wholeMessages : Nat → List Message → List Message
  | _, [] => []
  | cut, msg :: rest =>
      if framedLength msg ≤ cut then msg :: wholeMessages (cut - framedLength msg) rest else []

theorem frame_length {config : WireConfig} {msg : Message} (h : msg.Fits config) :
    (frame config msg).length = framedLength msg := by
  obtain ⟨header, hHeader, _⟩ := msg.header_of_fits h config.computeChecksum
  simp [frame, hHeader, framedLength]

theorem FramedWriter.send_fits (writer : FramedWriter) {msg : Message}
    (h : msg.Fits writer.config) :
    writer.send msg = (.ok (), { writer with inner := writer.inner ++ frame writer.config msg }) := by
  obtain ⟨header, hHeader, _⟩ := msg.header_of_fits h writer.config.computeChecksum
  simp only [send, frame, hHeader]
  by_cases hEmpty : msg.payload = [] <;> simp [hEmpty]

theorem FramedWriter.sendAll_fits (writer : FramedWriter) (msgs : List Message)
    (h : ∀ msg ∈ msgs, msg.Fits writer.config) :
    writer.sendAll msgs =
      (.ok (), { writer with inner := writer.inner ++ msgs.flatMap (frame writer.config) }) := by
  induction msgs generalizing writer with
  | nil => simp [sendAll]
  | cons msg rest ih =>
      have hRest : ∀ other ∈ rest, other.Fits writer.config :=
        fun other hOther => h other (List.mem_cons_of_mem _ hOther)
      simp only [sendAll, writer.send_fits (h msg List.mem_cons_self)]
      have hTail := ih { writer with inner := writer.inner ++ frame writer.config msg } hRest
      simp [hTail, List.append_assoc]

/-- A complete frame is parsed to its message, and the bytes behind it stay. -/
theorem parseFrame_frame {config : WireConfig} (hConfig : config.Standard) {msg : Message}
    (h : msg.Fits config) (rest : Bytes) :
    parseFrame config (frame config msg ++ rest) = (.ok msg, rest) := by
  obtain ⟨header, hHeader, hMsg, hLength, hBound, hCheck⟩ :=
    msg.header_of_fits h config.computeChecksum
  have hFrame : frame config msg = encodeHeader header ++ msg.payload := by
    simp [frame, hHeader]
  have hHead := encodeHeader_length header
  have hNotNil : encodeHeader header ++ (msg.payload ++ rest) ≠ [] := by
    intro hNil
    simp [(List.append_eq_nil_iff.mp hNil).1, HEADER_LEN] at hHead
  have hDecode := decodeHeader_encodeHeader header config.maxPayload hBound
  have hVerified : (config.verifyChecksum && !msg.checksumMatches header) = false := by
    cases hVerify : config.verifyChecksum with
    | false => rfl
    | true => simp [hCheck (hConfig.computes_what_it_verifies hVerify)]
  rw [hFrame, List.append_assoc, parseFrame, if_neg hNotNil, if_neg (by simp [hHead]),
    List.take_left' hHead, List.drop_left' hHead, hDecode]
  simp [hLength, hMsg, hVerified]

/-- A frame that is cut anywhere but at its ends is a protocol error, and
nothing is left of it. -/
theorem parseFrame_cut {config : WireConfig} {msg : Message} (h : msg.Fits config) {cut : Nat}
    (hStart : 0 < cut) (hEnd : cut < framedLength msg) :
    ∃ text, parseFrame config ((frame config msg).take cut) = (.error (.protocol text), []) := by
  obtain ⟨header, hHeader, _, hLength, hBound, _⟩ := msg.header_of_fits h config.computeChecksum
  have hFrame : frame config msg = encodeHeader header ++ msg.payload := by
    simp [frame, hHeader]
  have hHead := encodeHeader_length header
  have hCut : ((encodeHeader header ++ msg.payload).take cut).length = cut := by
    simp only [List.length_take, List.length_append, hHead]
    simp only [framedLength] at hEnd
    omega
  have hNotNil : (encodeHeader header ++ msg.payload).take cut ≠ [] := by
    intro hNil
    rw [hNil] at hCut
    simp at hCut
    omega
  rw [hFrame, parseFrame, if_neg hNotNil, hCut]
  by_cases hShort : cut < HEADER_LEN
  · exact ⟨_, by rw [if_pos hShort]; rfl⟩
  · have hTake : ((encodeHeader header ++ msg.payload).take cut).take HEADER_LEN =
        encodeHeader header := by
      rw [List.take_take, Nat.min_eq_left (by omega), List.take_left' hHead]
    have hRest : (((encodeHeader header ++ msg.payload).take cut).drop HEADER_LEN).length <
        header.dataLength.toNat := by
      rw [List.length_drop, hCut, hLength]
      simp only [framedLength] at hEnd
      omega
    rw [if_neg hShort, hTake, decodeHeader_encodeHeader header config.maxPayload hBound]
    simp only [hRest, ↓reduceIte]
    exact ⟨_, rfl⟩

theorem parseMany_nil (config : WireConfig) (count : Nat) :
    parseMany config count [] = List.replicate count (.error .disconnected) := by
  induction count with
  | zero => rfl
  | succ count ih => simp [parseMany, parseFrame, ih, List.replicate_succ]

/-- Parsing a cut stream: the whole messages, then one error that tells the cut
points apart, then the end. The induction follows the message list, and the cut
moves left by one frame at each whole message. -/
theorem parseMany_cut {config : WireConfig} (hConfig : config.Standard) (msgs : List Message)
    (h : ∀ msg ∈ msgs, msg.Fits config) (cut extra : Nat)
    (hCut : cut ≤ (msgs.flatMap (frame config)).length) :
    ∃ last : Error,
      (cut = ((wholeMessages cut msgs).map framedLength).sum → last = .disconnected) ∧
      (cut ≠ ((wholeMessages cut msgs).map framedLength).sum → ∃ text, last = .protocol text) ∧
      parseMany config ((wholeMessages cut msgs).length + 1 + extra)
          ((msgs.flatMap (frame config)).take cut) =
        (wholeMessages cut msgs).map .ok ++ .error last ::
          List.replicate extra (.error .disconnected) := by
  induction msgs generalizing cut with
  | nil =>
      have hZero : cut = 0 := by simpa using hCut
      subst cut
      refine ⟨.disconnected, fun _ => rfl, fun hNe => absurd rfl hNe, ?_⟩
      simp [wholeMessages, parseMany_nil, Nat.add_comm 1 extra, List.replicate_succ]
  | cons msg rest ih =>
      have hMsg := h msg List.mem_cons_self
      have hRest : ∀ other ∈ rest, other.Fits config :=
        fun other hOther => h other (List.mem_cons_of_mem _ hOther)
      have hLength := frame_length hMsg
      rw [List.flatMap_cons] at hCut ⊢
      by_cases hWhole : framedLength msg ≤ cut
      · obtain ⟨last, hBoundary, hInside, hParse⟩ := ih hRest (cut - framedLength msg) (by
          rw [List.length_append, hLength] at hCut
          omega)
        have hTake : (frame config msg ++ rest.flatMap (frame config)).take cut =
            frame config msg ++ (rest.flatMap (frame config)).take (cut - framedLength msg) := by
          rw [List.take_append, hLength, List.take_of_length_le (by omega)]
        refine ⟨last, ?_, ?_, ?_⟩
        · intro hEq
          apply hBoundary
          simp only [wholeMessages, hWhole, ↓reduceIte, List.map_cons, List.sum_cons] at hEq
          omega
        · intro hNe
          apply hInside
          simp only [wholeMessages, hWhole, ↓reduceIte, List.map_cons, List.sum_cons] at hNe
          omega
        · rw [hTake]
          simp only [wholeMessages, hWhole, ↓reduceIte, List.length_cons, List.map_cons,
            List.cons_append]
          rw [show (wholeMessages (cut - framedLength msg) rest).length + 1 + 1 + extra =
            ((wholeMessages (cut - framedLength msg) rest).length + 1 + extra) + 1 by omega,
            parseMany, parseFrame_frame hConfig hMsg, hParse]
      · have hNone : wholeMessages cut (msg :: rest) = [] := by
          simp [wholeMessages, hWhole]
        have hTake : (frame config msg ++ rest.flatMap (frame config)).take cut =
            (frame config msg).take cut := by
          rw [List.take_append_of_le_length (by omega)]
        simp only [hNone, hTake, List.map_nil, List.sum_nil, List.nil_append, List.length_nil,
          Nat.zero_add, Nat.add_comm 1 extra]
        rcases Nat.eq_zero_or_pos cut with hZero | hPositive
        · subst cut
          exact ⟨.disconnected, fun _ => rfl, fun hNe => absurd rfl hNe,
            by rw [List.take_zero, parseMany_nil, List.replicate_succ]⟩
        · obtain ⟨text, hParse⟩ := parseFrame_cut hMsg hPositive (by omega)
          refine ⟨.protocol text, fun hEq => absurd hEq (by omega), fun _ => ⟨text, rfl⟩, ?_⟩
          rw [parseMany, hParse, parseMany_nil]

/-- The uncut stream: every message, then the end at every later call. -/
theorem parseMany_stream {config : WireConfig} (hConfig : config.Standard) (msgs : List Message)
    (h : ∀ msg ∈ msgs, msg.Fits config) (extra : Nat) :
    parseMany config (msgs.length + extra) (msgs.flatMap (frame config)) =
      msgs.map .ok ++ List.replicate extra (.error .disconnected) := by
  induction msgs with
  | nil => simp [parseMany_nil]
  | cons msg rest ih =>
      have hTail := ih fun other hOther => h other (List.mem_cons_of_mem _ hOther)
      rw [List.length_cons, Nat.add_right_comm, parseMany, List.flatMap_cons,
        parseFrame_frame hConfig (h msg List.mem_cons_self), hTail, List.map_cons, List.cons_append]

/-- What a framed writer sent under a standard policy is received message by
message under the same policy, however the byte stream is fragmented. A stream
cut at any point yields the messages that are complete, then `disconnected` if
the cut is a message boundary and a protocol error otherwise. -/
theorem framed_round_trip (config : WireConfig) (hConfig : config.Standard)
    (msgs : List Message) (hFits : ∀ msg ∈ msgs, msg.Fits config) :
    let sent := (FramedWriter.mk [] config).sendAll msgs
    sent.1 = .ok () ∧
    (∀ source : Source UInt8, source.pending = sent.2.inner → ∀ extra,
      FramedReader.recvMany (msgs.length + extra) ⟨source, config⟩ =
        msgs.map .ok ++ List.replicate extra (.error .disconnected)) ∧
    (∀ cut ≤ sent.2.inner.length, ∀ source : Source UInt8,
      source.pending = sent.2.inner.take cut → ∀ extra,
        let whole := wholeMessages cut msgs
        ∃ last : Error,
          (cut = (whole.map framedLength).sum → last = .disconnected) ∧
          (cut ≠ (whole.map framedLength).sum → ∃ text, last = .protocol text) ∧
          FramedReader.recvMany (whole.length + 1 + extra) ⟨source, config⟩ =
            whole.map .ok ++ .error last :: List.replicate extra (.error .disconnected)) := by
  have hSent := (FramedWriter.mk [] config).sendAll_fits msgs hFits
  dsimp only
  rw [hSent]
  simp only [List.nil_append]
  refine ⟨trivial, ?_, ?_⟩
  · intro source hSource extra
    rw [FramedReader.recvMany_parse]
    simp only [hSource]
    exact parseMany_stream hConfig msgs hFits extra
  · intro cut hCut source hSource extra
    rw [FramedReader.recvMany_parse]
    simp only [hSource]
    exact parseMany_cut hConfig msgs hFits cut extra hCut

/-- A write and its answer under the initial policy, met in fragments of 10, 14 and 26 bytes. -/
theorem framed_round_trip_write_okay :
    let write : Message := ⟨.write, 1, 2, [104, 105]⟩
    let okay : Message := ⟨.okay, 1, 2, []⟩
    let sent := ((FramedWriter.mk [] .INITIAL).sendAll [write, okay]).2.inner
    FramedReader.recvMany 3
        ⟨⟨[sent.take 10, (sent.drop 10).take 14, sent.drop 24], by decide⟩, .INITIAL⟩ =
      [.ok write, .ok okay, .error .disconnected] :=
  (framed_round_trip .INITIAL (Or.inl rfl) [⟨.write, 1, 2, [104, 105]⟩, ⟨.okay, 1, 2, []⟩]
    (by decide)).2.1 _ (by decide) 1

end Rsadb
