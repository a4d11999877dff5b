import Rsadb.Transport.Config
import Rsadb.Library.BulkPipe

/-! Bulk-endpoint input and output of the USB transport. Header and payload are
separate transfers, and a payload that fills its last packet is followed by an
empty packet, which the next wait for a header skips. -/
namespace Rsadb

/-- The writing half: the packets on the wire so far, the policy and the
maximum packet size of the endpoint. -/
structure UsbSink where
  endpoint : List Bytes
  maxPacketSize : Nat
  config : WireConfig

/-- The reading half, with the packets that are still to come. -/
structure UsbSource where
  endpoint : List Bytes
  maxPacketSize : Nat
  config : WireConfig

namespace UsbSink

/-- One written transfer. -/
def write (sink : UsbSink) (data : Bytes) : UsbSink :=
  { sink with endpoint := sink.endpoint ++ BulkPipe.packets sink.maxPacketSize data }

def send (sink : UsbSink) (msg : Message) : Result Unit × UsbSink :=
  match msg.header sink.config.computeChecksum with
  | none => (.error (.invalidArgument "payload longer than u32::MAX"), sink)
  | some header =>
      let sink := sink.write (encodeHeader header)
      if msg.payload = [] then (.ok (), sink)
      else
        let sink := sink.write msg.payload
        if msg.payload.length % sink.maxPacketSize = 0 then (.ok (), sink.write [])
        else (.ok (), sink)

/-- Send a list of messages, stopping at the first error. -/
def sendAll (sink : UsbSink) : List Message → Result Unit × UsbSink
  | [] => (.ok (), sink)
  | msg :: rest =>
      match sink.send msg with
      | (.ok (), next) => next.sendAll rest
      | (.error e, next) => (.error e, next)

end UsbSink

namespace UsbSource

/-- Read up to `len` bytes, rounded up to whole packets. No result means that
the request is still waiting for the device. -/
def read (source : UsbSource) (len : Nat) : Option (Bytes × UsbSource) :=
  let mps := max source.maxPacketSize 1
  let request := max ((len + mps - 1) / mps) 1 * mps
  (BulkPipe.complete mps request source.endpoint).map fun done =>
    (done.1, { source with endpoint := done.2 })

/-- A completed read has taken packets off the wire and changed nothing else. -/
theorem read_shrinks {source next : UsbSource} {len : Nat} {got : Bytes}
    (h : source.read len = some (got, next)) : next.endpoint.length < source.endpoint.length := by
  obtain ⟨⟨done, rest⟩, hDone, hEq⟩ := Option.map_eq_some_iff.mp h
  obtain ⟨-, rfl⟩ := Prod.mk.inj hEq
  exact BulkPipe.complete_shrinks hDone

/-- The loop of `read_exact`, with the buffer collected so far. -/
def readMore (source : UsbSource) (len : Nat) (buffer : Bytes) :
    Option (Result Bytes × UsbSource) :=
  if buffer.length < len then
    match _hRead : source.read (len - buffer.length) with
    | none => none
    | some (more, next) =>
        if more = [] then
          some (.error (.protocol s!"short payload: {buffer.length} of {len} bytes"), next)
        else next.readMore len (buffer ++ more)
  else if buffer.length ≠ len then
    some (.error (.protocol s!"expected {len} bytes, got {buffer.length}"), source)
  else some (.ok buffer, source)
  termination_by source.endpoint.length
  decreasing_by exact read_shrinks _hRead

def readExact (source : UsbSource) (len : Nat) : Option (Result Bytes × UsbSource) :=
  match source.read len with
  | none => none
  | some (buffer, next) => next.readMore len buffer

/-- Wait for a header transfer, skipping empty packets. -/
def recvHead (source : UsbSource) : Option (Bytes × UsbSource) :=
  match _hRead : source.read HEADER_LEN with
  | none => none
  | some (buffer, next) => if buffer = [] then next.recvHead else some (buffer, next)
  termination_by source.endpoint.length
  decreasing_by exact read_shrinks _hRead

/-- Receive one message. No result means that the device has not sent enough yet. -/
def recv (source : UsbSource) : Option (Result Message × UsbSource) :=
  match source.recvHead with
  | none => none
  | some (head, source) =>
      if head.length ≠ HEADER_LEN then
        some (.error (.protocol s!"truncated header: {head.length} bytes"), source)
      else
        match decodeHeader head source.config.maxPayload with
        | .error e => some (.error e, source)
        | .ok header =>
            let len := header.dataLength.toNat
            let payload := if len = 0 then some (.ok [], source) else source.readExact len
            match payload with
            | none => none
            | some (.error e, source) => some (.error e, source)
            | some (.ok bytes, source) =>
                let msg := header.withPayload bytes
                if source.config.verifyChecksum && !msg.checksumMatches header then
                  some (.error (.protocol s!"checksum mismatch on {header.command.mnemonic}"), source)
                else some (.ok msg, source)

/-- The results of `count` successive calls of `recv`, if all of them return. -/
def recvMany : Nat → UsbSource → Option (List (Result Message) × UsbSource)
  | 0, source => some ([], source)
  | count + 1, source =>
      match source.recv with
      | none => none
      | some (result, next) =>
          (recvMany count next).map fun more => (result :: more.1, more.2)

end UsbSource

/-- The packets that `send` puts on the wire for one message. -/
def usbFrame (mps : Nat) (config : WireConfig) (msg : Message) : List Bytes :=
  match msg.header config.computeChecksum with
  | none => []
  | some header =>
      BulkPipe.packets mps (encodeHeader header) ++
        if msg.payload = [] then []
        else BulkPipe.packets mps msg.payload ++ if msg.payload.length % mps = 0 then [[]] else []

theorem UsbSink.send_fits (sink : UsbSink) {msg : Message} (h : msg.Fits sink.config) :
    sink.send msg = (.ok (), { sink with
      endpoint := sink.endpoint ++ usbFrame sink.maxPacketSize sink.config msg }) := by
  obtain ⟨header, hHeader, _⟩ := msg.header_of_fits h sink.config.computeChecksum
  simp only [send, usbFrame, hHeader, write]
  split_ifs <;> simp_all [BulkPipe.packets]

theorem UsbSink.sendAll_fits (sink : UsbSink) (msgs : List Message)
    (h : ∀ msg ∈ msgs, msg.Fits sink.config) :
    sink.sendAll msgs = (.ok (), { sink with
      endpoint := sink.endpoint ++ msgs.flatMap (usbFrame sink.maxPacketSize sink.config) }) := by
  induction msgs generalizing sink with
  | nil => simp [sendAll]
  | cons msg rest ih =>
      have hRest : ∀ other ∈ rest, other.Fits sink.config :=
        fun other hOther => h other (List.mem_cons_of_mem _ hOther)
      have hTail := ih { sink with
        endpoint := sink.endpoint ++ usbFrame sink.maxPacketSize sink.config msg } hRest
      simp only [sendAll, sink.send_fits (h msg List.mem_cons_self)]
      simp [hTail, List.append_assoc]

namespace UsbSource

/-- A read for the length of the transfer in front returns that transfer. -/
theorem read_packets (source : UsbSource) (hMps : 1 ≤ source.maxPacketSize) (data : Bytes)
    (rest : List Bytes) (hData : data.length ≠ 0)
    (hWire : source.endpoint = BulkPipe.packets source.maxPacketSize data ++ rest) :
    source.read data.length = some (data, { source with endpoint := rest }) := by
  have hRound : max ((data.length + source.maxPacketSize - 1) / source.maxPacketSize) 1 =
      (data.length + source.maxPacketSize - 1) / source.maxPacketSize :=
    Nat.max_eq_left (Nat.div_pos (by omega) (by omega))
  simp only [read, Nat.max_eq_left hMps, hRound, hWire,
    BulkPipe.complete_packets (by omega : 0 < source.maxPacketSize) data rest hData, Option.map_some]

theorem readExact_packets (source : UsbSource) (hMps : 1 ≤ source.maxPacketSize) (data : Bytes)
    (rest : List Bytes) (hData : data.length ≠ 0)
    (hWire : source.endpoint = BulkPipe.packets source.maxPacketSize data ++ rest) :
    source.readExact data.length = some (.ok data, { source with endpoint := rest }) := by
  rw [readExact, source.read_packets hMps data rest hData hWire]
  unfold readMore
  simp

/-- The wait for a header skips the empty packets in front of it. The induction
removes them one by one. -/
theorem recvHead_packets (source : UsbSource) (hMps : 1 ≤ source.maxPacketSize)
    (empties : List Bytes) (hEmpties : ∀ packet ∈ empties, packet = []) (head : Bytes)
    (rest : List Bytes) (hHead : head.length = HEADER_LEN)
    (hWire : source.endpoint =
      empties ++ (BulkPipe.packets source.maxPacketSize head ++ rest)) :
    source.recvHead = some (head, { source with endpoint := rest }) := by
  induction empties generalizing source with
  | nil =>
      have hNotNil : head ≠ [] := by
        rintro rfl
        simp [HEADER_LEN] at hHead
      have hRead := source.read_packets hMps head rest (by simp [hHead, HEADER_LEN]) hWire
      rw [hHead] at hRead
      unfold recvHead
      split
      · simp_all
      · simp_all
  | cons packet more ih =>
      have hFirst := hEmpties packet List.mem_cons_self
      subst packet
      have hRead : source.read HEADER_LEN = some ([], { source with
          endpoint := more ++ (BulkPipe.packets source.maxPacketSize head ++ rest) }) := by
        simp only [read, hWire, List.cons_append, Option.map_some,
          BulkPipe.complete_empty (by omega : 0 < max source.maxPacketSize 1)]
      have hTail := ih { source with
        endpoint := more ++ (BulkPipe.packets source.maxPacketSize head ++ rest) } hMps
        (fun other hOther => hEmpties other (List.mem_cons_of_mem _ hOther)) rfl
      unfold recvHead
      split
      · simp_all
      · simp_all

/-- One message is received whole, and at most one empty packet is left of it. -/
theorem recv_usbFrame (source : UsbSource) (hMps : 1 ≤ source.maxPacketSize)
    (hConfig : source.config.Standard) {msg : Message} (h : msg.Fits source.config)
    (empties rest : List Bytes) (hEmpties : ∀ packet ∈ empties, packet = [])
    (hWire : source.endpoint =
      empties ++ (usbFrame source.maxPacketSize source.config msg ++ rest)) :
    ∃ left, (∀ packet ∈ left, packet = []) ∧
      source.recv = some (.ok msg, { source with endpoint := left ++ rest }) := by
  obtain ⟨header, hHeader, hMsg, hLength, hBound, hCheck⟩ :=
    msg.header_of_fits h source.config.computeChecksum
  have hHeadLength := encodeHeader_length header
  have hDecode := decodeHeader_encodeHeader header source.config.maxPayload hBound
  have hVerified : (source.config.verifyChecksum && !msg.checksumMatches header) = false := by
    cases hVerify : source.config.verifyChecksum with
    | false => rfl
    | true => simp [hCheck (hConfig.computes_what_it_verifies hVerify)]
  by_cases hPayload : msg.payload = []
  · have hZero : header.dataLength.toNat = 0 := by simp [hLength, hPayload]
    have hHead := source.recvHead_packets hMps empties hEmpties (encodeHeader header) rest
      hHeadLength (by simpa [usbFrame, hHeader, hPayload] using hWire)
    refine ⟨[], by simp, ?_⟩
    rw [hPayload] at hMsg
    simp [recv, hHead, hHeadLength, hDecode, hZero, hMsg, hVerified]
  · -- The terminating empty packet is left for the next wait for a header.
    have hSome : msg.payload.length ≠ 0 := by simpa using hPayload
    have hHead := source.recvHead_packets hMps empties hEmpties (encodeHeader header)
      (BulkPipe.packets source.maxPacketSize msg.payload ++
        ((if msg.payload.length % source.maxPacketSize = 0 then [[]] else []) ++ rest))
      hHeadLength (by simpa [usbFrame, hHeader, hPayload, List.append_assoc] using hWire)
    refine ⟨if msg.payload.length % source.maxPacketSize = 0 then [[]] else [], ?_, ?_⟩
    · split_ifs <;> simp
    · have hRead := readExact_packets { source with
        endpoint := BulkPipe.packets source.maxPacketSize msg.payload ++
          ((if msg.payload.length % source.maxPacketSize = 0 then [[]] else []) ++ rest) }
        hMps msg.payload _ hSome rfl
      simp [recv, hHead, hHeadLength, hDecode, hLength, hSome, hRead, hMsg, hVerified]

/-- Messages sent one after the other are received one after the other. -/
theorem recvMany_usbFrames (msgs : List Message) (source : UsbSource)
    (hMps : 1 ≤ source.maxPacketSize) (hConfig : source.config.Standard)
    (h : ∀ msg ∈ msgs, msg.Fits source.config)
    (empties : List Bytes) (hEmpties : ∀ packet ∈ empties, packet = [])
    (hWire : source.endpoint =
      empties ++ msgs.flatMap (usbFrame source.maxPacketSize source.config)) :
    ∃ left, (∀ packet ∈ left, packet = []) ∧
      recvMany msgs.length source = some (msgs.map .ok, { source with endpoint := left }) := by
  induction msgs generalizing source empties with
  | nil =>
      obtain ⟨endpoint, maxPacketSize, config⟩ := source
      simp only [List.flatMap_nil, List.append_nil] at hWire
      subst endpoint
      exact ⟨empties, hEmpties, rfl⟩
  | cons msg rest ih =>
      rw [List.flatMap_cons] at hWire
      obtain ⟨left, hLeft, hRecv⟩ := source.recv_usbFrame hMps hConfig
        (h msg List.mem_cons_self) empties _ hEmpties hWire
      obtain ⟨last, hLast, hMany⟩ := ih { source with
        endpoint := left ++ rest.flatMap (usbFrame source.maxPacketSize source.config) } hMps hConfig
        (fun other hOther => h other (List.mem_cons_of_mem _ hOther)) left hLeft rfl
      exact ⟨last, hLast, by simp [recvMany, hRecv, hMany]⟩

/-- With only empty packets in front of it a receiver keeps waiting. -/
theorem recv_empties (empties : List Bytes) (source : UsbSource)
    (hEmpties : ∀ packet ∈ empties, packet = []) (hWire : source.endpoint = empties) :
    source.recv = none := by
  have hHead : source.recvHead = none := by
    induction empties generalizing source with
    | nil =>
        unfold recvHead
        split
        · rfl
        · simp_all [read, BulkPipe.complete]
    | cons packet more ih =>
        have hFirst := hEmpties packet List.mem_cons_self
        subst packet
        have hRead : source.read HEADER_LEN = some ([], { source with endpoint := more }) := by
          simp only [read, hWire, Option.map_some,
            BulkPipe.complete_empty (by omega : 0 < max source.maxPacketSize 1)]
        have hTail := ih { source with endpoint := more }
          (fun other hOther => hEmpties other (List.mem_cons_of_mem _ hOther)) rfl
        unfold recvHead
        split
        · rfl
        · simp_all
  rw [recv, hHead]

end UsbSource

/-- What a USB sink sent is received as exactly the same list of messages, for
every maximum packet size. Afterwards nothing but empty packets is left, and the
receiver waits. -/
theorem usb_round_trip (mps : Nat) (hMps : 1 ≤ mps) (config : WireConfig)
    (hConfig : config.Standard) (msgs : List Message) (hFits : ∀ msg ∈ msgs, msg.Fits config) :
    let sent := (UsbSink.mk [] mps config).sendAll msgs
    sent.1 = .ok () ∧
    ∃ source : UsbSource,
      UsbSource.recvMany msgs.length ⟨sent.2.endpoint, mps, config⟩ = some (msgs.map .ok, source) ∧
      (∀ packet ∈ source.endpoint, packet = []) ∧ source.recv = none := by
  have hSent := (UsbSink.mk [] mps config).sendAll_fits msgs hFits
  dsimp only
  rw [hSent]
  obtain ⟨left, hLeft, hMany⟩ := UsbSource.recvMany_usbFrames msgs
    ⟨msgs.flatMap (usbFrame mps config), mps, config⟩ hMps hConfig hFits [] (by simp) rfl
  exact ⟨rfl, ⟨left, mps, config⟩, hMany, hLeft, UsbSource.recv_empties left _ hLeft rfl⟩

/-- Packets of 8 bytes divide the header and this payload, so an empty packet ends the payload. -/
theorem usb_round_trip_write_okay :
    let write : Message := ⟨.write, 1, 2, [104, 105, 106, 107, 108, 109, 110, 111]⟩
    let okay : Message := ⟨.okay, 1, 2, []⟩
    let sent := ((UsbSink.mk [] 8 .INITIAL).sendAll [write, okay]).2.endpoint
    ∃ source : UsbSource,
      UsbSource.recvMany 2 ⟨sent, 8, .INITIAL⟩ = some ([.ok write, .ok okay], source) ∧
      (∀ packet ∈ source.endpoint, packet = []) ∧ source.recv = none :=
  (usb_round_trip 8 (by decide) .INITIAL (Or.inl rfl)
    [⟨.write, 1, 2, [104, 105, 106, 107, 108, 109, 110, 111]⟩, ⟨.okay, 1, 2, []⟩] (by decide)).2

end Rsadb
