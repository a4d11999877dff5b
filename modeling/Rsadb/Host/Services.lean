import Rsadb.Host.Client
import Rsadb.Services.Commands

/-! Running commands through an adb server. The server puts two words in front of
what a service says, and nothing behind it: what a command has put out is what
arrives behind these words, however the network cuts it. -/
namespace Rsadb.Host

open ShellV2

variable {debug : String → String} {device : HostDevice} {serial service : String} {stream after : TcpStream}
  {dials : List Dial} {rest : Bytes}

namespace TcpStream

/-- Everything that is written is taken. -/
def Accepts (stream : TcpStream) : Prop := ∀ n, stream.sendError n = none

/-- The connection comes to its end, and no read of it fails. -/
def Ends (stream : TcpStream) : Prop := stream.ending.errors = [] ∧ stream.ending.isOver = true

theorem request_accepted (h : stream.Accepts) {text : String} (hFits : Fits text) :
    request text stream = (some (.ok ()), { stream with sent := stream.sent ++ [requestFrame text] }) := by
  rw [request, sendRequest, if_neg (Nat.not_lt.mpr hFits)]
  simp only [send, h stream.sent.length]
  rfl

theorem request_ok (h : stream.Accepts) {text : String} (hOk : request text stream = (some (.ok ()), after)) :
    Fits text ∧ after = { stream with sent := stream.sent ++ [requestFrame text] } := by
  by_cases hFits : Fits text
  · rw [request_accepted h hFits] at hOk
    cases hOk
    exact ⟨hFits, rfl⟩
  · rw [request, sendRequest, if_pos (Nat.not_le.mp hFits)] at hOk
    cases hOk

/-- A request is written whole, or nothing of it is. -/
theorem request_cases (text : String) (stream : TcpStream) :
    (∃ e, request text stream = (some (.error e), stream)) ∨
      request text stream = (some (.ok ()), { stream with sent := stream.sent ++ [requestFrame text] }) := by
  by_cases hFits : Fits text
  · rw [request, sendRequest, if_neg (Nat.not_lt.mpr hFits)]
    simp only [send]
    cases stream.sendError stream.sent.length with
    | some e => exact Or.inl ⟨e, rfl⟩
    | none => exact Or.inr rfl
  · rw [request, sendRequest, if_pos (Nat.not_le.mp hFits)]
    exact Or.inl ⟨_, rfl⟩

theorem request_done {text : String} (h : request text stream = (some (.ok ()), after)) :
    after = { stream with sent := stream.sent ++ [requestFrame text] } := by
  rcases request_cases text stream with ⟨e, hFailed⟩ | hSent
  · rw [h] at hFailed
    cases hFailed
  · rw [h] at hSent
    cases hSent
    rfl

/-- Reading writes nothing. -/
theorem read_sent {α : Type} (op : Source UInt8 → Result α × Source UInt8) (stream : TcpStream) :
    (read op stream).2.sent = stream.sent := by
  unfold read
  split <;> rfl

theorem status_okay (debug : String → String) (h : stream.source.pending = ascii "OKAY" ++ rest) :
    ∃ source, read (readStatus debug) stream = (some (.ok ()), { stream with source := source }) ∧
      source.pending = rest := by
  obtain ⟨source, hRead, hLeft⟩ := readStatus_okay debug h
  exact ⟨source, by simp only [read, hRead], hLeft⟩

theorem status_ok (h : read (readStatus debug) stream = (some (.ok ()), after)) :
    stream.source.pending = ascii "OKAY" ++ after.source.pending ∧ after = { stream with source := after.source } := by
  unfold read at h
  split at h
  · cases hEnding : stream.ending <;> rw [hEnding] at h <;> cases h
  · rename_i result source _ hRead
    cases h
    exact ⟨readStatus_ok hRead, rfl⟩

theorem status_accepts (hAccepts : stream.Accepts) (h : read (readStatus debug) stream = (some (.ok ()), after)) :
    after.Accepts := by
  rw [(status_ok h).2]
  exact hAccepts

end TcpStream

/-- The server has bound the connection to the service exactly if both its
answers are `OKAY`, and what stands behind them is left. -/
theorem bindTo_ok (hAccepts : stream.Accepts) (h : HostDevice.bindTo debug serial service stream = (some (.ok ()), after)) :
    Fits s!"host:transport:{serial}" ∧ Fits service ∧
    stream.source.pending = ascii "OKAY" ++ (ascii "OKAY" ++ after.source.pending) ∧
    after = { stream with
      source := after.source
      sent := stream.sent ++ [requestFrame s!"host:transport:{serial}", requestFrame service] } := by
  obtain ⟨_, first, hFirst, h⟩ := Async.bind_eq_ok h
  obtain ⟨_, second, hSecond, h⟩ := Async.bind_eq_ok h
  obtain ⟨_, third, hThird, h⟩ := Async.bind_eq_ok h
  obtain ⟨hTransport, rfl⟩ := TcpStream.request_ok hAccepts hFirst
  obtain ⟨hOkay, hSame⟩ := TcpStream.status_ok hSecond
  have hStill : second.Accepts := by
    rw [hSame]
    exact hAccepts
  obtain ⟨hService, rfl⟩ := TcpStream.request_ok hStill hThird
  have hLast : TcpStream.read (readStatus debug) { second with sent := second.sent ++ [requestFrame service] } =
      (some (.ok ()), after) := by
    unfold HostDevice.refusing at h
    split at h
    · cases h
    · exact h
  obtain ⟨hAgain, hEnd⟩ := TcpStream.status_ok hLast
  refine ⟨hTransport, hService, ?_, ?_⟩
  · rw [hOkay, hAgain]
  · rw [hEnd, hSame]
    simp

theorem bindTo_of_okay (debug : String → String) (hAccepts : stream.Accepts) (hTransport : Fits s!"host:transport:{serial}")
    (hService : Fits service) (h : stream.source.pending = ascii "OKAY" ++ (ascii "OKAY" ++ rest)) : ∃ after,
    HostDevice.bindTo debug serial service stream = (some (.ok ()), after) ∧ after.source.pending = rest := by
  obtain ⟨source, hFirst, hRest⟩ := @TcpStream.status_okay
    { stream with sent := stream.sent ++ [requestFrame s!"host:transport:{serial}"] } _ debug h
  obtain ⟨last, hSecond, hLeft⟩ := @TcpStream.status_okay
    { stream with
      source := source
      sent := stream.sent ++ [requestFrame s!"host:transport:{serial}"] ++ [requestFrame service] } _ debug hRest
  refine ⟨{ stream with
    source := last
    sent := stream.sent ++ [requestFrame s!"host:transport:{serial}"] ++ [requestFrame service] }, ?_, hLeft⟩
  rw [HostDevice.bindTo, Async.bind_ok (TcpStream.request_accepted hAccepts hTransport), Async.bind_ok hFirst,
    Async.bind_ok (TcpStream.request_accepted (by exact hAccepts) hService), HostDevice.refusing, hSecond]

/-- Reading a block fails because the bytes run out, or because of what stands for the length. -/
theorem readBlock_error {source left : Source UInt8} {e : Error} (h : readBlock debug source = (.error e, left)) :
    e = .disconnected ∨ ∃ message, e = .protocol message := by
  have hLen : ∀ {next}, readLen debug source = (.error e, next) → e = .disconnected ∨ ∃ message, e = .protocol message := by
    intro next hLen
    unfold readLen at hLen
    split at hLen
    · cases hLen
      exact Or.inl rfl
    · have hResult := congrArg Prod.fst hLen
      dsimp only at hResult
      split at hResult
      · cases hResult
        exact Or.inr ⟨_, rfl⟩
      · split at hResult <;> cases hResult
        exact Or.inr ⟨_, rfl⟩
  unfold readBlock at h
  split at h
  · rename_i hFailed
    cases h
    exact hLen hFailed
  · split at h <;> cases h
    exact Or.inl rfl

/-- A status is a failure with this message exactly if `FAIL` and a block with it are there. -/
theorem readStatus_failed_iff {message : Bytes} :
    (readStatus debug stream.source).1 = .error (.remoteFailure message) ↔
      ∃ body n, stream.source.pending = ascii "FAIL" ++ body ∧ (Announces body n ∨ Signed body n) ∧
        message = Utf8.lossy ((body.drop 4).take n) := by
  constructor
  · intro h
    rcases Nat.lt_or_ge stream.source.pending.length 4 with hShort | hEnough
    · obtain ⟨next, hRead⟩ := stream.source.readExact_short hShort
      rw [readStatus, hRead] at h
      cases h
    · obtain ⟨next, hRead, hNext⟩ := stream.source.readExact_enough hEnough
      simp only [readStatus, hRead] at h
      split_ifs at h with hOkay hFail
      · rcases hBlock : readBlock debug next with ⟨e | text, left⟩
        · rw [hBlock] at h
          cases h
          rcases readBlock_error hBlock with hSame | ⟨_, hSame⟩ <;> cases hSame
        · rw [hBlock] at h
          cases h
          obtain ⟨n, hLength, -⟩ := readBlock_ok hBlock
          obtain ⟨left', hSame, -⟩ := readBlock_of_length debug hLength
          rw [hBlock] at hSame
          cases hSame
          refine ⟨next.pending, n, ?_, hLength, rfl⟩
          rw [hNext, ← hFail, List.take_append_drop]
      · cases h
  · rintro ⟨body, n, hPending, hBody, rfl⟩
    obtain ⟨left, hStatus⟩ := readStatus_fail debug hPending hBody
    rw [hStatus]

/-- Where a status fails with a message the read of it does, and nowhere else. -/
theorem TcpStream.status_failed_iff {message : Bytes} :
    (TcpStream.read (readStatus debug) stream).1 = some (.error (.remoteFailure message)) ↔
      (readStatus debug stream.source).1 = .error (.remoteFailure message) := by
  unfold TcpStream.read
  split
  · rename_i hStatus
    rw [hStatus]
    cases stream.ending <;> simp [Ending.outcome]
  · rename_i hStatus
    rw [hStatus]
    simp

/-- No status is a refusal by itself. -/
theorem TcpStream.status_unrefused {name : Bytes} :
    (TcpStream.read (readStatus debug) stream).1 ≠ some (.error (.serviceRefused name)) := by
  intro h
  unfold TcpStream.read at h
  split at h
  · cases hEnding : stream.ending <;> rw [hEnding] at h <;> cases h
  · rename_i result source _ hStatus
    cases h
    unfold readStatus at hStatus
    split at hStatus
    · cases hStatus
    · split_ifs at hStatus
      · cases hStatus
      · rcases hBlock : readBlock debug _ with ⟨e | _, _⟩ <;> rw [hBlock] at hStatus <;> cases hStatus
        rcases readBlock_error hBlock with hSame | ⟨_, hSame⟩ <;> cases hSame
      · cases hStatus

theorem TcpStream.request_unfailed (h : stream.Accepts) {text : String} {e : Error} (hFits : Fits text) :
    (TcpStream.request text stream).1 ≠ some (.error e) := by
  rw [TcpStream.request_accepted h hFits]
  simp

theorem refusing_failed {op : Async Error TcpStream Unit} {e : Error} :
    (HostDevice.refusing service op stream).1 = some (.error e) ↔
      e = .serviceRefused (Utf8.encode service) ∧ (∃ message, (op stream).1 = some (.error (.remoteFailure message))) ∨
      (op stream).1 = some (.error e) ∧ ∀ message, e ≠ .remoteFailure message := by
  unfold HostDevice.refusing
  split
  · rename_i hOp
    rw [hOp]
    simp only [Option.some.injEq, Except.error.injEq]
    constructor
    · rintro rfl
      exact Or.inl ⟨rfl, _, rfl⟩
    · rintro (⟨rfl, -⟩ | ⟨rfl, hNot⟩)
      · rfl
      · exact absurd rfl (hNot _)
  · rename_i hOther
    rcases hOp : op stream with ⟨_ | failed | value, after⟩
    · simp
    · have hNot : ∀ message, failed ≠ .remoteFailure message := by
        rintro message rfl
        exact hOther _ _ hOp
      simp only [Option.some.injEq, Except.error.injEq]
      constructor
      · rintro rfl
        exact Or.inr ⟨rfl, hNot⟩
      · rintro (⟨-, message, hSame⟩ | ⟨hSame, -⟩)
        · exact absurd hSame (hNot message)
        · exact hSame
    · simp

theorem refusing_snd (op : Async Error TcpStream Unit) :
    (HostDevice.refusing service op stream).2 = (op stream).2 := by
  unfold HostDevice.refusing
  split
  · rename_i hOp
    rw [hOp]
  · rfl

/-- A device is asked for a service only on a connection that the server has
bound to it. Where the server fails to bind it the message of the server is
reported; where the device fails to start the service the service is refused. -/
theorem host_bind_exact (debug : String → String) (serial service : String) (stream : TcpStream) :
    (∃ asked, asked <+: [s!"host:transport:{serial}", service] ∧
      (HostDevice.bindTo debug serial service stream).2.sent = stream.sent ++ asked.map requestFrame ∧
      (asked.length = 2 → ascii "OKAY" <+: stream.source.pending)) ∧
    (stream.Accepts → Fits s!"host:transport:{serial}" → Fits service →
      (∀ message, (HostDevice.bindTo debug serial service stream).1 = some (.error (.remoteFailure message)) ↔
        ∃ body n, stream.source.pending = ascii "FAIL" ++ body ∧ (Announces body n ∨ Signed body n) ∧
          message = Utf8.lossy ((body.drop 4).take n)) ∧
      ∀ name, (HostDevice.bindTo debug serial service stream).1 = some (.error (.serviceRefused name)) ↔
        name = Utf8.encode service ∧ ∃ body n, stream.source.pending = ascii "OKAY" ++ (ascii "FAIL" ++ body) ∧
          (Announces body n ∨ Signed body n)) := by
  constructor
  · unfold HostDevice.bindTo
    generalize s!"host:transport:{serial}" = transport
    rcases Async.bind_cases (TcpStream.request transport) _ stream with hStop | ⟨_, first, hFirst, hGo⟩
    · rw [hStop]
      rcases TcpStream.request_cases transport stream with ⟨e, hNone⟩ | hSent
      · exact ⟨[], by simp, by simp [hNone], by simp⟩
      · exact ⟨[transport], by simp, by simp [hSent], by simp⟩
    · rw [hGo]
      obtain rfl := TcpStream.request_done hFirst
      rcases Async.bind_cases (TcpStream.read (readStatus debug)) _ _ with hStop | ⟨_, second, hSecond, hGo⟩
      · rw [hStop]
        exact ⟨[transport], by simp, TcpStream.read_sent _ _, by simp⟩
      · rw [hGo]
        obtain ⟨hOkay, hSame⟩ := TcpStream.status_ok hSecond
        have hSent : second.sent = stream.sent ++ [requestFrame transport] := by rw [hSame]
        have hBound : ascii "OKAY" <+: stream.source.pending := ⟨_, hOkay.symm⟩
        rcases Async.bind_cases (TcpStream.request service) _ second with hStop | ⟨_, third, hThird, hGo⟩
        · rw [hStop]
          rcases TcpStream.request_cases service second with ⟨e, hNone⟩ | hMore
          · exact ⟨[transport], by simp, by simp [hNone, hSent], by simp⟩
          · exact ⟨_, List.prefix_rfl, by simp [hMore, hSent], fun _ => hBound⟩
        · rw [hGo]
          obtain rfl := TcpStream.request_done hThird
          refine ⟨_, List.prefix_rfl, ?_, fun _ => hBound⟩
          rw [refusing_snd, TcpStream.read_sent, hSent]
          simp
  · intro hAccepts hTransport hService
    have hFirst := TcpStream.request_accepted hAccepts hTransport
    rw [HostDevice.bindTo, Async.bind_ok hFirst]
    constructor
    · intro message
      rw [Async.bind_failed_iff, TcpStream.status_failed_iff, readStatus_failed_iff]
      constructor
      · rintro (hFailed | ⟨_, next, hOkay, hLater⟩)
        · exact hFailed
        · have hStill : next.Accepts := TcpStream.status_accepts (by exact hAccepts) hOkay
          rcases Async.bind_failed_iff.mp hLater with hSend | ⟨_, last, -, hRefused⟩
          · exact absurd hSend (TcpStream.request_unfailed hStill hService)
          · rcases refusing_failed.mp hRefused with ⟨hSame, -⟩ | ⟨-, hNot⟩
            · cases hSame
            · exact absurd rfl (hNot message)
      · exact Or.inl
    · intro name
      rw [Async.bind_failed_iff]
      constructor
      · rintro (hFailed | ⟨_, next, hOkay, hLater⟩)
        · exact absurd hFailed TcpStream.status_unrefused
        · obtain ⟨hPending, -⟩ := TcpStream.status_ok hOkay
          have hStill : next.Accepts := TcpStream.status_accepts (by exact hAccepts) hOkay
          rcases Async.bind_failed_iff.mp hLater with hSend | ⟨_, last, hSend, hRefused⟩
          · exact absurd hSend (TcpStream.request_unfailed hStill hService)
          · obtain rfl := TcpStream.request_done hSend
            rcases refusing_failed.mp hRefused with ⟨hSame, message, hFailed⟩ | ⟨hFailed, -⟩
            · obtain ⟨body, n, hBody, hLength, -⟩ := readStatus_failed_iff.mp (TcpStream.status_failed_iff.mp hFailed)
              cases hSame
              refine ⟨rfl, body, n, ?_, hLength⟩
              rw [hPending, hBody]
            · exact absurd hFailed TcpStream.status_unrefused
      · rintro ⟨rfl, body, n, hPending, hLength⟩
        obtain ⟨source, hOkay, hRest⟩ := @TcpStream.status_okay
          { stream with sent := stream.sent ++ [requestFrame s!"host:transport:{serial}"] } _ debug hPending
        have hStatus : ∀ sent, (TcpStream.read (readStatus debug) { stream with source := source, sent := sent }).1 =
            some (.error (.remoteFailure (Utf8.lossy ((body.drop 4).take n)))) := fun sent =>
          TcpStream.status_failed_iff.mpr (readStatus_failed_iff.mpr ⟨body, n, hRest, hLength, rfl⟩)
        apply Or.inr
        refine ⟨(), _, hOkay, ?_⟩
        rw [Async.bind_ok (TcpStream.request_accepted (by exact hAccepts) hService)]
        exact refusing_failed.mpr (Or.inl ⟨rfl, _, hStatus _⟩)

/-- A connection on which the server says this, in these pieces. -/
def saying (fragments : List Bytes) (hSome : ∀ fragment ∈ fragments, fragment ≠ []) : TcpStream :=
  ⟨⟨fragments, hSome⟩, .finished, [], fun _ => none⟩

/-- The device does not know the service, and says so behind the `OKAY` of the server. -/
theorem host_bind_exact_refused :
    (HostDevice.bindTo id "R5CT1" "tcp:80" (saying [ascii "OKAYFA", ascii "IL0006clo", ascii "sed"] (by decide))).1 =
      some (.error (.serviceRefused (ascii "tcp:80"))) :=
  (((host_bind_exact id "R5CT1" "tcp:80" (saying [ascii "OKAYFA", ascii "IL0006clo", ascii "sed"] (by decide))).2
    (fun _ => rfl) (by decide) (by decide)).2 _).mpr
      ⟨by decide, ascii "0006closed", 6, by decide, Or.inl ⟨by decide, by decide⟩⟩

/-- The exchange on a new connection succeeds as it does on the stream that the connection gives. -/
theorem exchange_ok {α : Type} {client : HostClient} {op : Async Error TcpStream α} {value : α} {left : List Dial} :
    client.exchange op (.connected stream :: dials) = (some (.ok (value, after)), left) ↔
      op stream = (some (.ok value), after) ∧ left = dials := by
  have hConnect : client.connect (.connected stream :: dials) = (some (.ok stream), dials) := rfl
  rw [HostClient.exchange, Async.bind_ok hConnect, HostClient.onStream]
  rcases hOp : op stream with ⟨_ | _ | other, last⟩
  · simp
  · simp
  · simp only [Prod.mk.injEq, Option.some.injEq, Except.ok.injEq]
    tauto

/-- The channel that services see is that of the bound stream. -/
theorem openService_ok {channel : Channel} {left : List Dial} :
    (device.connection debug).openService service (.connected stream :: dials) = (some (.ok channel), left) ↔
      left = dials ∧ ∃ after, HostDevice.bindTo debug device.serial service stream = (some (.ok ()), after) ∧
        channel = (HostChannel.new after).channel := by
  constructor
  · intro h
    obtain ⟨opened, middle, hOpen, hPure⟩ := Async.bind_eq_ok h
    cases hPure
    obtain ⟨⟨_, after⟩, last, hExchange, hPure⟩ := Async.bind_eq_ok hOpen
    cases hPure
    obtain ⟨hBound, rfl⟩ := exchange_ok.mp hExchange
    exact ⟨rfl, after, hBound, rfl⟩
  · rintro ⟨rfl, after, hBound, rfl⟩
    have hExchange : device.client.exchange (HostDevice.bindTo debug device.serial service) (.connected stream :: left) =
        (some (.ok ((), after)), left) := exchange_ok.mpr ⟨hBound, rfl⟩
    have hOpened : device.openService debug service (.connected stream :: left) =
        (some (.ok (HostChannel.new after)), left) := Async.bind_ok hExchange
    exact Async.bind_ok hOpened

/-- A stream that has been opened carries what is behind the two answers, and ends as its connection does. -/
theorem openService_said (hAccepts : stream.Accepts) {channel : Channel} {left : List Dial}
    (h : (device.connection debug).openService service (.connected stream :: dials) = (some (.ok channel), left)) :
    left = dials ∧ Fits s!"host:transport:{device.serial}" ∧ Fits service ∧ ∃ after,
      channel = (HostChannel.new after).channel ∧ after.Accepts ∧ after.ending = stream.ending ∧
      stream.source.pending = ascii "OKAY" ++ (ascii "OKAY" ++ after.source.pending) := by
  obtain ⟨rfl, after, hBound, rfl⟩ := openService_ok.mp h
  obtain ⟨hTransport, hService, hOkay, hAfter⟩ := bindTo_ok hAccepts hBound
  refine ⟨rfl, hTransport, hService, after, rfl, ?_, by rw [hAfter], hOkay⟩
  rw [hAfter]
  exact hAccepts

/-- A stream is opened where the server gives both answers. -/
theorem openService_of_okay (debug : String → String) (dials : List Dial) (hAccepts : stream.Accepts)
    (hTransport : Fits s!"host:transport:{device.serial}") (hService : Fits service)
    (h : stream.source.pending = ascii "OKAY" ++ (ascii "OKAY" ++ rest)) : ∃ after,
    (device.connection debug).openService service (.connected stream :: dials) =
        (some (.ok (HostChannel.new after).channel), dials) ∧
      after.Accepts ∧ after.ending = stream.ending ∧ after.source.pending = rest := by
  obtain ⟨after, hBound, hRest⟩ := bindTo_of_okay debug hAccepts hTransport hService h
  obtain ⟨-, -, -, hAfter⟩ := bindTo_ok hAccepts hBound
  refine ⟨after, openService_ok.mpr ⟨rfl, after, hBound, rfl⟩, ?_, by rw [hAfter], hRest⟩
  rw [hAfter]
  exact hAccepts

theorem TcpStream.ends_of_ending (h : after.ending = stream.ending) : after.Ends ↔ stream.Ends := by
  rw [TcpStream.Ends, TcpStream.Ends, h]

/-- The channel of a bound stream ends behind the chunks of the stream. -/
theorem channel_ends {channel : HostChannel} {chunks : List Bytes} :
    ChannelReader.Ends channel.channel chunks ↔ channel.stream.Ends ∧ chunks = HostChannel.chunks channel.stream.source := by
  unfold ChannelReader.Ends TcpStream.Ends HostChannel.channel
  constructor
  · rintro ⟨hIncoming, hOver⟩
    have hErrors : channel.stream.ending.errors = [] := by
      rw [List.eq_nil_iff_forall_not_mem]
      intro e hMem
      have hThere : (.error e : Result Bytes) ∈ chunks.map .ok := by
        rw [← hIncoming]
        exact List.mem_append_right _ (List.mem_map_of_mem hMem)
      obtain ⟨chunk, -, hChunk⟩ := List.mem_map.mp hThere
      cases hChunk
    simp only [hErrors, List.map_nil, List.append_nil] at hIncoming
    exact ⟨⟨hErrors, hOver⟩, (List.map_injective_iff.mpr (fun a b => Except.ok.inj) hIncoming).symm⟩
  · rintro ⟨⟨hErrors, hOver⟩, rfl⟩
    simp [hErrors, hOver]

theorem drain_bound {channel : HostChannel} {out : Bytes} :
    drain channel.channel = some (.ok out) ↔ channel.stream.Ends ∧ out = channel.stream.source.pending := by
  rw [drain_ok_iff]
  constructor
  · rintro ⟨chunks, hEnds, rfl⟩
    obtain ⟨hStream, rfl⟩ := channel_ends.mp hEnds
    exact ⟨hStream, HostChannel.flatten_chunks _⟩
  · rintro ⟨hStream, rfl⟩
    exact ⟨_, channel_ends.mpr ⟨hStream, rfl⟩, (HostChannel.flatten_chunks _).symm⟩

theorem collect_bound {channel : HostChannel} {out : ShellOutput} :
    collectV2 channel.channel = some (.ok out) ↔
      channel.stream.Ends ∧ ∃ frames, Encodes frames channel.stream.source.pending ∧ out = collected frames := by
  constructor
  · intro h
    obtain ⟨chunks, frames, hEnds, hFrames, hOut⟩ := collectV2_ok h
    obtain ⟨hStream, rfl⟩ := channel_ends.mp hEnds
    rw [HostChannel.flatten_chunks] at hFrames
    exact ⟨hStream, frames, hFrames, hOut.trans (foldl_apply frames)⟩
  · rintro ⟨hStream, frames, hFrames, rfl⟩
    rw [← HostChannel.flatten_chunks] at hFrames
    have hFed := @Parser.feed_encodes _ Parser.default _ (Or.inl (by decide)) hFrames
    rw [collectV2_of_ends (channel_ends.mpr ⟨hStream, rfl⟩), hFed]
    rfl

/-- All that a service says is read, if the server has bound the connection to it. -/
theorem drained_said (hAccepts : stream.Accepts) (hTransport : Fits s!"host:transport:{device.serial}")
    (hService : Fits service) (hEnds : stream.Ends)
    (h : stream.source.pending = ascii "OKAY" ++ (ascii "OKAY" ++ rest)) :
    (device.connection debug).drained service (.connected stream :: dials) = (some (.ok rest), dials) := by
  obtain ⟨after, hOpen, -, hEnding, rfl⟩ := openService_of_okay debug dials hAccepts hTransport hService h
  rw [LiveConnection.drained, Async.bind_ok hOpen]
  exact Prod.ext (drain_bound.mpr ⟨(TcpStream.ends_of_ending hEnding).mpr hEnds, rfl⟩) rfl

/-- The service that a command is run through, given the features of the device. -/
def serviceOf (features : List String) (command : String) : String :=
  if features.any (· = LiveConnection.SHELL_V2_FEATURE) then s!"shell,v2:{command}" else s!"shell:{command}"

/-- The output that the service says by these bytes. -/
def Says (features : List String) (said : Bytes) (out : ShellOutput) : Prop :=
  if features.any (· = LiveConnection.SHELL_V2_FEATURE) then ∃ frames, Encodes frames said ∧ out = collected frames
  else out = ⟨said, [], none⟩

theorem feedStdin_none {channel : Channel} (h : ∀ n, channel.sendError n = none) : ∃ frame,
    LiveConnection.feedStdin [] channel = (some (.ok ()), { channel with sent := channel.sent ++ [frame] }) := by
  refine ⟨FrameId.closeStdin.toByte :: toLeBytes 0, ?_⟩
  have hSend : ∀ frame, Channel.send frame channel =
      (some (.ok ()), { channel with sent := channel.sent ++ [frame] }) := by
    intro frame
    rw [Channel.send, h channel.sent.length]
  exact hSend _

/-- Collecting over a bound stream, behind the end of the stdin. -/
theorem collect_within {after : TcpStream} (hAccepts : after.Accepts) {out : ShellOutput} {dials left : List Dial} :
    (HostChannel.new after).channel.within
        (LiveConnection.feedStdin [] >>= fun _ => Channel.collected) dials =
      (some (.ok out), left) ↔
    left = dials ∧ after.Ends ∧ ∃ frames, Encodes frames after.source.pending ∧ out = collected frames := by
  obtain ⟨frame, hFed⟩ := @feedStdin_none (HostChannel.new after).channel hAccepts
  have hSame : { (HostChannel.new after).channel with sent := (HostChannel.new after).channel.sent ++ [frame] } =
      (HostChannel.new { after with sent := after.sent ++ [frame] }).channel := rfl
  have hCollect := @collect_bound (HostChannel.new { after with sent := after.sent ++ [frame] }) out
  rw [Channel.within, Async.bind_ok hFed, hSame, Channel.collected, Prod.mk.injEq, hCollect]
  constructor
  · rintro ⟨h, rfl⟩
    exact ⟨rfl, h⟩
  · rintro ⟨rfl, h⟩
    exact ⟨h, rfl⟩

/-- The part of running a command that follows the check of the command. -/
def commandOn (debug : String → String) (device : HostDevice) (features : List String) (command : String) :
    Async Error (List Dial) ShellOutput :=
  (device.connection debug).openService (serviceOf features command) >>= fun channel =>
    if features.any (· = LiveConnection.SHELL_V2_FEATURE) then
      channel.within (LiveConnection.feedStdin [] >>= fun _ => Channel.collected)
    else channel.within Channel.drained >>= fun stdout => pure ⟨stdout, [], none⟩

theorem shell_eq (features : List String) (command : String) :
    (device.connection debug).shell features command =
      (Async.lift (checkCommand (Utf8.encode command)) >>= fun _ => commandOn debug device features command) := by
  unfold LiveConnection.shell commandOn serviceOf
  split_ifs
  · rfl
  · rw [LiveConnection.shellV1, Async.bind_assoc]
    congr 1
    funext _
    exact Async.bind_assoc _ _ _

/-- On this connection the server has run the command on the device, which has given the output. -/
structure Ran (device : HostDevice) (features : List String) (command : String) (stream : TcpStream)
    (out : ShellOutput) : Prop where
  checked : checkCommand (Utf8.encode command) = .ok ()
  transport : Fits s!"host:transport:{device.serial}"
  service : Fits (serviceOf features command)
  ends : stream.Ends
  output : ∃ said, stream.source.pending = ascii "OKAY" ++ (ascii "OKAY" ++ said) ∧ Says features said out

/-- A command that is run through an adb server gives an output exactly if the
server has bound the connection to the device and to the service, and the stream
comes to an end without an error: then it gives the output that the service has
said behind the two answers, all of it and nothing else, in whatever pieces the
network delivers it. -/
theorem shell_ran (hAccepts : stream.Accepts) {features : List String} {command : String} {out : ShellOutput}
    {left : List Dial} :
    (device.connection debug).shell features command (.connected stream :: dials) = (some (.ok out), left) ↔
      left = dials ∧ Ran device features command stream out := by
  rw [shell_eq]
  constructor
  · intro h
    obtain ⟨_, _, hCheck, h⟩ := Async.bind_eq_ok h
    obtain ⟨hValid, rfl⟩ := Prod.mk.inj hCheck
    obtain ⟨channel, _, hOpen, h⟩ := Async.bind_eq_ok h
    obtain ⟨rfl, hTransport, hService, after, rfl, hStill, hEnding, hOkay⟩ := openService_said hAccepts hOpen
    have hEnds := TcpStream.ends_of_ending hEnding
    split_ifs at h with hV2
    · obtain ⟨hLeft, hOver, hFrames⟩ := (collect_within hStill).mp h
      exact ⟨hLeft, Option.some.inj hValid, hTransport, hService, hEnds.mp hOver, _, hOkay, by rwa [Says, if_pos hV2]⟩
    · obtain ⟨stdout, _, hDrain, hPure⟩ := Async.bind_eq_ok h
      cases hPure
      obtain ⟨hDrained, hLeft⟩ := Prod.mk.inj hDrain
      obtain ⟨hOver, rfl⟩ := drain_bound.mp hDrained
      exact ⟨hLeft.symm, Option.some.inj hValid, hTransport, hService, hEnds.mp hOver, _, hOkay,
        by simp [Says, hV2, HostChannel.new]⟩
  · rintro ⟨rfl, hValid, hTransport, hService, hEnds, said, hOkay, hSays⟩
    obtain ⟨after, hOpen, hStill, hEnding, rfl⟩ := openService_of_okay debug left hAccepts hTransport hService hOkay
    have hOver := (TcpStream.ends_of_ending hEnding).mpr hEnds
    rw [hValid, Async.lift_bind, commandOn, Async.bind_ok hOpen]
    unfold Says at hSays
    split_ifs at hSays ⊢ with hV2
    · exact (collect_within hStill).mpr ⟨rfl, hOver, hSays⟩
    · obtain rfl := hSays
      have hDrain : (HostChannel.new after).channel.within Channel.drained left =
          (some (.ok after.source.pending), left) :=
        Prod.ext (drain_bound.mpr ⟨hOver, rfl⟩) rfl
      exact Async.bind_ok hDrain

end Rsadb.Host
