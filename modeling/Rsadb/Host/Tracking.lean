import Rsadb.Host.Services

/-! Watching the device list of an adb server: one snapshot for every change. -/
namespace Rsadb.Host

variable {debug : String → String} {stream : TcpStream}

namespace HostClient

/-- Begin to watch. -/
def watch (debug : String → String) : Async Error TcpStream Unit := do
  TcpStream.request "host:track-devices"
  TcpStream.read (readStatus debug)

/-- `host:track-devices`: the connection on which the snapshots come. -/
def trackDevices (debug : String → String) (client : HostClient) : Async Error (List Dial) TcpStream := do
  let (_, stream) ← client.exchange (watch debug)
  pure stream

/-- One poll of the stream of snapshots, with the state that goes on behind an
item. There is no result while the stream waits. -/
def nextSnapshot (debug : String → String) :
    Option TcpStream → Option (Option (Result (List DeviceEntry))) × Option TcpStream
  | none => (some none, none)
  | some stream =>
      match TcpStream.read (readBlock debug) stream with
      | (some (.ok text), stream) => (some (some (.ok (parseDevices text))), some stream)
      | (some (.error .disconnected), _) => (some none, none)
      | (some (.error e), _) => (some (some (.error e)), none)
      | (none, stream) => (none, some stream)

/-- The items that at most `polls` polls give, and whether the stream has ended then. -/
def snapshots (debug : String → String) : Nat → Option TcpStream → List (Result (List DeviceEntry)) × Bool
  | 0, _ => ([], false)
  | polls + 1, state =>
      match nextSnapshot debug state with
      | (some (some item), state) =>
          let (items, ended) := snapshots debug polls state
          (item :: items, ended)
      | (some none, _) => ([], true)
      | (none, _) => ([], false)

end HostClient

/-- The content begins with blocks that have these texts, and `rest` is behind them. -/
inductive Blocks : Bytes → List Bytes → Bytes → Prop where
  | done (rest : Bytes) : Blocks rest [] rest
  | block {bytes rest : Bytes} {texts : List Bytes} {n : Nat} (hLength : Announces bytes n ∨ Signed bytes n)
      (hBehind : Blocks (bytes.drop (4 + n)) texts rest) :
      Blocks bytes (Utf8.lossy ((bytes.drop 4).take n) :: texts) rest

/-- A block is not there as a whole: the rest is shorter than a length, or than
the length in front of it says. -/
def Torn (rest : Bytes) : Prop :=
  rest.length < 4 ∨ ∃ n, fromStrRadix (rest.take 4) = some n ∧ rest.length < 4 + n

/-- What stands where a length should stand is no number. -/
def Malformed (rest : Bytes) : Prop := 4 ≤ rest.length ∧ fromStrRadix (rest.take 4) = none

/-- What becomes of the stream of snapshots where no block is left. -/
def Ending.lastItem : Ending → List (Result (List DeviceEntry)) × Bool
  | finished => ([], true)
  | reset message | failed message _ => ([.error (.io message)], true)
  | waiting => ([], false)

/-- A number is ASCII. -/
theorem fromUTF8_number {hex : Bytes} {n : Nat} (h : fromStrRadix hex = some n) :
    String.fromUTF8? ⟨hex.toArray⟩ ≠ none := by
  have hDigits : ∀ {digits : Bytes}, Radix.value 16 hexDigit digits = some n → ∀ byte ∈ digits, byte < 0x80 :=
    fun hValue byte hMem => lt_of_hexDigit (Radix.read_isSome hValue byte hMem)
  have hAscii : ∀ byte ∈ hex, byte < 0x80 := by
    unfold fromStrRadix at h
    split at h
    · cases h
    · cases h
    · cases h
    · exact List.forall_mem_cons.mpr ⟨by decide, hDigits h⟩
    · exact hDigits h
  rw [← Utf8.encode_ascii hAscii, Utf8.fromUTF8_encode]
  exact Option.some_ne_none _

theorem readBlock_torn {source : Source UInt8} (debug : String → String) (h : Torn source.pending) :
    ∃ left, readBlock debug source = (.error .disconnected, left) := by
  rcases Nat.lt_or_ge source.pending.length 4 with hShort | hEnough
  · obtain ⟨left, hRead⟩ := source.readExact_short hShort
    exact ⟨left, by simp only [readBlock, readLen, hRead]⟩
  · rcases h with hShort | ⟨n, hNumber, hLess⟩
    · omega
    · obtain ⟨middle, hRead, hMiddle⟩ := source.readExact_enough hEnough
      obtain ⟨header, hHeader⟩ := Option.ne_none_iff_exists'.mp (fromUTF8_number hNumber)
      have hLen : readLen debug source = (.ok n, middle) := by simp only [readLen, hRead, hHeader, hNumber]
      obtain ⟨left, hNone⟩ := middle.readExact_short (show middle.pending.length < n by
        rw [hMiddle, List.length_drop]
        omega)
      exact ⟨left, by simp only [readBlock, hLen, hNone]⟩

theorem readBlock_malformed {source : Source UInt8} (debug : String → String) (h : Malformed source.pending) :
    ∃ message left, readBlock debug source = (.error (.protocol message), left) := by
  obtain ⟨middle, hRead, -⟩ := source.readExact_enough h.1
  have hLen : ∃ message, readLen debug source = (.error (.protocol message), middle) := by
    simp only [readLen, hRead, h.2]
    split <;> exact ⟨_, rfl⟩
  obtain ⟨message, hLen⟩ := hLen
  exact ⟨message, middle, by simp only [readBlock, hLen]⟩

/-- Every content is blocks, and a rest that has no block in front. -/
theorem exists_blocks (bytes : Bytes) : ∃ texts rest, Blocks bytes texts rest ∧ (Torn rest ∨ Malformed rest) := by
  induction hLength : bytes.length using Nat.strongRecOn generalizing bytes with
  | ind length ih =>
      subst hLength
      rcases Nat.lt_or_ge bytes.length 4 with hShort | hEnough
      · exact ⟨[], bytes, .done bytes, Or.inl (Or.inl hShort)⟩
      · cases hNumber : fromStrRadix (bytes.take 4) with
        | none => exact ⟨[], bytes, .done bytes, Or.inr ⟨hEnough, hNumber⟩⟩
        | some n =>
            rcases Nat.lt_or_ge bytes.length (4 + n) with hLess | hWhole
            · exact ⟨[], bytes, .done bytes, Or.inl (Or.inr ⟨n, hNumber, hLess⟩)⟩
            · have hShorter : (bytes.drop (4 + n)).length < bytes.length := by
                rw [List.length_drop]
                omega
              obtain ⟨texts, rest, hBlocks, hRest⟩ := ih _ hShorter _ rfl
              exact ⟨_, rest, .block ((fromStrRadix_take hWhole).mp hNumber) hBlocks, hRest⟩

namespace HostClient

/-- A block that is there makes a snapshot. -/
theorem nextSnapshot_block {n : Nat} (h : Announces stream.source.pending n ∨ Signed stream.source.pending n) :
    ∃ source, nextSnapshot debug (some stream) =
        (some (some (.ok (parseDevices (Utf8.lossy ((stream.source.pending.drop 4).take n))))),
          some { stream with source := source }) ∧
      source.pending = stream.source.pending.drop (4 + n) := by
  obtain ⟨left, hBlock, hLeft⟩ := readBlock_of_length debug h
  exact ⟨left, by simp only [nextSnapshot, TcpStream.read, hBlock], hLeft⟩

theorem snapshots_over (polls : Nat) : snapshots debug (polls + 1) none = ([], true) := rfl

theorem snapshots_torn (h : Torn stream.source.pending) (polls : Nat) :
    snapshots debug (polls + 2) (some stream) = stream.ending.lastItem := by
  obtain ⟨left, hBlock⟩ := readBlock_torn debug h
  rw [snapshots, nextSnapshot, TcpStream.read, hBlock]
  cases hEnding : stream.ending <;> simp [Ending.outcome, Ending.lastItem, snapshots_over]

theorem snapshots_malformed (debug : String → String) (h : Malformed stream.source.pending) (polls : Nat) :
    ∃ message, snapshots debug (polls + 2) (some stream) = ([.error (.protocol message)], true) := by
  obtain ⟨message, left, hBlock⟩ := readBlock_malformed debug h
  exact ⟨message, by simp [snapshots, nextSnapshot, TcpStream.read, hBlock]⟩

/-- The snapshots are those of the blocks, and then what the rest gives. -/
theorem snapshots_blocks {texts : List Bytes} {rest : Bytes} (h : Blocks stream.source.pending texts rest) (polls : Nat) :
    ∃ source, source.pending = rest ∧ snapshots debug (texts.length + polls) (some stream) =
      (texts.map (fun text => .ok (parseDevices text)) ++ (snapshots debug polls (some { stream with source := source })).1,
        (snapshots debug polls (some { stream with source := source })).2) := by
  generalize hPending : stream.source.pending = bytes at h
  induction h generalizing stream with
  | done rest => exact ⟨stream.source, hPending, by simp⟩
  | @block bytes rest texts n hLength _ ih =>
      rw [← hPending] at hLength
      obtain ⟨source, hNext, hSource⟩ := @nextSnapshot_block debug stream n hLength
      rw [hPending] at hNext hSource
      obtain ⟨last, hLast, hItems⟩ := @ih { stream with source := source } hSource
      refine ⟨last, hLast, ?_⟩
      rw [List.length_cons, Nat.add_right_comm, snapshots, hNext]
      simp only [hItems, List.map_cons, List.cons_append]

end HostClient

/-- Watching begins behind the `OKAY` of the server, on the connection that it came on. -/
theorem trackDevices_ok {client : HostClient} {after : TcpStream} {dials left : List Dial}
    (h : client.trackDevices debug (.connected stream :: dials) = (some (.ok after), left)) :
    left = dials ∧ after.ending = stream.ending ∧ stream.source.pending = ascii "OKAY" ++ after.source.pending := by
  obtain ⟨⟨_, watched⟩, last, hExchange, hPure⟩ := Async.bind_eq_ok h
  cases hPure
  obtain ⟨hWatch, rfl⟩ := exchange_ok.mp hExchange
  obtain ⟨_, first, hFirst, hSecond⟩ := Async.bind_eq_ok hWatch
  obtain rfl := TcpStream.request_done hFirst
  obtain ⟨hOkay, hSame⟩ := TcpStream.status_ok hSecond
  exact ⟨rfl, by rw [hSame], hOkay⟩

theorem trackDevices_of_okay (debug : String → String) (client : HostClient) (dials : List Dial)
    (hAccepts : stream.Accepts) (h : ascii "OKAY" <+: stream.source.pending) :
    ∃ after, client.trackDevices debug (.connected stream :: dials) = (some (.ok after), dials) := by
  obtain ⟨body, hBody⟩ := h
  obtain ⟨source, hStatus, -⟩ := @TcpStream.status_okay
    { stream with sent := stream.sent ++ [requestFrame "host:track-devices"] } _ debug hBody.symm
  have hWatch : HostClient.watch debug stream = (some (.ok ()),
      { stream with sent := stream.sent ++ [requestFrame "host:track-devices"], source := source }) := by
    rw [HostClient.watch, Async.bind_ok (TcpStream.request_accepted hAccepts (by decide)), hStatus]
  have hExchange := (@exchange_ok _ _ dials _ client _ _ dials).mpr ⟨hWatch, rfl⟩
  exact ⟨_, Async.bind_ok hExchange⟩

/-- Watching the devices of a server begins exactly where the server says `OKAY`.
Whatever the server writes behind that, there is one snapshot for every block that
has come as a whole, in their order and however the network cuts them, and then
only what the end of the content is: nothing where the server is gone, one error
where the connection fails or no length stands where one should. Every content has
such blocks and such an end. -/
theorem host_tracks_exact (debug : String → String) (client : HostClient) (stream : TcpStream) (dials : List Dial) :
    (∀ after left, client.trackDevices debug (.connected stream :: dials) = (some (.ok after), left) →
      left = dials ∧ after.ending = stream.ending ∧ stream.source.pending = ascii "OKAY" ++ after.source.pending) ∧
    (stream.Accepts → ascii "OKAY" <+: stream.source.pending →
      ∃ after, client.trackDevices debug (.connected stream :: dials) = (some (.ok after), dials)) ∧
    ∀ after : TcpStream,
      (∃ texts rest, Blocks after.source.pending texts rest ∧ (Torn rest ∨ Malformed rest)) ∧
      ∀ texts rest, Blocks after.source.pending texts rest → ∀ polls,
        (Torn rest → HostClient.snapshots debug (texts.length + (polls + 2)) (some after) =
          (texts.map (fun text => .ok (parseDevices text)) ++ after.ending.lastItem.1, after.ending.lastItem.2)) ∧
        (Malformed rest → ∃ message, HostClient.snapshots debug (texts.length + (polls + 2)) (some after) =
          (texts.map (fun text => .ok (parseDevices text)) ++ [.error (.protocol message)], true)) := by
  refine ⟨fun _ _ => trackDevices_ok, trackDevices_of_okay debug client dials, fun after => ⟨exists_blocks _, ?_⟩⟩
  intro texts rest hBlocks polls
  obtain ⟨source, rfl, hItems⟩ := @HostClient.snapshots_blocks debug after _ _ hBlocks (polls + 2)
  constructor
  · intro hTorn
    rw [hItems, @HostClient.snapshots_torn debug { after with source := source } hTorn]
  · intro hMalformed
    obtain ⟨message, hLast⟩ := @HostClient.snapshots_malformed { after with source := source } debug hMalformed polls
    exact ⟨message, by rw [hItems, hLast]⟩

/-- Two lists come, and then half a length. -/
theorem host_tracks_exact_two : ∃ after,
    HostClient.localServer.trackDevices id [.connected (saying [ascii "OK", ascii "AY000dR5CT1\tdev",
      ascii "ice\n0000", ascii "00"] (by decide))] = (some (.ok after), []) ∧
    HostClient.snapshots id 4 (some after) = ([.ok [⟨"R5CT1", "device", []⟩], .ok []], true) := by
  obtain ⟨hBegins, hWatched, hTracks⟩ := host_tracks_exact id HostClient.localServer
    (saying [ascii "OK", ascii "AY000dR5CT1\tdev", ascii "ice\n0000", ascii "00"] (by decide)) []
  obtain ⟨after, hAfter⟩ := hWatched (fun _ => rfl) (by decide)
  obtain ⟨-, hEnding, hBody⟩ := hBegins _ _ hAfter
  have hPending : after.source.pending = ascii "000dR5CT1\tdevice\n000000" := by
    apply List.append_cancel_left
    rw [← hBody]
    decide
  have hBlocks : Blocks after.source.pending [ascii "R5CT1\tdevice\n", []] (ascii "00") := by
    rw [hPending]
    have hLast : Blocks (ascii "000000") [[]] (ascii "00") :=
      @Blocks.block _ _ _ 0 (Or.inl ⟨by decide, by decide⟩) (.done _)
    exact @Blocks.block _ _ _ 13 (Or.inl ⟨by decide, by decide⟩) hLast
  refine ⟨after, hAfter, ?_⟩
  have hItems := ((hTracks after).2 _ _ hBlocks 0).1 (Or.inl (by decide))
  rw [hEnding] at hItems
  exact hItems.trans (by decide)

/-- The text that shows some devices, a line for each. -/
def listing (rows : List (DeviceEntry × String)) : String := String.join (rows.map fun row => row.2 ++ "\n")

theorem encode_listing (rows : List (DeviceEntry × String)) :
    Utf8.encode (listing rows) = rows.flatMap fun row => Utf8.encode row.2 ++ [10] := by
  have hFeed : Utf8.encode "\n" = [10] := rfl
  induction rows with
  | nil => rfl
  | cons row rows ih =>
      rw [listing, List.map_cons, String.join_cons, Utf8.encode_append, Utf8.encode_append, hFeed, ← listing, ih,
        List.flatMap_cons]

/-- A text behind its length is a block with the text. -/
theorem announces_requestFrame {text : String} (h : Fits text) (rest : Bytes) :
    Announces (requestFrame text ++ rest) (Utf8.encode text).length ∧
      (requestFrame text ++ rest).drop 4 = Utf8.encode text ++ rest := by
  obtain ⟨frame, hSent, hAnnounces, hBehind⟩ := sendRequest_announces [] rest h
  have hFrame : frame = requestFrame text := by
    rw [sendRequest, if_neg (Nat.not_lt.mpr h)] at hSent
    exact (Prod.mk.inj hSent).2.symm
  rw [← hFrame]
  exact ⟨hAnnounces, hBehind⟩

theorem blocks_listings {updates : List (List (DeviceEntry × String))} (h : ∀ rows ∈ updates, Fits (listing rows))
    (rest : Bytes) : Blocks ((updates.flatMap fun rows => requestFrame (listing rows)) ++ rest)
      (updates.map fun rows => Utf8.encode (listing rows)) rest := by
  induction updates with
  | nil => exact .done rest
  | cons rows updates ih =>
      obtain ⟨hHere, hOthers⟩ := List.forall_mem_cons.mp h
      obtain ⟨hAnnounces, hBehind⟩ := announces_requestFrame hHere
        ((updates.flatMap fun rows => requestFrame (listing rows)) ++ rest)
      have hBlock := Blocks.block (Or.inl hAnnounces) (by
        rw [← List.drop_drop, hBehind, List.drop_left]
        exact ih hOthers)
      rw [hBehind, List.take_left, Utf8.lossy_encode] at hBlock
      rw [List.flatMap_cons, List.append_assoc]
      exact hBlock

/-- A request is answered by the block behind `OKAY`. -/
theorem query_okay {client : HostClient} {request text : String} {rest : Bytes} {dials : List Dial}
    (hAccepts : stream.Accepts) (hRequest : Fits request) (hText : Fits text)
    (h : stream.source.pending = ascii "OKAY" ++ (requestFrame text ++ rest)) :
    client.query debug request (.connected stream :: dials) = (some (.ok (Utf8.encode text)), dials) := by
  obtain ⟨source, hStatus, hBehind⟩ := @TcpStream.status_okay
    { stream with sent := stream.sent ++ [requestFrame request] } _ debug h
  obtain ⟨hAnnounces, hDrop⟩ := announces_requestFrame hText rest
  rw [← hBehind] at hAnnounces hDrop
  obtain ⟨left, hBlock, -⟩ := readBlock_of_length debug (Or.inl hAnnounces)
  rw [hDrop, List.take_left, Utf8.lossy_encode] at hBlock
  have hAsk : HostClient.ask debug request stream = (some (.ok (Utf8.encode text)),
      { stream with sent := stream.sent ++ [requestFrame request], source := left }) := by
    rw [HostClient.ask, Async.bind_ok (TcpStream.request_accepted hAccepts hRequest), Async.bind_ok hStatus,
      TcpStream.read, hBlock]
  have hExchange := (@exchange_ok _ _ dials _ client _ _ dials).mpr ⟨hAsk, rfl⟩
  exact Async.bind_ok hExchange

theorem only_ok {client : HostClient} {devices : List DeviceEntry} {device : HostDevice} :
    client.only devices = .ok device ↔ ∃ entry, devices.filter (fun entry => entry.state = "device") = [entry] ∧
      device = client.device entry.serial := by
  unfold HostClient.only
  split
  · rename_i entry hOnly
    constructor
    · intro h
      exact ⟨entry, hOnly, (Except.ok.inj h).symm⟩
    · rintro ⟨other, hOther, rfl⟩
      obtain rfl := List.singleton_inj.mp (hOnly.symm.trans hOther)
      rfl
  · rename_i hNone
    constructor
    · intro h
      cases h
    · rintro ⟨entry, hOnly, -⟩
      rw [hNone] at hOnly
      cases hOnly
  · rename_i hMany _
    constructor
    · intro h
      cases h
    · rintro ⟨entry, hOnly, -⟩
      exact absurd hOnly (hMany entry)

/-- The devices that the server shows are the devices that the client lists, that
it takes the only one of that is online from, and that every snapshot gives while
it watches them, whatever the blanks between the words of the lines are. -/
theorem host_devices_shown (debug : String → String) (client : HostClient) {updates : List (List (DeviceEntry × String))}
    (hShown : ∀ rows ∈ updates, Fits (listing rows) ∧ ∀ row ∈ rows, row.1.Shown row.2) :
    (∀ rows ∈ updates, ∀ stream : TcpStream, stream.Accepts → ∀ rest dials,
      stream.source.pending = ascii "OKAY" ++ (requestFrame (listing rows) ++ rest) →
        client.devices debug (.connected stream :: dials) = (some (.ok (rows.map Prod.fst)), dials) ∧
        ∀ device, (client.onlyDevice debug (.connected stream :: dials)).1 = some (.ok device) ↔
          ∃ entry, (rows.map Prod.fst).filter (fun entry => entry.state = "device") = [entry] ∧
            device = client.device entry.serial) ∧
    ∀ stream : TcpStream, ∀ rest, Torn rest →
      stream.source.pending = (updates.flatMap fun rows => requestFrame (listing rows)) ++ rest → ∀ polls,
        HostClient.snapshots debug (updates.length + (polls + 2)) (some stream) =
          (updates.map (fun rows => .ok (rows.map Prod.fst)) ++ stream.ending.lastItem.1, stream.ending.lastItem.2) := by
  have hParse : ∀ rows ∈ updates, parseDevices (Utf8.encode (listing rows)) = rows.map Prod.fst := by
    intro rows hMem
    rw [encode_listing, parseDevices_shown (hShown rows hMem).2]
  constructor
  · intro rows hMem stream hAccepts rest dials hPending
    have hQuery := @query_okay debug stream client "host:devices-l" _ _ dials hAccepts (by decide) (hShown rows hMem).1 hPending
    have hDevices : client.devices debug (.connected stream :: dials) = (some (.ok (rows.map Prod.fst)), dials) := by
      rw [HostClient.devices, Async.bind_ok hQuery, hParse rows hMem]
      rfl
    refine ⟨hDevices, fun device => ?_⟩
    rw [HostClient.onlyDevice, Async.bind_ok hDevices, Async.lift_apply, Option.some.injEq, only_ok]
  · intro stream rest hTorn hPending polls
    have hBlocks := blocks_listings (fun rows hMem => (hShown rows hMem).1) rest
    rw [← hPending] at hBlocks
    obtain ⟨source, rfl, hItems⟩ := @HostClient.snapshots_blocks debug stream _ _ hBlocks (polls + 2)
    rw [List.length_map] at hItems
    rw [hItems, @HostClient.snapshots_torn debug { stream with source := source } hTorn, List.map_map]
    congr 2
    exact List.map_congr_left fun rows hMem => congrArg Except.ok (hParse rows hMem)

/-- A device that another one joins, after a while in which there is none. -/
theorem host_devices_shown_three : HostClient.snapshots id 5 (some
      (saying [ascii "000dR5CT1\tdev", ascii "ice\n00", ascii "00", ascii "0019R5CT1\tdevice\nemu  device\n"] (by decide))) =
    ([.ok [⟨"R5CT1", "device", []⟩], .ok [], .ok [⟨"R5CT1", "device", []⟩, ⟨"emu", "device", []⟩]], true) := by
  have hFirst : DeviceEntry.Shown ⟨"R5CT1", "device", []⟩ "R5CT1\tdevice" :=
    ⟨Blanks.fields_eq_iff.mp (by decide), by simp, by decide⟩
  have hSecond : DeviceEntry.Shown ⟨"emu", "device", []⟩ "emu  device" :=
    ⟨Blanks.fields_eq_iff.mp (by decide), by simp, by decide⟩
  exact (@host_devices_shown id HostClient.localServer
    [[(⟨"R5CT1", "device", []⟩, "R5CT1\tdevice")], [],
      [(⟨"R5CT1", "device", []⟩, "R5CT1\tdevice"), (⟨"emu", "device", []⟩, "emu  device")]]
    (by
      simp only [List.forall_mem_cons]
      exact ⟨⟨by decide, hFirst, by simp⟩, ⟨by decide, by simp⟩, ⟨by decide, hFirst, hSecond, by simp⟩, by simp⟩)).2
    _ [] (Or.inl (by decide)) (by decide) 0

end Rsadb.Host
