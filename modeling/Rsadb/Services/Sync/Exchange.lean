import Rsadb.Services.Sync.Client

/-! Sequences of requests on one `sync:` stream. The device answers requests in
order; each well-formed reply is consumed exactly by the request it answers,
unless that request is a pull whose stream was dropped early. -/
namespace Rsadb.Sync

open ChannelReader

/-- One use of the client. A pull is polled `polls` times and then dropped. -/
inductive Call where
  | stat (path : Bytes)
  | list (path : Bytes)
  | pull (path : Bytes) (polls : Nat)
  | push (path : Bytes) (mode mtime : UInt32) (source : List SourceRead)

/-- What a call gives to its caller. -/
inductive Outcome where
  | stat (stat : Stat)
  | listing (entries : List Entry)
  | pulled (items : List (Result Bytes))
  | pushed
  deriving DecidableEq

namespace Call

def exec (features : SyncFeatures) : Call → Async Error ChannelReader Outcome
  | .stat path => do
      let found ← SyncClient.stat features path
      pure (.stat found)
  | .list path => do
      let entries ← SyncClient.list features path
      pure (.listing entries)
  | .pull path polls => do
      let items ← SyncClient.pull features path polls
      pure (.pulled items)
  | .push path mode mtime source => do
      SyncClient.push features path mode mtime source
      pure .pushed

/-- What a call sends before it reads anything. -/
def request (features : SyncFeatures) : Call → Async Error ChannelReader Unit
  | .stat path => do
      let request ← Async.lift (Sync.request (if features.statV2 then id.STA2 else id.STAT) path)
      send request
  | .list path => do
      let request ← Async.lift (Sync.request (if features.lsV2 then id.LIS2 else id.LIST) path)
      send request
  | .pull path _ => SyncClient.startPull features path
  | .push path mode mtime source => do
      SyncClient.startPush features path mode
      SyncClient.pushChunks source
      send (word id.DONE mtime)

/-- What a call reads once its request is sent. -/
def answer (features : SyncFeatures) : Call → Async Error ChannelReader Outcome
  | .stat _ =>
      if features.statV2 then do
        let b ← readExact STAT_V2_LEN
        Async.lift (expectId b id.STA2)
        pure (.stat (statV2 b))
      else do
        let b ← readExact STAT_V1_LEN
        Async.lift (expectId b id.STAT)
        pure (.stat (statV1 b))
  | .list _ => do
      let entries ← SyncClient.readEntries features
      pure (.listing entries)
  | .pull _ polls => do
      let items ← SyncClient.pollItems polls
      pure (.pulled items)
  | .push .. => do
      SyncClient.readStatus
      pure .pushed

/-- Every call first sends its whole request and then reads its reply. -/
theorem exec_eq (features : SyncFeatures) (call : Call) :
    call.exec features = call.request features >>= fun _ => call.answer features := by
  cases call with
  | stat path =>
      simp only [exec, request, answer, SyncClient.stat]
      split <;> simp only [Async.bind_assoc] <;> rfl
  | list path =>
      simp only [exec, request, answer, SyncClient.list, Async.bind_assoc]
  | pull path polls =>
      simp only [exec, request, answer, SyncClient.pull, Async.bind_assoc]
  | push path mode mtime source =>
      simp only [exec, request, answer, SyncClient.push, Async.bind_assoc]

end Call

/-- A reply of the device, with the data that it carries. A request that never
reached the device is answered by `nothing`. -/
inductive Reply where
  | nothing
  | stat (body : Bytes)
  | listing (entries : List (Bytes × Bytes)) (padding : Bytes)
  | file (chunks : List Bytes) (mtime : UInt32)
  | brokenFile (chunks : List Bytes) (message : Bytes)
  | okay (value : UInt32)
  | failed (message : Bytes)

def dataFrame (chunk : Bytes) : Bytes := word id.DATA (UInt32.ofNat chunk.length) ++ chunk

def failFrame (message : Bytes) : Bytes := word id.FAIL (UInt32.ofNat message.length) ++ message

/-- The header of a directory entry: its id, its fields and the length of its name. -/
def dentHeader (features : SyncFeatures) (dent : Bytes × Bytes) : Bytes :=
  (SyncClient.dent features).1 ++ dent.1 ++ toLeBytes (UInt32.ofNat dent.2.length)

def dentFrame (features : SyncFeatures) (dent : Bytes × Bytes) : Bytes :=
  dentHeader features dent ++ dent.2

namespace Reply

def encode (features : SyncFeatures) : Reply → Bytes
  | nothing => []
  | stat body => (if features.statV2 then id.STA2 else id.STAT) ++ body
  | listing entries padding => entries.flatMap (dentFrame features) ++ (id.DONE ++ padding)
  | file chunks mtime => chunks.flatMap dataFrame ++ word id.DONE mtime
  | brokenFile chunks message => chunks.flatMap dataFrame ++ failFrame message
  | okay value => word id.OKAY value
  | failed message => failFrame message

/-- The well-formed replies to a call that reached the device. -/
def Answers (features : SyncFeatures) : Call → Reply → Prop
  | .stat _, stat body =>
      body.length + 4 = if features.statV2 then STAT_V2_LEN else STAT_V1_LEN
  | .list _, listing entries padding =>
      padding.length + 4 = (SyncClient.dent features).2 ∧
      ∀ dent ∈ entries, dent.1.length + 8 = (SyncClient.dent features).2 ∧ dent.2.length < 2 ^ 32
  | .pull _ _, file chunks _ => ∀ chunk ∈ chunks, chunk.length ≤ DATA_MAX
  | .pull _ _, brokenFile chunks message =>
      (∀ chunk ∈ chunks, chunk.length ≤ DATA_MAX) ∧ message.length < 2 ^ 32
  | .push .., okay _ => True
  | .push .., failed message => message.length < 2 ^ 32
  | _, _ => False

/-- The file content in a reply, chunk by chunk. -/
def chunks : Reply → List Bytes
  | file chunks _ => chunks
  | brokenFile chunks _ => chunks
  | _ => []

/-- The failure that a reply reports behind its content. -/
def failure : Reply → List Error
  | brokenFile _ message => [.remoteFailure (Utf8.lossy message)]
  | failed message => [.remoteFailure (Utf8.lossy message)]
  | _ => []

/-- What a listed entry is parsed to. -/
def entryOf (features : SyncFeatures) (dent : Bytes × Bytes) : Entry :=
  entry (SyncClient.dentStat features (dentHeader features dent)).1 dent.2

/-- What a call makes of the reply, if it reads all of it. -/
def outcome (features : SyncFeatures) : Call → Reply → Result Outcome
  | .stat _, reply =>
      .ok (.stat ((if features.statV2 then statV2 else statV1) (reply.encode features)))
  | .list _, listing entries _ => .ok (.listing (entries.map (entryOf features)))
  | .pull _ _, reply => .ok (.pulled (reply.chunks.map .ok ++ reply.failure.map .error))
  | .push .., failed message => .error (.remoteFailure (Utf8.lossy message))
  | _, _ => .ok .pushed

end Reply

/-- The exchange reads its reply to the end: all of a pull's content and what
stands behind it. -/
def PollsToEnd : Call × Reply → Prop
  | (.pull _ polls, .file chunks _) => chunks.length < polls
  | (.pull _ polls, .brokenFile chunks _) => chunks.length < polls
  | _ => True

variable {tail : List (Result Bytes)}

private theorem readId_consumes {reply : Bytes} (hReply : reply.length = 4) :
    Async.Consumes (HoldsBefore tail) SyncClient.readId reply (.ok reply) :=
  readExact_consumes reply hReply

private theorem length_toNat {bytes : Bytes} (h : bytes.length < 2 ^ 32) :
    (UInt32.ofNat bytes.length).toNat = bytes.length := UInt32.toNat_ofNat_of_lt' h

private theorem fail_consumes {α : Type} {message : Bytes} (h : message.length < 2 ^ 32) :
    Async.Consumes (HoldsBefore tail) (SyncClient.fail : Async Error ChannelReader α)
      (toLeBytes (UInt32.ofNat message.length) ++ message)
      (.error (.remoteFailure (Utf8.lossy message))) := by
  refine (readU32_consumes (UInt32.ofNat message.length)).bind ?_
  exact (readExact_consumes message (length_toNat h).symm).bind_nil (Async.Consumes.fail _)

/-- A data frame is one chunk of a pull. -/
theorem nextData_data {chunk : Bytes} (h : chunk.length ≤ DATA_MAX) :
    Async.Consumes (HoldsBefore tail) SyncClient.nextData (dataFrame chunk) (.ok (some chunk)) := by
  have hLength := length_toNat (Nat.lt_of_le_of_lt h (by decide))
  have hSmall : ¬DATA_MAX < (UInt32.ofNat chunk.length).toNat := by omega
  have hChunk := (@readExact_consumes tail chunk _ hLength.symm).map some
  rw [dataFrame, word, List.append_assoc]
  refine (readId_consumes (by decide)).bind ?_
  simp only [↓reduceIte]
  refine (readU32_consumes _).bind ?_
  simpa only [hSmall, ↓reduceIte] using hChunk

/-- No result comes of a failure. -/
private theorem fail_ne_ok {α : Type} {value : α} {reader next : ChannelReader}
    (h : SyncClient.fail reader = (some (.ok value), next)) : False := by
  obtain ⟨_, _, -, hMessage⟩ := Async.bind_eq_ok h
  obtain ⟨_, _, -, hFail⟩ := Async.bind_eq_ok hMessage
  cases hFail

/-- A chunk that was read stood in a data frame. -/
theorem nextData_eq_some {reader next : ChannelReader} {chunk : Bytes}
    (h : SyncClient.nextData reader = (some (.ok (some chunk)), next)) : chunk.length ≤ DATA_MAX ∧
    ∀ rest, next.HoldsBefore tail rest → reader.HoldsBefore tail (dataFrame chunk ++ rest) := by
  obtain ⟨reply, middle, hId, hRest⟩ := Async.bind_eq_ok h
  obtain ⟨-, hIdTook⟩ := @readExact_eq_ok tail _ _ _ _ hId
  split at hRest
  · rename_i hData
    obtain ⟨len, behind, hLen, hBody⟩ := Async.bind_eq_ok hRest
    split_ifs at hBody with hMax
    · cases hBody
    · obtain ⟨bytes, last, hRead, hPure⟩ := Async.bind_eq_ok hBody
      obtain ⟨hLength, hTook⟩ := @readExact_eq_ok tail _ _ _ _ hRead
      cases hPure
      refine ⟨hLength ▸ Nat.le_of_not_lt hMax, ?_⟩
      intro rest hHolds
      have hWhole := hIdTook _ (readU32_eq_ok hLen _ (hTook rest hHolds))
      rw [hData] at hWhole
      rwa [dataFrame, hLength, UInt32.ofNat_toNat, word, List.append_assoc, List.append_assoc]
  · split at hRest
    · obtain ⟨_, _, -, hPure⟩ := Async.bind_eq_ok hRest
      cases hPure
    · split at hRest
      · exact (fail_ne_ok hRest).elim
      · cases hRest

/-- The closing word ends a pull. -/
theorem nextData_done (mtime : UInt32) :
    Async.Consumes (HoldsBefore tail) SyncClient.nextData (word id.DONE mtime) (.ok none) := by
  have hWord := (@readU32_consumes tail mtime).map fun _ => (none : Option Bytes)
  refine (readId_consumes (by decide)).bind ?_
  simpa only [show id.DONE ≠ id.DATA by decide, ↓reduceIte] using hWord

/-- The end of the content was read where the closing word stood. -/
theorem nextData_eq_none {reader next : ChannelReader}
    (h : SyncClient.nextData reader = (some (.ok none), next)) : ∃ mtime, ∀ rest,
      next.HoldsBefore tail rest → reader.HoldsBefore tail (word id.DONE mtime ++ rest) := by
  obtain ⟨reply, middle, hId, hRest⟩ := Async.bind_eq_ok h
  obtain ⟨-, hIdTook⟩ := @readExact_eq_ok tail _ _ _ _ hId
  split at hRest
  · obtain ⟨len, behind, hLen, hBody⟩ := Async.bind_eq_ok hRest
    split_ifs at hBody
    · cases hBody
    · obtain ⟨_, _, -, hPure⟩ := Async.bind_eq_ok hBody
      cases hPure
  · split at hRest
    · rename_i hDone
      obtain ⟨mtime, last, hWord, hPure⟩ := Async.bind_eq_ok hRest
      cases hPure
      refine ⟨mtime, ?_⟩
      intro rest hHolds
      rw [← hDone, word, List.append_assoc]
      exact hIdTook _ (readU32_eq_ok hWord rest hHolds)
    · split at hRest
      · exact (fail_ne_ok hRest).elim
      · cases hRest

theorem nextData_fail {message : Bytes} (h : message.length < 2 ^ 32) :
    Async.Consumes (HoldsBefore tail) SyncClient.nextData (failFrame message)
      (.error (.remoteFailure (Utf8.lossy message))) := by
  rw [failFrame, word, List.append_assoc]
  refine (readId_consumes (by decide)).bind ?_
  simpa only [show id.FAIL ≠ id.DATA by decide, show id.FAIL ≠ id.DONE by decide, ↓reduceIte]
    using fail_consumes h

/-- Polls on a run of data frames yield the frames' contents in order. -/
theorem pullItems_frames (chunks : List Bytes) (polls : Nat) (reader : ChannelReader) {rest : Bytes}
    (hFit : ∀ chunk ∈ chunks, chunk.length ≤ DATA_MAX)
    (h : reader.HoldsBefore tail (chunks.flatMap dataFrame ++ rest)) :
    (polls ≤ chunks.length →
      (SyncClient.pullItems polls false reader).1 = (chunks.take polls).map .ok) ∧
    ∀ more, polls = chunks.length + more → ∃ next : ChannelReader, next.HoldsBefore tail rest ∧
      SyncClient.pullItems polls false reader =
        (chunks.map .ok ++ (SyncClient.pullItems more false next).1,
          (SyncClient.pullItems more false next).2) := by
  induction chunks generalizing polls reader with
  | nil =>
      refine ⟨?_, ?_⟩
      · intro hPolls
        have hZero : polls = 0 := by simpa using hPolls
        subst polls
        rfl
      · intro more hMore
        have hSame : polls = more := by simpa using hMore
        subst polls
        exact ⟨reader, by simpa using h, by simp⟩
  | cons chunk chunks ih =>
      rw [List.flatMap_cons, List.append_assoc] at h
      obtain ⟨next, hNext, hRest⟩ := nextData_data (hFit chunk List.mem_cons_self) reader _ h
      cases polls with
      | zero => exact ⟨fun _ => rfl, fun more hMore => by simp at hMore; omega⟩
      | succ polls =>
          obtain ⟨ihFew, ihAll⟩ := ih polls next
            (fun other hOther => hFit other (List.mem_cons_of_mem _ hOther)) hRest
          refine ⟨?_, ?_⟩
          · intro hPolls
            simp only [SyncClient.pullItems, hNext, ihFew (by simpa using hPolls),
              List.take_succ_cons, List.map_cons]
          · intro more hMore
            obtain ⟨last, hLast, hItems⟩ := ihAll more (by simp at hMore; omega)
            exact ⟨last, hLast, by simp only [SyncClient.pullItems, hNext, hItems, List.map_cons,
              List.cons_append]⟩

/-- A pull that is polled to its end yields its whole reply and consumes it. -/
theorem pollItems_consumes {polls : Nat} {path : Bytes} {reply : Reply}
    {features : SyncFeatures} (hAnswers : reply.Answers features (.pull path polls))
    (hEnd : PollsToEnd (.pull path polls, reply)) :
    Async.Consumes (HoldsBefore tail) (SyncClient.pollItems polls) (reply.encode features)
      (.ok (reply.chunks.map .ok ++ reply.failure.map .error)) := by
  intro reader rest h
  cases reply with
  | file chunks mtime =>
      rw [Reply.encode, List.append_assoc] at h
      obtain ⟨more, rfl⟩ := Nat.exists_eq_add_of_lt hEnd
      obtain ⟨next, hNext, hItems⟩ :=
        (pullItems_frames chunks _ reader hAnswers h).2 (more + 1) (Nat.add_assoc _ _ _)
      obtain ⟨last, hDone, hLast⟩ := nextData_done mtime next rest hNext
      have hPull : SyncClient.pullItems (more + 1) false next = ([], last) := by
        simp only [SyncClient.pullItems, hDone]
      refine ⟨last, ?_, hLast⟩
      rw [SyncClient.pollItems, hItems, hPull]
      rfl
  | brokenFile chunks message =>
      rw [Reply.encode, List.append_assoc] at h
      obtain ⟨more, rfl⟩ := Nat.exists_eq_add_of_lt hEnd
      obtain ⟨next, hNext, hItems⟩ :=
        (pullItems_frames chunks _ reader hAnswers.1 h).2 (more + 1) (Nat.add_assoc _ _ _)
      obtain ⟨last, hFail, hLast⟩ := nextData_fail hAnswers.2 next rest hNext
      have hStopped : SyncClient.pullItems more true last = ([], last) := by
        cases more <;> rfl
      have hPull : SyncClient.pullItems (more + 1) false next =
          ([.error (.remoteFailure (Utf8.lossy message))], last) := by
        simp only [SyncClient.pullItems, hFail, hStopped]
      refine ⟨last, ?_, hLast⟩
      rw [SyncClient.pollItems, hItems, hPull]
      rfl
  | _ => exact absurd hAnswers (by simp [Reply.Answers])

/-- The header of an entry has its fixed length, and says how long the name is. -/
private theorem dentHeader_spec {features : SyncFeatures} {dent : Bytes × Bytes}
    (hLength : dent.1.length + 8 = (SyncClient.dent features).2) (hName : dent.2.length < 2 ^ 32) :
    (dentHeader features dent).length = (SyncClient.dent features).2 ∧
    (dentHeader features dent).take 4 = (SyncClient.dent features).1 ∧
    (SyncClient.dentStat features (dentHeader features dent)).2 = dent.2.length := by
  have hId : (SyncClient.dent features).1.length = 4 := by
    unfold SyncClient.dent
    split <;> rfl
  refine ⟨?_, ?_, ?_⟩
  · simp only [dentHeader, List.length_append, toLeBytes_length]
    omega
  · rw [dentHeader, List.append_assoc, List.take_left' hId]
  · have hWord : u32At (dentHeader features dent) ((SyncClient.dent features).2 - 4) =
        UInt32.ofNat dent.2.length := by
      have hOffset : ((SyncClient.dent features).1 ++ dent.1).length =
          (SyncClient.dent features).2 - 4 := by
        rw [List.length_append]
        omega
      have hRead := word_append ((SyncClient.dent features).1 ++ dent.1) []
        (UInt32.ofNat dent.2.length) hOffset
      rwa [List.append_nil] at hRead
    have hValue := length_toNat hName
    unfold SyncClient.dent at hWord
    unfold SyncClient.dentStat
    split_ifs at hWord ⊢ with hV2
    · exact (congrArg UInt32.toNat hWord).trans hValue
    · exact (congrArg UInt32.toNat hWord).trans hValue

section

variable {features : SyncFeatures} {reader next : ChannelReader} {entries : List Entry} {b : Bytes}

/-- What the header that the loop reads decides, by its id. -/
theorem listLoop_done (hRead : readExact (SyncClient.dent features).2 reader = (some (.ok b), next))
    (hDone : b.take 4 = id.DONE) :
    SyncClient.listLoop features entries reader = (some (.ok entries), next) := by
  unfold SyncClient.listLoop
  split
  all_goals simp_all

theorem listLoop_fail (hRead : readExact (SyncClient.dent features).2 reader = (some (.ok b), next))
    (hFail : b.take 4 = id.FAIL) : SyncClient.listLoop features entries reader =
      (some (.error (.remoteFailure (Text.trimEnd 0 (Utf8.lossy (b.drop 8))))), next) := by
  have hOther : id.FAIL ≠ id.DONE := by decide
  unfold SyncClient.listLoop
  split
  all_goals simp_all

theorem listLoop_entry {last : ChannelReader} {name : Bytes}
    (hRead : readExact (SyncClient.dent features).2 reader = (some (.ok b), next))
    (hDent : b.take 4 = (SyncClient.dent features).1)
    (hName : readExact (SyncClient.dentStat features b).2 next = (some (.ok name), last)) :
    SyncClient.listLoop features entries reader =
      SyncClient.listLoop features (entries ++ [entry (SyncClient.dentStat features b).1 name]) last := by
  have hNotDone : (SyncClient.dent features).1 ≠ id.DONE := by
    unfold SyncClient.dent
    split <;> decide
  have hNotFail : (SyncClient.dent features).1 ≠ id.FAIL := by
    unfold SyncClient.dent
    split <;> decide
  have hExpect : expectId b (SyncClient.dent features).1 = .ok () := by
    rw [expectId, hDent, if_pos rfl]
  conv => lhs; unfold SyncClient.listLoop
  split
  · simp_all
  · simp_all
  · rename_i found left hFound
    rw [hRead] at hFound
    cases hFound
    rw [hDent, if_neg hNotDone, if_neg hNotFail, hExpect]
    simp only
    split
    · simp_all
    · simp_all
    · rename_i name' left' hLeft
      rw [hName] at hLeft
      cases hLeft
      rfl

end

/-- A listing is read entry by entry. -/
theorem listLoop_dents {features : SyncFeatures} (dents : List (Bytes × Bytes))
    (hDents : ∀ dent ∈ dents,
      dent.1.length + 8 = (SyncClient.dent features).2 ∧ dent.2.length < 2 ^ 32)
    (entries : List Entry) (reader : ChannelReader) {rest : Bytes}
    (h : reader.HoldsBefore tail (dents.flatMap (dentFrame features) ++ rest)) :
    ∃ next : ChannelReader, next.HoldsBefore tail rest ∧ SyncClient.listLoop features entries reader =
      SyncClient.listLoop features (entries ++ dents.map (Reply.entryOf features)) next := by
  induction dents generalizing entries reader with
  | nil => exact ⟨reader, h, by rw [List.map_nil, List.append_nil]⟩
  | cons dent dents ih =>
      obtain ⟨hLength, hName⟩ := hDents dent List.mem_cons_self
      obtain ⟨hHeader, hTake, hNamelen⟩ := dentHeader_spec hLength hName
      rw [List.flatMap_cons, dentFrame, List.append_assoc, List.append_assoc] at h
      obtain ⟨middle, hRead, hMiddle⟩ := readExact_consumes _ hHeader reader _ h
      obtain ⟨last, hReadName, hLast⟩ := readExact_consumes _ hNamelen.symm middle _ hMiddle
      obtain ⟨next, hNext, hLoop⟩ := ih (fun other hOther =>
        hDents other (List.mem_cons_of_mem _ hOther))
        (entries ++ [Reply.entryOf features dent]) last hLast
      refine ⟨next, hNext, ?_⟩
      rw [List.append_assoc] at hLoop
      rw [listLoop_entry hRead hTake hReadName]
      exact hLoop

/-- A listing ends with the padded word behind its last entry. -/
theorem listLoop_frames {features : SyncFeatures} (dents : List (Bytes × Bytes)) {padding : Bytes}
    (hPadding : padding.length + 4 = (SyncClient.dent features).2)
    (hDents : ∀ dent ∈ dents,
      dent.1.length + 8 = (SyncClient.dent features).2 ∧ dent.2.length < 2 ^ 32)
    (entries : List Entry) (reader : ChannelReader) {rest : Bytes}
    (h : reader.HoldsBefore tail (dents.flatMap (dentFrame features) ++ (id.DONE ++ padding ++ rest))) :
    ∃ next : ChannelReader, next.HoldsBefore tail rest ∧ SyncClient.listLoop features entries reader =
      (some (.ok (entries ++ dents.map (Reply.entryOf features))), next) := by
  obtain ⟨middle, hMiddle, hLoop⟩ := listLoop_dents dents hDents entries reader h
  have hLast : (id.DONE ++ padding).length = (SyncClient.dent features).2 := by
    rw [List.length_append, show id.DONE.length = 4 by decide]
    omega
  obtain ⟨next, hRead, hNext⟩ := readExact_consumes (id.DONE ++ padding) hLast middle rest hMiddle
  refine ⟨next, hNext, ?_⟩
  rw [hLoop, listLoop_done hRead (List.take_left' (by decide))]

/-- A stat block is read whole and checked for its id. -/
theorem statBlock_consumes {α : Type} {want body : Bytes} {len : Nat} (hWant : want.length = 4)
    (hLength : body.length + 4 = len) (parse : Bytes → α) :
    Async.Consumes (HoldsBefore tail) (do
        let b ← readExact len
        Async.lift (expectId b want)
        pure (parse b)) (want ++ body) (.ok (parse (want ++ body))) := by
  have hWhole : (want ++ body).length = len := by
    rw [List.length_append]
    omega
  have hRead := @readExact_consumes tail (want ++ body) _ hWhole
  have hExpect : expectId (want ++ body) want = .ok () := by
    rw [expectId, List.take_left' hWant, if_pos rfl]
  refine hRead.bind_nil ?_
  rw [hExpect]
  exact (Async.Consumes.lift _).bind_nil (Async.Consumes.pure _)

theorem readStatus_okay (value : UInt32) :
    Async.Consumes (HoldsBefore tail) SyncClient.readStatus (word id.OKAY value) (.ok ()) := by
  refine (readId_consumes (by decide)).bind ?_
  simpa only [↓reduceIte] using (readU32_consumes value).map fun _ => ()

theorem readStatus_fail {message : Bytes} (h : message.length < 2 ^ 32) :
    Async.Consumes (HoldsBefore tail) SyncClient.readStatus (failFrame message)
      (.error (.remoteFailure (Utf8.lossy message))) := by
  rw [failFrame, word, List.append_assoc]
  refine (readId_consumes (by decide)).bind ?_
  simpa only [show id.FAIL ≠ id.OKAY by decide, ↓reduceIte] using fail_consumes h

/-- A call that is answered by a well-formed reply consumes that reply. -/
theorem answer_consumes {features : SyncFeatures} {call : Call} {reply : Reply}
    (hAnswers : reply.Answers features call) (hEnd : PollsToEnd (call, reply)) :
    Async.Consumes (HoldsBefore tail) (call.answer features) (reply.encode features)
      (reply.outcome features call) := by
  cases call with
  | stat path =>
      cases reply with
      | stat body =>
          simp only [Reply.Answers] at hAnswers
          simp only [Call.answer, Reply.encode, Reply.outcome]
          split_ifs at hAnswers ⊢ with hV2
          · exact statBlock_consumes (by decide) hAnswers fun b => Outcome.stat (statV2 b)
          · exact statBlock_consumes (by decide) hAnswers fun b => Outcome.stat (statV1 b)
      | _ => exact absurd hAnswers (by simp [Reply.Answers])
  | list path =>
      cases reply with
      | listing dents padding =>
          intro reader rest h
          obtain ⟨hPadding, hDents⟩ := hAnswers
          rw [Reply.encode, List.append_assoc] at h
          obtain ⟨next, hNext, hLoop⟩ := listLoop_frames dents hPadding hDents [] reader h
          exact ⟨next, Async.bind_ok hLoop, hNext⟩
      | _ => exact absurd hAnswers (by simp [Reply.Answers])
  | pull path polls =>
      have hItems := (@pollItems_consumes tail _ _ _ _ hAnswers hEnd).map Outcome.pulled
      simpa only [Call.answer, Reply.outcome] using hItems
  | push path mode mtime source =>
      cases reply with
      | okay value => exact (readStatus_okay value).map fun _ => Outcome.pushed
      | failed message => exact (readStatus_fail hAnswers).bind_error
      | _ => exact absurd hAnswers (by simp [Reply.Answers])

end Rsadb.Sync
