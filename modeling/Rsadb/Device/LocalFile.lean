import Rsadb.Device.Files

/-! Pulling a file into the local file system. The local file is created, or
truncated, once the request is sent and before anything of the reply is read. -/
namespace Rsadb

/-- The local file system: the content of the files, which paths it refuses to
create and why, and which writes fail, after how many bytes and why. No file
grows to 2^64 bytes. -/
structure Disk where
  files : Bytes → Option Bytes
  refuse : Bytes → Option String
  fault : Bytes → Bytes → Option (Nat × String)
  fits : ∀ content chunk, fault content chunk = none → content.length + chunk.length < 2 ^ 64

/-- An open file, with the failure of a write that no operation has reported yet. -/
structure LocalFile where
  content : Bytes
  failed : Option Error

namespace Disk

def store (disk : Disk) (path content : Bytes) : Disk :=
  { disk with files := fun other => if other = path then some content else disk.files other }

@[simp] theorem store_files (disk : Disk) (path content : Bytes) :
    (disk.store path content).files path = some content := if_pos rfl

theorem store_other (disk : Disk) {path other : Bytes} (content : Bytes) (h : other ≠ path) :
    (disk.store path content).files other = disk.files other := if_neg h

/-- A disk that has room for every file that it may hold. -/
def roomy (files : Bytes → Option Bytes) : Disk where
  files := files
  refuse := fun _ => none
  fault := fun content chunk =>
    if content.length + chunk.length < 2 ^ 64 then none else some (0, "File too large")
  fits := by
    intro content chunk hFault
    split_ifs at hFault with hFits
    exact hFits

/-- Write a chunk behind the content. A write that fails is reported by the next
one, or by the flush; a chunk without bytes is not written at all. -/
def writeAll (disk : Disk) (chunk : Bytes) : Async Error LocalFile Unit := fun file =>
  if chunk = [] then (some (.ok ()), file)
  else
    match file.failed with
    | some e => (some (.error e), { file with failed := none })
    | none =>
        match disk.fault file.content chunk with
        | none => (some (.ok ()), { file with content := file.content ++ chunk })
        | some (written, why) => (some (.ok ()), ⟨file.content ++ chunk.take written, some (.io why)⟩)

end Disk

/-- Wait for the last write, and report its failure. -/
def LocalFile.flush : Async Error LocalFile Unit := fun file =>
  match file.failed with
  | some e => (some (.error e), { file with failed := none })
  | none => (some (.ok ()), file)

namespace Device

open Sync ChannelReader

/-- One round of `pull_to_file`: write the chunk and count it, or give up with the error. -/
def save (disk : Disk) (total : UInt64) : Result Bytes → Async Error (PullStream × LocalFile) UInt64
  | .ok chunk => do
      Async.onSnd (disk.writeAll chunk)
      pure (total + UInt64.ofNat chunk.length)
  | .error e => Async.fail e

/-- The loop of `pull_to_file`, and the flush behind it. Every round takes at least one byte. -/
def saveAll (disk : Disk) (fuel : Nat) : Async Error (PullStream × LocalFile) UInt64 := do
  let total ← Async.whileSome (Async.onFst next) (save disk) fuel 0
  Async.onSnd LocalFile.flush
  pure total

/-- Pull a file to `localPath`, creating or truncating it. Returns the byte count. -/
def pullToFile (conn : Connection) (remote localPath : Bytes) (disk : Disk) :
    Option (Result UInt64) × Disk :=
  match pull conn remote with
  | none => (none, disk)
  | some (.error e) => (some (.error e), disk)
  | some (.ok stream) =>
      match disk.refuse localPath with
      | some why => (some (.error (.io why)), disk)
      | none =>
          let run := saveAll disk (stream.1.available + 1) (stream, ⟨[], none⟩)
          (run.1, disk.store localPath run.2.2.content)

/-- No other file is touched. -/
theorem pullToFile_other (conn : Connection) (remote : Bytes) {localPath other : Bytes} (disk : Disk)
    (h : other ≠ localPath) :
    (pullToFile conn remote localPath disk).2.files other = disk.files other := by
  unfold pullToFile
  split
  · rfl
  · rfl
  · split
    · rfl
    · exact disk.store_other _ h

/-- The reply begins with a failure, or it stops, closed or broken off, without a
data frame or the closing word in front. -/
def GivesNothing (client : ChannelReader) : Prop :=
  (∃ message rest tail, message.length < 2 ^ 32 ∧
    client.HoldsBefore tail (failFrame message ++ rest)) ∨
  ∃ bytes e, Stops e client bytes ∧
    (∀ chunk rest, chunk.length ≤ DATA_MAX → bytes ≠ dataFrame chunk ++ rest) ∧
    ∀ mtime rest, bytes ≠ Sync.word id.DONE mtime ++ rest

variable {conn : Connection} {disk : Disk} {client : ChannelReader} {remote localPath : Bytes}

/-- Of such a reply the first read makes an error. -/
theorem GivesNothing.nextData (h : GivesNothing client) :
    ∃ e, (SyncClient.nextData client).1 = some (.error e) := by
  obtain ⟨message, rest, tail, hFits, hHolds⟩ | ⟨bytes, e, hStops, hNoData, hNoDone⟩ := h
  · obtain ⟨next, hRun, -⟩ := nextData_fail hFits client rest hHolds
    exact ⟨_, congrArg Prod.fst hRun⟩
  · obtain ⟨chunks, ending, hFit, hValid, rfl⟩ := exists_ending bytes
    cases chunks with
    | cons chunk chunks =>
        rw [List.flatMap_cons, List.append_assoc] at hNoData
        exact absurd rfl (hNoData chunk _ (hFit chunk List.mem_cons_self))
    | nil =>
        rw [List.flatMap_nil, List.nil_append] at hStops hNoDone
        obtain ⟨tail, hHolds⟩ := hStops.holds
        cases ending with
        | done mtime rest => exact absurd rfl (hNoDone mtime rest)
        | truncated bytes => exact ⟨e, nextData_truncated hValid hStops⟩
        | _ => exact ⟨_, Ending.nextData_whole hValid (fun _ hSame => nomatch hSame) hHolds⟩

/-- The first read fails: the loop ends, and nothing was written. -/
theorem saveAll_error {e : Error} (h : (SyncClient.nextData client).1 = some (.error e)) (fuel : Nat)
    (file : LocalFile) :
    ∃ stream, saveAll disk (fuel + 1) ((client, false), file) = (some (.error e), (stream, file)) := by
  rcases hRun : SyncClient.nextData client with ⟨result, last⟩
  rw [hRun] at h
  obtain rfl : result = some (.error e) := h
  have hNext : Async.onFst next ((client, false), file) =
      (some (.ok (some (.error e))), ((last, true), file)) := by
    simp [Async.onFst, next, hRun]
  refine ⟨(last, true), ?_⟩
  rw [saveAll, Async.whileSome, Async.bind_assoc, Async.bind_ok hNext]
  rfl

/-- What is kept from round to round: the chunks that were received stood in data
frames, they are counted, and unless a write has failed the file holds them. -/
structure Saved (disk : Disk) (client : ChannelReader) (chunks : List Bytes) (total : UInt64)
    (state : PullStream × LocalFile) : Prop where
  running : state.1.2 = false
  frames : ∀ tail rest, state.1.1.HoldsBefore tail rest →
    client.HoldsBefore tail (chunks.flatMap dataFrame ++ rest)
  counted : total = UInt64.ofNat chunks.flatten.length
  written : state.2.failed = none →
    state.2.content = chunks.flatten ∧ chunks.flatten.length < 2 ^ 64

theorem saved_start (disk : Disk) (client : ChannelReader) :
    Saved disk client [] 0 ((client, false), ⟨[], none⟩) where
  running := rfl
  frames := fun _ _ hHolds => hHolds
  counted := rfl
  written := fun _ => ⟨rfl, by decide⟩

/-- A write that is accepted appends the chunk, unless a failure of it or of an
earlier one is still to be reported. -/
theorem writeAll_ok {chunk : Bytes} {file next : LocalFile}
    (h : disk.writeAll chunk file = (some (.ok ()), next)) (hNext : next.failed = none) :
    file.failed = none ∧ next.content = file.content ++ chunk ∧
      (chunk = [] ∨ file.content.length + chunk.length < 2 ^ 64) := by
  unfold Disk.writeAll at h
  split at h
  · rename_i hEmpty
    cases h
    exact ⟨hNext, by rw [hEmpty, List.append_nil], Or.inl hEmpty⟩
  · split at h
    · cases h
    · rename_i hFailed
      split at h
      · rename_i hFault
        cases h
        exact ⟨hFailed, rfl, Or.inr (disk.fits _ _ hFault)⟩
      · cases h
        cases hNext

/-- Every round keeps it. -/
theorem Saved.round {chunks : List Bytes} {total total' : UInt64} {item : Result Bytes}
    {state middle state' : PullStream × LocalFile} (h : Saved disk client chunks total state)
    (hNext : Async.onFst next state = (some (.ok (some item)), middle))
    (hSave : save disk total item middle = (some (.ok total'), state')) :
    ∃ chunk, Saved disk client (chunks ++ [chunk]) total' state' := by
  obtain ⟨⟨reader, done⟩, file⟩ := state
  obtain ⟨hRunning, hFrames, hCounted, hWritten⟩ := h
  obtain rfl : done = false := hRunning
  cases item with
  | error e => cases hSave
  | ok chunk =>
      rcases hData : SyncClient.nextData reader with ⟨_ | e | _ | other, last⟩ <;>
        simp only [Async.onFst, next, hData, Bool.false_eq_true, ↓reduceIte] at hNext <;> cases hNext
      obtain ⟨⟨⟩, behind, hWrite, hPure⟩ := Async.bind_eq_ok hSave
      cases hPure
      rcases hFile : disk.writeAll chunk file with ⟨result, saved⟩
      simp only [Async.onSnd, hFile] at hWrite
      obtain ⟨rfl, rfl⟩ := Prod.mk.inj hWrite
      refine ⟨chunk, rfl, ?_, ?_, ?_⟩
      · intro tail rest hHolds
        obtain ⟨-, hTook⟩ := @nextData_eq_some tail _ _ _ hData
        rw [List.flatMap_append, List.append_assoc, List.flatMap_singleton]
        exact hFrames tail _ (hTook rest hHolds)
      · rw [hCounted, List.flatten_append, List.length_append, List.flatten_singleton, UInt64.ofNat_add]
      · intro hFailed
        obtain ⟨hBefore, hContent, hRoom⟩ := writeAll_ok hFile hFailed
        obtain ⟨hEqual, hBound⟩ := hWritten hBefore
        rw [List.flatten_append, List.flatten_singleton]
        refine ⟨by rw [hContent, hEqual], ?_⟩
        rw [List.length_append]
        rw [hEqual] at hRoom
        rcases hRoom with rfl | hRoom
        · exact hBound
        · exact hRoom

/-- A loop that has ended has kept it, and has read the closing word. -/
theorem saveAll_ok {fuel : Nat} {n : UInt64} {state : PullStream × LocalFile}
    (h : saveAll disk fuel ((client, false), ⟨[], none⟩) = (some (.ok n), state)) :
    ∃ (chunks : List Bytes) (mtime : UInt32) (tail : List (Result Bytes)) (rest : Bytes),
      client.HoldsBefore tail (chunks.flatMap dataFrame ++ (Sync.word id.DONE mtime ++ rest)) ∧
      state.2.content = chunks.flatten ∧ n.toNat = chunks.flatten.length := by
  obtain ⟨total, middle, hLoop, hRest⟩ := Async.bind_eq_ok h
  obtain ⟨⟨⟩, last, hFlush, hPure⟩ := Async.bind_eq_ok hRest
  cases hPure
  have hRound : ∀ total state item middle total' state',
      (∃ chunks, Saved disk client chunks total state) →
      Async.onFst next state = (some (.ok (some item)), middle) →
      save disk total item middle = (some (.ok total'), state') →
      ∃ chunks, Saved disk client chunks total' state' := by
    rintro total state item middle total' state' ⟨chunks, hSaved⟩ hNext hSave
    obtain ⟨chunk, hMore⟩ := hSaved.round hNext hSave
    exact ⟨chunks ++ [chunk], hMore⟩
  obtain ⟨⟨⟨reader, done⟩, file⟩, ⟨chunks, hRunning, hFrames, hCounted, hWritten⟩, hEnd⟩ :=
    Async.whileSome_ok (fun total state => ∃ chunks, Saved disk client chunks total state)
      hRound ⟨[], saved_start disk client⟩ hLoop
  obtain rfl : done = false := hRunning
  rcases hData : SyncClient.nextData reader with ⟨_ | e | _ | chunk, behind⟩ <;>
    simp only [Async.onFst, next, hData, Bool.false_eq_true, ↓reduceIte] at hEnd <;> cases hEnd
  obtain ⟨mtime, hWord⟩ := @nextData_eq_none behind.channel.incoming _ _ hData
  -- The flush reports a write that has failed, so none has.
  cases hFailed : file.failed with
  | some e =>
      simp only [Async.onSnd, LocalFile.flush, hFailed] at hFlush
      cases hFlush
  | none =>
      simp only [Async.onSnd, LocalFile.flush, hFailed] at hFlush
      cases hFlush
      obtain ⟨hContent, hBound⟩ := hWritten hFailed
      refine ⟨chunks, mtime, _, _, hFrames _ _ (hWord _ behind.holds_buffer), hContent, ?_⟩
      rw [hCounted, UInt64.toNat_ofNat', Nat.mod_eq_of_lt hBound]

/-- A pull that was started is running. -/
theorem pull_running {done : Bool} (h : pull conn remote = some (.ok (client, done))) : done = false := by
  unfold pull at h
  split at h
  · cases h
  · split at h <;> cases h
    rfl

/-- Where nothing is received, a pull fails and leaves the local file empty, or as
it was if creating it was refused. A pull that returns a count has left the content
of the data frames in the local file, and the count is its length. -/
theorem pull_to_file_truncates (conn : Connection) (remote localPath : Bytes) (disk : Disk) :
    (∀ (client : ChannelReader) (old : Bytes), disk.files localPath = some old →
      pull conn remote = some (.ok (client, false)) → GivesNothing client → ∃ e after,
        pullToFile conn remote localPath disk = (some (.error e), after) ∧
        after.files localPath = some (if disk.refuse localPath = none then [] else old)) ∧
    ∀ n after, pullToFile conn remote localPath disk = (some (.ok n), after) →
      ∃ (client : ChannelReader) (chunks : List Bytes) (mtime : UInt32) (tail : List (Result Bytes))
        (rest : Bytes), pull conn remote = some (.ok (client, false)) ∧
        client.HoldsBefore tail (chunks.flatMap dataFrame ++ (Sync.word id.DONE mtime ++ rest)) ∧
        after.files localPath = some chunks.flatten ∧ n.toNat = chunks.flatten.length := by
  constructor
  · intro client old hOld hPull hNothing
    obtain ⟨e, hError⟩ := hNothing.nextData
    cases hRefuse : disk.refuse localPath with
    | some why =>
        refine ⟨.io why, disk, ?_, ?_⟩
        · simp only [pullToFile, hPull, hRefuse]
        · rw [hOld, if_neg (Option.some_ne_none why)]
    | none =>
        obtain ⟨stream, hRun⟩ := @saveAll_error disk _ _ hError client.available ⟨[], none⟩
        refine ⟨e, disk.store localPath [], ?_, ?_⟩
        · simp only [pullToFile, hPull, hRefuse, hRun]
        · rw [Disk.store_files, if_pos rfl]
  · intro n after h
    rcases hPull : pull conn remote with _ | e | ⟨client, done⟩
    · simp only [pullToFile, hPull] at h
      cases h
    · simp only [pullToFile, hPull] at h
      cases h
    · obtain rfl : done = false := pull_running hPull
      cases hRefuse : disk.refuse localPath with
      | some why =>
          simp only [pullToFile, hPull, hRefuse] at h
          cases h
      | none =>
          simp only [pullToFile, hPull, hRefuse] at h
          obtain ⟨hRun, rfl⟩ := Prod.mk.inj h
          obtain ⟨chunks, mtime, tail, rest, hReply, hContent, hCount⟩ :=
            saveAll_ok (Prod.ext hRun rfl)
          refine ⟨client, chunks, mtime, tail, rest, rfl, hReply, ?_, hCount⟩
          rw [Disk.store_files, hContent]

/-- The remote path does not exist: the old content of the local file is gone. -/
theorem pull_to_file_empties : ∃ after,
    pullToFile ⟨.ok [], fun _ => .ok
        ⟨[.ok (failFrame (ascii "No such file"))], true, [], fun _ => none, false⟩⟩
      (ascii "/missing") (ascii "note.txt")
      (.roomy fun path => if path = ascii "note.txt" then some (ascii "old") else none) =
      (some (.error (.remoteFailure (ascii "No such file"))), after) ∧
    after.files (ascii "note.txt") = some [] :=
  ⟨_, rfl, rfl⟩

theorem writeAll_accepted {content chunk : Bytes} (h : disk.fault content chunk = none) :
    disk.writeAll chunk ⟨content, none⟩ = (some (.ok ()), ⟨content ++ chunk, none⟩) := by
  by_cases hEmpty : chunk = []
  · rw [Disk.writeAll, if_pos hEmpty, hEmpty, List.append_nil]
  · simp only [Disk.writeAll, if_neg hEmpty, h]

/-- With a round for each frame and one for the closing word, and writes that do
not fail, the loop writes and counts the content of the frames. -/
private theorem saveLoop_frames {tail : List (Result Bytes)} {rest : Bytes} {mtime : UInt32}
    (chunks : List Bytes) (hFit : ∀ chunk ∈ chunks, chunk.length ≤ DATA_MAX) (rounds : Nat)
    (hRounds : chunks.length < rounds) (total : UInt64) (content : Bytes)
    (hWrites : ∀ before chunk, before.length + chunk.length ≤ content.length + chunks.flatten.length →
      disk.fault before chunk = none) (reader : ChannelReader)
    (h : reader.HoldsBefore tail (chunks.flatMap dataFrame ++ (Sync.word id.DONE mtime ++ rest))) :
    ∃ stream, Async.whileSome (Async.onFst next) (save disk) rounds total
        ((reader, false), ⟨content, none⟩) =
      (some (.ok (total + UInt64.ofNat chunks.flatten.length)),
        (stream, ⟨content ++ chunks.flatten, none⟩)) := by
  induction chunks generalizing rounds total content reader with
  | nil =>
      obtain ⟨rounds, rfl⟩ := Nat.exists_eq_succ_of_ne_zero (Nat.ne_of_gt hRounds)
      obtain ⟨last, hRun, -⟩ := nextData_done mtime reader rest h
      have hNext : Async.onFst next ((reader, false), (⟨content, none⟩ : LocalFile)) =
          (some (.ok none), ((last, false), ⟨content, none⟩)) := by
        simp [Async.onFst, next, hRun]
      refine ⟨(last, false), ?_⟩
      rw [Async.whileSome, Async.bind_ok hNext]
      simp
  | cons chunk chunks ih =>
      obtain ⟨rounds, rfl⟩ := Nat.exists_eq_succ_of_ne_zero (Nat.ne_zero_of_lt hRounds)
      rw [List.flatMap_cons, List.append_assoc] at h
      rw [List.flatten_cons, List.length_append] at hWrites
      obtain ⟨last, hRun, hLast⟩ := nextData_data (hFit chunk List.mem_cons_self) reader _ h
      have hNext : Async.onFst next ((reader, false), (⟨content, none⟩ : LocalFile)) =
          (some (.ok (some (.ok chunk))), ((last, false), ⟨content, none⟩)) := by
        simp [Async.onFst, next, hRun]
      have hWrite : Async.onSnd (disk.writeAll chunk) ((last, false), ⟨content, none⟩) =
          (some (.ok ()), ((last, false), ⟨content ++ chunk, none⟩)) := by
        have hAccepted : disk.fault content chunk = none := hWrites content chunk (by omega)
        rw [Async.onSnd, writeAll_accepted hAccepted]
      have hSave : save disk total (.ok chunk) ((last, false), ⟨content, none⟩) =
          (some (.ok (total + UInt64.ofNat chunk.length)),
            ((last, false), ⟨content ++ chunk, none⟩)) := by
        rw [save, Async.bind_ok hWrite]
        rfl
      have hLater : ∀ before other,
          before.length + other.length ≤ (content ++ chunk).length + chunks.flatten.length →
          disk.fault before other = none := by
        intro before other hShort
        apply hWrites
        rwa [List.length_append, Nat.add_assoc] at hShort
      obtain ⟨stream, hLoop⟩ := ih (fun other hOther => hFit other (List.mem_cons_of_mem _ hOther))
        rounds (Nat.lt_of_succ_lt_succ hRounds) _ _ hLater last hLast
      refine ⟨stream, ?_⟩
      rw [Async.whileSome, Async.bind_ok hNext]
      simp only
      rw [Async.bind_ok hSave, hLoop, List.flatten_cons, List.length_append, UInt64.ofNat_add,
        List.append_assoc, UInt64.add_assoc]

/-- A reply of data frames and the closing word is written and counted, unless
creating or writing the local file fails. -/
theorem pull_to_file_done {tail : List (Result Bytes)} {rest : Bytes} {mtime : UInt32}
    {chunks : List Bytes} (hPull : pull conn remote = some (.ok (client, false)))
    (hFit : ∀ chunk ∈ chunks, chunk.length ≤ DATA_MAX)
    (hReply : client.HoldsBefore tail (chunks.flatMap dataFrame ++ (Sync.word id.DONE mtime ++ rest)))
    (hCreate : disk.refuse localPath = none)
    (hWrites : ∀ before chunk, before.length + chunk.length ≤ chunks.flatten.length →
      disk.fault before chunk = none) :
    pullToFile conn remote localPath disk =
      (some (.ok (UInt64.ofNat chunks.flatten.length)), disk.store localPath chunks.flatten) := by
  have hRounds : chunks.length < client.available + 1 := by
    have hFrames := length_le_frames chunks
    have hAvailable := hReply.length_le_available
    rw [List.length_append] at hAvailable
    omega
  obtain ⟨stream, hLoop⟩ := saveLoop_frames chunks hFit _ hRounds 0 []
    (by simpa only [List.length_nil, Nat.zero_add] using hWrites) client hReply
  simp only [pullToFile, hPull, hCreate, saveAll, Async.bind_ok hLoop]
  rw [UInt64.zero_add]
  rfl

/-- A device that answers a request with this. -/
private def telling (reply : Bytes) : Connection :=
  ⟨.ok [], fun _ => .ok ⟨[.ok reply], true, [], fun _ => none, false⟩⟩

/-- The local file holds something before the pull. -/
private def oldDisk : Disk := .roomy fun path => if path = ascii "note.txt" then some (ascii "old") else none

/-- A file that does not exist is pulled, and one that comes in two frames. -/
theorem pull_to_file_two_frames :
    (∃ e after, pullToFile (telling (failFrame (ascii "No such file"))) (ascii "/missing") (ascii "note.txt")
        oldDisk = (some (.error e), after) ∧ after.files (ascii "note.txt") = some []) ∧
    ∃ (chunks : List Bytes) (after : Disk), pullToFile (telling (([ascii "he", ascii "llo"].flatMap dataFrame) ++
          (Sync.word id.DONE 7 ++ []))) (ascii "/hello") (ascii "note.txt") oldDisk = (some (.ok 5), after) ∧
      after.files (ascii "note.txt") = some chunks.flatten ∧ (5 : UInt64).toNat = chunks.flatten.length := by
  constructor
  · have hNothing : GivesNothing ⟨⟨[.ok (failFrame (ascii "No such file"))], true, [Sync.id.RECV ++
        toLeBytes 8 ++ ascii "/missing"], fun _ => none, false⟩, []⟩ :=
      Or.inl ⟨ascii "No such file", [], [], by decide, [failFrame (ascii "No such file")], rfl, by simp⟩
    exact (pull_to_file_truncates _ _ _ oldDisk).1 _ (ascii "old") rfl rfl hNothing
  · have hDone : pullToFile (telling (([ascii "he", ascii "llo"].flatMap dataFrame) ++
        (Sync.word id.DONE 7 ++ []))) (ascii "/hello") (ascii "note.txt") oldDisk =
        (some (.ok 5), oldDisk.store (ascii "note.txt") (ascii "hello")) := by
      refine @pull_to_file_done _ _ _ _ _ [] [] 7 [ascii "he", ascii "llo"] rfl (by decide)
        ⟨[([ascii "he", ascii "llo"].flatMap dataFrame) ++ (Sync.word id.DONE 7 ++ [])], rfl, by simp⟩ rfl ?_
      intro before chunk hShort
      exact if_pos (Nat.lt_of_le_of_lt hShort (by decide))
    obtain ⟨-, chunks, -, -, -, -, -, hContent, hLength⟩ := (pull_to_file_truncates _ _ _ oldDisk).2 _ _ hDone
    exact ⟨chunks, _, hDone, hContent, hLength⟩

end Device

end Rsadb
