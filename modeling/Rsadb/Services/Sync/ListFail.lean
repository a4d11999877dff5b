import Rsadb.Library.Lines
import Rsadb.Services.Sync.Isolation

/-! The failure reply, at the three places that accept one. A pull and a push
read its word and then as many bytes as the word says. A listing reads the
header of an entry, whatever the word says. -/
namespace Rsadb.Sync

open ChannelReader

variable {features : SyncFeatures} {path : Bytes} {tail : List (Result Bytes)}

/-- A listing whose request was sent reads its entries. -/
theorem list_delivered {reader : ChannelReader} (h : (Call.list path).Delivered features reader) :
    SyncClient.list features path reader =
      SyncClient.listLoop features [] ((Call.list path).request features reader).2 := by
  have hList : SyncClient.list features path =
      (Call.list path).request features >>= fun _ => SyncClient.readEntries features := by
    simp only [SyncClient.list, Call.request, Async.bind_assoc]
  rw [hList]
  exact Async.bind_ok (Prod.ext h rfl)

theorem failFrame_length (message : Bytes) : (failFrame message).length = message.length + 8 := by
  rw [failFrame, List.length_append, word_length (by decide)]
  omega

/-- Where the failure reply is as long as a header, the loop reports its text. -/
theorem listLoop_failFrame {message : Bytes} {entries : List Entry}
    (hLength : message.length + 8 = (SyncClient.dent features).2) :
    Async.Consumes (HoldsBefore tail) (SyncClient.listLoop features entries) (failFrame message)
      (.error (.remoteFailure (Text.trimEnd 0 (Utf8.lossy message)))) := by
  intro reader rest h
  obtain ⟨next, hRead, hNext⟩ :=
    readExact_consumes (failFrame message) ((failFrame_length message).trans hLength) reader rest h
  refine ⟨next, ?_, hNext⟩
  have hId : (failFrame message).take 4 = id.FAIL := rfl
  have hText : (failFrame message).drop 8 = message := List.drop_left' (word_length (by decide) _)
  rw [listLoop_fail hRead hId, hText]

/-- A header that does not come ends the loop where it is. -/
theorem listLoop_stopped {reader next : ChannelReader} {entries : List Entry} {stopped : Option (Result Bytes)}
    (hRead : readExact (SyncClient.dent features).2 reader = (stopped, next))
    (hStopped : ∀ b, stopped ≠ some (.ok b)) : (SyncClient.listLoop features entries reader).2 = next := by
  unfold SyncClient.listLoop
  split
  · simp_all
  · simp_all
  · rename_i b left hRun
    rw [hRead] at hRun
    cases hRun
    exact absurd rfl (hStopped b)

/-- A loop that leaves just what comes behind the failure reply has found that
reply as long as a header. -/
theorem length_of_listLoop {message rest : Bytes} {entries : List Entry} {reader : ChannelReader}
    (h : reader.HoldsBefore tail (failFrame message ++ rest))
    (hLeft : (SyncClient.listLoop features entries reader).2.HoldsBefore tail rest) :
    message.length + 8 = (SyncClient.dent features).2 := by
  have hUnread := h.unread
  rw [readExact_unread (SyncClient.dent features).2 reader] at hUnread
  have hLengths := congrArg List.length hUnread
  simp only [List.length_append, failFrame_length] at hLengths
  rcases hRead : readExact (SyncClient.dent features).2 reader with ⟨result, next⟩
  rw [hRead] at hUnread hLengths
  have hBehind : next = (SyncClient.listLoop features entries reader).2 →
      next.unread.length = rest.length + (tail.flatMap payload).length := by
    rintro rfl
    rw [hLeft.unread, List.length_append]
  rcases result with _ | e | b
  · have hNext := hBehind (listLoop_stopped hRead (by simp)).symm
    simp only [taken, List.length_nil] at hLengths
    omega
  · have hNext := hBehind (listLoop_stopped hRead (by simp)).symm
    simp only [taken, List.length_nil] at hLengths
    omega
  · obtain ⟨hHeader, -⟩ := @readExact_eq_ok tail _ _ _ _ hRead
    simp only [taken] at hUnread hLengths
    have hId : b.take 4 = id.FAIL := by
      have hFour : 4 ≤ b.length := by
        rw [hHeader]
        unfold SyncClient.dent
        split <;> decide
      have hTake := congrArg (List.take 4) hUnread
      rw [List.take_append_of_le_length hFour] at hTake
      exact hTake
    have hNext := hBehind (congrArg Prod.snd (listLoop_fail hRead hId)).symm
    omega

/-- A failure reply to a pull or to a push is read to its end and no further.
A listing does so exactly where the message fills up the header of an entry, and
it reports the whole message unless that ends in a zero byte. -/
theorem fail_understood_iff {message rest : Bytes} {dents : List (Bytes × Bytes)} {reader : ChannelReader}
    (hMessage : message.length < 2 ^ 32)
    (hDents : ∀ dent ∈ dents,
      dent.1.length + 8 = (SyncClient.dent features).2 ∧ dent.2.length < 2 ^ 32)
    (hDelivered : (Call.list path).Delivered features reader)
    (h : reader.HoldsBefore tail (dents.flatMap (dentFrame features) ++ (failFrame message ++ rest))) :
    Async.Consumes (HoldsBefore tail) SyncClient.nextData (failFrame message)
      (.error (.remoteFailure (Utf8.lossy message))) ∧
    Async.Consumes (HoldsBefore tail) SyncClient.readStatus (failFrame message)
      (.error (.remoteFailure (Utf8.lossy message))) ∧
    ((∃ next, SyncClient.list features path reader =
        (some (.error (.remoteFailure (Utf8.lossy message))), next) ∧ next.HoldsBefore tail rest) ↔
      message.length + 8 = (SyncClient.dent features).2 ∧ ¬[0] <:+ Utf8.lossy message) := by
  refine ⟨nextData_fail hMessage, readStatus_fail hMessage, ?_⟩
  obtain ⟨middle, hMiddle, hLoop⟩ := listLoop_dents dents hDents [] _
    (Call.request_keeps features (.list path) _ reader h)
  rw [list_delivered hDelivered, hLoop, ← Text.trimEnd_eq_self_iff]
  constructor
  · rintro ⟨next, hFail, hLeft⟩
    have hLength : message.length + 8 = (SyncClient.dent features).2 := by
      apply length_of_listLoop hMiddle
      rw [hFail]
      exact hLeft
    obtain ⟨after, hTrimmed, -⟩ := listLoop_failFrame hLength middle rest hMiddle
    rw [hTrimmed] at hFail
    exact ⟨hLength, Error.remoteFailure.inj (Except.error.inj (Option.some.inj (congrArg Prod.fst hFail)))⟩
  · rintro ⟨hLength, hTrim⟩
    rw [← hTrim]
    exact listLoop_failFrame hLength middle rest hMiddle

/-- A reader that has asked for nothing yet; the device sends `reply` in two chunks,
the first of thirty bytes. -/
private def told (reply : Bytes) : ChannelReader :=
  ⟨⟨[.ok (reply.take 30), .ok (reply.drop 30)], false, [], fun _ => none, false⟩, []⟩

private theorem told_holds (reply : Bytes) : (told reply).HoldsBefore [] reply :=
  ⟨[reply.take 30, reply.drop 30], rfl, by simp [told]⟩

private theorem told_delivered (reply : Bytes) :
    (Call.list (ascii "/root")).Delivered ⟨false, false, false⟩ (told reply) := rfl

/-- The header of an entry, up to its length. -/
private def oneDent : Bytes × Bytes := (List.replicate 12 0, ascii "bin")

/-- A message of twelve bytes, which is what a first-version header leaves room for.
It comes behind an entry, and its frame is cut in two. -/
theorem fail_understood_twelve : ∃ next : ChannelReader,
    SyncClient.list ⟨false, false, false⟩ (ascii "/root")
        (told (dentFrame ⟨false, false, false⟩ oneDent ++ (failFrame (ascii "No such file") ++ []))) =
      (some (.error (.remoteFailure (Utf8.lossy (ascii "No such file")))), next) ∧
    next.HoldsBefore [] [] :=
  (@fail_understood_iff _ _ [] _ [] [oneDent] _ (by decide) (by decide) (told_delivered _)
    (told_holds _)).2.2.mpr ⟨by decide, by decide⟩

/-- The listing of a directory that may not be read is refused in fewer words than
the text of the refusal has. -/
theorem list_fail_cut : ¬∀ (features : SyncFeatures) (path message rest : Bytes)
    (dents : List (Bytes × Bytes)) (tail : List (Result Bytes)) (reader : ChannelReader),
    message.length < 2 ^ 32 →
    (∀ dent ∈ dents,
      dent.1.length + 8 = (SyncClient.dent features).2 ∧ dent.2.length < 2 ^ 32) →
    (Call.list path).Delivered features reader →
    reader.HoldsBefore tail (dents.flatMap (dentFrame features) ++ (failFrame message ++ rest)) →
    ∃ next, SyncClient.list features path reader =
      (some (.error (.remoteFailure (Utf8.lossy message))), next) ∧ next.HoldsBefore tail rest := by
  intro hClaim
  obtain ⟨next, hFail, hLeft⟩ := hClaim ⟨false, false, false⟩ (ascii "/root")
    (ascii "Permission denied") [] [] [] (told (failFrame (ascii "Permission denied") ++ []))
    (by decide) (by simp) (told_delivered _) (told_holds _)
  rw [list_delivered (told_delivered _)] at hFail
  have hWaiting := Call.request_keeps ⟨false, false, false⟩ (.list (ascii "/root")) _ _
    (told_holds (failFrame (ascii "Permission denied") ++ []))
  exact absurd (length_of_listLoop hWaiting (by rw [hFail]; exact hLeft)) (by decide)

end Rsadb.Sync
