import Rsadb.Services.Sync.Isolation

/-! One client serves any sequence of requests. Sending never touches what is
still to be read, and a call whose request arrived reads its own reply and no
more, so each call goes as it would on a client that was made for it alone. -/
namespace Rsadb.Sync

open ChannelReader

/-- Both streams take the same sends from now on. -/
def SendsAlike (reader fresh : ChannelReader) : Prop :=
  ∀ n, reader.channel.sendError (reader.channel.sent.length + n) =
    fresh.channel.sendError (fresh.channel.sent.length + n)

/-- A new client of a stream that carries `content` and nothing else, cut in any
way, and that takes what is sent as the stream of `reader` does. -/
structure IsFresh (reader fresh : ChannelReader) (content : Bytes) : Prop where
  buffer : fresh.buffer = []
  incoming : ∃ chunks : List Bytes,
    fresh.channel.incoming = chunks.map .ok ∧ chunks.flatten = content
  sendsAlike : SendsAlike reader fresh

/-- Each call has the result that it has on a fresh client of its own reply, and
takes exactly that reply off the stream. A call whose request arrived has a
result: what the reply says. -/
def ServedAlone (features : SyncFeatures) : ChannelReader → List (Call × Reply) → Prop
  | _, [] => True
  | reader, (call, reply) :: rest =>
      (∀ fresh, IsFresh reader fresh (reply.encode features) →
        (call.exec features reader).1 = (call.exec features fresh).1) ∧
      (call.Delivered features reader →
        (call.exec features reader).1 = some (reply.outcome features call)) ∧
      reader.unread = reply.encode features ++ (call.exec features reader).2.unread ∧
      ServedAlone features (call.exec features reader).2 rest

private theorem send_agrees (data : Bytes) : Async.Agrees SendsAlike (send data) := by
  intro reader fresh h
  have hNow := h 0
  simp only [Nat.add_zero] at hNow
  simp only [send, onChannel, Channel.send, hNow]
  split
  · exact ⟨rfl, h⟩
  · refine ⟨rfl, fun n => ?_⟩
    simpa only [List.length_append, List.length_singleton, Nat.add_assoc] using h (1 + n)

/-- What becomes of a request depends on the sending side only. -/
theorem Call.request_agrees (features : SyncFeatures) (call : Call) :
    Async.Agrees SendsAlike (call.request features) :=
  @Call.request_of_sends (fun _ => Async.Agrees SendsAlike) (fun result => Async.Agrees.lift result)
    (fun _ _ => Async.Agrees.bind) send_agrees features call

/-- A call whose request does not arrive has its result from the request alone. -/
private theorem exec_of_undelivered {features : SyncFeatures} {call : Call}
    {reader fresh : ChannelReader} (hAlike : SendsAlike reader fresh)
    (h : ¬call.Delivered features reader) :
    (call.exec features reader).1 = (call.exec features fresh).1 := by
  have hSame := (call.request_agrees features reader fresh hAlike).1
  rw [Call.exec_eq]
  show (Async.bind _ _ reader).1 = (Async.bind _ _ fresh).1
  simp only [Async.bind]
  rcases hReader : call.request features reader with ⟨result, next⟩
  rcases hFresh : call.request features fresh with ⟨result', next'⟩
  rw [hReader, hFresh] at hSame
  obtain rfl : result = result' := hSame
  rcases result with _ | e | ⟨⟩
  · rfl
  · rfl
  · exact absurd (congrArg Prod.fst hReader) h

/-- One exchange on a shared stream, against the same exchange on a fresh one. -/
theorem exec_alone {features : SyncFeatures} {call : Call} {reply : Reply} {reader : ChannelReader}
    {tail : List (Result Bytes)} {rest : Bytes}
    (hContent : reader.HoldsBefore tail (reply.encode features ++ rest))
    (hAnswered : if call.Delivered features reader then reply.Answers features call
      else reply = .nothing) (hEnd : PollsToEnd (call, reply)) :
    (∀ fresh, IsFresh reader fresh (reply.encode features) →
      (call.exec features reader).1 = (call.exec features fresh).1) ∧
    (call.Delivered features reader →
      (call.exec features reader).1 = some (reply.outcome features call)) := by
  by_cases hDelivered : call.Delivered features reader
  · rw [if_pos hDelivered] at hAnswered
    have hResult : ∀ (any : ChannelReader) (behind : List (Result Bytes)) (more : Bytes),
        call.Delivered features any → any.HoldsBefore behind (reply.encode features ++ more) →
        (call.exec features any).1 = some (reply.outcome features call) := by
      intro any behind more hAny hHolds
      rw [Call.exec_delivered hAny]
      obtain ⟨next, hRun, -⟩ := answer_consumes hAnswered hEnd _ more
        (call.request_keeps features _ any hHolds)
      rw [hRun]
    refine ⟨fun fresh hFresh => ?_, fun _ => hResult reader tail rest hDelivered hContent⟩
    obtain ⟨chunks, hIncoming, hChunks⟩ := hFresh.incoming
    have hSame := (call.request_agrees features reader fresh hFresh.sendsAlike).1
    rw [hResult reader tail rest hDelivered hContent]
    refine (hResult fresh [] [] (hSame.symm.trans hDelivered) ⟨chunks, ?_, ?_⟩).symm
    · rw [hIncoming, List.append_nil]
    · rw [hFresh.buffer, hChunks, List.append_nil, List.nil_append]
  · exact ⟨fun fresh hFresh => exec_of_undelivered hFresh.sendsAlike hDelivered,
      fun h => absurd h hDelivered⟩

/-- For every sequence of requests on one client, with pulls read to their ends,
and for every way in which the replies to them are cut: each call has the result
that it would have alone, and takes exactly its own reply. -/
theorem one_stream_serves (features : SyncFeatures) (reader : ChannelReader)
    (exchanges : List (Call × Reply)) (rest : Bytes)
    (hContent : reader.Holds (replyBytes features exchanges ++ rest))
    (hAnswered : Answered features reader exchanges)
    (hPulled : ∀ exchange ∈ exchanges, PollsToEnd exchange) :
    ServedAlone features reader exchanges := by
  obtain ⟨tail, hBefore⟩ := holds_iff.mp hContent
  clear hContent
  induction exchanges generalizing reader with
  | nil => trivial
  | cons exchange exchanges ih =>
      obtain ⟨call, reply⟩ := exchange
      obtain ⟨hReply, hLater⟩ := hAnswered
      have hEnd := hPulled _ List.mem_cons_self
      rw [replyBytes, List.flatMap_cons, List.append_assoc] at hBefore
      have hNext := (exec_exchange hBefore hReply).2 hEnd
      obtain ⟨hSame, hResult⟩ := exec_alone hBefore hReply hEnd
      refine ⟨hSame, hResult, ?_, ?_⟩
      · rw [hBefore.unread, hNext.unread, List.append_assoc]
      · exact ih _ hLater (fun other hOther => hPulled other (List.mem_cons_of_mem _ hOther)) hNext

/-- A stat, a push, a pull and a listing, their replies cut across their borders. -/
theorem one_stream_serves_four :
    ServedAlone ⟨false, false, false⟩
      ⟨⟨[.ok (ascii "STA"), .ok (ascii "T" ++ List.replicate 12 7 ++ ascii "OK"),
        .ok (ascii "AY" ++ [0, 0, 0, 0] ++ ascii "DATA" ++ [1, 0, 0, 0, 120] ++ ascii "DO"),
        .ok (ascii "NE" ++ [0, 0, 0, 0] ++ ascii "DENT" ++ List.replicate 12 7 ++ [1, 0, 0, 0, 98]),
        .ok (ascii "DONE" ++ List.replicate 16 0)], false, [], fun _ => none, false⟩, []⟩
      [(.stat [97], .stat (List.replicate 12 7)), (.push [97] 420 0 [.ok ⟨[1], by decide⟩], .okay 0),
        (.pull [97] 2, .file [[120]] 0),
        (.list [97], .listing [(List.replicate 12 7, [98])] (List.replicate 16 0))] := by
  refine one_stream_serves _ _ _ [] ⟨[_, _, _, _, _], [], rfl, by decide⟩
    ⟨?_, ?_, ?_, ?_, trivial⟩ (by simp [PollsToEnd])
  · rw [if_pos (by decide)]
    simp [Reply.Answers, STAT_V1_LEN]
  · rw [if_pos (by decide)]
    trivial
  · rw [if_pos (by decide)]
    simp [Reply.Answers, DATA_MAX]
  · rw [if_pos (by decide)]
    simp [Reply.Answers, SyncClient.dent, DENT_V1_LEN]

end Rsadb.Sync
