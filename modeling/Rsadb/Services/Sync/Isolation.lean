import Rsadb.Services.Sync.Exchange

/-! What the pulls of one client yield. Every request starts reading where the
request before it stopped, so a pull finds its own reply exactly when the pulls
before it were read to their ends. -/
namespace Rsadb.Sync

open ChannelReader

/-- The whole request reaches the device. -/
def Call.Delivered (features : SyncFeatures) (call : Call) (reader : ChannelReader) : Prop :=
  (call.request features reader).1 = some (.ok ())

instance (features : SyncFeatures) (call : Call) (reader : ChannelReader) :
    Decidable (call.Delivered features reader) :=
  inferInstanceAs (Decidable ((call.request features reader).1 = some (.ok ())))

/-- Calls one after the other on one client, each with its result. A call that
is still waiting is dropped. -/
def run (features : SyncFeatures) : ChannelReader → List Call → List (Option (Result Outcome))
  | _, [] => []
  | reader, call :: rest =>
      (call.exec features reader).1 :: run features (call.exec features reader).2 rest

/-- The device answers the requests that reach it, in order and with well-formed replies. -/
def Answered (features : SyncFeatures) : ChannelReader → List (Call × Reply) → Prop
  | _, [] => True
  | reader, (call, reply) :: rest =>
      (if call.Delivered features reader then reply.Answers features call else reply = .nothing) ∧
      Answered features (call.exec features reader).2 rest

/-- The bytes that a device sends in these exchanges. -/
def replyBytes (features : SyncFeatures) (exchanges : List (Call × Reply)) : Bytes :=
  exchanges.flatMap fun exchange => exchange.2.encode features

/-- A pull yields nothing but chunks of the reply to it, in order. -/
def YieldsOwnReply : Call × Reply → Option (Result Outcome) → Prop
  | (.pull _ _, reply), some (.ok (.pulled items)) => items.filterMap Except.toOption <+: reply.chunks
  | _, _ => True

/-- Every pull of the run yields nothing but chunks of the reply to it. -/
def PullsOwnReplies (features : SyncFeatures) (reader : ChannelReader)
    (exchanges : List (Call × Reply)) : Prop :=
  List.Forall₂ YieldsOwnReply exchanges (run features reader (exchanges.map Prod.fst))

def Call.IsPull : Call → Prop
  | .pull _ _ => True
  | _ => False

/-- No pull is dropped before its end while another pull is still to come. -/
def PulledToEnd : List (Call × Reply) → Prop
  | [] => True
  | exchange :: rest =>
      ((∃ later ∈ rest, later.1.IsPull) → PollsToEnd exchange) ∧ PulledToEnd rest

variable {tail : List (Result Bytes)}

/-- A request is made of sends, and of steps that do not touch the stream. -/
theorem Call.request_of_sends {P : ∀ α : Type, Async Error ChannelReader α → Prop}
    (hLift : ∀ {α : Type} (result : Result α), P α (Async.lift result))
    (hBind : ∀ {α β : Type} (first : Async Error ChannelReader α)
      (next : α → Async Error ChannelReader β), P α first → (∀ value, P β (next value)) →
      P β (first >>= next))
    (hSend : ∀ data, P Unit (send data)) (features : SyncFeatures) (call : Call) :
    P Unit (call.request features) := by
  have hRequest : ∀ id path, P Unit (do
      let request ← Async.lift (Sync.request id path)
      send request) := fun id path => hBind _ _ (hLift _) hSend
  cases call with
  | stat path => exact hRequest _ path
  | list path => exact hRequest _ path
  | pull path polls =>
      simp only [Call.request, SyncClient.startPull]
      split
      · exact hBind _ _ (hLift _) fun request => hBind _ _ (hSend request) fun _ => hSend _
      · exact hRequest _ path
  | push path mode mtime source =>
      have hStart : P Unit (SyncClient.startPush features path mode) := by
        unfold SyncClient.startPush
        split
        · exact hBind _ _ (hLift _) fun request => hBind _ _ (hSend request) fun _ => hSend _
        · exact hRequest _ _
      have hChunks : P Unit (SyncClient.pushChunks source) := by
        induction source with
        | nil => exact hLift (.ok ())
        | cons chunk rest ih =>
            rcases chunk with e | ⟨buf, hBuf⟩
            · exact hLift (.error e)
            · unfold SyncClient.pushChunks
              split
              · exact hLift (.ok ())
              · split
                · exact hBind _ _ (hSend _) fun _ => ih
                · exact hLift (.error _)
      exact hBind _ _ hStart fun _ => hBind _ _ hChunks fun _ => hSend _

theorem Call.request_keeps (features : SyncFeatures) (call : Call) (content : Bytes) :
    Async.Keeps (fun reader : ChannelReader => reader.HoldsBefore tail content)
      (call.request features) :=
  @Call.request_of_sends
    (fun _ => Async.Keeps (fun reader : ChannelReader => reader.HoldsBefore tail content))
    (fun result => Async.Keeps.lift result) (fun _ _ => Async.Keeps.bind)
    (fun data => send_keeps data content) features call

/-- A call whose request is not delivered ends there, without a result. -/
theorem Call.exec_undelivered {features : SyncFeatures} {call : Call} {reader : ChannelReader}
    (h : ¬call.Delivered features reader) :
    (∀ outcome, (call.exec features reader).1 ≠ some (.ok outcome)) ∧
    (call.exec features reader).2 = (call.request features reader).2 := by
  rw [Call.exec_eq]
  rcases hRequest : call.request features reader with ⟨_ | e | ⟨⟩, next⟩
  · have hRun : (call.request features >>= fun _ => call.answer features) reader = (none, next) := by
      show Async.bind _ _ reader = _
      simp only [Async.bind, hRequest]
    simp [hRun]
  · simp [Async.bind_error hRequest]
  · exact absurd (congrArg Prod.fst hRequest) h

/-- A delivered call reads its answer where its request left the reader. -/
theorem Call.exec_delivered {features : SyncFeatures} {call : Call} {reader : ChannelReader}
    (h : call.Delivered features reader) :
    call.exec features reader = call.answer features (call.request features reader).2 := by
  rw [Call.exec_eq]
  exact Async.bind_ok (Prod.ext h rfl)

/-- However often it is polled, a pull that finds its reply yields a prefix of its content. -/
theorem pullItems_yields {features : SyncFeatures} {path : Bytes} {polls : Nat} {reply : Reply}
    {reader : ChannelReader} {rest : Bytes} (hAnswers : reply.Answers features (.pull path polls))
    (h : reader.HoldsBefore tail (reply.encode features ++ rest)) :
    (SyncClient.pullItems polls false reader).1.filterMap Except.toOption <+: reply.chunks := by
  have hChunks : ∀ chunks : List Bytes,
      (chunks.map (Except.ok : Bytes → Result Bytes)).filterMap Except.toOption = chunks := by
    intro chunks
    simp [List.filterMap_map, Function.comp_def, Except.toOption]
  have hFew : ∀ (chunks : List Bytes) (behind : Bytes),
      (∀ chunk ∈ chunks, chunk.length ≤ DATA_MAX) → polls ≤ chunks.length →
      reader.HoldsBefore tail (chunks.flatMap dataFrame ++ behind) →
      (SyncClient.pullItems polls false reader).1.filterMap Except.toOption <+: chunks := by
    intro chunks behind hFit hPolls hHolds
    rw [(pullItems_frames chunks polls reader hFit hHolds).1 hPolls, hChunks]
    exact List.take_prefix _ _
  by_cases hEnd : PollsToEnd (.pull path polls, reply)
  · obtain ⟨next, hRun, -⟩ := pollItems_consumes hAnswers hEnd reader rest h
    have hItems : (SyncClient.pullItems polls false reader).1 =
        reply.chunks.map .ok ++ reply.failure.map .error := by
      simp only [SyncClient.pollItems, Prod.mk.injEq, Option.some.injEq, Except.ok.injEq] at hRun
      exact hRun.1
    rw [hItems, List.filterMap_append, hChunks]
    simp [List.filterMap_map, Function.comp_def, Except.toOption]
  · cases reply with
    | file chunks mtime =>
        rw [Reply.encode, List.append_assoc] at h
        exact hFew chunks _ hAnswers (Nat.le_of_not_lt hEnd) h
    | brokenFile chunks message =>
        rw [Reply.encode, List.append_assoc] at h
        exact hFew chunks _ hAnswers.1 (Nat.le_of_not_lt hEnd) h
    | _ => exact absurd hAnswers (by simp [Reply.Answers])

/-- An exchange that finds its reply yields only that reply, and leaves the
next reply in place if it was read to its end. -/
theorem exec_exchange {features : SyncFeatures} {call : Call} {reply : Reply}
    {reader : ChannelReader} {rest : Bytes}
    (hContent : reader.HoldsBefore tail (reply.encode features ++ rest))
    (hAnswered : if call.Delivered features reader then reply.Answers features call
      else reply = .nothing) :
    YieldsOwnReply (call, reply) (call.exec features reader).1 ∧
    (PollsToEnd (call, reply) → (call.exec features reader).2.HoldsBefore tail rest) := by
  have hSent := call.request_keeps features (reply.encode features ++ rest) reader hContent
  by_cases hDelivered : call.Delivered features reader
  · rw [if_pos hDelivered] at hAnswered
    rw [Call.exec_delivered hDelivered]
    refine ⟨?_, ?_⟩
    · cases call with
      | pull path polls => exact pullItems_yields hAnswered hSent
      | _ => trivial
    · intro hEnd
      obtain ⟨next, hRun, hNext⟩ := answer_consumes hAnswered hEnd _ rest hSent
      rwa [hRun]
  · rw [if_neg hDelivered] at hAnswered
    subst reply
    obtain ⟨hNoResult, hState⟩ := Call.exec_undelivered hDelivered
    refine ⟨?_, fun _ => ?_⟩
    · unfold YieldsOwnReply
      split
      · rename_i hResult
        exact absurd hResult (hNoResult _)
      · trivial
    · rw [hState]
      simpa [Reply.encode] using hSent

/-- Without pulls there is nothing to yield. -/
private theorem yields_of_no_pull (features : SyncFeatures) (exchanges : List (Call × Reply))
    (h : ∀ exchange ∈ exchanges, ¬exchange.1.IsPull) (reader : ChannelReader) :
    PullsOwnReplies features reader exchanges := by
  induction exchanges generalizing reader with
  | nil => exact List.Forall₂.nil
  | cons exchange rest ih =>
      obtain ⟨call, reply⟩ := exchange
      have hCall := h _ List.mem_cons_self
      refine List.Forall₂.cons ?_ (ih (fun other hOther => h other (List.mem_cons_of_mem _ hOther)) _)
      cases call with
      | pull path polls => exact absurd trivial hCall
      | _ => trivial

/-- If no pull is dropped before its end while another is still to come, every
pull yields nothing but the reply to it, in order and from its start. -/
theorem pulls_own_replies (features : SyncFeatures) (reader : ChannelReader)
    (exchanges : List (Call × Reply)) (hContent : reader.Holds (replyBytes features exchanges))
    (hAnswered : Answered features reader exchanges) (hPulled : PulledToEnd exchanges) :
    PullsOwnReplies features reader exchanges := by
  obtain ⟨tail, hBefore⟩ := holds_iff.mp hContent
  clear hContent
  induction exchanges generalizing reader with
  | nil => exact List.Forall₂.nil
  | cons exchange rest ih =>
      obtain ⟨call, reply⟩ := exchange
      obtain ⟨hReply, hLater⟩ := hAnswered
      obtain ⟨hEnd, hRest⟩ := hPulled
      rw [replyBytes, List.flatMap_cons] at hBefore
      obtain ⟨hYields, hNext⟩ := exec_exchange hBefore hReply
      refine List.Forall₂.cons hYields ?_
      by_cases hMore : ∃ later ∈ rest, later.1.IsPull
      · exact ih _ hLater hRest (hNext (hEnd hMore))
      · refine yields_of_no_pull features rest (fun later hMem hPull => ?_) _
        exact hMore ⟨later, hMem, hPull⟩

/-- Two pulls read to their ends, the second with one poll more than it needs. -/
theorem pulls_own_replies_two_files :
    PullsOwnReplies ⟨false, false, false⟩
      ⟨⟨[.ok (dataFrame [120] ++ word id.DONE 0), .ok (dataFrame [121] ++ word id.DONE 0)],
        false, [], fun _ => none, false⟩, []⟩
      [(.pull [97] 2, .file [[120]] 0), (.pull [98] 3, .file [[121]] 0)] := by
  refine pulls_own_replies _ _ _ ⟨[dataFrame [120] ++ word id.DONE 0,
    dataFrame [121] ++ word id.DONE 0], [], rfl, by decide⟩ ⟨?_, ?_, trivial⟩
    ⟨fun _ => by simp [PollsToEnd], fun _ => by simp [PollsToEnd], trivial⟩
  · rw [if_pos (by decide)]
    simp [Reply.Answers, DATA_MAX]
  · rw [if_pos (by decide)]
    simp [Reply.Answers, DATA_MAX]

/-- A pull of two chunks, dropped after the first, leaves the second to the next pull. -/
theorem dropped_pull_leaks :
    ¬∀ (features : SyncFeatures) (reader : ChannelReader) (exchanges : List (Call × Reply)),
      reader.Holds (replyBytes features exchanges) → Answered features reader exchanges →
      PullsOwnReplies features reader exchanges := by
  intro hClaim
  have hPulls := hClaim ⟨false, false, false⟩
    ⟨⟨[.ok (dataFrame [120] ++ dataFrame [121] ++ word id.DONE 0),
      .ok (dataFrame [122] ++ word id.DONE 0)], false, [], fun _ => none, false⟩, []⟩
    [(.pull [97] 1, .file [[120], [121]] 0), (.pull [98] 1, .file [[122]] 0)]
    ⟨[dataFrame [120] ++ dataFrame [121] ++ word id.DONE 0, dataFrame [122] ++ word id.DONE 0], [],
      rfl, by decide⟩
    ⟨by rw [if_pos (by decide)]; simp [Reply.Answers, DATA_MAX],
      by rw [if_pos (by decide)]; simp [Reply.Answers, DATA_MAX], trivial⟩
  cases hPulls with
  | cons hFirst hRest =>
      cases hRest with
      | cons hSecond hNil => exact absurd hSecond (show ¬[[121]] <+: [[122]] by decide)

end Rsadb.Sync
