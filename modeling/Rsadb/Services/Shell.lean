import Rsadb.Services.ShellV2
import Rsadb.Channel

/-! Collecting the output of the `shell,v2:` service. -/
namespace Rsadb

open ShellV2

/-- One round of `collect_v2`: parse a chunk and fold its frames into the output. -/
def collectChunk (state : Parser × ShellOutput) (chunk : Bytes) :
    Async Error ChannelReader (Parser × ShellOutput) :=
  match state.1.push chunk with
  | (.ok frames, parser) => pure (parser, frames.foldl ShellOutput.apply state.2)
  | (.error e, _) => Async.fail e

/-- Consume a `shell,v2:` channel to the end. -/
def collectV2 (channel : Channel) : Option (Result ShellOutput) :=
  ((do
    let (parser, out) ← Async.whileSome ChannelReader.nextChunk collectChunk
      (ChannelReader.mk channel []).rounds (Parser.default, ShellOutput.default)
    ChannelReader.onChannel Channel.close
    if parser.pending ≠ 0 then
      Async.fail (.protocol s!"{parser.pending} trailing bytes in shell v2 stream")
    else pure out : Async Error ChannelReader ShellOutput) ⟨channel, []⟩).1

/-- An output that was collected is that of frames which make up the whole stream. -/
theorem collectV2_ok {channel : Channel} {out : ShellOutput} (h : collectV2 channel = some (.ok out)) :
    ∃ chunks frames, ChannelReader.Ends channel chunks ∧ Encodes frames chunks.flatten ∧
      out = frames.foldl ShellOutput.apply ShellOutput.default := by
  obtain ⟨⟨parser, collected⟩, middle, hLoop, hRest⟩ := Async.bind_eq_ok (Prod.ext h rfl)
  -- The frames so far and what the parser holds are the chunks so far.
  let Inv : Parser × ShellOutput → ChannelReader → Prop := fun state now =>
    now.buffer = [] ∧ now.channel.ended = channel.ended ∧ ∃ (seen : List Bytes) (frames : List Frame)
      (taken : Bytes), channel.incoming = seen.map .ok ++ now.channel.incoming ∧
        Encodes frames taken ∧ taken ++ state.1.buffer = seen.flatten ∧
        state.2 = frames.foldl ShellOutput.apply ShellOutput.default
  have hNextChunk : ∀ {now : ChannelReader}, now.buffer = [] →
      ChannelReader.nextChunk now = ChannelReader.recv now := fun hEmpty => if_pos hEmpty
  have hRound : ∀ state now chunk after state' later, Inv state now →
      ChannelReader.nextChunk now = (some (.ok (some chunk)), after) →
      collectChunk state chunk after = (some (.ok state'), later) → Inv state' later := by
    rintro state now chunk after state' later ⟨hEmpty, hSame, seen, frames, taken, hIncoming, hEncodes,
      hTaken, hOut⟩ hNext hCollect
    rw [hNextChunk hEmpty] at hNext
    obtain ⟨hMore, hKept, hStill⟩ := ChannelReader.recv_some hNext
    rcases hPush : state.1.push chunk with ⟨_ | more, next⟩ <;>
      simp only [collectChunk, hPush] at hCollect <;> cases hCollect
    obtain ⟨pushed, hPushed, hBuffer⟩ := Parser.push_ok hPush
    refine ⟨hStill.trans hEmpty, hKept.trans hSame, seen ++ [chunk], frames ++ more, taken ++ pushed,
      by simp [hIncoming, hMore], hEncodes.append hPushed, ?_, by simp [hOut]⟩
    rw [List.append_assoc, hBuffer, ← List.append_assoc, hTaken]
    simp
  obtain ⟨last, ⟨hEmpty, hEnded, chunks, frames, taken, hIncoming, hEncodes, hTaken, hOut⟩, hNone⟩ :=
    Async.whileSome_ok Inv hRound ⟨rfl, rfl, [], [], [], rfl, .nil, rfl, rfl⟩ hLoop
  rw [hNextChunk hEmpty] at hNone
  obtain ⟨hDone, hOver, rfl⟩ := ChannelReader.recv_none hNone
  obtain ⟨_, closed, hClose, hPending⟩ := Async.bind_eq_ok hRest
  have hResult := congrArg Prod.fst hPending
  by_cases hNothing : parser.buffer = []
  · simp only [Parser.pending, hNothing, List.length_nil, ne_eq, not_true_eq_false, ↓reduceIte] at hResult
    obtain rfl : collected = out := Except.ok.inj (Option.some.inj hResult)
    refine ⟨chunks, frames, ⟨by simpa [hDone] using hIncoming, hEnded ▸ hOver⟩, ?_, hOut⟩
    rw [← hTaken, hNothing, List.append_nil]
    exact hEncodes
  · simp only [Parser.pending, ne_eq, List.length_eq_zero_iff, hNothing, not_false_eq_true, ↓reduceIte]
      at hResult
    cases hResult

/-- One round of `collect_v2` as a function of the chunk. -/
private def collectStep (state : Parser × ShellOutput) (chunk : Bytes) : Result (Parser × ShellOutput) :=
  match state.1.push chunk with
  | (.ok frames, parser) => .ok (parser, frames.foldl ShellOutput.apply state.2)
  | (.error e, _) => .error e

private theorem collectChunk_eq (state : Parser × ShellOutput) (chunk : Bytes) :
    collectChunk state chunk = Async.lift (collectStep state chunk) := by
  rw [collectChunk, collectStep]
  rcases state.1.push chunk with ⟨_ | _, _⟩ <;> rfl

/-- The rounds feed the parser and fold its frames. -/
private theorem collect_feed (chunks : List Bytes) (parser : Parser) (out : ShellOutput) :
    chunks.foldlM collectStep (parser, out) = match parser.feed chunks with
      | (.ok frames, parser) => .ok (parser, frames.foldl ShellOutput.apply out)
      | (.error e, _) => .error e := by
  induction chunks generalizing parser out with
  | nil => rfl
  | cons chunk chunks ih =>
      rw [List.foldlM_cons, Parser.feed, collectStep]
      rcases parser.push chunk with ⟨e | frames, next⟩
      · rfl
      · refine (ih next _).trans ?_
        rcases hRest : next.feed chunks with ⟨e | more, last⟩
        · simp only [hRest]
          rfl
        · simp only [hRest, Except.map, List.foldl_append]

/-- What is collected from a stream that ends is what feeding its chunks gives. -/
theorem collectV2_of_ends {channel : Channel} {chunks : List Bytes} (h : ChannelReader.Ends channel chunks) :
    collectV2 channel = some (match Parser.default.feed chunks with
      | (.ok frames, parser) =>
          if parser.pending ≠ 0 then .error (.protocol s!"{parser.pending} trailing bytes in shell v2 stream")
          else .ok (collected frames)
      | (.error e, _) => .error e) := by
  obtain ⟨reader', hLoop⟩ := @ChannelReader.whileSome_of_ends _ collectChunk collectStep collectChunk_eq chunks
    (ChannelReader.mk channel []).rounds (Parser.default, ShellOutput.default) ⟨channel, []⟩ h rfl
    (by simp [ChannelReader.rounds, h.1])
  rw [collect_feed] at hLoop
  rcases hFeed : Parser.default.feed chunks with ⟨e | frames, parser⟩
  · rw [hFeed] at hLoop
    rw [collectV2, Async.bind_error hLoop]
  · rw [hFeed] at hLoop
    rw [collectV2, Async.bind_ok hLoop]
    simp only [foldl_apply]
    rw [Async.bind_ok (show ChannelReader.onChannel Channel.close reader' = (some (.ok ()), _) from rfl)]
    split_ifs <;> rfl

/-- Collecting succeeds exactly on the bytes that are encoded frames, however they
are cut into chunks, and then gives what these frames are collected to; otherwise
the protocol is broken. Feeding encoded frames to the parser gives them back. -/
theorem collectV2_exact (chunks : List Bytes) (sent : List Bytes) (sendError : Nat → Option Error) (closed : Bool) :
    (∀ out, collectV2 ⟨chunks.map .ok, true, sent, sendError, closed⟩ = some (.ok out) ↔
      ∃ frames, Encodes frames chunks.flatten ∧ out = collected frames) ∧
    ((¬∃ frames, Encodes frames chunks.flatten) →
      ∃ message, collectV2 ⟨chunks.map .ok, true, sent, sendError, closed⟩ = some (.error (.protocol message))) ∧
    ∀ frames, Encodes frames chunks.flatten → Parser.default.feed chunks = (.ok frames, Parser.default) := by
  have hEnds : ChannelReader.Ends ⟨chunks.map .ok, true, sent, sendError, closed⟩ chunks := ⟨rfl, rfl⟩
  have hFed : ∀ frames, Encodes frames chunks.flatten → Parser.default.feed chunks = (.ok frames, Parser.default) :=
    fun frames hFrames => Parser.feed_encodes (Or.inl (by decide)) hFrames
  refine ⟨fun out => ⟨fun h => ?_, ?_⟩, fun hNone => ?_, hFed⟩
  · obtain ⟨chunks', frames, ⟨hChunks, -⟩, hFrames, hOut⟩ := collectV2_ok h
    obtain rfl := List.map_injective_iff.mpr (fun a b => Except.ok.inj) hChunks
    exact ⟨frames, hFrames, hOut.trans (foldl_apply frames)⟩
  · rintro ⟨frames, hFrames, rfl⟩
    rw [collectV2_of_ends hEnds, hFed frames hFrames]
    rfl
  · rcases hFeed : Parser.default.feed chunks with ⟨e | frames, parser⟩
    · obtain ⟨message, rfl⟩ := Parser.feed_error hFeed
      exact ⟨message, by rw [collectV2_of_ends hEnds, hFeed]⟩
    · by_cases hPending : parser.pending = 0
      · have hOk : collectV2 ⟨chunks.map .ok, true, sent, sendError, closed⟩ = some (.ok (collected frames)) := by
          rw [collectV2_of_ends hEnds, hFeed]
          simp only [hPending, ne_eq, not_true_eq_false, if_false]
        obtain ⟨chunks', frames', ⟨hChunks, -⟩, hFrames, -⟩ := collectV2_ok hOk
        obtain rfl := List.map_injective_iff.mpr (fun a b => Except.ok.inj) hChunks
        exact absurd ⟨frames', hFrames⟩ hNone
      · refine ⟨s!"{parser.pending} trailing bytes in shell v2 stream", ?_⟩
        rw [collectV2_of_ends hEnds, hFeed]
        simp only [ne_eq, hPending, not_false_eq_true, if_true]

end Rsadb
