import Rsadb.Services.Dialogue
import Rsadb.Services.Shell
import Rsadb.Services.Sync.Client
import Rsadb.Session.Truncation

/-! `shell_v2` and the push of a sync client, call by call. Each is a dialogue
whose parts agree with what the service computes over a whole channel. -/
namespace Rsadb

open ShellV2 Dialogue

/-- A reader whose channel gives one more answer. -/
def ChannelReader.hear (reader : ChannelReader) : Result (Option Bytes) → ChannelReader
  | .ok none => { reader with channel := { reader.channel with ended := true } }
  | .ok (some chunk) =>
      { reader with channel := { reader.channel with incoming := reader.channel.incoming ++ [.ok chunk] } }
  | .error e =>
      { reader with channel := { reader.channel with incoming := reader.channel.incoming ++ [.error e] } }

/-- A command that becomes part of a service name has no NUL. -/
def checkCommand (command : Bytes) : Result Unit :=
  if 0 ∈ command then .error (.invalidArgument "command contains NUL") else .ok ()

/-- One round of `collect_v2`, or what follows its loop. -/
def collectHear : Parser × ShellOutput → Result (Option Bytes) → Heard (Parser × ShellOutput) ShellOutput
  | (parser, out), .ok (some chunk) =>
      match parser.push chunk with
      | (.ok frames, parser) => .more (parser, frames.foldl ShellOutput.apply out)
      | (.error e, _) => .leave (.error e)
  | (parser, out), .ok none =>
      .close (if parser.pending ≠ 0 then
        .error (.protocol s!"{parser.pending} trailing bytes in shell v2 stream") else .ok out)
  | _, .error e => .leave (.error e)

/-- The frames that `shell_v2` sends: the stdin, unless there is none, then its end. -/
def stdinScript (stdin : Bytes) : List (Result Bytes) :=
  (if stdin = [] then [] else [encode .stdin stdin]) ++ [encode .closeStdin []]

/-- What `shell_v2` does with its stream: send the stdin, then collect the output. -/
def shellV2Dialogue (stdin : Bytes) : Dialogue (Parser × ShellOutput) ShellOutput where
  script := stdinScript stdin
  listen := .more (Parser.default, ShellOutput.default)
  hear := collectHear
  owns := true

/-- Run `command` through `shell,v2:` with `stdin` fed to the process, collecting everything. -/
def shellV2 (command stdin : Bytes) : Client (Stage (Parser × ShellOutput) ShellOutput) ShellOutput :=
  (shellV2Dialogue stdin).client (match checkCommand command with
    | .ok () => .opening (ascii "shell,v2:" ++ command)
    | .error e => .returned (.error e))

/-- What follows the loop of `collect_v2`. -/
private def collectEnd (state : Parser × ShellOutput) : Async Error ChannelReader ShellOutput := do
  ChannelReader.onChannel Channel.close
  if state.1.pending ≠ 0 then
    Async.fail (.protocol s!"{state.1.pending} trailing bytes in shell v2 stream")
  else pure state.2

/-- With enough fuel the loop of the collector hears every answer. -/
private theorem collectLoop_attends (stdin : Bytes) (heard : List (Result (Option Bytes))) {fuel : Nat}
    {state : Parser × ShellOutput} (hFuel : (Channel.ofAnswers heard).incoming.length + 1 < fuel) :
    ((Async.whileSome ChannelReader.nextChunk collectChunk fuel state >>= collectEnd)
      ⟨Channel.ofAnswers heard, []⟩).1 = (shellV2Dialogue stdin).attend (.more state) heard := by
  induction heard generalizing fuel state with
  | nil =>
      rcases fuel with _ | fuel
      · cases hFuel
      · rfl
  | cons answer rest ih =>
      obtain ⟨parser, out⟩ := state
      rcases fuel with _ | fuel
      · cases hFuel
      rw [Async.whileSome, Async.bind_assoc]
      rcases answer with e | _ | chunk
      · have hNext : ChannelReader.nextChunk ⟨Channel.ofAnswers (.error e :: rest), []⟩ =
            (some (.error e), ⟨Channel.ofAnswers rest, []⟩) := rfl
        rw [attend, Async.bind_error hNext]
        simp only [shellV2Dialogue, collectHear, attend]
      · have hNext : ChannelReader.nextChunk ⟨Channel.ofAnswers (.ok none :: rest), []⟩ =
            (some (.ok none), ⟨Channel.ofAnswers (.ok none :: rest), []⟩) := rfl
        rw [attend, Async.bind_ok hNext]
        simp only [shellV2Dialogue, collectHear, attend]
        rw [Async.bind_ok (Async.pure_apply _ _)]
        by_cases hPending : parser.pending = 0
        · simp only [hPending, ne_eq, not_true_eq_false, ↓reduceIte]
          rw [collectEnd, hPending]
          rfl
        · simp only [hPending, ne_eq, not_false_eq_true, ↓reduceIte]
          rw [collectEnd]
          simp only [hPending, ne_eq, not_false_eq_true, ↓reduceIte]
          rfl
      · have hNext : ChannelReader.nextChunk ⟨Channel.ofAnswers (.ok (some chunk) :: rest), []⟩ =
            (some (.ok (some chunk)), ⟨Channel.ofAnswers rest, []⟩) := rfl
        rw [attend, Async.bind_ok hNext]
        rcases hPush : parser.push chunk with ⟨e | frames, next⟩
        · have hFail : collectChunk (parser, out) chunk ⟨Channel.ofAnswers rest, []⟩ =
              (some (.error e), ⟨Channel.ofAnswers rest, []⟩) := by
            simp only [collectChunk, hPush]
            rfl
          rw [Async.bind_error (Async.bind_error hFail)]
          simp only [shellV2Dialogue, collectHear, hPush, attend]
        · have hRound : collectChunk (parser, out) chunk ⟨Channel.ofAnswers rest, []⟩ =
              (some (.ok (next, frames.foldl ShellOutput.apply out)), ⟨Channel.ofAnswers rest, []⟩) := by
            simp only [collectChunk, hPush]
            rfl
          rw [Async.bind_assoc, Async.bind_ok hRound, ih (Nat.lt_of_succ_lt_succ hFuel)]
          simp only [shellV2Dialogue, collectHear, hPush]

/-- Collecting the output call by call is `collect_v2` on the channel that gives the same answers. -/
theorem collect_attends (stdin : Bytes) (heard : List (Result (Option Bytes))) :
    collectV2 (Channel.ofAnswers heard) =
      (shellV2Dialogue stdin).attend (shellV2Dialogue stdin).listen heard :=
  collectLoop_attends stdin heard (Nat.lt_succ_self _)

namespace SyncClient

open Sync

/-- The messages that start a push. -/
def startScript (features : SyncFeatures) (path : Bytes) (mode : UInt32) : List (Result Bytes) :=
  if features.sendrecvV2 then
    [request id.SND2 path, .ok (Sync.word id.SND2 mode ++ toLeBytes 0)]
  else [request id.SEND (path ++ ascii "," ++ decimal mode)]

/-- One data chunk for each read of the source, up to its end or its error. -/
def chunkScript : List SourceRead → List (Result Bytes)
  | [] => []
  | .error e :: _ => [.error e]
  | .ok ⟨buf, _⟩ :: rest =>
      if buf.length = 0 then []
      else if buf.length < 2 ^ 32 then
        .ok (Sync.word id.DATA (UInt32.ofNat buf.length) ++ buf) :: chunkScript rest
      else [.error (.protocol "chunk too large")]

/-- All that a push sends. -/
def pushScript (features : SyncFeatures) (path : Bytes) (mode mtime : UInt32)
    (source : List SourceRead) : List (Result Bytes) :=
  startScript features path mode ++ chunkScript source ++ [.ok (Sync.word id.DONE mtime)]

/-- Read the status as far as the reader has it. -/
def awaitStatus (reader : ChannelReader) : Heard ChannelReader Unit :=
  match (readStatus reader).1 with
  | none => .more reader
  | some result => .leave result

/-- What a push does with its stream: send the file, then read the status.
`buffer` is what earlier requests have left in the reader. -/
def pushDialogue (features : SyncFeatures) (path : Bytes) (mode mtime : UInt32)
    (source : List SourceRead) (buffer : Bytes) : Dialogue ChannelReader Unit where
  script := pushScript features path mode mtime source
  listen := awaitStatus ⟨Channel.ofAnswers [], buffer⟩
  hear reader heard := awaitStatus (reader.hear heard)
  owns := false

/-- Push `source` to `path` with the given mode bits and modification time, call by call. -/
def pushing (features : SyncFeatures) (path : Bytes) (mode mtime : UInt32) (source : List SourceRead)
    (buffer : Bytes) : Client (Stage ChannelReader Unit) Unit :=
  let d := pushDialogue features path mode mtime source buffer
  d.client (d.speak d.script)

/-- Send the messages one after the other, up to the first error. -/
def sendAll : List (Result Bytes) → Async Error ChannelReader Unit
  | [] => pure ()
  | message :: rest => do
      let data ← Async.lift message
      ChannelReader.send data
      sendAll rest

theorem sendAll_append (first second : List (Result Bytes)) :
    sendAll (first ++ second) = sendAll first >>= fun _ => sendAll second := by
  induction first with
  | nil => rfl
  | cons message rest ih =>
      simp only [List.cons_append, sendAll, ih, Async.bind_assoc]

private theorem startPush_speaks (features : SyncFeatures) (path : Bytes) (mode : UInt32) :
    startPush features path mode = sendAll (startScript features path mode) := by
  unfold startPush startScript
  split <;> simp only [sendAll, Async.lift_bind, Async.bind_unit]

private theorem pushChunks_speaks (source : List SourceRead) :
    pushChunks source = sendAll (chunkScript source) := by
  induction source with
  | nil => rfl
  | cons read rest ih =>
      rcases read with e | ⟨buf, hBuf⟩
      · rfl
      · unfold pushChunks chunkScript
        split_ifs with hEmpty hFits
        · rfl
        · rw [ih]
          rfl
        · rfl

/-- A push sends its messages in this order and then reads the status. -/
theorem push_speaks (features : SyncFeatures) (path : Bytes) (mode mtime : UInt32)
    (source : List SourceRead) : push features path mode mtime source =
      sendAll (pushScript features path mode mtime source) >>= fun _ => readStatus := by
  have hDone : ∀ message : Bytes, sendAll [.ok message] = ChannelReader.send message := fun message => by
    simp only [sendAll, Async.lift_bind, Async.bind_unit]
  rw [pushScript, sendAll_append, sendAll_append, hDone, ← startPush_speaks, ← pushChunks_speaks]
  simp only [push, Async.bind_assoc]

section

variable {more : List (Result Bytes)} {ended : Bool}

private theorem fail_steady :
    Async.Steady (ChannelReader.Grows more ended) (fail : Async Error ChannelReader Unit) :=
  ChannelReader.readU32_steady.bind fun _ => (ChannelReader.readExact_steady _).bind fun _ => .fail _

theorem readStatus_steady : Async.Steady (ChannelReader.Grows more ended) readStatus := by
  refine (ChannelReader.readExact_steady 4).bind fun reply => ?_
  split
  · exact ChannelReader.readU32_steady.bind fun _ => .pure _
  · split
    · exact fail_steady
    · exact .fail _

/-- A status that is awaited fails when the stream breaks. -/
theorem readStatus_breaks (e : Error) :
    Async.Breaks e (ChannelReader.Grows [.error e] ended) readStatus := by
  refine .bind (ChannelReader.readExact_steady 4) (ChannelReader.readExact_breaks 4 e) fun reply => ?_
  split
  · exact .bind ChannelReader.readU32_steady (ChannelReader.readU32_breaks e) fun _ => .pure _
  · split
    · refine .bind ChannelReader.readU32_steady (ChannelReader.readU32_breaks e) fun len => ?_
      exact .bind (ChannelReader.readExact_steady _) (ChannelReader.readExact_breaks _ e) fun _ => .fail _
    · exact .fail _

end

theorem readStatus_prompt :
    Async.Prompt (fun reader => reader.channel.ended = true) readStatus := by
  refine (ChannelReader.readExact_prompt 4).bind fun reply => ?_
  split
  · exact ChannelReader.readU32_prompt.bind fun _ => .pure _
  · split
    · exact ChannelReader.readU32_prompt.bind fun _ =>
        (ChannelReader.readExact_prompt _).bind fun _ => .fail _
    · exact .fail _

/-- A reader whose channel goes on as another channel does. -/
private def withMore (reader : ChannelReader) (more : Channel) : ChannelReader :=
  { reader with channel := { reader.channel with
      incoming := reader.channel.incoming ++ more.incoming, ended := more.ended } }

private theorem withMore_hear (reader : ChannelReader) {heard : Result (Option Bytes)}
    (hMore : heard ≠ .ok none) (rest : List (Result (Option Bytes))) :
    withMore reader (Channel.ofAnswers (heard :: rest)) =
      withMore (reader.hear heard) (Channel.ofAnswers rest) := by
  rcases heard with e | _ | chunk
  · simp [withMore, Channel.ofAnswers, ChannelReader.hear]
  · exact absurd rfl hMore
  · simp [withMore, Channel.ofAnswers, ChannelReader.hear]

private theorem ofAnswers_eq : ∀ heard : List (Result (Option Bytes)), Channel.ofAnswers heard =
    ⟨(Channel.ofAnswers heard).incoming, (Channel.ofAnswers heard).ended, [], fun _ => none, false⟩
  | [] => rfl
  | .ok none :: _ => rfl
  | .ok (some _) :: rest => by
      rw [Channel.ofAnswers, ofAnswers_eq rest]
  | .error _ :: rest => by
      rw [Channel.ofAnswers, ofAnswers_eq rest]

/-- A status that has been read is the result, whatever comes behind it. -/
private theorem awaitStatus_settled (d : Dialogue ChannelReader Unit) (heard : List (Result (Option Bytes)))
    {reader : ChannelReader} {result : Result Unit} (hOpen : reader.channel.ended = false)
    (hNow : (readStatus reader).1 = some result) :
    (readStatus (withMore reader (Channel.ofAnswers heard))).1 = d.attend (awaitStatus reader) heard := by
  have hGrown : ChannelReader.Grows (Channel.ofAnswers heard).incoming (Channel.ofAnswers heard).ended reader
      (withMore reader (Channel.ofAnswers heard)) := ⟨hOpen, rfl⟩
  rw [(readStatus_steady reader _ hGrown result hNow).1, awaitStatus, hNow, attend]

/-- A reader that is asked again after every answer gives the same result as one that has them all. -/
private theorem awaitStatus_attends {d : Dialogue ChannelReader Unit}
    (hHear : ∀ reader heard, d.hear reader heard = awaitStatus (reader.hear heard))
    (heard : List (Result (Option Bytes))) {reader : ChannelReader} (hOpen : reader.channel.ended = false) :
    (readStatus (withMore reader (Channel.ofAnswers heard))).1 = d.attend (awaitStatus reader) heard := by
  induction heard generalizing reader with
  | nil =>
      cases hNow : (readStatus reader).1 with
      | some result => exact awaitStatus_settled d [] hOpen hNow
      | none =>
          have hSame : withMore reader (Channel.ofAnswers []) = reader := by
            simp [withMore, Channel.ofAnswers, ← hOpen]
          rw [hSame, awaitStatus, hNow, attend]
  | cons answer rest ih =>
      cases hNow : (readStatus reader).1 with
      | some result => exact awaitStatus_settled d _ hOpen hNow
      | none =>
          rw [awaitStatus, hNow, attend, hHear]
          by_cases hEnd : answer = .ok none
          · subst hEnd
            have hLast : withMore reader (Channel.ofAnswers (.ok none :: rest)) = reader.hear (.ok none) := by
              simp [withMore, Channel.ofAnswers, ChannelReader.hear]
            obtain ⟨result, hResult⟩ := Option.ne_none_iff_exists'.mp
              (readStatus_prompt (reader.hear (.ok none)) rfl).1
            rw [hLast, hResult, awaitStatus, hResult, attend]
          · rw [withMore_hear reader hEnd]
            apply ih
            rcases answer with e | _ | chunk
            · exact hOpen
            · exact absurd rfl hEnd
            · exact hOpen

/-- Reading the status call by call is reading it from the channel that gives the same answers. -/
theorem push_attends (features : SyncFeatures) (path : Bytes) (mode mtime : UInt32)
    (source : List SourceRead) (buffer : Bytes) (heard : List (Result (Option Bytes))) :
    (readStatus ⟨Channel.ofAnswers heard, buffer⟩).1 =
      (pushDialogue features path mode mtime source buffer).attend
        (pushDialogue features path mode mtime source buffer).listen heard := by
  have hStart : withMore ⟨Channel.ofAnswers [], buffer⟩ (Channel.ofAnswers heard) =
      ⟨Channel.ofAnswers heard, buffer⟩ := by
    rw [ofAnswers_eq heard]
    rfl
  rw [← hStart]
  exact awaitStatus_attends (fun _ _ => rfl) heard rfl

end SyncClient

end Rsadb
