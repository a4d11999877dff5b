import Rsadb.Fake.Fs
import Rsadb.Library.Chunks
import Rsadb.Services.Sync.Upload

/-! The device side of the `sync:` service over the in-memory file system. The
handler keeps what it was sent and cannot take yet, and takes one message at a time. -/
namespace Rsadb.Fake

open Sync

/-- Where the handler stands in the requests. -/
inductive State where
  | idle
  | receiving (path : Bytes) (mode : UInt32) (data : Bytes)
  | awaitRecvSetup (path : Bytes)
  | awaitSendSetup (path : Bytes)
  deriving DecidableEq

structure SyncHandler where
  fs : Fs
  buffer : Bytes
  state : State
  done : Bool

namespace SyncHandler

def new (fs : Fs) : SyncHandler := ⟨fs, [], .idle, false⟩

def fail (msg : Bytes) : Bytes := Sync.word id.FAIL (UInt32.ofNat msg.length) ++ msg

def emptyStat : Stat := ⟨0, 0, 0, none, none⟩

def missingStat : Stat := ⟨0, 0, 0, some 2, none⟩

/-- The content of a file in frames, or the failure to open it. -/
def recv (fs : Fs) (path : Bytes) : List Bytes :=
  match fs.read path with
  | none => [fail (ascii "open failed: No such file or directory (" ++ path ++ ascii ")")]
  | some data =>
      (Chunks.chunks DATA_MAX data).map (fun c => Sync.word id.DATA (UInt32.ofNat c.length) ++ c) ++
        [Sync.word id.DONE 0]

/-- The reply to a request for the stat of a path. -/
def statReply (fs : Fs) (head path : Bytes) : Bytes :=
  if head = id.STAT then encodeStatV1 id.STAT ((fs.stat path).getD emptyStat)
  else encodeStatV2 head ((fs.stat path).getD missingStat)

/-- One entry of a listing. -/
def listEntry (v2 : Bool) (child : Bytes × Stat) : Bytes :=
  (if v2 then encodeStatV2 id.DNT2 child.2 else encodeStatV1 id.DENT child.2) ++
    toLeBytes (UInt32.ofNat child.1.length) ++ child.1

/-- The reply to a request for the children of a directory. What is no directory has none. -/
def listReply (fs : Fs) (v2 : Bool) (path : Bytes) : List Bytes :=
  ((fs.list path).getD []).map (listEntry v2) ++
    [id.DONE ++ List.replicate ((if v2 then DENT_V2_LEN else DENT_V1_LEN) - 4) 0]

/-- What a request with this text leads to: a new state, and replies. -/
def request (fs : Fs) (head path : Bytes) : State × List Bytes :=
  if head = id.STAT ∨ head = id.STA2 ∨ head = id.LST2 then (.idle, [statReply fs head path])
  else if head = id.LIST ∨ head = id.LIS2 then (.idle, listReply fs (head = id.LIS2) path)
  else if head = id.RECV then (.idle, recv fs path)
  else if head = id.RCV2 then (.awaitRecvSetup path, [])
  else if head = id.SEND then
    (.receiving (pathAndMode path).1 (pathAndMode path).2 [], [])
  else if head = id.SND2 then (.awaitSendSetup path, [])
  else (.idle, [fail (ascii "unknown request " ++ Utf8.lossy head)])

/-- Store what was received. -/
def store (fs : Fs) (path : Bytes) (mode mtime : UInt32) (data : Bytes) : Fs × List Bytes :=
  match fs.write path mode (Int64.ofNat mtime.toNat) data with
  | (.ok (), fs) => (fs, [Sync.word id.OKAY 0])
  | (.error e, fs) => (fs, [fail e])

/-- Try to consume one request; returns replies and whether progress was made. -/
def step (h : SyncHandler) : SyncHandler × List Bytes × Bool :=
  if h.buffer.length < 8 then (h, [], false)
  else
    let head := h.buffer.take 4
    let arg := u32At h.buffer 4
    match h.state with
    | .awaitRecvSetup path =>
        ({ h with buffer := h.buffer.drop 8, state := .idle }, recv h.fs path, true)
    | .awaitSendSetup path =>
        if h.buffer.length < 12 then (h, [], false)
        else ({ h with buffer := h.buffer.drop 12, state := .receiving path arg [] }, [], true)
    | .receiving path mode data =>
        if head = id.DONE then
          let stored := store h.fs path mode arg data
          ({ h with fs := stored.1, buffer := h.buffer.drop 8, state := .idle }, stored.2, true)
        else if head ≠ id.DATA ∨ h.buffer.length < 8 + arg.toNat then (h, [], false)
        else
          ({ h with
              buffer := h.buffer.drop (8 + arg.toNat)
              state := .receiving path mode (data ++ (h.buffer.drop 8).take arg.toNat) }, [], true)
    | .idle =>
        if head = id.QUIT then ({ h with done := true }, [], false)
        else if h.buffer.length < 8 + arg.toNat then (h, [], false)
        else
          let replied := request h.fs head (Utf8.lossy ((h.buffer.drop 8).take arg.toNat))
          ({ h with buffer := h.buffer.drop (8 + arg.toNat), state := replied.1 }, replied.2, true)

/-- The politely closing request waits at the front. -/
def quits (state : State) (buffer : Bytes) : Bool :=
  8 ≤ buffer.length ∧ state = .idle ∧ buffer.take 4 = id.QUIT

/-- Length of the message that begins with the given eight bytes, if it is taken at all. -/
def messageLength : State × Fs × List Bytes → Bytes → Option Nat
  | (.awaitRecvSetup _, _), _ => some 8
  | (.awaitSendSetup _, _), _ => some 12
  | (.receiving .., _), header =>
      if header.take 4 = id.DONE then some 8
      else if header.take 4 = id.DATA then some (8 + (u32At header 4).toNat)
      else none
  | (.idle, _), header =>
      if header.take 4 = id.QUIT then none else some (8 + (u32At header 4).toNat)

/-- Act on a whole message. -/
def accept : State × Fs × List Bytes → Bytes → State × Fs × List Bytes
  | (.awaitRecvSetup path, fs, out), _ => (.idle, fs, out ++ recv fs path)
  | (.awaitSendSetup path, fs, out), message => (.receiving path (u32At message 4) [], fs, out)
  | (.receiving path mode data, fs, out), message =>
      if message.take 4 = id.DONE then
        (.idle, (store fs path mode (u32At message 4) data).1,
          out ++ (store fs path mode (u32At message 4) data).2)
      else (.receiving path mode (data ++ message.drop 8), fs, out)
  | (.idle, fs, out), message =>
      ((request fs (message.take 4) (Utf8.lossy (message.drop 8))).1, fs,
        out ++ (request fs (message.take 4) (Utf8.lossy (message.drop 8))).2)

/-- The handler as a decoder of messages that collects the replies. -/
def requests : Incremental (State × Fs × List Bytes) UInt8 :=
  .ofFrames 8 messageLength (by
    rintro ⟨_ | _ | _ | _, fs, out⟩ header count h
    all_goals
      simp only [messageLength] at h
      try split_ifs at h
    all_goals
      cases h
      omega) accept

/-- The word behind an id is in the front of the message. -/
private theorem u32At_front {message : Bytes} {count : Nat} (h : 8 ≤ count) :
    u32At (message.take count) 4 = u32At message 4 := by
  rw [u32At, u32At, Rsadb.word, Rsadb.word, List.drop_take, List.take_take,
    Nat.min_eq_left (Nat.le_sub_of_add_le h)]

/-- A step of the handler takes a message, or finds none that is whole. -/
theorem step_eq (h : SyncHandler) : h.step =
    match requests.step (h.state, h.fs, []) h.buffer with
    | some ((state, fs, replies), rest) => (⟨fs, rest, state, h.done⟩, replies, true)
    | none => ({ h with done := h.done || quits h.state h.buffer }, [], false) := by
  obtain ⟨fs, buffer, state, done⟩ := h
  have hHead : (buffer.take 8).take 4 = buffer.take 4 := by
    rw [List.take_take]
    rfl
  have hArg : u32At (buffer.take 8) 4 = u32At buffer 4 := u32At_front (Nat.le_refl 8)
  simp only [step, requests, Incremental.ofFrames]
  by_cases hShort : buffer.length < 8
  · simp [hShort, quits, Nat.not_le.mpr hShort]
  · cases state with
    | awaitRecvSetup path =>
        simp [hShort, messageLength, accept]
    | awaitSendSetup path =>
        by_cases hWhole : buffer.length < 12
        · simp [hShort, hWhole, messageLength, quits]
        · simp [hShort, hWhole, messageLength, accept, u32At_front]
    | receiving path mode data =>
        have hAccepted : (buffer.take 8).take 4 = buffer.take 4 := hHead
        by_cases hDone : buffer.take 4 = id.DONE
        · simp [hShort, messageLength, accept, hHead, hArg, hDone]
        · by_cases hData : buffer.take 4 = id.DATA
          · by_cases hWhole : buffer.length < 8 + (u32At buffer 4).toNat
            · simp [hShort, messageLength, hHead, hArg, hData, hWhole, quits, show id.DATA ≠ id.DONE by decide]
            · have hFront : (buffer.take (8 + (u32At buffer 4).toNat)).take 4 = buffer.take 4 := by
                rw [List.take_take, Nat.min_eq_left (by omega)]
              simp [hShort, messageLength, accept, hHead, hArg, hData, hWhole, hFront, List.drop_take,
                show id.DATA ≠ id.DONE by decide]
          · simp [hShort, messageLength, hHead, hDone, hData, quits]
    | idle =>
        by_cases hQuit : buffer.take 4 = id.QUIT
        · simp [hShort, messageLength, hHead, hQuit, quits, Nat.le_of_not_lt hShort]
        · by_cases hWhole : buffer.length < 8 + (u32At buffer 4).toNat
          · simp [hShort, messageLength, hHead, hArg, hQuit, hWhole, quits]
          · have hFront : (buffer.take (8 + (u32At buffer 4).toNat)).take 4 = buffer.take 4 := by
              rw [List.take_take, Nat.min_eq_left (by omega)]
            simp [hShort, messageLength, accept, hHead, hArg, hQuit, hWhole, hFront, List.drop_take]

/-- A step that makes progress takes something off the buffer. -/
theorem step_shrinks {h h' : SyncHandler} {replies : List Bytes} (hStep : h.step = (h', replies, true)) :
    h'.buffer.length < h.buffer.length := by
  rw [step_eq] at hStep
  split at hStep
  · rename_i hTaken
    cases hStep
    exact requests.shrinks hTaken
  · cases hStep

/-- Take requests as long as there are whole ones. -/
def serve (h : SyncHandler) (out : List Bytes) : SyncHandler × List Bytes :=
  match _hStep : h.step with
  | (h', replies, true) => serve h' (out ++ replies)
  | (h', replies, false) => (h', out ++ replies)
  termination_by h.buffer.length
  decreasing_by exact step_shrinks _hStep

/-- One message of the stream: what the device sends in reply. -/
def onData (h : SyncHandler) (data : Bytes) : SyncHandler × List Bytes :=
  serve { h with buffer := h.buffer ++ data } []

/-- All messages of the stream so far: what the handler has become, and all its replies. -/
def receive (h : SyncHandler) (pieces : List Bytes) : SyncHandler × List Bytes :=
  pieces.foldl (fun now piece => ((onData now.1 piece).1, now.2 ++ (onData now.1 piece).2)) (h, [])

/-- The handler that the decoder stands for, with its replies. -/
def ofDecoder (done : Bool) (now : (State × Fs × List Bytes) × Bytes) : SyncHandler × List Bytes :=
  (⟨now.1.2.1, now.2, now.1.1, done || quits now.1.1 now.2⟩, now.1.2.2)

/-- What was replied before has no influence on what is taken. -/
private theorem step_out (state : State) (fs : Fs) (out : List Bytes) (input : Bytes) :
    requests.step (state, fs, out) input = (requests.step (state, fs, []) input).map fun next =>
      ((next.1.1, next.1.2.1, out ++ next.1.2.2), next.2) := by
  have hLength : ∀ header, messageLength (state, fs, out) header = messageLength (state, fs, []) header :=
    fun header => by cases state <;> rfl
  have hAccept : ∀ message, accept (state, fs, out) message =
      ((accept (state, fs, []) message).1, (accept (state, fs, []) message).2.1,
        out ++ (accept (state, fs, []) message).2.2) := fun message => by
    cases state with
    | receiving path mode data =>
        simp only [accept]
        split <;> simp
    | _ => simp [accept]
  simp only [requests, Incremental.ofFrames, hLength]
  split
  · rfl
  · split
    · rfl
    · split
      · rfl
      · rw [hAccept]
        rfl

/-- Replies are put behind those that there are. -/
private theorem drain_out (state : State) (fs : Fs) (out : List Bytes) (input : Bytes) :
    requests.drain (state, fs, out) input =
      (((requests.drain (state, fs, []) input).1.1, (requests.drain (state, fs, []) input).1.2.1,
        out ++ (requests.drain (state, fs, []) input).1.2.2), (requests.drain (state, fs, []) input).2) := by
  induction hLength : input.length using Nat.strongRecOn generalizing state fs out input with
  | _ length ih =>
      have hStep := step_out state fs out input
      cases hTaken : requests.step (state, fs, []) input with
      | none =>
          rw [hTaken] at hStep
          rw [Incremental.drain_of_none hTaken, Incremental.drain_of_none hStep, List.append_nil]
      | some next =>
          obtain ⟨⟨state', fs', replies⟩, rest⟩ := next
          rw [hTaken] at hStep
          have hShorter := hLength ▸ requests.shrinks hTaken
          rw [Incremental.drain_of_some hTaken, Incremental.drain_of_some hStep,
            ih rest.length hShorter state' fs' (out ++ replies) rest rfl,
            ih rest.length hShorter state' fs' replies rest rfl, List.append_assoc]

/-- Serving takes what the decoder takes. -/
theorem serve_eq (h : SyncHandler) (out : List Bytes) :
    serve h out = ofDecoder h.done (requests.drain (h.state, h.fs, out) h.buffer) := by
  induction hLength : h.buffer.length using Nat.strongRecOn generalizing h out with
  | _ length ih =>
      have hStep := step_eq h
      cases hTaken : requests.step (h.state, h.fs, []) h.buffer with
      | none =>
          have hStuck : requests.step (h.state, h.fs, out) h.buffer = none := by
            rw [step_out, hTaken]
            rfl
          rw [hTaken] at hStep
          rw [Incremental.drain_of_none hStuck, serve]
          split
          · rename_i hProgress
            rw [hStep] at hProgress
            cases hProgress
          · rename_i hStopped
            rw [hStep] at hStopped
            cases hStopped
            simp [ofDecoder]
      | some next =>
          obtain ⟨⟨state, fs, replies⟩, rest⟩ := next
          have hMoved : requests.step (h.state, h.fs, out) h.buffer =
              some ((state, fs, out ++ replies), rest) := by
            rw [step_out, hTaken]
            rfl
          rw [hTaken] at hStep
          rw [Incremental.drain_of_some hMoved, serve]
          split
          · rename_i hProgress
            rw [hStep] at hProgress
            cases hProgress
            exact ih rest.length (hLength ▸ requests.shrinks hTaken) ⟨fs, rest, state, h.done⟩ _ rfl
          · rename_i hStopped
            rw [hStep] at hStopped
            cases hStopped

/-- A closing request at the front stays there. -/
private theorem quits_feed {now : (State × Fs × List Bytes) × Bytes} (h : quits now.1.1 now.2) (piece : Bytes) :
    requests.feed now piece = (now.1, now.2 ++ piece) ∧ quits now.1.1 (now.2 ++ piece) := by
  obtain ⟨⟨state, fs, out⟩, buffer⟩ := now
  simp only [quits, Bool.decide_and, Bool.and_eq_true, decide_eq_true_eq] at h ⊢
  obtain ⟨hEnough, rfl, hQuit⟩ := h
  have hMore : 8 ≤ (buffer ++ piece).length := by
    rw [List.length_append]
    omega
  have hFront : (buffer ++ piece).take 4 = id.QUIT := by
    rw [List.take_append_of_le_length (by omega), hQuit]
  refine ⟨?_, hMore, rfl, hFront⟩
  apply Incremental.drain_of_none
  have hHead : ((buffer ++ piece).take 8).take 4 = id.QUIT := by
    rw [List.take_take, ← hFront]
    rfl
  simp only [requests, Incremental.ofFrames, messageLength, hHead, if_neg (Nat.not_lt.mpr hMore), ↓reduceIte]

/-- However the stream is cut into messages, the handler ends where the decoder
ends on the whole of it, with the same replies. -/
theorem receive_new (fs : Fs) (pieces : List Bytes) :
    receive (new fs) pieces = ofDecoder false (requests.drain (.idle, fs, []) pieces.flatten) := by
  have hFold : ∀ now, pieces.foldl (fun now piece =>
      ((onData now.1 piece).1, now.2 ++ (onData now.1 piece).2)) (ofDecoder false now) =
      ofDecoder false (pieces.foldl requests.feed now) := by
    induction pieces with
    | nil => exact fun _ => rfl
    | cons piece pieces ih =>
        intro now
        rw [List.foldl_cons, List.foldl_cons, ← ih]
        congr 1
        obtain ⟨⟨state, fs, out⟩, buffer⟩ := now
        have hData : onData (ofDecoder false ((state, fs, out), buffer)).1 piece =
            ofDecoder (quits state buffer) (requests.feed ((state, fs, []), buffer) piece) := by
          rw [onData, serve_eq]
          rfl
        have hFeed : requests.feed ((state, fs, out), buffer) piece =
            (((requests.feed ((state, fs, []), buffer) piece).1.1,
              (requests.feed ((state, fs, []), buffer) piece).1.2.1,
              out ++ (requests.feed ((state, fs, []), buffer) piece).1.2.2),
              (requests.feed ((state, fs, []), buffer) piece).2) := drain_out state fs out (buffer ++ piece)
        rw [hData, hFeed]
        cases hQuit : quits state buffer with
        | false => rfl
        | true =>
            obtain ⟨hSame, hStill⟩ := @quits_feed ((state, fs, []), buffer) hQuit piece
            simp [ofDecoder, hSame, hStill]
  rw [receive, ← Incremental.feed_flatten, ← hFold]
  rfl

end SyncHandler
end Rsadb.Fake
