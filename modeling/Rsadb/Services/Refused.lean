import Rsadb.Services.Interrupted
import Rsadb.Services.Sync.Exchange

/-! A push that the device refuses before it has returned. Whether the failure is
reported depends on where the close finds the push: once the last `send` is
bound to see its acknowledgement the answer is read, and before that it is lost. -/
namespace Rsadb

open Dialogue

/-- Between two calls, or in a `recv` that has taken a chunk. -/
def Owner.Receiving : Owner → Prop
  | .idle | .took _ | .acking _ _ => True
  | _ => False

/-- A `recv` fails only where nothing can be posted any more. -/
theorem Move.broken {maxPayload : UInt32} {outboxOpen : Bool} {state : StreamState} {owner : Owner}
    {p : OwnerStep} {e : Error} (h : Move maxPayload outboxOpen state owner p)
    (hFailed : .returned (.recvFailed e) ∈ p.reports) :
    outboxOpen = false := by
  cases h with
  | unheard hOpen => exact hOpen
  | unrequested | refused | left | droppedClosed => simp [Owner.leave] at hFailed
  | _ => simp at hFailed

namespace SyncClient

open Sync ChannelReader

variable {features : SyncFeatures} {path buffer message : Bytes} {mode mtime : UInt32} {source : List SourceRead}

/-- The reader of a push that has heard these chunks. -/
def listener (buffer : Bytes) (heard : List Bytes) : ChannelReader :=
  ⟨⟨heard.map .ok, false, [], fun _ => none, false⟩, buffer⟩

theorem listener_hear (buffer : Bytes) (heard : List Bytes) (chunk : Bytes) :
    (listener buffer heard).hear (.ok (some chunk)) = listener buffer (heard ++ [chunk]) := by
  simp [listener, ChannelReader.hear]

/-- A listener with the whole failure reports it. -/
theorem readStatus_refused (hFits : message.length < 2 ^ 32) {heard : List Bytes} {rest : Bytes}
    (h : buffer ++ heard.flatten = failFrame message ++ rest) :
    (readStatus (listener buffer heard)).1 = some (.error (.remoteFailure (Utf8.lossy message))) := by
  have hHolds : (listener buffer heard).HoldsBefore [] (failFrame message ++ rest) :=
    ⟨heard, (List.append_nil _).symm, h⟩
  obtain ⟨next, hRead, -⟩ := readStatus_fail hFits _ _ hHolds
  rw [hRead]

/-- Whatever a listener reports when only a part of the failure has come is the failure. -/
theorem readStatus_settled (hFits : message.length < 2 ^ 32) {heard : List Bytes} {more rest : Bytes}
    {result : Result Unit} (h : buffer ++ heard.flatten ++ more = failFrame message ++ rest)
    (hNow : (readStatus (listener buffer heard)).1 = some result) :
    result = .error (.remoteFailure (Utf8.lossy message)) := by
  have hGrows : Grows [.ok more] false (listener buffer heard) (listener buffer (heard ++ [more])) :=
    ⟨rfl, by simp [listener]⟩
  have hThen := (readStatus_steady _ _ hGrows _ hNow).1
  have hWhole : buffer ++ (heard ++ [more]).flatten = failFrame message ++ rest := by
    simpa using h
  rw [readStatus_refused hFits hWhole] at hThen
  exact (Option.some.inj hThen).symm

/-- A listener that still waits fails when a `recv` does. -/
theorem readStatus_broken {heard : List Bytes} (hWaits : (readStatus (listener buffer heard)).1 = none)
    (e : Error) : (readStatus ((listener buffer heard).hear (.error e))).1 = some (.error e) :=
  @readStatus_breaks false e (listener buffer heard) _ ⟨rfl, rfl⟩ hWaits

private theorem word_ne_nil {id : Bytes} (hId : id.length = 4) (value : UInt32) (rest : Bytes) :
    Sync.word id value ++ rest ≠ [] := by
  intro hNone
  have hLength := congrArg List.length hNone
  simp [Sync.word, hId] at hLength

private theorem request_ne_nil {id path data : Bytes} (hId : id.length = 4)
    (h : .ok data = Sync.request id path) : data ≠ [] := by
  unfold Sync.request at h
  split_ifs at h
  cases h
  exact word_ne_nil hId _ path

private theorem request_error {id path : Bytes} {e : Error} (h : .error e = Sync.request id path) :
    ∃ text, e = .invalidArgument text := by
  unfold Sync.request at h
  split_ifs at h
  cases h
  exact ⟨_, rfl⟩

/-- The data chunks of a push: none is empty, and an error is its own or the source's. -/
private theorem mem_chunkScript {entry : Result Bytes} (h : entry ∈ chunkScript source) :
    (∃ data, data ≠ [] ∧ entry = .ok data) ∨ (∃ text, entry = .error (.protocol text)) ∨
      ∃ e, entry = .error e ∧ .error e ∈ source := by
  induction source with
  | nil => cases h
  | cons read rest ih =>
      rcases read with failed | ⟨buf, hBuf⟩
      · exact Or.inr (Or.inr ⟨failed, List.mem_singleton.mp h, List.mem_cons_self⟩)
      · unfold chunkScript at h
        split_ifs at h with hEmpty hLength
        · cases h
        · rcases List.mem_cons.mp h with hFirst | hRest
          · exact Or.inl ⟨_, word_ne_nil (by decide) _ buf, hFirst⟩
          · rcases ih hRest with hChunk | hLong | hFailed
            · exact Or.inl hChunk
            · exact Or.inr (Or.inl hLong)
            · obtain ⟨e, hEntry, hMember⟩ := hFailed
              exact Or.inr (Or.inr ⟨e, hEntry, List.mem_cons_of_mem _ hMember⟩)
        · exact Or.inr (Or.inl ⟨_, List.mem_singleton.mp h⟩)

/-- No message of a push is empty. -/
theorem pushScript_nonempty {data : Bytes}
    (h : .ok data ∈ pushScript features path mode mtime source) : data ≠ [] := by
  rw [pushScript, List.mem_append, List.mem_append, List.mem_singleton] at h
  rcases h with (hStart | hChunk) | hDone
  · unfold startScript at hStart
    split_ifs at hStart
    · rcases List.mem_cons.mp hStart with hFirst | hRest
      · exact request_ne_nil (by decide) hFirst
      · cases List.mem_singleton.mp hRest
        exact word_ne_nil (by decide) _ _
    · exact request_ne_nil (by decide) (List.mem_singleton.mp hStart)
  · rcases mem_chunkScript hChunk with ⟨chunk, hSome, hEntry⟩ | ⟨text, hEntry⟩ | ⟨e, hEntry, -⟩ <;>
      cases hEntry
    exact hSome
  · cases hDone
    simpa using word_ne_nil (by decide) mtime []

/-- An error in the script of a push is its own, or one of the source's. -/
theorem pushScript_errors {e : Error} (h : .error e ∈ pushScript features path mode mtime source) :
    (∃ text, e = .invalidArgument text) ∨ (∃ text, e = .protocol text) ∨ .error e ∈ source := by
  rw [pushScript, List.mem_append, List.mem_append, List.mem_singleton] at h
  rcases h with (hStart | hChunk) | hDone
  · unfold startScript at hStart
    split_ifs at hStart
    · rcases List.mem_cons.mp hStart with hFirst | hRest
      · exact Or.inl (request_error hFirst)
      · cases List.mem_singleton.mp hRest
    · exact Or.inl (request_error (List.mem_singleton.mp hStart))
  · rcases mem_chunkScript hChunk with ⟨chunk, -, hEntry⟩ | ⟨text, hEntry⟩ | ⟨failed, hEntry, hMember⟩ <;>
      cases hEntry
    · exact Or.inr (Or.inl ⟨text, rfl⟩)
    · exact Or.inr (Or.inr hMember)
  · cases hDone

end SyncClient

namespace Session

open SyncClient Sync

variable {features : SyncFeatures} {path buffer message total : Bytes} {mode mtime : UInt32}
  {source : List SourceRead} {maxPayload : UInt32} {ref : Ref} {earlier trace prior : List Event}
  {before now s : Session}

/-- What a push can read of the `total` that there is to read: the buffer and
what it has heard, what its `recv` holds and what is queued. While it sends it has
heard nothing. -/
def Hears (buffer total : Bytes) : Stage ChannelReader Unit → StreamState → Owner → Prop
  | .sending _ _, state, owner =>
      (owner = .idle ∨ owner.Sending) ∧ buffer ++ state.queue.flatten = total
  | .reading reader, state, owner => owner.Receiving ∧ ∃ heard, reader = listener buffer heard ∧
      (readStatus reader).1 = none ∧
      buffer ++ heard.flatten ++ owner.held.flatten ++ state.queue.flatten = total
  | .returned _, _, owner => owner = .idle
  | _, _, _ => False

/-- The owner of a push has its stream, and does not let go of it. -/
theorem hears_owner {stage : Stage ChannelReader Unit} {state : StreamState} {owner : Owner}
    (h : Hears buffer total stage state owner) :
    owner.Alive ∧ (∀ service, owner ≠ .inserting service) ∧ ∀ remote final, owner ≠ .removing remote final := by
  cases stage with
  | opening | closing | dropping => exact h.elim
  | returned result =>
      rw [show owner = .idle from h]
      exact ⟨trivial, by simp, by simp⟩
  | sending data rest =>
      rcases h.1 with rfl | hSending
      · exact ⟨trivial, by simp, by simp⟩
      · cases owner <;> first
          | exact hSending.elim
          | exact ⟨trivial, by simp, by simp⟩
  | reading reader =>
      cases owner <;> first
        | exact h.1.elim
        | exact ⟨trivial, by simp, by simp⟩

/-- A listener that has what came reads on, or returns. -/
theorem hears_heard {state : StreamState} {heard : List Bytes}
    (h : buffer ++ heard.flatten ++ state.queue.flatten = total) :
    Hears buffer total ((pushDialogue features path mode mtime source buffer).settle
      (awaitStatus (listener buffer heard))) state .idle := by
  unfold awaitStatus
  cases hNow : (readStatus (listener buffer heard)).1 with
  | some result => rfl
  | none => exact ⟨trivial, heard, rfl, hNow, by simpa [Owner.held] using h⟩

theorem hears_speak {state : StreamState} {rest : List (Result Bytes)}
    (h : buffer ++ state.queue.flatten = total) :
    Hears buffer total ((pushDialogue features path mode mtime source buffer).speak rest) state .idle := by
  rcases rest with _ | ⟨e | data, rest⟩
  · exact @hears_heard features path buffer total mode mtime source state [] (by simpa using h)
  · rfl
  · exact ⟨Or.inl rfl, h⟩

/-- What the owner of a push does when it reads. -/
inductive Hearing (outboxOpen : Bool) (state : StreamState) : Owner → OwnerStep → Prop
  | take {chunk : Bytes} {rest : List Bytes} (hQueue : state.queue = chunk :: rest) :
      Hearing outboxOpen state .idle ⟨{ state with queue := rest }, .took chunk, .nothing, [.took chunk]⟩
  | finish (hQueue : state.queue = []) : Hearing outboxOpen state .idle
      ⟨state, .idle, .nothing, [.returned (.received none)]⟩
  | address {chunk : Bytes} {remote : UInt32} (hOpen : state.closed = false) :
      Hearing outboxOpen state (.took chunk) ⟨state, .acking chunk remote, .nothing, []⟩
  | give {owner : Owner} {chunk : Bytes} {effect : Effect} (hHeld : owner.held = [chunk])
      (hEffect : effect = .nothing ∨ ∃ msg, effect = .post msg) :
      Hearing outboxOpen state owner ⟨state, .idle, effect, [.returned (.received (some chunk))]⟩
  | broken {chunk : Bytes} {remote : UInt32} (hOpen : outboxOpen = false) :
      Hearing outboxOpen state (.acking chunk remote)
        ⟨state, .idle, .nothing, [.returned (.recvFailed .disconnected)]⟩

theorem hearing_of_recv {outboxOpen : Bool} {state : StreamState} {p : OwnerStep}
    (h : Owner.begin state .recv = some p) : Hearing outboxOpen state .idle p := by
  simp only [Owner.begin] at h
  split at h
  · rename_i hQueue
    cases h
    exact .take hQueue
  · rename_i hQueue
    split at h <;> cases h
    exact .finish hQueue

theorem hearing_of_advance {outboxOpen : Bool} {state : StreamState} {owner : Owner} {p : OwnerStep}
    (hReceiving : owner.Receiving) (h : owner.advance maxPayload outboxOpen state = some p) :
    Hearing outboxOpen state owner p := by
  cases Owner.advance_move h with
  | acknowledging hOpen => exact .address hOpen
  | unacknowledging => exact .give rfl (Or.inl rfl)
  | acknowledged => exact .give rfl (Or.inr ⟨_, rfl⟩)
  | unheard hOpen => exact .broken hOpen
  | @unanswered purpose | @parked purpose | @woken purpose => exact hReceiving.elim
  | received | exhausted | sentNothing | sendBegun | closedAlready | droppedClosed | closing => cases h
  | _ => exact hReceiving.elim

/-- A push that hears of a broken connection returns that. -/
theorem settle_broken {heard : List Bytes} (hWaits : (readStatus (listener buffer heard)).1 = none) (e : Error) :
    (pushDialogue features path mode mtime source buffer).settle
      (awaitStatus ((listener buffer heard).hear (.error e))) = .returned (.error e) := by
  rw [awaitStatus, readStatus_broken hWaits e]
  rfl

/-- What a push hears from its `recv`, read off the step of its owner. -/
theorem hears_reading {outboxOpen : Bool} {state : StreamState} {owner : Owner} {p : OwnerStep}
    {reader : ChannelReader} (hHears : Hears buffer total (.reading reader) state owner)
    (h : Hearing outboxOpen state owner p) :
    Hears buffer total (p.returns.foldl (pushDialogue features path mode mtime source buffer).resume
      (.reading reader)) p.state p.owner := by
  obtain ⟨hReceiving, heard, rfl, hWaits, hTotal⟩ := hHears
  cases h with
  | take hQueue =>
      refine ⟨trivial, heard, rfl, hWaits, ?_⟩
      rw [hQueue] at hTotal
      simpa [Owner.held] using hTotal
  | finish hQueue =>
      -- At the end of the stream no reading waits.
      obtain ⟨result, hResult⟩ := Option.ne_none_iff_exists'.mp
        (readStatus_prompt ((listener buffer heard).hear (.ok none)) rfl).1
      change Hears buffer total ((pushDialogue features path mode mtime source buffer).settle
        (awaitStatus ((listener buffer heard).hear (.ok none)))) state .idle
      rw [awaitStatus, hResult]
      rfl
  | address => exact ⟨trivial, heard, rfl, hWaits, hTotal⟩
  | @give _ chunk _ hHeld =>
      change Hears buffer total ((pushDialogue features path mode mtime source buffer).settle
        (awaitStatus ((listener buffer heard).hear (.ok (some chunk))))) state .idle
      rw [listener_hear]
      refine hears_heard ?_
      rw [hHeld] at hTotal
      simpa using hTotal
  | broken =>
      change Hears buffer total ((pushDialogue features path mode mtime source buffer).settle
        (awaitStatus ((listener buffer heard).hear (.error .disconnected)))) state .idle
      rw [settle_broken hWaits]
      rfl

/-- A `send` of a push hears nothing. -/
theorem hears_sending {outboxOpen : Bool} {state : StreamState} {owner : Owner} {p : OwnerStep} {data : Bytes}
    {rest : List (Result Bytes)} (hHears : Hears buffer total (.sending data rest) state owner)
    (h : owner.advance maxPayload outboxOpen state = some p) :
    Hears buffer total (p.returns.foldl (pushDialogue features path mode mtime source buffer).resume
      (.sending data rest)) p.state p.owner ∧ ∀ e, .returned (.recvFailed e) ∉ p.reports := by
  obtain ⟨hStands, hTotal⟩ := hHears
  have hSending : owner.Sending := hStands.resolve_left (by rintro rfl; cases h)
  cases Owner.advance_move h with
  | completed => exact ⟨hears_speak hTotal, by simp⟩
  | interrupted | shutOut | unwritten => exact ⟨rfl, by simp⟩
  | addressed | counted | wrote | continued => exact ⟨⟨Or.inr trivial, hTotal⟩, by simp⟩
  | @unanswered purpose | @parked purpose | @woken purpose =>
      cases purpose with
      | opening => exact hSending.elim
      | writing => exact ⟨⟨Or.inr trivial, hTotal⟩, by simp⟩
  | received | exhausted | sentNothing | sendBegun | closedAlready | droppedClosed | closing => cases h
  | _ => exact hSending.elim

/-- A step of the owner of a push, in a call that the push asked for. -/
inductive PushStep (outboxOpen : Bool) (state : StreamState) (owner : Owner) (p : OwnerStep) :
    Stage ChannelReader Unit → Prop
  | begins {data : Bytes} {rest : List (Result Bytes)} (hIdle : owner = .idle)
      (hBegin : Owner.begin state (.send data) = some p) : PushStep outboxOpen state owner p (.sending data rest)
  | sends {maxPayload : UInt32} {data : Bytes} {rest : List (Result Bytes)}
      (hAdvance : owner.advance maxPayload outboxOpen state = some p) :
      PushStep outboxOpen state owner p (.sending data rest)
  | reads {reader : ChannelReader} (hHearing : Hearing outboxOpen state owner p) :
      PushStep outboxOpen state owner p (.reading reader)

/-- What the owner does is a step of the push. -/
theorem push_step {s' : Session} {action : Action} {events : List Event} {stage : Stage ChannelReader Unit}
    (hHears : Hears buffer total stage (s.streams ref) (s.owners ref))
    (hCourteous : Courteous ref trace s action) (hCalls : ∀ c ∈ clientCall ref s action, asks stage = some c)
    (hTaken : s.step action = some (s', events)) (hActor : action.actor = some ref) :
    ∃ p, s'.streams ref = p.state ∧ s'.owners ref = p.owner ∧ events = Session.events ref p ∧
      PushStep s.outboxOpen (s.streams ref) (s.owners ref) p stage := by
  have hKept : action ≠ .cancel ref := by
    rintro rfl
    exact absurd rfl hCourteous
  obtain ⟨p, rfl, rfl, hMove⟩ := step_own hTaken hActor hKept
  obtain ⟨hState, hOwner⟩ := perform_self s ref p
  refine ⟨p, hState, hOwner, rfl, ?_⟩
  rcases hMove with ⟨call, hAction, hIdle, hBegin⟩ | hAdvance
  · have hAsks := hCalls (.use call) (by simp [clientCall, hAction])
    cases stage with
    | opening | closing | dropping => exact hHears.elim
    | returned => cases hAsks
    | sending data rest =>
        cases hAsks
        exact .begins hIdle hBegin
    | reading reader =>
        cases hAsks
        rw [hIdle]
        exact .reads (hearing_of_recv hBegin)
  · cases stage with
    | opening | closing | dropping => exact hHears.elim
    | returned =>
        rw [show s.owners ref = .idle from hHears] at hAdvance
        cases hAdvance
    | sending data rest => exact .sends hAdvance
    | reading reader => exact .reads (hearing_of_advance hHears.1 hAdvance)

/-- A push still knows what it can read after its own steps. When a `recv` fails it returns. -/
theorem hears_own {outboxOpen : Bool} {state : StreamState} {owner : Owner} {p : OwnerStep}
    {stage : Stage ChannelReader Unit} (hHears : Hears buffer total stage state owner)
    (h : PushStep outboxOpen state owner p stage) :
    Hears buffer total (p.returns.foldl (pushDialogue features path mode mtime source buffer).resume stage)
      p.state p.owner ∧
    ∀ e, .returned (.recvFailed e) ∈ p.reports →
      p.returns.foldl (pushDialogue features path mode mtime source buffer).resume stage = .returned (.error e) := by
  cases h with
  | @begins data rest hIdle hBegin =>
      cases data with
      | nil =>
          cases hBegin
          exact ⟨hears_speak hHears.2, by simp⟩
      | cons head tail =>
          cases hBegin
          exact ⟨⟨Or.inr trivial, hHears.2⟩, by simp⟩
  | sends hAdvance =>
      obtain ⟨hNext, hNone⟩ := @hears_sending features path _ _ mode mtime source _ _ _ _ _ _ _ hHears hAdvance
      exact ⟨hNext, fun e hMember => absurd hMember (hNone e)⟩
  | reads hHearing =>
      refine ⟨hears_reading hHears hHearing, fun e hMember => ?_⟩
      obtain ⟨-, heard, rfl, hWaits, -⟩ := hHears
      cases hHearing with
      | broken =>
          obtain rfl : e = .disconnected := by simpa using hMember
          exact settle_broken hWaits _
      | _ => simp at hMember

/-- What others deliver is more to read. -/
theorem hears_apart {stage : Stage ChannelReader Unit} {state state' : StreamState} {owner : Owner}
    {more : List Bytes} (hHears : Hears buffer total stage state owner)
    (hQueue : state'.queue = state.queue ++ more) :
    Hears buffer (total ++ more.flatten) stage state' owner := by
  cases stage with
  | opening | closing | dropping => exact hHears
  | returned => exact hHears
  | sending data rest =>
      obtain ⟨hStands, rfl⟩ := hHears
      exact ⟨hStands, by rw [hQueue, List.flatten_append, List.append_assoc]⟩
  | reading reader =>
      obtain ⟨hReceiving, heard, hReader, hWaits, rfl⟩ := hHears
      refine ⟨hReceiving, heard, hReader, hWaits, ?_⟩
      rw [hQueue, List.flatten_append, List.append_assoc _ _ more.flatten]

/-- What an owner reports is in its step. -/
theorem report_of_events {ref : Ref} {p : OwnerStep} {report : Report}
    (h : .owner ref report ∈ Session.events ref p) : report ∈ p.reports := by
  rcases List.mem_append.mp h with hEffect | hOwn
  · cases hCase : p.effect <;> simp [hCase] at hEffect
  · simpa using hOwn

/-- A `recv` fails only where the writer has ended. -/
theorem writer_of_recvFailed {s' : Session} {action : Action} {events : List Event} {e : Error}
    (hNamed : s.Named) (hTaken : s.step action = some (s', events))
    (hFailed : .owner ref (.returned (.recvFailed e)) ∈ events) : s.writer = .ended := by
  have hActor := (step_cause hNamed hTaken).acted ref _ hFailed
  have hKept : action ≠ .cancel ref := by
    rintro rfl
    cases step_cases hTaken
    simp at hFailed
  obtain ⟨p, -, rfl, hMove⟩ := step_own hTaken hActor hKept
  have hReport := report_of_events hFailed
  rcases hMove with ⟨call, -, -, hBegin⟩ | hAdvance
  · cases (@Owner.begin_move s.maxPayload true _ _ _ hBegin).broken hReport
  · simpa [outboxOpen] using (Owner.advance_move hAdvance).broken hReport

/-- As long as the writer runs no `recv` has failed. -/
theorem noRecvError_of_open {allowed : List Event → Session → Action → Prop}
    (hRun : Transition.Runs step allowed (start maxPayload) trace s) (hOpen : s.outboxOpen = true) :
    NoRecvError ref trace := by
  intro e hFailed
  have hEnded : .owner ref (.returned (.recvFailed e)) ∈ trace → s.writer = .ended := by
    clear hFailed hOpen
    induction hRun with
    | start =>
        intro hFailed
        cases hFailed
    | next hBefore _ hTaken ih =>
        intro hFailed
        rcases List.mem_append.mp hFailed with hOld | hNew
        · exact writer_ended hTaken (ih hOld)
        · exact writer_ended hTaken (writer_of_recvFailed (named_of_runs hBefore).1 hTaken hNew)
  simp [outboxOpen, hEnded hFailed] at hOpen

/-- Where an owner reports nothing no call returns. -/
theorem returns_apart {ref : Ref} {events : List Event} (hNoReport : ∀ report, .owner ref report ∉ events) :
    events.filterMap (Event.returns ref) = [] := by
  refine List.filterMap_eq_nil_iff.mpr fun event hMember => ?_
  cases event with
  | owner other report =>
      by_cases hOther : other = ref
      · exact absurd (hOther ▸ hMember) (hNoReport report)
      · cases report <;> first | rfl | exact if_neg hOther
  | _ => rfl

theorem delivered_append (ref : Ref) (trace events : List Event) :
    delivered ref (trace ++ events) =
      delivered ref trace ++ (events.filterMap (Event.delivery ref)).flatten := by
  rw [delivered, List.filterMap_append, List.flatten_append]
  rfl

/-- What there is to read for a push: what earlier requests have left, and what has been delivered since. -/
def unread (buffer : Bytes) (ref : Ref) (before : Session) (trace : List Event) : Bytes :=
  buffer ++ (before.streams ref).queue.flatten ++ delivered ref trace

/-- A push knows at any time what it can read. As long as it has not returned, no `recv` has failed. -/
theorem hears_of_runs
    (h : ClientRun (pushing features path mode mtime source buffer) maxPayload ref earlier before trace s)
    (hIdle : before.owners ref = .idle) :
    Hears buffer (unread buffer ref before trace) (stage (pushing features path mode mtime source buffer) ref trace)
      (s.streams ref) (s.owners ref) ∧
    ((∀ result, stage (pushing features path mode mtime source buffer) ref trace ≠ .returned result) →
      NoRecvError ref trace) := by
  refine @ClientRun.invariant _ _ _ _ _ _ _ _ _ (fun trace stage s =>
    Hears buffer (unread buffer ref before trace) stage (s.streams ref) (s.owners ref) ∧
      ((∀ result, stage ≠ .returned result) → NoRecvError ref trace)) ?_ ?_ h
  · refine ⟨?_, fun _ e hMember => by cases hMember⟩
    rw [hIdle]
    exact hears_speak (by simp [unread, delivered])
  rintro trace events s s' action hRun hCourteous hCalls hTaken ⟨hHears, hSilent⟩
  obtain ⟨hNamed, -⟩ := named_of_runs hRun.whole
  by_cases hActor : action.actor = some ref
  · obtain ⟨p, hState, hOwner, rfl, hPush⟩ := push_step hHears hCourteous hCalls hTaken hActor
    obtain ⟨hNext, hFailed⟩ := @hears_own features path _ _ mode mtime source _ _ _ _ _ hHears hPush
    rw [returns_events, unread, delivered_append, delivery_events, hState, hOwner, List.flatten_nil,
      List.append_nil]
    refine ⟨hNext, fun hGoes e hMember => ?_⟩
    rcases List.mem_append.mp hMember with hOld | hNew
    · refine hSilent (fun result hStage => ?_) e hOld
      rw [hStage] at hPush
      cases hPush
    · exact hGoes _ (hFailed e (report_of_events hNew))
  · obtain ⟨hAlive, -, hStays⟩ := hears_owner hHears
    have hBorn : s.owners ref ≠ .unborn := by
      intro hUnborn
      rw [hUnborn] at hAlive
      exact hAlive
    have hListens : s.Registered ref → ((s.streams ref).dataTx && (s.streams ref).dataRx) = true := by
      intro hRegistered
      have hOpen := ((intact_of_runs hRun.whole ref).unclosed hRegistered).resolve_right
        fun ⟨remote, final, hRemoving⟩ => hStays remote final hRemoving
      have hFlag := flag_of_runs hRun.whole ref
      rw [show (s.streams ref).closed = false from hOpen] at hFlag
      rw [listening_of_runs hRun.whole ref hAlive, Bool.and_true, ← Bool.not_eq_false', ← hFlag]
    obtain ⟨hOwner, hNoReport, -, hQueue, -⟩ := step_apart hNamed hTaken hActor hBorn
    rw [returns_apart hNoReport, unread, delivered_append, ← List.append_assoc, hOwner]
    refine ⟨hears_apart hHears (hQueue hListens), fun hGoes e hMember => ?_⟩
    rcases List.mem_append.mp hMember with hOld | hNew
    · exact hSilent hGoes e hOld
    · exact hNoReport _ hNew

/-- All messages are sent and the last `send` has returned, or it is bound to see its acknowledgement. -/
def Sent : Stage ChannelReader Unit → StreamState → Owner → Prop
  | .reading _, _, _ => True
  | .sending _ rest, state, owner => rest = [] ∧ owner.Concluding state
  | _, _, _ => False

instance (stage : Stage ChannelReader Unit) (state : StreamState) (owner : Owner) :
    Decidable (Sent stage state owner) := by
  cases stage <;> unfold Sent <;> infer_instance

/-- Where a push stands after the close that will hear the failure: its last
`send` is bound to see the acknowledgement, or it reads, or it has returned. It
returns the failure, unless a `recv` has failed. -/
def Told (ref : Ref) (message : Bytes) (trace : List Event) :
    Stage ChannelReader Unit → StreamState → Owner → Prop
  | .sending _ rest, state, owner => rest = [] ∧ ∃ seen step, owner = .waiting (.writing []) seen step ∧
      state.acks > seen ∧ step ≠ .closed ∧ (step = .parked → state.wake = true)
  | .reading _, _, _ => True
  | .returned result, _, _ =>
      (result = .error (.remoteFailure (Utf8.lossy message)) ↔ NoRecvError ref trace)
  | _, _, _ => False

/-- What a listener makes of a part of the failure. -/
theorem told_heard (hFits : message.length < 2 ^ 32) {heard : List Bytes} {more rest : Bytes}
    {state : StreamState} (hTotal : buffer ++ heard.flatten ++ more = failFrame message ++ rest)
    (hSilent : NoRecvError ref trace) :
    Told ref message trace ((pushDialogue features path mode mtime source buffer).settle
      (awaitStatus (listener buffer heard))) state .idle := by
  unfold awaitStatus
  cases hNow : (readStatus (listener buffer heard)).1 with
  | none => trivial
  | some result => exact iff_of_true (readStatus_settled hFits hTotal hNow) hSilent

/-- A step of a push on its closed stream: the failure that is there to read is heard. -/
theorem told_own (hFits : message.length < 2 ^ 32) {rest : Bytes} {outboxOpen : Bool} {state : StreamState}
    {owner : Owner} {p : OwnerStep} {stage : Stage ChannelReader Unit}
    (hTotal : total = failFrame message ++ rest) (hHears : Hears buffer total stage state owner)
    (hTold : Told ref message trace stage state owner) (hSilent : NoRecvError ref trace)
    (hClosed : state.closed = true) (h : PushStep outboxOpen state owner p stage) :
    Told ref message (trace ++ Session.events ref p)
      (p.returns.foldl (pushDialogue features path mode mtime source buffer).resume stage) p.state p.owner := by
  subst hTotal
  have hQuiet : (∀ e, .returned (.recvFailed e) ∉ p.reports) →
      NoRecvError ref (trace ++ Session.events ref p) := by
    intro hNone e hMember
    rcases List.mem_append.mp hMember with hOld | hNew
    · exact hSilent e hOld
    · exact hNone e (report_of_events hNew)
  cases h with
  | begins hIdle =>
      obtain ⟨-, seen, step, hWaiting, -⟩ := hTold
      rw [hIdle] at hWaiting
      cases hWaiting
  | sends hAdvance =>
      obtain ⟨rfl, seen, step, rfl, hAcks, hStep, hWake⟩ := hTold
      cases Owner.advance_move hAdvance with
      | completed =>
          refine @told_heard features path buffer message mode mtime source ref _ hFits [] state.queue.flatten rest _
            ?_ (hQuiet (by simp))
          rw [List.flatten_nil, List.append_nil]
          exact hHears.2
      | unanswered hNone => exact absurd hAcks hNone
      | interrupted | parked => exact absurd rfl hStep
      | woken => exact ⟨rfl, seen, .acks, rfl, hAcks, by simp, by simp⟩
      | continued _ hMore => exact absurd rfl hMore
  | reads hHearing =>
      obtain ⟨-, heard, rfl, hWaits, hAll⟩ := hHears
      cases hHearing with
      | take => trivial
      | finish hQueue =>
          -- Everything was heard, and then nothing waits.
          have hWhole : buffer ++ heard.flatten = failFrame message ++ rest := by
            simpa [Owner.held, hQueue] using hAll
          rw [readStatus_refused hFits hWhole] at hWaits
          cases hWaits
      | address hOpen =>
          rw [hClosed] at hOpen
          cases hOpen
      | @give _ chunk _ hHeld =>
          change Told ref message _ ((pushDialogue features path mode mtime source buffer).settle
            (awaitStatus ((listener buffer heard).hear (.ok (some chunk))))) state .idle
          rw [listener_hear]
          refine @told_heard features path buffer message mode mtime source ref _ hFits _ state.queue.flatten rest _
            ?_ (hQuiet (by simp))
          rw [hHeld] at hAll
          simpa using hAll
      | broken =>
          change Told ref message _ ((pushDialogue features path mode mtime source buffer).settle
            (awaitStatus ((listener buffer heard).hear (.error .disconnected)))) state .idle
          rw [settle_broken hWaits]
          refine iff_of_false (by simp) fun hNone => hNone .disconnected ?_
          exact List.mem_append_right _ (by simp [Session.events])

/-- What the others do on a closed stream does not change what a push will hear. -/
theorem told_apart {stage : Stage ChannelReader Unit} {state state' : StreamState} {owner : Owner}
    {events : List Event} (hTold : Told ref message trace stage state owner)
    (hState : (∀ result, stage ≠ .returned result) → state' = state ∨ state' = state.markClosed)
    (hNoReport : ∀ report, .owner ref report ∉ events) :
    Told ref message (trace ++ events) stage state' owner := by
  cases stage with
  | opening | closing | dropping => exact hTold
  | reading => trivial
  | returned result =>
      refine hTold.trans ⟨fun hSilent e hMember => ?_, fun hSilent e hMember => ?_⟩
      · rcases List.mem_append.mp hMember with hOld | hNew
        · exact hSilent e hOld
        · exact hNoReport _ hNew
      · exact hSilent e (List.mem_append_left _ hMember)
  | sending data rest =>
      obtain ⟨hRest, seen, step, hWaiting, hAcks, hStep, hWake⟩ := hTold
      rcases hState (by simp) with rfl | rfl
      · exact ⟨hRest, seen, step, hWaiting, hAcks, hStep, hWake⟩
      · exact ⟨hRest, seen, step, hWaiting, hAcks, hStep, fun _ => rfl⟩

/-- The close that finds a push with all its messages sent leaves it where it will hear the failure. -/
theorem told_of_sent {stage : Stage ChannelReader Unit} {state : StreamState} {owner : Owner}
    (h : Sent stage state owner) : Told ref message trace stage state.markClosed owner := by
  cases stage with
  | reading => trivial
  | sending data left =>
      obtain ⟨rfl, hConcluding⟩ := h
      cases owner with
      | waiting purpose seen step =>
          rcases purpose with service | ⟨_ | ⟨head, tail⟩⟩
          · exact hConcluding.elim
          · exact ⟨rfl, seen, step, rfl, hConcluding.1, hConcluding.2, fun _ => rfl⟩
          · exact hConcluding.elim
      | _ => exact hConcluding.elim
  | _ => exact h.elim

/-- A push that the close finds with all its messages sent hears the failure. -/
theorem told_of_closed (h : ClosedAt (pushing features path mode mtime source buffer) maxPayload ref earlier before
      prior now trace s) (hIdle : before.owners ref = .idle) (hFits : message.length < 2 ^ 32) {rest : Bytes}
    (hReply : unread buffer ref before prior = failFrame message ++ rest)
    (hSent : Sent (stage (pushing features path mode mtime source buffer) ref prior) (now.streams ref)
      (now.owners ref)) :
    Told ref message trace (stage (pushing features path mode mtime source buffer) ref trace) (s.streams ref)
      (s.owners ref) ∧
    ((∀ result, stage (pushing features path mode mtime source buffer) ref trace ≠ .returned result) →
      ¬s.Registered ref ∧ (s.streams ref).closed = true ∧
        unread buffer ref before trace = failFrame message ++ rest) := by
  refine @ClosedAt.invariant _ _ _ _ _ _ _ _ _ _ _ (fun trace stage s => Told ref message trace stage (s.streams ref)
    (s.owners ref) ∧ ((∀ result, stage ≠ .returned result) → ¬s.Registered ref ∧ (s.streams ref).closed = true ∧
      unread buffer ref before trace = failFrame message ++ rest)) ?_ ?_ h
  · intro msg next hReached hCommand hTaken
    obtain ⟨hNamed, -⟩ := named_of_runs hReached.whole
    obtain ⟨-, hState, hOwner, hOut⟩ :=
      ended_of_dispatched (step_view hNamed hTaken ref) hCommand List.mem_cons_self
    change next.streams ref = _ at hState
    change next.owners ref = _ at hOwner
    have hNothing : [Event.dispatched msg (some ref)].filterMap (Event.delivery ref) = [] := by
      simp [Event.delivery, hCommand]
    refine ⟨?_, fun _ => ⟨hOut, by rw [hState]; rfl, ?_⟩⟩
    · rw [hState, hOwner]
      exact told_of_sent hSent
    · rw [unread, delivered_append, hNothing, List.flatten_nil, List.append_nil]
      exact hReply
  · rintro trace events s s' action hRun hCourteous hCalls hTaken ⟨hTold, hOutside⟩
    obtain ⟨hNamed, -⟩ := named_of_runs hRun.whole
    obtain ⟨hHears, hSilent⟩ := hears_of_runs hRun hIdle
    obtain ⟨hAlive, hNew, -⟩ := hears_owner hHears
    have hBorn : s.owners ref ≠ .unborn := by
      intro hUnborn
      rw [hUnborn] at hAlive
      exact hAlive
    by_cases hActor : action.actor = some ref
    · obtain ⟨p, hState, hOwner, rfl, hPush⟩ := push_step hHears hCourteous hCalls hTaken hActor
      have hGoes : ∀ result,
          stage (pushing features path mode mtime source buffer) ref trace ≠ .returned result := by
        intro result hStage
        rw [hStage] at hPush
        cases hPush
      obtain ⟨hOut, hClosed, hTotal⟩ := hOutside hGoes
      have hAfter := outside_step (step_view hNamed hTaken ref) hBorn hNew hOut hClosed
      have hNext := @told_own features path _ _ _ mode mtime source _ _ hFits _ _ _ _ _ _ hTotal hHears hTold
        (hSilent hGoes) hClosed hPush
      rw [returns_events, hState, hOwner, unread, delivered_append, delivery_events, List.flatten_nil,
        List.append_nil]
      refine ⟨hNext, fun _ => ⟨hAfter.1, ?_, hTotal⟩⟩
      rw [← hState]
      exact hAfter.2
    · obtain ⟨hOwner, hNoReport, -, -, hSame⟩ := step_apart hNamed hTaken hActor hBorn
      rw [returns_apart hNoReport, hOwner]
      refine ⟨told_apart hTold (fun hGoes => hSame (hOutside hGoes).1) hNoReport, fun hGoes => ?_⟩
      obtain ⟨hOut, hClosed, hTotal⟩ := hOutside hGoes
      have hAfter := outside_step (step_view hNamed hTaken ref) hBorn hNew hOut hClosed
      refine ⟨hAfter.1, hAfter.2, ?_⟩
      rw [unread, delivered_append, delivery_outside hNamed hTaken hOut, List.flatten_nil, List.append_nil]
      exact hTotal

/-- After each answer a push reads on or returns. -/
private theorem settle_awaits (reader : ChannelReader) :
    (∃ result, (pushDialogue features path mode mtime source buffer).settle (awaitStatus reader) =
      .returned result) ∨
    (pushDialogue features path mode mtime source buffer).settle (awaitStatus reader) = .reading reader := by
  unfold awaitStatus
  cases (readStatus reader).1 with
  | none => exact Or.inr rfl
  | some result => exact Or.inl ⟨result, rfl⟩

section

variable {reader : ChannelReader} {rest : Bytes}

/-- A `recv` that returns gives the push one answer. -/
private theorem hearing_answers {outboxOpen : Bool} {state : StreamState} {owner : Owner} {p : OwnerStep}
    (h : Hearing outboxOpen state owner p) (hIdle : p.owner = .idle) :
    ∃ answer, p.returns.foldl (pushDialogue features path mode mtime source buffer).resume (.reading reader) =
      (pushDialogue features path mode mtime source buffer).settle (awaitStatus (reader.hear answer)) := by
  cases h with
  | take | address => cases hIdle
  | finish => exact ⟨.ok none, rfl⟩
  | give => exact ⟨.ok (some _), rfl⟩
  | broken => exact ⟨.error .disconnected, rfl⟩

/-- The result of a push that reads on its closed stream, when it stands between two calls. -/
private def IdleReturns (features : SyncFeatures) (path buffer total : Bytes) (mode mtime : UInt32)
    (source : List SourceRead) (ref : Ref) (earlier : List Event) (queue : List Bytes) : Prop :=
  ∀ (trace : List Event) (s : Session) (reader : ChannelReader),
    stage (pushing features path mode mtime source buffer) ref trace = .reading reader →
    Hears buffer total (.reading reader) (s.streams ref) (s.owners ref) → s.owners ref = .idle →
    (s.streams ref).closed = true → (s.streams ref).queue = queue →
    ∃ n result, ReturnsWithin n (pushing features path mode mtime source buffer) ref earlier trace s result

/-- A `recv` that returns takes the push to its end or between two calls. -/
private theorem given_returns {p : OwnerStep}
    (hRest : IdleReturns features path buffer total mode mtime source ref earlier (s.streams ref).queue)
    (hStage : stage (pushing features path mode mtime source buffer) ref trace = .reading reader)
    (hHears : Hears buffer total (.reading reader) (s.streams ref) (s.owners ref))
    (hClosed : (s.streams ref).closed = true) (hReceiving : (s.owners ref).Receiving)
    (hAdvance : (s.owners ref).advance s.maxPayload s.outboxOpen (s.streams ref) = some p)
    (hState : p.state = s.streams ref) (hIdle : p.owner = .idle) :
    ∃ n result, ReturnsWithin n (pushing features path mode mtime source buffer) ref earlier trace s result := by
  obtain ⟨trace', s', hState', hOwner', hNow, hThen⟩ :=
    @returns_advance _ _ _ earlier trace s (pushing features path mode mtime source buffer) p hAdvance
  have hHearing := hearing_of_advance hReceiving hAdvance
  have hNext := @hears_reading features path buffer total mode mtime source _ _ _ _ _ hHears hHearing
  obtain ⟨answer, hAnswer⟩ := @hearing_answers features path buffer mode mtime source reader _ _ _ _ hHearing hIdle
  have hThere : stage (pushing features path mode mtime source buffer) ref trace' =
      (pushDialogue features path mode mtime source buffer).settle (awaitStatus (reader.hear answer)) := by
    rw [hNow, hStage]
    exact hAnswer
  rw [hAnswer, ← hState', ← hOwner'] at hNext
  rcases @settle_awaits features path buffer mode mtime source (reader.hear answer) with ⟨result, hEnd⟩ | hMore
  · exact ⟨_, result, hThen 0 _ (returned_returns (hThere.trans hEnd))⟩
  · rw [hMore] at hNext
    obtain ⟨n, result, hReturns⟩ := hRest trace' s' _ (hThere.trans hMore) hNext (hOwner'.trans hIdle)
      (by rw [hState', hState]; exact hClosed) (by rw [hState', hState])
    exact ⟨_, result, hThen n _ hReturns⟩

/-- A push that has the failure before it and holds a chunk of it goes on reading. -/
private theorem held_returns
    (hRest : IdleReturns features path buffer total mode mtime source ref earlier (s.streams ref).queue)
    (hStage : stage (pushing features path mode mtime source buffer) ref trace = .reading reader)
    (hHears : Hears buffer total (.reading reader) (s.streams ref) (s.owners ref))
    (hClosed : (s.streams ref).closed = true) (hBusy : s.owners ref ≠ .idle) :
    ∃ n result, ReturnsWithin n (pushing features path mode mtime source buffer) ref earlier trace s result := by
  have hReceiving := hHears.1
  cases hOwner : s.owners ref with
  | idle => exact absurd hOwner hBusy
  | took chunk =>
      have hAdvance : (s.owners ref).advance s.maxPayload s.outboxOpen (s.streams ref) =
          some ⟨s.streams ref, .idle, .nothing, [.returned (.received (some chunk))]⟩ := by
        rw [hOwner]
        simp [Owner.advance, StreamState.ids, hClosed]
      exact given_returns hRest hStage hHears hClosed hReceiving hAdvance rfl rfl
  | acking chunk remote =>
      by_cases hOutbox : s.outboxOpen = true
      · have hAdvance : (s.owners ref).advance s.maxPayload s.outboxOpen (s.streams ref) =
            some ⟨s.streams ref, .idle, .post (.empty .okay (s.streams ref).localId remote),
              [.returned (.received (some chunk))]⟩ := by
          rw [hOwner]
          exact if_pos hOutbox
        exact given_returns hRest hStage hHears hClosed hReceiving hAdvance rfl rfl
      · have hAdvance : (s.owners ref).advance s.maxPayload s.outboxOpen (s.streams ref) =
            some ⟨s.streams ref, .idle, .nothing, [.returned (.recvFailed .disconnected)]⟩ := by
          rw [hOwner]
          exact if_neg hOutbox
        exact given_returns hRest hStage hHears hClosed hReceiving hAdvance rfl rfl
  | _ =>
      rw [hOwner] at hReceiving
      exact hReceiving.elim

/-- A push reads one chunk after the other from its closed stream, until it has the failure. -/
private theorem idle_returns (hFits : message.length < 2 ^ 32) (hTotal : total = failFrame message ++ rest)
    (queue : List Bytes) : IdleReturns features path buffer total mode mtime source ref earlier queue := by
  induction queue with
  | nil =>
      intro trace s reader hStage hHears hIdle hClosed hQueue
      obtain ⟨-, heard, rfl, hWaits, hAll⟩ := hHears
      have hWhole : buffer ++ heard.flatten = failFrame message ++ rest := by
        rw [← hTotal, ← hAll, hQueue, hIdle]
        simp [Owner.held]
      rw [readStatus_refused hFits hWhole] at hWaits
      cases hWaits
  | cons chunk more ih =>
      intro trace s reader hStage hHears hIdle hClosed hQueue
      have hBegin : Owner.begin (s.streams ref) .recv =
          some ⟨{ s.streams ref with queue := more }, .took chunk, .nothing, [.took chunk]⟩ := by
        rw [Owner.begin, hQueue]
      obtain ⟨trace', s', hState, hOwner, hNow, hThen⟩ :=
        @returns_call _ _ _ earlier trace s (pushing features path mode mtime source buffer) _ _ hIdle
          (congrArg asks hStage) hBegin
      have hNext := @hears_reading features path buffer total mode mtime source true _ _ _ _
        (hIdle ▸ hHears) (.take hQueue)
      rw [hStage] at hNow
      obtain ⟨n, result, hReturns⟩ := @held_returns features path buffer total mode mtime source ref earlier trace'
        s' reader (by rw [hState]; exact ih) hNow (by rw [hState, hOwner]; exact hNext)
        (by rw [hState]; exact hClosed) (by rw [hOwner]; simp)
      exact ⟨_, result, hThen n _ hReturns⟩

/-- A push that reads on its closed stream, with the failure there to read, returns. -/
private theorem reading_returns (hFits : message.length < 2 ^ 32) (hTotal : total = failFrame message ++ rest)
    (hStage : stage (pushing features path mode mtime source buffer) ref trace = .reading reader)
    (hHears : Hears buffer total (.reading reader) (s.streams ref) (s.owners ref))
    (hClosed : (s.streams ref).closed = true) :
    ∃ n result, ReturnsWithin n (pushing features path mode mtime source buffer) ref earlier trace s result := by
  have hRest := @idle_returns features path buffer message total mode mtime source ref earlier rest hFits hTotal
    (s.streams ref).queue
  by_cases hIdle : s.owners ref = .idle
  · exact hRest trace s reader hStage hHears hIdle hClosed rfl
  · exact held_returns hRest hStage hHears hClosed hIdle

/-- Once the count is looked at the last `send` returns, and the answer is read. -/
private theorem counting_returns (hFits : message.length < 2 ^ 32) (hTotal : total = failFrame message ++ rest)
    {data : Bytes} {seen : UInt64}
    (hStage : stage (pushing features path mode mtime source buffer) ref trace = .sending data [])
    (hAll : buffer ++ (s.streams ref).queue.flatten = total)
    (hOwner : s.owners ref = .waiting (.writing []) seen .acks) (hAcks : (s.streams ref).acks > seen)
    (hClosed : (s.streams ref).closed = true) :
    ∃ n result, ReturnsWithin n (pushing features path mode mtime source buffer) ref earlier trace s result := by
  have hAdvance : (s.owners ref).advance s.maxPayload s.outboxOpen (s.streams ref) =
      some ⟨s.streams ref, .idle, .nothing, [.returned .sent]⟩ := by
    rw [hOwner]
    exact if_pos hAcks
  obtain ⟨trace', s', hState, hIdle, hNow, hThen⟩ :=
    @returns_advance _ _ _ earlier trace s (pushing features path mode mtime source buffer) _ hAdvance
  rw [hStage] at hNow
  have hNext := @hears_speak features path buffer total mode mtime source (s'.streams ref) []
    (by rw [hState]; exact hAll)
  rcases @settle_awaits features path buffer mode mtime source (listener buffer []) with ⟨result, hEnd⟩ | hMore
  · exact ⟨_, result, hThen 0 _ (returned_returns (hNow.trans hEnd))⟩
  · have hSpoken : (pushDialogue features path mode mtime source buffer).speak [] =
        .reading (listener buffer []) := hMore
    rw [hSpoken] at hNext
    obtain ⟨n, result, hReturns⟩ := reading_returns hFits hTotal (hNow.trans hMore)
      (by rw [hIdle]; exact hNext) (by rw [hState]; exact hClosed)
    exact ⟨_, result, hThen n _ hReturns⟩

/-- A push that will hear the failure returns when it is left alone. -/
theorem told_returns (hFits : message.length < 2 ^ 32) (hTotal : total = failFrame message ++ rest)
    (hHears : Hears buffer total (stage (pushing features path mode mtime source buffer) ref trace)
      (s.streams ref) (s.owners ref))
    (hTold : Told ref message trace (stage (pushing features path mode mtime source buffer) ref trace)
      (s.streams ref) (s.owners ref)) (hClosed : (s.streams ref).closed = true) :
    ∃ n result, ReturnsWithin n (pushing features path mode mtime source buffer) ref earlier trace s result := by
  cases hStage : stage (pushing features path mode mtime source buffer) ref trace with
  | opening | closing | dropping =>
      rw [hStage] at hTold
      exact hTold.elim
  | returned result => exact ⟨0, result, returned_returns hStage⟩
  | reading reader =>
      rw [hStage] at hHears
      exact reading_returns hFits hTotal hStage hHears hClosed
  | sending data left =>
      rw [hStage] at hTold hHears
      obtain ⟨rfl, seen, step, hOwner, hAcks, hStep, hWake⟩ := hTold
      cases step with
      | closed => exact absurd rfl hStep
      | acks => exact counting_returns hFits hTotal hStage hHears.2 hOwner hAcks hClosed
      | parked =>
          have hAdvance : (s.owners ref).advance s.maxPayload s.outboxOpen (s.streams ref) =
              some ⟨{ s.streams ref with wake := false }, .waiting (.writing []) seen .acks, .nothing, []⟩ := by
            rw [hOwner]
            exact if_pos (hWake rfl)
          obtain ⟨trace', s', hState, hStands, hNow, hThen⟩ :=
            @returns_advance _ _ _ earlier trace s (pushing features path mode mtime source buffer) _ hAdvance
          obtain ⟨n, result, hReturns⟩ := counting_returns hFits hTotal (hNow.trans hStage)
            (by rw [hState]; exact hHears.2) hStands (by rw [hState]; exact hAcks)
            (by rw [hState]; exact hClosed)
          exact ⟨_, result, hThen n _ hReturns⟩

end

/-- A push starts with the first message of its script. -/
private theorem pushing_script {data : Bytes} {left : List (Result Bytes)} {given : List Returned}
    (h : (pushing features path mode mtime source buffer).after given = .sending data left) :
    ∃ sent : List Bytes, pushScript features path mode mtime source = sent.map .ok ++ .ok data :: left := by
  refine @sending_of_script _ _ (pushDialogue features path mode mtime source buffer) _ ?_ given _ _ h
  intro first more hFirst
  change (pushDialogue features path mode mtime source buffer).speak _ = _ at hFirst
  refine ⟨[], ?_⟩
  generalize (pushDialogue features path mode mtime source buffer).script = script at hFirst ⊢
  rcases script with _ | ⟨e | next, rest⟩
  · rcases @settle_awaits features path buffer mode mtime source (listener buffer []) with ⟨result, hEnd⟩ | hMore
    · cases hEnd.symm.trans hFirst
    · cases hMore.symm.trans hFirst
  · cases hFirst
  · cases hFirst
    rfl

/-- A push that the close finds before that never reads the answer. -/
theorem severed_of_unsent
    (h : ClosedAt (pushing features path mode mtime source buffer) maxPayload ref earlier before prior now trace s)
    (hIdle : before.owners ref = .idle)
    (hSource : ∀ e, .error e ∈ source → ∀ text, e ≠ .remoteFailure text)
    (hUnreturned : outcome (pushing features path mode mtime source buffer) ref prior = none)
    (hUnsent : ¬Sent (stage (pushing features path mode mtime source buffer) ref prior) (now.streams ref)
      (now.owners ref)) :
    Severed (fun e => ∀ text, e ≠ .remoteFailure text) (s.view ref)
      (stage (pushing features path mode mtime source buffer) ref trace) := by
  obtain ⟨hReached, -⟩ := h.reached
  have hHears := (hears_of_runs hReached hIdle).1
  cases hStage : stage (pushing features path mode mtime source buffer) ref prior with
  | opening | closing | dropping =>
      rw [hStage] at hHears
      exact hHears.elim
  | returned result =>
      rw [outcome, hStage] at hUnreturned
      cases hUnreturned
  | reading reader =>
      rw [hStage] at hUnsent
      exact absurd trivial hUnsent
  | sending data left =>
      rw [hStage] at hUnsent
      obtain ⟨sent, hScript⟩ := pushing_script hStage
      have hMember : ∀ entry ∈ .ok data :: left, entry ∈ pushScript features path mode mtime source := by
        intro entry hEntry
        rw [hScript]
        exact List.mem_append_right _ hEntry
      refine severed_of_closed h (by simp) hStage (doomed_of_unsent hReached ?_ hStage ?_ hUnsent ?_ (by simp))
      · rw [hIdle]
        exact fits_speak
      · exact pushScript_nonempty (hMember _ List.mem_cons_self)
      · rcases left with _ | ⟨e | next, more⟩
        · exact fun hNone => absurd rfl hNone
        · intro _
          rcases pushScript_errors (hMember (.error e) (by simp)) with ⟨text, rfl⟩ | ⟨text, rfl⟩ | hOwn
          · intro other hOther
            cases hOther
          · intro other hOther
            cases hOther
          · exact hSource e hOwn
        · exact fun _ => pushScript_nonempty (hMember (.ok next) (by simp))

/-- Whether a push reports the failure that came before the close depends on where
the close found it, as long as the session's writer runs. -/
theorem refused_outcome
    (h : ClosedAt (pushing features path mode mtime source buffer) maxPayload ref earlier before prior now trace s)
    (hIdle : before.owners ref = .idle)
    (hSource : ∀ e, .error e ∈ source → ∀ text, e ≠ .remoteFailure text)
    (hUnreturned : outcome (pushing features path mode mtime source buffer) ref prior = none)
    (hFits : message.length < 2 ^ 32) {rest : Bytes}
    (hReply : unread buffer ref before prior = failFrame message ++ rest) :
    (∀ result, outcome (pushing features path mode mtime source buffer) ref trace = some result →
      (result = .error (.remoteFailure (Utf8.lossy message)) ↔
        Sent (stage (pushing features path mode mtime source buffer) ref prior) (now.streams ref)
          (now.owners ref) ∧ NoRecvError ref trace)) ∧
    (s.outboxOpen = true → NoRecvError ref trace) ∧
    ∃ n result, ReturnsWithin n (pushing features path mode mtime source buffer) ref earlier trace s result := by
  have hOpened : s.outboxOpen = true → NoRecvError ref trace := fun hOpen e hMember =>
    noRecvError_of_open h.run.whole hOpen e (List.mem_append_right _ hMember)
  by_cases hSent : Sent (stage (pushing features path mode mtime source buffer) ref prior) (now.streams ref)
    (now.owners ref)
  · obtain ⟨hTold, hOutside⟩ := told_of_closed h hIdle hFits hReply hSent
    refine ⟨fun result hOutcome => ?_, hOpened, ?_⟩
    · rw [outcome] at hOutcome
      revert hTold hOutcome
      cases stage (pushing features path mode mtime source buffer) ref trace with
      | returned answer =>
          intro hTold hOutcome
          cases hOutcome
          exact hTold.trans (and_iff_right hSent).symm
      | _ => exact fun _ hOutcome => by cases hOutcome
    · by_cases hGoes : ∃ result, stage (pushing features path mode mtime source buffer) ref trace =
          .returned result
      · obtain ⟨result, hStage⟩ := hGoes
        exact ⟨0, result, returned_returns hStage⟩
      · obtain ⟨-, hClosed, hTotal⟩ := hOutside (not_exists.mp hGoes)
        exact told_returns hFits hTotal (hears_of_runs h.run hIdle).1 hTold hClosed
  · have hSevered := severed_of_unsent h hIdle hSource hUnreturned hSent
    refine ⟨fun result hOutcome => ?_, hOpened, ?_⟩
    · obtain ⟨e, hLost, rfl⟩ := severed_outcome hSevered hOutcome
      refine iff_of_false (fun hSame => ?_) fun hBoth => hSent hBoth.1
      exact hLost _ (Except.error.inj hSame)
    · obtain ⟨e, -, hReturns⟩ := severed_returns (by simp) hSevered
      exact ⟨5, _, hReturns⟩

end Session
end Rsadb
