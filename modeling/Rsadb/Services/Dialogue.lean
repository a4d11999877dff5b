import Rsadb.Session.Client

/-! Clients that send their messages one after the other and then read the
answer. The session decides when a call returns; a dialogue decides what it
means. Nothing is read before the last message is sent. -/
namespace Rsadb

/-- Where a dialogue stands. -/
inductive Dialogue.Stage (ρ α : Type) where
  | opening (service : Bytes)
  | sending (data : Bytes) (rest : List (Result Bytes))
  | reading (state : ρ)
  | closing (result : Result α)
  | dropping (result : Result α)
  | returned (result : Result α)

/-- What a dialogue makes of what it has heard: it reads on, returns as it is,
or closes its stream first. -/
inductive Heard (ρ α : Type) where
  | more (state : ρ)
  | leave (result : Result α)
  | close (result : Result α)

/-- A dialogue: the messages to send, of which some may turn out to be errors,
and the reading of the answer. One that owns its stream drops it on the way out. -/
structure Dialogue (ρ α : Type) where
  script : List (Result Bytes)
  listen : Heard ρ α
  hear : ρ → Result (Option Bytes) → Heard ρ α
  owns : Bool

/-- The client is in the midst of a `send`. -/
def Dialogue.Stage.Sending {ρ α : Type} : Dialogue.Stage ρ α → Prop
  | .sending _ _ => True
  | _ => False

/-- The owner is in the midst of a `send`. -/
def Owner.Sending : Owner → Prop
  | .waiting (.writing _) _ _ | .writing _ | .counting _ _ | .sending _ _ _ => True
  | _ => False

namespace Dialogue

variable {ρ α : Type}

/-- Return a result. -/
def leave (d : Dialogue ρ α) (result : Result α) : Stage ρ α :=
  if d.owns then .dropping result else .returned result

def settle (d : Dialogue ρ α) : Heard ρ α → Stage ρ α
  | .more state => .reading state
  | .leave result => d.leave result
  | .close result => .closing result

/-- Send the next message. After the last one the answer is read. -/
def speak (d : Dialogue ρ α) : List (Result Bytes) → Stage ρ α
  | [] => d.settle d.listen
  | .ok data :: rest => .sending data rest
  | .error e :: _ => d.leave (.error e)

/-- Go on with what a call returned. A stage gets answers to its own call only. -/
def resume (d : Dialogue ρ α) : Stage ρ α → Returned → Stage ρ α
  | .opening _, .opened => d.speak d.script
  | .opening _, .openFailed e => .returned (.error e)
  | .sending _ rest, .sent => d.speak rest
  | .sending _ _, .sendFailed e => d.leave (.error e)
  | .reading state, .received chunk => d.settle (d.hear state (.ok chunk))
  | .reading state, .recvFailed e => d.settle (d.hear state (.error e))
  | .closing result, .closed => d.leave result
  | .dropping result, .dropped => .returned result
  | stage, _ => stage

/-- The call that a stage makes. -/
def asks : Stage ρ α → Option ClientCall
  | .opening service => some (.connect service)
  | .sending data _ => some (.use (.send data))
  | .reading _ => some (.use .recv)
  | .closing _ => some (.use .close)
  | .dropping _ => some (.use .drop)
  | .returned _ => none

def outcome : Stage ρ α → Option (Result α)
  | .returned result => some result
  | _ => none

/-- The dialogue as a client that begins in the given stage. -/
def client (d : Dialogue ρ α) (initial : Stage ρ α) : Client (Stage ρ α) α :=
  ⟨initial, asks, d.resume, outcome⟩

/-- What the dialogue makes of a stream's answers. No result means that it reads on. -/
def attend (d : Dialogue ρ α) : Heard ρ α → List (Result (Option Bytes)) → Option (Result α)
  | .leave result, _ => some result
  | .close result, _ => some result
  | .more _, [] => none
  | .more state, heard :: rest => d.attend (d.hear state heard) rest

/-- The owner stands in the call that the stage makes, or between two calls. -/
def Fits : Stage ρ α → Owner → Prop
  | .opening _, owner => owner.Opening
  | .sending _ _, owner => owner = .idle ∨ owner.Sending
  | _, owner => ¬owner.Sending

variable {d : Dialogue ρ α}

/-- A dialogue that leaves has an owner between two calls, or none. -/
theorem fits_leave {result : Result α} {owner : Owner} (h : ¬owner.Sending) :
    Fits (d.leave result) owner := by
  unfold leave
  split <;> exact h

theorem fits_settle {heard : Heard ρ α} {owner : Owner} (h : ¬owner.Sending) :
    Fits (d.settle heard) owner := by
  cases heard with
  | leave result => exact fits_leave h
  | _ => exact h

theorem fits_speak {script : List (Result Bytes)} : Fits (d.speak script) .idle := by
  rcases script with _ | ⟨_ | data, rest⟩
  · exact fits_settle id
  · exact fits_leave id
  · exact Or.inl rfl

/-- Past its messages a dialogue never sends again. -/
theorem fits_resume {stage : Stage ρ α} {result : Returned} {owner : Owner}
    (hPast : ¬stage.Sending) (hOpen : ∀ service, stage ≠ .opening service) (h : ¬owner.Sending) :
    Fits (d.resume stage result) owner := by
  cases stage with
  | opening service => exact absurd rfl (hOpen service)
  | sending => exact absurd trivial hPast
  | reading state => cases result <;> first | exact fits_settle h | exact h
  | closing answer => cases result <;> first | exact fits_leave h | exact h
  | dropping answer => cases result <;> exact h
  | returned answer => exact h

/-- A dialogue sends its messages in the order of the script, and none behind an error. -/
theorem sending_of_script {initial : Stage ρ α}
    (hInitial : ∀ data rest, initial = .sending data rest →
      ∃ sent : List Bytes, d.script = sent.map .ok ++ .ok data :: rest)
    (given : List Returned) {data : Bytes} {rest : List (Result Bytes)}
    (h : (d.client initial).after given = .sending data rest) :
    ∃ sent : List Bytes, d.script = sent.map .ok ++ .ok data :: rest := by
  let Inv : Stage ρ α → Prop := fun stage => ∀ data rest, stage = .sending data rest →
    ∃ sent : List Bytes, d.script = sent.map .ok ++ .ok data :: rest
  have hLeave : ∀ result, Inv (d.leave result) := by
    intro result data rest hStage
    unfold leave at hStage
    split at hStage <;> cases hStage
  have hSettle : ∀ heard, Inv (d.settle heard) := by
    rintro (state | result | result) data rest hStage
    · cases hStage
    · exact hLeave result data rest hStage
    · cases hStage
  have hSpeak : ∀ (sent : List Bytes) (left : List (Result Bytes)),
      d.script = sent.map .ok ++ left → Inv (d.speak left) := by
    rintro sent (_ | ⟨_ | next, left⟩) hScript data rest hStage
    · exact hSettle _ data rest hStage
    · exact hLeave _ data rest hStage
    · cases hStage
      exact ⟨sent, hScript⟩
  suffices hInv : Inv ((d.client initial).after given) from hInv data rest h
  refine Process.after_invariant ?_ (fun stage result hStage => ?_) given
  · exact hInitial
  · cases stage with
    | opening service =>
        cases result <;> first | exact hSpeak [] d.script rfl | exact hStage | (intro _ _ h; cases h)
    | sending data rest =>
        cases result with
        | sent =>
            obtain ⟨sent, hScript⟩ := hStage data rest rfl
            refine hSpeak (sent ++ [data]) rest ?_
            rw [hScript, List.map_append, List.append_assoc]
            rfl
        | sendFailed e => exact hLeave _
        | _ => exact hStage
    | reading state => cases result <;> first | exact hSettle _ | exact hStage
    | closing answer => cases result <;> first | exact hLeave _ | exact hStage
    | dropping answer => cases result <;> first | exact hStage | (intro _ _ h; cases h)
    | returned answer => exact hStage

/-- A step that does not begin a `send` leaves a dialogue past its messages where it is. -/
private theorem fits_past {stage : Stage ρ α} {maxPayload : UInt32} {outboxOpen : Bool}
    {state : StreamState} {owner : Owner} {p : OwnerStep}
    (hMove : Move maxPayload outboxOpen state owner p) (hPast : ¬stage.Sending)
    (hOpen : ∀ service, stage ≠ .opening service) (hOwner : ¬p.owner.Sending) :
    Fits (p.returns.foldl d.resume stage) p.owner := by
  rcases hMove.returns with hNone | ⟨result, hOne, -⟩
  · rw [hNone]
    cases stage with
    | opening service => exact absurd rfl (hOpen service)
    | sending => exact absurd trivial hPast
    | _ => exact hOwner
  · rw [hOne]
    exact fits_resume hPast hOpen hOwner

/-- The first step of the call that the stage makes. -/
private theorem fits_begin {stage : Stage ρ α} {state : StreamState} {call : StreamCall} {p : OwnerStep}
    (hAsks : asks stage = some (.use call)) (h : Owner.begin state call = some p) :
    Fits (p.returns.foldl d.resume stage) p.owner := by
  have hMove := @Owner.begin_move 0 true _ _ _ h
  cases stage with
  | opening service => cases hAsks
  | returned result => cases hAsks
  | sending data rest =>
      cases hAsks
      cases data with
      | nil =>
          cases h
          exact fits_speak
      | cons head tail =>
          cases h
          exact Or.inr trivial
  | reading | closing | dropping =>
      cases hAsks
      refine fits_past hMove id (by simp) ?_
      simp only [Owner.begin] at h
      split at h
      all_goals first | (cases h; exact id) | (split at h <;> cases h; exact id)

/-- A further step of the call that the stage makes. -/
private theorem fits_advance {stage : Stage ρ α} {maxPayload : UInt32} {outboxOpen : Bool}
    {state : StreamState} {owner : Owner} {p : OwnerStep} (hFits : Fits stage owner)
    (h : owner.advance maxPayload outboxOpen state = some p) :
    Fits (p.returns.foldl d.resume stage) p.owner := by
  have hMove := Owner.advance_move h
  have hBusy : owner ≠ .idle := by
    rintro rfl
    cases h
  cases stage with
  | opening service =>
      cases hMove with
      | @unanswered purpose | @parked purpose | @woken purpose =>
          cases purpose with
          | opening => trivial
          | writing => exact hFits.elim
      | opened => exact fits_speak
      | inserted | requested | answered | turnedDown | nameless => trivial
      | unrequested | refused => exact id
      | _ => exact hFits.elim
  | sending data rest =>
      have hSending := hFits.resolve_left hBusy
      cases hMove with
      | @unanswered purpose | @parked purpose | @woken purpose =>
          cases purpose with
          | opening => exact hSending.elim
          | writing => exact Or.inr trivial
      | completed => exact fits_speak
      | interrupted | shutOut | unwritten => exact fits_leave id
      | addressed | counted | wrote | continued => exact Or.inr trivial
      | _ => exact hSending.elim
  | reading | closing | dropping | returned =>
      refine fits_past hMove id (by simp) fun hSending => ?_
      cases hMove with
      | @unanswered purpose | @parked purpose | @woken purpose =>
          cases purpose with
          | opening => exact hSending
          | writing => exact hFits trivial
      | sendBegun => exact hBusy rfl
      | addressed | counted | wrote | continued => exact hFits trivial
      | _ => exact hSending

/-- The owner of a dialogue's stream always stands where the dialogue does. -/
theorem fits_of_runs {initial : Stage ρ α} {maxPayload : UInt32} {ref : Ref}
    {earlier trace : List Event} {before s : Session}
    (h : Session.ClientRun (d.client initial) maxPayload ref earlier before trace s)
    (hInitial : Fits initial (before.owners ref)) :
    Fits (Session.stage (d.client initial) ref trace) (s.owners ref) := by
  refine (@Process.hosted_invariant _ _ _ _ _ _ _ _ _ _ _ _ _
    (fun stage _ s => s.Named ∧ Fits stage (s.owners ref))
    ⟨(Session.named_of_runs h.called).1, hInitial⟩ ?_ _ _ h.served).2
  rintro stage trace s action s' events hCourteous hCalls hTaken ⟨hNamed, hFits⟩
  refine ⟨Session.named_step hNamed hTaken, ?_⟩
  have hStep := Session.step_client hNamed hTaken ref
  generalize events.filterMap (Event.returns ref) = given at hStep ⊢
  generalize s'.streams ref = state at hStep
  generalize s'.owners ref = owner at hStep ⊢
  cases hStep with
  | apart => exact hFits
  | @born _ service hUnborn hAction hNext =>
      have hAsks := hCalls (.connect service) (by simp [Session.clientCall, hAction, hNext])
      cases stage with
      | opening name => trivial
      | _ => cases hAsks
  | @began call p hAction hIdle hBegin =>
      exact fits_begin (hCalls (.use call) (by simp [Session.clientCall, hAction])) hBegin
  | advanced hAction hAdvance => exact fits_advance hFits hAdvance
  | cancelled hAction =>
      rw [hAction] at hCourteous
      exact absurd rfl hCourteous

end Dialogue
end Rsadb
