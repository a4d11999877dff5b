import Rsadb.Fake.Commands

/-! The emulated `shell,v2:` service. It makes the same of its input however the
input is cut, and runs its command when the end of the input has come. -/
namespace Rsadb.Fake

open ShellV2

/-- The input that some frames carry. -/
def stdinOf (frames : List Frame) : Bytes := (frames.filter fun frame => frame.id = .stdin).flatMap Frame.data

@[simp] theorem stdinOf_append (first second : List Frame) :
    stdinOf (first ++ second) = stdinOf first ++ stdinOf second := by
  rw [stdinOf, List.filter_append, List.flatMap_append, ← stdinOf, ← stdinOf]

/-- The end of the input. -/
def endOfInput : Frame := ⟨.closeStdin, []⟩

/-- What a command makes of its input. Only `cat` reads any. -/
def exitOf (config : FakeConfig) (command stdin : Bytes) : Shell.Exit :=
  if command = ascii "cat" then ⟨stdin, [], 0⟩ else Shell.run config command

/-- The frames that report an exit. -/
def exitFrames (exit : Shell.Exit) : List Frame :=
  (if exit.stdout ≠ [] then [⟨.stdout, exit.stdout⟩] else []) ++
    (if exit.stderr ≠ [] then [⟨.stderr, exit.stderr⟩] else []) ++ [⟨.exit, [exit.code]⟩]

/-- An exit whose output fits into frames. -/
def Shell.Exit.Fits (exit : Shell.Exit) : Prop := exit.stdout.length < 2 ^ 32 ∧ exit.stderr.length < 2 ^ 32

instance (exit : Shell.Exit) : Decidable exit.Fits := inferInstanceAs (Decidable (_ ∧ _))

/-- A client collects the exit from its frames. -/
theorem collected_exitFrames (exit : Shell.Exit) :
    collected (exitFrames exit) = ⟨exit.stdout, exit.stderr, some exit.code⟩ := by
  unfold exitFrames collected
  by_cases hOut : exit.stdout = [] <;> by_cases hErr : exit.stderr = [] <;> simp [hOut, hErr]

namespace ShellV2Service

variable {config : FakeConfig} {service : ShellV2Service}

/-- A frame that fits is encoded. -/
theorem encode_frame {id : FrameId} {data : Bytes} (h : data.length < 2 ^ 32) :
    encode id data = .ok (frame id data) := by
  rw [frame, encode, if_pos h]
  rfl

/-- What is put out at the end of the input are the frames of the exit. -/
theorem finish_encodes (hFits : (exitOf config service.command service.stdin).Fits) :
    (service.finish config).1.done = true ∧ (service.finish config).1.parser = service.parser ∧
    Encodes (exitFrames (exitOf config service.command service.stdin)) (service.finish config).2.flatten := by
  obtain ⟨hOut, hErr⟩ := hFits
  refine ⟨rfl, rfl, ?_⟩
  change Encodes (exitFrames (exitOf config service.command service.stdin))
    ((if (exitOf config service.command service.stdin).stdout ≠ [] then
        [frame .stdout (exitOf config service.command service.stdin).stdout] else []) ++
      (if (exitOf config service.command service.stdin).stderr ≠ [] then
        [frame .stderr (exitOf config service.command service.stdin).stderr] else []) ++
      [frame .exit [(exitOf config service.command service.stdin).code]]).flatten
  generalize exitOf config service.command service.stdin = exit at hOut hErr
  have hPart : ∀ {id : FrameId} {data : Bytes}, data.length < 2 ^ 32 →
      Encodes (if data ≠ [] then [⟨id, data⟩] else []) (if data ≠ [] then [frame id data] else []).flatten := by
    intro id data hShort
    split
    · exact .cons (encode_frame hShort) .nil
    · exact .nil
  rw [List.flatten_append, List.flatten_append]
  exact ((hPart hOut).append (hPart hErr)).append (.cons (encode_frame (by simp)) .nil)

/-- Frames before the end of the input add to the input. -/
theorem take_open {frames : List Frame} (hOpen : ∀ frame ∈ frames, frame.id ≠ .closeStdin) :
    service.take config frames = ({ service with stdin := service.stdin ++ stdinOf frames }, []) := by
  induction frames generalizing service with
  | nil => simp [take, stdinOf]
  | cons frame frames ih =>
      obtain ⟨hHere, hRest⟩ := List.forall_mem_cons.mp hOpen
      obtain ⟨id, data⟩ := frame
      cases id with
      | closeStdin => exact absurd rfl hHere
      | stdin =>
          simp only [take]
          rw [ih hRest]
          simp [stdinOf]
      | stdout | stderr | exit | windowSize =>
          simp only [take]
          rw [ih hRest]
          simp [stdinOf]

/-- The end of the input runs the command. -/
theorem take_end {frames : List Frame} (hOpen : ∀ frame ∈ frames, frame.id ≠ .closeStdin) :
    service.take config (frames ++ [endOfInput]) =
      finish config { service with stdin := service.stdin ++ stdinOf frames } := by
  induction frames generalizing service with
  | nil => simp [take, endOfInput, stdinOf]
  | cons frame frames ih =>
      obtain ⟨hHere, hRest⟩ := List.forall_mem_cons.mp hOpen
      obtain ⟨id, data⟩ := frame
      cases id with
      | closeStdin => exact absurd rfl hHere
      | stdin =>
          simp only [List.cons_append, take]
          rw [ih hRest]
          simp [stdinOf]
      | stdout | stderr | exit | windowSize =>
          simp only [List.cons_append, take]
          rw [ih hRest]
          simp [stdinOf]

/-- The command stays what it is. -/
theorem take_command (frames : List Frame) : (service.take config frames).1.command = service.command := by
  induction frames generalizing service with
  | nil => rfl
  | cons frame frames ih =>
      obtain ⟨id, data⟩ := frame
      cases id with
      | closeStdin => rfl
      | stdin => exact ih
      | stdout | stderr | exit | windowSize => exact ih

/-- The service waits for more of its input. -/
structure Reading (frames : List Frame) (input given : Bytes) (service : ShellV2Service) : Prop where
  undone : service.done = false
  split : ∃ first second more, frames = first ++ second ∧ service.stdin = stdinOf first ∧
    given ++ more = input ∧ Encodes (second ++ [endOfInput]) (service.parser.buffer ++ more)

/-- The service has had all of its input, and has run its command. -/
structure Ran (input given : Bytes) (service : ShellV2Service) : Prop where
  done : service.done = true
  all : given = input
  empty : service.parser.buffer = []

/-- More input is read, and at its end the command is run. -/
theorem onData_reading {frames : List Frame} {input given data : Bytes}
    (hOpen : ∀ frame ∈ frames, frame.id ≠ .closeStdin) (h : Reading frames input given service)
    (hMore : given ++ data <+: input)
    (hFits : (exitOf config service.command (stdinOf frames)).Fits) :
    (Reading frames input (given ++ data) (service.onData config data).1 ∧ (service.onData config data).2 = []) ∨
    (Ran input (given ++ data) (service.onData config data).1 ∧
      Encodes (exitFrames (exitOf config service.command (stdinOf frames)))
        (service.onData config data).2.flatten) := by
  obtain ⟨hUndone, first, second, more, rfl, hStdin, hInput, hEncodes⟩ := h
  obtain ⟨rest, hRest⟩ := hMore
  obtain rfl : more = data ++ rest := by
    rw [← hInput, List.append_assoc] at hRest
    exact (List.append_cancel_left hRest).symm
  rw [← List.append_assoc] at hEncodes
  obtain ⟨taken, later, left, hFrames, hSplit, hLater⟩ := @Parser.split_encodes
    (service.parser.buffer ++ data).length _ _ _ hEncodes
  have hPush : service.parser.push data = (.ok taken, ⟨left⟩) := by rw [Parser.push, hSplit]
  have hData : service.onData config data = take config { service with parser := ⟨left⟩ } taken := by
    rw [onData, hPush]
    rfl
  have hSecond : ∀ frame ∈ second, frame.id ≠ .closeStdin :=
    fun frame hMem => hOpen frame (List.mem_append_right _ hMem)
  rw [hData]
  rcases List.eq_nil_or_concat later with rfl | ⟨before, last, rfl⟩
  · -- Nothing of the input is left.
    rw [List.append_nil] at hFrames
    obtain ⟨rfl, rfl⟩ : left = [] ∧ rest = [] := by
      generalize hNone : left ++ rest = bytes at hLater
      cases hLater
      exact List.append_eq_nil_iff.mp hNone
    rw [← hFrames, take_end hSecond]
    rw [hStdin, ← stdinOf_append]
    obtain ⟨hDone, hParser, hOutput⟩ := @finish_encodes config
      { service with parser := ⟨[]⟩, stdin := stdinOf (first ++ second) } hFits
    rw [List.append_nil] at hRest
    exact Or.inr ⟨⟨hDone, hRest, by rw [hParser]⟩, hOutput⟩
  · obtain ⟨rfl, hLast⟩ : second = taken ++ before ∧ endOfInput = last := by
      rw [List.concat_eq_append, ← List.append_assoc] at hFrames
      obtain ⟨hSame, hEnd⟩ := List.append_inj' hFrames rfl
      exact ⟨hSame, (List.cons.inj hEnd).1⟩
    rw [take_open fun frame hMem => hSecond frame (List.mem_append_left _ hMem)]
    refine Or.inl ⟨⟨hUndone, first ++ taken, before, rest, ?_, ?_, hRest, ?_⟩, rfl⟩
    · rw [List.append_assoc]
    · rw [stdinOf_append, ← hStdin]
    · rw [hLast, ← List.concat_eq_append]
      exact hLater

/-- Behind the input nothing comes, and nothing happens. -/
theorem onData_ran {input given data : Bytes} (h : Ran input given service) (hMore : given ++ data <+: input) :
    data = [] ∧ service.onData config data = (service, []) := by
  obtain ⟨hDone, rfl, hEmpty⟩ := h
  have hNone : data = [] := by
    have hLength := hMore.length_le
    rw [List.length_append] at hLength
    exact List.length_eq_zero_iff.mp (by omega)
  subst hNone
  have hPush : service.parser.push [] = (.ok [], ⟨[]⟩) := by
    rw [Parser.push, hEmpty]
    rfl
  refine ⟨rfl, ?_⟩
  rw [onData, hPush, ← hEmpty]
  rfl

end ShellV2Service

/-- As long as it is given nothing but its input, `shell,v2:` puts out nothing
before the input ends, and then the frames of the exit. -/
def shellV2Law (config : FakeConfig) (command : Bytes) (frames : List Frame) (input : Bytes)
    (hOpen : ∀ frame ∈ frames, frame.id ≠ .closeStdin)
    (hFits : (exitOf config command (stdinOf frames)).Fits) : ServiceLaw services :=
  configLaw config (fun handler given replied => ∃ service, handler = .shellV2 service ∧
    service.command = command ∧
    (given.flatten <+: input → (ShellV2Service.Reading frames input given.flatten service ∧ replied = []) ∨
      (ShellV2Service.Ran input given.flatten service ∧
        Encodes (exitFrames (exitOf config command (stdinOf frames))) replied))) (by
    rintro shared shared' handler handler' data replies given replied hConfig ⟨service, rfl, hCommand, hHolds⟩ hData
    obtain rfl : shared.config = config := hConfig
    subst hCommand
    have hReplies : (service.onData shared.config data).2 = replies := by
      cases hData
      rfl
    have hHandler : handler' = .shellV2 (service.onData shared.config data).1 := by
      cases hData
      rfl
    subst hHandler
    rw [← hReplies]
    refine ⟨_, rfl, ?_, ?_⟩
    · exact ShellV2Service.take_command _
    · intro hMore
      rw [List.flatten_append, List.flatten_singleton] at hMore ⊢
      rcases hHolds ((List.prefix_append _ _).trans hMore) with ⟨hReading, rfl⟩ | ⟨hRan, hOutput⟩
      · rcases (ShellV2Service.onData_reading hOpen hReading hMore hFits) with ⟨hStill, hNone⟩ | ⟨hNow, hEncodes⟩
        · exact Or.inl ⟨hStill, by rw [hNone]; rfl⟩
        · exact Or.inr ⟨hNow, hEncodes⟩
      · obtain ⟨rfl, hSame⟩ := @ShellV2Service.onData_ran shared.config _ _ _ _ hRan hMore
        rw [hSame, List.append_nil, List.flatten_nil, List.append_nil]
        exact Or.inr ⟨hRan, hOutput⟩)

/-- The service obeys the law. -/
theorem shellV2_obeys {config : FakeConfig} {command : Bytes} {frames : List Frame} {input : Bytes}
    (hOpen : ∀ frame ∈ frames, frame.id ≠ .closeStdin)
    (hFits : (exitOf config command (stdinOf frames)).Fits) (hInput : Encodes (frames ++ [endOfInput]) input) :
    (shellV2Law config command frames input hOpen hFits).Obeys (ascii "shell,v2:" ++ command) := by
  intro shared shared' shared'' handler handler' replies hConfig hStart hServe
  change startService shared _ = _ at hStart
  unfold startService at hStart
  split at hStart
  · cases hStart
  · rw [Text.stripPrefix_append] at hStart
    cases hStart
    cases hServe
    refine ⟨_, rfl, rfl, fun _ => Or.inl ⟨⟨rfl, [], frames, input, rfl, rfl, rfl, hInput⟩, rfl⟩⟩

/-- What `shell,v2:` gives the host over the network is the exit of the command
on just the input that the host has sent, however the payloads are cut, if the
host sends that input only and neither end is lost. -/
theorem network_shellV2 {calls : Action → Prop} {limit maxPayload : UInt32} {shared : Shared}
    {trace : List NetworkEvent} {n : Network Shared Service}
    (hRun : Transition.Runs (Network.step services) (Network.Calls calls) (.start limit maxPayload shared) trace n)
    (hLimit : n.host.nextRef ≤ idLimit) {ref : Ref} {id : UInt32}
    (hRemote : (n.host.streams ref).remote = some id) {command : Bytes}
    (hAsked : .posted (some ref) ⟨.open, (n.host.streams ref).localId, 0, ascii "shell,v2:" ++ command ++ [0]⟩ ∈
      hostTrace trace)
    (hText : Utf8.Valid command) (hCommand : checkCommand command = .ok ()) {frames : List Frame} {input : Bytes}
    (hOpen : ∀ frame ∈ frames, frame.id ≠ .closeStdin) (hInput : Encodes (frames ++ [endOfInput]) input)
    (hSent : (((ledger ref (hostTrace trace)).posted.filter fun msg => msg.command = .write).map
      Message.payload).flatten <+: input)
    (hFits : (exitOf shared.config command (stdinOf frames)).Fits)
    (hUnclosed : .owner ref .closed ∉ hostTrace trace)
    (hKept : ∀ refs, .drained refs ∈ hostTrace trace → ref ∉ refs) {out : ShellOutput}
    (hCollect : collectV2 (Channel.ofAnswers (answers ref (hostTrace trace))) = some (.ok out)) :
    out = ⟨(exitOf shared.config command (stdinOf frames)).stdout,
      (exitOf shared.config command (stdinOf frames)).stderr,
      some (exitOf shared.config command (stdinOf frames)).code⟩ := by
  have hName : Utf8.Valid (ascii "shell,v2:" ++ command) := Utf8.Valid.append ⟨"shell,v2:", by decide⟩ hText
  have hNul : 0 ∉ ascii "shell,v2:" ++ command := by
    rw [List.mem_append, not_or]
    exact ⟨by decide, not_mem_of_checkCommand hCommand⟩
  obtain ⟨chunks, received, hEnds, hReceived, rfl⟩ := collectV2_ok hCollect
  obtain ⟨hAll, hClosed⟩ := Network.whole_of_runs hRun hLimit hRemote hUnclosed hKept hEnds
  obtain ⟨handler, ⟨service, rfl, -, hHolds⟩, -, hFinished⟩ := Network.governed_of_runs
    (shellV2Law shared.config command frames input hOpen hFits) rfl hRun hLimit hRemote hAsked hName hNul
    (shellV2_obeys hOpen hFits hInput)
  have hGiven := (Network.upwards_of_runs hRun hLimit hRemote).flatten.trans hSent
  rw [hAll] at hReceived
  rcases hHolds hGiven with ⟨hReading, -⟩ | ⟨-, hOutput⟩
  · have hDone := hFinished hClosed
    rw [show services.finished (.shellV2 service) = service.done from rfl, hReading.undone] at hDone
    cases hDone
  · rw [foldl_apply, hReceived.unique hOutput, collected_exitFrames]

/-- `cat` is given two bytes and the end of its input. -/
def catRun : List NetworkAction :=
  [.host (.openStream (ascii "shell,v2:cat")), .host (.advance 0), .host (.advance 0), .host .hand, .host .handed,
    .serve, .arrive, .host (.advance 0), .host (.advance 0),
    .host (.call 0 (.send [0, 2, 0, 0, 0, 104, 105, 4, 0, 0, 0, 0])), .host (.advance 0), .host (.advance 0),
    .host (.advance 0), .host .hand, .host .handed, .serve, .arrive, .host (.advance 0),
    .arrive, .host (.call 0 .recv), .host (.advance 0), .host (.advance 0), .host .hand, .host .handed, .serve,
    .arrive, .host (.call 0 .recv), .host (.advance 0), .host (.advance 0), .host .hand, .host .handed, .serve,
    .arrive, .host (.call 0 .recv)]

/-- What happens in the session meanwhile. -/
def catTrace : List Event :=
  let input := [0, 2, 0, 0, 0, 104, 105, 4, 0, 0, 0, 0]
  let output := [1, 2, 0, 0, 0, 104, 105]
  let exit := [3, 1, 0, 0, 0, 0]
  [.registered 0 1, .posted (some 0) ⟨.open, 1, 0, ascii "shell,v2:cat" ++ [0]⟩,
    .handed (some 0) ⟨.open, 1, 0, ascii "shell,v2:cat" ++ [0]⟩, .dispatched (.empty .okay 100 1) (some 0),
    .owner 0 (.returned .opened), .posted (some 0) ⟨.write, 1, 100, input⟩, .handed (some 0) ⟨.write, 1, 100, input⟩,
    .dispatched (.empty .okay 100 1) (some 0), .owner 0 (.returned .sent),
    .dispatched ⟨.write, 100, 1, output⟩ (some 0), .owner 0 (.took output), .posted (some 0) (.empty .okay 1 100),
    .owner 0 (.returned (.received (some output))), .handed (some 0) (.empty .okay 1 100),
    .dispatched ⟨.write, 100, 1, exit⟩ (some 0), .owner 0 (.took exit), .posted (some 0) (.empty .okay 1 100),
    .owner 0 (.returned (.received (some exit))), .handed (some 0) (.empty .okay 1 100),
    .dispatched (.empty .close 100 1) (some 0), .owner 0 (.returned (.received none))]

/-- `cat` puts out its two bytes. -/
theorem network_shellV2_cat : ∃ trace n,
    Transition.Runs (Network.step services) (Network.Calls fun _ => True) (.start 4096 4096 plainDevice) trace n ∧
    collectV2 (Channel.ofAnswers (answers 0 (hostTrace trace))) = some (.ok ⟨[104, 105], [], some 0⟩) := by
  obtain ⟨trace, n, hRun, hSeen⟩ := Transition.Runs.of_execute (Network.step services) (Network.Calls fun _ => True)
    (.start 4096 4096 plainDevice) catRun
    (fun result => (result.2.host.nextRef, (result.2.host.streams 0).localId,
      (result.2.host.streams 0).remote, hostTrace result.1))
    (1, 1, some 100, catTrace) (by decide +kernel)
  obtain ⟨hNext, hRest⟩ := Prod.mk.inj hSeen
  obtain ⟨hLocal, hMore⟩ := Prod.mk.inj hRest
  obtain ⟨hRemote, hTrace⟩ := Prod.mk.inj hMore
  have hLimit : n.host.nextRef ≤ idLimit := by rw [hNext]; decide
  have hCollect : collectV2 (Channel.ofAnswers (answers 0 (hostTrace trace))) =
      some (.ok ⟨[104, 105], [], some 0⟩) := by
    rw [hTrace]
    decide +kernel
  have hOutput := @network_shellV2 _ _ _ _ _ _ hRun hLimit _ _ hRemote (ascii "cat")
    (by rw [hTrace, hLocal]; simp [catTrace, ascii]) ⟨"cat", by decide⟩ rfl [⟨.stdin, [104, 105]⟩]
    [0, 2, 0, 0, 0, 104, 105, 4, 0, 0, 0, 0] (by simp)
    (.cons (ShellV2Service.encode_frame (by simp)) (.cons (ShellV2Service.encode_frame (by simp [endOfInput])) .nil)) (by rw [hTrace]; decide +kernel)
    (by decide +kernel) (by rw [hTrace]; simp [catTrace]) (by rw [hTrace]; simp [catTrace]) _ hCollect
  exact ⟨trace, n, hRun, hCollect.trans (congrArg _ (congrArg _ hOutput))⟩

end Rsadb.Fake
