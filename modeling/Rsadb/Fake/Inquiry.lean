import Rsadb.Fake.ShellV2
import Rsadb.Host.Device

/-! Asking the emulated device for what it has been configured with, by a device
handle over an adb server. Every question is a command that is put into words,
run by the emulated shell, and its output read back. -/
namespace Rsadb.Fake

open ShellV2 Host

variable {debug : Bytes → String} {shared : Shared} {config : FakeConfig} {features : List String}

/-- What the service puts out if it is opened and told that there is no input. -/
def serviceOutput (shared : Shared) (service : Bytes) : Option Bytes :=
  (startService shared service).map fun started =>
    let opened := services.onOpen started.1 started.2
    let fed := services.onData opened.1 opened.2.1 (FrameId.closeStdin.toByte :: toLeBytes 0)
    (opened.2.2 ++ fed.2.2).flatten

/-- What a client takes the exit of a command for, given the features of the device. -/
def reported (features : List String) (exit : Shell.Exit) : ShellOutput :=
  if features.any (· = LiveConnection.SHELL_V2_FEATURE) then ⟨exit.stdout, exit.stderr, some exit.code⟩
  else ⟨exit.stdout ++ exit.stderr, [], none⟩

section

variable {command : String} {said : Bytes}

/-- A service of the device is named in ASCII, and then the command. -/
theorem encode_service (command : String) :
    Utf8.encode s!"shell,v2:{command}" = ascii "shell,v2:" ++ Utf8.encode command ∧
    Utf8.encode s!"shell:{command}" = ascii "shell:" ++ Utf8.encode command := by
  constructor <;> exact Utf8.encode_append _ _

/-- The service of a command puts out its exit. -/
theorem serviceOutput_shell (hFits : (Shell.run shared.config (Utf8.encode command)).Fits)
    (hOther : Utf8.encode command ≠ ascii "cat")
    (h : serviceOutput shared (Utf8.encode (serviceOf features command)) = some said) :
    Says features said (reported features (Shell.run shared.config (Utf8.encode command))) := by
  obtain ⟨started, hStart, rfl⟩ := Option.map_eq_some_iff.mp h
  unfold startService at hStart
  unfold Says reported
  split at hStart
  · cases hStart
  · by_cases hV2 : features.any (· = LiveConnection.SHELL_V2_FEATURE) = true
    · rw [serviceOf, if_pos hV2, (encode_service command).1, Text.stripPrefix_append] at hStart
      cases hStart
      have hExit : exitOf shared.config (Utf8.encode command) [] = Shell.run shared.config (Utf8.encode command) :=
        if_neg hOther
      rw [← hExit] at hFits ⊢
      obtain ⟨-, -, hOutput⟩ := @ShellV2Service.finish_encodes shared.config
        ⟨Utf8.encode command, ⟨[]⟩, [], false⟩ hFits
      rw [if_pos hV2, if_pos hV2]
      exact ⟨_, hOutput, (collected_exitFrames _).symm⟩
    · have hOld : Text.stripPrefix (ascii "shell,v2:") (ascii "shell:" ++ Utf8.encode command) = none := rfl
      rw [serviceOf, if_neg hV2, (encode_service command).2, hOld, Text.stripPrefix_append] at hStart
      cases hStart
      rw [if_neg hV2, if_neg hV2]
      simp [services]

/-- The raw output of a command. -/
theorem serviceOutput_exec (h : serviceOutput shared (ascii "exec:" ++ Utf8.encode command) = some said) :
    said = (Shell.run shared.config (Utf8.encode command)).stdout := by
  obtain ⟨started, hStart, rfl⟩ := Option.map_eq_some_iff.mp h
  unfold startService at hStart
  split at hStart
  · cases hStart
  · have hV2 : Text.stripPrefix (ascii "shell,v2:") (ascii "exec:" ++ Utf8.encode command) = none := rfl
    have hShell : Text.stripPrefix (ascii "shell:") (ascii "exec:" ++ Utf8.encode command) = none := rfl
    rw [hV2, hShell, Text.stripPrefix_append] at hStart
    cases hStart
    simp [services]

end

/-- ASCII bytes are their own text. -/
theorem encode_text {bytes : Bytes} (h : ∀ byte ∈ bytes, byte < 0x80) :
    Utf8.text bytes = String.ofList (bytes.map fun byte => Char.ofNat byte.toNat) ∧
      Utf8.encode (Utf8.text bytes) = bytes := by
  have hText : Utf8.text bytes = String.ofList (bytes.map fun byte => Char.ofNat byte.toNat) := by
    conv_lhs => rw [← Utf8.encode_ascii h]
    exact Utf8.text_encode _
  exact ⟨hText, by rw [hText, Utf8.encode_ascii h]⟩

/-- A character that may stand in a name neither ends a word nor quotes anything. -/
theorem plain_of_name {name : Bytes} (h : Props.validateName debug name = .ok ()) :
    name ≠ [] ∧ ∀ byte ∈ name, (byte < 0x80 ∧ byte ≠ 0) ∧ Char.ofNat byte.toNat ≠ '\'' ∧
      Text.isWhitespace (Char.ofNat byte.toNat) = false := by
  have hAll : ∀ n < 256, (isAsciiAlphanumeric (UInt8.ofNat n) || UInt8.ofNat n ∈ ascii "._-:@") = true →
      (UInt8.ofNat n < 0x80 ∧ UInt8.ofNat n ≠ 0) ∧ Char.ofNat (UInt8.ofNat n).toNat ≠ '\'' ∧
        Text.isWhitespace (Char.ofNat (UInt8.ofNat n).toNat) = false := by
    decide +kernel
  unfold Props.validateName at h
  split_ifs at h with hValid
  refine ⟨hValid.1, fun byte hMem => ?_⟩
  have hByte := hAll byte.toNat byte.toNat_lt (by rw [UInt8.ofNat_toNat]; exact List.all_eq_true.mp hValid.2.2 byte hMem)
  rwa [UInt8.ofNat_toNat] at hByte

/-- A word that has no blank and no quote in it is read to its end. -/
theorem foldl_readChar {args : List Bytes} {current : String} {word : List Char} {pending : Bool}
    (hPlain : ∀ c ∈ word, c ≠ '\'' ∧ Text.isWhitespace c = false) :
    word.foldl Shell.readChar ⟨args, current, false, pending⟩ =
      ⟨args, current ++ String.ofList word, false, pending || !word.isEmpty⟩ := by
  induction word generalizing current pending with
  | nil => simp
  | cons c word ih =>
      obtain ⟨⟨hQuote, hBlank⟩, hOthers⟩ := List.forall_mem_cons.mp hPlain
      have hHere : Shell.readChar ⟨args, current, false, pending⟩ c = ⟨args, current.push c, false, true⟩ := by
        simp [Shell.readChar, hQuote, hBlank]
      rw [List.foldl_cons, hHere, ih hOthers]
      simp [← String.toList_inj]

/-- The command that reads a property is ASCII, and has no NUL in it. -/
theorem ascii_getprop {name : Bytes} (h : Props.validateName debug name = .ok ()) :
    ∀ byte ∈ ascii "getprop " ++ name, byte < 0x80 ∧ byte ≠ 0 := by
  have hCommand : ∀ byte ∈ ascii "getprop ", byte < 0x80 ∧ byte ≠ 0 := by
    decide +kernel
  intro byte hMem
  rcases List.mem_append.mp hMem with hFront | hName
  · exact hCommand byte hFront
  · exact ((plain_of_name h).2 byte hName).1

/-- The emulated shell is asked for one property. -/
theorem run_getprop {name : Bytes} (h : Props.validateName debug name = .ok ()) :
    Shell.run config (ascii "getprop " ++ name) = Shell.ok (config.props.getD name [] ++ ascii "\n") := by
  obtain ⟨hSome, hPlain⟩ := plain_of_name h
  have hAscii : ∀ byte ∈ ascii "getprop " ++ name, byte < 0x80 := fun byte hMem => (ascii_getprop h byte hMem).1
  have hFront : ((ascii "getprop ").map fun byte => Char.ofNat byte.toNat).foldl Shell.readChar ⟨[], "", false, false⟩ =
      ⟨[ascii "getprop"], "", false, false⟩ := rfl
  have hWord : ∀ c ∈ name.map fun byte => Char.ofNat byte.toNat, c ≠ '\'' ∧ Text.isWhitespace c = false := by
    intro c hMem
    obtain ⟨byte, hByte, rfl⟩ := List.mem_map.mp hMem
    exact (hPlain byte hByte).2
  have hArgs : Shell.splitArgs (ascii "getprop " ++ name) = [ascii "getprop", name] := by
    rw [Shell.splitArgs, (encode_text hAscii).1, String.toList_ofList, List.map_append, List.foldl_append, hFront,
      foldl_readChar hWord]
    have hName : Utf8.encode (String.ofList (name.map fun byte => Char.ofNat byte.toNat)) = name :=
      Utf8.encode_ascii fun byte hMem => (hPlain byte hMem).1.1
    simp [hSome, hName]
  rw [Shell.run, hArgs]
  rfl

/-- On this connection an adb server has bound the client to a service of the
emulated device, and gives what the service puts out. -/
structure Serves (shared : Shared) (device : HostDevice) (service : String) (stream : TcpStream) : Prop where
  accepts : stream.Accepts
  transport : Host.Fits s!"host:transport:{device.serial}"
  named : Host.Fits service
  ends : stream.Ends
  output : ∃ said, stream.source.pending = ascii "OKAY" ++ (ascii "OKAY" ++ said) ∧
    serviceOutput shared (Utf8.encode service) = some said

variable {device : HostDevice} {stream : TcpStream} {dials : List Dial} {debugText : String → String}

/-- A command that succeeds and complains of nothing is taken for just its output. -/
theorem reported_ok (features : List String) (stdout : Bytes) :
    (reported features (Shell.ok stdout)).success = true ∧ (reported features (Shell.ok stdout)).stdout = stdout := by
  unfold reported
  split_ifs <;> simp [Shell.ok, ShellOutput.success]

/-- A checked command gives the output of the emulated shell. -/
theorem runChecked_serves {bytes stdout : Bytes} (hText : Utf8.encode (Utf8.text bytes) = bytes)
    (hRun : Shell.run shared.config bytes = Shell.ok stdout) (hNul : 0 ∉ bytes) (hOther : bytes ≠ ascii "cat")
    (hFits : (Shell.run shared.config bytes).Fits)
    (h : Serves shared device (serviceOf features (Utf8.text bytes)) stream) :
    Device.runChecked debug (device.connection debugText) bytes (some features, .connected stream :: dials) =
      (some (.ok (reported features (Shell.ok stdout))), (some features, dials)) := by
  obtain ⟨hAccepts, hTransport, hService, hEnds, said, hPending, hOutput⟩ := h
  have hChecked : checkCommand (Utf8.encode (Utf8.text bytes)) = .ok () := by
    rw [hText, checkCommand, if_neg hNul]
  have hSays := serviceOutput_shell (by rwa [hText]) (by rwa [hText]) hOutput
  rw [hText, hRun] at hSays
  have hShell := (@shell_step debugText device stream dials hAccepts features (Utf8.text bytes) _ _).mpr
    ⟨rfl, hChecked, hTransport, hService, hEnds, said, hPending, hSays⟩
  rw [Device.runChecked, Device.shellChecked, Async.bind_ok hShell, if_pos (reported_ok features stdout).1]
  rfl

/-- What a device handle is asked for. -/
inductive Question where
  | property (name : Bytes)
  | properties
  | screen

inductive Answer where
  | value (text : Bytes)
  | table (props : Props.Map)
  | image (png : Bytes)

namespace Question

variable {σ : Type}

/-- The command that the question comes down to. -/
def command : Question → Bytes
  | property name => ascii "getprop " ++ name
  | properties => ascii "getprop"
  | screen => ascii "screencap -p"

/-- The service that the command is run through. -/
def service (features : List String) : Question → String
  | property name => serviceOf features (Utf8.text (property name).command)
  | properties => serviceOf features (Utf8.text properties.command)
  | screen => "exec:screencap -p"

/-- Ask a device. -/
def ask (debug : Bytes → String) (conn : LiveConnection σ) : Question → Async Error (Device.Cached σ) Answer
  | property name => do
      let value ← Device.getprop debug conn name
      pure (.value value)
  | properties => do
      let props ← Device.getprops debug conn
      pure (.table props)
  | screen => do
      let png ← Device.screencap debug conn
      pure (.image png)

/-- Ask one question after the other. -/
def askAll (debug : Bytes → String) (conn : LiveConnection σ) :
    List Question → Async Error (Device.Cached σ) (List Answer)
  | [] => pure []
  | question :: rest => do
      let answer ← question.ask debug conn
      let answers ← askAll debug conn rest
      pure (answer :: answers)

/-- The truth about the device. A value is given without the line ends behind it,
and a property that there is not is empty. -/
def answer (config : FakeConfig) : Question → Answer
  | property name => .value ((config.props.getD name []).rdropWhile fun byte => byte = 13 || byte = 10)
  | properties => .table config.props
  | screen => .image config.screencapPng

/-- Only a valid name can be asked for. -/
def Valid (debug : Bytes → String) : Question → Prop
  | property name => Props.validateName debug name = .ok ()
  | properties | screen => True

end Question

/-- A configuration that can be told from what is printed of it. -/
structure Tidy (debug : Bytes → String) (config : FakeConfig) : Prop where
  names : ∀ name ∈ config.props, Props.validateName debug name = .ok ()
  values : ∀ name value : Bytes, config.props[name]? = some value → Props.Printable value ∧ Utf8.Valid value
  image : Device.PNG_MAGIC <+: config.screencapPng

/-- Every property that there is has a text for its value, and the others have an empty one. -/
theorem Tidy.valid_getD (h : Tidy debug config) (name : Bytes) : Utf8.Valid (config.props.getD name []) := by
  rw [Std.ExtTreeMap.getD_eq_getD_getElem?]
  cases hValue : config.props[name]? with
  | none => exact Utf8.valid_nil
  | some value => exact (h.values name value hValue).2

/-- A text is shown as it is. -/
theorem lossy_of_valid {bytes : Bytes} (h : Utf8.Valid bytes) : Utf8.lossy bytes = bytes := by
  obtain ⟨text, rfl⟩ := h
  exact Utf8.lossy_encode text

/-- What is printed of the properties is text, and is read back. -/
theorem Tidy.parseAll_output (h : Tidy debug config) :
    Utf8.Valid (config.props.toList.flatMap Props.printEntry) ∧
      Props.parseAll (config.props.toList.flatMap Props.printEntry) = config.props := by
  have hEntries : ∀ entry ∈ config.props.toList,
      Props.validateName debug entry.1 = .ok () ∧ Props.Printable entry.2 ∧ Utf8.Valid entry.2 := by
    intro entry hMem
    have hValue := Std.ExtTreeMap.mem_toList_iff_getElem?_eq_some.mp hMem
    refine ⟨h.names _ ?_, h.values _ _ hValue⟩
    rw [Std.ExtTreeMap.mem_iff_isSome_getElem?, hValue]
    rfl
  constructor
  · generalize config.props.toList = entries at hEntries
    induction entries with
    | nil => exact Utf8.valid_nil
    | cons entry entries ih =>
        obtain ⟨⟨hName, -, hValue⟩, hOthers⟩ := List.forall_mem_cons.mp hEntries
        have hText : Utf8.Valid entry.1 :=
          ⟨_, (Utf8.encode_ascii fun byte hMem => ((plain_of_name hName).2 byte hMem).1.1).symm⟩
        have hOpen : Utf8.Valid (ascii "[") := ⟨"[", rfl⟩
        have hBetween : Utf8.Valid (ascii "]: [") := ⟨"]: [", rfl⟩
        have hClose : Utf8.Valid (ascii "]\n") := ⟨"]\n", rfl⟩
        rw [List.flatMap_cons, Props.printEntry]
        exact ((((hOpen.append hText).append hBetween).append hValue).append hClose).append (ih hOthers)
  · rw [Props.parseAll, Props.foldl_print (fun entry hMem => (hEntries entry hMem).1)
      fun entry hMem => (hEntries entry hMem).2.1]
    exact OrderedMap.enter_perm (List.Perm.refl _)

theorem ask_property {name : Bytes} (hTidy : Tidy debug shared.config)
    (hValid : Props.validateName debug name = .ok ())
    (hFits : (Shell.run shared.config (ascii "getprop " ++ name)).Fits)
    (h : Serves shared device ((Question.property name).service features) stream) :
    (Question.property name).ask debug (device.connection debugText) (some features, .connected stream :: dials) =
      (some (.ok ((Question.property name).answer shared.config)), (some features, dials)) := by
  have hAscii := ascii_getprop hValid
  have hRun := @runChecked_serves debug shared features device stream dials debugText _ _
    (encode_text fun byte hMem => (hAscii byte hMem).1).2 (run_getprop hValid)
    (fun hMem => (hAscii 0 hMem).2 rfl) (by rintro ⟨⟩) hFits h
  have hCommand : Props.getprop debug name = .ok (ascii "getprop " ++ name) := by
    rw [Props.getprop, hValid]
    rfl
  have hText : Utf8.Valid (shared.config.props.getD name [] ++ ascii "\n") :=
    (hTidy.valid_getD name).append ⟨"\n", rfl⟩
  have hAsk : Device.getprop debug (device.connection debugText) name (some features, .connected stream :: dials) =
      (some (.ok ((shared.config.props.getD name []).rdropWhile fun byte => byte = 13 || byte = 10)),
        (some features, dials)) := by
    rw [Device.getprop, hCommand, Async.lift_bind, Async.bind_ok hRun, ShellOutput.stdoutText,
      (reported_ok _ _).2, lossy_of_valid hText]
    exact congrArg (fun value => (some (Except.ok value), (some features, dials)))
      (List.rdropWhile_concat_pos _ _ _ rfl)
  exact Async.bind_ok hAsk

theorem ask_properties (hTidy : Tidy debug shared.config)
    (hFits : (Shell.run shared.config (ascii "getprop")).Fits)
    (h : Serves shared device (Question.properties.service features) stream) :
    Question.properties.ask debug (device.connection debugText) (some features, .connected stream :: dials) =
      (some (.ok (Question.properties.answer shared.config)), (some features, dials)) := by
  obtain ⟨hText, hParse⟩ := hTidy.parseAll_output
  have hCommand : Shell.run shared.config (ascii "getprop") =
      Shell.ok (shared.config.props.toList.flatMap Props.printEntry) := rfl
  have hRun := @runChecked_serves debug shared features device stream dials debugText _ _
    (encode_text (by decide +kernel)).2 hCommand (by decide) (by decide) hFits h
  have hAsk : Device.getprops debug (device.connection debugText) (some features, .connected stream :: dials) =
      (some (.ok shared.config.props), (some features, dials)) := by
    rw [Device.getprops, Async.bind_ok hRun, ShellOutput.stdoutText, (reported_ok _ _).2, lossy_of_valid hText, hParse]
    rfl
  exact Async.bind_ok hAsk

theorem ask_screen (hTidy : Tidy debug shared.config)
    (h : Serves shared device (Question.screen.service features) stream) :
    Question.screen.ask debug (device.connection debugText) (some features, .connected stream :: dials) =
      (some (.ok (Question.screen.answer shared.config)), (some features, dials)) := by
  obtain ⟨hAccepts, hTransport, hService, hEnds, said, hPending, hOutput⟩ := h
  have hName : Utf8.encode "exec:screencap -p" = ascii "exec:" ++ Utf8.encode "screencap -p" := by
    decide +kernel
  have hSaid : said = shared.config.screencapPng := by
    apply @serviceOutput_exec shared "screencap -p"
    rw [← hName]
    exact hOutput
  have hDrained := @drained_said debugText device _ stream dials _ hAccepts hTransport hService hEnds hPending
  have hCheck : checkCommand (Utf8.encode "screencap -p") = .ok () := by
    decide +kernel
  have hExec : (device.connection debugText).exec "screencap -p" (.connected stream :: dials) =
      (some (.ok shared.config.screencapPng), dials) := by
    rw [LiveConnection.exec, hCheck, Async.lift_bind, ← hSaid]
    exact hDrained
  have hOnSnd : Async.onSnd ((device.connection debugText).exec "screencap -p")
      (some features, .connected stream :: dials) =
        (some (.ok shared.config.screencapPng), (some features, dials)) := by
    rw [Async.onSnd, hExec]
  obtain ⟨rest, hPng⟩ := hTidy.image
  have hAsk : Device.screencap debug (device.connection debugText) (some features, .connected stream :: dials) =
      (some (.ok shared.config.screencapPng), (some features, dials)) := by
    rw [Device.screencap, Async.bind_ok hOnSnd, if_neg]
    · rfl
    · rw [← hPng, List.length_append, List.take_left, not_or]
      exact ⟨by omega, not_not.mpr rfl⟩
  exact Async.bind_ok hAsk

/-- One question is answered on the next connection. -/
theorem ask_step (hTidy : Tidy debug shared.config) {question : Question} (hValid : question.Valid debug)
    (hFits : (Shell.run shared.config question.command).Fits)
    (h : Serves shared device (question.service features) stream) :
    question.ask debug (device.connection debugText) (some features, .connected stream :: dials) =
      (some (.ok (question.answer shared.config)), (some features, dials)) := by
  cases question with
  | property name => exact ask_property hTidy hValid hFits h
  | properties => exact ask_properties hTidy hFits h
  | screen => exact ask_screen hTidy h

/-- The emulated device, behind an adb server, tells whoever asks it through a
device handle what it has been configured with: whatever the questions are and
in whatever order they come, whichever of the two shell protocols the features
call for, and whatever the pieces are in which the answers arrive, every answer
is the truth about the device. -/
theorem host_device_answers (debug : Bytes → String) (debugText : String → String)
    (hTidy : Tidy debug shared.config) {asked : List (Question × TcpStream)}
    (hAsked : ∀ one ∈ asked, one.1.Valid debug ∧ (Shell.run shared.config one.1.command).Fits ∧
      Serves shared device (one.1.service features) one.2) (dials : List Dial) :
    Question.askAll debug (device.connection debugText) (asked.map Prod.fst)
        (some features, asked.map (fun one => .connected one.2) ++ dials) =
      (some (.ok (asked.map fun one => one.1.answer shared.config)), (some features, dials)) := by
  induction asked with
  | nil => rfl
  | cons one asked ih =>
      obtain ⟨⟨hValid, hFits, hServes⟩, hOthers⟩ := List.forall_mem_cons.mp hAsked
      rw [List.map_cons, List.map_cons, List.cons_append, Question.askAll,
        Async.bind_ok (ask_step hTidy hValid hFits hServes), Async.bind_ok (ih hOthers)]
      rfl

/-- A device with one property, whose value goes on over two lines. -/
def poorDevice : Shared := ⟨⟨(∅ : Props.Map).insert (ascii "a") (ascii "b\n"), Device.PNG_MAGIC, [], 0, []⟩, .new, []⟩

theorem tidy_poorDevice : Tidy (fun _ => "") poorDevice.config := by
  constructor
  · intro name hMem
    simp only [poorDevice, Std.ExtTreeMap.mem_insert, Std.compare_eq_iff_eq, Std.ExtTreeMap.not_mem_empty,
      or_false] at hMem
    subst hMem
    rfl
  · intro name value hFound
    simp only [poorDevice, Std.ExtTreeMap.getElem?_insert, Std.ExtTreeMap.getElem?_empty] at hFound
    split_ifs at hFound
    cases hFound
    refine ⟨?_, "b\n", rfl⟩
    unfold Props.Printable
    decide
  · exact List.prefix_rfl

/-- The property, then all of them, and then the screen. -/
theorem host_device_answers_three : Question.askAll (fun _ => "")
      ((HostDevice.mk HostClient.localServer "emulator").connection id)
      [.property (ascii "a"), .properties, .screen] (some ["shell_v2"], [
        .connected (saying [ascii "OK", ascii "AYOKAY" ++ [1, 3, 0, 0, 0] ++ ascii "b", ascii "\n\n" ++ [3, 1, 0, 0, 0, 0]]
          (by decide)),
        .connected (saying [ascii "OKAYOKAY" ++ [1, 10, 0, 0, 0] ++ ascii "[a]: [b\n]\n" ++ [3, 1, 0, 0, 0, 0]]
          (by decide)),
        .connected (saying [ascii "OKAYOKAY", Device.PNG_MAGIC] (by decide))]) =
    (some (.ok [.value (ascii "b"), .table ((∅ : Props.Map).insert (ascii "a") (ascii "b\n")),
      .image Device.PNG_MAGIC]), (some ["shell_v2"], [])) := by
  have hAnswers := @host_device_answers poorDevice ["shell_v2"] ⟨HostClient.localServer, "emulator"⟩ (fun _ => "") id
    tidy_poorDevice [
      (.property (ascii "a"),
        saying [ascii "OK", ascii "AYOKAY" ++ [1, 3, 0, 0, 0] ++ ascii "b", ascii "\n\n" ++ [3, 1, 0, 0, 0, 0]] (by decide)),
      (.properties,
        saying [ascii "OKAYOKAY" ++ [1, 10, 0, 0, 0] ++ ascii "[a]: [b\n]\n" ++ [3, 1, 0, 0, 0, 0]] (by decide)),
      (.screen, saying [ascii "OKAYOKAY", Device.PNG_MAGIC] (by decide))]
    (by
      simp only [List.forall_mem_cons]
      refine ⟨⟨rfl, by decide +kernel, ?_⟩, ⟨trivial, by decide +kernel, ?_⟩, ⟨trivial, by decide +kernel, ?_⟩, by simp⟩
      · exact ⟨fun _ => rfl, by decide, by decide +kernel, ⟨rfl, rfl⟩, _, rfl, by decide +kernel⟩
      · exact ⟨fun _ => rfl, by decide, by decide +kernel, ⟨rfl, rfl⟩, _, rfl, by decide +kernel⟩
      · exact ⟨fun _ => rfl, by decide, by decide +kernel, ⟨rfl, rfl⟩, _, rfl, by decide +kernel⟩) []
  exact hAnswers

end Rsadb.Fake
