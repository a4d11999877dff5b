import Rsadb.Device.Shell
import Rsadb.Host.Tracking

/-! A device handle over an adb server. The features of the device are asked for
before the first command and never again, and every command has a connection of
its own. -/
namespace Rsadb.Host

open ShellV2

variable {debug : String → String} {device : HostDevice} {stream : TcpStream} {dials : List Dial}

/-- The features that the server lists, on the connection on which it is asked for them. -/
structure Lists (device : HostDevice) (stream : TcpStream) (text : String) : Prop where
  accepts : stream.Accepts
  request : Fits s!"host-serial:{device.serial}:features"
  fits : Fits text
  listed : ∃ rest, stream.source.pending = ascii "OKAY" ++ (requestFrame text ++ rest)

/-- The first question about the features is put to the server. -/
theorem features_asked {text : String} (h : Lists device stream text) :
    Device.features (device.connection debug) (none, .connected stream :: dials) =
      (some (.ok (splitFeatures (Utf8.encode text))), (some (splitFeatures (Utf8.encode text)), dials)) := by
  obtain ⟨hAccepts, hRequest, hText, rest, hListed⟩ := h
  have hQuery := @query_okay debug stream device.client _ _ _ dials hAccepts hRequest hText hListed
  have hFeatures : (device.connection debug).features (.connected stream :: dials) =
      (some (.ok (splitFeatures (Utf8.encode text))), dials) := Async.bind_ok hQuery
  simp only [Device.features, hFeatures]

/-- Once they are known the features are not asked for again. -/
theorem features_known {σ : Type} (conn : LiveConnection σ) (features : List String) (s : σ) :
    Device.features conn (some features, s) = (some (.ok features), (some features, s)) := rfl

/-- One command runs on the next connection. -/
theorem shell_step (hAccepts : stream.Accepts) {features : List String} {command : String} {out : ShellOutput}
    {s : Device.Cached (List Dial)} :
    Device.shell (device.connection debug) command (some features, .connected stream :: dials) =
        (some (.ok out), s) ↔
      s = (some features, dials) ∧ Ran device features command stream out := by
  obtain ⟨known, left⟩ := s
  rw [Device.shell, Async.bind_ok (features_known _ _ _), Async.onSnd, Prod.mk.injEq, Prod.mk.injEq, Prod.mk.injEq]
  constructor
  · rintro ⟨hOut, rfl, hLeft⟩
    obtain ⟨hSame, hRan⟩ := (shell_ran hAccepts).mp (Prod.ext hOut hLeft)
    exact ⟨⟨rfl, hSame⟩, hRan⟩
  · rintro ⟨⟨rfl, hSame⟩, hRan⟩
    have hShell := (@shell_ran debug _ _ _ hAccepts _ _ _ _).mpr ⟨hSame, hRan⟩
    obtain ⟨hOut, hLeft⟩ := Prod.mk.inj hShell
    exact ⟨hOut, rfl, hLeft⟩

/-- Commands that are run one after the other run each on its own connection. -/
theorem shells_known {features : List String} {runs : List (String × TcpStream)}
    (hAccepts : ∀ run ∈ runs, run.2.Accepts) {outs : List ShellOutput} {s : Device.Cached (List Dial)} :
    Device.shells (device.connection debug) (runs.map Prod.fst)
        (some features, runs.map (fun run => .connected run.2) ++ dials) = (some (.ok outs), s) ↔
      s = (some features, dials) ∧ List.Forall₂ (fun run out => Ran device features run.1 run.2 out) runs outs := by
  induction runs generalizing outs with
  | nil => simp [Device.shells, Prod.ext_iff, eq_comm, and_comm]
  | cons run runs ih =>
      obtain ⟨hHere, hOthers⟩ := List.forall_mem_cons.mp hAccepts
      rw [List.map_cons, List.map_cons, List.cons_append, Device.shells]
      constructor
      · intro h
        obtain ⟨out, middle, hFirst, h⟩ := Async.bind_eq_ok h
        obtain ⟨rfl, hRan⟩ := (shell_step hHere).mp hFirst
        obtain ⟨later, last, hLater, hPure⟩ := Async.bind_eq_ok h
        cases hPure
        obtain ⟨hSame, hRest⟩ := (ih hOthers).mp hLater
        exact ⟨hSame, .cons hRan hRest⟩
      · rintro ⟨rfl, hRuns⟩
        cases hRuns with
        | cons hRan hRest =>
            rw [Async.bind_ok ((shell_step hHere).mpr ⟨rfl, hRan⟩), Async.bind_ok ((ih hOthers).mpr ⟨rfl, hRest⟩)]
            rfl

/-- Commands that are given to a device handle one after the other, over an adb
server, give these outputs exactly if the server has run each of them on the
device, on a connection of its own and by the protocol that the features call
for, and the device has given the outputs: those of one command, whole and in
whatever pieces they come, are never taken for those of another. The features are
asked for once, before the first command. -/
theorem host_device_runs (debug : String → String) {first : TcpStream} {text : String}
    (hLists : Lists device first text) {run : String × TcpStream} {runs : List (String × TcpStream)}
    (hAccepts : ∀ run' ∈ run :: runs, run'.2.Accepts) {outs : List ShellOutput} {s : Device.Cached (List Dial)} :
    Device.shells (device.connection debug) ((run :: runs).map Prod.fst)
        (none, .connected first :: (run :: runs).map (fun run => .connected run.2) ++ dials) =
        (some (.ok outs), s) ↔
      s = (some (splitFeatures (Utf8.encode text)), dials) ∧
      List.Forall₂ (fun run out => Ran device (splitFeatures (Utf8.encode text)) run.1 run.2 out)
        (run :: runs) outs := by
  rw [← @shells_known debug device _ _ _ hAccepts]
  have hFirst : ∀ left, Device.shell (device.connection debug) run.1 (none, .connected first :: left) =
      Device.shell (device.connection debug) run.1 (some (splitFeatures (Utf8.encode text)), left) := by
    intro left
    rw [Device.shell, Async.bind_ok (features_asked hLists), Async.bind_ok (features_known _ _ _)]
  have hAll : ∀ left, Device.shells (device.connection debug) ((run :: runs).map Prod.fst)
      (none, .connected first :: left) = Device.shells (device.connection debug) ((run :: runs).map Prod.fst)
        (some (splitFeatures (Utf8.encode text)), left) := by
    intro left
    rw [List.map_cons, Device.shells]
    exact Async.bind_congr (hFirst left)
  rw [List.cons_append, hAll]

/-- Two commands, the second of which puts nothing out and fails. -/
theorem host_device_runs_two : Device.shells ((HostDevice.mk HostClient.localServer "emulator").connection id)
    ["echo hi", "false"] (none, [
      .connected (saying [ascii "OKAY0", ascii "008shell_v2"] (by decide)),
      .connected (saying [ascii "OKAYOK", ascii "AY" ++ [1, 3, 0], [0, 0] ++ ascii "hi\n" ++ [3, 1, 0, 0, 0], [0]]
        (by decide)),
      .connected (saying [ascii "OKAYOKAY", [3, 1, 0, 0, 0, 1]] (by decide))]) =
    (some (.ok [⟨ascii "hi\n", [], some 0⟩, ⟨[], [], some 1⟩]), (some ["shell_v2"], [])) := by
  have hFeatures : splitFeatures (Utf8.encode "shell_v2") = ["shell_v2"] := by decide +kernel
  have hRuns := @host_device_runs ⟨HostClient.localServer, "emulator"⟩ [] id
    (saying [ascii "OKAY0", ascii "008shell_v2"] (by decide)) "shell_v2"
    ⟨fun _ => rfl, by decide, by decide, [], by decide⟩
    ("echo hi", saying [ascii "OKAYOK", ascii "AY" ++ [1, 3, 0], [0, 0] ++ ascii "hi\n" ++ [3, 1, 0, 0, 0], [0]]
      (by decide))
    [("false", saying [ascii "OKAYOKAY", [3, 1, 0, 0, 0, 1]] (by decide))]
    (by simp [TcpStream.Accepts, saying]) [⟨ascii "hi\n", [], some 0⟩, ⟨[], [], some 1⟩] (some ["shell_v2"], [])
  rw [hFeatures] at hRuns
  refine hRuns.mpr ⟨rfl, .cons ⟨by decide, by decide, by decide, ⟨rfl, rfl⟩, _, rfl, ?_⟩
    (.cons ⟨by decide, by decide, by decide, ⟨rfl, rfl⟩, _, rfl, ?_⟩ .nil)⟩
  · have hEcho : encode .stdout (ascii "hi\n") = .ok ([1, 3, 0, 0, 0] ++ ascii "hi\n") := by decide
    have hExit : encode .exit [0] = .ok [3, 1, 0, 0, 0, 0] := by decide
    have hFrames : Encodes [⟨.stdout, ascii "hi\n"⟩, ⟨.exit, [0]⟩]
        ([1, 3, 0, 0, 0] ++ ascii "hi\n" ++ ([3, 1, 0, 0, 0, 0] ++ [])) := .cons hEcho (.cons hExit .nil)
    exact ⟨_, hFrames, by decide⟩
  · have hExit : encode .exit [1] = .ok [3, 1, 0, 0, 0, 1] := by decide
    exact ⟨[⟨.exit, [1]⟩], .cons hExit .nil, by decide⟩

end Rsadb.Host
