import Rsadb.Fake.Serving
import Rsadb.Services.Clients

/-! Commands that the host runs on the emulated device, over the network. What
the host collects from the stream is what the command has put out. -/
namespace Rsadb.Fake

/-- A service name comes through as it is. -/
theorem trimmed_name {service : Bytes} (hText : Utf8.Valid service) (hNul : 0 ∉ service) :
    Text.trimEnd 0 (Utf8.lossy (service ++ [0])) = service := by
  obtain ⟨text, rfl⟩ := hText
  have hLossy : Utf8.lossy (Utf8.encode text ++ [0]) = Utf8.encode text ++ [0] := by
    rw [Utf8.lossy_append (by decide), Utf8.lossy_encode]
    rfl
  rw [hLossy, Text.trimEnd_concat, Text.trimEnd_eq_self_iff]
  intro hSuffix
  exact hNul (hSuffix.subset List.mem_cons_self)

/-- A command that is let through has no NUL. -/
theorem not_mem_of_checkCommand {command : Bytes} (h : checkCommand command = .ok ()) : 0 ∉ command := by
  intro hInside
  rw [checkCommand, if_pos hInside] at h
  cases h

/-- The services do not touch the device's configuration. -/
theorem services_config {config : FakeConfig} :
    (∀ {shared shared' : Shared} {service : Bytes} {handler : Service}, shared.config = config →
      services.start shared service = some (shared', handler) → shared'.config = config) ∧
    (∀ {shared shared' : Shared} {handler handler' : Service} {replies : List Bytes}, shared.config = config →
      services.onOpen shared handler = (shared', handler', replies) → shared'.config = config) ∧
    ∀ {shared shared' : Shared} {handler handler' : Service} {data : Bytes} {replies : List Bytes},
      shared.config = config → services.onData shared handler data = (shared', handler', replies) →
      shared'.config = config := by
  refine ⟨?_, ?_, ?_⟩
  · intro shared shared' service handler hConfig hStart
    change startService shared service = _ at hStart
    unfold startService at hStart
    split at hStart
    · cases hStart
    · repeat' split at hStart
      all_goals cases hStart
      all_goals exact hConfig
  · intro shared shared' handler handler' replies hConfig hOpen
    cases handler <;> cases hOpen <;> exact hConfig
  · intro shared shared' handler handler' data replies hConfig hData
    cases handler <;> cases hData <;> exact hConfig

/-- A law under a configuration, which no service changes. -/
def configLaw (config : FakeConfig) (Holds : Service → List Bytes → Bytes → Prop)
    (keeps : ∀ {shared shared' : Shared} {handler handler' : Service} {data : Bytes} {replies : List Bytes}
      {given : List Bytes} {replied : Bytes}, shared.config = config → Holds handler given replied →
      services.onData shared handler data = (shared', handler', replies) →
      Holds handler' (given ++ [data]) (replied ++ replies.flatten)) : ServiceLaw services where
  Inv shared := shared.config = config
  Holds := Holds
  start := services_config.1
  onOpen := services_config.2.1
  onData := services_config.2.2
  keeps := keeps

/-- A service that puts everything out when it is opened. -/
def oneshotLaw (config : FakeConfig) (output : Bytes) : ServiceLaw services :=
  configLaw config (fun handler _ replied => (∃ left, handler = .oneshot left) ∧ replied = output) (by
    rintro shared shared' handler handler' data replies given replied - ⟨⟨left, rfl⟩, rfl⟩ hData
    cases hData
    exact ⟨⟨left, rfl⟩, List.append_nil _⟩)

/-- What a command puts out on one stream: its output alone, or together with its errors. -/
def outputOf (merged : Bool) (exit : Shell.Exit) : Bytes :=
  if merged then exit.stdout ++ exit.stderr else exit.stdout

/-- The name of the service that runs a command, with its errors or without them. -/
def serviceName (merged : Bool) (command : Bytes) : Bytes :=
  (if merged then ascii "shell:" else ascii "exec:") ++ command

/-- A command service puts out what the command does. -/
theorem oneshot_obeys (config : FakeConfig) (merged : Bool) (command : Bytes) :
    (oneshotLaw config (outputOf merged (Shell.run config command))).Obeys (serviceName merged command) := by
  intro shared shared' shared'' handler handler' replies hConfig hStart hOpen
  change shared.config = config at hConfig
  change startService shared _ = _ at hStart
  unfold startService at hStart
  split at hStart
  · cases hStart
  · have hV2 : Text.stripPrefix (ascii "shell,v2:") (serviceName merged command) = none := by
      cases merged <;> rfl
    rw [hV2] at hStart
    cases merged with
    | true =>
        have hShell : Text.stripPrefix (ascii "shell:") (serviceName true command) = some command :=
          Text.stripPrefix_append _ _
        rw [hShell] at hStart
        cases hStart
        cases hOpen
        exact ⟨⟨[], rfl⟩, by simp [outputOf, hConfig]⟩
    | false =>
        have hShell : Text.stripPrefix (ascii "shell:") (serviceName false command) = none := rfl
        have hExec : Text.stripPrefix (ascii "exec:") (serviceName false command) = some command :=
          Text.stripPrefix_append _ _
        rw [hShell, hExec] at hStart
        cases hStart
        cases hOpen
        exact ⟨⟨[], rfl⟩, by simp [outputOf, hConfig]⟩

namespace Network

variable {Shared Handler : Type} {services : Services Shared Handler} {calls : Action → Prop}
  {limit maxPayload : UInt32} {shared : Shared} {trace : List NetworkEvent} {n : Network Shared Handler}

/-- A stream whose owner has asked for a service that obeys a law is under the law. -/
theorem governed_of_runs (law : ServiceLaw services) (hInv : law.Inv shared)
    (hRun : Transition.Runs (step services) (Calls calls) (start limit maxPayload shared) trace n)
    (hLimit : n.host.nextRef ≤ idLimit) {ref : Ref} {id : UInt32}
    (hRemote : (n.host.streams ref).remote = some id) {service : Bytes}
    (hAsked : .posted (some ref) ⟨.open, (n.host.streams ref).localId, 0, service ++ [0]⟩ ∈ hostTrace trace)
    (hText : Utf8.Valid service) (hNul : 0 ∉ service) (hObeys : law.Obeys service) :
    law.Governs (traffic id (deviceTrace trace)) (n.device.streams id) := by
  have hCoherent := coherent_of_runs hRun
  have hSmall := Nat.lt_of_le_of_lt hLimit (by decide : idLimit < Session.openLimit)
  have hOpened := hCoherent.opened_of_remote (opened_of_okay hRun) hRemote
  obtain ⟨request, hReceived, ⟨hOpen, hFrom⟩, hGoverned⟩ :=
    (Device.governed_of_runs law hInv hCoherent.device (hCoherent.opens_le hLimit)).2 _ _ hOpened
  have hHanded := Session.handed_of_named hCoherent.host hSmall (hCoherent.born_of_remote hRemote)
    (hCoherent.handed_of_received hReceived) (by simp [hOpen]) hFrom
  have hPosted : ⟨.open, (n.host.streams ref).localId, 0, service ++ [0]⟩ ∈ (ledger ref (hostTrace trace)).posted := by
    rw [(ledger_messages ref (hostTrace trace)).1, List.mem_filterMap]
    exact ⟨_, mem_posts.mpr hAsked, by simp [ownMessage]⟩
  have hSame := (Session.said_of_runs hCoherent.host ref).inOrder.open_unique
    ((Session.handed_of_posted hCoherent.host ref).subset hHanded) hOpen hPosted rfl
  apply hGoverned
  rw [hSame, trimmed_name hText hNul]
  exact hObeys

end Network

/-- What `exec:` and `shell:` give the host over the network is what the command
puts out, to the last byte, if neither end is lost meanwhile. -/
theorem network_command {calls : Action → Prop} {limit maxPayload : UInt32} {shared : Shared}
    {trace : List NetworkEvent} {n : Network Shared Service}
    (hRun : Transition.Runs (Network.step services) (Network.Calls calls) (.start limit maxPayload shared) trace n)
    (hLimit : n.host.nextRef ≤ idLimit) {ref : Ref} {id : UInt32}
    (hRemote : (n.host.streams ref).remote = some id) {merged : Bool} {command : Bytes}
    (hAsked : .posted (some ref) ⟨.open, (n.host.streams ref).localId, 0, serviceName merged command ++ [0]⟩ ∈
      hostTrace trace)
    (hText : Utf8.Valid command) (hCommand : checkCommand command = .ok ())
    (hUnclosed : .owner ref .closed ∉ hostTrace trace)
    (hKept : ∀ refs, .drained refs ∈ hostTrace trace → ref ∉ refs) {bytes : Bytes}
    (hDrain : Rsadb.drain (Channel.ofAnswers (answers ref (hostTrace trace))) = some (.ok bytes)) :
    bytes = outputOf merged (Shell.run shared.config command) := by
  have hNul : 0 ∉ serviceName merged command := by
    intro hMem
    rcases List.mem_append.mp hMem with hFront | hInside
    · revert hFront
      cases merged <;> decide
    · exact not_mem_of_checkCommand hCommand hInside
  have hName : Utf8.Valid (serviceName merged command) := by
    apply Utf8.Valid.append _ hText
    cases merged
    · exact ⟨"exec:", by decide⟩
    · exact ⟨"shell:", by decide⟩
  obtain ⟨handler, ⟨-, hReplies⟩, -⟩ := Network.governed_of_runs (oneshotLaw shared.config _) rfl hRun hLimit hRemote
    hAsked hName hNul (oneshot_obeys shared.config merged command)
  obtain ⟨chunks, hEnds, rfl⟩ := (drain_ok_iff _ _).mp hDrain
  rw [← hReplies]
  exact (Network.whole_of_runs hRun hLimit hRemote hUnclosed hKept hEnds).1

/-- The output of `id`. -/
theorem network_command_id : ∃ trace n,
    Transition.Runs (Network.step services) (Network.Calls fun _ => True) (.start 4096 4096 plainDevice) trace n ∧
    Rsadb.drain (Channel.ofAnswers (answers 0 (hostTrace trace))) =
      some (.ok (Shell.run plainDevice.config (ascii "id")).stdout) := by
  obtain ⟨trace, n, hRun, hLimit, hLocal, hRemote, hTrace⟩ := output_run
  have hDrain : Rsadb.drain (Channel.ofAnswers (answers 0 (hostTrace trace))) =
      some (.ok (ascii "uid=2000(shell) gid=2000(shell)\n")) := by
    rw [hTrace]
    decide +kernel
  have hOutput := @network_command _ _ _ _ _ _ hRun hLimit _ _ hRemote false (ascii "id")
    (by rw [hTrace, hLocal]; simp [outputTrace, serviceName, ascii]) ⟨"id", by decide⟩ rfl
    (by rw [hTrace]; simp [outputTrace]) (by rw [hTrace]; simp [outputTrace]) _ hDrain
  exact ⟨trace, n, hRun, hDrain.trans (congrArg _ (congrArg _ hOutput))⟩

end Rsadb.Fake
