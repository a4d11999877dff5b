import Rsadb.Fake.Engine
import Rsadb.Fake.Shell
import Rsadb.Fake.Sync
import Rsadb.Services.ShellV2

/-! Service handlers that the emulated device can open. -/
namespace Rsadb.Fake

/-- State that the services share. -/
structure Shared where
  config : FakeConfig
  fs : Fs
  rebooted : List Bytes

/-- Device side of `shell,v2:`, with stdin support for `cat`. -/
structure ShellV2Service where
  command : Bytes
  parser : ShellV2.Parser
  stdin : Bytes
  done : Bool

inductive Service where
  | oneshot (output : List Bytes)
  | shellV2 (service : ShellV2Service)
  | sync (handler : SyncHandler)

namespace ShellV2Service

/-- One frame. Data that does not fit into one makes the device panic; here it is lost. -/
def frame (id : ShellV2.FrameId) (data : Bytes) : Bytes := (ShellV2.encode id data).toOption.getD []

/-- The input has ended: run the command. -/
def finish (config : FakeConfig) (service : ShellV2Service) : ShellV2Service × List Bytes :=
  let exit := if service.command = ascii "cat" then ⟨service.stdin, [], 0⟩
    else Shell.run config service.command
  ({ service with done := true, stdin := if service.command = ascii "cat" then [] else service.stdin },
    (if exit.stdout ≠ [] then [frame .stdout exit.stdout] else []) ++
      (if exit.stderr ≠ [] then [frame .stderr exit.stderr] else []) ++ [frame .exit [exit.code]])

/-- Take the frames in turn; those behind the end of the input are not looked at. -/
def take (config : FakeConfig) (service : ShellV2Service) : List ShellV2.Frame → ShellV2Service × List Bytes
  | [] => (service, [])
  | frame :: frames =>
      match frame.id with
      | .stdin => take config { service with stdin := service.stdin ++ frame.data } frames
      | .closeStdin => finish config service
      | _ => take config service frames

def onData (config : FakeConfig) (service : ShellV2Service) (data : Bytes) : ShellV2Service × List Bytes :=
  let pushed := service.parser.push data
  take config { service with parser := pushed.2 } (pushed.1.toOption.getD [])

end ShellV2Service

/-- Build the handler for a service, or refuse the open. -/
def startService (shared : Shared) (service : Bytes) : Option (Shared × Service) :=
  if shared.config.refuseServices.any (· = service) then none
  else match Text.stripPrefix (ascii "shell,v2:") service with
  | some cmd => some (shared, .shellV2 ⟨cmd, .default, [], false⟩)
  | none =>
  match Text.stripPrefix (ascii "shell:") service with
  | some cmd =>
      let exit := Shell.run shared.config cmd
      some (shared, .oneshot [exit.stdout ++ exit.stderr])
  | none =>
  match Text.stripPrefix (ascii "exec:") service with
  | some cmd => some (shared, .oneshot [(Shell.run shared.config cmd).stdout])
  | none =>
  if service = ascii "sync:" then some (shared, .sync (.new shared.fs))
  else match Text.stripPrefix (ascii "reboot:") service with
  | some target => some ({ shared with rebooted := shared.rebooted ++ [target] }, .oneshot [])
  | none => none

/-- The services of the emulated device. -/
def services : Services Shared Service where
  start := startService
  onOpen := fun shared service => match service with
    | .oneshot output => (shared, .oneshot [], output)
    | other => (shared, other, [])
  onData := fun shared service data => match service with
    | .oneshot output => (shared, .oneshot output, [])
    | .shellV2 service =>
        let taken := service.onData shared.config data
        (shared, .shellV2 taken.1, taken.2)
    | .sync handler =>
        -- The file system is shared by all handlers.
        let taken := { handler with fs := shared.fs }.onData data
        ({ shared with fs := taken.1.fs }, .sync taken.1, taken.2)
  finished := fun service => match service with
    | .oneshot _ => true
    | .shellV2 service => service.done
    | .sync handler => handler.done

/-- A device without properties or files of its own. -/
def plainDevice : Shared := ⟨⟨∅, [], [], 0, []⟩, .new, []⟩

end Rsadb.Fake
