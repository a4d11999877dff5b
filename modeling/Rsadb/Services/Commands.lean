import Rsadb.LiveConnection
import Rsadb.Services.Clients

/-! The services that run a command, over any connection. Each opens a stream of
its own. -/
namespace Rsadb

/-- Read the whole stream, which is of no use any more then. -/
def Channel.drained : Async Error Channel Bytes := fun channel => (drain channel, channel)

/-- Consume a `shell,v2:` stream, which is of no use any more then. -/
def Channel.collected : Async Error Channel ShellV2.ShellOutput := fun channel => (collectV2 channel, channel)

namespace LiveConnection

open ShellV2

variable {σ : Type}

/-- Open a service and read all that it says. -/
def drained (conn : LiveConnection σ) (service : String) : Async Error σ Bytes := do
  let channel ← conn.openService service
  channel.within Channel.drained

/-- Run `command` through the legacy `shell:` service: stdout and stderr merged, no exit code. -/
def shellV1 (conn : LiveConnection σ) (command : String) : Async Error σ Bytes := do
  Async.lift (checkCommand (Utf8.encode command))
  conn.drained s!"shell:{command}"

/-- Run `command` through `exec:`: raw stdout only. -/
def exec (conn : LiveConnection σ) (command : String) : Async Error σ Bytes := do
  Async.lift (checkCommand (Utf8.encode command))
  conn.drained s!"exec:{command}"

/-- Send the stdin, unless there is none, and then its end. -/
def feedStdin (stdin : Bytes) : Async Error Channel Unit := do
  if stdin ≠ [] then
    let frame ← Async.lift (encode .stdin stdin)
    Channel.send frame
  let frame ← Async.lift (encode .closeStdin [])
  Channel.send frame

/-- Run `command` through `shell,v2:` with `stdin` fed to the process, collecting everything. -/
def shellV2 (conn : LiveConnection σ) (command : String) (stdin : Bytes) : Async Error σ ShellOutput := do
  Async.lift (checkCommand (Utf8.encode command))
  let channel ← conn.openService s!"shell,v2:{command}"
  channel.within (feedStdin stdin >>= fun _ => Channel.collected)

/-- Feature a device must advertise for `shell,v2:` to work. -/
def SHELL_V2_FEATURE : String := "shell_v2"

/-- Run `command` with the best protocol the device offers. -/
def shell (conn : LiveConnection σ) (features : List String) (command : String) : Async Error σ ShellOutput :=
  if features.any (· = SHELL_V2_FEATURE) then conn.shellV2 command []
  else do
    let stdout ← conn.shellV1 command
    pure ⟨stdout, [], none⟩

end LiveConnection

/-- Reboot targets accepted by the `reboot:` service. -/
inductive RebootTarget where
  | system
  | bootloader
  | recovery
  | sideload
  | fastboot
  deriving DecidableEq, Repr

/-- The argument sent after `reboot:`. -/
def RebootTarget.asStr : RebootTarget → String
  | system => ""
  | bootloader => "bootloader"
  | recovery => "recovery"
  | sideload => "sideload"
  | fastboot => "fastboot"

/-- Ask the device to reboot. The stream closes as the device goes down. -/
def LiveConnection.reboot {σ : Type} (conn : LiveConnection σ) (target : RebootTarget) : Async Error σ Unit := do
  let _ ← conn.drained s!"reboot:{target.asStr}"
  pure ()

end Rsadb
