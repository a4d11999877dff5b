import Rsadb.Device.Query
import Rsadb.Library.Lines
import Rsadb.Services.Commands
import Rsadb.Services.Props

/-! Typed helpers over any connection. The features of the device are asked for
once, and every command is run by the protocol that they call for. -/
namespace Rsadb.Device

open ShellV2

variable {σ : Type}

/-- The state behind a connection, with the features of the device once they are known. -/
abbrev Cached (σ : Type) := Option (List String) × σ

/-- The device's advertised features (cached). -/
def features (conn : LiveConnection σ) : Async Error (Cached σ) (List String) := fun (known, s) =>
  match known with
  | some features => (some (.ok features), (known, s))
  | none =>
      match conn.features s with
      | (some (.ok features), s) => (some (.ok features), (some features, s))
      | (other, s) => (other, (none, s))

/-- Run a shell command, using `shell,v2:` when available. -/
def shell (conn : LiveConnection σ) (command : String) : Async Error (Cached σ) ShellOutput := do
  let features ← features conn
  Async.onSnd (conn.shell features command)

/-- Run shell commands one after the other. -/
def shells (conn : LiveConnection σ) : List String → Async Error (Cached σ) (List ShellOutput)
  | [] => pure []
  | command :: rest => do
      let out ← shell conn command
      let outs ← shells conn rest
      pure (out :: outs)

/-- Run a command and fail unless it exited 0 (when an exit code is available). -/
def runChecked (debug : Bytes → String) (conn : LiveConnection σ) (command : Bytes) :
    Async Error (Cached σ) ShellOutput :=
  shellChecked debug (fun command => shell conn (Utf8.text command)) command

/-- Read one system property. -/
def getprop (debug : Bytes → String) (conn : LiveConnection σ) (name : Bytes) : Async Error (Cached σ) Bytes := do
  let command ← Async.lift (Props.getprop debug name)
  let out ← runChecked debug conn command
  pure (out.stdoutText.rdropWhile fun byte => byte = 13 || byte = 10)

/-- Read every system property. -/
def getprops (debug : Bytes → String) (conn : LiveConnection σ) : Async Error (Cached σ) Props.Map := do
  let out ← runChecked debug conn (ascii "getprop")
  pure (Props.parseAll out.stdoutText)

/-- The eight-byte PNG signature. -/
def PNG_MAGIC : Bytes := [0x89, 0x50, 0x4E, 0x47, 0x0D, 0x0A, 0x1A, 0x0A]

/-- Take a screenshot as PNG bytes (`exec:screencap -p`). -/
def screencap (debug : Bytes → String) (conn : LiveConnection σ) : Async Error (Cached σ) Bytes := do
  let png ← Async.onSnd (conn.exec "screencap -p")
  if png.length < PNG_MAGIC.length ∨ png.take PNG_MAGIC.length ≠ PNG_MAGIC then
    Async.fail (.parse
      s!"screencap did not return a PNG ({png.length} bytes: {debug (Utf8.lossy (png.take (min png.length 64)))})")
  else pure png

/-- Query a content provider. -/
def contentQuery (debug : Bytes → String) (conn : LiveConnection σ) (uri : Bytes) (projection : List Bytes) :
    Async Error (Cached σ) (List Content.Row) :=
  contentQueryWith debug (fun command => shell conn (Utf8.text command)) uri projection []

/-- Reboot the device. -/
def reboot (conn : LiveConnection σ) (target : RebootTarget) : Async Error (Cached σ) Unit :=
  Async.onSnd (conn.reboot target)

end Rsadb.Device
