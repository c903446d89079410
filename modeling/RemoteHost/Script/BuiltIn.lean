import RemoteHost.Catalogue.Command
import RemoteHost.Script.Action

/-!
# Built-in commands

The window commands that a script can register.
-/

namespace RemoteHost.Script

inductive BuiltIn where
  | plain
  | announce
  | forward
  | hidden
  | disabled
  | failing
  deriving DecidableEq, Repr

/-- Asks a window in a lineage and ignores the answer. -/
def tell (s : Settings) (window : Proxy) (operation : WindowOperation) (lineage : LineageId) :
    Job Action Unit := do
  let _ ← (operation.query s).ask s window (some lineage)
  pure ()

/-- Says its message in the status bar. It can be told to keep out of sight. -/
def announceCommand (s : Settings) : Command Action where
  run key arguments lineage := do
    let window ← commandWindow s key lineage
    let message := ((arguments.field? "message").bind Json.text?).getD "hello"
    tell s window (.statusMessage message) lineage
  isEnabled key _ lineage := do
    let window ← commandWindow s key lineage
    match ← (WindowOperation.numGroups.query s).ask s window (some lineage) with
    | .integer groups => pure (groups > 1)
    | _ => pure false
  isVisible _ arguments _ := pure ((arguments.field? "quiet").bind Json.bool? != some true)

/-- Runs another command in the same window. -/
def forwardCommand (s : Settings) : Command Action where
  run key arguments lineage := do
    let window ← commandWindow s key lineage
    let command := ((arguments.field? "command").bind Json.text?).getD "noop"
    let passed := match arguments.field? "args" with
      | some (.object fields) => some fields
      | _ => none
    tell s window (.runCommand command passed) lineage

def BuiltIn.command (s : Settings) : BuiltIn → Command Action
  | .plain =>
    { run := fun _ _ lineage => do
        let _ ← evaluate s "plain()" .value lineage
        pure () }
  | .announce => announceCommand s
  | .forward => forwardCommand s
  | .hidden => { isVisible := fun _ _ _ => pure false }
  | .disabled => { isEnabled := fun _ _ _ => pure false }
  | .failing => { run := fun _ _ _ => throw (.remote "command failed") }

end RemoteHost.Script
