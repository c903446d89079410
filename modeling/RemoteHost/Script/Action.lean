import RemoteHost.Callback
import RemoteHost.Catalogue.Panel

/-!
# Actions

What the slots of a script's callback operations do when they are called.
-/

namespace RemoteHost.Script

inductive Action where
  | quiet
  /-- Evaluates an expression; `{h}` in it stands for the payload's object. -/
  | evaluate (expression : String) (shape : ResultShape)
  | fail (message : String)
  /-- Asks for a line of text, in an operation named by the caption. -/
  | prompt (caption : String)
  | die

def handleMark : String := "\x7bh\x7d"

/-- The expression with its mark filled in, if the payload is an object. -/
def expressionFor (s : Settings) (expression : String) : Outcome → String
  | .handle key =>
    let reference := (Program.handleRef s key).toList
    String.ofList (Text.replaceAll handleMark.toList reference expression.toList)
  | _ => expression

def promptPanel (caption : String) : InputPanel Action where
  caption := caption
  initialText := ""
  onDone := .quiet

def Action.behave (s : Settings) : Behaviour Action
  | .quiet, _ => pure (.returned (.ok .nothing))
  | .fail message, _ => pure (.returned (.error (.remote message)))
  | .die, _ => pure .died
  | .evaluate expression shape, delivery => do
    let source := expressionFor s expression delivery.payload
    let result ← (RemoteHost.evaluate s source shape delivery.lineage).run
    pure (.returned (result.map .evaluated))
  | .prompt caption, delivery => do
    let shown := (promptPanel caption).present s caption (activeWindow s) delivery.lineage
    let result ← shown.run
    pure (.returned (result.map fun invoked => .prompted invoked.outcome))

end RemoteHost.Script
