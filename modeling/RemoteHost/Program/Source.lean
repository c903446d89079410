import RemoteHost.Literal.Value
import RemoteHost.Settings
import RemoteHost.Text.Pieces

/-!
# Program text

The pieces that programs are put together from. Data enters a program only as a literal. A template
of a callback operation leaves a placeholder where the token of each slot's endpoint goes.
-/

namespace RemoteHost.Program

def handleRef (s : Settings) (key : String) : String :=
  s.handleTable ++ "[" ++ Literal.quoted key ++ "]"

/-- The program that leaves the envelope of an expression in the result slot. -/
def enveloped (s : Settings) (expression : String) (shape : ResultShape) : String :=
  s.resultSlot ++ " = " ++ s.envelopeHelper ++ "(lambda: (" ++ expression ++ "), " ++
    Literal.quoted shape.name ++ ")"

/-- Stands in a template for the token of an endpoint still to be opened. -/
def placeholder : String := "$CALLBACK_TOKEN"

/-- The function that forwards its arguments to the endpoint of one slot. -/
def callbackLambda (s : Settings) (parameters : List String) : String :=
  "lambda " ++ ", ".intercalate parameters ++ ": " ++ s.callbackHelper ++ "(" ++
    ", ".intercalate (placeholder :: parameters) ++ ")"

def placeholders (template : String) : Nat :=
  Text.occurrences placeholder.toList template.toList

/-- Puts the tokens in place of the placeholders, one each. -/
def substituteTokens (template : String) (tokens : List String) : Except UsageFault String :=
  if placeholders template = tokens.length then
    .ok (String.ofList (Text.fillIn (Text.pieces placeholder.toList template.toList)
      (tokens.map fun t => Literal.quotedChars t.toList)))
  else .error (.placeholderMismatch tokens.length (placeholders template))

/-- The expression that drops keys from the handle table and counts them. -/
def releaseExpression (s : Settings) (keys : List String) : String :=
  "len([" ++ s.handleTable ++ ".pop(k, None) for k in " ++ Literal.ofStrings keys ++ "])"

end RemoteHost.Program
