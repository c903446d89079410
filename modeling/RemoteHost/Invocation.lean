import RemoteHost.Evaluation

/-!
# Starting callback operations

A template is a source text with one placeholder for every slot. All endpoints are opened before
the program is sent; if anything fails on the way, those that were opened are closed again.
-/

namespace RemoteHost

variable {F : Type}

structure Invoked where
  operation : OperationId
  outcome : Outcome
  tokens : List String

def closeAll : List Opened → Job F Unit
  | [] => pure ()
  | opened :: rest => do
    Job.closeEndpoint opened.endpoint
    closeAll rest

/-- Opens `count` more endpoints, closing all of them if one cannot be opened. -/
def openAll (opened : List Opened) : Nat → Job F (List Opened)
  | 0 => pure opened
  | count + 1 => do
    match ← Job.openEndpoint with
    | .ok endpoint => openAll (opened ++ [endpoint]) count
    | .error fault => do
      closeAll opened
      throw (.transport fault)

/-- Runs a template and starts to listen for its callbacks. Reports name the operation by its
label. -/
def invoke (s : Settings) (label template : String) (shape : ResultShape)
    (slots : List (Slot F)) (lineage : LineageId) : Job F Invoked := do
  if Program.placeholders template ≠ slots.length then
    throw (.usage (.placeholderMismatch slots.length (Program.placeholders template)))
  let endpoints ← openAll [] slots.length
  let tokens := endpoints.map (·.token)
  let source ← Job.ofUsage (Program.substituteTokens template tokens)
  let outcome ← tryCatch (evaluate s source shape lineage) fun fault => do
    closeAll endpoints
    throw fault
  let operation ← Job.launch label endpoints slots lineage
  pure ⟨operation, outcome, tokens⟩

end RemoteHost
