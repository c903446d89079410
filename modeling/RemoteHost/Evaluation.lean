import RemoteHost.Program.Prelude
import RemoteHost.Proxy
import RemoteHost.Routine

/-!
# Round trips

One program, one reply. A round trip waits for its turn in the lineage, hands the program over once
and ends the turn whatever the reply is. Only then is the reply read, checked against the expected
shape, and the handles it brings recorded.
-/

namespace RemoteHost

variable {F α : Type}

/-- The keys that an outcome of a shape gives to the session. -/
def ResultShape.received : ResultShape → Outcome → List String
  | _, .handle key => [key]
  | .handleList, .value (.array items) => items.filterMap Json.text?
  | _, _ => []

def outcomeOfReply (reply : Json) : Except Fault Outcome :=
  match Envelope.ofJson reply with
  | .error mismatch => .error (.transport (.malformed (.envelope mismatch)))
  | .ok envelope =>
    match envelope.outcome with
    | .error message => .error (.remote message)
    | .ok outcome => .ok outcome

/-- The outcome of a reply, if it has the expected shape. -/
def outcomeOfShape (shape : ResultShape) (reply : Json) : Except Fault Outcome :=
  match outcomeOfReply reply with
  | .error fault => .error fault
  | .ok outcome =>
    match shape.accept outcome with
    | .error fault => .error (.transport fault)
    | .ok outcome => .ok outcome

/-- Runs a program in a turn of a lineage and returns the host's reply. -/
def roundTrip (s : Settings) (program : String) (lineage : LineageId) : Job F Json := do
  Job.enter lineage s.stepConflict
  Job.submit program
  let reply ← Job.collect
  Job.complete lineage
  Job.ofTransport reply

def recordAll : List String → Job F Unit
  | [] => pure ()
  | key :: keys => do
    Job.record key
    recordAll keys

def evaluate (s : Settings) (expression : String) (shape : ResultShape) (lineage : LineageId) :
    Job F Outcome := do
  let reply ← roundTrip s (Program.enveloped s expression shape) lineage
  match outcomeOfShape shape reply with
  | .error fault => throw fault
  | .ok outcome =>
    recordAll (shape.received outcome)
    pure outcome

/-- Evaluates an expression on the host and reads its value. Nothing at all reads as null. -/
def evaluateAs (s : Settings) (expression : String) (shape : ResultShape) (lineage : LineageId)
    (read : Json → Except Fault α) : Job F α := do
  match ← evaluate s expression shape lineage with
  | .value v => ExceptT.mk (pure (read v))
  | .absent => ExceptT.mk (pure (read .null))
  | .handle _ => throw (.transport (.unexpectedKind shape .handle))

/-- Runs a program that fills the result slot itself. -/
def runProgram (s : Settings) (program : String) (lineage : LineageId) : Job F Outcome := do
  let reply ← roundTrip s program lineage
  match outcomeOfReply reply with
  | .error fault => throw fault
  | .ok outcome => pure outcome

/-- Prepares the host and returns the version that it reports. -/
def installPrelude (s : Settings) (lineage : LineageId) : Job F Json := do
  let outcome ← runProgram s (Program.prelude s) lineage
  pure (outcome.value?.getD .null)

/-- Reads the number of handles that the host dropped. -/
def readReleaseCount (value : Json) : Except Fault Nat :=
  match value.nat? with
  | some n => .ok n
  | none => .error (.transport (.malformed (.notReleaseCount value)))

/-- Drops every live handle from the host's table and returns how many the host dropped. If that
fails, the keys are taken back. -/
def releaseHandles (s : Settings) (lineage : LineageId) : Job F Nat := do
  let keys ← Job.drain
  if keys.isEmpty then pure 0
  else
    tryCatch (evaluateAs s (Program.releaseExpression s keys) .value lineage readReleaseCount)
      fun fault => do
        Job.restore keys
        throw fault

end RemoteHost
