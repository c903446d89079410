import RemoteHost.Resolution

/-!
# Queries

A query is an operation together with how its result is read. Operations that return objects can be
deferred; all others are definite and run at once, or fail for want of a step.
-/

namespace RemoteHost

variable {F : Type}

/-- How the result of a query is read. -/
inductive Reading where
  | unit
  | value
  | integer
  | boolean
  | texts
  | optionalText
  | mapping
  | object
  | optionalObject
  | objects
  deriving DecidableEq, Repr

def Reading.shape : Reading → ResultShape
  | .object => .handle
  | .optionalObject => .optionalHandle
  | .objects => .handleList
  | _ => .value

structure Query where
  suffix : String
  reading : Reading
  deriving DecidableEq, Repr

namespace Query

/-- The call of a method with arguments that are literals already. -/
def method (name : String) (arguments : List String) (reading : Reading) : Query :=
  ⟨(Operation.method name arguments).suffix, reading⟩

def member (name : String) (reading : Reading) : Query :=
  ⟨(Operation.member name).suffix, reading⟩

def operation (q : Query) : Operation := ⟨q.suffix, q.reading.shape⟩

end Query

inductive Answer where
  | unit
  | value (value : Json)
  | integer (value : Int)
  | boolean (value : Bool)
  | texts (values : List String)
  | optionalText (value : Option String)
  | mapping (fields : List (String × Json))
  | object (object : Proxy)
  | optionalObject (object : Option Proxy)
  | objects (objects : List Proxy)

/-- The texts of a list; the first item that is none is reported. -/
def textsOf : List Json → Except Malformation (List String)
  | [] => .ok []
  | .string text :: rest => do .ok (text :: (← textsOf rest))
  | other :: _ => .error (.notTexts other)

/-- Reads a value as a reading without objects asks for. -/
def Reading.ofValue (value : Json) : Reading → Except Malformation Answer
  | .integer =>
    match value.signed? with
    | some n => .ok (.integer n)
    | none => .error (.notInteger value)
  | .boolean =>
    match value with
    | .bool b => .ok (.boolean b)
    | other => .error (.notBoolean other)
  | .texts =>
    match value with
    | .array items => (textsOf items).map .texts
    | other => .error (.notTexts other)
  | .optionalText =>
    match value with
    | .null => .ok (.optionalText none)
    | .string text => .ok (.optionalText (some text))
    | other => .error (.notOptionalText other)
  | .mapping =>
    match value with
    | .object fields => .ok (.mapping fields)
    | .null => .ok (.mapping [])
    | other => .error (.notMapping other)
  | .unit => .ok .unit
  | _ => .ok (.value value)

/-- Reads an outcome of the right shape. -/
def Reading.ofOutcome (reading : Reading) (outcome : Outcome) : Except Fault Answer :=
  let unexpected := Except.error (.transport (.unexpectedKind reading.shape outcome.kind))
  match reading, outcome with
  | .object, .handle key => .ok (.object (.resolved key))
  | .object, _ => unexpected
  | .optionalObject, .handle key => .ok (.optionalObject (some (.resolved key)))
  | .optionalObject, .absent => .ok (.optionalObject none)
  | .optionalObject, _ => unexpected
  | .objects, .value v =>
    match handleKeys v with
    | .ok keys => .ok (.objects (keys.map .resolved))
    | .error fault => .error (.transport fault)
  | .objects, _ => unexpected
  | _, .value v => (reading.ofValue v).mapError fun cause => .transport (.malformed cause)
  | _, .absent => (reading.ofValue .null).mapError fun cause => .transport (.malformed cause)
  | _, .handle _ => unexpected

/-- The outcome of an operation that is not deferred. -/
def settle (s : Settings) (receiver : Proxy) (op : Operation) (step : Option LineageId) :
    Job F Outcome := do
  match ← call s receiver op step with
  | .resolved outcome => pure outcome
  | .pending pending => pending.resolve s step

/-- The object that an operation returns, which may come back pending. -/
def askObject (s : Settings) (receiver : Proxy) (suffix : String) (step : Option LineageId) :
    Job F Proxy := do
  match ← call s receiver ⟨suffix, .handle⟩ step with
  | .pending pending => pure pending.proxy
  | .resolved (.handle key) => pure (.resolved key)
  | .resolved other => throw (.transport (.unexpectedKind .handle other.kind))

/-- Asks a receiver. Only an object may come back pending. -/
def Query.ask (s : Settings) (receiver : Proxy) (q : Query) (step : Option LineageId) :
    Job F Answer :=
  if q.reading = .object then do
    pure (.object (← askObject s receiver q.suffix step))
  else do
    let outcome ← settle s receiver q.operation step
    ExceptT.mk (pure (q.reading.ofOutcome outcome))

end RemoteHost
