import RemoteHost.Shape

/-!
# Envelopes

The host answers every program with one envelope. Its kind says which other field it has, and no
kind is ever taken for another. An envelope is an object, or an array of its kind and its fields.
-/

namespace RemoteHost

/-- The wire form of a result. -/
inductive Envelope where
  | primitive (value : Json)
  | handle (key : String)
  | none
  | error (message : String)

inductive Outcome where
  | value (value : Json)
  | handle (key : String)
  | absent

inductive Kind where
  | primitive
  | handle
  | none
  | error
  deriving DecidableEq, Repr

def Kind.name : Kind → String
  | .primitive => "primitive"
  | .handle => "handle"
  | .none => "none"
  | .error => "error"

def Kind.all : List Kind := [.primitive, .handle, .none, .error]

namespace Outcome

def kind : Outcome → Kind
  | .value _ => .primitive
  | .handle _ => .handle
  | .absent => .none

def key? : Outcome → Option String
  | .handle key => some key
  | _ => none

/-- The outcome as a value; nothing at all reads as null. -/
def value? : Outcome → Option Json
  | .value v => some v
  | .absent => some .null
  | .handle _ => none

end Outcome

namespace Envelope

def kind : Envelope → Kind
  | .primitive _ => .primitive
  | .handle _ => .handle
  | .none => .none
  | .error _ => .error

/-- The outcome, or the message of the host's failure. -/
def outcome : Envelope → Except String Outcome
  | .primitive v => .ok (.value v)
  | .handle key => .ok (.handle key)
  | .none => .ok .absent
  | .error message => .error message

def ofOutcome : Outcome → Envelope
  | .value v => .primitive v
  | .handle key => .handle key
  | .absent => .none

def toJson : Envelope → Json
  | .primitive v => .object [("kind", .string "primitive"), ("value", v)]
  | .handle key => .object [("key", .string key), ("kind", .string "handle")]
  | .none => .object [("kind", .string "none")]
  | .error message => .object [("kind", .string "error"), ("message", .string message)]

def kindOfJson : Json → Except Json.Mismatch Kind
  | .string name => Json.variantNamed (named Kind.name Kind.all) name
  | other => .error (.wrongType other "variant identifier")

def needed (name : String) (fields : List (String × Json)) : Except Json.Mismatch Json :=
  match Json.findField name fields with
  | some v => .ok v
  | Option.none => .error (.missingField name)

/-- The envelope of a kind with the fields of an object. Other fields are ignored. -/
def ofFields (fields : List (String × Json)) : Kind → Except Json.Mismatch Envelope
  | .primitive => (needed "value" fields).map .primitive
  | .handle => do .ok (.handle (← Json.asString (← needed "key" fields)))
  | .none => .ok .none
  | .error => do .ok (.error (← Json.asString (← needed "message" fields)))

/-- The only item of an array after its kind. -/
def single (variant : String) (items : List Json) : Except Json.Mismatch Json :=
  match items with
  | [] => .error (.wrongLength 0 ("struct variant Envelope::" ++ variant ++ " with 1 element"))
  | item :: _ => .ok item

/-- Nothing may follow the items that were read. -/
def noMore (items : List Json) (expected : Nat) (text : String) : Except Json.Mismatch Unit :=
  if items.length = expected then .ok () else .error (.wrongLength items.length text)

/-- The envelope of a kind with the items of an array. -/
def ofItems (items : List Json) : Kind → Except Json.Mismatch Envelope
  | .primitive => do
    let value ← single "Primitive" items
    noMore items 1 "1 element in sequence"
    .ok (.primitive value)
  | .handle => do
    let key ← Json.asString (← single "Handle" items)
    noMore items 1 "1 element in sequence"
    .ok (.handle key)
  | .none => do
    noMore items 0 "0 elements in sequence"
    .ok .none
  | .error => do
    let message ← Json.asString (← single "Error" items)
    noMore items 1 "1 element in sequence"
    .ok (.error message)

def ofJson : Json → Except Json.Mismatch Envelope
  | .object fields => do
    let kind ← kindOfJson (← needed "kind" fields)
    ofFields fields kind
  | .array [] => .error (.missingField "kind")
  | .array (first :: items) => do
    let kind ← kindOfJson first
    ofItems items kind
  | other => .error (.wrongType other "internally tagged enum Envelope")

@[simp] theorem outcome_ofOutcome (o : Outcome) : (ofOutcome o).outcome = .ok o := by
  cases o <;> rfl

@[simp] theorem kind_ofOutcome (o : Outcome) : (ofOutcome o).kind = o.kind := by
  cases o <;> rfl

end Envelope

/-- Whether an outcome is what a round trip was expected to produce. -/
def ResultShape.fits : ResultShape → Outcome → Bool
  | .value, .value _ => true
  | .value, .absent => true
  | .handle, .handle _ => true
  | .optionalHandle, .handle _ => true
  | .optionalHandle, .absent => true
  | .handleList, .value (.array _) => true
  | _, _ => false

/-- Whether an outcome is what a callback slot expects. -/
def PayloadShape.accepts : PayloadShape → Outcome → Bool
  | .empty, .absent => true
  | .value, .value _ => true
  | .value, .absent => true
  | .handle, .handle _ => true
  | _, _ => false

end RemoteHost
