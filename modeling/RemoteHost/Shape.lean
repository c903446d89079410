import RemoteHost.Json.Form

/-!
# Shapes

What a caller expects of a result, what a callback slot expects of a payload, how often a slot
fires, and what happens when a busy lineage is entered.
-/

namespace RemoteHost

/-- What a round trip is expected to produce. -/
inductive ResultShape where
  | value
  | handle
  | optionalHandle
  | handleList
  deriving DecidableEq, Repr

/-- What a callback slot expects as its argument. -/
inductive PayloadShape where
  | empty
  | value
  | handle
  deriving DecidableEq, Repr

inductive Cardinality where
  | oneShot
  | repeatable
  deriving DecidableEq, Repr

/-- Whether a busy lineage makes a newcomer wait or turns it away. -/
inductive ConflictPolicy where
  | queue
  | reject
  deriving DecidableEq, Repr

def ResultShape.name : ResultShape → String
  | .value => "value"
  | .handle => "handle"
  | .optionalHandle => "optional_handle"
  | .handleList => "handle_list"

def PayloadShape.name : PayloadShape → String
  | .empty => "empty"
  | .value => "value"
  | .handle => "handle"

def Cardinality.name : Cardinality → String
  | .oneShot => "one_shot"
  | .repeatable => "repeatable"

def ConflictPolicy.name : ConflictPolicy → String
  | .queue => "queue"
  | .reject => "reject"

def ResultShape.all : List ResultShape := [.value, .handle, .optionalHandle, .handleList]

def PayloadShape.all : List PayloadShape := [.empty, .value, .handle]

def Cardinality.all : List Cardinality := [.oneShot, .repeatable]

def ConflictPolicy.all : List ConflictPolicy := [.queue, .reject]

def named {α : Type} (name : α → String) (all : List α) : List (String × α) :=
  all.map fun a => (name a, a)

def ResultShape.ofJson : Json → Except Json.Mismatch ResultShape :=
  Json.asVariant (named name all)

def PayloadShape.ofJson : Json → Except Json.Mismatch PayloadShape :=
  Json.asVariant (named name all)

def Cardinality.ofJson : Json → Except Json.Mismatch Cardinality :=
  Json.asVariant (named name all)

def ConflictPolicy.ofJson : Json → Except Json.Mismatch ConflictPolicy :=
  Json.asVariant (named name all)

end RemoteHost
