import RemoteHost.Routine

/-!
# Callback operations

An operation listens at one endpoint for every slot. It takes payloads one at a time, calls the
function of the slot they came in for, and ends when a one-shot slot has fired, when it is
reclaimed, when nothing can arrive any more, or when a function dies.
-/

namespace RemoteHost

/-- What the function of a slot is called with. The lineage is new and made for the call. -/
structure Delivery where
  token : String
  payload : Outcome
  lineage : LineageId

/-- What the function of a slot has to tell about its call. -/
inductive Reaction where
  | nothing
  | evaluated (outcome : Outcome)
  | prompted (outcome : Outcome)

/-- How the call of a slot's function ends. -/
inductive Verdict where
  | returned (result : Except Fault Reaction)
  /-- The function went down and takes the operation with it. -/
  | died

/-- What the functions of slots do. -/
abbrev Behaviour (F : Type) := F → Delivery → Routine F Verdict

inductive Ending where
  | oneShotFired
  | reclaimed
  | endpointsClosed
  | aborted
  deriving DecidableEq, Repr

/-- Whether the endpoints were closed by the operation or by supervision. -/
def Ending.tornDown : Ending → Bool
  | .oneShotFired | .reclaimed => true
  | .endpointsClosed | .aborted => false

structure Listener (F : Type) where
  slot : Slot F
  opened : Opened
  /-- Cleared when nothing can arrive any more. -/
  listening : Bool := true

/-- A call of a slot's function that has not ended. -/
structure Calling (F : Type) where
  cardinality : Cardinality
  delivery : Delivery
  rest : Routine F Verdict

inductive Stage (F : Type) where
  | listening
  | calling (call : Calling F)
  | ended (ending : Ending)

structure CallbackOperation (F : Type) where
  label : String
  listeners : List (Listener F)
  parent : LineageId
  stage : Stage F := .listening
  /-- The functions that were called and returned. -/
  invocations : Nat := 0
  /-- Whether supervision knows the operation. -/
  registered : Bool := true
  /-- Set by supervision to make the operation end. -/
  stopping : Bool := false

namespace CallbackOperation

variable {F : Type}

def tokens (op : CallbackOperation F) : List String := op.listeners.map (·.opened.token)

def endpoints (op : CallbackOperation F) : List EndpointId := op.listeners.map (·.opened.endpoint)

def deafen (op : CallbackOperation F) (index : Nat) : CallbackOperation F :=
  { op with listeners := op.listeners.modify index fun l => { l with listening := false } }

end CallbackOperation

/-- The outcome that a payload brings to a slot, if the slot takes it. Anything that is no envelope,
reports an error or does not fit is refused. -/
def Slot.accepts? {F : Type} (slot : Slot F) (payload : Json) : Option Outcome :=
  match Envelope.ofJson payload with
  | .error _ => none
  | .ok envelope =>
    match envelope.outcome with
    | .error _ => none
    | .ok outcome => if slot.payload.accepts outcome then some outcome else none

structure CallReport where
  token : String
  payload : Outcome
  /-- The label of the lineage that the operation was started in. -/
  parent : String
  /-- The round trips made in that lineage. -/
  roundTrips : Nat
  result : Except Fault Reaction

structure OperationReport where
  label : String
  invocations : Nat
  ending : Ending

end RemoteHost
