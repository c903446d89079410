import RemoteHost.Fault
import RemoteHost.Lineage

/-!
# Routines

A routine is what a session operation does, as a tree: it is done, or it asks the session for
something and goes on with the answer. Between two requests anything else may happen in the
session, so every point where a routine asks is a point where others may run or where it may be
abandoned. What the functions of callback slots do is left to a type `F` of their names.
-/

namespace RemoteHost

abbrev EndpointId := Nat

abbrev OperationId := Nat

/-- One callback registration of an operation. -/
structure Slot (F : Type) where
  cardinality : Cardinality
  payload : PayloadShape
  action : F

/-- An endpoint as its opener knows it. -/
structure Opened where
  endpoint : EndpointId
  token : String
  deriving DecidableEq, Repr

/-- What a routine can ask the session for. -/
inductive Request (F : Type) where
  | enter (lineage : LineageId) (policy : ConflictPolicy)
  /-- The end of the round trip made in a turn. -/
  | complete (lineage : LineageId)
  | submit (program : String)
  /-- The host's reply to the program handed over last. -/
  | collect
  | record (key : String)
  | drain
  | restore (keys : List String)
  | isReleased (key : String)
  | openEndpoint
  | closeEndpoint (endpoint : EndpointId)
  /-- Registers a callback operation and starts to listen at its endpoints. -/
  | launch (label : String) (endpoints : List Opened) (slots : List (Slot F)) (parent : LineageId)
  | newLineage (label : String)

def Request.Reply {F : Type} : Request F → Type
  | .enter _ _ => Except UsageFault Unit
  | .complete _ => Unit
  | .submit _ => Unit
  | .collect => Except TransportFault Json
  | .record _ => Unit
  | .drain => List String
  | .restore _ => Unit
  | .isReleased _ => Bool
  | .openEndpoint => Except TransportFault Opened
  | .closeEndpoint _ => Unit
  | .launch _ _ _ _ => OperationId
  | .newLineage _ => LineageId

inductive Routine (F : Type) (α : Type) where
  | done (result : α)
  | ask (request : Request F) (next : request.Reply → Routine F α)

namespace Routine

variable {F α β : Type}

def bind : Routine F α → (α → Routine F β) → Routine F β
  | .done a, f => f a
  | .ask request next, f => .ask request fun reply => (next reply).bind f

instance : Monad (Routine F) where
  pure := .done
  bind := bind

def request (r : Request F) : Routine F r.Reply := .ask r .done

end Routine

abbrev Job (F : Type) := ExceptT Fault (Routine F)

namespace Job

variable {F α : Type}

def ask (r : Request F) : Job F r.Reply := ExceptT.lift (Routine.request r)

def complete (lineage : LineageId) : Job F Unit := ask (.complete lineage)

def submit (program : String) : Job F Unit := ask (.submit program)

def record (key : String) : Job F Unit := ask (.record key)

def drain : Job F (List String) := ask .drain

def restore (keys : List String) : Job F Unit := ask (.restore keys)

def isReleased (key : String) : Job F Bool := ask (.isReleased key)

def closeEndpoint (endpoint : EndpointId) : Job F Unit := ask (.closeEndpoint endpoint)

def launch (label : String) (endpoints : List Opened) (slots : List (Slot F))
    (parent : LineageId) : Job F OperationId :=
  ask (.launch label endpoints slots parent)

def newLineage (label : String) : Job F LineageId := ask (.newLineage label)

/-- Asks for an endpoint; whether it could be opened is for the caller to see. -/
def openEndpoint : Job F (Except TransportFault Opened) := ask .openEndpoint

/-- Waits for the host's reply; what it is is for the caller to see. -/
def collect : Job F (Except TransportFault Json) := ask .collect

def ofTransport : Except TransportFault α → Job F α
  | .ok a => pure a
  | .error fault => throw (.transport fault)

def ofUsage : Except UsageFault α → Job F α
  | .ok a => pure a
  | .error fault => throw (.usage fault)

/-- Takes the turn of a lineage, waiting for it or failing as the policy says. -/
def enter (lineage : LineageId) (policy : ConflictPolicy) : Job F Unit := do
  ofUsage (← ask (.enter lineage policy))

end Job

end RemoteHost
