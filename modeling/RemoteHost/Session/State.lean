import RemoteHost.Callback
import RemoteHost.Arena
import RemoteHost.Host
import RemoteHost.Settings

/-!
# The state of a session

Everything that the parties of a session share, and the changes it is put together from: turns of
lineages, endpoints, callback operations, and who has to be looked at again.
-/

namespace RemoteHost

structure Task (F : Type) where
  label : String
  rest : Routine F (Except Fault Outcome)

structure TaskReport where
  label : String
  result : Except Fault Outcome

/-- What happened in a session, each list in the order of events. -/
structure Journal where
  events : List HostEvent := []
  calls : List CallReport := []
  endings : List OperationReport := []
  results : List TaskReport := []

/-- How often a party has what it asks for before the others get their turn. -/
def Session.fullAllowance : Nat := 128

structure Session (F : Type) where
  settings : Settings
  host : Host
  board : Board := []
  arena : Arena := .empty Arena.defaultLimit
  lineages : List Lineage := []
  operations : List (CallbackOperation F) := []
  tasks : List (Task F) := []
  /-- The number of turns that were ever held as such. -/
  guests : Nat := 0
  /-- The parties in the background that may be able to go on. -/
  ready : List Party := []
  /-- How often the party that runs may still have what it asks for. -/
  allowance : Nat := Session.fullAllowance
  /-- The parties that go on when the others have had their turn. -/
  resting : List Party := []
  /-- The turns on a connection that carries one program at a time. -/
  wire : Gate := {}
  inFlight : List (Party × InFlight) := []
  /-- The open endpoints that belong to no operation yet. -/
  unclaimed : List (Party × EndpointId) := []
  journal : Journal := {}

namespace Session

variable {F : Type}

def note (s : Session F) (events : List HostEvent) : Session F :=
  { s with journal := { s.journal with events := s.journal.events ++ events } }

/-- Lets a party in the background be looked at again. -/
def wake (s : Session F) (p : Party) : Session F :=
  match p with
  | .foreground | .guest _ => s
  | .task _ | .callback _ => if p ∈ s.ready then s else { s with ready := s.ready ++ [p] }

/-! ## Lineages -/

def addLineage (s : Session F) (label : String) (parent : Option LineageId) :
    LineageId × Session F :=
  (s.lineages.length, { s with lineages := s.lineages ++ [{ label := label, parent := parent }] })

def modifyLineage (s : Session F) (id : LineageId) (f : Lineage → Lineage) : Session F :=
  { s with lineages := s.lineages.modify id f }

def lineageLabel (s : Session F) (id : LineageId) : String :=
  (s.lineages[id]?.map (·.label)).getD ""

def roundTrips (s : Session F) (id : LineageId) : Nat :=
  (s.lineages[id]?.map (·.roundTrips)).getD 0

/-- Takes the turn of a lineage. Without an answer the party waits in line. -/
def enter (s : Session F) (p : Party) (id : LineageId) (policy : ConflictPolicy) :
    Option (Except UsageFault Unit) × Session F :=
  match s.lineages[id]? with
  | none => (some (.ok ()), s)
  | some lineage =>
    if policy = .reject ∧ lineage.gate.isTakenFrom p then
      (some (.error (.stepConflict lineage.label)), s)
    else
      let (granted, gate) := lineage.gate.ask p
      (if granted then some (.ok ()) else none, s.modifyLineage id ({ · with gate }))

/-- Looks again at whoever holds the turn of a lineage. -/
def wakeHolder (s : Session F) (id : LineageId) : Session F :=
  match s.lineages[id]?.bind (·.gate.holder) with
  | some p => s.wake p
  | none => s

/-- Ends a round trip and with it the turn. -/
def complete (s : Session F) (id : LineageId) : Session F :=
  (s.modifyLineage id fun l => { l with roundTrips := l.roundTrips + 1, gate := l.gate.pass })
    |>.wakeHolder id

/-- Takes a party out of one lineage. The holder of the turn changes only if it was the party. -/
def leave (s : Session F) (p : Party) (id : LineageId) : Session F :=
  let holds := s.lineages[id]?.bind (·.gate.holder) = some p
  let s := s.modifyLineage id fun l => { l with gate := l.gate.withdraw p }
  if holds then s.wakeHolder id else s

/-- Takes a party out of every lineage; no round trip is counted. -/
def withdraw (s : Session F) (p : Party) : Session F :=
  (List.range s.lineages.length).foldl (fun s id => s.leave p id) s

/-- Ends a party's use of the connection, or its wait for it. -/
def leaveWire (s : Session F) (p : Party) : Session F :=
  let wire := s.wire.withdraw p
  let s' := { s with wire }
  match wire.holder with
  | some next => if s.wire.holder = some next then s' else s'.wake next
  | none => s'

/-! ## Callback operations and endpoints -/

def modifyOperation (s : Session F) (id : OperationId)
    (f : CallbackOperation F → CallbackOperation F) : Session F :=
  { s with operations := s.operations.modify id f }

def operationAt? (s : Session F) (endpoint : EndpointId) : Option OperationId :=
  s.operations.findIdx? fun op => endpoint ∈ op.endpoints

/-- Lets the operation at an endpoint look again. -/
def wakeAt (s : Session F) (endpoint : EndpointId) : Session F :=
  match s.operationAt? endpoint with
  | some id => s.wake (.callback id)
  | none => s

/-- Takes a token away from the endpoints that have it. -/
def disown (s : Session F) (token : String) : Session F :=
  let losing := (List.range s.board.length).filter fun i =>
    (s.board[i]?.map fun e => e.token == token && e.connected).getD false
  losing.foldl wakeAt { s with board := s.board.disown token }

def openEndpoint (s : Session F) (p : Party) : Except TransportFault Opened × Session F :=
  match s.host.nextToken with
  | (.error fault, host) => (.error fault, { s with host })
  | (.ok token, host) =>
    let s := { s with host }.disown token
    let (endpoint, board) := s.board.openLine token
    let s := { s with board, unclaimed := s.unclaimed ++ [(p, endpoint)] }
    (.ok ⟨endpoint, token⟩, if s.host.notesEndpoints then s.note [.opened token] else s)

def tokenOf (s : Session F) (endpoint : EndpointId) : String :=
  (s.board[endpoint]?.map (·.token)).getD ""

def forgetUnclaimed (s : Session F) (endpoints : List EndpointId) : Session F :=
  { s with unclaimed := s.unclaimed.filter fun u => u.2 ∉ endpoints }

/-- Closes an endpoint, as its owner asks for. The host lets go of the token, whichever endpoint
has it by now. -/
def closeEndpoint (s : Session F) (endpoint : EndpointId) : Session F :=
  let noted := s.host.notesClosing (s.board.isOpen endpoint)
  let token := s.tokenOf endpoint
  let s := ({ s with board := s.board.close endpoint }.forgetUnclaimed [endpoint]).disown token
  if noted then s.note [.closed token] else s

/-- Lets an endpoint go without closing it first. -/
def dropEndpoint (s : Session F) (endpoint : EndpointId) : Session F :=
  let noted := s.host.notesDropping (s.board.isOpen endpoint)
  let s := { s with board := s.board.close endpoint }.forgetUnclaimed [endpoint]
  if noted then s.note [.closed (s.tokenOf endpoint)] else s

def launch (s : Session F) (label : String) (endpoints : List Opened) (slots : List (Slot F))
    (parent : LineageId) : OperationId × Session F :=
  let listeners : List (Listener F) :=
    (slots.zip endpoints).map fun (slot, opened) => { slot := slot, opened := opened }
  let op : CallbackOperation F := { label := label, listeners := listeners, parent := parent }
  let s := s.forgetUnclaimed (endpoints.map (·.endpoint))
  let id := s.operations.length
  (id, { s with operations := s.operations ++ [op] }.wake (.callback id))

/-- Ends an operation. Only one that was aborted is still known to supervision. -/
def finish (s : Session F) (id : OperationId) (op : CallbackOperation F) (ending : Ending) :
    Session F :=
  let s := op.endpoints.foldl dropEndpoint s
  let s := s.modifyOperation id fun op =>
    { op with stage := .ended ending, registered := op.registered && ending = .aborted }
  let invocations := if ending = .aborted then 0 else op.invocations
  let report : OperationReport := ⟨op.label, invocations, ending⟩
  { s with journal := { s.journal with endings := s.journal.endings ++ [report] } }

end Session

end RemoteHost
