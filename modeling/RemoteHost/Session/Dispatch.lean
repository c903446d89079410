import RemoteHost.Session.Pace

/-!
# Listening and calling

What a callback operation does when it is looked at. While it listens it takes the next payload of
the lowest slot that has one; while it calls a function it goes on with that call.
-/

namespace RemoteHost.Session

variable {F : Type}

/-- The first listener, of those still listening, that has something to see. -/
def firstSighting (board : Board) : List (Listener F) → Option (Nat × Sighting)
  | [] => none
  | listener :: rest =>
    let later := (firstSighting board rest).map fun (i, seen) => (i + 1, seen)
    if listener.listening then
      match board.sighting listener.opened.endpoint with
      | .silent => later
      | seen => some (0, seen)
    else later

/-- Gives a payload to the function of a slot, unless the slot refuses it. -/
def deliver (behave : Behaviour F) (s : Session F) (id : OperationId) (op : CallbackOperation F)
    (listener : Listener F) (payload : Json) : Session F :=
  let s := { s with board := s.board.take listener.opened.endpoint }
  match listener.slot.accepts? payload with
  | none => s
  | some outcome =>
    let s := match outcome with
      | .handle key => { s with arena := s.arena.record key }
      | _ => s
    let token := listener.opened.token
    let (lineage, s) := s.addLineage ("cb:" ++ token) (some op.parent)
    let delivery : Delivery := ⟨token, outcome, lineage⟩
    let rest := behave listener.slot.action delivery
    s.modifyOperation id fun op =>
      { op with stage := .calling ⟨listener.slot.cardinality, delivery, rest⟩ }

/-- What a listening operation does next; nothing if it has to wait. To see something at an endpoint
is part of the allowance. -/
def listen (behave : Behaviour F) (s : Session F) (id : OperationId) (op : CallbackOperation F) :
    Option (Session F) :=
  if op.listeners.all (!·.listening) then some (s.finish id op .endpointsClosed)
  else if s.isSpent then none
  else if op.stopping then some ((op.endpoints.foldl closeEndpoint s).finish id op .reclaimed)
  else
    match firstSighting s.board op.listeners with
    | none => none
    | some (i, seen) =>
      let s := s.spend
      match seen, op.listeners[i]? with
      | .payload payload, some listener => some (s.deliver behave id op listener payload)
      | _, _ => some (s.modifyOperation id (·.deafen i))

def report (s : Session F) (op : CallbackOperation F) (delivery : Delivery)
    (result : Except Fault Reaction) : Session F :=
  let call : CallReport :=
    { token := delivery.token
      payload := delivery.payload
      parent := s.lineageLabel op.parent
      roundTrips := s.roundTrips delivery.lineage
      result }
  { s with journal := { s.journal with calls := s.journal.calls ++ [call] } }

def conclude (s : Session F) (id : OperationId) (op : CallbackOperation F) (call : Calling F)
    (verdict : Verdict) : Session F :=
  match verdict with
  | .died =>
    ((s.report op call.delivery (.ok .nothing)).withdraw (.callback id)).finish id op .aborted
  | .returned result =>
    let s := s.report op call.delivery result
    let op := { op with stage := .listening, invocations := op.invocations + 1 }
    let s := s.modifyOperation id fun _ => op
    match call.cardinality with
    | .repeatable => s
    | .oneShot => (op.endpoints.foldl closeEndpoint s).finish id op .oneShotFired

/-- Lets an operation run until it has to wait, in so many moves at most. -/
def pursueWith (behave : Behaviour F) (id : OperationId) : Nat → Session F → Session F
  | 0, s => s
  | fuel + 1, s =>
    match s.operations[id]? with
    | none => s
    | some op =>
      match op.stage with
      | .ended _ => s
      | .listening =>
        match s.listen behave id op with
        | none => if s.isSpent then s.rest (.callback id) else s
        | some s => pursueWith behave id fuel s
      | .calling call =>
        match stride (.callback id) call.rest s with
        | (.done verdict, s) => pursueWith behave id fuel (s.conclude id op call verdict)
        | (rest, s) =>
          s.modifyOperation id fun op => { op with stage := .calling { call with rest } }

/-- Lets an operation run until it has to wait. Every move but the first and the last takes a
payload, deafens a listener or ends the call that a payload led to. -/
def pursue (behave : Behaviour F) (id : OperationId) (s : Session F) : Session F :=
  let listeners := (s.operations[id]?.map (·.listeners.length)).getD 0
  pursueWith behave id (2 * s.board.queued + listeners + 3) s

end RemoteHost.Session
