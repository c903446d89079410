import RemoteHost.Session.State

/-!
# Answering requests

How a session answers what routines ask for. A request without an answer has to wait: for a turn, or
for a reply that has not arrived.
-/

namespace RemoteHost.Session

variable {F α : Type}

def handOver (s : Session F) (p : Party) (program : String) : Session F :=
  let (reply, events, host) := s.host.submit program
  let others := s.inFlight.filter fun entry => entry.1 ≠ p
  { s with host, inFlight := (p, reply) :: others }.note events

/-- Hands a program to the host, once the connection is free if there is one. -/
def submit (s : Session F) (p : Party) (program : String) : Option Unit × Session F :=
  if s.host.isExclusive then
    let (granted, wire) := s.wire.ask p
    let s := { s with wire }
    if granted then (some (), s.handOver p program) else (none, s)
  else (some (), s.handOver p program)

/-- The reply to the program that a party handed over last, if it is there. -/
def collect (s : Session F) (p : Party) : Option (Except TransportFault Json) × Session F :=
  match s.inFlight.find? fun entry => entry.1 = p with
  | none => (none, s)
  | some (_, reply) =>
    match s.host.collect reply with
    | (none, host) => (none, { s with host })
    | (some result, host) =>
      let others := s.inFlight.filter fun entry => entry.1 ≠ p
      (some result, { s with host, inFlight := others }.leaveWire p)

def answer (s : Session F) (p : Party) : (r : Request F) → Option r.Reply × Session F
  | .enter lineage policy => s.enter p lineage policy
  | .complete lineage => (some (), s.complete lineage)
  | .submit program => s.submit p program
  | .collect => s.collect p
  | .record key => (some (), { s with arena := s.arena.record key })
  | .drain =>
    let (keys, arena) := s.arena.drain
    (some keys, { s with arena })
  | .restore keys => (some (), { s with arena := s.arena.restore keys })
  | .isReleased key => (some (s.arena.isReleased key), s)
  | .openEndpoint =>
    let (opened, s) := s.openEndpoint p
    (some opened, s)
  | .closeEndpoint endpoint => (some (), s.closeEndpoint endpoint)
  | .launch label endpoints slots parent =>
    let (id, s) := s.launch label endpoints slots parent
    (some id, s)
  | .newLineage label =>
    let (id, s) := s.addLineage label none
    (some id, s)

/-- Runs a routine of a party until it is done or has to wait. -/
def advance (p : Party) : Routine F α → Session F → Routine F α × Session F
  | .done a, s => (.done a, s)
  | .ask request next, s =>
    match s.answer p request with
    | (some reply, s) => advance p (next reply) s
    | (none, s) => (.ask request next, s)

@[simp] theorem advance_done (p : Party) (a : α) (s : Session F) :
    advance p (.done a) s = (.done a, s) := rfl

/-- Gives up what a party was doing: its turns, its reply and the endpoints that it opened. -/
def abandon (s : Session F) (p : Party) : Session F :=
  let inFlight := s.inFlight.filter fun entry => entry.1 ≠ p
  let s := { s with inFlight, resting := s.resting.erase p }.leaveWire p
  let endpoints := (s.unclaimed.filter fun u => u.1 = p).map (·.2)
  endpoints.foldl dropEndpoint (s.withdraw p)

end RemoteHost.Session
