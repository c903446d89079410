import Mathlib.Logic.Function.Basic
import RemoteHost.Proofs.ReplyLines
import RemoteHost.Session.Answer
import RemoteHost.Session.Supervision

/-!
# Calls over one connection

An exchange is a session on a connection whose parties hand programs to the host and look for the
replies, each in its own time, while the host sends lines. Calls may be given up at any moment; a
request that was written stays with the host. The log tells what was written, sent and read.
-/

namespace RemoteHost

open Wire (Line Connection lineBreak lineBytes AreWhole attend Reads)

variable {F : Type}

/-- How far a call has got: its program is still to be written, or its request waits for a reply. -/
inductive CallStage where
  | asking (program : String)
  | waiting (request : Nat)
  deriving DecidableEq

inductive CallEvent where
  | wrote (p : Party) (request : Nat) (program : String)
  | arrived (line : Line)
  /-- A request read some lines, and one of them may have settled it. -/
  | read (p : Party) (request : Nat) (lines : List Line)
      (result : Option (Except TransportFault Json))
  | abandoned (p : Party) (stage : CallStage)

structure Exchange (F : Type) where
  session : Session F
  calls : Party → Option CallStage := fun _ => none
  log : List CallEvent := []

inductive ExchangeMove where
  | call (p : Party) (program : String)
  /-- A party tries to write its request, or looks for the reply to it. -/
  | go (p : Party)
  | abandon (p : Party)
  /-- The host sends a whole line. -/
  | arrive (line : Line)

namespace Session

/-- The number that the next request gets. -/
def nextRequest (s : Session F) : Nat :=
  match s.host with
  | .wired h => h.connection.nextId
  | _ => 0

/-- The lines that have arrived and were not read. -/
def unread (s : Session F) : List Line :=
  match s.host with
  | .wired h => (Wire.cutLines h.connection.received).1
  | _ => []

/-- A session on a connection to a host whose replies nobody knows in advance. -/
def connected (s : Session F) (c : Connection) : Session F :=
  { s with host := .wired { connection := c, replies := none } }

end Session

namespace Exchange

def go (w : Exchange F) (p : Party) : Exchange F :=
  match w.calls p with
  | none => w
  | some (.asking program) =>
    match w.session.submit p program with
    | (none, s) => { w with session := s }
    | (some (), s) =>
      { session := s
        calls := Function.update w.calls p (some (.waiting w.session.nextRequest))
        log := w.log ++ [.wrote p w.session.nextRequest program] }
  | some (.waiting request) =>
    match w.session.collect p with
    | (result, s) =>
      { session := s
        calls := if result.isSome then Function.update w.calls p none else w.calls
        log := w.log ++ [.read p request
          (w.session.unread.take (w.session.unread.length - s.unread.length)) result] }

/-- The exchange after a move. A move that is not possible changes nothing. -/
def act (w : Exchange F) : ExchangeMove → Exchange F
  | .call p program =>
    if (w.calls p).isNone then
      { w with calls := Function.update w.calls p (some (.asking program)) }
    else w
  | .go p => w.go p
  | .abandon p =>
    match w.calls p with
    | none => w
    | some stage =>
      { session := w.session.abandon p
        calls := Function.update w.calls p none
        log := w.log ++ [.abandoned p stage] }
  | .arrive line =>
    if lineBreak ∈ line then w
    else { w with
      session := w.session.receive (some (line ++ [lineBreak]))
      log := w.log ++ [.arrived line] }

def run (w : Exchange F) (moves : List ExchangeMove) : Exchange F := moves.foldl act w

/-- A new connection, on which nobody has called yet. -/
def start (settings : Settings) : Exchange F where
  session := { settings, host := .wired { replies := none } }

/-! ## What logs tell -/

/-- The lines that the host has sent. -/
def linesSent (log : List CallEvent) : List Line :=
  log.flatMap fun
    | .arrived line => [line]
    | _ => []

/-- The lines that were read, in the order of reading. -/
def linesRead (log : List CallEvent) : List Line :=
  log.flatMap fun
    | .read _ _ lines _ => lines
    | _ => []

/-- For every line that was read the request that read it. -/
def readers (log : List CallEvent) : List Nat :=
  log.flatMap fun
    | .read _ request lines _ => lines.map fun _ => request
    | _ => []

/-- The requests that were settled, with their results. -/
def results (log : List CallEvent) : List (Party × Nat × Except TransportFault Json) :=
  log.flatMap fun
    | .read p request _ (some result) => [(p, request, result)]
    | _ => []

def requests (log : List CallEvent) : List Nat :=
  log.flatMap fun
    | .wrote _ request _ => [request]
    | _ => []

def requestLines (log : List CallEvent) : List HostEvent :=
  log.flatMap fun
    | .wrote _ request program => [.sent (Wire.requestLine request program)]
    | _ => []

end Exchange

/-! ## Sessions on a connection -/

namespace Session

/-- A session whose party has written a request and waits for the reply. -/
def lend (s : Session F) (p : Party) (request : Nat) (program : String) : Session F :=
  { s with
    wire := (s.wire.ask p).2
    inFlight := (p, .awaited request) :: s.inFlight.filter fun entry => entry.1 ≠ p }.note
      [.sent (Wire.requestLine request program)]

variable {s : Session F} {c : Connection}

theorem wake_connected (s : Session F) (c : Connection) (p : Party) :
    (s.connected c).wake p = (s.wake p).connected c := by
  cases p with
  | foreground | guest => rfl
  | task index =>
    by_cases hready : Party.task index ∈ s.ready <;> simp [wake, connected, hready]
  | callback id =>
    by_cases hready : Party.callback id ∈ s.ready <;> simp [wake, connected, hready]

theorem receive_connected (s : Session F) (c : Connection) (bytes : List UInt8) :
    (s.connected c).receive (some bytes) =
      (match s.wire.holder with
        | some p => s.wake p
        | none => s).connected (c.arrive bytes) := by
  cases hholder : s.wire.holder with
  | none => simp [receive, connected, hholder]
  | some p =>
    have hwake := wake_connected s (c.arrive bytes) p
    simpa [receive, connected, hholder] using hwake

theorem submit_connected (hidle : c.writing = false) (hopen : c.ended = false) (p : Party)
    (program : String) : (s.connected c).submit p program =
      if (s.wire.ask p).1 then
        (some (), (s.lend p c.nextId program).connected { c with nextId := c.nextId + 1 })
      else (none, { s with wire := (s.wire.ask p).2 }.connected c) := by
  have hnumbered : { c with nextId := c.nextId + 1, writing := false } =
      { c with nextId := c.nextId + 1 } := by rw [← hidle]
  simp [submit, connected, Host.isExclusive, handOver, Host.submit, Wire.WiredHost.write,
    Connection.begin, Connection.finish, Wire.WiredHost.react, hidle, hopen, lend, note]

theorem leaveWire_connected (s : Session F) (c : Connection) (p : Party) :
    (s.connected c).leaveWire p = (s.leaveWire p).connected c := by
  have hwake := wake_connected { s with wire := s.wire.withdraw p } c
  cases hnext : (s.wire.withdraw p).holder with
  | none => simp [leaveWire, connected, hnext]
  | some next =>
    by_cases hsame : s.wire.holder = some next
    · simp [leaveWire, connected, hnext, hsame]
    · simpa [leaveWire, connected, hnext, hsame] using hwake next

theorem collect_connected {p : Party} {request : Nat}
    (hflight : s.inFlight = [(p, .awaited request)]) : (s.connected c).collect p =
      match c.await request with
      | (none, c) => (none, s.connected c)
      | (some result, c) => (some result, ({ s with inFlight := [] }.leaveWire p).connected c) := by
  cases hawait : c.await request with
  | mk result c' =>
    cases result with
    | none => simp [collect, connected, hflight, Host.collect, hawait]
    | some result =>
      dsimp only
      rw [← leaveWire_connected]
      simp [collect, connected, hflight, Host.collect, hawait]

/-- Waking changes nothing but who is looked at again. -/
theorem wake_eq (s : Session F) (p : Party) : ∃ ready, s.wake p = { s with ready } := by
  unfold wake
  split
  · exact ⟨s.ready, rfl⟩
  · exact ⟨s.ready, rfl⟩
  · split
    · exact ⟨s.ready, rfl⟩
    · exact ⟨_, rfl⟩
  · split
    · exact ⟨s.ready, rfl⟩
    · exact ⟨_, rfl⟩

theorem leaveWire_eq (s : Session F) (p : Party) :
    ∃ ready, s.leaveWire p = { s with wire := s.wire.withdraw p, ready } := by
  unfold leaveWire
  dsimp only
  split
  · split
    · exact ⟨s.ready, rfl⟩
    · obtain ⟨ready, hready⟩ := wake_eq { s with wire := s.wire.withdraw p } _
      exact ⟨ready, hready⟩
  · exact ⟨s.ready, rfl⟩

/-- A session of which a party has given up its call. -/
def forsaken (s : Session F) (p : Party) : Session F :=
  { s with
    inFlight := s.inFlight.filter fun entry => entry.1 ≠ p
    resting := s.resting.erase p }.leaveWire p

theorem forsaken_eq (s : Session F) (p : Party) : ∃ ready, s.forsaken p =
    { s with
      inFlight := s.inFlight.filter fun entry => entry.1 ≠ p
      resting := s.resting.erase p
      wire := s.wire.withdraw p
      ready } :=
  leaveWire_eq _ p

theorem abandon_connected (hlineages : s.lineages = []) (hunclaimed : s.unclaimed = [])
    (p : Party) : (s.connected c).abandon p = (s.forsaken p).connected c := by
  have hleft := leaveWire_connected
    { s with
      inFlight := s.inFlight.filter fun entry => entry.1 ≠ p
      resting := s.resting.erase p } c p
  obtain ⟨ready, hforsaken⟩ := s.forsaken_eq p
  have hnoLineages : ((s.forsaken p).connected c).lineages = [] := by
    rw [hforsaken]
    exact hlineages
  have hnoEndpoints : ((s.forsaken p).connected c).unclaimed = [] := by
    rw [hforsaken]
    exact hunclaimed
  have hstays : ((s.forsaken p).connected c).withdraw p = (s.forsaken p).connected c := by
    simp [withdraw, hnoLineages]
  calc (s.connected c).abandon p
      = ((((s.forsaken p).connected c).unclaimed.filter fun u => u.1 = p).map (·.2)).foldl
          dropEndpoint (((s.forsaken p).connected c).withdraw p) := by
        rw [forsaken, ← hleft]
        rfl
    _ = (s.forsaken p).connected c := by
        rw [hnoEndpoints, hstays]
        rfl

end Session

end RemoteHost
