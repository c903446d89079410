import RemoteHost.Fault
import RemoteHost.Wire.Lines

/-!
# The connection to the host

Requests and replies are lines of JSON on one connection, matched by numbers. A request whose
caller went away leaves its reply on the wire, and later requests pass over replies with smaller
numbers. A request that was only partly written leaves the connection unusable.
-/

namespace RemoteHost.Wire

structure Connection where
  nextId : Nat := 1
  /-- Set while a request is being written. -/
  writing : Bool := false
  /-- What has arrived and has not been read. -/
  received : List UInt8 := []
  ended : Bool := false

/-- The line of a request, without its break. -/
def requestLine (id : Nat) (program : String) : String :=
  (Json.object [("id", .ofNat id), ("source", .string program)]).compact

/-- What a reply means to the request that waits with a number. -/
inductive Judgement where
  /-- It answers an earlier request. -/
  | stale
  | settled (result : Except TransportFault Json)

def errorMessage (error : Json) : String :=
  ((error.field? "message").bind Json.text?).getD "unknown host error"

def judge (id : Nat) (reply : Json) : Judgement :=
  match (reply.field? "id").bind Json.nat? with
  | none => .settled (.error (.malformed .missingId))
  | some got =>
    if got < id then .stale
    else if got ≠ id then .settled (.error (.responseMismatch id got))
    else
      match reply.field? "error", reply.field? "result" with
      | some error, _ => .settled (.error (.host (errorMessage error)))
      | none, some result => .settled (.ok result)
      | none, none => .settled (.error (.malformed .missingResult))

/-- What a line of the host means to the request that waits with a number. -/
def judgeLine (id : Nat) (line : List UInt8) : Judgement :=
  match Text.decode? line with
  | none => .settled (.error (.io .invalidText))
  | some text =>
    match Json.parse text with
    | .error fault => .settled (.error (.json ⟨fault, Text.glyphs text⟩))
    | .ok reply => judge id reply

namespace Connection

/-- Starts to write a request: its number and its line. -/
def begin (c : Connection) (program : String) :
    Except TransportFault (Nat × String × Connection) :=
  if c.writing then .error .closed
  else
    .ok (c.nextId, requestLine c.nextId program,
      { c with nextId := c.nextId + 1, writing := true })

def finish (c : Connection) : Connection := { c with writing := false }

def arrive (c : Connection) (bytes : List UInt8) : Connection :=
  { c with received := c.received ++ bytes }

/-- The next line with the break it ends in, if it has arrived. An unfinished line counts once the
host has hung up; `none` in the answer means that there is nothing left at all. -/
def nextLine (c : Connection) : Option (Option (List UInt8) × Connection) :=
  match splitLine c.received with
  | some (line, rest) => some (some (line ++ [lineBreak]), { c with received := rest })
  | none =>
    if !c.ended then none
    else if c.received.isEmpty then some (none, c)
    else some (some c.received, { c with received := [] })

/-- Reads lines until one settles the request; the answer is missing while more has to arrive. -/
def awaitWith (id : Nat) : Nat → Connection → Option (Except TransportFault Json) × Connection
  | 0, c => (none, c)
  | fuel + 1, c =>
    match c.nextLine with
    | none => (none, c)
    | some (none, c) => (some (.error .closed), c)
    | some (some line, c) =>
      match judgeLine id line with
      | .stale => awaitWith id fuel c
      | .settled result => (some result, c)

def await (c : Connection) (id : Nat) : Option (Except TransportFault Json) × Connection :=
  c.awaitWith id (c.received.length + 2)

end Connection

/-- What the other side does after reading a request line: it writes bytes and may hang up. -/
structure PeerReply where
  bytes : List UInt8 := []
  close : Bool := false

/-- A connection together with what the other side is going to do. If that is known, it answers each
request line in turn and hangs up when it has no answer left. -/
structure WiredHost where
  connection : Connection := {}
  replies : Option (List PeerReply) := some []
  endpoints : Nat := 0

namespace WiredHost

def react (h : WiredHost) : WiredHost :=
  match h.replies with
  | none => h
  | some [] => { h with connection := { h.connection with ended := true } }
  | some (reply :: rest) =>
    let c := h.connection.arrive reply.bytes
    { h with connection := { c with ended := c.ended || reply.close }, replies := some rest }

/-- Writes a whole request: its number, and the line if the other side still reads. -/
def write (h : WiredHost) (program : String) :
    Except TransportFault (Nat × Option String) × WiredHost :=
  match h.connection.begin program with
  | .error fault => (.error fault, h)
  | .ok (id, line, c) =>
    let h := { h with connection := c.finish }
    if c.ended then (.ok (id, none), h) else (.ok (id, some line), h.react)

/-- Starts to write a request and stops halfway. -/
def writePart (h : WiredHost) (program : String) : WiredHost :=
  match h.connection.begin program with
  | .error _ => h
  | .ok (_, _, c) => { h with connection := c }

def nextToken (h : WiredHost) : String × WiredHost :=
  ("port-" ++ toString (h.endpoints + 1), { h with endpoints := h.endpoints + 1 })

end WiredHost

end RemoteHost.Wire
