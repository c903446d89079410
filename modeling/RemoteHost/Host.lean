import RemoteHost.Host.Board
import RemoteHost.Host.Replay
import RemoteHost.Host.Scripted
import RemoteHost.Wire.Connection

/-!
# Hosts

The hosts a session can talk to. Each runs programs and lends tokens for endpoints; they differ in
where their replies come from and in what they note of the endpoints.
-/

namespace RemoteHost

inductive HostEvent where
  | executed (program : String)
  | opened (token : String)
  | fired (token : String)
  | closed (token : String)
  | sent (line : String)
  deriving DecidableEq, Repr

/-- A reply to a program that was handed over: it is there, or the line that answers a request of
this number has to arrive first. -/
inductive InFlight where
  | answered (result : Except TransportFault Json)
  | awaited (request : Nat)

inductive Host where
  | scripted (host : ScriptedHost)
  | replaying (host : ReplayingHost)
  | wired (host : Wire.WiredHost)

namespace Host

/-- Hands a program over: what becomes of the reply, and what the host notes. -/
def submit (program : String) : Host → InFlight × List HostEvent × Host
  | .scripted h =>
    let (result, h) := h.reply program
    (.answered result, [.executed program], .scripted h)
  | .replaying h =>
    let (result, h) := h.reply
    (.answered result, [.executed program], .replaying h)
  | .wired h =>
    match h.write program with
    | (.error fault, h) => (.answered (.error fault), [], .wired h)
    | (.ok (id, line), h) => (.awaited id, line.toList.map .sent, .wired h)

/-- The reply to a program, if it is there. -/
def collect : InFlight → Host → Option (Except TransportFault Json) × Host
  | .answered result, h => (some result, h)
  | .awaited id, .wired h =>
    let (result, c) := h.connection.await id
    (result, .wired { h with connection := c })
  | .awaited _, h => (none, h)

/-- The token of a new endpoint, if it can be opened. -/
def nextToken : Host → Except TransportFault String × Host
  | .scripted h => let (token, h) := h.nextToken; (.ok token, .scripted h)
  | .replaying h => let (token, h) := h.nextToken; (token, .replaying h)
  | .wired h => let (token, h) := h.nextToken; (.ok token, .wired h)

/-- Whether the host takes the next program only after the reply to the last one. -/
def isExclusive : Host → Bool
  | .wired _ => true
  | _ => false

/-- Whether the host notes the opening of endpoints and what arrives at them. -/
def notesEndpoints : Host → Bool
  | .wired _ => false
  | _ => true

/-- Whether the host notes that an endpoint is closed. A scripted host does so once, a replaying
one every time it is told. -/
def notesClosing (wasOpen : Bool) : Host → Bool
  | .scripted _ => wasOpen
  | .replaying _ => true
  | .wired _ => false

/-- Whether the host notes that an endpoint goes away without having been closed. -/
def notesDropping (wasOpen : Bool) : Host → Bool
  | .scripted _ => wasOpen
  | _ => false

end Host

end RemoteHost
