import RemoteHost.Json.Value

/-!
# Endpoints

The board holds every endpoint that was opened, with the payloads that arrived and have not been
taken. An endpoint receives while its owner keeps it open and the host keeps its end.
-/

namespace RemoteHost

structure Endpoint where
  token : String
  inbox : List Json := []
  /-- Whether the host can still send to it. -/
  connected : Bool := true
  /-- Whether its owner still listens. -/
  isOpen : Bool := true

/-- What the owner of an endpoint finds when it looks. -/
inductive Sighting where
  | payload (payload : Json)
  | over
  | silent

def Endpoint.sighting (e : Endpoint) : Sighting :=
  match e.inbox with
  | payload :: _ => .payload payload
  | [] => if e.connected && e.isOpen then .silent else .over

/-- The endpoints of a session, in the order in which they were opened. -/
abbrev Board := List Endpoint

namespace Board

/-- The endpoint that a token addresses: the one opened last among those the host still has. -/
def find (b : Board) (token : String) : Option Nat :=
  (b.zipIdx.reverse.find? fun e => e.1.token == token && e.1.connected).map (·.2)

def openLine (b : Board) (token : String) : Nat × Board :=
  (b.length, b ++ [{ token := token }])

/-- Sends a payload to the endpoint of a token. The answer is the endpoint, if it received it. -/
def send (b : Board) (token : String) (payload : Json) : Option Nat × Board :=
  match b.find token with
  | none => (none, b)
  | some i =>
    if (b[i]?.map (·.isOpen)).getD false then
      (some i, b.modify i fun e => { e with inbox := e.inbox ++ [payload] })
    else (none, b)

/-- The host lets go of the endpoint of a token. The answer is the endpoint, if it had one. -/
def hangUp (b : Board) (token : String) : Option Nat × Board :=
  match b.find token with
  | none => (none, b)
  | some i => (some i, b.modify i fun e => { e with connected := false })

/-- The host forgets the endpoints it had under a token. -/
def disown (b : Board) (token : String) : Board :=
  b.map fun e => if e.token = token then { e with connected := false } else e

def take (b : Board) (i : Nat) : Board :=
  b.modify i fun e => { e with inbox := e.inbox.tail }

/-- The owner of an endpoint stops listening. -/
def close (b : Board) (i : Nat) : Board :=
  b.modify i fun e => { e with isOpen := false }

def isOpen (b : Board) (i : Nat) : Bool := (b[i]?.map (·.isOpen)).getD false

def sighting (b : Board) (i : Nat) : Sighting := (b[i]?.map Endpoint.sighting).getD .over

def queued (b : Board) : Nat := b.foldl (fun n e => n + e.inbox.length) 0

end Board

end RemoteHost
