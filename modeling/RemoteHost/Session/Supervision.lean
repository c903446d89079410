import RemoteHost.Session.State

/-!
# The outside of a session

What happens to a session from outside: payloads arrive, the host hangs up, and supervision ends
operations that nobody else has ended.
-/

namespace RemoteHost.Session

variable {F : Type}

/-- The host sends a payload to the endpoint of a token. The answer is whether it was received. -/
def fire (s : Session F) (token : String) (payload : Json) : Bool × Session F :=
  match s.board.send token payload with
  | (none, _) => (false, s)
  | (some endpoint, board) =>
    let s := { s with board }.wakeAt endpoint
    (true, if s.host.notesEndpoints then s.note [.fired token] else s)

/-- A connection to the endpoint of a token brings bytes and ends. The answer is whether it was
accepted. -/
def connect (s : Session F) (token : String) (bytes : List UInt8) : Bool × Session F :=
  let (values, inlet) := ({} : Wire.Inlet).feed bytes
  match (s.board.find token).map s.board.isOpen with
  | some true =>
    (true, (values ++ inlet.finish).foldl (fun s payload => (s.fire token payload).2) s)
  | _ => (false, s)

/-- Bytes arrive on the connection to the host, or the host hangs it up. -/
def receive (s : Session F) (bytes : Option (List UInt8)) : Session F :=
  match s.host with
  | .wired h =>
    let c := match bytes with
      | some bytes => h.connection.arrive bytes
      | none => { h.connection with ended := true }
    let s := { s with host := .wired { h with connection := c } }
    match s.wire.holder with
    | some p => s.wake p
    | none => s
  | _ => s

/-- The host lets go of the endpoint of a token. The answer is whether it had one. -/
def hangUp (s : Session F) (token : String) : Bool × Session F :=
  match s.board.hangUp token with
  | (none, _) => (false, s)
  | (some endpoint, board) => (true, { s with board }.wakeAt endpoint)

/-- The operations that supervision knows, in the order in which they were started. -/
def pending (s : Session F) : List (CallbackOperation F) := s.operations.filter (·.registered)

/-- Makes an operation end, which from now on supervision does not know. -/
def stop (s : Session F) (id : OperationId) : Session F :=
  (s.modifyOperation id fun op => { op with registered := false, stopping := true })
    |>.wake (.callback id)

/-- Ends the operations known to supervision that have expired, and returns them. -/
def reclaim (s : Session F) (expired : OperationId → Bool) :
    List (CallbackOperation F) × Session F :=
  let leaking := s.operations.zipIdx.filter fun (op, id) => op.registered && expired id
  (leaking.map (·.1), leaking.foldl (fun s (_, id) => s.stop id) s)

end RemoteHost.Session
