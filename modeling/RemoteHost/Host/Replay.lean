import RemoteHost.Fault

/-!
# Replaying hosts

A host that gives back replies of any form in a fixed order, failures included, and whose endpoints
get tokens from a list. An entry without a token makes that endpoint fail to open.
-/

namespace RemoteHost

inductive Replay where
  | json (value : Json)
  | fail (message : String)
  | closed

def Replay.result : Replay → Except TransportFault Json
  | .json value => .ok value
  | .fail message => .error (.host message)
  | .closed => .error .closed

structure ReplayingHost where
  replies : List Replay := []
  tokens : List (Option String) := []
  /-- The endpoints that were asked for, opened or not. -/
  attempts : Nat := 0

namespace ReplayingHost

def push (h : ReplayingHost) (reply : Replay) : ReplayingHost :=
  { h with replies := h.replies ++ [reply] }

def reply (h : ReplayingHost) : Except TransportFault Json × ReplayingHost :=
  match h.replies with
  | reply :: rest => (reply.result, { h with replies := rest })
  | [] => (.error (.host "no reply"), h)

/-- The token of the next endpoint, if it can be opened. -/
def nextToken (h : ReplayingHost) : Except TransportFault String × ReplayingHost :=
  let h' := { h with tokens := h.tokens.tail, attempts := h.attempts + 1 }
  match h.tokens with
  | [] => (.ok ("raw-" ++ toString h'.attempts), h')
  | some token :: _ => (.ok token, h')
  | none :: _ => (.error (.host "endpoint refused"), h')

end ReplayingHost

end RemoteHost
