import RemoteHost.Fault

/-!
# Scripted hosts

A host that answers from a queue of envelopes, and once that is empty asks a responder, if it has
one. Its endpoints get tokens of their own, counted from one.
-/

namespace RemoteHost

structure ScriptedHost where
  queued : List Envelope := []
  responder : Option (String → Envelope) := none
  opened : Nat := 0

namespace ScriptedHost

def push (h : ScriptedHost) (envelope : Envelope) : ScriptedHost :=
  { h with queued := h.queued ++ [envelope] }

/-- The answer to a program. Queued envelopes come first. -/
def reply (h : ScriptedHost) (program : String) : Except TransportFault Json × ScriptedHost :=
  match h.queued with
  | envelope :: rest => (.ok envelope.toJson, { h with queued := rest })
  | [] =>
    match h.responder with
    | some respond => (.ok (respond program).toJson, h)
    | none => (.error (.host "scripted host has no response for this program"), h)

def nextToken (h : ScriptedHost) : String × ScriptedHost :=
  ("mem-" ++ toString (h.opened + 1), { h with opened := h.opened + 1 })

end ScriptedHost

end RemoteHost
