import RemoteHost.Session.Answer

/-!
# Pace

How far a party runs before the others get their turn. A party that never has to wait would keep all
others waiting; so it has an allowance, and rests when that is used up. What it has got by then it
keeps: a turn that it took is its turn while it rests.
-/

namespace RemoteHost

/-- Whether what a request asks for is part of the allowance. Only what parties line up for is. -/
def Request.isCharged {F : Type} : Request F → Bool
  | .enter _ .queue => true
  | _ => false

namespace Session

variable {F α : Type}

def isSpent (s : Session F) : Bool := s.allowance == 0

def spend (s : Session F) : Session F := { s with allowance := s.allowance - 1 }

def rest (s : Session F) (p : Party) : Session F := { s with resting := s.resting ++ [p] }

/-- Ends all rest. Whoever runs next has the full allowance. -/
def resume (s : Session F) : Session F :=
  s.resting.foldl wake { s with resting := [], allowance := fullAllowance }

/-- Runs a routine of a party until it is done, has to wait or has to rest. After a rest it asks
again for what it has got. -/
def stride (p : Party) : Routine F α → Session F → Routine F α × Session F
  | .done a, s => (.done a, s)
  | .ask request next, s =>
    match s.answer p request with
    | (none, s) => (.ask request next, s)
    | (some reply, s) =>
      if !request.isCharged then stride p (next reply) s
      else if s.isSpent then (.ask request next, s.rest p)
      else stride p (next reply) s.spend

end Session

end RemoteHost
