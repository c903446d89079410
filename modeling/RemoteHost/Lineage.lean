/-!
# Lineages and turns

The round trips of one lineage take turns. A gate knows who holds the turn and who waits for it, in
order of asking. A turn that ends passes at once to the first in the line, so that nobody is
overtaken.
-/

namespace RemoteHost

/-- Whoever may take a turn: the operation in the foreground, a task in the background, a callback
operation, or somebody who holds a turn as such. -/
inductive Party where
  | foreground
  | task (index : Nat)
  | callback (index : Nat)
  | guest (index : Nat)
  deriving DecidableEq, Repr

structure Gate where
  holder : Option Party := none
  waiting : List Party := []
  deriving DecidableEq, Repr

namespace Gate

/-- Asks for the turn, waiting in line if need be. The answer is whether the party has it now. -/
def ask (g : Gate) (p : Party) : Bool × Gate :=
  match g.holder with
  | none => (true, { g with holder := some p })
  | some h =>
    if h = p then (true, g)
    else if p ∈ g.waiting then (false, g)
    else (false, { g with waiting := g.waiting ++ [p] })

def isTakenFrom (g : Gate) (p : Party) : Bool := g.holder.any (· ≠ p)

/-- Passes the turn on to the first in line. -/
def pass (g : Gate) : Gate := ⟨g.waiting.head?, g.waiting.tail⟩

/-- Takes a party out: it gives up its turn or its place in the line. -/
def withdraw (g : Gate) (p : Party) : Gate :=
  if g.holder = some p then g.pass else { g with waiting := g.waiting.erase p }

end Gate

abbrev LineageId := Nat

structure Lineage where
  label : String
  parent : Option LineageId := none
  gate : Gate := {}
  roundTrips : Nat := 0
  deriving DecidableEq, Repr

end RemoteHost
