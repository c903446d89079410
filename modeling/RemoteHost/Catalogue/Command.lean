import Std.Data.TreeMap
import RemoteHost.Catalogue.Objects

/-!
# Window commands

Commands are registered under names. The host names a command and the handle of its command object
when it wants one run or wants to know whether to offer it.
-/

namespace RemoteHost

variable {F : Type}

/-- What a command can do, each given the handle of the command object, arguments and a lineage. -/
structure Command (F : Type) where
  run : String → Json → LineageId → Job F Unit := fun _ _ _ => pure ()
  isEnabled : String → Json → LineageId → Job F Bool := fun _ _ _ => pure true
  isVisible : String → Json → LineageId → Job F Bool := fun _ _ _ => pure true

def commandWindow (s : Settings) (command : String) (lineage : LineageId) : Job F Proxy :=
  askObject s (.resolved command) (Operation.member "window").suffix (some lineage)

structure Registry (F : Type) where
  commands : Std.TreeMap String (Command F) := ∅

namespace Registry

/-- Registers a command; an earlier one of the name is replaced. -/
def register (r : Registry F) (name : String) (command : Command F) : Registry F :=
  ⟨r.commands.insert name command⟩

/-- Removes a command, and says whether there was one. -/
def unregister (r : Registry F) (name : String) : Bool × Registry F :=
  (r.commands.contains name, ⟨r.commands.erase name⟩)

def names (r : Registry F) : List String := r.commands.keys

def contains (r : Registry F) (name : String) : Bool := r.commands.contains name

def find (r : Registry F) (name : String) : Job F (Command F) :=
  match r.commands[name]? with
  | some command => pure command
  | none => throw (.usage (.unknownCommand name))

def run (r : Registry F) (name key : String) (arguments : Json) (lineage : LineageId) :
    Job F Unit := do
  (← r.find name).run key arguments lineage

def isEnabled (r : Registry F) (name key : String) (arguments : Json) (lineage : LineageId) :
    Job F Bool := do
  (← r.find name).isEnabled key arguments lineage

def isVisible (r : Registry F) (name key : String) (arguments : Json) (lineage : LineageId) :
    Job F Bool := do
  (← r.find name).isVisible key arguments lineage

end Registry

end RemoteHost
