import RemoteHost.Host
import RemoteHost.Script.BuiltIn

/-!
# Instructions

What a script can tell a session to do. Objects, pending calls, lineages, turns and operations are
referred to by the names that earlier instructions gave them.
-/

namespace RemoteHost.Script

/-- What is done with the value of a mapped evaluation. -/
inductive Post where
  | keep
  /-- The length of an array; anything else counts nothing. -/
  | count
  | reject

def Post.apply : Post → Json → Except Fault Json
  | .keep, value => .ok value
  | .count, .array items => .ok (.ofNat items.length)
  | .count, _ => .ok (.ofNat 0)
  | .reject, value => .error (.configuration ("rejected " ++ value.compact))

inductive Target where
  | token (token : String)
  | slot (operation : String) (index : Nat)

/-- What is fired: a value, or the bytes of a connection. -/
inductive Charge where
  | value (payload : Json)
  | bytes (bytes : List UInt8)

/-- A lineage by name. Without a name an instruction runs outside of all steps. -/
abbrev LineageName := Option String

/-- A name given to a result, if it is kept. -/
abbrev NewName := Option String

inductive HostInstruction where
  | push (envelope : Json)
  | respond (rules : List (String × Json)) (otherwise : Json)
  | reply (reply : Replay)
  | execute (program : String)
  | status
  | hangUp (token : String)
  | fire (target : Target) (charge : Charge)

inductive LineageInstruction where
  | start (name : NewName)
  | child (lineage : LineageName) (name : NewName)
  | share (lineage : LineageName) (name : NewName)
  | describe (lineage : LineageName)
  | compare (lineage other : LineageName)
  | enter (lineage : LineageName) (policy : ConflictPolicy) (turn : String)
  | complete (turn : String)
  | abandon (turn : String)

/-- Instructions that evaluate expressions, and those on the handles that come of it. -/
inductive EvaluationInstruction where
  | evaluate (lineage : LineageName) (expression : String) (shape : ResultShape)
  | evaluateMap (lineage : LineageName) (expression : String) (shape : ResultShape) (post : Post)
  | spawn (lineage : LineageName) (task expression : String) (shape : ResultShape)
  /-- Starts an evaluation and gives it up once the host has the program. -/
  | abandonEvaluation (lineage : LineageName) (expression : String) (shape : ResultShape)
  /-- Starts an evaluation and gives it up while the program is being written. -/
  | abandonWriting (lineage : LineageName) (expression : String)
  | installPrelude (lineage : LineageName)
  | release (lineage : LineageName)
  | keyStatus (key : String)
  | keys
  | record (key : String)

inductive ProxyInstruction where
  | root (source : String) (name : NewName)
  | resolved (key : String) (name : NewName)
  | activeWindow (name : NewName)
  | windows (lineage : LineageName) (name : NewName)
  | look (on : String)
  | materialize (on : String) (lineage : LineageName) (name : NewName)
  | call (on : String) (operation : Operation) (lineage : LineageName) (name : NewName)
  | resolve (pending : String) (lineage : LineageName)
  | intoProxy (pending : String) (name : NewName)

inductive ObjectInstruction where
  | window (on : String) (operation : WindowOperation) (lineage : LineageName) (name : NewName)
  | focusSheet (on target : String) (lineage : LineageName)
  | focusView (on target : String) (lineage : LineageName)
  | view (on : String) (operation : ViewOperation) (lineage : LineageName) (name : NewName)
  | sheet (on : String) (operation : SheetOperation) (lineage : LineageName) (name : NewName)

inductive CallbackInstruction where
  | quickPanel (on : String) (panel : QuickPanel Action) (lineage : LineageName) (name : NewName)
  | inputPanel (on : String) (panel : InputPanel Action) (lineage : LineageName) (name : NewName)
  | invoke (template : String) (shape : ResultShape) (slots : List (Slot Action))
      (lineage : LineageName) (name : NewName)
  | pending
  | reclaim (all : Bool)

inductive CommandInstruction where
  | register (name : String) (command : BuiltIn)
  | unregister (name : String)
  | names
  | contains (name : String)
  | run (name key : String) (arguments : Json) (lineage : LineageName)
  | isEnabled (name key : String) (arguments : Json) (lineage : LineageName)
  | isVisible (name key : String) (arguments : Json) (lineage : LineageName)

inductive Instruction where
  | host (instruction : HostInstruction)
  | lineage (instruction : LineageInstruction)
  | evaluation (instruction : EvaluationInstruction)
  | proxy (instruction : ProxyInstruction)
  | object (instruction : ObjectInstruction)
  | callback (instruction : CallbackInstruction)
  | command (instruction : CommandInstruction)

def Instruction.isReclamation : Instruction → Bool
  | .callback (.reclaim _) => true
  | _ => false

/-- An instruction of a script. After an instruction in a burst the background does not run. -/
structure Line where
  instruction : Instruction
  burst : Bool := false

end RemoteHost.Script
