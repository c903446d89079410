import RemoteHost.Script.Instruction
import RemoteHost.Session.Schedule
import RemoteHost.Session.Supervision

/-!
# Workspaces

A session together with the names that a script has given so far. An instruction that uses a name
that was never given does nothing at all.
-/

namespace RemoteHost.Script

structure Workspace where
  session : Session Action
  objects : List (String × Proxy) := []
  calls : List (String × PendingCall) := []
  lineages : List (String × LineageId) := []
  turns : List (String × (Party × LineageId)) := []
  /-- The tokens of the operations that the script itself started. -/
  operations : List (String × List String) := []
  commands : Registry Action := {}

inductive Trouble where
  /-- It uses a name that was never given. -/
  | unset
  | fault (fault : Fault)
  /-- It waits for something that nobody will do. -/
  | stuck

/-- A part of an instruction. What it did to the workspace stays, whether it fails or not. -/
abbrev Run := ExceptT Trouble (StateM Workspace)

/-- The lineage and the name that every script starts with. -/
def firstLineage : String := "s"

def Workspace.start (settings : Settings) (host : Host) : Workspace where
  session := { settings, host, lineages := [{ label := firstLineage }] }
  lineages := [(firstLineage, 0)]

namespace Run

def known {α : Type} (value : Option α) : Run α :=
  match value with
  | some a => pure a
  | none => throw .unset

def settings : Run Settings := do pure (← get).session.settings

def modifySession (f : Session Action → Session Action) : Run Unit :=
  modify fun w => { w with session := f w.session }

/-- Changes the session and returns what comes out. -/
def onSession {α : Type} (f : Session Action → α × Session Action) : Run α := do
  let (a, session) := f (← get).session
  modify fun w => { w with session }
  pure a

def object (name : String) : Run Proxy := do known ((← get).objects.lookup name)

def pendingCall (name : String) : Run PendingCall := do known ((← get).calls.lookup name)

def turn (name : String) : Run (Party × LineageId) := do known ((← get).turns.lookup name)

def slotToken (operation : String) (index : Nat) : Run String := do
  known (((← get).operations.lookup operation).bind (·[index]?))

def lineage (name : LineageName) : Run LineageId := do
  known (name.bind ((← get).lineages.lookup ·))

def optionalLineage (name : LineageName) : Run (Option LineageId) :=
  match name with
  | none => pure none
  | some _ => do pure (some (← lineage name))

def keepObject (name : NewName) (object : Proxy) : Run Unit :=
  match name with
  | none => pure ()
  | some name => modify fun w => { w with objects := (name, object) :: w.objects }

def keepObjects (name : NewName) (objects : List Proxy) : Run Unit :=
  objects.zipIdx.forM fun (object, i) => keepObject (name.map (· ++ toString i)) object

def keepCall (name : NewName) (call : PendingCall) : Run Unit :=
  match name with
  | none => pure ()
  | some name => modify fun w => { w with calls := (name, call) :: w.calls }

def keepLineage (name : NewName) (id : LineageId) : Run Unit :=
  match name with
  | none => pure ()
  | some name => modify fun w => { w with lineages := (name, id) :: w.lineages }

def keepOperation (name : String) (tokens : List String) : Run Unit :=
  modify fun w => { w with operations := (name, tokens) :: w.operations }

/-- Takes a turn out of the workspace and gives it up. -/
def dropTurn (name : String) : Run Unit := do
  match (← get).turns.lookup name with
  | none => pure ()
  | some (guest, _) => do
    modify fun w => { w with turns := w.turns.filter (·.1 != name) }
    modifySession (·.abandon guest)

/-- Keeps a turn under a name and gives up the turn that had the name before. -/
def keepTurn (name : String) (guest : Party) (id : LineageId) : Run Unit := do
  dropTurn name
  modify fun w => { w with turns := (name, (guest, id)) :: w.turns }

/-- Runs a routine of a party to its end. One that gets stuck is given up. -/
def routine {α : Type} (p : Party) (routine : Routine Action α) : Run α := do
  let behave := Action.behave (← settings)
  match ← onSession fun s => s.perform behave p routine with
  | .done a => pure a
  | .ask _ _ => do
    modifySession (·.abandon p)
    throw .stuck

def job {α : Type} (job : Job Action α) : Run α := do
  match ← routine .foreground job.run with
  | .ok a => pure a
  | .error fault => throw (.fault fault)

def ofMismatch {α : Type} : Except Json.Mismatch α → Run α
  | .ok a => pure a
  | .error mismatch => throw (.fault (.transport (.malformed (.envelope mismatch))))

end Run

end RemoteHost.Script
