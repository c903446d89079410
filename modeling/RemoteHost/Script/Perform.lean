import RemoteHost.Script.Workspace

/-!
# Performing instructions

What every instruction does and what it shows. After an instruction the background runs until
everybody in it waits.
-/

namespace RemoteHost.Script

inductive Shown where
  | nothing
  | json (value : Json)
  | flag (value : Bool)
  | count (value : Nat)
  | texts (values : List String)
  | outcome (outcome : Outcome)
  | object (object : Proxy)
  | answer (answer : Answer)
  | call (call : Call)
  | lineage (label : String) (parent : Option String) (roundTrips : Nat)
  | hostState (openTokens closedTokens : List String) (submissions : Nat)
  | keyStatus (contained released : Bool)
  | invoked (outcome : Outcome) (tokens : List String)
  /-- Operations by label with their tokens. -/
  | operations (operations : List (String × List String))

open Run

/-- Shows an answer and keeps the objects it brings. -/
def showAnswer (name : NewName) (answer : Answer) : Run Shown := do
  match answer with
  | .object object => keepObject name object
  | .optionalObject (some object) => keepObject name object
  | .objects objects => keepObjects name objects
  | _ => pure ()
  pure (.answer answer)

def askObjectNamed (on : String) (query : Query) (lineageName : LineageName) (name : NewName) :
    Run Shown := do
  let receiver ← object on
  let step ← optionalLineage lineageName
  showAnswer name (← job (query.ask (← settings) receiver step))

/-- The label of the operations that a script starts without a name. -/
def defaultLabel : String := "op"

def start (name : NewName) (starting : String → Job Action Invoked) : Run Shown := do
  let label := name.getD defaultLabel
  let invoked ← job (starting label)
  keepOperation label invoked.tokens
  pure (.invoked invoked.outcome invoked.tokens)

def tokenOf (target : Target) : Run String := do
  match target with
  | .token token => pure token
  | .slot operation index => slotToken operation index

/-- Fires at an endpoint. A scripted host sends envelopes only. -/
def fireAt (target : Target) (charge : Charge) : Run Bool := do
  let token ← tokenOf target
  match charge, (← get).session.host with
  | .value payload, .scripted _ => do
    let envelope ← ofMismatch (Envelope.ofJson payload)
    onSession (·.fire token envelope.toJson)
  | .value payload, _ => onSession (·.fire token payload)
  | .bytes bytes, _ => onSession (·.connect token bytes)

/-- The first of the rules whose text is part of a program says how it is answered. -/
def respondBy (rules : List (String × Envelope)) (otherwise : Envelope) (program : String) :
    Envelope :=
  ((rules.find? fun rule => Text.occurs rule.1.toList program.toList).map (·.2)).getD otherwise

def onScripted (f : ScriptedHost → ScriptedHost) : Run Unit :=
  modifySession fun s =>
    match s.host with
    | .scripted host => { s with host := .scripted (f host) }
    | _ => s

/-- Runs a routine of the foreground up to the point where it waits for a reply, and gives it up. -/
def untilCollect {α : Type} : Routine Action α → Session Action → Session Action
  | .done _, s => s
  | .ask .collect _, s => s
  | .ask request next, s =>
    match s.answer .foreground request with
    | (some reply, s) => untilCollect (next reply) s
    | (none, s) => s

/-- Hands half of a program to the connection. -/
def writePart (program : String) (s : Session Action) : Session Action :=
  match s.host with
  | .wired host => { s with host := .wired (host.writePart program) }
  | _ => s

def submissions (events : List HostEvent) : Nat :=
  events.countP fun
    | .executed _ => true
    | _ => false

def sorted (tokens : List String) : List String := tokens.mergeSort fun a b => decide (a ≤ b)

/-- The open and the closed endpoints, each in ascending order. -/
def hostState (s : Session Action) : Shown :=
  let receiving := s.board.filter fun e => e.isOpen && e.connected
  let closed := s.board.filter fun e => !e.isOpen
  .hostState (sorted (receiving.map (·.token))) (sorted (closed.map (·.token)))
    (submissions s.journal.events)

def showOperations (operations : List (CallbackOperation Action)) : Shown :=
  .operations (operations.map fun op => (op.label, op.tokens))

def HostInstruction.perform : HostInstruction → Run Shown
  | .push envelope => do
    let envelope ← ofMismatch (Envelope.ofJson envelope)
    onScripted (·.push envelope)
    pure .nothing
  | .respond rules otherwise => do
    let rules ← rules.mapM fun (text, envelope) => do
      pure (text, ← ofMismatch (Envelope.ofJson envelope))
    let otherwise ← ofMismatch (Envelope.ofJson otherwise)
    onScripted fun host => { host with responder := some (respondBy rules otherwise) }
    pure .nothing
  | .reply next => do
    modifySession fun s =>
      match s.host with
      | .replaying host => { s with host := .replaying (host.push next) }
      | _ => s
    pure .nothing
  | .execute program => do
    let reply ← job do
      Job.submit program
      Job.ofTransport (← Job.collect)
    pure (.json reply)
  | .status => do pure (hostState (← get).session)
  | .hangUp token => do pure (.flag (← onSession (·.hangUp token)))
  | .fire target charge => do pure (.flag (← fireAt target charge))

def LineageInstruction.perform : LineageInstruction → Run Shown
  | .start name => do
    keepLineage name (← onSession (·.addLineage (name.getD "") none))
    pure .nothing
  | .child parent name => do
    let parent ← lineage parent
    keepLineage name (← onSession (·.addLineage (name.getD "") (some parent)))
    pure .nothing
  | .share shared name => do
    keepLineage name (← lineage shared)
    pure .nothing
  | .describe name => do
    let id ← lineage name
    let s := (← get).session
    let parent := (s.lineages[id]?.bind (·.parent)).map s.lineageLabel
    pure (.lineage (s.lineageLabel id) parent (s.roundTrips id))
  | .compare name other => do
    let id ← lineage name
    pure (.flag (id == (← lineage other)))
  | .enter name policy turn => do
    let id ← lineage name
    let guest ← onSession fun s => (Party.guest s.guests, { s with guests := s.guests + 1 })
    match ← routine guest (Job.enter id policy).run with
    | .ok _ => keepTurn turn guest id
    | .error fault => throw (.fault fault)
    pure .nothing
  | .complete name => do
    let (_, id) ← turn name
    modify fun w => { w with turns := w.turns.filter (·.1 != name) }
    modifySession (·.complete id)
    pure .nothing
  | .abandon name => do
    let _ ← turn name
    dropTurn name
    pure .nothing

def EvaluationInstruction.perform : EvaluationInstruction → Run Shown
  | .evaluate name expression shape => do
    let id ← lineage name
    pure (.outcome (← job (RemoteHost.evaluate (← settings) expression shape id)))
  | .evaluateMap name expression shape post => do
    let id ← lineage name
    pure (.json (← job (evaluateAs (← settings) expression shape id post.apply)))
  | .spawn name task expression shape => do
    let id ← lineage name
    let s ← settings
    modifySession fun session =>
      session.spawn task (RemoteHost.evaluate s expression shape id).run
    pure .nothing
  | .abandonEvaluation name expression shape => do
    let id ← lineage name
    let s ← settings
    modifySession fun session =>
      (untilCollect (RemoteHost.evaluate s expression shape id).run session).abandon .foreground
    pure .nothing
  | .abandonWriting name expression => do
    let id ← lineage name
    let s ← settings
    job (Job.enter id s.stepConflict)
    modifySession fun session =>
      (writePart (Program.enveloped s expression .value) session).abandon .foreground
    pure .nothing
  | .installPrelude name => do
    let id ← lineage name
    pure (.json (← job (RemoteHost.installPrelude (← settings) id)))
  | .release name => do
    let id ← lineage name
    pure (.count (← job (releaseHandles (← settings) id)))
  | .keyStatus key => do
    let arena := (← get).session.arena
    pure (.keyStatus (arena.contains key) (arena.isReleased key))
  | .keys => do pure (.texts (← get).session.arena.keys)
  | .record key => do
    modifySession fun s => { s with arena := s.arena.record key }
    pure .nothing

def ProxyInstruction.perform : ProxyInstruction → Run Shown
  | .root source name => do
    keepObject name (.root source)
    pure (.object (.root source))
  | .resolved key name => do
    keepObject name (.resolved key)
    pure (.object (.resolved key))
  | .activeWindow name => do
    let window := RemoteHost.activeWindow (← settings)
    keepObject name window
    pure (.object window)
  | .windows lineageName name => do
    let id ← lineage lineageName
    showAnswer name (.objects (← job (RemoteHost.windows (← settings) id)))
  | .look on => do pure (.object (← object on))
  | .materialize on lineageName name => do
    let receiver ← object on
    let id ← lineage lineageName
    let result ← job (RemoteHost.materialize (← settings) receiver id)
    keepObject name result
    pure (.object result)
  | .call on operation lineageName name => do
    let receiver ← object on
    let step ← optionalLineage lineageName
    let result ← job (RemoteHost.call (← settings) receiver operation step)
    match result with
    | .pending pending => keepCall name pending
    | .resolved _ => pure ()
    pure (.call result)
  | .resolve pending lineageName => do
    let pending ← pendingCall pending
    let step ← optionalLineage lineageName
    pure (.outcome (← job (pending.resolve (← settings) step)))
  | .intoProxy pending name => do
    let pending ← pendingCall pending
    keepObject name pending.proxy
    pure (.object pending.proxy)

def ObjectInstruction.perform : ObjectInstruction → Run Shown
  | .window on operation lineageName name => do
    askObjectNamed on (operation.query (← settings)) lineageName name
  | .focusSheet on target lineageName => do
    let operation := WindowOperation.focusSheet (← object target)
    askObjectNamed on (operation.query (← settings)) lineageName none
  | .focusView on target lineageName => do
    let operation := WindowOperation.focusView (← object target)
    askObjectNamed on (operation.query (← settings)) lineageName none
  | .view on operation lineageName name => askObjectNamed on operation.query lineageName name
  | .sheet on operation lineageName name => askObjectNamed on operation.query lineageName name

def CallbackInstruction.perform : CallbackInstruction → Run Shown
  | .quickPanel on panel lineageName name => do
    let window ← object on
    let id ← lineage lineageName
    let s ← settings
    start name fun label => panel.present s label window id
  | .inputPanel on panel lineageName name => do
    let window ← object on
    let id ← lineage lineageName
    let s ← settings
    start name fun label => panel.present s label window id
  | .invoke template shape slots lineageName name => do
    let id ← lineage lineageName
    let s ← settings
    start name fun label => RemoteHost.invoke s label template shape slots id
  | .pending => do pure (showOperations (← get).session.pending)
  | .reclaim all => do pure (showOperations (← onSession (·.reclaim fun _ => all)))

def CommandInstruction.perform : CommandInstruction → Run Shown
  | .register name command => do
    let command := command.command (← settings)
    modify fun w => { w with commands := w.commands.register name command }
    pure .nothing
  | .unregister name => do
    let (found, commands) := (← get).commands.unregister name
    modify fun w => { w with commands }
    pure (.flag found)
  | .names => do pure (.texts (← get).commands.names)
  | .contains name => do pure (.flag ((← get).commands.contains name))
  | .run name key arguments lineageName => do
    let id ← lineage lineageName
    job ((← get).commands.run name key arguments id)
    pure .nothing
  | .isEnabled name key arguments lineageName => do
    let id ← lineage lineageName
    pure (.flag (← job ((← get).commands.isEnabled name key arguments id)))
  | .isVisible name key arguments lineageName => do
    let id ← lineage lineageName
    pure (.flag (← job ((← get).commands.isVisible name key arguments id)))

def Instruction.perform : Instruction → Run Shown
  | .host i => i.perform
  | .lineage i => i.perform
  | .evaluation i => i.perform
  | .proxy i => i.perform
  | .object i => i.perform
  | .callback i => i.perform
  | .command i => i.perform

/-- What came of a line, with what happened meanwhile. -/
structure Report where
  result : Except Trouble Shown
  journal : Journal
  liveKeys : Nat
  releasedKeys : Nat

/-- The part of a journal that another one does not have yet. -/
def newEntries (old new : Journal) : Journal where
  events := new.events.drop old.events.length
  calls := new.calls.drop old.calls.length
  endings := new.endings.drop old.endings.length
  results := new.results.drop old.results.length

/-- What a reclamation led to: endpoints in the order in which their tokens were first given, and
operations in the order in which their labels were. -/
def inOpeningOrder (s : Session Action) (journal : Journal) : Journal :=
  let eventRank : HostEvent → Nat
    | .closed token => s.board.findIdx (·.token == token) + 1
    | _ => 0
  let endingRank (report : OperationReport) : Nat := s.operations.findIdx (·.label == report.label)
  { journal with
    events := journal.events.mergeSort fun a b => eventRank a ≤ eventRank b
    endings := journal.endings.mergeSort fun a b => endingRank a ≤ endingRank b }

/-- Performs a line. Unless it is in a burst, the background then runs until everybody waits. -/
def Line.perform (line : Line) (w : Workspace) : Report × Workspace :=
  let old := w.session.journal
  let (result, w) := line.instruction.perform.run.run w
  let behave := Action.behave w.session.settings
  let w := if line.burst then w else { w with session := w.session.settle behave }
  let journal := newEntries old w.session.journal
  ({ result
     journal := if line.instruction.isReclamation then inOpeningOrder w.session journal else journal
     liveKeys := w.session.arena.size
     releasedKeys := w.session.arena.releasedSize }, w)

def performAll : List Line → Workspace → List Report
  | [], _ => []
  | line :: rest, w =>
    let (report, w) := line.perform w
    report :: performAll rest w

end RemoteHost.Script
