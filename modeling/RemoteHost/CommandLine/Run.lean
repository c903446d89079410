import RemoteHost.CommandLine.Help
import RemoteHost.Evaluation
import RemoteHost.Network.Reach
import RemoteHost.Session.Schedule
import RemoteHost.Settings.File

/-!
# Runs of the command line

What a command line prints and how it ends, given the settings file and the network that it finds.
A failure is printed with the failures underneath.
-/

namespace RemoteHost.CommandLine

structure Output where
  exitCode : Nat
  out : String := ""
  err : String := ""
  sent : List String := []

/-- Some lines, those after the first with an indentation. -/
def indentLines (indentation : String) : List Char → List Char
  | [] => []
  | '\n' :: rest => '\n' :: (indentation.toList ++ indentLines indentation rest)
  | c :: rest => c :: indentLines indentation rest

/-- A cause, numbered if there are several. -/
def causeText (number : Option Nat) (cause : String) : String :=
  match number with
  | none => "    " ++ String.ofList (indentLines "    " cause.toList)
  | some n =>
    let digits := toString n
    let margin := "".pushn ' ' (5 - digits.length)
    margin ++ digits ++ ": " ++ String.ofList (indentLines "       " cause.toList)

def failureText (message : String) (causes : List String) : String :=
  let listed := match causes with
    | [] => []
    | [cause] => ["", "", "Caused by:", causeText none cause]
    | _ => "" :: "" :: "Caused by:" :: causes.zipIdx.map fun (cause, n) => causeText (some n) cause
  "Error: " ++ message ++ "\n".intercalate listed ++ "\n"

def failed (message : String) (causes : List String) : Output :=
  { exitCode := 1, err := failureText message causes }

/-- What a command does; the result is what it prints. -/
def Command.job {F : Type} (s : Settings) (lineage : LineageId) : Command → Job F String
  | .eval source shape => do
    let outcome ← evaluate s source shape lineage
    pure ((Envelope.ofOutcome outcome).toJson.pretty ++ "\n")
  | .installPrelude => do
    let version ← RemoteHost.installPrelude s lineage
    pure ("Installed host prelude (protocol " ++ version.compact ++ ")\n")
  | .printPrelude => pure (Program.prelude s)
  | .release keys => do
    recordAll keys
    let released ← releaseHandles s lineage
    pure ("Released " ++ toString released ++ " of " ++ toString keys.length ++ " handle(s)\n")

/-- A session for one command on a connection. -/
def session (s : Settings) (replies : Option (List Wire.PeerReply)) : Session Empty where
  settings := s
  host := .wired { replies }
  lineages := [{ label := "" }]

/-- No function is ever called. -/
def inert : Behaviour Empty := fun f => nomatch f

def sentLines (events : List HostEvent) : List String :=
  events.filterMap fun
    | .sent line => some line
    | _ => none

/-- The end of a run whose command has ended. -/
def Output.ofResult (result : Except Fault String) (sent : List String) : Output :=
  match result with
  | .ok out => { exitCode := 0, out, sent }
  | .error fault => { failed fault.message fault.causes with sent }

/-- The end of a run that found no host. -/
def unconnected (address : String) (fault : IoFault) : Output :=
  let transport := TransportFault.io fault
  failed ("Failed to connect to " ++ address) (transport.message :: transport.causes)

/-- The end of a run without a request. Misuse is answered with the overview. -/
def Refusal.output : Refusal → Output
  | .misuse => { exitCode := 2, err := Topic.overview.text }
  | .help topic => { exitCode := 0, out := topic.text }

/-- What a run finds around it: files, a network, and what a host on it does. -/
structure Surroundings where
  file : String → Except IoFault (List Text.Glyph)
  network : Network
  replies : List Wire.PeerReply

def loadSettings (file : String → Except IoFault (List Text.Glyph)) (path : Option String) :
    Except LoadFault Settings :=
  match path with
  | none => .ok {}
  | some path =>
    match file path with
    | .error fault => .error (.unreadable fault)
    | .ok text => Settings.load text

/-- Runs a command with the host of an address; there is no end if the host keeps silent. -/
def runCommand (around : Surroundings) (s : Settings) (address : String) (command : Command) :
    Option Output :=
  match around.network.reach address with
  | .error fault => some (unconnected address fault)
  | .ok () =>
    let job : Job Empty String := command.job s 0
    match (session s (some around.replies)).perform inert .foreground job.run with
    | (.done result, after) => some (.ofResult result (sentLines after.journal.events))
    | (.ask _ _, _) => none

def run (around : Surroundings) (arguments : List String) : Option Output :=
  match parse arguments with
  | .error refusal => some refusal.output
  | .ok request =>
    match loadSettings around.file request.settingsPath with
    | .error fault => some (failed (fault.message (request.settingsPath.getD "")) [fault.cause])
    | .ok s =>
      match request.command with
      | .printPrelude => some { exitCode := 0, out := Program.prelude s }
      | command => runCommand around s request.address command

end RemoteHost.CommandLine
