import Std.Async.DNS
import Std.Async.TCP
import RemoteHost.CommandLine.Run
import RemoteHost.Session.Supervision

/-!
# The program

Reads files, connects to hosts and moves bytes; what they mean is decided elsewhere.
-/

namespace RemoteHost.CommandLine

open Std.Async (Async)
open Std.Async.TCP.Socket (Client)

/-- The fault that a failure of the system amounts to, by the number that the system gave it. -/
def faultOfCode (code : Nat) (text : String) : IoFault :=
  match code with
  | 2 => .notFound
  | 20 => .notDirectory
  | 21 => .isDirectory
  | 22 => .invalidArgument
  | 36 => .nameTooLong
  | 99 => .addressUnavailable
  | 101 => .networkUnreachable
  | 111 => .connectionRefused
  | _ => .other text

/-- The fault that a failure of the system amounts to. -/
def faultOfSystem (e : IO.Error) : IoFault :=
  match e with
  | .noFileOrDirectory _ _ _ => .notFound
  | .invalidArgument _ code details | .inappropriateType _ code details
  | .noSuchThing _ code details | .permissionDenied _ code details =>
    faultOfCode code.toNat (details ++ " (os error " ++ toString code ++ ")")
  | .unsupportedOperation code details => faultOfCode code.toNat details
  | other => .other (toString other)

def readFile (path : String) : IO (Except IoFault (List Text.Glyph)) := do
  try
    let bytes ← IO.FS.readBinFile path
    return .ok (Text.decode bytes.toList)
  catch e => return .error (faultOfSystem e)

/-- An address with a service, as the system takes it, which finds the link itself. -/
def socketAddress (service : UInt16) : Network.Address → Std.Net.SocketAddress
  | .v4 value =>
    let byte (n : Nat) : UInt8 := UInt8.ofNat (value / Nat.pow 256 n)
    .v4 ⟨.ofParts (byte 3) (byte 2) (byte 1) (byte 0), service⟩
  | .v6 groups _ =>
    let group (n : Nat) : UInt16 := UInt16.ofNat (groups.getD n 0)
    .v6 ⟨.ofParts (group 0) (group 1) (group 2) (group 3) (group 4) (group 5) (group 6) (group 7),
      service⟩

/-- The addresses to try for a destination. -/
def socketAddresses (destination : Network.Destination) :
    IO (Except IoFault (List Std.Net.SocketAddress)) := do
  let service := UInt16.ofNat destination.service
  match destination.place with
  | .address address => return .ok [socketAddress service address]
  | .name name =>
    try
      let found ← (Std.Async.DNS.getAddrInfo name (toString destination.service)).block
      return .ok (found.toList.map fun
        | .v4 addr => .v4 ⟨addr, service⟩
        | .v6 addr => .v6 ⟨addr, service⟩)
    catch _ =>
      return .error (if Network.isName name.toList then .lookupFailed else .unknownName)

/-- Connects to the first of some addresses that answers. -/
def connectFirst (failure : IoFault) :
    List Std.Net.SocketAddress → IO (Except IoFault Client)
  | [] => return .error failure
  | address :: rest => do
    try
      let client ← Client.mk
      (client.connect address).block
      return .ok client
    catch e => connectFirst (faultOfSystem e) rest

/-- Connects to the host of an address. -/
def connect (address : String) : IO (Except IoFault Client) := do
  match Network.Destination.ofText address with
  | .error fault => return .error fault
  | .ok destination =>
    match ← socketAddresses destination with
    | .error fault => return .error fault
    | .ok addresses => connectFirst .unknownName addresses

/-- Sends what the session writes and feeds it what arrives, until the routine is done. -/
partial def converse (client : Client) (routine : Routine Empty (Except Fault String))
    (s : Session Empty) : IO (Except Fault String) := do
  let before := (sentLines s.journal.events).length
  let (rest, s) := Session.advance .foreground routine s
  for line in (sentLines s.journal.events).drop before do
    (client.send (line ++ "\n").toUTF8).block
  match rest with
  | .done result => return result
  | rest => do
    let bytes ← (client.recv? 65536).block
    converse client rest (s.receive (bytes.map (·.toList)))

/-- Runs a command with the host of an address. -/
def converseWith (s : Settings) (address : String) (command : Command) : IO Output := do
  match ← connect address with
  | .error fault => return unconnected address fault
  | .ok client =>
    let job : Job Empty String := command.job s 0
    return .ofResult (← converse client job.run (session s none)) []

def execute (request : Request) : IO Output := do
  let file ← match request.settingsPath with
    | none => pure (.error .notFound)
    | some path => readFile path
  match loadSettings (fun _ => file) request.settingsPath with
  | .error fault => return failed (fault.message (request.settingsPath.getD "")) [fault.cause]
  | .ok s =>
    match request.command with
    | .printPrelude => return { exitCode := 0, out := Program.prelude s }
    | command => converseWith s request.address command

end RemoteHost.CommandLine

def main (arguments : List String) : IO UInt32 := do
  let output ← match RemoteHost.CommandLine.parse arguments with
    | .error refusal => pure refusal.output
    | .ok request => RemoteHost.CommandLine.execute request
  (← IO.getStdout).putStr output.out
  (← IO.getStderr).putStr output.err
  return UInt32.ofNat output.exitCode
