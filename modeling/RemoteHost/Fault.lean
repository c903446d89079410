import RemoteHost.Envelope
import RemoteHost.Json.Fault
import RemoteHost.Text.Uuid

/-!
# Faults

Failures are told apart by who is at fault: the caller, the host, or the way between them. Every
cause has one wording.
-/

namespace RemoteHost

/-- Misuse by the caller, noticed before anything reaches the host. -/
inductive UsageFault where
  | missingStep (operation : String)
  | chainTooLong (links most : Nat)
  | stepConflict (lineage : String)
  | placeholderMismatch (slots placeholders : Nat)
  | unknownCommand (name : String)
  | releasedHandle (key : String)
  deriving DecidableEq, Repr

namespace UsageFault

def message : UsageFault → String
  | .missingStep operation =>
    "operation '" ++ operation ++ "' needs a step: its receiver is not resolved"
  | .chainTooLong links most =>
    "chain of " ++ toString links ++ " links exceeds the configured maximum of " ++ toString most
  | .stepConflict lineage => "step lineage " ++ lineage ++ " is already talking to the host"
  | .placeholderMismatch slots placeholders =>
    "template has " ++ toString placeholders ++ " callback placeholders but " ++ toString slots ++
      " slots were supplied"
  | .unknownCommand name => "no window command registered as '" ++ name ++ "'"
  | .releasedHandle key => "handle '" ++ key ++ "' was released"

end UsageFault

/-- Replies that are JSON but not what was asked for. -/
inductive Malformation where
  | envelope (mismatch : Json.Mismatch)
  | listEntry (item : Json)
  | notHandleList (value : Json)
  | notReleaseCount (value : Json)
  | notInteger (value : Json)
  | notBoolean (value : Json)
  | notTexts (value : Json)
  | notOptionalText (value : Json)
  | notMapping (value : Json)
  | missingId
  | missingResult
  | stated (text : String)

namespace Malformation

def message : Malformation → String
  | .envelope mismatch => mismatch.message
  | .listEntry item => "handle list entry is not a key: " ++ item.compact
  | .notHandleList value => "handle list is not an array: " ++ value.compact
  | .notReleaseCount value => "release count is not a number: " ++ value.compact
  | .notInteger value => "expected an integer, got " ++ value.compact
  | .notBoolean value => "expected a boolean, got " ++ value.compact
  | .notTexts value => "expected a list of strings, got " ++ value.compact
  | .notOptionalText value => "expected a string or none, got " ++ value.compact
  | .notMapping value => "expected a mapping, got " ++ value.compact
  | .missingId => "response missing id"
  | .missingResult => "response missing result"
  | .stated text => text

end Malformation

inductive IoFault where
  | notFound
  | notDirectory
  | isDirectory
  | nameTooLong
  | invalidArgument
  | addressUnavailable
  | networkUnreachable
  | connectionRefused
  | unknownName
  /-- Nobody could be asked for the name of a host. -/
  | lookupFailed
  | invalidText
  | invalidAddress
  | invalidService
  | other (text : String)
  deriving DecidableEq, Repr

namespace IoFault

def message : IoFault → String
  | .notFound => "No such file or directory (os error 2)"
  | .notDirectory => "Not a directory (os error 20)"
  | .isDirectory => "Is a directory (os error 21)"
  | .nameTooLong => "File name too long (os error 36)"
  | .invalidArgument => "Invalid argument (os error 22)"
  | .addressUnavailable => "Cannot assign requested address (os error 99)"
  | .networkUnreachable => "Network is unreachable (os error 101)"
  | .connectionRefused => "Connection refused (os error 111)"
  | .unknownName => "failed to lookup address information: Name or service not known"
  | .lookupFailed => "failed to lookup address information: Temporary failure in name resolution"
  | .invalidText => "stream did not contain valid UTF-8"
  | .invalidAddress => "invalid socket address"
  | .invalidService => "invalid port value"
  | .other text => text

end IoFault

/-- A line that is not JSON: the fault, and the line it was met in. -/
structure LineFault where
  fault : Json.ReadFault
  line : List Text.Glyph

/-- Failures to reach the host or to understand its reply. -/
inductive TransportFault where
  | io (fault : IoFault)
  | json (fault : LineFault)
  | malformed (cause : Malformation)
  | unexpectedKind (expected : ResultShape) (found : Kind)
  | responseMismatch (expected got : Nat)
  | closed
  | host (message : String)

namespace TransportFault

def message : TransportFault → String
  | .io fault => "io error: " ++ fault.message
  | .json fault => "json error: " ++ fault.fault.message fault.line
  | .malformed cause => "malformed envelope: " ++ cause.message
  | .unexpectedKind expected found =>
    "expected a " ++ expected.name ++ " result, host returned '" ++ found.name ++ "'"
  | .responseMismatch expected got =>
    "response id mismatch (expected " ++ toString expected ++ ", got " ++ toString got ++ ")"
  | .closed => "connection closed by host"
  | .host message => "host transport error: " ++ message

/-- The failures underneath, the next one first. -/
def causes : TransportFault → List String
  | .io fault => [fault.message]
  | .json fault => [fault.fault.message fault.line]
  | _ => []

end TransportFault

inductive Fault where
  | usage (fault : UsageFault)
  | remote (message : String)
  | transport (fault : TransportFault)
  | configuration (message : String)

namespace Fault

/-- The failure without the word on who is at fault. -/
def inner : Fault → String
  | .usage fault => fault.message
  | .remote message => message
  | .transport fault => fault.message
  | .configuration message => message

def message : Fault → String
  | .usage fault => "Usage error: " ++ fault.message
  | .remote message => "Remote error: " ++ message
  | .transport fault => "Transport error: " ++ fault.message
  | .configuration message => "Configuration error: " ++ message

/-- The failures underneath, the next one first. A configuration fault has none. -/
def causes : Fault → List String
  | .usage fault => [fault.message]
  | .remote message => [message]
  | .transport fault => fault.message :: fault.causes
  | .configuration _ => []

def isRemote : Fault → Bool
  | .remote _ => true
  | _ => false

def isUsage : Fault → Bool
  | .usage _ => true
  | _ => false

end Fault

/-- Refuses an outcome that is not what was expected. -/
def ResultShape.accept (shape : ResultShape) (outcome : Outcome) :
    Except TransportFault Outcome :=
  if shape.fits outcome then .ok outcome else .error (.unexpectedKind shape outcome.kind)

/-- The keys of a list of handles. The first item that is no key is reported. -/
def handleKeys : Json → Except TransportFault (List String)
  | .array items => items.mapM fun
    | .string key => .ok key
    | other => .error (.malformed (.listEntry other))
  | other => .error (.malformed (.notHandleList other))

/-- A callback operation that was ended because nobody else had ended it. -/
structure Leak where
  operation : Text.Uuid
  tokens : List String
  seconds : Int

def Leak.message (leak : Leak) : String :=
  "callback operation " ++ leak.operation.text ++ " leaked " ++ toString leak.tokens.length ++
    " endpoint(s) after " ++ String.ofList (Decimal.wholeChars leak.seconds) ++ "s"

end RemoteHost
