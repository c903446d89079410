import RemoteHost.Fault
import RemoteHost.Network.Address

/-!
# Reaching a host

A host is named by a place and the number of a service. The place is an address or a name that
stands for addresses; all of them are tried, and the last failure is reported.
-/

namespace RemoteHost

namespace Network

/-- Whether a text is a decimal number of at most 16 bits. -/
def isServiceNumber (text : List Char) : Bool := (ofDigits? 10 text).any (· < 65536)

/-- A service of a host is a number of at most 16 bits, which may have a plus sign. -/
def isService : List Char → Bool
  | '+' :: digits => isServiceNumber digits
  | text => isServiceNumber text

def cutAtLastColon (text : List Char) : Option (List Char × List Char) :=
  let after := (text.reverse.takeWhile (· ≠ ':')).reverse
  if ':' ∈ text then some (text.take (text.length - after.length - 1), after) else none

inductive Place where
  | address (address : Address)
  | name (name : String)
  deriving DecidableEq, Repr

structure Destination where
  place : Place
  service : Nat
  deriving DecidableEq, Repr

/-- The number of a service, which may have a plus sign. -/
def serviceNumber (text : List Char) : Nat := (ofDigits? 10 (text.dropWhile (· = '+'))).getD 0

def bracketed? (text : List Char) : Option Address :=
  match text with
  | '[' :: rest => if rest.getLast? = some ']' then Address.ofGroups? rest.dropLast else none
  | _ => none

/-- The place that a text before a service stands for. Brackets go with a plain number only. -/
def Place.ofText (text service : List Char) : Place :=
  let address := if isServiceNumber service then bracketed? text else none
  match address.or (Address.ofText? text) with
  | some address => .address address
  | none => .name (String.ofList text)

/-- Reads the place and the service out of a text. -/
def Destination.ofText (text : String) : Except IoFault Destination :=
  match cutAtLastColon text.toList with
  | none => .error .invalidAddress
  | some (place, service) =>
    if isService service then .ok ⟨.ofText place service, serviceNumber service⟩
    else .error .invalidService

def isLabel (label : List Char) : Bool :=
  !label.isEmpty && label.length ≤ 63 && label.all fun c => c.isAlphanum || c == '-' || c == '_'

/-- A name without the point that may end it. -/
def withoutFinalPoint (name : List Char) : List Char :=
  if name.getLast? = some '.' then name.dropLast else name

/-- Whether a text can be a name at all: labels with points between them, or a single point. -/
def isName (name : List Char) : Bool :=
  let labels := withoutFinalPoint name
  name == ['.'] ||
    (labels.length ≤ 253 && labels.head? != some '-' && (Text.pieces ['.'] labels).all isLabel)

end Network

structure Network where
  /-- The names that are known without asking anybody, in lower case. -/
  names : List (String × List Network.Address)
  /-- The links that the machine has, with their numbers. -/
  links : List (String × Nat)
  connect : Network.Address → Except IoFault Unit

namespace Network

/-- The addresses of a place. A name that is not known could only be asked for elsewhere. -/
def addresses (network : Network) : Place → Except IoFault (List Address)
  | .address address => .ok [address]
  | .name name =>
    let here := (Address.onLink? network.links name.toList).map fun address => [address]
    match (network.names.lookup name.toLower).or here with
    | some addresses => .ok addresses
    | none => .error (if isName name.toList then .lookupFailed else .unknownName)

/-- Connects to the first address that answers; the last failure is reported. -/
def connectFirst (network : Network) (failure : IoFault) : List Address → Except IoFault Unit
  | [] => .error failure
  | address :: rest =>
    match network.connect address with
    | .ok () => .ok ()
    | .error fault => network.connectFirst fault rest

def reach (network : Network) (text : String) : Except IoFault Unit := do
  let destination ← Destination.ofText text
  let addresses ← network.addresses destination.place
  network.connectFirst .unknownName addresses

/-- What comes of connecting to an address where no way leads anywhere. -/
def noWay : Address → IoFault
  | .v4 _ => .networkUnreachable
  | .v6 groups link =>
    if Address.isMapped groups || Address.isMulticast groups then .networkUnreachable
    else if Address.isLinkLocal groups && link == 0 then .invalidArgument
    else .addressUnavailable

/-- A machine that is on no network: it knows its own name and reaches nobody. A star stands for
the machine in both families of addresses. -/
def isolated : Network where
  names := [("localhost", [.loopback]), ("*", [.v6 [0, 0, 0, 0, 0, 0, 0, 1] 0, .loopback])]
  links := [("lo", 1)]
  connect address := .error (noWay address)

end Network

end RemoteHost
