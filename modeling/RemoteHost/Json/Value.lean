/-!
# JSON values

Numbers keep apart integers and floating-point numbers: `1` and `1.0` are different values. The
fields of an object are listed by ascending key.
-/

namespace RemoteHost

/-- A number is an integer of at most 64 bits or the bit pattern of a finite float. -/
inductive JsonNumber where
  | integer (value : Int)
  | float (bits : UInt64)
  deriving DecidableEq, Repr

inductive Json where
  | null
  | bool (value : Bool)
  | number (value : JsonNumber)
  | string (text : String)
  | array (items : List Json)
  | object (fields : List (String × Json))
  deriving Repr, Inhabited

namespace JsonNumber

def toSigned? : JsonNumber → Option Int
  | .integer n => if n < Nat.pow 2 63 then some n else none
  | .float _ => none

def toNat? : JsonNumber → Option Nat
  | .integer n => if 0 ≤ n then some n.toNat else none
  | .float _ => none

end JsonNumber

namespace Json

/-- Sets a field among fields with ascending keys; an earlier value of the key is replaced. -/
def setField (key : String) (value : Json) : List (String × Json) → List (String × Json)
  | [] => [(key, value)]
  | (k, v) :: rest =>
    if key < k then (key, value) :: (k, v) :: rest
    else if key = k then (key, value) :: rest
    else (k, v) :: setField key value rest

/-- The object with the given fields; the last of two equal keys counts. -/
def ofFields (fields : List (String × Json)) : Json :=
  .object (fields.foldl (fun sorted f => setField f.1 f.2 sorted) [])

def findField (key : String) (fields : List (String × Json)) : Option Json :=
  (fields.find? (·.1 == key)).map (·.2)

def field? (key : String) : Json → Option Json
  | .object fields => findField key fields
  | _ => none

def ofNat (n : Nat) : Json := .number (.integer n)

def ofInt (n : Int) : Json := .number (.integer n)

def text? : Json → Option String
  | .string text => some text
  | _ => none

def nat? : Json → Option Nat
  | .number n => n.toNat?
  | _ => none

def signed? : Json → Option Int
  | .number n => n.toSigned?
  | _ => none

def bool? : Json → Option Bool
  | .bool b => some b
  | _ => none

end Json

end RemoteHost
