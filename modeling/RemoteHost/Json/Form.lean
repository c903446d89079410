import RemoteHost.Json.Mismatch

/-!
# Forms of JSON values

Readers for the simple forms that other values are made of: strings, booleans, counts and names
out of a fixed list.
-/

namespace RemoteHost.Json

def asString : Json → Except Mismatch String
  | .string text => .ok text
  | other => .error (.wrongType other "a string")

def asBool : Json → Except Mismatch Bool
  | .bool b => .ok b
  | other => .error (.wrongType other "a boolean")

def countOf : JsonNumber → Except Mismatch Nat
  | .integer n =>
    if 0 ≤ n then .ok n.toNat else .error (.wrongValue (.number (.integer n)) "usize")
  | .float bits => .error (.wrongType (.number (.float bits)) "usize")

def asOptionalCount : Json → Except Mismatch (Option Nat)
  | .null => .ok none
  | .number n => (countOf n).map some
  | other => .error (.wrongType other "usize")

def variantNamed {α : Type} (variants : List (String × α)) (name : String) : Except Mismatch α :=
  match variants.find? (·.1 == name) with
  | some (_, value) => .ok value
  | none => .error (.unknownVariant name (variants.map (·.1)))

/-- A name out of a list, or an object whose only key is the name and whose value is null. -/
def asVariant {α : Type} (variants : List (String × α)) : Json → Except Mismatch α
  | .string name => variantNamed variants name
  | .object [(name, content)] =>
    match variantNamed variants name, content with
    | .ok value, .null => .ok value
    | .ok _, other => .error (.wrongType other "unit")
    | .error fault, _ => .error fault
  | .object fields => .error (.wrongValue (.object fields) "map with a single key")
  | other => .error (.wrongType other "string or map")

end RemoteHost.Json
