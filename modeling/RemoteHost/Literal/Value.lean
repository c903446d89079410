import RemoteHost.Decimal.Layout
import RemoteHost.Decimal.Whole
import RemoteHost.Json.Value
import RemoteHost.Literal.Quoted

/-!
# Values as literals of the host language

JSON values spelled as Python literals. Integers stay integers and floats keep a point or an
exponent, so a value and its type survive.
-/

namespace RemoteHost.Literal

/-- Numbers in source text are positional from `0.0001` up to below `1e16`. -/
def numberLayout : Decimal.Layout := ⟨.up, -4, 15, false⟩

/-- A float. The values without a literal of their own are spelled as calls. -/
def floatChars (bits : UInt64) : List Char :=
  match Decimal.unpack bits with
  | .nan => "float('nan')".toList
  | .infinite false => "float('inf')".toList
  | .infinite true => "float('-inf')".toList
  | .finite negative mantissa exponent => numberLayout.write negative mantissa exponent

def numberChars : JsonNumber → List Char
  | .integer n => Decimal.wholeChars n
  | .float bits => floatChars bits

def booleanChars (b : Bool) : List Char := if b then "True".toList else "False".toList

def noneChars : List Char := "None".toList

def separated : List (List Char) → List Char
  | [] => []
  | [item] => item
  | item :: rest => item ++ ',' :: ' ' :: separated rest

theorem separated_eq (items : List (List Char)) :
    separated items = ", ".toList.intercalate items := by
  induction items with
  | nil => rfl
  | cons item items ih =>
    cases items with
    | nil => rw [separated, List.intercalate_singleton]
    | cons next items =>
      rw [separated, ih, List.intercalate_cons_cons, List.append_assoc]
      · rfl
      · exact List.cons_ne_nil _ _

def listChars (items : List (List Char)) : List Char := '[' :: separated items ++ [']']

def stringsChars (texts : List String) : List Char :=
  listChars (texts.map fun t => quotedChars t.toList)

mutual

def chars : Json → List Char
  | .null => noneChars
  | .bool b => booleanChars b
  | .number n => numberChars n
  | .string text => quotedChars text.toList
  | .array items => listChars (itemChars items)
  | .object fields => '\x7b' :: separated (fieldChars fields) ++ ['\x7d']

def itemChars : List Json → List (List Char)
  | [] => []
  | item :: rest => chars item :: itemChars rest

def fieldChars : List (String × Json) → List (List Char)
  | [] => []
  | (key, value) :: rest => (quotedChars key.toList ++ ':' :: ' ' :: chars value) :: fieldChars rest

end

def ofJson (value : Json) : String := String.ofList (chars value)

def ofFields (fields : List (String × Json)) : String := ofJson (.object fields)

def ofInt (n : Int) : String := String.ofList (Decimal.wholeChars n)

def ofFloat (bits : UInt64) : String := String.ofList (floatChars bits)

def ofBool (b : Bool) : String := String.ofList (booleanChars b)

def ofStrings (texts : List String) : String := String.ofList (stringsChars texts)

def ofList (items : List String) : String := String.ofList (listChars (items.map String.toList))

def noneText : String := String.ofList noneChars

end RemoteHost.Literal
