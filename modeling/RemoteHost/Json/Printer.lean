import RemoteHost.Decimal.Layout
import RemoteHost.Decimal.Whole
import RemoteHost.Json.Value
import RemoteHost.Text.Hex

/-!
# Writing JSON

Values are written either without any blank or on indented lines. Strings escape quotes,
backslashes and control characters only.
-/

namespace RemoteHost.Json

/-- Numbers in JSON text are positional from `0.00001` up to below `1e+16`. -/
def numberLayout : Decimal.Layout := ⟨.even, -5, 15, true⟩

/-- Writes a float. Patterns that stand for no finite number have no JSON text and become null. -/
def floatChars (bits : UInt64) : List Char :=
  match Decimal.unpack bits with
  | .finite negative mantissa exponent => numberLayout.write negative mantissa exponent
  | _ => "null".toList

def numberChars : JsonNumber → List Char
  | .integer n => Decimal.wholeChars n
  | .float bits => floatChars bits

def escapedChar (c : Char) : List Char :=
  if c = '"' then ['\\', '"']
  else if c = '\\' then ['\\', '\\']
  else if c = '\x08' then ['\\', 'b']
  else if c = '\x0c' then ['\\', 'f']
  else if c = '\n' then ['\\', 'n']
  else if c = '\r' then ['\\', 'r']
  else if c = '\t' then ['\\', 't']
  else if c.toNat < 0x20 then '\\' :: 'u' :: Text.hexFixed 4 c.toNat
  else [c]

def stringChars (text : String) : List Char :=
  '"' :: text.toList.flatMap escapedChar ++ ['"']

mutual

def chars : Json → List Char
  | .null => "null".toList
  | .bool true => "true".toList
  | .bool false => "false".toList
  | .number n => numberChars n
  | .string text => stringChars text
  | .array items => '[' :: itemChars items ++ [']']
  | .object fields => '\x7b' :: fieldChars fields ++ ['\x7d']

def itemChars : List Json → List Char
  | [] => []
  | [item] => chars item
  | item :: rest => chars item ++ ',' :: itemChars rest

def fieldChars : List (String × Json) → List Char
  | [] => []
  | [(key, value)] => stringChars key ++ ':' :: chars value
  | (key, value) :: rest => stringChars key ++ ':' :: chars value ++ ',' :: fieldChars rest

end

def compact (value : Json) : String := String.ofList value.chars

/-- A new line, indented by two blanks a level. -/
def newLine (level : Nat) : List Char := '\n' :: List.replicate (2 * level) ' '

mutual

/-- A value on indented lines, its own first line already begun. Empty containers stay on it. -/
def lineChars (level : Nat) : Json → List Char
  | .array [] => ['[', ']']
  | .array items => '[' :: lineItems (level + 1) items ++ newLine level ++ [']']
  | .object [] => ['\x7b', '\x7d']
  | .object fields => '\x7b' :: lineFields (level + 1) fields ++ newLine level ++ ['\x7d']
  | .null => "null".toList
  | .bool true => "true".toList
  | .bool false => "false".toList
  | .number n => numberChars n
  | .string text => stringChars text

def lineItems (level : Nat) : List Json → List Char
  | [] => []
  | [item] => newLine level ++ lineChars level item
  | item :: rest => newLine level ++ lineChars level item ++ ',' :: lineItems level rest

def lineFields (level : Nat) : List (String × Json) → List Char
  | [] => []
  | [(key, value)] => newLine level ++ stringChars key ++ ':' :: ' ' :: lineChars level value
  | (key, value) :: rest =>
    newLine level ++ stringChars key ++ ':' :: ' ' :: lineChars level value ++
      ',' :: lineFields level rest

end

def pretty (value : Json) : String := String.ofList (value.lineChars 0)

end RemoteHost.Json
