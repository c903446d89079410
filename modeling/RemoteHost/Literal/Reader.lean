import RemoteHost.Literal.Value
import RemoteHost.Settings

/-!
# Reading literals of the host language

The host's way of reading the literals that values are spelled as: its names for nothing and for the
truth values, whole numbers, floats, strings, lists, and mappings whose keys are strings. A number
with a point or an exponent is a float, rounded to the nearest one.
-/

namespace RemoteHost.Literal

/-! ## Numbers -/

/-- A number as it is written, apart from its sign. -/
structure Numeral where
  whole : List Char
  fraction : Option (List Char) := none
  exponent : Option Int := none
  deriving DecidableEq, Repr

namespace Numeral

def isFloat (n : Numeral) : Bool := n.fraction.isSome || n.exponent.isSome

/-- All digits in a row. -/
def digits (n : Numeral) : Nat := Nat.ofDigitChars 10 (n.whole ++ n.fraction.getD []) 0

/-- The power of ten that the digits are multiplied with. -/
def scale (n : Numeral) : Int := n.exponent.getD 0 - (n.fraction.getD []).length

/-- The number that is written, with its sign; none where no float is near. -/
def number? (n : Numeral) (negative : Bool) : Option JsonNumber :=
  if n.isFloat then
    (Decimal.roundRatio (n.digits * Decimal.power 10 n.scale) (Decimal.power 10 (-n.scale))).map
      fun bits => .float (UInt64.ofNat (if negative then Nat.pow 2 63 + bits else bits))
  else some (.integer (if negative then -n.digits else n.digits))

end Numeral

def readFraction : List Char → Option (List Char) × List Char
  | '.' :: rest => (some (rest.takeWhile Char.isDigit), rest.dropWhile Char.isDigit)
  | text => (none, text)

def readWhole (text : List Char) : Option (List Char × List Char) :=
  let digits := text.takeWhile Char.isDigit
  if digits.isEmpty then none else some (digits, text.dropWhile Char.isDigit)

def readInteger (text : List Char) : Option (Int × List Char) :=
  match text with
  | '-' :: rest => (readWhole rest).map fun (ds, rest) => (-(Nat.ofDigitChars 10 ds 0), rest)
  | '+' :: rest => (readWhole rest).map fun (ds, rest) => (Nat.ofDigitChars 10 ds 0, rest)
  | _ => (readWhole text).map fun (ds, rest) => (Nat.ofDigitChars 10 ds 0, rest)

def readExponent (text : List Char) : Option (Option Int × List Char) :=
  match text with
  | 'e' :: rest | 'E' :: rest => (readInteger rest).map fun (x, rest) => (some x, rest)
  | _ => some (none, text)

def readNumeral (text : List Char) : Option (Numeral × List Char) := do
  let (whole, rest) ← readWhole text
  let (fraction, rest) := readFraction rest
  let (exponent, rest) ← readExponent rest
  some (⟨whole, fraction, exponent⟩, rest)

def readNumber (text : List Char) : Option (JsonNumber × List Char) := do
  let (negative, text) := match text with
    | '-' :: rest => (true, rest)
    | _ => (false, text)
  let (numeral, rest) ← readNumeral text
  let number ← numeral.number? negative
  some (number, rest)

/-! ## Values -/

/-- Reads a name, as far as it goes. -/
def readName (text : List Char) : Option (Json × List Char) :=
  let name := text.takeWhile isNameChar
  let rest := text.dropWhile isNameChar
  if name = noneChars then some (.null, rest)
  else if name = booleanChars true then some (.bool true, rest)
  else if name = booleanChars false then some (.bool false, rest)
  else none

def skipSpaces (text : List Char) : List Char := text.dropWhile (· = ' ')

theorem length_skipSpaces (text : List Char) : (skipSpaces text).length ≤ text.length :=
  (List.dropWhile_sublist _).length_le

mutual

/-- Reads a value and returns it with the text after it. -/
def readValue (text : List Char) : Option (Json × List Char) :=
  match text with
  | [] => none
  | '\'' :: _ => (readQuoted text).map fun (t, rest) => (.string (String.ofList t), rest)
  | '[' :: rest => (readItems ']' rest).map fun (items, rest) => (.array items, rest)
  | '\x7b' :: rest => (readFields rest).map fun (fields, rest) => (.object fields, rest)
  | c :: _ =>
    if c = '-' ∨ c.isDigit then (readNumber text).map fun (n, rest) => (.number n, rest)
    else readName text
termination_by (text.length, 0)

/-- Reads items up to the closing character. Every item but the last is followed by a comma. -/
def readItems (close : Char) (text : List Char) : Option (List Json × List Char) :=
  match text with
  | [] => none
  | c :: rest =>
    if c = close then some ([], rest) else
    match readValue (c :: rest) with
    | some (item, ',' :: more) =>
      if more.length < (c :: rest).length then
        (readItems close (skipSpaces more)).map fun (items, rest) => (item :: items, rest)
      else none
    | some (item, d :: rest) => if d = close then some ([item], rest) else none
    | _ => none
termination_by (text.length, 1)
decreasing_by
  · exact Prod.Lex.right _ (by decide)
  · exact Prod.Lex.left _ _ (Nat.lt_of_le_of_lt (length_skipSpaces more) ‹_›)

/-- Reads the fields of a mapping up to its closing brace. -/
def readFields (text : List Char) : Option (List (String × Json) × List Char) :=
  match text with
  | [] => none
  | c :: rest =>
    if c = '\x7d' then some ([], rest) else
    match readQuoted (c :: rest) with
    | some (key, ':' :: value) =>
      if value.length < (c :: rest).length then
        match readValue (skipSpaces value) with
        | some (item, ',' :: more) =>
          if more.length < (c :: rest).length then
            (readFields (skipSpaces more)).map fun (fields, rest) =>
              ((String.ofList key, item) :: fields, rest)
          else none
        | some (item, '\x7d' :: rest) => some ([(String.ofList key, item)], rest)
        | _ => none
      else none
    | _ => none
termination_by (text.length, 1)
decreasing_by
  · exact Prod.Lex.left _ _ (Nat.lt_of_le_of_lt (length_skipSpaces value) ‹_›)
  · exact Prod.Lex.left _ _ (Nat.lt_of_le_of_lt (length_skipSpaces more) ‹_›)

end

/-- Reads the call of a method and returns its arguments. -/
def readCall (name : String) (text : List Char) : Option (List Json × List Char) :=
  let opening := ("." ++ name ++ "(").toList
  if opening.isPrefixOf text then readItems ')' (text.drop opening.length) else none

end RemoteHost.Literal
