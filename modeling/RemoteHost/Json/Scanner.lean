import RemoteHost.Json.Fault

/-!
# Lexemes of JSON text

Readers for blanks, words, numbers and strings. Each takes the unread text and returns what it read
with the text that follows.
-/

namespace RemoteHost.Json

open Text (Glyph)

/-- What was read, with the text that follows it. -/
abbrev Found (α : Type) := α × List Glyph

def isBlankGlyph (g : Glyph) : Bool :=
  g == .char ' ' || g == .char '\n' || g == .char '\t' || g == .char '\r'

def skipBlanks (text : List Glyph) : List Glyph := text.dropWhile isBlankGlyph

/-- Reads the given characters, then returns `value`. -/
def readWord {α : Type} (value : α) : List Char → List Glyph → Except ReadFault (Found α)
  | [], text => .ok (value, text)
  | _ :: _, [] => .error (.here .endInValue [])
  | c :: word, g :: rest =>
    if g = .char c then readWord value word rest
    else .error ⟨.wordExpected, g :: rest, 1⟩

def digitValue? : Glyph → Option Nat
  | .char c => if c.isDigit then some (c.toNat - 48) else none
  | .stray _ => none

structure Digits where
  /-- The digits before, with those taken from the text appended. -/
  value : Nat
  taken : Nat := 0
  dropped : Nat := 0

/-- Takes one more digit, unless the number would need more than 64 bits or a digit was dropped
before. -/
def Digits.add (digits : Digits) (d : Nat) : Digits :=
  let value := 10 * digits.value + d
  if digits.dropped = 0 ∧ value < Nat.pow 2 64 then
    { digits with value, taken := digits.taken + 1 }
  else { digits with dropped := digits.dropped + 1 }

def spanDigits (digits : Digits) : List Glyph → Found Digits
  | [] => (digits, [])
  | g :: rest =>
    match digitValue? g with
    | some d => spanDigits (digits.add d) rest
    | none => (digits, g :: rest)

/-- A number as written: `digits * 10 ^ exponent` up to sign, once digits beyond 64 bits are
dropped. -/
structure Numeral where
  digits : Nat
  exponent : Int := 0
  /-- Whether the number is written as an integer of at most 64 bits. -/
  integral : Bool
  /-- Where an exponent has more than 31 bits, the text after the digit that was one too many. -/
  overlong : Option (List Glyph) := none

/-- An exponent as written, up to sign, and the text after its first digit that takes it to more
than 31 bits. -/
def spanExponent (value : Nat) (overlong : Option (List Glyph)) :
    List Glyph → Nat × Option (List Glyph) × List Glyph
  | [] => (value, overlong, [])
  | g :: rest =>
    match digitValue? g with
    | some d =>
      let value := 10 * value + d
      spanExponent value (overlong <|> if Nat.pow 2 31 ≤ value then some rest else none) rest
    | none => (value, overlong, g :: rest)

/-- Reads the exponent of a number after its letter. `atEnd` is the fault of a text that stops
there. -/
def readExponent (atEnd : ReadCause) (numeral : Numeral) (text : List Glyph) :
    Except ReadFault (Found Numeral) :=
  let (negative, rest) : Bool × List Glyph := match text with
    | .char '+' :: rest => (false, rest)
    | .char '-' :: rest => (true, rest)
    | _ => (false, text)
  match rest with
  | [] => .error (.here atEnd [])
  | g :: _ =>
    match digitValue? g with
    | none => .error ⟨.invalidNumber, rest, 1⟩
    | some _ =>
      let (value, overlong, rest) := spanExponent 0 none rest
      let exponent := numeral.exponent + if negative then -(value : Int) else value
      .ok (⟨numeral.digits, exponent, false, overlong⟩, rest)

def readScale (atEnd : ReadCause) (numeral : Numeral) (text : List Glyph) :
    Except ReadFault (Found Numeral) :=
  match text with
  | .char 'e' :: rest | .char 'E' :: rest => readExponent atEnd numeral rest
  | _ => .ok (numeral, text)

def readFraction (atEnd : ReadCause) (whole : Digits) (text : List Glyph) :
    Except ReadFault (Found Numeral) :=
  match text with
  | .char '.' :: rest =>
    let (digits, rest) := spanDigits ⟨whole.value, 0, 0⟩ rest
    if digits.taken = 0 ∧ digits.dropped = 0 then
      .error (.peek (if rest.isEmpty then atEnd else .invalidNumber) rest)
    else
      let exponent := (whole.dropped : Int) - digits.taken
      readScale atEnd { digits := digits.value, exponent, integral := false } rest
  | _ =>
    let numeral : Numeral :=
      { digits := whole.value, exponent := whole.dropped, integral := whole.dropped == 0 }
    readScale atEnd numeral text

def readNumeral (atEnd : ReadCause) (text : List Glyph) : Except ReadFault (Found Numeral) :=
  match text with
  | [] => .error (.here atEnd [])
  | .char '0' :: rest =>
    if (rest.head?.bind digitValue?).isSome then .error (.peek .invalidNumber rest)
    else readFraction atEnd ⟨0, 1, 0⟩ rest
  | g :: _ =>
    match digitValue? g with
    | none => .error ⟨.invalidNumber, text, 1⟩
    | some _ =>
      let (digits, rest) := spanDigits ⟨0, 0, 0⟩ text
      readFraction atEnd digits rest

/-- The number a numeral stands for: an integer where it is written as one and fits 64 bits,
otherwise a float. Negative zero is a float. -/
def Numeral.value? (negative : Bool) (numeral : Numeral) : Option JsonNumber :=
  if numeral.integral ∧ !negative then some (.integer numeral.digits)
  else if numeral.integral ∧ negative ∧ 0 < numeral.digits ∧ numeral.digits ≤ Nat.pow 2 63 then
    some (.integer (-numeral.digits))
  else (Decimal.ofDecimal negative numeral.digits numeral.exponent).map .float

/-- Reads a number after its sign. One that is out of range for its exponent alone is given up
within the exponent. -/
def readNumber (negative : Bool) (text : List Glyph) : Except ReadFault (Found JsonNumber) := do
  let (numeral, rest) ← readNumeral .endInValue text
  match numeral.value? negative with
  | some n => .ok (n, rest)
  | none => .error (.here .numberOutOfRange (numeral.overlong.getD rest))

/-- The value of the next four hexadecimal digits. -/
def hexUnit (text : List Glyph) : Except ReadFault Nat :=
  if Text.byteCount (text.take 4) < 4 then .error (.here .endInString [])
  else
    match ((text.take 4).mapM Glyph.char?).bind (Text.readHex 4 0) with
    | some (n, _) => .ok n
    | none => .error ⟨.invalidEscape, text, 4⟩

/-- Whether the text goes on with the given character, which the second half of a surrogate pair
needs twice. -/
def expectPair (c : Char) (text : List Glyph) : Except ReadFault Unit :=
  match text with
  | [] => .error (.here .endInString [])
  | g :: _ => if g = .char c then .ok () else .error ⟨.unpairedSurrogate, text, 1⟩

/-- The character of an escape with hexadecimal digits, and how many glyphs spell it. -/
def unicodeEscape (text : List Glyph) : Except ReadFault (Char × Nat) := do
  let first ← hexUnit text
  let rest := text.drop 4
  if 0xDC00 ≤ first ∧ first ≤ 0xDFFF then .error (.here .loneSurrogate rest)
  else if first < 0xD800 ∨ 0xDBFF < first then .ok (Char.ofNat first, 4)
  else
    expectPair '\\' rest
    expectPair 'u' (rest.drop 1)
    let second ← hexUnit (rest.drop 2)
    if second < 0xDC00 ∨ 0xDFFF < second then .error (.here .loneSurrogate (rest.drop 6))
    else .ok (Char.ofNat (0x10000 + (first - 0xD800) * 0x400 + (second - 0xDC00)), 10)

/-- The character of an escape after its backslash, and how many glyphs spell it. -/
def escapeAt (text : List Glyph) : Except ReadFault (Char × Nat) :=
  match text with
  | [] => .error (.here .endInString [])
  | .char '"' :: _ => .ok ('"', 1)
  | .char '\\' :: _ => .ok ('\\', 1)
  | .char '/' :: _ => .ok ('/', 1)
  | .char 'b' :: _ => .ok ('\x08', 1)
  | .char 'f' :: _ => .ok ('\x0c', 1)
  | .char 'n' :: _ => .ok ('\n', 1)
  | .char 'r' :: _ => .ok ('\r', 1)
  | .char 't' :: _ => .ok ('\t', 1)
  | .char 'u' :: rest => (unicodeEscape rest).map fun (c, n) => (c, n + 1)
  | _ => .error ⟨.invalidEscape, text, 1⟩

/-- Reads a string after its opening quote, onto characters read before in reverse, skipping what
belongs to an escape already read. Stray bytes are noticed at the closing quote. The fault lies as
many bytes before the end as the string has from its first stray byte on, which are counted in
`doubtful`. -/
def readStringFrom (done : List Char) (doubtful : Option Nat) : Nat → List Glyph →
    Except ReadFault (Found String)
  | _, [] => .error (.here .endInString [])
  | skip + 1, _ :: rest => readStringFrom done doubtful skip rest
  | 0, .stray _ :: rest => readStringFrom done (some (doubtful.getD 0 + 1)) 0 rest
  | 0, .char c :: rest =>
    if c = '"' then
      match doubtful with
      | none => .ok (String.ofList done.reverse, rest)
      | some bytes => .error ⟨.invalidCodePoint, rest, -bytes⟩
    else if c = '\\' then
      match escapeAt rest with
      | .error fault => .error fault
      | .ok (escaped, used) =>
        readStringFrom (escaped :: done) (doubtful.map (· + escaped.utf8Size)) used rest
    else if c.toNat < 0x20 then .error (.here .controlCharacter rest)
    else readStringFrom (c :: done) (doubtful.map (· + c.utf8Size)) 0 rest

def readString (text : List Glyph) : Except ReadFault (Found String) :=
  readStringFrom [] none 0 text

/-- How many glyphs an escape takes after its backslash, whatever its digits stand for. -/
def escapeLength (text : List Glyph) : Except ReadFault Nat :=
  match text with
  | .char 'u' :: rest => (hexUnit rest).map fun _ => 5
  | _ => (escapeAt text).map fun (_, n) => n

/-- Passes over a string after its opening quote without looking at the characters it spells. -/
def skipStringFrom : Nat → List Glyph → Except ReadFault (List Glyph)
  | _, [] => .error (.here .endInString [])
  | skip + 1, _ :: rest => skipStringFrom skip rest
  | 0, .stray _ :: rest => skipStringFrom 0 rest
  | 0, .char c :: rest =>
    if c = '"' then .ok rest
    else if c = '\\' then
      match escapeLength rest with
      | .error fault => .error fault
      | .ok used => skipStringFrom used rest
    else if c.toNat < 0x20 then .error (.here .controlCharacter (.char c :: rest))
    else skipStringFrom 0 rest

end RemoteHost.Json
