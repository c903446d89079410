import RemoteHost.Json.Mismatch
import RemoteHost.Text.Glyph

/-!
# Faults of JSON text

Why a text is refused and where. A fault records the part of the text that was still unread, from
which its line and column follow.
-/

namespace RemoteHost.Json

open Text (Glyph)

inductive ReadCause where
  | endInList
  | endInObject
  | endInString
  | endInValue
  | colonExpected
  | listCommaOrEndExpected
  | objectCommaOrEndExpected
  | wordExpected
  | valueExpected
  | invalidEscape
  | invalidNumber
  | numberOutOfRange
  | invalidCodePoint
  | controlCharacter
  | keyNotString
  | loneSurrogate
  | trailingComma
  | trailingCharacters
  | unpairedSurrogate
  | tooDeep
  | mismatch (fault : Mismatch)

/-- The three sorts of faults: the text stops too early, it is not JSON, or the value it spells
does not have the expected form. -/
inductive ReadSort where
  | ended
  | syntactic
  | semantic
  deriving DecidableEq

def ReadCause.sort : ReadCause → ReadSort
  | .endInList | .endInObject | .endInString | .endInValue => .ended
  | .mismatch _ => .semantic
  | _ => .syntactic

def ReadCause.message : ReadCause → String
  | .endInList => "EOF while parsing a list"
  | .endInObject => "EOF while parsing an object"
  | .endInString => "EOF while parsing a string"
  | .endInValue => "EOF while parsing a value"
  | .colonExpected => "expected `:`"
  | .listCommaOrEndExpected => "expected `,` or `]`"
  | .objectCommaOrEndExpected => "expected `,` or `\x7d`"
  | .wordExpected => "expected ident"
  | .valueExpected => "expected value"
  | .invalidEscape => "invalid escape"
  | .invalidNumber => "invalid number"
  | .numberOutOfRange => "number out of range"
  | .invalidCodePoint => "invalid unicode code point"
  | .controlCharacter => "control character (\\u0000-\\u001F) found while parsing a string"
  | .keyNotString => "key must be a string"
  | .loneSurrogate => "lone leading surrogate in hex escape"
  | .trailingComma => "trailing comma"
  | .trailingCharacters => "trailing characters"
  | .unpairedSurrogate => "unexpected end of hex escape"
  | .tooDeep => "recursion limit exceeded"
  | .mismatch fault => fault.message

/-- A fault met when `unread` was left of the text, or `ahead` bytes further on; a negative number
of bytes leads back. -/
structure ReadFault where
  cause : ReadCause
  unread : List Glyph
  ahead : Int

namespace ReadFault

def here (cause : ReadCause) (unread : List Glyph) : ReadFault := ⟨cause, unread, 0⟩

/-- A fault of the next byte, or of the end of the text. -/
def peek (cause : ReadCause) (unread : List Glyph) : ReadFault :=
  ⟨cause, unread, if unread.isEmpty then 0 else 1⟩

/-- Line and column after a number of bytes, counting both on from `line` and `column`. -/
def walk (line column : Nat) : Nat → List Glyph → Nat × Nat
  | _, [] => (line, column)
  | bytes, g :: rest =>
    if bytes = 0 then (line, column)
    else if g.isLineBreak then walk (line + 1) 0 (bytes - 1) rest
    else walk line (column + min g.width bytes) (bytes - g.width) rest

/-- Line (from one) and column (in bytes) of a fault in the whole text it was met in. -/
def position (fault : ReadFault) (whole : List Glyph) : Nat × Nat :=
  let read : Int := (Text.byteCount whole : Int) - Text.byteCount fault.unread
  walk 1 0 (read + fault.ahead).toNat whole

def message (fault : ReadFault) (whole : List Glyph) : String :=
  let (line, column) := fault.position whole
  fault.cause.message ++ " at line " ++ toString line ++ " column " ++ toString column

end ReadFault

end RemoteHost.Json
