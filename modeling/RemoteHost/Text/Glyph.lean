/-!
# Text read from bytes

Bytes are read as UTF-8. A byte that belongs to no well-formed sequence stays in the text as a
stray, so that a reader can still say where the text stops making sense.
-/

namespace RemoteHost.Text

/-- A character of a text read from bytes, or a byte that belongs to no character. -/
inductive Glyph where
  | char (c : Char)
  | stray (byte : UInt8)
  deriving DecidableEq

namespace Glyph

def width : Glyph → Nat
  | .char c => c.utf8Size
  | .stray _ => 1

def char? : Glyph → Option Char
  | .char c => some c
  | .stray _ => none

def isLineBreak (g : Glyph) : Bool := g == .char '\n'

end Glyph

def byteCount (text : List Glyph) : Nat :=
  text.foldl (fun n g => n + g.width) 0

def glyphs (text : String) : List Glyph :=
  text.toList.map .char

/-- The characters of a text, if it holds no stray byte. -/
def characters? (text : List Glyph) : Option (List Char) :=
  text.mapM Glyph.char?

/-- How many continuation bytes follow a leading byte, with the bounds of the first of them. -/
def sequenceShape (lead : Nat) : Option (Nat × Nat × Nat) :=
  if 0xC2 ≤ lead ∧ lead ≤ 0xDF then some (1, 0x80, 0xBF)
  else if lead = 0xE0 then some (2, 0xA0, 0xBF)
  else if lead = 0xED then some (2, 0x80, 0x9F)
  else if 0xE1 ≤ lead ∧ lead ≤ 0xEF then some (2, 0x80, 0xBF)
  else if lead = 0xF0 then some (3, 0x90, 0xBF)
  else if 0xF1 ≤ lead ∧ lead ≤ 0xF3 then some (3, 0x80, 0xBF)
  else if lead = 0xF4 then some (3, 0x80, 0x8F)
  else none

/-- The payload bits of a leading byte with the given number of continuation bytes. -/
def leadBits (count lead : Nat) : Nat := lead % Nat.pow 2 (6 - count)

/-- Reads `count` continuation bytes onto `acc`; the first lies between the given bounds. -/
def continuation? : Nat → Nat → Nat → Nat → List UInt8 → Option Nat
  | 0, acc, _, _, _ => some acc
  | _ + 1, _, _, _, [] => none
  | count + 1, acc, low, high, b :: rest =>
    if low ≤ b.toNat ∧ b.toNat ≤ high then
      continuation? count (64 * acc + b.toNat % 64) 0x80 0xBF rest
    else none

/-- The text of the bytes that follow `skip` bytes already read as part of a character. -/
def decodeAfter : Nat → List UInt8 → List Glyph
  | _, [] => []
  | skip + 1, _ :: rest => decodeAfter skip rest
  | 0, b :: rest =>
    if b < 0x80 then .char (Char.ofNat b.toNat) :: decodeAfter 0 rest
    else
      match sequenceShape b.toNat with
      | none => .stray b :: decodeAfter 0 rest
      | some (count, low, high) =>
        match continuation? count (leadBits count b.toNat) low high rest with
        | some n => .char (Char.ofNat n) :: decodeAfter count rest
        | none => .stray b :: decodeAfter 0 rest

def decode (bytes : List UInt8) : List Glyph := decodeAfter 0 bytes

/-- The characters of a byte sequence, if it is well-formed UTF-8. -/
def decode? (bytes : List UInt8) : Option String :=
  (characters? (decode bytes)).map String.ofList

theorem characters?_map_char (cs : List Char) : characters? (cs.map .char) = some cs := by
  induction cs with
  | nil => rfl
  | cons c cs ih => simp_all [characters?, List.mapM_cons, Glyph.char?]

end RemoteHost.Text
