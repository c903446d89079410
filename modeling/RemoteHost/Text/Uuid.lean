import RemoteHost.Text.Hex

/-!
# UUIDs

A UUID is a number of 128 bits. It is written as five groups of hexadecimal digits with dashes
between them, and read in that form, between braces or after `urn:uuid:`, or without any dash. Small
and capital letters are the same.
-/

namespace RemoteHost.Text

structure Uuid where
  value : Nat
  deriving DecidableEq, Repr

namespace Uuid

def groupWidths : List Nat := [8, 4, 4, 4, 12]

def grouped : List Nat → List Char → List Char
  | [], _ => []
  | [width], digits => digits.take width
  | width :: widths, digits => digits.take width ++ '-' :: grouped widths (digits.drop width)

def text (u : Uuid) : String := String.ofList (grouped groupWidths (hexFixed 32 u.value))

/-- Reads groups of the given widths, and nothing after them, onto `acc`. -/
def readGroups : List Nat → Nat → List Char → Option Nat
  | [], _, _ => none
  | [width], acc, text =>
    match readHex width acc text with
    | some (value, []) => some value
    | _ => none
  | width :: widths, acc, text =>
    match readHex width acc text with
    | some (value, '-' :: rest) => readGroups widths value rest
    | _ => none

def urn : List Char := "urn:uuid:".toList

/-- The text inside braces or after the scheme of a name. -/
def unwrapped (text : List Char) : List Char :=
  match text with
  | '\x7b' :: rest => if rest.getLast? = some '\x7d' then rest.dropLast else text
  | _ => if urn.isPrefixOf (text.map Char.toLower) then text.drop urn.length else text

def ofText? (text : String) : Option Uuid :=
  ((readGroups [32] 0 text.toList).or (readGroups groupWidths 0 (unwrapped text.toList))).map
    fun value => ⟨value⟩

end Uuid

end RemoteHost.Text
