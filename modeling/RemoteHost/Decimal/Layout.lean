import RemoteHost.Decimal.Shortest

/-!
# Writing floating-point numbers

A finite number is written by its shortest digits, either positionally, always with a point, or
with an exponent. Where the one form ends and the other begins is a matter of the `Layout`.
-/

namespace RemoteHost.Decimal

/-- The decisions of one way to write numbers. Numbers `d.ddd * 10 ^ x` are written positionally
for `least ≤ x ≤ greatest`. -/
structure Layout where
  tie : Tie
  least : Int
  greatest : Int
  plusSign : Bool
  deriving DecidableEq

def zeros (n : Nat) : List Char := List.replicate n '0'

/-- Digits with a point after the first `point` of them; zeros fill up on either side. -/
def positional (digits : List Char) (point : Int) : List Char :=
  if point ≤ 0 then '0' :: '.' :: zeros (-point).toNat ++ digits
  else if digits.length ≤ point.toNat then
    digits ++ zeros (point.toNat - digits.length) ++ ['.', '0']
  else digits.take point.toNat ++ '.' :: digits.drop point.toNat

/-- Digits with a point after the first of them and a power of ten. -/
def scientific (plusSign : Bool) (digits : List Char) (exponent : Int) : List Char :=
  let mantissa := match digits with
    | first :: second :: rest => first :: '.' :: second :: rest
    | short => short
  let sign := if exponent < 0 then ['-'] else if plusSign then ['+'] else []
  mantissa ++ 'e' :: sign ++ Nat.toDigits 10 exponent.natAbs

namespace Layout

def magnitude (layout : Layout) (mantissa : Nat) (exponent : Int) : List Char :=
  if mantissa = 0 then ['0', '.', '0'] else
  let short := shortest layout.tie mantissa exponent
  let digits := Nat.toDigits 10 short.digits
  let point := short.exponent + digits.length
  if layout.least ≤ point - 1 ∧ point - 1 ≤ layout.greatest then positional digits point
  else scientific layout.plusSign digits (point - 1)

def write (layout : Layout) (negative : Bool) (mantissa : Nat) (exponent : Int) : List Char :=
  (if negative then ['-'] else []) ++ layout.magnitude mantissa exponent

end Layout

end RemoteHost.Decimal
