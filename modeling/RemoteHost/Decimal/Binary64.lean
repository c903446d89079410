/-!
# Binary floating-point numbers

A number of the 64-bit format is handled as its bit pattern. `unpack` gives the value that the
pattern stands for, `roundRatio` the pattern nearest to a ratio of natural numbers. A decimal number
is read in steps that round each, so that the pattern read may lie beside the nearest one.
-/

namespace RemoteHost.Decimal

/-- What a bit pattern of the 64-bit format stands for. A finite number is
`mantissa * 2 ^ exponent` with a sign. -/
inductive Unpacked where
  | nan
  | infinite (negative : Bool)
  | finite (negative : Bool) (mantissa : Nat) (exponent : Int)
  deriving DecidableEq, Repr

def signBit (bits : UInt64) : Bool := bits.toNat / Nat.pow 2 63 == 1

def exponentField (bits : UInt64) : Nat := bits.toNat / Nat.pow 2 52 % Nat.pow 2 11

def fractionField (bits : UInt64) : Nat := bits.toNat % Nat.pow 2 52

def unpack (bits : UInt64) : Unpacked :=
  let field := exponentField bits
  let fraction := fractionField bits
  if field = 2047 then
    if fraction = 0 then .infinite (signBit bits) else .nan
  else if field = 0 then .finite (signBit bits) fraction (-1074)
  else .finite (signBit bits) (Nat.pow 2 52 + fraction) (field - 1075)

/-- A base to a whole power; one for negative exponents. -/
def power (base : Nat) (exponent : Int) : Nat := Nat.pow base exponent.toNat

/-- Divides and rounds to the nearest whole number, halves to the even one. -/
def divideNearest (num den : Nat) : Nat :=
  let quotient := num / den
  let double := 2 * (num % den)
  if double < den then quotient
  else if den < double then quotient + 1
  else if quotient % 2 = 0 then quotient else quotient + 1

/-- The power of two that `num / den` lies at or above, for positive arguments. -/
def floorLog2 (num den : Nat) : Int :=
  let guess : Int := (num.log2 : Int) - den.log2
  let reached := den * power 2 guess ≤ num * power 2 (-guess)
  if reached then guess else guess - 1

/-- The bits of the nonnegative number nearest to `num / den`, ties to the even mantissa;
`none` when it exceeds every finite number. -/
def roundRatio (num den : Nat) : Option Nat :=
  if num = 0 then some 0 else
  let exponent := max (floorLog2 num den - 52) (-1074)
  let mantissa := divideNearest (num * power 2 (-exponent)) (den * power 2 exponent)
  if Nat.pow 2 53 ≤ mantissa then
    if 971 ≤ exponent then none else some ((exponent + 1076).toNat * Nat.pow 2 52)
  else if 971 < exponent then none
  else if mantissa < Nat.pow 2 52 then some mantissa
  else some ((exponent + 1075).toNat * Nat.pow 2 52 + (mantissa - Nat.pow 2 52))

def digitCount (n : Nat) : Nat :=
  if n < 10 then 1 else digitCount (n / 10) + 1

/-- What the bits of a finite nonnegative number stand for, `mantissa * 2 ^ exponent`. -/
def magnitude (bits : Nat) : Nat × Int :=
  if bits < Nat.pow 2 52 then (bits, -1074)
  else (Nat.pow 2 52 + bits % Nat.pow 2 52, bits / Nat.pow 2 52 - 1075)

def product (a b : Nat) : Option Nat :=
  let (m, e) := magnitude a
  let (n, f) := magnitude b
  roundRatio (m * n * power 2 (e + f)) (power 2 (-(e + f)))

/-- The bits of the number nearest to a quotient; the divisor is not zero. -/
def quotient (a b : Nat) : Option Nat :=
  let (m, e) := magnitude a
  let (n, f) := magnitude b
  roundRatio (m * power 2 (e - f)) (n * power 2 (f - e))

/-- The greatest power of ten that the format has a number near. -/
def greatestPower : Nat := 308

def tenTo (n : Nat) : Option Nat := roundRatio (Nat.pow 10 n) 1

/-- The bits that stand for `digits * 10 ^ exponent`, found in at most three steps that round each:
the digits become a number, which is then multiplied or divided by a power of ten, or divided twice
where one power does not reach. `none` when a step leads out of range. -/
def scaleByTen (digits : Nat) (exponent : Int) : Option Nat := do
  let whole ← roundRatio digits 1
  if whole = 0 then some 0
  else if (greatestPower : Int) < exponent then none
  else if 0 ≤ exponent then product whole (← tenTo exponent.toNat)
  else if -(greatestPower : Int) ≤ exponent then quotient whole (← tenTo (-exponent).toNat)
  else
    let rest := exponent + greatestPower
    if rest < -(greatestPower : Int) then some 0
    else quotient (← quotient whole (← tenTo greatestPower)) (← tenTo (-rest).toNat)

/-- The bits that a decimal number with a sign is read as; `none` when it is out of range. -/
def ofDecimal (negative : Bool) (digits : Nat) (exponent : Int) : Option UInt64 :=
  (scaleByTen digits exponent).map fun bits =>
    UInt64.ofNat (if negative then Nat.pow 2 63 + bits else bits)

end RemoteHost.Decimal
