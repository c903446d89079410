import RemoteHost.Decimal.Binary64

/-!
# Shortest decimal digits

The fewest decimal digits that still round to a given binary number, and among those the nearest
to it. For each number of digits only the two neighbours of the value on the decimal grid matter,
and every comparison is made in whole numbers.
-/

namespace RemoteHost.Decimal

/-- Which way a value halfway between two shortest decimals goes. -/
inductive Tie where
  | up
  | even
  deriving DecidableEq

/-- A nonnegative decimal number, `digits * 10 ^ exponent`. -/
structure Digits where
  digits : Nat
  exponent : Int
  deriving DecidableEq, Repr

/-- The numbers that round to one binary number. They reach from `low / den` to `high / den`, ends
included exactly when `closed`, and the binary number itself is `value / den`. -/
structure RoundingInterval where
  low : Nat
  value : Nat
  high : Nat
  den : Nat
  closed : Bool

/-- The rounding interval of `mantissa * 2 ^ exponent`. Below a power of two the gap is half as
wide, except at the least normal number. -/
def roundingInterval (mantissa : Nat) (exponent : Int) : RoundingInterval :=
  let below := if mantissa = Nat.pow 2 52 ∧ -1074 < exponent then 1 else 2
  let scale := power 2 (exponent - 2)
  { low := (4 * mantissa - below) * scale
    value := 4 * mantissa * scale
    high := (4 * mantissa + 2) * scale
    den := power 2 (2 - exponent)
    closed := mantissa % 2 = 0 }

namespace RoundingInterval

def contains (r : RoundingInterval) (d : Digits) : Bool :=
  let scaled := d.digits * power 10 d.exponent * r.den
  let unit := power 10 (-d.exponent)
  if r.closed then r.low * unit ≤ scaled && scaled ≤ r.high * unit
  else r.low * unit < scaled && scaled < r.high * unit

/-- How many digits the value has before its point; zero or less when it is below one. -/
def pointPosition (r : RoundingInterval) : Int :=
  if r.den ≤ r.value then digitCount (r.value / r.den)
  else 1 - digitCount ((r.den - 1) / r.value)

/-- The multiple of `10 ^ exponent` at or just below the value, and twice what is left over,
against the size of one such step. -/
def floorOn (r : RoundingInterval) (exponent : Int) : Nat × Nat × Nat :=
  let num := r.value * power 10 (-exponent)
  let step := r.den * power 10 exponent
  (num / step, 2 * (num % step), step)

/-- The decimal of `count` digits that the interval holds, the nearer one where it holds two. -/
def onGrid (r : RoundingInterval) (tie : Tie) (count : Nat) : Option Digits :=
  let exponent := r.pointPosition - count
  let (below, twice, step) := r.floorOn exponent
  let lower : Digits := ⟨below, exponent⟩
  let upper : Digits := ⟨below + 1, exponent⟩
  match r.contains lower, r.contains upper with
  | false, false => none
  | true, false => some lower
  | false, true => some upper
  | true, true =>
    if twice < step then some lower
    else if step < twice then some upper
    else match tie with
      | .up => some upper
      | .even => some (if below % 2 = 0 then lower else upper)

end RoundingInterval

def Digits.withoutZeros (d : Digits) : Digits :=
  if h : d.digits ≠ 0 ∧ d.digits % 10 = 0 then
    withoutZeros ⟨d.digits / 10, d.exponent + 1⟩
  else d
termination_by d.digits
decreasing_by omega

/-- The shortest decimal for `mantissa * 2 ^ exponent`. Seventeen digits always suffice. -/
def shortest (tie : Tie) (mantissa : Nat) (exponent : Int) : Digits :=
  let r := roundingInterval mantissa exponent
  let found := (List.range 17).findSome? fun count => r.onGrid tie (count + 1)
  (found.getD ⟨mantissa, 0⟩).withoutZeros

end RemoteHost.Decimal
