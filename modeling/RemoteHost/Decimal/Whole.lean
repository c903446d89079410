/-!
# Whole numbers in decimal
-/

namespace RemoteHost.Decimal

/-- A whole number with a sign where it is negative. -/
def wholeChars (n : Int) : List Char :=
  (if n < 0 then ['-'] else []) ++ Nat.toDigits 10 n.natAbs

theorem wholeChars_natCast (n : Nat) : wholeChars n = Nat.toDigits 10 n := by
  simp [wholeChars]

end RemoteHost.Decimal
