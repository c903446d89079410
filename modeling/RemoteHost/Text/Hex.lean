/-!
# Hexadecimal digits

Numbers are written in lower case, either in a fixed number of digits or in as few as possible.
A reader takes a fixed number of digits and accepts both cases.
-/

namespace RemoteHost.Text

def hexDigit (n : Nat) : Char :=
  if n < 10 then Char.ofNat (48 + n) else Char.ofNat (87 + n)

/-- The last `width` hexadecimal digits of `n`, most significant first. -/
def hexFixed : Nat → Nat → List Char
  | 0, _ => []
  | width + 1, n => hexDigit (n / Nat.pow 16 width % 16) :: hexFixed width n

/-- All hexadecimal digits of `n`, without leading zeros. -/
def hexShort (n : Nat) : List Char :=
  hexFixed (n.log2 / 4 + 1) n

def hexValue? (c : Char) : Option Nat :=
  if '0' ≤ c ∧ c ≤ '9' then some (c.toNat - 48)
  else if 'a' ≤ c ∧ c ≤ 'f' then some (c.toNat - 87)
  else if 'A' ≤ c ∧ c ≤ 'F' then some (c.toNat - 55)
  else none

/-- Reads exactly `width` digits onto `acc` and returns the rest. -/
def readHex : Nat → Nat → List Char → Option (Nat × List Char)
  | 0, acc, rest => some (acc, rest)
  | _ + 1, _, [] => none
  | width + 1, acc, c :: rest =>
    (hexValue? c).bind fun d => readHex width (16 * acc + d) rest

@[simp] theorem length_hexFixed (width n : Nat) : (hexFixed width n).length = width := by
  induction width with
  | zero => rfl
  | succ width ih => simp [hexFixed, ih]

/-- What is true of all digits is true of what a number is written in. -/
theorem of_mem_hexFixed {P : Char → Prop} (hdigits : ∀ k : Fin 16, P (hexDigit k))
    {width n : Nat} {c : Char} (h : c ∈ hexFixed width n) : P c := by
  induction width with
  | zero => cases h
  | succ width ih =>
    rcases List.mem_cons.mp h with rfl | h
    · exact hdigits ⟨_, Nat.mod_lt _ (by decide)⟩
    · exact ih h

theorem hexValue?_hexDigit {n : Nat} (h : n < 16) : hexValue? (hexDigit n) = some n := by
  have all : ∀ k : Fin 16, hexValue? (hexDigit k) = some k.val := by decide
  exact all ⟨n, h⟩

theorem readHex_hexFixed (width n acc : Nat) (rest : List Char) :
    readHex width acc (hexFixed width n ++ rest) =
      some (Nat.pow 16 width * acc + n % Nat.pow 16 width, rest) := by
  induction width generalizing acc with
  | zero => simp [readHex, hexFixed, Nat.mod_one]
  | succ width ih =>
    have digit : n / Nat.pow 16 width % 16 < 16 := Nat.mod_lt _ (by decide)
    simp only [hexFixed, List.cons_append, readHex, hexValue?_hexDigit digit, Option.bind_some, ih]
    have power : Nat.pow 16 (width + 1) = Nat.pow 16 width * 16 := rfl
    have split : n % Nat.pow 16 (width + 1) =
        n % Nat.pow 16 width + Nat.pow 16 width * (n / Nat.pow 16 width % 16) := by
      rw [power, Nat.mod_mul]
    rw [split, Nat.mul_add, power]
    simp only [Option.some.injEq, Prod.mk.injEq, and_true]
    rw [Nat.mul_assoc]
    omega

end RemoteHost.Text
