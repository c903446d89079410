import RemoteHost.Literal.Reader
import RemoteHost.Proofs.ShortestDigits

/-!
# Numbers are read back

A number is spelled by a run of digits, perhaps with a point among them and a power of ten after
them. Only a float has a point or a power, and its digits are the shortest ones, which are rounded
to the float again.
-/

namespace RemoteHost

/-- Not a float that is infinite or no number. -/
def JsonNumber.isFinite : JsonNumber → Bool
  | .integer _ => true
  | .float bits =>
    match Decimal.unpack bits with
    | .finite _ _ _ => true
    | _ => false

namespace Literal

open Decimal (Digits IsCanonical IsUnpacked pack roundingInterval shortest wholeChars zeros)

/-! ## Where a value ends -/

def closers : List Char := [',', ')', ']', '\x7d', ':']

/-- A text that may follow a value. -/
def EndsValue (rest : List Char) : Prop := ∀ c ∈ rest.head?, c ∈ closers

/-- A text that does not go on with characters of a kind. -/
def Stops (p : Char → Bool) (rest : List Char) : Prop := ∀ c ∈ rest.head?, p c = false

section Runs

variable {p : Char → Bool} {run rest : List Char}

theorem EndsValue.stops (h : EndsValue rest) (hp : closers.any p = false) : Stops p rest :=
  fun c hc => Bool.eq_false_of_not_eq_true (List.any_eq_false.mp hp c (h c hc))

theorem takeWhile_run (hrun : ∀ c ∈ run, p c = true) (hrest : Stops p rest) :
    (run ++ rest).takeWhile p = run := by
  rw [List.takeWhile_append_of_pos hrun]
  cases rest with
  | nil => simp
  | cons c rest => simp [hrest c rfl]

theorem dropWhile_run (hrun : ∀ c ∈ run, p c = true) (hrest : Stops p rest) :
    (run ++ rest).dropWhile p = rest := by
  rw [List.dropWhile_append_of_pos hrun]
  cases rest with
  | nil => rfl
  | cons c rest => simp [hrest c rfl]

end Runs

/-! ## Reading the parts of a number -/

def fractionChars : Option (List Char) → List Char
  | none => []
  | some digits => '.' :: digits

def exponentChars : Option Int → List Char
  | none => []
  | some x => 'e' :: wholeChars x

variable {digits rest : List Char}

theorem isDigit_toDigits (n : Nat) : ∀ c ∈ Nat.toDigits 10 n, c.isDigit = true :=
  fun _ hc => Nat.isDigit_of_mem_toDigits (by decide) (by decide) hc

theorem readWhole_run (hne : digits ≠ []) (hdigits : ∀ c ∈ digits, c.isDigit = true)
    (hrest : Stops Char.isDigit rest) : readWhole (digits ++ rest) = some (digits, rest) := by
  rw [readWhole, takeWhile_run hdigits hrest, dropWhile_run hdigits hrest]
  simp [hne]

theorem readWhole_toDigits (n : Nat) (hrest : Stops Char.isDigit rest) :
    readWhole (Nat.toDigits 10 n ++ rest) = some (Nat.toDigits 10 n, rest) :=
  readWhole_run Nat.toDigits_ne_nil (isDigit_toDigits n) hrest

theorem ne_of_isDigit {c d : Char} (hc : c.isDigit = true) (hd : d.isDigit = false) : c ≠ d := by
  rintro rfl
  rw [hc] at hd
  cases hd

theorem readInteger_digit {c : Char} (hc : c.isDigit = true) (text : List Char) :
    readInteger (c :: text) =
      (readWhole (c :: text)).map fun (ds, rest) => ((Nat.ofDigitChars 10 ds 0 : Int), rest) := by
  unfold readInteger
  split
  · exact absurd (List.cons.inj ‹_›).1 (ne_of_isDigit hc rfl)
  · exact absurd (List.cons.inj ‹_›).1 (ne_of_isDigit hc rfl)
  · rfl

theorem readInteger_wholeChars (x : Int) (hrest : Stops Char.isDigit rest) :
    readInteger (wholeChars x ++ rest) = some (x, rest) := by
  have hread := readWhole_toDigits x.natAbs hrest
  unfold wholeChars
  split_ifs with hx
  · simp only [List.cons_append, List.nil_append, readInteger, hread, Option.map_some,
      Nat.ofDigitChars_ten_toDigits]
    congr 2
    omega
  · obtain ⟨c, ds, hds⟩ := List.exists_cons_of_ne_nil (@Nat.toDigits_ne_nil x.natAbs 10)
    have hc : c.isDigit = true := isDigit_toDigits x.natAbs c (by simp [hds])
    have hdigit := readInteger_digit hc (ds ++ rest)
    rw [← List.cons_append, ← hds, hread] at hdigit
    rw [List.nil_append, hdigit]
    simp only [Option.map_some, Nat.ofDigitChars_ten_toDigits]
    congr 2
    omega

theorem readFraction_fractionChars {fraction : Option (List Char)}
    (hdigits : ∀ c ∈ fraction.getD [], c.isDigit = true) (hrest : Stops Char.isDigit rest)
    (hpoint : Stops (· == '.') rest) :
    readFraction (fractionChars fraction ++ rest) = (fraction, rest) := by
  cases fraction with
  | none =>
    unfold fractionChars readFraction
    split
    · rename_i heq
      rw [List.nil_append] at heq
      exact absurd (hpoint '.' (by simp [heq])) (by decide)
    · rfl
  | some ds =>
    rw [Option.getD_some] at hdigits
    simp only [fractionChars, List.cons_append, readFraction]
    rw [takeWhile_run hdigits hrest, dropWhile_run hdigits hrest]

theorem readExponent_exponentChars (exponent : Option Int) (hrest : Stops Char.isDigit rest)
    (hletter : Stops (fun c => c == 'e' || c == 'E') rest) :
    readExponent (exponentChars exponent ++ rest) = some (exponent, rest) := by
  cases exponent with
  | none =>
    unfold exponentChars readExponent
    split
    · rename_i heq
      rw [List.nil_append] at heq
      exact absurd (hletter 'e' (by simp [heq])) (by decide)
    · rename_i heq
      rw [List.nil_append] at heq
      exact absurd (hletter 'E' (by simp [heq])) (by decide)
    · rfl
  | some x =>
    simp only [exponentChars, List.cons_append, readExponent]
    rw [readInteger_wholeChars x hrest]
    rfl

/-! ## Numerals -/

namespace Numeral

def chars (n : Numeral) : List Char :=
  n.whole ++ (fractionChars n.fraction ++ exponentChars n.exponent)

structure IsSound (n : Numeral) : Prop where
  whole_ne_nil : n.whole ≠ []
  isDigit_whole : ∀ c ∈ n.whole, c.isDigit = true
  isDigit_fraction : ∀ c ∈ n.fraction.getD [], c.isDigit = true

end Numeral

theorem stops_exponentChars {p : Char → Bool} (exponent : Option Int) (hrest : Stops p rest)
    (hp : p 'e' = false) : Stops p (exponentChars exponent ++ rest) := by
  cases exponent with
  | none => exact hrest
  | some x => simpa [Stops, exponentChars] using hp

theorem stops_fractionChars {p : Char → Bool} (fraction : Option (List Char)) (hrest : Stops p rest)
    (hp : p '.' = false) : Stops p (fractionChars fraction ++ rest) := by
  cases fraction with
  | none => exact hrest
  | some x => simpa [Stops, fractionChars] using hp

theorem readNumeral_chars {n : Numeral} (hn : n.IsSound) (hrest : EndsValue rest) :
    readNumeral (n.chars ++ rest) = some (n, rest) := by
  have hdigit : Stops Char.isDigit rest := hrest.stops (by decide)
  have htail : Stops Char.isDigit (exponentChars n.exponent ++ rest) :=
    stops_exponentChars _ hdigit (by decide)
  have hpoint : Stops (· == '.') (exponentChars n.exponent ++ rest) :=
    stops_exponentChars _ (hrest.stops (by decide)) (by decide)
  rw [Numeral.chars, List.append_assoc, List.append_assoc, readNumeral,
    readWhole_run hn.whole_ne_nil hn.isDigit_whole (stops_fractionChars _ htail (by decide))]
  simp only [Option.bind_eq_bind, Option.bind_some]
  rw [readFraction_fractionChars hn.isDigit_fraction htail hpoint,
    readExponent_exponentChars _ hdigit (hrest.stops (by decide)), Option.bind_some]

def signChars (negative : Bool) : List Char := if negative then ['-'] else []

theorem readNumber_digit {c : Char} (hc : c.isDigit = true) (text : List Char) :
    readNumber (c :: text) = (readNumeral (c :: text)).bind fun (numeral, rest) =>
      (numeral.number? false).map fun number => (number, rest) := by
  unfold readNumber
  split
  rename_i negative text heq
  split at heq
  · exact absurd (List.cons.inj ‹_›).1 (ne_of_isDigit hc rfl)
  · obtain ⟨rfl, rfl⟩ := Prod.mk.inj heq
    cases readNumeral (c :: _) with
    | none => rfl
    | some read => cases h : read.1.number? false <;> simp [h]

theorem readNumber_chars {n : Numeral} (hn : n.IsSound) (hrest : EndsValue rest) {negative : Bool}
    {number : JsonNumber} (h : n.number? negative = some number) :
    readNumber (signChars negative ++ n.chars ++ rest) = some (number, rest) := by
  have hread := readNumeral_chars hn hrest
  cases negative with
  | true =>
    simp only [signChars, if_true, List.cons_append, List.nil_append, readNumber]
    rw [hread]
    simp [h]
  | false =>
    obtain ⟨c, ds, hds⟩ := List.exists_cons_of_ne_nil hn.whole_ne_nil
    have hc : c.isDigit = true := hn.isDigit_whole c (by simp [hds])
    have hdigit := readNumber_digit hc
      (ds ++ (fractionChars n.fraction ++ exponentChars n.exponent) ++ rest)
    rw [← List.cons_append, ← List.cons_append, ← hds] at hdigit
    change readNumber (n.chars ++ rest) = (readNumeral (n.chars ++ rest)).bind _ at hdigit
    rw [signChars, if_neg (by decide), List.nil_append, hdigit, hread]
    simp [h]

/-! ## Whole numbers -/

theorem wholeChars_eq (x : Int) : wholeChars x =
    signChars (decide (x < 0)) ++ (⟨Nat.toDigits 10 x.natAbs, none, none⟩ : Numeral).chars := by
  simp [wholeChars, signChars, Numeral.chars, fractionChars, exponentChars]

theorem number?_toDigits (x : Int) :
    (⟨Nat.toDigits 10 x.natAbs, none, none⟩ : Numeral).number? (decide (x < 0)) =
      some (.integer x) := by
  simp only [Numeral.number?, Numeral.isFloat, Numeral.digits, Option.isSome_none, Bool.or_self,
    Bool.false_eq_true, if_false, Option.getD_none, List.append_nil, Nat.ofDigitChars_ten_toDigits,
    decide_eq_true_eq]
  congr 2
  split_ifs <;> omega

/-! ## Floats -/

theorem ofDigitChars_zeros (b n : Nat) : Nat.ofDigitChars 10 (zeros b) n = n * 10 ^ b := by
  induction b generalizing n with
  | zero => simp [zeros]
  | succ b ih =>
    have hstep : Nat.ofDigitChars 10 (zeros (b + 1)) n =
        Nat.ofDigitChars 10 (zeros b) (10 * n) := by
      simp [zeros, List.replicate_succ, Nat.ofDigitChars_cons]
    rw [hstep, ih, pow_succ]
    ring

theorem ofDigitChars_filled (a b n : Nat) :
    Nat.ofDigitChars 10 (zeros a ++ (Nat.toDigits 10 n ++ zeros b)) 0 = n * 10 ^ b := by
  rw [Nat.ofDigitChars_append, Nat.ofDigitChars_append, ofDigitChars_zeros a, Nat.zero_mul,
    Nat.ofDigitChars_ten_toDigits, ofDigitChars_zeros]

theorem isDigit_zeros (a : Nat) : ∀ c ∈ zeros a, c.isDigit = true := by
  intro c hc
  rw [List.eq_of_mem_replicate hc]
  rfl

namespace Numeral

/-- A numeral of a float, and the decimal number it stands for. -/
structure Denotes (n : Numeral) (d : Digits) : Prop where
  isSound : n.IsSound
  isFloat : n.isFloat = true
  value : (⟨n.digits, n.scale⟩ : Digits).value = d.value

theorem value_of_filled {n : Numeral} {d : Digits} {a b : Nat}
    (hdigits : n.whole ++ n.fraction.getD [] = zeros a ++ (Nat.toDigits 10 d.digits ++ zeros b))
    (hscale : n.scale + b = d.exponent) :
    (⟨n.digits, n.scale⟩ : Digits).value = d.value := by
  have hten : (10 : ℚ) ≠ 0 := by norm_num
  rw [Digits.value, Digits.value, Numeral.digits, hdigits, ofDigitChars_filled, ← hscale,
    zpow_add₀ hten, zpow_natCast]
  push_cast
  ring

end Numeral

theorem exists_positional (d : Digits) {point : Int}
    (hpoint : point = d.exponent + (Nat.toDigits 10 d.digits).length) :
    ∃ n : Numeral, n.Denotes d ∧ n.chars = Decimal.positional (Nat.toDigits 10 d.digits) point := by
  have hdigits := isDigit_toDigits d.digits
  have hzero : ∀ c ∈ ['0'], c.isDigit = true := isDigit_zeros 1
  unfold Decimal.positional
  split_ifs with hsmall hlarge
  · refine ⟨⟨['0'], some (zeros (-point).toNat ++ Nat.toDigits 10 d.digits), none⟩,
      ⟨⟨by simp, hzero, ?_⟩, rfl, ?_⟩, by simp [Numeral.chars, fractionChars, exponentChars]⟩
    · exact List.forall_mem_append.mpr ⟨isDigit_zeros _, hdigits⟩
    · refine Numeral.value_of_filled (a := (-point).toNat + 1) (b := 0) ?_ ?_
      · simp [zeros, List.replicate_succ]
      · simp [Numeral.scale, zeros]
        omega
  · refine ⟨⟨Nat.toDigits 10 d.digits ++ zeros (point.toNat - (Nat.toDigits 10 d.digits).length),
      some ['0'], none⟩, ⟨⟨by simp, ?_, hzero⟩, rfl, ?_⟩,
      by simp [Numeral.chars, fractionChars, exponentChars]⟩
    · exact List.forall_mem_append.mpr ⟨hdigits, isDigit_zeros _⟩
    · refine Numeral.value_of_filled (a := 0)
        (b := point.toNat - (Nat.toDigits 10 d.digits).length + 1) ?_ ?_
      · simp [zeros, List.replicate_succ']
      · simp [Numeral.scale]
        omega
  · refine ⟨⟨(Nat.toDigits 10 d.digits).take point.toNat,
      some ((Nat.toDigits 10 d.digits).drop point.toNat), none⟩, ⟨⟨?_, ?_, ?_⟩, rfl, ?_⟩,
      by simp [Numeral.chars, fractionChars, exponentChars]⟩
    · intro hnil
      rcases List.take_eq_nil_iff.mp hnil with hpoint | hdigits
      · omega
      · exact Nat.toDigits_ne_nil hdigits
    · exact fun c hc => hdigits c (List.mem_of_mem_take hc)
    · exact fun c hc => hdigits c (List.mem_of_mem_drop hc)
    · refine Numeral.value_of_filled (a := 0) (b := 0) ?_ ?_
      · simp [zeros]
      · simp [Numeral.scale]
        omega

theorem exists_scientific (d : Digits) {x : Int}
    (hx : x = d.exponent + (Nat.toDigits 10 d.digits).length - 1) :
    ∃ n : Numeral, n.Denotes d ∧
      n.chars = Decimal.scientific false (Nat.toDigits 10 d.digits) x := by
  have hdigits := isDigit_toDigits d.digits
  have hvalue : ∀ n : Numeral, n.whole ++ n.fraction.getD [] = Nat.toDigits 10 d.digits →
      n.scale = d.exponent → (⟨n.digits, n.scale⟩ : Digits).value = d.value := fun n hn hscale =>
    Numeral.value_of_filled (a := 0) (b := 0) (by simpa [zeros] using hn) (by simpa using hscale)
  cases hds : Nat.toDigits 10 d.digits with
  | nil => exact absurd hds Nat.toDigits_ne_nil
  | cons first others =>
    rw [hds] at hdigits hx hvalue
    obtain ⟨hfirst, hothers⟩ := List.forall_mem_cons.mp hdigits
    have hwhole : ∀ c ∈ [first], c.isDigit = true := by simpa using hfirst
    cases others with
    | nil =>
      refine ⟨⟨[first], none, some x⟩, ⟨⟨by simp, hwhole, by simp⟩, rfl, hvalue _ rfl ?_⟩, ?_⟩
      · simp [Numeral.scale, hx]
      · simp [Numeral.chars, fractionChars, exponentChars, Decimal.scientific, wholeChars]
    | cons second others =>
      refine ⟨⟨[first], some (second :: others), some x⟩,
        ⟨⟨by simp, hwhole, hothers⟩, rfl, hvalue _ rfl ?_⟩, ?_⟩
      · simp [Numeral.scale, hx]
        omega
      · simp [Numeral.chars, fractionChars, exponentChars, Decimal.scientific, wholeChars]

/-- The decimal number that a float is written as. -/
def written (m : Nat) (e : Int) : Digits := if m = 0 then ⟨0, -1⟩ else shortest .up m e

theorem exists_magnitude (m : Nat) (e : Int) :
    ∃ n : Numeral, n.Denotes (written m e) ∧ n.chars = numberLayout.magnitude m e := by
  unfold written Decimal.Layout.magnitude
  split_ifs with hm
  · exact ⟨⟨['0'], some ['0'], none⟩, ⟨⟨by simp, isDigit_zeros 1, isDigit_zeros 1⟩, rfl, rfl⟩, rfl⟩
  · dsimp only
    split_ifs with hlayout
    · exact exists_positional _ rfl
    · exact exists_scientific _ rfl

theorem number?_of_denotes {m : Nat} {e : Int} (h : IsUnpacked m e) {n : Numeral}
    (hn : n.Denotes (written m e)) (negative : Bool) : n.number? negative =
      some (.float (UInt64.ofNat (if negative then Nat.pow 2 63 + pack m e else pack m e))) := by
  have hround : Decimal.roundRatio (n.digits * Decimal.power 10 n.scale)
      (Decimal.power 10 (-n.scale)) = some (pack m e) := by
    have hvalue := hn.value
    unfold written at hvalue
    rcases h with ⟨rfl, rfl⟩ | hc
    · have hstep : (10 : ℚ) ^ n.scale ≠ 0 := zpow_ne_zero _ (by norm_num)
      have hzero : n.digits = 0 := by
        simpa [Digits.value, hstep] using hvalue
      rw [hzero, Nat.zero_mul]
      rfl
    · refine Decimal.roundRatio_value hc (d := ⟨n.digits, n.scale⟩) ?_
      rw [hvalue, if_neg hc.positive.ne']
      exact Decimal.shortest_holds hc .up
  rw [Numeral.number?, if_pos hn.isFloat, hround]
  rfl

theorem floatChars_eq {bits : UInt64} {negative : Bool} {m : Nat} {e : Int}
    (h : Decimal.unpack bits = .finite negative m e) : ∃ n : Numeral, n.IsSound ∧
      n.number? negative = some (.float bits) ∧
        floatChars bits = signChars negative ++ n.chars := by
  obtain ⟨hunpacked, hbits⟩ := Decimal.unpack_finite h
  obtain ⟨n, hn, hchars⟩ := exists_magnitude m e
  have hnumber := number?_of_denotes hunpacked hn negative
  rw [← hbits, UInt64.ofNat_toNat] at hnumber
  refine ⟨n, hn.isSound, hnumber, ?_⟩
  rw [floatChars, h, hchars]
  rfl

/-! ## All numbers -/

theorem exists_numeral {x : JsonNumber} (hx : x.isFinite = true) : ∃ (negative : Bool)
    (n : Numeral), n.IsSound ∧ n.number? negative = some x ∧
      numberChars x = signChars negative ++ n.chars := by
  cases x with
  | integer x =>
    exact ⟨decide (x < 0), ⟨Nat.toDigits 10 x.natAbs, none, none⟩,
      ⟨Nat.toDigits_ne_nil, isDigit_toDigits _, by simp⟩, number?_toDigits x, wholeChars_eq x⟩
  | float bits =>
    dsimp only [JsonNumber.isFinite] at hx
    split at hx
    · exact ⟨_, floatChars_eq ‹_›⟩
    · cases hx

theorem readNumber_numberChars {x : JsonNumber} (hx : x.isFinite = true) (hrest : EndsValue rest) :
    readNumber (numberChars x ++ rest) = some (x, rest) := by
  obtain ⟨negative, n, hn, hnumber, htext⟩ := exists_numeral hx
  rw [htext]
  exact readNumber_chars hn hrest hnumber

/-- A number begins with its sign or a digit. -/
theorem exists_head_numberChars {x : JsonNumber} (hx : x.isFinite = true) :
    ∃ c text, numberChars x = c :: text ∧ (c = '-' ∨ c.isDigit = true) := by
  obtain ⟨negative, n, hn, -, htext⟩ := exists_numeral hx
  obtain ⟨c, ds, hds⟩ := List.exists_cons_of_ne_nil hn.whole_ne_nil
  rw [htext, Numeral.chars, hds]
  cases negative with
  | true => exact ⟨'-', _, rfl, .inl rfl⟩
  | false => exact ⟨c, _, rfl, .inr (hn.isDigit_whole c (by simp [hds]))⟩

end Literal

end RemoteHost
