import RemoteHost.Proofs.NearestFloats

/-!
# The shortest digits round back

The decimal found for a binary number lies in the rounding interval of the number, so that it is
rounded to the number again. With seventeen digits there always is one: then the decimal grid is
finer than the interval is wide.
-/

namespace RemoteHost.Decimal

/-- The number that decimal digits stand for. -/
def Digits.value (d : Digits) : ℚ := d.digits * 10 ^ d.exponent

theorem value_withoutZeros (d : Digits) : d.withoutZeros.value = d.value := by
  fun_induction Digits.withoutZeros d with
  | case1 d h ih =>
    have hten : d.digits = d.digits / 10 * 10 := by omega
    have hcast : (d.digits : ℚ) = (d.digits / 10 : Nat) * 10 := by exact_mod_cast hten
    rw [ih, Digits.value, Digits.value, hcast, zpow_add_one₀ (by norm_num)]
    ring
  | case2 => rfl

theorem digitCount_spec (n : Nat) :
    n < 10 ^ digitCount n ∧ (0 < n → 10 ^ (digitCount n - 1) ≤ n) := by
  fun_induction digitCount n with
  | case1 n h => exact ⟨by omega, id⟩
  | case2 n h ih =>
    obtain ⟨hlt, hle⟩ := ih
    have hle := hle (by omega)
    have hpositive : 1 ≤ digitCount (n / 10) := by
      rw [digitCount]
      split <;> omega
    have hpower : 10 ^ digitCount (n / 10) = 10 ^ (digitCount (n / 10) - 1) * 10 := by
      rw [← pow_succ, Nat.sub_add_cancel hpositive]
    constructor
    · rw [pow_succ]
      omega
    · intro _
      rw [Nat.add_sub_cancel, hpower]
      omega

namespace RoundingInterval

variable {r : RoundingInterval}

theorem contains_iff (d : Digits) : r.contains d = true ↔ r.Holds d.value := by
  have hunit : (0 : ℚ) < power 10 (-d.exponent) := by exact_mod_cast power_pos (by decide) _
  have hscaled : ((d.digits * power 10 d.exponent * r.den : Nat) : ℚ) =
      d.value * r.den * power 10 (-d.exponent) := by
    rw [Nat.cast_mul, Nat.cast_mul, power_eq 10 (by decide), Nat.cast_ofNat, Digits.value]
    ring
  have hlow : r.low * power 10 (-d.exponent) ≤ d.digits * power 10 d.exponent * r.den ↔
      (r.low : ℚ) ≤ d.value * r.den := by
    rw [← Nat.cast_le (α := ℚ), hscaled, Nat.cast_mul, mul_le_mul_iff_left₀ hunit]
  have hhigh : d.digits * power 10 d.exponent * r.den ≤ r.high * power 10 (-d.exponent) ↔
      d.value * r.den ≤ r.high := by
    rw [← Nat.cast_le (α := ℚ), hscaled, Nat.cast_mul, mul_le_mul_iff_left₀ hunit]
  have hlow' : r.low * power 10 (-d.exponent) < d.digits * power 10 d.exponent * r.den ↔
      (r.low : ℚ) < d.value * r.den := by
    rw [← Nat.cast_lt (α := ℚ), hscaled, Nat.cast_mul, mul_lt_mul_iff_left₀ hunit]
  have hhigh' : d.digits * power 10 d.exponent * r.den < r.high * power 10 (-d.exponent) ↔
      d.value * r.den < r.high := by
    rw [← Nat.cast_lt (α := ℚ), hscaled, Nat.cast_mul, mul_lt_mul_iff_left₀ hunit]
  unfold contains Holds
  cases r.closed with
  | true => simp [hlow, hhigh]
  | false =>
    simp only [Bool.false_eq_true, if_false, Bool.and_eq_true, decide_eq_true_eq, hlow', hhigh',
      forall_true_left]
    exact ⟨fun h => ⟨h.1.le, h.2.le, h⟩, fun h => h.2.2⟩

/-- The first digit of a value stands right before its point position. -/
theorem pointPosition_le (hvalue : 0 < r.value) (hden : 0 < r.den) :
    (10 : ℚ) ^ (r.pointPosition - 1) ≤ r.value / r.den := by
  have hd : (0 : ℚ) < r.den := by exact_mod_cast hden
  rw [le_div_iff₀ hd]
  unfold pointPosition
  split_ifs with hlarge
  · have hquotient : 0 < r.value / r.den := Nat.div_pos hlarge hden
    have hdigits := (digitCount_spec (r.value / r.den)).2 hquotient
    have hpositive : 1 ≤ digitCount (r.value / r.den) := by
      rw [digitCount]
      split <;> omega
    have hpower : ((digitCount (r.value / r.den) : Int) - 1) =
        ((digitCount (r.value / r.den) - 1 : Nat) : Int) := by omega
    rw [hpower, zpow_natCast]
    have hwhole : 10 ^ (digitCount (r.value / r.den) - 1) * r.den ≤ r.value :=
      (Nat.le_div_iff_mul_le hden).mp hdigits
    exact_mod_cast hwhole
  · have hdigits := (digitCount_spec ((r.den - 1) / r.value)).1
    rw [Nat.div_lt_iff_lt_mul hvalue] at hdigits
    have hwhole : r.den ≤ 10 ^ digitCount ((r.den - 1) / r.value) * r.value := by omega
    have hcast : (r.den : ℚ) ≤ 10 ^ digitCount ((r.den - 1) / r.value) * r.value := by
      exact_mod_cast hwhole
    have hpower : 1 - (digitCount ((r.den - 1) / r.value) : Int) - 1 =
        -(digitCount ((r.den - 1) / r.value) : Int) := by omega
    rw [hpower, zpow_neg, zpow_natCast, inv_mul_le_iff₀ (by positivity)]
    exact hcast

/-- The two points of a decimal grid next to a value. -/
theorem floorOn_spec (hden : 0 < r.den) (x : Int) :
    (⟨(r.floorOn x).1, x⟩ : Digits).value ≤ r.value / r.den ∧
      r.value / r.den < (⟨(r.floorOn x).1 + 1, x⟩ : Digits).value := by
  have hstep : (0 : ℚ) < 10 ^ x := zpow_pos (by norm_num) x
  have hscaled : 0 < r.den * power 10 x := Nat.mul_pos hden (power_pos (by decide) x)
  have hratio := ratio_scaled (show 0 < 10 by decide) r.value hden x
  rw [Nat.cast_ofNat] at hratio
  have hs : (0 : ℚ) < (r.den * power 10 x : Nat) := by exact_mod_cast hscaled
  constructor
  · have hle : (r.floorOn x).1 * (r.den * power 10 x) ≤ r.value * power 10 (-x) :=
      Nat.div_mul_le_self _ _
    rw [Digits.value, ← le_div_iff₀ hstep, ← hratio, le_div_iff₀ hs]
    exact_mod_cast hle
  · have hlt : r.value * power 10 (-x) < ((r.floorOn x).1 + 1) * (r.den * power 10 x) :=
      (Nat.div_lt_iff_lt_mul hscaled).mp (Nat.lt_succ_self _)
    rw [Digits.value, ← div_lt_iff₀ hstep, ← hratio, div_lt_iff₀ hs]
    exact_mod_cast hlt

theorem contains_of_onGrid {tie : Tie} {count : Nat} {d : Digits}
    (h : r.onGrid tie count = some d) : r.contains d = true := by
  unfold onGrid at h
  dsimp only at h
  split at h
  · cases h
  · rename_i hlower _
    exact Option.some.inj h ▸ hlower
  · rename_i _ hupper
    exact Option.some.inj h ▸ hupper
  · rename_i hlower hupper
    split at h
    · exact Option.some.inj h ▸ hlower
    · split at h
      · exact Option.some.inj h ▸ hupper
      · cases tie with
        | up => exact Option.some.inj h ▸ hupper
        | even =>
          dsimp only at h
          rw [← Option.some.inj h]
          split <;> assumption

/-- A grid has a point in an interval if one of the two next to the value lies in it. -/
theorem isSome_onGrid {tie : Tie} {count : Nat} {x : Int} (hx : r.pointPosition - count = x)
    (h : r.Holds (⟨(r.floorOn x).1, x⟩ : Digits).value ∨
      r.Holds (⟨(r.floorOn x).1 + 1, x⟩ : Digits).value) : (r.onGrid tie count).isSome = true := by
  rw [← contains_iff, ← contains_iff] at h
  unfold onGrid
  dsimp only
  rw [hx]
  split
  · rename_i hlower hupper
    rw [hlower, hupper] at h
    simp at h
  · rfl
  · rfl
  · split
    · rfl
    · split
      · rfl
      · cases tie <;> rfl

end RoundingInterval

variable {m : Nat} {e : Int}

theorem roundingInterval_value (hm : 0 < m) :
    0 < (roundingInterval m e).value ∧ 0 < (roundingInterval m e).den ∧
      ((roundingInterval m e).value / (roundingInterval m e).den : ℚ) = m * 2 ^ e := by
  have hden : 0 < power 2 (2 - e) := power_pos (by decide) _
  have hd : (0 : ℚ) < power 2 (2 - e) := by exact_mod_cast hden
  refine ⟨Nat.mul_pos (by omega) (power_pos (by decide) _), hden, ?_⟩
  change ((4 * m * power 2 (e - 2) : Nat) : ℚ) / (power 2 (2 - e) : Nat) = _
  rw [div_eq_iff hd.ne', Nat.cast_mul, power_eq 2 (by decide), neg_sub, Nat.cast_ofNat,
    zpow_sub₀ (by norm_num)]
  push_cast
  ring

/-- A step that is narrower than a rounding interval does not lead over it. -/
theorem holds_of_narrow (hm : 0 < m) {lower upper : ℚ} (hlower : lower ≤ m * 2 ^ e)
    (hupper : m * 2 ^ e < upper)
    (hnarrow : upper - lower < (1 / 2 + quartersBelow m e / 4) * 2 ^ e) :
    (roundingInterval m e).Holds lower ∨ (roundingInterval m e).Holds upper := by
  have hstep : (0 : ℚ) < 2 ^ e := zpow_pos (by norm_num) e
  rw [← div_le_iff₀ hstep] at hlower
  rw [← lt_div_iff₀ hstep] at hupper
  rw [← div_lt_iff₀ hstep, sub_div] at hnarrow
  have hbelow : (0 : ℚ) ≤ quartersBelow m e / 4 := by positivity
  rw [holds_roundingInterval hm, holds_roundingInterval hm]
  by_cases hin : (m : ℚ) - quartersBelow m e / 4 < lower / 2 ^ e
  · exact .inl ⟨hin.le, by linarith, fun _ => ⟨hin, by linarith⟩⟩
  · rw [not_lt] at hin
    have hout : upper / 2 ^ e < m + 1 / 2 := by linarith
    exact .inr ⟨by linarith, hout.le, fun _ => ⟨by linarith, hout⟩⟩

/-- The grid of seventeen digits is finer than any rounding interval. -/
theorem grid_narrow (hc : IsCanonical m e) {p : Int} (hp : (10 : ℚ) ^ (p - 1) ≤ m * 2 ^ e) :
    (10 : ℚ) ^ (p - 17) < (1 / 2 + quartersBelow m e / 4) * 2 ^ e := by
  have hstep : (0 : ℚ) < 2 ^ e := zpow_pos (by norm_num) e
  have hbounded : (m : ℚ) < 2 ^ 53 := by exact_mod_cast hc.bounded
  have hmantissa : (m : ℚ) / 10 ^ 16 < 1 / 2 + quartersBelow m e / 4 := by
    unfold quartersBelow
    split_ifs with hpower
    · rw [hpower.1]
      norm_num
    · rw [div_lt_iff₀ (by norm_num)]
      refine hbounded.trans ?_
      norm_num
  calc (10 : ℚ) ^ (p - 17) = 10 ^ (p - 1) / 10 ^ 16 := by
        rw [show p - 17 = p - 1 - (16 : Nat) by omega, zpow_sub₀ (by norm_num), zpow_natCast]
    _ ≤ m * 2 ^ e / 10 ^ 16 := by gcongr
    _ = m / 10 ^ 16 * 2 ^ e := by ring
    _ < (1 / 2 + quartersBelow m e / 4) * 2 ^ e := by gcongr

theorem isSome_seventeen (hc : IsCanonical m e) (tie : Tie) :
    ((roundingInterval m e).onGrid tie 17).isSome = true := by
  obtain ⟨hvalue, hden, hratio⟩ := roundingInterval_value (e := e) hc.positive
  have hposition := RoundingInterval.pointPosition_le hvalue hden
  rw [hratio] at hposition
  refine RoundingInterval.isSome_onGrid rfl ?_
  obtain ⟨hlower, hupper⟩ := RoundingInterval.floorOn_spec hden
    ((roundingInterval m e).pointPosition - (17 : Nat))
  rw [hratio] at hlower hupper
  refine holds_of_narrow hc.positive hlower hupper ?_
  refine lt_of_eq_of_lt ?_ (grid_narrow hc hposition)
  simp only [Digits.value]
  push_cast
  ring

theorem shortest_holds (hc : IsCanonical m e) (tie : Tie) :
    (roundingInterval m e).Holds (shortest tie m e).value := by
  unfold shortest
  dsimp only
  rw [value_withoutZeros, ← RoundingInterval.contains_iff]
  have hfound : ((List.range 17).findSome?
      fun count => (roundingInterval m e).onGrid tie (count + 1)).isSome = true :=
    List.findSome?_isSome_iff.mpr ⟨16, by simp, isSome_seventeen hc tie⟩
  obtain ⟨d, hd⟩ := Option.isSome_iff_exists.mp hfound
  obtain ⟨count, -, hgrid⟩ := List.exists_of_findSome?_eq_some hd
  rw [hd]
  exact RoundingInterval.contains_of_onGrid hgrid

theorem ratio_value (d : Digits) :
    ((d.digits * power 10 d.exponent : Nat) : ℚ) / (power 10 (-d.exponent) : Nat) = d.value := by
  have hunit : (0 : ℚ) < power 10 (-d.exponent) := by exact_mod_cast power_pos (by decide) _
  rw [div_eq_iff hunit.ne', Nat.cast_mul, power_eq 10 (by decide), Nat.cast_ofNat, Digits.value]
  ring

/-- A decimal number inside a rounding interval is rounded back. -/
theorem roundRatio_value (hc : IsCanonical m e) {d : Digits}
    (h : (roundingInterval m e).Holds d.value) :
    roundRatio (d.digits * power 10 d.exponent) (power 10 (-d.exponent)) = some (pack m e) := by
  refine roundRatio_of_holds hc (power_pos (by decide) _) ?_
  rwa [ratio_value]

end RemoteHost.Decimal
