import Mathlib.Data.Rat.Cast.Order
import Mathlib.Tactic.FieldSimp
import Mathlib.Tactic.Linarith
import Mathlib.Tactic.Positivity
import Mathlib.Tactic.Ring
import RemoteHost.Decimal.Shortest

/-!
# Rounding to the nearest float

A ratio inside the rounding interval of a binary number is rounded to that number, at the ends of
the interval exactly if the mantissa is even.
-/

namespace RemoteHost.Decimal

/-! ## Powers -/

theorem power_pos {base : Nat} (hbase : 0 < base) (x : Int) : 0 < power base x :=
  Nat.pow_pos hbase

/-- A negative power is kept as the divisor. -/
theorem power_eq (base : Nat) (hbase : 0 < base) (x : Int) :
    (power base x : ℚ) = (base : ℚ) ^ x * power base (-x) := by
  have hne : (base : ℚ) ≠ 0 := by exact_mod_cast hbase.ne'
  obtain ⟨n, rfl | rfl⟩ := x.eq_nat_or_neg
  · simp [power]
  · have hone : power base (-(n : Int)) = 1 := by simp [power]
    have hpower : (power base (- -(n : Int)) : ℚ) = (base : ℚ) ^ n := by simp [power]
    rw [hone, hpower, zpow_neg, zpow_natCast, Nat.cast_one, inv_mul_cancel₀ (pow_ne_zero n hne)]

theorem ratio_scaled {base : Nat} (hbase : 0 < base) (num : Nat) {den : Nat} (hden : 0 < den)
    (x : Int) :
    ((num * power base (-x) : Nat) : ℚ) / (den * power base x : Nat) =
      (num / den : ℚ) / (base : ℚ) ^ x := by
  have hscale : (0 : ℚ) < power base (-x) := by exact_mod_cast power_pos hbase _
  have hd : (0 : ℚ) < den := by exact_mod_cast hden
  have hstep : (0 : ℚ) < (base : ℚ) ^ x := zpow_pos (by exact_mod_cast hbase) x
  rw [Nat.cast_mul, Nat.cast_mul, power_eq base hbase x]
  field_simp

/-! ## Whole numbers -/

theorem divideNearest_eq {num den m : Nat} (hden : 0 < den) (hlow : 2 * (m * den) ≤ 2 * num + den)
    (hhigh : 2 * num ≤ 2 * (m * den) + den)
    (hodd : m % 2 = 1 → 2 * (m * den) < 2 * num + den ∧ 2 * num < 2 * (m * den) + den) :
    divideNearest num den = m := by
  have hnum : den * (num / den) + num % den = num := Nat.div_add_mod num den
  have hrest : num % den < den := Nat.mod_lt num hden
  unfold divideNearest
  dsimp only
  generalize num / den = q at *
  generalize num % den = r at *
  have hcases : q = m ∨ q + 1 = m := by
    by_contra hother
    rcases Nat.lt_or_ge q m with hlt | hge
    · have hmore : den * (q + 2) ≤ den * m := Nat.mul_le_mul_left den (by omega)
      rw [Nat.mul_comm den m] at hmore
      rw [Nat.mul_add] at hmore
      omega
    · have hmore : den * (m + 1) ≤ den * q := Nat.mul_le_mul_left den (by omega)
      rw [Nat.mul_add, Nat.mul_comm den m] at hmore
      omega
  rcases hcases with rfl | rfl
  · rw [Nat.mul_comm den q] at hnum
    split_ifs <;> omega
  · rw [Nat.mul_comm den q] at hnum
    rw [Nat.add_mul, Nat.one_mul] at *
    split_ifs <;> omega

/-- At the halfway points only an even number is chosen. -/
def NearTo (m : Nat) (q : ℚ) : Prop :=
  (m : ℚ) - 1 / 2 ≤ q ∧ q ≤ m + 1 / 2 ∧ (m % 2 = 1 → (m : ℚ) - 1 / 2 < q ∧ q < m + 1 / 2)

theorem divideNearest_of_nearTo {num den m : Nat} (hden : 0 < den)
    (h : NearTo m ((num : ℚ) / den)) : divideNearest num den = m := by
  have hd : (0 : ℚ) < den := by exact_mod_cast hden
  obtain ⟨hlow, hhigh, hodd⟩ := h
  rw [le_div_iff₀ hd] at hlow
  rw [div_le_iff₀ hd] at hhigh
  refine divideNearest_eq hden ?_ ?_ fun hm => ?_
  · have hcast : (2 * (m * den) : ℚ) ≤ 2 * num + den := by linarith
    exact_mod_cast hcast
  · have hcast : (2 * num : ℚ) ≤ 2 * (m * den) + den := by linarith
    exact_mod_cast hcast
  · obtain ⟨hlow, hhigh⟩ := hodd hm
    rw [lt_div_iff₀ hd] at hlow
    rw [div_lt_iff₀ hd] at hhigh
    constructor
    · have hcast : (2 * (m * den) : ℚ) < 2 * num + den := by linarith
      exact_mod_cast hcast
    · have hcast : (2 * num : ℚ) < 2 * (m * den) + den := by linarith
      exact_mod_cast hcast

/-! ## Powers of two around a ratio -/

theorem log2_bounds {n : Nat} (hn : 0 < n) :
    (2 : ℚ) ^ (n.log2 : Int) ≤ n ∧ (n : ℚ) < 2 ^ ((n.log2 : Int) + 1) := by
  constructor
  · rw [zpow_natCast]
    exact_mod_cast Nat.log2_self_le hn.ne'
  · rw [← Nat.cast_succ, zpow_natCast]
    exact_mod_cast @Nat.lt_log2_self n

theorem scaled_le_iff {num den : Nat} (hden : 0 < den) (x : Int) :
    den * power 2 x ≤ num * power 2 (-x) ↔ (2 : ℚ) ^ x ≤ num / den := by
  have hd : (0 : ℚ) < den := by exact_mod_cast hden
  have hscale : (0 : ℚ) < power 2 (-x) := by exact_mod_cast power_pos (by decide) _
  rw [le_div_iff₀ hd, ← Nat.cast_le (α := ℚ), Nat.cast_mul, Nat.cast_mul,
    power_eq 2 (by decide) x, ← mul_assoc, mul_le_mul_iff_left₀ hscale, mul_comm (den : ℚ),
    Nat.cast_ofNat]

theorem floorLog2_spec {num den : Nat} (hnum : 0 < num) (hden : 0 < den) :
    (2 : ℚ) ^ floorLog2 num den ≤ num / den ∧ (num / den : ℚ) < 2 ^ (floorLog2 num den + 1) := by
  have hd : (0 : ℚ) < den := by exact_mod_cast hden
  obtain ⟨hnum_ge, hnum_lt⟩ := log2_bounds hnum
  obtain ⟨hden_ge, hden_lt⟩ := log2_bounds hden
  unfold floorLog2
  dsimp only
  split_ifs with hreached
  · refine ⟨(scaled_le_iff hden _).mp hreached, ?_⟩
    rw [div_lt_iff₀ hd]
    calc (num : ℚ) < 2 ^ ((num.log2 : Int) + 1) := hnum_lt
      _ = 2 ^ ((num.log2 : Int) - den.log2 + 1) * 2 ^ (den.log2 : Int) := by
        rw [← zpow_add₀ (by norm_num)]
        congr 1
        omega
      _ ≤ 2 ^ ((num.log2 : Int) - den.log2 + 1) * den :=
        mul_le_mul_of_nonneg_left hden_ge (zpow_nonneg (by norm_num) _)
  · rw [scaled_le_iff hden, not_le] at hreached
    refine ⟨?_, by rwa [sub_add_cancel]⟩
    rw [le_div_iff₀ hd]
    calc (2 : ℚ) ^ ((num.log2 : Int) - den.log2 - 1) * den
        ≤ 2 ^ ((num.log2 : Int) - den.log2 - 1) * 2 ^ ((den.log2 : Int) + 1) :=
          mul_le_mul_of_nonneg_left hden_lt.le (zpow_nonneg (by norm_num) _)
      _ = 2 ^ (num.log2 : Int) := by
        rw [← zpow_add₀ (by norm_num)]
        congr 1
        omega
      _ ≤ num := hnum_ge

theorem floorLog2_eq {num den : Nat} (hnum : 0 < num) (hden : 0 < den) {x : Int}
    (hlow : (2 : ℚ) ^ x ≤ num / den) (hhigh : (num / den : ℚ) < 2 ^ (x + 1)) :
    floorLog2 num den = x := by
  obtain ⟨hfloor, hceil⟩ := floorLog2_spec hnum hden
  have hle : x < floorLog2 num den + 1 :=
    (zpow_lt_zpow_iff_right₀ (by norm_num)).mp (hlow.trans_lt hceil)
  have hge : floorLog2 num den < x + 1 :=
    (zpow_lt_zpow_iff_right₀ (by norm_num)).mp (hfloor.trans_lt hhigh)
  omega

theorem floorLog2_lt {num den : Nat} (hnum : 0 < num) (hden : 0 < den) {x : Int}
    (hhigh : (num / den : ℚ) < 2 ^ x) : floorLog2 num den < x :=
  (zpow_lt_zpow_iff_right₀ (by norm_num)).mp ((floorLog2_spec hnum hden).1.trans_lt hhigh)

/-! ## Rounding intervals -/

/-- The mantissa and the exponent of a positive finite number, as it is unpacked. -/
structure IsCanonical (mantissa : Nat) (exponent : Int) : Prop where
  positive : 0 < mantissa
  bounded : mantissa < 2 ^ 53
  least : -1074 ≤ exponent
  greatest : exponent ≤ 971
  normal : -1074 < exponent → 2 ^ 52 ≤ mantissa

def pack (mantissa : Nat) (exponent : Int) : Nat := (exponent + 1074).toNat * 2 ^ 52 + mantissa

/-- A ratio lies in a rounding interval. -/
def RoundingInterval.Holds (r : RoundingInterval) (q : ℚ) : Prop :=
  (r.low : ℚ) ≤ q * r.den ∧ q * r.den ≤ r.high ∧
    (r.closed = false → (r.low : ℚ) < q * r.den ∧ q * r.den < r.high)

/-- How far a rounding interval reaches below its value, in quarters of a step. -/
def quartersBelow (mantissa : Nat) (exponent : Int) : Nat :=
  if mantissa = 2 ^ 52 ∧ -1074 < exponent then 1 else 2

variable {m : Nat} {e : Int} {q : ℚ}

theorem holds_roundingInterval (hm : 0 < m) : (roundingInterval m e).Holds q ↔
    (m : ℚ) - quartersBelow m e / 4 ≤ q / 2 ^ e ∧ q / 2 ^ e ≤ m + 1 / 2 ∧
      (m % 2 = 1 → (m : ℚ) - quartersBelow m e / 4 < q / 2 ^ e ∧ q / 2 ^ e < m + 1 / 2) := by
  have hden : (0 : ℚ) < power 2 (2 - e) := by exact_mod_cast power_pos (by decide) _
  have hstep : (0 : ℚ) < 2 ^ e := zpow_pos (by norm_num) e
  have hquarter : (power 2 (e - 2) : ℚ) = 2 ^ e / 4 * power 2 (2 - e) := by
    rw [power_eq 2 (by decide), neg_sub, Nat.cast_ofNat, zpow_sub₀ (by norm_num)]
    norm_num
  have hbelow : quartersBelow m e ≤ 4 * m := by
    unfold quartersBelow
    split_ifs <;> omega
  have hlow : (((4 * m - quartersBelow m e) * power 2 (e - 2) : Nat) : ℚ) =
      ((m : ℚ) - quartersBelow m e / 4) * 2 ^ e * power 2 (2 - e) := by
    rw [Nat.cast_mul, Nat.cast_sub hbelow, hquarter]
    push_cast
    ring
  have hhigh : (((4 * m + 2) * power 2 (e - 2) : Nat) : ℚ) =
      ((m : ℚ) + 1 / 2) * 2 ^ e * power 2 (2 - e) := by
    rw [Nat.cast_mul, hquarter]
    push_cast
    ring
  have hclosed : (roundingInterval m e).closed = false ↔ m % 2 = 1 := by
    simp [roundingInterval]
  rw [RoundingInterval.Holds, hclosed]
  change (((4 * m - quartersBelow m e) * power 2 (e - 2) : Nat) : ℚ) ≤ q * power 2 (2 - e) ∧
    q * power 2 (2 - e) ≤ (((4 * m + 2) * power 2 (e - 2) : Nat) : ℚ) ∧
    (m % 2 = 1 → (((4 * m - quartersBelow m e) * power 2 (e - 2) : Nat) : ℚ) <
      q * power 2 (2 - e) ∧ q * power 2 (2 - e) < (((4 * m + 2) * power 2 (e - 2) : Nat) : ℚ)) ↔ _
  rw [hlow, hhigh, mul_le_mul_iff_left₀ hden, mul_le_mul_iff_left₀ hden,
    mul_lt_mul_iff_left₀ hden, mul_lt_mul_iff_left₀ hden, le_div_iff₀ hstep, div_le_iff₀ hstep,
    lt_div_iff₀ hstep, div_lt_iff₀ hstep]

/-- The steps that lead from a ratio to the nearest number, once its size is known. -/
theorem roundRatio_eq {num den mantissa : Nat} {x : Int} (hnum : 0 < num) (hden : 0 < den)
    (hx : max (floorLog2 num den - 52) (-1074) = x)
    (hnear : NearTo mantissa ((num / den : ℚ) / 2 ^ x)) : roundRatio num den =
      if 2 ^ 53 ≤ mantissa then
        if 971 ≤ x then none else some ((x + 1076).toNat * 2 ^ 52)
      else if 971 < x then none
      else if mantissa < 2 ^ 52 then some mantissa
      else some ((x + 1075).toNat * 2 ^ 52 + (mantissa - 2 ^ 52)) := by
  have hscaled : 0 < den * power 2 x := Nat.mul_pos hden (power_pos (by decide) x)
  have hratio := ratio_scaled (show 0 < 2 by decide) num hden x
  rw [Nat.cast_ofNat] at hratio
  rw [← hratio] at hnear
  rw [roundRatio, if_neg hnum.ne']
  dsimp only
  rw [hx, divideNearest_of_nearTo hscaled hnear]
  rfl

theorem quartersBelow_le (m : Nat) (e : Int) : (quartersBelow m e : ℚ) ≤ 2 := by
  unfold quartersBelow
  split_ifs <;> norm_num

/-- Where the interval does not reach below the power of two, the steps of the ratio are those of
the number. -/
theorem roundRatio_of_steps (hc : IsCanonical m e) {num den : Nat} (hnum : 0 < num)
    (hden : 0 < den) (hsteps : e = -1074 ∨ (2 : ℚ) ^ 52 ≤ num / den / 2 ^ e)
    (hnear : NearTo m ((num / den : ℚ) / 2 ^ e)) : roundRatio num den = some (pack m e) := by
  have hstep : (0 : ℚ) < 2 ^ e := zpow_pos (by norm_num) e
  have hx : max (floorLog2 num den - 52) (-1074) = e := by
    have hbounded : (m : ℚ) + 1 ≤ 2 ^ 53 := by exact_mod_cast hc.bounded
    have hsmall : (num / den : ℚ) / 2 ^ e < 2 ^ (53 : Int) := by
      rw [show (53 : Int) = ((53 : Nat) : Int) from rfl, zpow_natCast]
      linarith [hnear.2.1]
    rw [div_lt_iff₀ hstep, ← zpow_add₀ (by norm_num)] at hsmall
    have hlt := floorLog2_lt hnum hden hsmall
    have hleast := hc.least
    rcases hsteps with hleast | hlarge
    · omega
    · have hlow : (2 : ℚ) ^ (52 + e) ≤ num / den := by
        rw [zpow_add₀ (by norm_num), ← le_div_iff₀ hstep]
        exact hlarge
      have hfloor := floorLog2_eq hnum hden hlow (by rwa [add_right_comm])
      omega
  have hgreatest := hc.greatest
  have hleast := hc.least
  rw [roundRatio_eq hnum hden hx hnear, if_neg (Nat.not_le.mpr hc.bounded), if_neg (by omega),
    pack]
  split_ifs with hm
  · have he : e = -1074 := by
      by_contra hne
      exact absurd (hc.normal (by omega)) (by omega)
    refine congrArg some ?_
    omega
  · refine congrArg some ?_
    omega

/-- Below a power of two the steps are half as wide, and the ratio is rounded up to the power. -/
theorem roundRatio_below_power (hgreatest : e ≤ 971) (hleast : -1074 < e) {num den : Nat}
    (hnum : 0 < num) (hden : 0 < den) (hlow : (2 : ℚ) ^ 52 - 1 / 4 ≤ num / den / 2 ^ e)
    (hhigh : (num / den / 2 ^ e : ℚ) < 2 ^ 52) : roundRatio num den = some (pack (2 ^ 52) e) := by
  have hstep : (0 : ℚ) < 2 ^ e := zpow_pos (by norm_num) e
  have hhalf : (num / den : ℚ) / 2 ^ (e - 1) = 2 * (num / den / 2 ^ e) := by
    rw [zpow_sub_one₀ (by norm_num)]
    field_simp
  have hx : max (floorLog2 num den - 52) (-1074) = e - 1 := by
    have hceil : (num / den : ℚ) < 2 ^ (51 + e + 1) := by
      rw [show 51 + e + 1 = ((52 : Nat) : Int) + e by omega, zpow_add₀ (by norm_num), zpow_natCast,
        ← div_lt_iff₀ hstep]
      exact hhigh
    have hfloor : (2 : ℚ) ^ (51 + e) ≤ num / den := by
      rw [show 51 + e = ((51 : Nat) : Int) + e by omega, zpow_add₀ (by norm_num), zpow_natCast,
        ← le_div_iff₀ hstep]
      refine le_trans ?_ hlow
      norm_num
    rw [floorLog2_eq hnum hden hfloor hceil]
    omega
  have hnear : NearTo (2 ^ 53) ((num / den : ℚ) / 2 ^ (e - 1)) := by
    rw [hhalf]
    refine ⟨?_, ?_, fun hodd => absurd hodd (by decide)⟩ <;>
    · push_cast
      linarith
  rw [roundRatio_eq hnum hden hx hnear, if_pos (Nat.le_refl (2 ^ 53)), if_neg (by omega), pack]
  refine congrArg some ?_
  omega

theorem roundRatio_of_holds (hc : IsCanonical m e) {num den : Nat} (hden : 0 < den)
    (h : (roundingInterval m e).Holds (num / den)) : roundRatio num den = some (pack m e) := by
  obtain ⟨hlow, hhigh, hodd⟩ := (holds_roundingInterval hc.positive).mp h
  have hbelow := quartersBelow_le m e
  have hpositive : (1 : ℚ) ≤ m := by exact_mod_cast hc.positive
  have hnum : 0 < num := by
    refine Nat.pos_of_ne_zero fun hzero => ?_
    rw [hzero, Nat.cast_zero, zero_div, zero_div] at hlow
    linarith
  have hnear : NearTo m ((num / den : ℚ) / 2 ^ e) :=
    ⟨by linarith, hhigh, fun hm => ⟨by linarith [(hodd hm).1], (hodd hm).2⟩⟩
  by_cases hsteps : e = -1074 ∨ (2 : ℚ) ^ 52 ≤ num / den / 2 ^ e
  · exact roundRatio_of_steps hc hnum hden hsteps hnear
  · obtain ⟨hleast, hsmall⟩ := not_or.mp hsteps
    rw [not_le] at hsmall
    have hleast : -1074 < e := lt_of_le_of_ne hc.least (Ne.symm hleast)
    have hm : m = 2 ^ 52 := by
      refine le_antisymm ?_ (hc.normal hleast)
      have hlt : (m : ℚ) < 2 ^ 52 + 1 := by linarith
      have hlt : m < 2 ^ 52 + 1 := by exact_mod_cast hlt
      omega
    subst hm
    rw [quartersBelow, if_pos ⟨rfl, hleast⟩] at hlow
    push_cast at hlow
    exact roundRatio_below_power hc.greatest hleast hnum hden hlow hsmall

/-! ## Bit patterns -/

/-- Zero or canonical: the numbers that bit patterns stand for. -/
def IsUnpacked (mantissa : Nat) (exponent : Int) : Prop :=
  mantissa = 0 ∧ exponent = -1074 ∨ IsCanonical mantissa exponent

theorem unpack_finite {bits : UInt64} {negative : Bool} {m : Nat} {e : Int}
    (h : unpack bits = .finite negative m e) : IsUnpacked m e ∧
      bits.toNat = if negative then Nat.pow 2 63 + pack m e else pack m e := by
  have hbits : bits.toNat < 2 ^ 64 := bits.toNat_lt
  have hfifty : Nat.pow 2 52 = 2 ^ 52 := rfl
  have hsixty : Nat.pow 2 63 = 2 ^ 63 := rfl
  have heleven : Nat.pow 2 11 = 2 ^ 11 := rfl
  have hsign : signBit bits = true ↔ bits.toNat / 2 ^ 63 = 1 := by
    rw [signBit, hsixty, beq_iff_eq]
  have hexponent : exponentField bits = bits.toNat / 2 ^ 52 % 2 ^ 11 := rfl
  have hfraction : fractionField bits = bits.toNat % 2 ^ 52 := rfl
  unfold unpack at h
  dsimp only at h
  split_ifs at h with hspecial hzero hsubnormal
  · injection h with hn hm he
    subst hn hm he
    refine ⟨?_, ?_⟩
    · rcases Nat.eq_zero_or_pos (fractionField bits) with hz | hp
      · exact .inl ⟨hz, rfl⟩
      · exact .inr ⟨hp, by omega, by omega, by omega, fun hlt => absurd hlt (by decide)⟩
    · have hpack : pack (fractionField bits) (-1074) = fractionField bits := by simp [pack]
      rw [hpack, hsixty]
      split_ifs with hs <;> rw [hsign] at hs <;> omega
  · injection h with hn hm he
    subst hn hm he
    refine ⟨.inr ⟨by omega, by omega, by omega, by omega, fun _ => by omega⟩, ?_⟩
    rw [pack, hsixty, hfifty]
    split_ifs with hs <;> rw [hsign] at hs <;> omega

end RemoteHost.Decimal
