import DialogueTyping.Number.Numeral
import Mathlib.Algebra.Order.Field.Power
import Mathlib.Data.Nat.Dist
import Mathlib.Data.Rat.Cast.Order
import Mathlib.Order.Monotone.Basic
import Mathlib.Tactic.FieldSimp
import Mathlib.Tactic.Positivity
import Mathlib.Tactic.Ring

set_option autoImplicit false

namespace DialogueTyping.Binary64

variable {num den : Nat}

/-- The quotient misses the ratio by less than a half, or by a half and is even. -/
theorem nearestQuotient_error (num : Nat) (positive : 0 < den) :
    2 * Nat.dist num (nearestQuotient num den * den) < den ∨
      2 * Nat.dist num (nearestQuotient num den * den) = den ∧
        nearestQuotient num den % 2 = 0 := by
  have parts := Nat.div_add_mod' num den
  have small := Nat.mod_lt num positive
  have next : (num / den + 1) * den = num / den * den + den := Nat.succ_mul _ _
  unfold Nat.dist nearestQuotient
  dsimp only
  split
  · left
    omega
  · split
    · left
      omega
    · right
      rcases Nat.mod_two_eq_zero_or_one (num / den) with even | odd
      · rw [even, Nat.add_zero]
        omega
      · rw [odd, next]
        omega

/-- Every other multiple of `den` is further off, or as far off from an even one. -/
theorem nearestQuotient_nearest (positive : 0 < den) {other : Nat}
    (different : other ≠ nearestQuotient num den) :
    Nat.dist num (nearestQuotient num den * den) < Nat.dist num (other * den) ∨
      Nat.dist num (nearestQuotient num den * den) = Nat.dist num (other * den) ∧
        nearestQuotient num den % 2 = 0 := by
  have error := nearestQuotient_error num positive
  generalize nearestQuotient num den = quotient at *
  have apart : other * den + den ≤ quotient * den ∨ quotient * den + den ≤ other * den := by
    rcases Nat.lt_or_gt_of_ne different with below | above
    · exact Or.inl (Nat.succ_mul other den ▸ Nat.mul_le_mul_right den below)
    · exact Or.inr (Nat.succ_mul quotient den ▸ Nat.mul_le_mul_right den above)
  unfold Nat.dist at *
  omega

theorem le_nearestQuotient (positive : 0 < den) {bound : Nat} (least : bound * den ≤ num) :
    bound ≤ nearestQuotient num den := by
  have error := nearestQuotient_error num positive
  by_contra below
  have apart := Nat.mul_le_mul_right den (Nat.lt_of_not_le below)
  rw [Nat.succ_mul] at apart
  unfold Nat.dist at error
  omega

theorem nearestQuotient_le (positive : 0 < den) {bound : Nat} (most : num ≤ bound * den) :
    nearestQuotient num den ≤ bound := by
  have error := nearestQuotient_error num positive
  by_contra above
  have apart := Nat.mul_le_mul_right den (Nat.lt_of_not_le above)
  rw [Nat.succ_mul] at apart
  unfold Nat.dist at error
  omega

/-- Only the ratio counts. -/
theorem nearestQuotient_scale (num den : Nat) {factor : Nat} (positive : 0 < factor) :
    nearestQuotient (num * factor) (den * factor) = nearestQuotient num den := by
  have twice : 2 * (num % den * factor) = 2 * (num % den) * factor := by rw [Nat.mul_assoc]
  unfold nearestQuotient
  simp only [Nat.mul_div_mul_right _ _ positive, Nat.mul_mod_mul_right, twice,
    Nat.mul_lt_mul_right positive]

theorem two_zpow_eq (k : Int) : (2 : ℚ) ^ k = 2 ^ k.toNat / 2 ^ (-k).toNat := by
  rcases Int.le_total 0 k with up | down
  · have same : ((k.toNat : Nat) : Int) = k := Int.toNat_of_nonneg up
    rw [Int.toNat_of_nonpos (by omega : -k ≤ 0), pow_zero, div_one, ← zpow_natCast, same]
  · have same : (((-k).toNat : Nat) : Int) = -k := Int.toNat_of_nonneg (by omega)
    rw [Int.toNat_of_nonpos down, pow_zero, one_div, ← zpow_natCast, same, zpow_neg, inv_inv]

/-- The test between two powers is one of ratios. -/
theorem le_two_pow_toNat_iff (num den : Nat) (k : Int) :
    den * 2 ^ k.toNat ≤ num * 2 ^ (-k).toNat ↔ (den : ℚ) * 2 ^ k ≤ num := by
  have positive : (0 : ℚ) < 2 ^ (-k).toNat := by positivity
  rw [two_zpow_eq, ← mul_div_assoc, div_le_iff₀ positive]
  exact_mod_cast Iff.rfl

theorem two_zpow_log2 {n : Nat} (positive : 0 < n) :
    (2 : ℚ) ^ (n.log2 : Int) ≤ n ∧ (n : ℚ) < 2 ^ ((n.log2 : Int) + 1) := by
  have least : 2 ^ n.log2 ≤ n := Nat.log2_self_le (Nat.pos_iff_ne_zero.1 positive)
  have most : n < 2 ^ (n.log2 + 1) := Nat.lt_log2_self
  refine ⟨?_, ?_⟩
  · rw [zpow_natCast]
    exact_mod_cast least
  · rw [← Nat.cast_succ, zpow_natCast]
    exact_mod_cast most

theorem floorLog2_spec (positive : 0 < num) (positiveDen : 0 < den) :
    (den : ℚ) * 2 ^ floorLog2 num den ≤ num ∧ (num : ℚ) < den * 2 ^ (floorLog2 num den + 1) := by
  have two : (2 : ℚ) ≠ 0 := two_ne_zero
  obtain ⟨least, most⟩ := two_zpow_log2 positive
  obtain ⟨leastDen, mostDen⟩ := two_zpow_log2 positiveDen
  unfold floorLog2
  dsimp only [Nat.pow_eq]
  generalize (num.log2 : Int) = high at *
  generalize (den.log2 : Int) = low at *
  simp only [le_two_pow_toNat_iff]
  split
  · rename_i fits
    refine ⟨fits, ?_⟩
    calc (num : ℚ) < 2 ^ (high + 1) := most
      _ = 2 ^ low * 2 ^ (high - low + 1) := by rw [← zpow_add₀ two]; congr 1; omega
      _ ≤ den * 2 ^ (high - low + 1) := by gcongr
  · rename_i exceeds
    refine ⟨?_, by rw [sub_add_cancel]; exact not_le.1 exceeds⟩
    calc (den : ℚ) * 2 ^ (high - low - 1) ≤ 2 ^ (low + 1) * 2 ^ (high - low - 1) := by gcongr
      _ = 2 ^ high := by rw [← zpow_add₀ two]; congr 1; omega
      _ ≤ num := least

/-- The number with the given bits and no sign, as a multiple of the least positive one, which is
`2 ^ (-1074)`. From `infinityBits` on the exponents go on as if the format had more of them. -/
def unitsOf (bits : Nat) : Nat :=
  if bits < 2 ^ 52 then bits else (2 ^ 52 + bits % 2 ^ 52) * 2 ^ (bits / 2 ^ 52 - 1)

/-- A fraction of up to twice its range carries over into the exponent. -/
theorem unitsOf_add {exponent steps : Nat} (least : exponent = 0 ∨ 2 ^ 52 ≤ steps)
    (most : steps ≤ 2 ^ 53) : unitsOf (exponent * 2 ^ 52 + steps) = steps * 2 ^ exponent := by
  unfold unitsOf
  rcases Nat.lt_or_ge steps (2 ^ 52) with low | high
  · obtain rfl : exponent = 0 := by omega
    rw [Nat.zero_mul, Nat.zero_add, if_pos low, Nat.pow_zero, Nat.mul_one]
  · rw [if_neg (by omega)]
    rcases Nat.lt_or_ge steps (2 ^ 53) with inside | beyond
    · have quotient : (exponent * 2 ^ 52 + steps) / 2 ^ 52 = exponent + 1 := by omega
      have rest : (exponent * 2 ^ 52 + steps) % 2 ^ 52 = steps - 2 ^ 52 := by omega
      rw [quotient, rest, Nat.add_sub_cancel, Nat.add_sub_cancel' high]
    · obtain rfl : steps = 2 ^ 53 := by omega
      have quotient : (exponent * 2 ^ 52 + 2 ^ 53) / 2 ^ 52 = exponent + 2 := by omega
      have rest : (exponent * 2 ^ 52 + 2 ^ 53) % 2 ^ 52 = 0 := by omega
      have same : 52 + (exponent + 2 - 1) = 53 + exponent := by omega
      rw [quotient, rest, Nat.add_zero, ← Nat.pow_add, ← Nat.pow_add, same]

theorem exists_eq_mul_add (bits : Nat) :
    ∃ exponent steps, (exponent = 0 ∨ 2 ^ 52 ≤ steps) ∧ steps < 2 ^ 53 ∧
      bits = exponent * 2 ^ 52 + steps := by
  rcases Nat.lt_or_ge bits (2 ^ 52) with low | high
  · exact ⟨0, bits, Or.inl rfl, by omega, by omega⟩
  · exact ⟨bits / 2 ^ 52 - 1, 2 ^ 52 + bits % 2 ^ 52, Or.inr (by omega), by omega, by omega⟩

theorem strictMono_unitsOf : StrictMono unitsOf := by
  apply strictMono_nat_of_lt_succ
  intro bits
  obtain ⟨exponent, steps, least, most, rfl⟩ := exists_eq_mul_add bits
  rw [Nat.add_assoc, unitsOf_add least most.le, unitsOf_add (by omega) most]
  exact Nat.mul_lt_mul_of_pos_right (Nat.lt_succ_self steps) (Nat.two_pow_pos exponent)

/-- Numbers with a smaller exponent apart, all are multiples of `2 ^ exponent`. -/
theorem unitsOf_eq_mul_or_lt (exponent bits : Nat) :
    (∃ steps, unitsOf bits = steps * 2 ^ exponent) ∨
      0 < exponent ∧ unitsOf bits < 2 ^ 52 * 2 ^ exponent := by
  obtain ⟨own, steps, least, most, rfl⟩ := exists_eq_mul_add bits
  rw [unitsOf_add least most.le]
  rcases Nat.lt_or_ge own exponent with smaller | larger
  · refine Or.inr ⟨by omega, ?_⟩
    calc steps * 2 ^ own < 2 ^ 53 * 2 ^ own := Nat.mul_lt_mul_of_pos_right most (Nat.two_pow_pos own)
      _ = 2 ^ 52 * 2 ^ (own + 1) := by ring
      _ ≤ 2 ^ 52 * 2 ^ exponent :=
        Nat.mul_le_mul_left _ (Nat.pow_le_pow_right Nat.two_pos smaller)
  · refine Or.inl ⟨steps * 2 ^ (own - exponent), ?_⟩
    rw [Nat.mul_assoc, ← Nat.pow_add, Nat.sub_add_cancel larger]

/-- No other number of the format is as near to `num / den`, unless `bits` are even. -/
def Nearest (num den bits : Nat) : Prop :=
  ∀ other ≠ bits,
    Nat.dist (num * 2 ^ 1074) (unitsOf bits * den) <
        Nat.dist (num * 2 ^ 1074) (unitsOf other * den) ∨
      Nat.dist (num * 2 ^ 1074) (unitsOf bits * den) =
          Nat.dist (num * 2 ^ 1074) (unitsOf other * den) ∧ bits % 2 = 0

/-- The unit of the last place of `num / den` is `2 ^ exponent` of the least ones. -/
structure LastPlace (num den exponent : Nat) : Prop where
  least : exponent = 0 ∨ 2 ^ 52 * (den * 2 ^ exponent) ≤ num * 2 ^ 1074
  most : num * 2 ^ 1074 < 2 ^ 53 * (den * 2 ^ exponent)

theorem lastPlace_of_floorLog2 (positive : 0 < num) (positiveDen : 0 < den) :
    LastPlace num den (max (-1074) (floorLog2 num den - 52) + 1074).toNat := by
  have two : (2 : ℚ) ≠ 0 := two_ne_zero
  obtain ⟨least, most⟩ := floorLog2_spec positive positiveDen
  generalize floorLog2 num den = k at *
  generalize isExponent : (max (-1074) (k - 52) + 1074).toNat = exponent
  -- powers of any sign, so that no difference of exponents is cut off
  have power (n : Nat) : ((2 ^ n : Nat) : ℚ) = 2 ^ (n : Int) := by
    rw [zpow_natCast, Nat.cast_pow, Nat.cast_ofNat]
  have shift (n : Nat) : ((2 ^ n * (den * 2 ^ exponent) : Nat) : ℚ) =
      den * 2 ^ ((n : Int) + exponent - 1074) * 2 ^ (1074 : Int) := by
    rw [Nat.cast_mul, Nat.cast_mul, power, power, mul_assoc, ← zpow_add₀ two, mul_left_comm,
      ← zpow_add₀ two, sub_add_cancel]
  have ratio : ((num * 2 ^ 1074 : Nat) : ℚ) = num * 2 ^ (1074 : Int) := by
    rw [Nat.cast_mul, power]
    rfl
  have positivePower : (0 : ℚ) < 2 ^ (1074 : Int) := by positivity
  constructor
  · rcases Int.lt_or_le (-1074) (k - 52) with large | small
    · right
      have same : ((52 : Nat) : Int) + exponent - 1074 = k := by omega
      rw [← Nat.cast_le (α := ℚ), shift, ratio, same]
      exact mul_le_mul_of_nonneg_right least positivePower.le
    · left
      omega
  · have enough : k + 1 ≤ ((53 : Nat) : Int) + exponent - 1074 := by omega
    rw [← Nat.cast_lt (α := ℚ), shift, ratio]
    apply mul_lt_mul_of_pos_right _ positivePower
    calc (num : ℚ) < den * 2 ^ (k + 1) := most
      _ ≤ den * 2 ^ (((53 : Nat) : Int) + exponent - 1074) :=
        mul_le_mul_of_nonneg_left (zpow_le_zpow_right₀ one_le_two enough) den.cast_nonneg

/-- Rounding to a multiple of the unit of the last place is rounding to the nearest number: those
below this range of exponents are further off than its first one. -/
theorem nearest_of_lastPlace {exponent : Nat} (positiveDen : 0 < den)
    (place : LastPlace num den exponent) :
    Nearest num den
      (exponent * 2 ^ 52 + nearestQuotient (num * 2 ^ 1074) (den * 2 ^ exponent)) := by
  have positive : 0 < den * 2 ^ exponent := Nat.mul_pos positiveDen (Nat.two_pow_pos exponent)
  have inPlaces (steps : Nat) : steps * 2 ^ exponent * den = steps * (den * 2 ^ exponent) := by
    rw [Nat.mul_assoc, Nat.mul_comm den]
  obtain ⟨least, most⟩ := place
  unfold Nearest
  generalize num * 2 ^ 1074 = ratio at *
  have atLeast := least.imp_right (le_nearestQuotient positive)
  have rounded := unitsOf_add atLeast (nearestQuotient_le positive most.le)
  intro other different
  have parity : (exponent * 2 ^ 52 + nearestQuotient ratio (den * 2 ^ exponent)) % 2 =
      nearestQuotient ratio (den * 2 ^ exponent) % 2 := by
    omega
  rw [rounded, inPlaces, parity]
  rcases unitsOf_eq_mul_or_lt exponent other with ⟨steps, multiple⟩ | ⟨raised, small⟩
  · rw [multiple, inPlaces]
    apply nearestQuotient_nearest positive
    rintro rfl
    exact different (strictMono_unitsOf.injective (multiple.trans rounded.symm))
  · left
    have below := Nat.mul_lt_mul_of_pos_right small positiveDen
    rw [inPlaces] at below
    have high := least.resolve_left (Nat.ne_of_gt raised)
    have near : Nat.dist ratio (nearestQuotient ratio (den * 2 ^ exponent) * (den * 2 ^ exponent)) ≤
        Nat.dist ratio (2 ^ 52 * (den * 2 ^ exponent)) := by
      by_cases same : 2 ^ 52 = nearestQuotient ratio (den * 2 ^ exponent)
      · rw [← same]
      · rcases nearestQuotient_nearest positive same with nearer | ⟨tie, -⟩
        · exact nearer.le
        · exact tie.le
    unfold Nat.dist at near ⊢
    omega

/-- In units of the least place, the quotient at a place is the same. -/
theorem nearestQuotient_place (num den : Nat) {unit : Int} (least : -1074 ≤ unit) :
    nearestQuotient (num * 2 ^ (-unit).toNat) (den * 2 ^ unit.toNat) =
      nearestQuotient (num * 2 ^ 1074) (den * 2 ^ (unit + 1074).toNat) := by
  have top : 1074 = (-unit).toNat + (1074 - (-unit).toNat) := by omega
  have place : (unit + 1074).toNat = unit.toNat + (1074 - (-unit).toNat) := by omega
  generalize 1074 - (-unit).toNat = shift at *
  rw [place, top, Nat.pow_add, Nat.pow_add, ← Nat.mul_assoc, ← Nat.mul_assoc,
    nearestQuotient_scale _ _ (Nat.two_pow_pos shift)]

/-- The number with the given bits, where rounding has not gone past the greatest finite one. -/
def ofRounded (bits : Nat) : Binary64 :=
  if infinityBits ≤ bits then infinity else ⟨UInt64.ofNat bits⟩

theorem nearest_zero (positiveDen : 0 < den) : Nearest 0 den 0 := by
  unfold Nearest
  intro other different
  left
  have more := strictMono_unitsOf (Nat.pos_of_ne_zero different)
  rw [Nat.zero_mul, Nat.dist_zero_left, Nat.dist_zero_left]
  exact Nat.mul_lt_mul_of_pos_right more positiveDen

/-- A ratio is rounded to the nearest number, of two to the one with even bits, and what is rounded
to a number past the greatest one is infinite. -/
theorem ofRatio_nearest (num : Nat) (positiveDen : 0 < den) :
    ∃ bits, Nearest num den bits ∧ ofRatio num den = ofRounded bits := by
  rcases Nat.eq_zero_or_pos num with rfl | positive
  · have finite : ¬ infinityBits ≤ 0 := by decide
    refine ⟨0, nearest_zero positiveDen, ?_⟩
    rw [ofRatio, if_pos rfl, ofRounded, if_neg finite]
    rfl
  · refine ⟨_, nearest_of_lastPlace positiveDen (lastPlace_of_floorLog2 positive positiveDen), ?_⟩
    rw [← nearestQuotient_place num den (Int.le_max_left _ _), ofRounded, ofRatio,
      if_neg (Nat.ne_of_gt positive)]
    simp only [Nat.pow_eq]

end DialogueTyping.Binary64

/-- A decimal is read as the nearest number. -/
theorem DialogueTyping.Numeral.Decimal.toBinary64_nearest (decimal : Decimal) :
    ∃ bits, Binary64.Nearest (decimal.significand * 10 ^ decimal.exponent.toNat)
        (10 ^ (-decimal.exponent).toNat) bits ∧
      decimal.toBinary64 = Binary64.ofRounded bits :=
  Binary64.ofRatio_nearest _ (Nat.pow_pos (by decide))
