import Mathlib.Data.Int.Log
import Mathlib.Data.Rat.Floor
import Mathlib.Tactic.FieldSimp
import Mathlib.Tactic.Linarith
import Mathlib.Tactic.NormNum
import Mathlib.Tactic.Positivity
import Mathlib.Tactic.Ring
import PagedSearch.Number.Shortest

/-!
# Rounding to doubles

A quotient is rounded to a double by finding the exponent first, and then by rounding to a whole
number of units of that exponent.  So the numbers that are rounded to a double are those in an
interval around it, which reaches halfway to its neighbours; the ends belong to it if its
significand is even.  At a power of two the neighbour below is closer, and a number just below that
power is rounded up to it from the smaller exponent.

## Main definitions

* `Double.IsCanonical` — the significands and exponents of finite doubles.
* `Double.Rounds` — the numbers that are rounded to a double.

## Main results

* `Double.exponentFor_eq` — the exponent of a double near a quotient.
* `Double.ofRatio_of_rounds`, `Double.ofDecimal_of_rounds` — numbers in the interval of a double are
  rounded to it.
* `Double.readsBack_iff` — the numbers that read back as a double are those in its interval.
-/

namespace PagedSearch.Double

/-! ### Powers -/

theorem power_pos {base : Nat} (hbase : 0 < base) (scale : Int) :
    0 < (power base scale).1 ∧ 0 < (power base scale).2 := by
  unfold power
  split
  · exact ⟨Nat.pow_pos hbase, Nat.one_pos⟩
  · exact ⟨Nat.one_pos, Nat.pow_pos hbase⟩

/-- The numerator and the denominator are those of the power. -/
theorem power_ratio (base : Nat) (scale : Int) :
    ((power base scale).1 : ℚ) / (power base scale).2 = (base : ℚ) ^ scale := by
  unfold power
  split
  · rename_i hscale
    obtain ⟨n, rfl⟩ := Int.eq_ofNat_of_zero_le hscale
    simp
  · rename_i hscale
    obtain ⟨n, rfl⟩ : ∃ n : Nat, scale = -n := ⟨(-scale).toNat, by omega⟩
    simp

/-- A quotient of products with a power. -/
theorem mul_power_div (base : Nat) (scale : Int) (num den : Nat) :
    ((num * (power base scale).2 : Nat) : ℚ) / (den * (power base scale).1 : Nat) =
      num / den / (base : ℚ) ^ scale := by
  rw [← power_ratio, Nat.cast_mul, Nat.cast_mul, div_div_div_eq, mul_comm (den : ℚ)]

/-! ### Rounding to whole numbers -/

/-- The quotient is rounded to the number that it is nearest to, and if it is halfway between two
numbers, to the even one. -/
theorem roundDiv_eq {num den n : Nat} (hden : 0 < den) (hlower : (n : ℚ) - 1 / 2 ≤ num / den)
    (hupper : (num / den : ℚ) ≤ n + 1 / 2)
    (hodd : n % 2 = 1 → (n : ℚ) - 1 / 2 < num / den ∧ (num / den : ℚ) < n + 1 / 2) :
    roundDiv num den = n := by
  have hden' : (0 : ℚ) < den := Nat.cast_pos.mpr hden
  have hlow : 2 * (den * n) ≤ 2 * num + den := by
    rw [le_div_iff₀ hden'] at hlower
    have : (2 * (den * n) : ℚ) ≤ 2 * num + den := by linarith
    exact_mod_cast this
  have hupp : 2 * num ≤ 2 * (den * n) + den := by
    rw [div_le_iff₀ hden'] at hupper
    have : (2 * num : ℚ) ≤ 2 * (den * n) + den := by linarith
    exact_mod_cast this
  have hstrict : n % 2 = 1 → 2 * (den * n) < 2 * num + den ∧ 2 * num < 2 * (den * n) + den := by
    intro h
    obtain ⟨hlower, hupper⟩ := hodd h
    rw [lt_div_iff₀ hden'] at hlower
    rw [div_lt_iff₀ hden'] at hupper
    have hlow : (2 * (den * n) : ℚ) < 2 * num + den := by linarith
    have hupp : (2 * num : ℚ) < 2 * (den * n) + den := by linarith
    exact ⟨by exact_mod_cast hlow, by exact_mod_cast hupp⟩
  -- The number is the quotient of the division or the one after it.
  have hdiv := Nat.div_add_mod num den
  have hrest := Nat.mod_lt num hden
  unfold roundDiv
  dsimp only
  generalize num / den = quotient at hdiv ⊢
  generalize num % den = rest at hdiv hrest ⊢
  have hle : quotient ≤ n := by
    by_contra h
    have := Nat.mul_le_mul_left den (Nat.succ_le_of_lt (not_le.mp h))
    rw [Nat.mul_succ] at this
    omega
  have hge : n ≤ quotient + 1 := by
    by_contra h
    have := Nat.mul_le_mul_left den (Nat.succ_le_of_lt (not_le.mp h))
    rw [Nat.mul_succ, Nat.mul_succ] at this
    omega
  obtain rfl | rfl : n = quotient ∨ n = quotient + 1 := by omega
  · split_ifs with hless hmore
    · rfl
    · omega
    · have heven : n % 2 ≠ 1 := fun h => by
        have := hstrict h
        omega
      omega
  · rw [Nat.mul_succ] at hlow hstrict
    split_ifs with hless hmore
    · omega
    · rfl
    · have hodd : (quotient + 1) % 2 ≠ 1 := fun h => by
        have := hstrict h
        omega
      omega

/-! ### The exponent -/

/-- The number between two powers of two that follow each other. -/
theorem log_eq {x : ℚ} {exponent : Int} (hlower : (2 : ℚ) ^ exponent ≤ x)
    (hupper : x < 2 ^ (exponent + 1)) : Int.log 2 x = exponent := by
  have hpos : 0 < x := lt_of_lt_of_le (zpow_pos two_pos _) hlower
  refine le_antisymm ?_
    ((Int.zpow_le_iff_le_log (b := 2) one_lt_two hpos).mp (by exact_mod_cast hlower))
  exact Int.lt_add_one_iff.mp
    ((Int.lt_zpow_iff_log_lt (b := 2) one_lt_two hpos).mp (by exact_mod_cast hupper))

/-- The binary logarithms of a numerator and a denominator tell that of the quotient, up to one. -/
theorem zpow_log2_bounds {num den : Nat} (hnum : 0 < num) (hden : 0 < den) :
    (2 : ℚ) ^ ((num.log2 : Int) - den.log2 - 1) ≤ num / den ∧
      (num / den : ℚ) < 2 ^ ((num.log2 : Int) - den.log2 + 1) := by
  have hnum' : ((2 ^ num.log2 : Nat) : ℚ) ≤ num := Nat.cast_le.mpr (Nat.log2_self_le hnum.ne')
  have hnum'' : (num : ℚ) < (2 ^ (num.log2 + 1) : Nat) := Nat.cast_lt.mpr Nat.lt_log2_self
  have hden' : ((2 ^ den.log2 : Nat) : ℚ) ≤ den := Nat.cast_le.mpr (Nat.log2_self_le hden.ne')
  have hden'' : (den : ℚ) < (2 ^ (den.log2 + 1) : Nat) := Nat.cast_lt.mpr Nat.lt_log2_self
  push_cast at hnum' hnum'' hden' hden''
  have hpos : (0 : ℚ) < den := Nat.cast_pos.mpr hden
  constructor
  · rw [sub_sub, ← Nat.cast_succ, zpow_sub₀ two_ne_zero, zpow_natCast, zpow_natCast]
    exact div_le_div₀ (by positivity) hnum' hpos hden''.le
  · rw [sub_add_eq_add_sub, ← Nat.cast_succ, zpow_sub₀ two_ne_zero, zpow_natCast, zpow_natCast]
    exact div_lt_div₀ hnum'' hden' (by positivity) (by positivity)

/-- A double near a quotient has 53 binary digits, unless the quotient is too small. -/
theorem exponentFor_eq {num den : Nat} (hnum : 0 < num) (hden : 0 < den) :
    exponentFor num den = max (Int.log 2 (num / den : ℚ) - 52) (-1074) := by
  obtain ⟨hlower, hupper⟩ := zpow_log2_bounds hnum hden
  have hguess := mul_power_div 2 ((num.log2 : Int) - den.log2 - 52) num den
  obtain ⟨hup, hdown⟩ := power_pos two_pos ((num.log2 : Int) - den.log2 - 52)
  rw [Nat.cast_ofNat] at hguess
  obtain ⟨scale, hscale⟩ : ∃ scale : Int, (num.log2 : Int) - den.log2 = scale + 52 :=
    ⟨(num.log2 : Int) - den.log2 - 52, by omega⟩
  unfold exponentFor
  dsimp only
  rw [hscale] at hlower hupper hguess hup hdown ⊢
  rw [add_sub_cancel_right] at hguess hup hdown ⊢
  have hlarge : (0 : ℚ) < (den * (power 2 scale).1 : Nat) := Nat.cast_pos.mpr (Nat.mul_pos hden hup)
  have htest : num * (power 2 scale).2 < Nat.pow 2 52 * (den * (power 2 scale).1) ↔
      (num / den : ℚ) < 2 ^ (scale + 52) := by
    rw [← Nat.cast_lt (α := ℚ), Nat.cast_mul (Nat.pow 2 52), ← div_lt_iff₀ hlarge, hguess,
      div_lt_iff₀ (zpow_pos two_pos scale), zpow_add₀ two_ne_zero, mul_comm]
    norm_num
  split_ifs with hless
  · rw [log_eq hlower (by rw [sub_add_cancel]; exact htest.mp hless)]
    congr 1
    omega
  · rw [log_eq (not_lt.mp (mt htest.mpr hless)) hupper]
    congr 1
    omega

/-! ### The interval of a double -/

/-- The significands and exponents of finite doubles. -/
structure IsCanonical (significand : Nat) (exponent : Int) : Prop where
  /-- A significand has 53 binary digits. -/
  significand_lt : significand < 2 ^ 53
  /-- The exponent is not too small. -/
  exponent_ge : -1074 ≤ exponent
  /-- The exponent is not too large. -/
  exponent_le : exponent ≤ 971
  /-- All digits are used, unless the exponent is the smallest. -/
  normal : 2 ^ 52 ≤ significand ∨ exponent = -1074

/-- The numbers between halfway points of a double and its neighbours, which belong to it if the
significand is even. -/
structure Rounds (significand : Nat) (exponent : Int) (x : ℚ) : Prop where
  /-- The number is not too small. -/
  lower : ((roundingBounds significand exponent).1 : ℚ) ≤ 4 * (x / 2 ^ exponent)
  /-- The number is not too large. -/
  upper : 4 * (x / 2 ^ exponent) ≤ (roundingBounds significand exponent).2
  /-- It is not halfway to a neighbour of a double with an odd significand. -/
  strict : significand % 2 = 1 →
    ((roundingBounds significand exponent).1 : ℚ) < 4 * (x / 2 ^ exponent) ∧
      4 * (x / 2 ^ exponent) < (roundingBounds significand exponent).2

/-- A quotient is rounded to a whole number of units. -/
theorem ofRatio_of_roundDiv {negative : Bool} {num den significand : Nat} {exponent : Int}
    (hnum : 0 < num) (hexponent : exponentFor num den = exponent)
    (hround : roundDiv (num * (power 2 exponent).2) (den * (power 2 exponent).1) = significand) :
    ofRatio negative num den =
      if significand = 2 ^ 53 then
        if 971 < exponent + 1 then .infinite negative
        else .finite negative (2 ^ 52) (exponent + 1)
      else if 971 < exponent then .infinite negative
      else .finite negative significand exponent := by
  unfold ofRatio
  rw [if_neg hnum.ne']
  dsimp only
  rw [hexponent, hround]
  by_cases hcarry : significand = 2 ^ 53
  · rw [if_pos (show significand = Nat.pow 2 53 from hcarry), if_pos hcarry]
    rfl
  · rw [if_neg (show significand ≠ Nat.pow 2 53 from hcarry), if_neg hcarry]

section Rounding

variable {significand : Nat} {exponent : Int} {x : ℚ}

/-- The interval reaches at most half a unit in both directions. -/
theorem Rounds.bounds (h : Rounds significand exponent x) :
    (significand : ℚ) - 1 / 2 ≤ x / 2 ^ exponent ∧ x / 2 ^ exponent ≤ significand + 1 / 2 ∧
      (significand % 2 = 1 →
        (significand : ℚ) - 1 / 2 < x / 2 ^ exponent ∧ x / 2 ^ exponent < significand + 1 / 2) := by
  obtain ⟨hlower, hupper, hstrict⟩ := h
  have hbelow : 4 * significand ≤ (roundingBounds significand exponent).1 + 2 := by
    unfold roundingBounds
    dsimp only
    split_ifs <;> omega
  have hbelow' : (4 * significand : ℚ) ≤ (roundingBounds significand exponent).1 + 2 := by
    exact_mod_cast hbelow
  have habove : ((roundingBounds significand exponent).2 : ℚ) = 4 * significand + 2 := by
    unfold roundingBounds
    push_cast
    rfl
  rw [habove] at hupper hstrict
  refine ⟨by linarith, by linarith, fun hodd => ?_⟩
  obtain ⟨hlower, hupper⟩ := hstrict hodd
  exact ⟨by linarith, by linarith⟩

/-- A number that is rounded to a power of two from below is close to it. -/
theorem Rounds.lower_of_power (h : Rounds (2 ^ 52) exponent x) (hexponent : -1074 < exponent) :
    (2 : ℚ) ^ 52 - 1 / 4 ≤ x / 2 ^ exponent := by
  have hlower := h.lower
  have hbounds : (roundingBounds (2 ^ 52) exponent).1 = 4 * 2 ^ 52 - 1 := by
    unfold roundingBounds
    rw [if_pos ⟨rfl, hexponent⟩]
  rw [hbounds] at hlower
  norm_num at hlower ⊢
  linarith

/-- A double near a number has the exponent of the double that the number is rounded to, or, if that
is a power of two, the exponent of the doubles below it. -/
theorem Rounds.log_cases (hcanonical : IsCanonical significand exponent)
    (h : Rounds significand exponent x) (hpos : 0 < x) :
    max (Int.log 2 x - 52) (-1074) = exponent ∨
      significand = 2 ^ 52 ∧ -1074 < exponent ∧ x / 2 ^ exponent < 2 ^ 52 ∧
        max (Int.log 2 x - 52) (-1074) = exponent - 1 := by
  obtain ⟨hlower, hupper, -⟩ := h.bounds
  have hunit : (0 : ℚ) < 2 ^ exponent := zpow_pos two_pos _
  have hsignificand : (significand : ℚ) + 1 ≤ 2 ^ 53 := by exact_mod_cast hcanonical.significand_lt
  have hexponent := hcanonical.exponent_ge
  have hscale (n : Nat) : (2 : ℚ) ^ ((n : Int) + exponent) = 2 ^ n * 2 ^ exponent := by
    rw [zpow_add₀ two_ne_zero, zpow_natCast]
  have hlt (n : Nat) : x / 2 ^ exponent < 2 ^ n ↔ Int.log 2 x < n + exponent := by
    rw [div_lt_iff₀ hunit, ← hscale]
    exact_mod_cast Int.lt_zpow_iff_log_lt (b := 2) one_lt_two hpos
  have hlarge : Int.log 2 x < (53 : Nat) + exponent := (hlt 53).mp (by linarith)
  by_cases hsame : max (Int.log 2 x - 52) (-1074) = exponent
  · exact .inl hsame
  · -- the number is below the power of two that it is rounded to
    have hsmaller : x / 2 ^ exponent < 2 ^ 52 := (hlt 52).mpr (by omega)
    have hnormal : 2 ^ 52 ≤ significand := hcanonical.normal.resolve_right (by omega)
    have hpower : significand ≤ 2 ^ 52 := by
      have hnear : (significand : ℚ) < 2 ^ 52 + 1 := by linarith
      exact Nat.lt_succ_iff.mp (by exact_mod_cast hnear)
    obtain rfl := le_antisymm hpower hnormal
    have hclose := h.lower_of_power (by omega)
    have hnext : ¬Int.log 2 x < (51 : Nat) + exponent := by
      rw [← hlt]
      exact not_lt.mpr (le_trans (by norm_num) hclose)
    exact .inr ⟨rfl, by omega, hsmaller, by omega⟩

/-- A number in the interval of a double is rounded to it. -/
theorem ofRatio_of_rounds (hcanonical : IsCanonical significand exponent) {num den : Nat}
    (hnum : 0 < num) (hden : 0 < den) (h : Rounds significand exponent (num / den))
    (negative : Bool) : ofRatio negative num den = .finite negative significand exponent := by
  have hnum' : (0 : ℚ) < num := Nat.cast_pos.mpr hnum
  have hden' : (0 : ℚ) < den := Nat.cast_pos.mpr hden
  have hquotient (scale : Int) := mul_power_div 2 scale num den
  simp only [Nat.cast_ofNat] at hquotient
  have hunits (scale : Int) : 0 < den * (power 2 scale).1 :=
    Nat.mul_pos hden (power_pos two_pos scale).1
  rcases h.log_cases hcanonical (div_pos hnum' hden') with
    hexponent | ⟨rfl, hlarge, hbelow, hexponent⟩ <;>
    rw [← exponentFor_eq hnum hden] at hexponent
  · obtain ⟨hlower, hupper, hodd⟩ := h.bounds
    rw [← hquotient] at hlower hupper hodd
    rw [ofRatio_of_roundDiv hnum hexponent (roundDiv_eq (hunits _) hlower hupper hodd),
      if_neg hcanonical.significand_lt.ne, if_neg (not_lt.mpr hcanonical.exponent_le)]
  · -- With the smaller exponent the significand is rounded up to the next power of two.
    have hclose := h.lower_of_power hlarge
    have hdouble : (num / den : ℚ) / 2 ^ (exponent - 1) = num / den / 2 ^ exponent * 2 := by
      rw [zpow_sub_one₀ two_ne_zero]
      field_simp
    have hlower : ((2 ^ 53 : Nat) : ℚ) - 1 / 2 ≤ num / den / 2 ^ (exponent - 1) := by
      rw [hdouble]
      push_cast
      linarith
    have hupper : (num / den : ℚ) / 2 ^ (exponent - 1) < (2 ^ 53 : Nat) := by
      rw [hdouble]
      push_cast
      linarith
    rw [← hquotient] at hlower hupper
    have hround := roundDiv_eq (hunits _) hlower (by linarith) fun hodd => absurd hodd (by decide)
    rw [ofRatio_of_roundDiv hnum hexponent hround, if_pos rfl, sub_add_cancel,
      if_neg (not_lt.mpr hcanonical.exponent_le)]

/-- A decimal number in the interval of a double is rounded to it. -/
theorem ofDecimal_of_rounds (hcanonical : IsCanonical significand exponent) {digits : Nat}
    {scale : Int} (hdigits : 0 < digits) (h : Rounds significand exponent (digits * 10 ^ scale))
    (negative : Bool) :
    ofDecimal negative digits scale = .finite negative significand exponent := by
  obtain ⟨hup, hdown⟩ := power_pos (show 0 < 10 by decide) scale
  unfold ofDecimal
  rw [if_neg hdigits.ne']
  refine ofRatio_of_rounds hcanonical (Nat.mul_pos hdigits hup) hdown ?_ negative
  have hratio := power_ratio 10 scale
  rw [Nat.cast_ofNat] at hratio
  rwa [Nat.cast_mul, mul_div_assoc, hratio]

/-- The numbers that read back as a double are those in its interval. -/
theorem readsBack_iff {scale : Int} {n : Nat} :
    readsBack significand exponent scale n = true ↔
      Rounds significand exponent (n * 10 ^ scale) := by
  obtain ⟨hup, hdown⟩ := power_pos two_pos exponent
  obtain ⟨htenUp, htenDown⟩ := power_pos (show 0 < 10 by decide) scale
  have htwo := power_ratio 2 exponent
  have hten := power_ratio 10 scale
  have hdown' : ((power 2 exponent).2 : ℚ) ≠ 0 := Nat.cast_ne_zero.mpr hdown.ne'
  have hup' : ((power 2 exponent).1 : ℚ) ≠ 0 := Nat.cast_ne_zero.mpr hup.ne'
  have htenDown' : ((power 10 scale).2 : ℚ) ≠ 0 := Nat.cast_ne_zero.mpr htenDown.ne'
  rw [Nat.cast_ofNat] at htwo hten
  have hunit : (0 : ℚ) < ((power 2 exponent).1 * (power 10 scale).2 : Nat) :=
    Nat.cast_pos.mpr (Nat.mul_pos hup htenDown)
  have hquotient : 4 * ((n : ℚ) * 10 ^ scale / 2 ^ exponent) =
      (4 * n * (power 10 scale).1 * (power 2 exponent).2 : Nat) /
        ((power 2 exponent).1 * (power 10 scale).2 : Nat) := by
    rw [← htwo, ← hten]
    push_cast
    field_simp
  have hlower (bound : Nat) : (bound : ℚ) ≤ 4 * ((n : ℚ) * 10 ^ scale / 2 ^ exponent) ↔
      bound * ((power 2 exponent).1 * (power 10 scale).2) ≤
        4 * n * (power 10 scale).1 * (power 2 exponent).2 := by
    rw [hquotient, le_div_iff₀ hunit]
    exact_mod_cast Iff.rfl
  have hupper (bound : Nat) : 4 * ((n : ℚ) * 10 ^ scale / 2 ^ exponent) ≤ bound ↔
      4 * n * (power 10 scale).1 * (power 2 exponent).2 ≤
        bound * ((power 2 exponent).1 * (power 10 scale).2) := by
    rw [hquotient, div_le_iff₀ hunit]
    exact_mod_cast Iff.rfl
  unfold readsBack
  dsimp only
  split_ifs with heven
  · rw [Bool.and_eq_true, decide_eq_true_eq, decide_eq_true_eq, ← hlower, ← hupper]
    refine ⟨fun h => ⟨h.1, h.2, fun hodd => ?_⟩, fun h => ⟨h.lower, h.upper⟩⟩
    omega
  · rw [Bool.and_eq_true, decide_eq_true_eq, decide_eq_true_eq, ← not_le, ← not_le, ← hlower,
      ← hupper, not_le, not_le]
    exact ⟨fun h => ⟨h.1.le, h.2.le, fun _ => h⟩, fun h => h.strict (by omega)⟩

end Rounding

end PagedSearch.Double
