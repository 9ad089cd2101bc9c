import Mathlib.Algebra.Order.Floor.Semifield
import Mathlib.Data.List.DropRight
import Mathlib.Data.Nat.Cast.Order.Field
import PagedSearch.Number.Reading
import PagedSearch.Proofs.Rounding

/-!
# The decimal digits of doubles

The fewest digits that read back as a double are searched for among the multiples of a power of ten
next to it.  With seventeen digits the search succeeds, since the multiples are then closer together
than the doubles.  Whatever it finds is in the interval of the double, and so is what is left
without the zeros at its end.

The multiple that is found can be the next power of ten, so the decimal point of the digits is not
always that of the double.  At `10 ^ -5` and at `10 ^ 16`, where the layout changes, it is, since
the doubles nearest to these numbers are not below them.

## Main definitions

* `Decimal.value` — the number that digits with a decimal point stand for.
* `Decimal.LaidOut` — digits as they are written without an exponent.
* `Double.pointOf` — the place of the decimal point in a double.

## Main results

* `Double.zpow_decimalPoint_bounds` — the place of the decimal point in a quotient.
* `Double.Rounds.of_near` — a number that agrees with a double in sixteen digits is rounded to it.
* `Double.shortest_rounds` — the shortest digits stand for a number that is rounded to the double.
* `Double.point_shortest_iff` — in which doubles the decimal point is near the shortest digits.
* `Decimal.exists_laidOut` — digits that are written without an exponent stand for the same number.
-/

namespace PagedSearch

/-! ### Digits -/

theorem digitsValue_append (first second : List Char) :
    digitsValue (first ++ second) =
      digitsValue first * 10 ^ second.length + digitsValue second := by
  have happend : digitsValue (first ++ second) = Nat.ofDigitChars 10 second (digitsValue first) :=
    Nat.ofDigitChars_append 0
  rw [happend, Nat.ofDigitChars_eq_ofDigitChars_zero, mul_comm]
  rfl

theorem digitsValue_zeros (count : Nat) : digitsValue (List.replicate count '0') = 0 := by
  induction count with
  | zero => rfl
  | succ count ih =>
    rw [List.replicate_succ', digitsValue_append, ih]
    rfl

theorem digitsValue_decimalDigits (n : Nat) : digitsValue (decimalDigits n) = n :=
  Nat.ofDigitChars_toDigits (by decide) (by decide)

/-- A number is between the powers of ten that its digits say. -/
theorem exists_length_decimalDigits {n : Nat} (hpos : 0 < n) :
    ∃ count, (decimalDigits n).length = count + 1 ∧ 10 ^ count ≤ n ∧ n < 10 ^ (count + 1) := by
  obtain ⟨count, hcount⟩ : ∃ count, (decimalDigits n).length = count + 1 :=
    ⟨_, (Nat.succ_pred_eq_of_pos Nat.length_toDigits_pos).symm⟩
  have hle {k : Nat} (hk : 0 < k) : count + 1 ≤ k ↔ n < 10 ^ k := by
    rw [← hcount]
    exact Nat.length_toDigits_le_iff (by decide) hk
  refine ⟨count, hcount, ?_, (hle (Nat.succ_pos count)).mp le_rfl⟩
  rcases Nat.eq_zero_or_pos count with rfl | hcountPos
  · exact hpos
  · exact not_lt.mp fun hlt => absurd ((hle hcountPos).mpr hlt) (Nat.not_succ_le_self count)

theorem length_decimalDigits_eq {n count : Nat} (hlower : 10 ^ count ≤ n)
    (hupper : n < 10 ^ (count + 1)) : (decimalDigits n).length = count + 1 := by
  obtain ⟨less, hless, hle, hlt⟩ :=
    exists_length_decimalDigits (Nat.lt_of_lt_of_le (by positivity) hlower)
  have hfirst := (Nat.pow_lt_pow_iff_right (by decide : 1 < 10)).mp (hlower.trans_lt hlt)
  have hsecond := (Nat.pow_lt_pow_iff_right (by decide : 1 < 10)).mp (hle.trans_lt hupper)
  omega

/-- The zeros at the end of digits can be taken off. -/
theorem exists_zeros (digits : List Char) :
    ∃ count, digits = digits.rdropWhile (· == '0') ++ List.replicate count '0' := by
  have hzeros : digits.rtakeWhile (· == '0') =
      List.replicate (digits.rtakeWhile (· == '0')).length '0' :=
    List.eq_replicate_iff.mpr ⟨rfl, fun c hc => by simpa using List.mem_rtakeWhile_imp hc⟩
  exact ⟨_, by rw [← hzeros, List.rdropWhile_append_rtakeWhile]⟩

/-- Zeros behind digits count as the place of the decimal point. -/
theorem digitsValue_append_zeros (digits : List Char) (count : Nat) (scale : Int) :
    (digitsValue (digits ++ List.replicate count '0') * 10 ^ scale : ℚ) =
      digitsValue digits * 10 ^ (scale + count) := by
  rw [digitsValue_append, digitsValue_zeros, List.length_replicate, zpow_add₀ (by norm_num),
    zpow_natCast]
  push_cast
  ring

/-- The number that digits with a decimal point stand for. -/
def Decimal.value (d : Decimal) : ℚ := digitsValue d.digits * 10 ^ (d.point - d.digits.length)

namespace Double

variable {significand : Nat} {exponent : Int}

/-! ### Where the decimal point is -/

/-- The first digit of a quotient counts one power of ten less than the place of the decimal point
says. -/
theorem zpow_decimalPoint_bounds {num den : Nat} (hnum : 0 < num) (hden : 0 < den) :
    (10 : ℚ) ^ (decimalPoint num den - 1) ≤ num / den ∧
      (num / den : ℚ) < 10 ^ decimalPoint num den := by
  have hnum' : (0 : ℚ) < num := Nat.cast_pos.mpr hnum
  have hden' : (0 : ℚ) < den := Nat.cast_pos.mpr hden
  unfold decimalPoint
  split_ifs with hle
  · -- The whole number in front of the decimal point has that many digits.
    obtain ⟨count, hcount, hlower, hupper⟩ := exists_length_decimalDigits (Nat.div_pos hle hden)
    rw [hcount, Nat.cast_succ, add_sub_cancel_right, ← Nat.cast_succ, zpow_natCast, zpow_natCast]
    constructor
    · calc (10 : ℚ) ^ count = (10 ^ count : Nat) := by push_cast; rfl
        _ ≤ (num / den : Nat) := Nat.cast_le.mpr hlower
        _ ≤ num / den := Nat.cast_div_le
    · rw [div_lt_iff₀ hden']
      exact_mod_cast (Nat.div_lt_iff_lt_mul hden).mp hupper
  · -- One over the number, rounded up and less one, has the zeros behind the decimal point.
    generalize hceil : (den + num - 1) / num = ceil
    have hdiv := Nat.div_add_mod (den + num - 1) num
    have hmod := Nat.mod_lt (den + num - 1) hnum
    rw [hceil] at hdiv
    obtain ⟨before, rfl⟩ : ∃ before, ceil = before + 1 := by
      refine Nat.exists_eq_succ_of_ne_zero ?_
      rintro rfl
      omega
    rw [Nat.mul_succ] at hdiv
    have hbefore : num * before < den := by omega
    have hafter : den ≤ num * (before + 1) := by rw [Nat.mul_succ]; omega
    have hpos : 0 < before := by
      refine Nat.pos_of_ne_zero ?_
      rintro rfl
      omega
    obtain ⟨count, hcount, hlower, hupper⟩ := exists_length_decimalDigits hpos
    rw [Nat.add_sub_cancel, hcount]
    have hlarge : den ≤ num * 10 ^ (count + 1) :=
      hafter.trans (Nat.mul_le_mul_left num hupper)
    have hsmall : num * 10 ^ count < den := (Nat.mul_le_mul_left num hlower).trans_lt hbefore
    rw [show (1 - ((count + 1 : Nat) : Int) - 1) = -((count + 1 : Nat) : Int) by omega,
      show (1 - ((count + 1 : Nat) : Int)) = -(count : Int) by omega, zpow_neg, zpow_neg,
      zpow_natCast, zpow_natCast, le_div_iff₀ hden', div_lt_iff₀ hden',
      inv_mul_le_iff₀ (by positivity), lt_inv_mul_iff₀ (by positivity), mul_comm,
      mul_comm _ (num : ℚ)]
    exact ⟨by exact_mod_cast hlarge, by exact_mod_cast hsmall⟩

/-! ### What is close enough -/

/-- A number that agrees with a double in its first sixteen digits is rounded to it. -/
theorem Rounds.of_near (hcanonical : IsCanonical significand exponent) (hpos : 0 < significand)
    {x : ℚ} (h : |x / 2 ^ exponent - significand| * (2 * 10 ^ 16) ≤ significand) :
    Rounds significand exponent x := by
  have hlarge : (significand : ℚ) < 2 ^ 53 := by exact_mod_cast hcanonical.significand_lt
  obtain ⟨hbelow, habove⟩ := abs_le.mp (le_refl |x / 2 ^ exponent - significand|)
  have hhalf : |x / 2 ^ exponent - significand| < 1 / 2 := by linarith
  have hlower : ((roundingBounds significand exponent).1 : ℚ) < 4 * (x / 2 ^ exponent) := by
    unfold roundingBounds
    dsimp only
    split_ifs with hpower
    · -- Below a power of two the next double is closer, but so is the number.
      obtain ⟨rfl, -⟩ := hpower
      norm_num at h hbelow ⊢
      linarith
    · have hcast : ((4 * significand - 2 : Nat) : ℚ) = 4 * significand - 2 := by
        rw [Nat.cast_sub (by omega)]
        push_cast
        rfl
      rw [hcast]
      linarith
  have hupper : 4 * (x / 2 ^ exponent) < (roundingBounds significand exponent).2 := by
    unfold roundingBounds
    push_cast
    linarith
  exact ⟨hlower.le, hupper.le, fun _ => ⟨hlower, hupper⟩⟩

/-! ### The search for digits -/

variable {scale : Int} {tie : Tie} {n : Nat}

theorem readsBack_of_onGrid? (h : onGrid? tie significand exponent scale = some n) :
    readsBack significand exponent scale n = true := by
  unfold onGrid? at h
  dsimp only at h
  split at h
  · rename_i hfloor hnext
    obtain rfl := Option.some.inj h
    split_ifs
    exacts [hnext, hfloor]
  · rename_i hfloor _
    exact Option.some.inj h ▸ hfloor
  · rename_i hnext
    exact Option.some.inj h ▸ hnext
  · cases h

theorem floor_grid : ⌊(significand * 2 ^ exponent / 10 ^ scale : ℚ)⌋₊ =
    significand * (power 2 exponent).1 * (power 10 scale).2 /
      ((power 2 exponent).2 * (power 10 scale).1) := by
  have htwo := power_ratio 2 exponent
  have hten := power_ratio 10 scale
  rw [Nat.cast_ofNat] at htwo hten
  rw [← htwo, ← hten, ← Nat.floor_div_eq_div (K := ℚ)]
  congr 1
  push_cast
  rw [mul_div_assoc', div_div_div_eq]

/-- What is found among the multiples of a power of ten is next to the double. -/
theorem floor_of_onGrid? (h : onGrid? tie significand exponent scale = some n) :
    n = ⌊(significand * 2 ^ exponent / 10 ^ scale : ℚ)⌋₊ ∨
      n = ⌊(significand * 2 ^ exponent / 10 ^ scale : ℚ)⌋₊ + 1 := by
  rw [floor_grid]
  unfold onGrid? at h
  dsimp only at h
  split at h
  · obtain rfl := Option.some.inj h
    split_ifs
    exacts [.inr rfl, .inl rfl]
  · exact .inl (Option.some.inj h).symm
  · exact .inr (Option.some.inj h).symm
  · cases h

/-- The multiples around a number are found among the multiples of a power of ten. -/
theorem isSome_onGrid?
    (h : readsBack significand exponent scale ⌊(significand * 2 ^ exponent / 10 ^ scale : ℚ)⌋₊ =
        true ∨
      readsBack significand exponent scale (⌊(significand * 2 ^ exponent / 10 ^ scale : ℚ)⌋₊ + 1) =
        true) :
    (onGrid? tie significand exponent scale).isSome = true := by
  rw [floor_grid] at h
  unfold onGrid?
  dsimp only
  split
  · rfl
  · rfl
  · rfl
  · rename_i hfirst hsecond
    rw [hfirst, hsecond] at h
    simp at h

/-- Among multiples that are at most a part in `10 ^ 16` of a double apart, there is one that is
rounded to it. -/
theorem exists_onGrid? (hcanonical : IsCanonical significand exponent) (hpos : 0 < significand)
    (hscale : (10 : ℚ) ^ (scale + 16) ≤ significand * 2 ^ exponent) :
    (onGrid? tie significand exponent scale).isSome = true := by
  have hunit : (0 : ℚ) < 2 ^ exponent := zpow_pos two_pos _
  have hstep : (0 : ℚ) < 10 ^ scale := zpow_pos (by norm_num) _
  generalize hquotient : (significand * 2 ^ exponent / 10 ^ scale : ℚ) = quotient
  have hlarge : (10 : ℚ) ^ 16 ≤ quotient := by
    rw [← hquotient, le_div_iff₀ hstep]
    rwa [zpow_add₀ (by norm_num), mul_comm] at hscale
  have hnear {n : Nat} (h : |(n : ℚ) - quotient| ≤ 1 / 2) :
      readsBack significand exponent scale n = true := by
    refine readsBack_iff.mpr (.of_near hcanonical hpos ?_)
    have hdistance : (n * 10 ^ scale / 2 ^ exponent - significand : ℚ) =
        (n - quotient) * (10 ^ scale / 2 ^ exponent) := by
      rw [← hquotient]
      field_simp
    have hsignificand : (significand : ℚ) = quotient * (10 ^ scale / 2 ^ exponent) := by
      rw [← hquotient]
      field_simp
    have hratio : (0 : ℚ) < 10 ^ scale / 2 ^ exponent := div_pos hstep hunit
    rw [hdistance, abs_mul, abs_of_pos hratio, mul_right_comm]
    calc |(n : ℚ) - quotient| * (2 * 10 ^ 16) * (10 ^ scale / 2 ^ exponent)
        ≤ quotient * (10 ^ scale / 2 ^ exponent) := by
          refine mul_le_mul_of_nonneg_right ?_ hratio.le
          linarith
      _ = significand := hsignificand.symm
  refine isSome_onGrid? ?_
  rw [hquotient]
  have hfloor := Nat.floor_le (show (0 : ℚ) ≤ quotient by linarith)
  have hnext := Nat.lt_floor_add_one quotient
  by_cases hhalf : quotient - ⌊quotient⌋₊ ≤ 1 / 2
  · left
    refine hnear (abs_le.mpr ⟨?_, ?_⟩) <;> linarith
  · right
    refine hnear (abs_le.mpr ⟨?_, ?_⟩) <;> push_cast <;> linarith

/-- The place of the decimal point in a double. -/
def pointOf (significand : Nat) (exponent : Int) : Int :=
  decimalPoint (significand * (power 2 exponent).1) (power 2 exponent).2

theorem zpow_pointOf_bounds (hpos : 0 < significand) (exponent : Int) :
    (10 : ℚ) ^ (pointOf significand exponent - 1) ≤ significand * 2 ^ exponent ∧
      (significand * 2 ^ exponent : ℚ) < 10 ^ pointOf significand exponent := by
  obtain ⟨hup, hdown⟩ := power_pos two_pos exponent
  have htwo := power_ratio 2 exponent
  rw [Nat.cast_ofNat] at htwo
  have hbounds := zpow_decimalPoint_bounds (Nat.mul_pos hpos hup) hdown
  rwa [Nat.cast_mul, mul_div_assoc, htwo] at hbounds

/-- The search for the shortest digits succeeds. -/
theorem exists_shortest (hcanonical : IsCanonical significand exponent) (hpos : 0 < significand)
    (tie : Tie) :
    ∃ (n count : Nat), 0 < count ∧
      onGrid? tie significand exponent (pointOf significand exponent - count) = some n ∧
      shortest tie significand exponent =
        { digits := (decimalDigits n).rdropWhile (· == '0'),
          point := (decimalDigits n).length + (pointOf significand exponent - count) } := by
  obtain ⟨hlower, -⟩ := zpow_pointOf_bounds hpos exponent
  have hshortest : shortest tie significand exponent =
      let found := ((List.range' 1 17).findSome? fun count =>
        (onGrid? tie significand exponent (pointOf significand exponent - (count : Nat))).map
          fun n => (decimalDigits n, pointOf significand exponent - (count : Int))).getD (['0'], 0)
      { digits := found.1.rdropWhile (· == '0'), point := found.1.length + found.2 } := rfl
  generalize pointOf significand exponent = point at hlower hshortest ⊢
  -- Seventeen digits are enough.
  have hsome : ((List.range' 1 17).findSome? fun count =>
      (onGrid? tie significand exponent (point - (count : Nat))).map fun n =>
        (decimalDigits n, point - (count : Int))).isSome = true := by
    refine List.findSome?_isSome_iff.mpr ⟨17, by decide, ?_⟩
    rw [Option.isSome_map]
    refine exists_onGrid? hcanonical hpos (le_of_eq_of_le ?_ hlower)
    congr 1
    push_cast
    ring
  obtain ⟨found, hfound⟩ := Option.isSome_iff_exists.mp hsome
  obtain ⟨count, hmem, hcount⟩ := List.exists_of_findSome?_eq_some hfound
  obtain ⟨n, hn, rfl⟩ := Option.map_eq_some_iff.mp hcount
  have hone := (List.mem_range'_1.mp hmem).1
  refine ⟨n, count, hone, hn, ?_⟩
  rw [hshortest, hfound]
  rfl

/-- The shortest digits stand for a number that is rounded to the double. -/
theorem shortest_rounds (hcanonical : IsCanonical significand exponent) (hpos : 0 < significand)
    (tie : Tie) : Rounds significand exponent (shortest tie significand exponent).value := by
  obtain ⟨n, count, -, hgrid, hshortest⟩ := exists_shortest hcanonical hpos tie
  obtain ⟨zeros, hzeros⟩ := exists_zeros (decimalDigits n)
  have hrounds := readsBack_iff.mp (readsBack_of_onGrid? hgrid)
  rw [← digitsValue_decimalDigits n, hzeros, digitsValue_append_zeros] at hrounds
  have hscale : ((decimalDigits n).length : Int) + (pointOf significand exponent - count) -
      ((decimalDigits n).rdropWhile (· == '0')).length =
        pointOf significand exponent - count + zeros := by
    have hlength := congrArg List.length hzeros
    rw [List.length_append, List.length_replicate] at hlength
    omega
  rwa [hshortest, Decimal.value, hscale]

/-- The decimal point of the shortest digits is that of the double, unless they are rounded up to
the next power of ten. -/
theorem point_shortest (hcanonical : IsCanonical significand exponent) (hpos : 0 < significand)
    (tie : Tie) :
    (shortest tie significand exponent).point = pointOf significand exponent ∨
      (shortest tie significand exponent).point = pointOf significand exponent + 1 ∧
        Rounds significand exponent (10 ^ pointOf significand exponent) := by
  obtain ⟨n, count, hcount, hgrid, hshortest⟩ := exists_shortest hcanonical hpos tie
  obtain ⟨hlower, hupper⟩ := zpow_pointOf_bounds hpos exponent
  have hfloor := floor_of_onGrid? hgrid
  have hrounds := readsBack_iff.mp (readsBack_of_onGrid? hgrid)
  rw [hshortest]
  dsimp only
  generalize pointOf significand exponent = point at *
  have hstep : (0 : ℚ) < 10 ^ (point - count) := zpow_pos (by norm_num) _
  have hpower : (10 : ℚ) ^ point = (10 ^ count : Nat) * 10 ^ (point - count) := by
    push_cast
    rw [← zpow_natCast, ← zpow_add₀ (by norm_num), add_sub_cancel]
  obtain ⟨less, rfl⟩ : ∃ less, count = less + 1 := ⟨_, (Nat.succ_pred_eq_of_pos hcount).symm⟩
  have hlowerPower : (10 : ℚ) ^ (point - 1) =
      (10 ^ less : Nat) * 10 ^ (point - (less + 1 : Nat)) := by
    push_cast
    rw [← zpow_natCast, ← zpow_add₀ (by norm_num)]
    congr 1
    ring
  rw [hlowerPower, ← le_div_iff₀ hstep] at hlower
  rw [hpower, ← div_lt_iff₀ hstep] at hupper
  have hfloorLower := Nat.le_floor hlower
  have hfloorUpper := (Nat.floor_lt' (by positivity)).mpr hupper
  have hnLower : 10 ^ less ≤ n := by omega
  rcases Nat.lt_or_ge n (10 ^ (less + 1)) with hlt | hge
  · left
    rw [length_decimalDigits_eq hnLower hlt]
    omega
  · -- The next multiple is the next power of ten.
    obtain rfl : n = 10 ^ (less + 1) := by omega
    right
    have hnext : 10 ^ (less + 1) < 10 ^ (less + 2) :=
      Nat.pow_lt_pow_right (by decide) (Nat.lt_succ_self _)
    rw [length_decimalDigits_eq le_rfl hnext, hpower]
    exact ⟨by push_cast; ring, hrounds⟩

/-- The shortest digits are digits. -/
theorem all_isDigit_shortest (hcanonical : IsCanonical significand exponent)
    (hpos : 0 < significand) (tie : Tie) :
    (shortest tie significand exponent).digits.all Char.isDigit = true := by
  obtain ⟨n, count, -, -, hshortest⟩ := exists_shortest hcanonical hpos tie
  rw [hshortest, List.all_eq_true]
  intro c hc
  have hmem : c ∈ Nat.toDigits 10 n := (List.rdropWhile_prefix _ _).mem hc
  exact Nat.isDigit_of_mem_toDigits (by decide) (by decide) hmem

/-- A number that is rounded to a positive double is positive. -/
theorem Rounds.pos (hpos : 0 < significand) {x : ℚ} (h : Rounds significand exponent x) :
    0 < x := by
  obtain ⟨hlower, -, -⟩ := h.bounds
  have hone : (1 : ℚ) ≤ significand := Nat.one_le_cast.mpr hpos
  have hunits : (0 : ℚ) < x / 2 ^ exponent := by linarith
  exact (div_pos_iff_of_pos_right (zpow_pos two_pos _)).mp hunits

/-! ### Which doubles are neither large nor small -/

/-- A number that is rounded to a double determines it. -/
theorem Rounds.eq_of_ofDecimal (hcanonical : IsCanonical significand exponent)
    (hpos : 0 < significand) (h : Rounds significand exponent (10 ^ scale)) {other : Nat}
    {otherExponent : Int} (hother : ofDecimal false 1 scale = .finite false other otherExponent) :
    significand = other ∧ exponent = otherExponent := by
  have hrounds : Rounds significand exponent ((1 : Nat) * 10 ^ scale) := by
    rwa [Nat.cast_one, one_mul]
  have heq := ofDecimal_of_rounds hcanonical Nat.one_pos hrounds false
  rw [hother] at heq
  obtain ⟨-, rfl, rfl⟩ := Double.finite.inj heq
  exact ⟨rfl, rfl⟩

/-- The first of the shortest digits counts from `10 ^ -5` to `10 ^ 15` exactly in the doubles from
`10 ^ -5` to less than `10 ^ 16`. -/
theorem point_shortest_iff (hcanonical : IsCanonical significand exponent) (hpos : 0 < significand)
    (tie : Tie) :
    (-5 ≤ (shortest tie significand exponent).point - 1 ∧
        (shortest tie significand exponent).point - 1 < 16) ↔
      (10 : ℚ) ^ (-5 : Int) ≤ significand * 2 ^ exponent ∧
        (significand * 2 ^ exponent : ℚ) < 10 ^ (16 : Int) := by
  obtain ⟨hlower, hupper⟩ := zpow_pointOf_bounds hpos exponent
  have hpoint := point_shortest hcanonical hpos tie
  generalize pointOf significand exponent = point at *
  generalize (shortest tie significand exponent).point = found at *
  have hlt {a b : Int} : (10 : ℚ) ^ a < 10 ^ b ↔ a < b := zpow_lt_zpow_iff_right₀ (by norm_num)
  have hle {a b : Int} : (10 : ℚ) ^ a ≤ 10 ^ b ↔ a ≤ b := zpow_le_zpow_iff_right₀ (by norm_num)
  have hsmall : (10 : ℚ) ^ (-5 : Int) ≤ significand * 2 ^ exponent ↔ -5 < point :=
    ⟨fun h => hlt.mp (h.trans_lt hupper), fun h => (hle.mpr (by omega)).trans hlower⟩
  have hlarge : (significand * 2 ^ exponent : ℚ) < 10 ^ (16 : Int) ↔ point - 1 < 16 :=
    ⟨fun h => hlt.mp (hlower.trans_lt h), fun h => hupper.trans_le (hle.mpr (by omega))⟩
  rw [hsmall, hlarge]
  rcases hpoint with rfl | ⟨rfl, hrounds⟩
  · omega
  · -- The doubles nearest to `10 ^ -5` and to `10 ^ 16` are not below these numbers.
    have hfirst : point ≠ -5 := by
      rintro rfl
      obtain ⟨rfl, rfl⟩ := hrounds.eq_of_ofDecimal hcanonical hpos
        (show ofDecimal false 1 (-5) = .finite false 5902958103587057 (-69) by decide +kernel)
      norm_num at hupper
    have hlast : point ≠ 16 := by
      rintro rfl
      obtain ⟨rfl, rfl⟩ := hrounds.eq_of_ofDecimal hcanonical hpos
        (show ofDecimal false 1 16 = .finite false (5 * 10 ^ 15) 1 by decide +kernel)
      norm_num at hupper
    omega

/-- There is at least one shortest digit. -/
theorem shortest_ne_nil (hcanonical : IsCanonical significand exponent) (hpos : 0 < significand)
    (tie : Tie) : (shortest tie significand exponent).digits ≠ [] := by
  intro hnil
  have hvalue := (shortest_rounds hcanonical hpos tie).pos hpos
  rw [Decimal.value, hnil] at hvalue
  simp [digitsValue] at hvalue

end Double

/-! ### Layouts -/

/-- Without an exponent, digits stand in front of the decimal point and behind it. -/
structure Decimal.LaidOut (d : Decimal) (text whole fraction : List Char) : Prop where
  /-- The decimal point is between the digits. -/
  text_eq : text = whole ++ '.' :: fraction
  /-- There are digits in front of it. -/
  whole_ne_nil : whole ≠ []
  /-- They are digits. -/
  isDigit_whole : whole.all Char.isDigit = true
  /-- There are digits behind it. -/
  fraction_ne_nil : fraction ≠ []
  /-- They are digits, too. -/
  isDigit_fraction : fraction.all Char.isDigit = true
  /-- They stand for the same number. -/
  value_eq : (digitsValue (whole ++ fraction) * 10 ^ (-fraction.length : Int) : ℚ) = d.value

theorem all_isDigit_zeros (count : Nat) : (List.replicate count '0').all Char.isDigit = true := by
  simp [Char.isDigit]

/-- Digits can be laid out without an exponent wherever the decimal point is. -/
theorem Decimal.exists_laidOut {d : Decimal} (hne : d.digits ≠ [])
    (hdigits : d.digits.all Char.isDigit = true) :
    ∃ whole fraction, d.LaidOut (d.positional ['.', '0']) whole fraction := by
  have hlength := List.length_pos_iff.mpr hne
  unfold positional
  dsimp only
  split_ifs with hpoint hshort
  · -- zeros between the decimal point and the digits
    obtain ⟨count, hcount⟩ : ∃ count : Nat, d.point = -count := ⟨(-d.point).toNat, by omega⟩
    have hzeros : (-d.point).toNat = count := by omega
    rw [hzeros]
    refine ⟨['0'], List.replicate count '0' ++ d.digits, ⟨rfl, by simp, rfl, by simp [hne], ?_, ?_⟩⟩
    · rw [List.all_append, all_isDigit_zeros, hdigits]
      rfl
    · have hvalue : digitsValue (['0'] ++ (List.replicate count '0' ++ d.digits)) =
          digitsValue d.digits := by
        rw [← List.append_assoc, digitsValue_append, ← List.replicate_one, ← List.replicate_add,
          digitsValue_zeros, Nat.zero_mul, Nat.zero_add]
      rw [hvalue, value, hcount, List.length_append, List.length_replicate]
      congr 2
      push_cast
      ring
  · -- zeros between the digits and the decimal point
    obtain ⟨count, hcount⟩ : ∃ count : Nat, d.point = d.digits.length + count :=
      ⟨(d.point - d.digits.length).toNat, by omega⟩
    have hzeros : d.point.toNat - d.digits.length = count := by omega
    rw [hzeros]
    refine ⟨d.digits ++ List.replicate count '0', ['0'], ⟨rfl, by simp [hne], ?_, by simp, rfl, ?_⟩⟩
    · rw [List.all_append, all_isDigit_zeros, hdigits]
      rfl
    · rw [List.append_assoc, ← List.replicate_one, ← List.replicate_add, digitsValue_append_zeros,
        value, hcount, List.length_replicate]
      congr 2
      push_cast
      ring
  · -- the decimal point among the digits
    have hsplit := List.take_append_drop d.point.toNat d.digits
    have hdrop : (d.digits.drop d.point.toNat).length = d.digits.length - d.point.toNat :=
      List.length_drop
    rw [← hsplit, List.all_append, Bool.and_eq_true] at hdigits
    refine ⟨_, _, ⟨rfl, ?_, hdigits.1, ?_, hdigits.2, ?_⟩⟩
    · exact List.ne_nil_of_length_pos (by rw [List.length_take]; omega)
    · exact List.ne_nil_of_length_pos (by omega)
    · rw [hsplit, value, hdrop]
      congr 2
      omega

end PagedSearch
