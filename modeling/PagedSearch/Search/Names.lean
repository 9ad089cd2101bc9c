import PagedSearch.Text.Hex

/-!
# Names of bound values

The names that a search invents are ten digits in base 16.  They differ from each other, and they
look like nothing that someone would write, so they do not meet the names in fragments that others
have written.

## Main definitions

* `scatteredNames` — a sequence of such names.

## Main results

* `scatteredCode_injective` — the first 16¹⁰ names stand for different numbers.
-/

namespace PagedSearch

/-- The number of different names. -/
def nameCount : Nat := Nat.pow 16 10

/-- An odd number near the golden section of `nameCount`, which spreads multiples evenly. -/
def nameStride : Nat := 0x9e3779b97f

/-- The number that a name stands for. -/
def scatteredCode (seed index : Nat) : Nat := (seed + index * nameStride) % nameCount

/-- A number with ten digits in base 16. -/
def nameOfCode (code : Nat) : String :=
  let digits := Text.hexDigits code
  String.ofList (List.replicate (10 - digits.length) '0' ++ digits)

/-- The names that start from a seed. -/
def scatteredNames (seed : Nat) (index : Nat) : String := nameOfCode (scatteredCode seed index)

/-- The first names differ from each other, since the stride has no divisor in common with the
number of names. -/
theorem scatteredCode_injective {seed i j : Nat} (hi : i < nameCount) (hj : j < nameCount)
    (h : scatteredCode seed i = scatteredCode seed j) : i = j := by
  have key (a b : Nat) (hab : a ≤ b) (hb : b < nameCount)
      (h : scatteredCode seed a = scatteredCode seed b) : a = b := by
    have hd : nameCount ∣ (b - a) * nameStride := by
      have := Nat.dvd_of_mod_eq_zero (Nat.sub_mod_eq_zero_of_mod_eq h.symm)
      rwa [Nat.add_sub_add_left, ← Nat.sub_mul] at this
    have hc : Nat.Coprime nameCount nameStride := by decide +kernel
    have hdvd := hc.dvd_of_dvd_mul_right hd
    by_cases hlt : 0 < b - a
    · have := Nat.le_of_dvd hlt hdvd
      omega
    · omega
  rcases Nat.le_total i j with hij | hji
  · exact key i j hij hj h
  · exact (key j i hji hi h.symm).symm

end PagedSearch
