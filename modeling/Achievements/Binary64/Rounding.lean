namespace Achievements.Binary64

def twoPow (n : Nat) : Nat := Nat.pow 2 n

/-- The quotient rounded to the nearest integer, a half to the even one. -/
def roundDiv (num den : Nat) : Nat :=
  let q := num / den
  let r := num % den
  if 2 * r < den then q else if den < 2 * r then q + 1 else q + q % 2

def Fits (m : Nat) : Prop := ∃ k e, k < twoPow 53 ∧ m = k * twoPow e

/-- The exponent of the grid on which a quotient has 53 bits, zero for a small one. -/
def gridExponent (num den : Nat) : Nat := (num / den).log2 - 52

/-- The quotient rounded to 53 significant bits, but to no finer grid than the integers. -/
def roundUnits (num den : Nat) : Nat :=
  let e := gridExponent num den
  roundDiv num (den * twoPow e) * twoPow e

/-- One above the magnitude of every finite double. -/
def limit : Nat := twoPow 2098

theorem twoPow_pos (n : Nat) : 0 < twoPow n := Nat.two_pow_pos n

theorem twoPow_add (m n : Nat) : twoPow (m + n) = twoPow m * twoPow n := Nat.pow_add 2 m n

theorem twoPow_le_twoPow {m n : Nat} (h : m ≤ n) : twoPow m ≤ twoPow n :=
  Nat.pow_le_pow_right (by decide) h

theorem lt_twoPow_log2 (n : Nat) : n < twoPow (n.log2 + 1) := Nat.lt_log2_self

theorem limit_pos : 0 < limit := twoPow_pos 2098

theorem roundDiv_le (num den : Nat) : roundDiv num den ≤ num / den + 1 := by
  simp only [roundDiv]
  split
  · omega
  · split <;> omega

theorem div_gridExponent_lt (num den : Nat) :
    num / (den * twoPow (gridExponent num den)) < twoPow 53 := by
  rw [← Nat.div_div_eq_div_mul, Nat.div_lt_iff_lt_mul (twoPow_pos _), ← twoPow_add]
  refine Nat.lt_of_lt_of_le (lt_twoPow_log2 _) (twoPow_le_twoPow ?_)
  simp only [gridExponent]
  omega

theorem fits_mul_twoPow {k : Nat} (h : k ≤ twoPow 53) (e : Nat) : Fits (k * twoPow e) := by
  rcases Nat.lt_or_eq_of_le h with h | rfl
  · exact ⟨k, e, h, rfl⟩
  · exact ⟨1, 53 + e, by decide, by rw [twoPow_add, Nat.one_mul]⟩

theorem fits_roundUnits (num den : Nat) : Fits (roundUnits num den) := by
  refine fits_mul_twoPow ?_ _
  have h := roundDiv_le num (den * twoPow (gridExponent num den))
  have h' := div_gridExponent_lt num den
  omega

theorem fits_of_lt {m : Nat} (h : m < twoPow 53) : Fits m := ⟨m, 0, h, (Nat.mul_one m).symm⟩

end Achievements.Binary64
