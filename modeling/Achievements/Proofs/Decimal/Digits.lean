import Achievements.Decimal.Layout
import Achievements.Proofs.Text.Scanner

namespace Achievements.Decimal

open Text (IsRun)

variable {ds es : List Char} {n : Nat}

/-- Digits of which only a lone zero starts with one. -/
structure Canonical (ds : List Char) : Prop where
  isRun : IsRun Char.isDigit ds
  head : ds.head? = some '0' → ds = ['0']

theorem tenPow_pos (n : Nat) : 0 < tenPow n := Nat.pow_pos (by decide)

theorem tenPow_zero : tenPow 0 = 1 := rfl

theorem tenPow_add (m n : Nat) : tenPow (m + n) = tenPow m * tenPow n := Nat.pow_add 10 m n

theorem tenPow_le_tenPow {m n : Nat} (h : m ≤ n) : tenPow m ≤ tenPow n :=
  Nat.pow_le_pow_right (by decide) h

theorem ofDigits_append (ds es : List Char) :
    ofDigits (ds ++ es) = tenPow es.length * ofDigits ds + ofDigits es := by
  have h : ofDigits (ds ++ es) = Nat.ofDigitChars 10 es (ofDigits ds) :=
    Nat.ofDigitChars_append 0
  rw [h, Nat.ofDigitChars_eq_ofDigitChars_zero]
  rfl

theorem ofDigits_lt (h : ∀ c ∈ ds, c.isDigit = true) : ofDigits ds < tenPow ds.length := by
  induction ds with
  | nil => decide
  | cons d ds ih =>
    have hd : d.toNat - '0'.toNat < 10 := by
      have hdigit := Char.isDigit_iff_toNat.1 (h d (by simp))
      have hnine : '9'.toNat = '0'.toNat + 9 := rfl
      omega
    have htail := ih fun c hc ↦ h c (by simp [hc])
    have hsplit : ofDigits (d :: ds) = tenPow ds.length * ofDigits [d] + ofDigits ds :=
      ofDigits_append [d] ds
    have hle := Nat.mul_le_mul_left (tenPow ds.length) (Nat.le_of_lt_succ hd)
    have hone : ofDigits [d] = d.toNat - '0'.toNat := Nat.zero_add _
    rw [hsplit, hone, List.length_cons, tenPow_add, show tenPow 1 = 10 from rfl]
    omega

theorem ofDigits_zeros (n : Nat) : ofDigits (zeros n) = 0 := Nat.ofDigitChars_replicate_zero

theorem ofDigits_toDigits (n : Nat) : ofDigits (Nat.toDigits 10 n) = n :=
  Nat.ofDigitChars_ten_toDigits

theorem ofDigits_zero_cons (ds : List Char) : ofDigits ('0' :: ds) = ofDigits ds := rfl

theorem length_zeros (n : Nat) : (zeros n).length = n := List.length_replicate

theorem isDigit_of_mem_zeros {c : Char} (h : c ∈ zeros n) : c.isDigit = true := by
  rw [List.eq_of_mem_replicate h]
  rfl

theorem isRun_toDigits (n : Nat) : IsRun Char.isDigit (Nat.toDigits 10 n) :=
  ⟨Nat.toDigits_ne_nil, fun _ hc ↦ Nat.isDigit_of_mem_toDigits (by decide) (by decide) hc⟩

theorem head?_toDigits (h : 0 < n) : (Nat.toDigits 10 n).head? ≠ some '0' := by
  induction n using Nat.strongRecOn with
  | ind n ih =>
    rw [Nat.toDigits_eq_if (by decide)]
    split
    case isTrue hn =>
      have hdigit : ∀ k < 10, 0 < k → k.digitChar ≠ '0' := by decide
      simpa using hdigit n hn h
    case isFalse hn =>
      rw [List.head?_append_of_ne_nil _ Nat.toDigits_ne_nil]
      exact ih (n / 10) (by omega) (by omega)

theorem canonical_toDigits (n : Nat) : Canonical (Nat.toDigits 10 n) where
  isRun := isRun_toDigits n
  head h := by
    rcases Nat.eq_zero_or_pos n with rfl | hn
    · rfl
    · exact absurd h (head?_toDigits hn)

theorem lt_tenPow_width (n : Nat) : n < tenPow (width n) :=
  (Nat.length_toDigits_le_iff (by decide) Nat.length_toDigits_pos).1 (Nat.le_refl _)

theorem width_pos (n : Nat) : 0 < width n := Nat.length_toDigits_pos

theorem width_le_iff {k : Nat} (hk : 0 < k) : width n ≤ k ↔ n < tenPow k :=
  Nat.length_toDigits_le_iff (by decide) hk

theorem tenPow_width_le (h : 0 < n) : tenPow (width n - 1) ≤ n := by
  rcases Nat.eq_zero_or_pos (width n - 1) with h0 | hpos
  · rw [h0]
    exact h
  · refine Nat.le_of_not_lt fun hlt ↦ ?_
    have := (width_le_iff hpos).2 hlt
    omega

theorem exists_zeros (ds : List Char) :
    ∃ z, ds = (ds.reverse.dropWhile (· = '0')).reverse ++ zeros z := by
  refine ⟨(ds.reverse.takeWhile (· = '0')).length, ?_⟩
  have hzeros : ds.reverse.takeWhile (· = '0') = zeros (ds.reverse.takeWhile (· = '0')).length :=
    List.eq_replicate_of_mem fun c hc ↦ by simpa using List.mem_takeWhile_imp hc
  apply List.reverse_injective
  rw [List.reverse_append, List.reverse_reverse, zeros, List.reverse_replicate, ← zeros, ← hzeros,
    List.takeWhile_append_dropWhile]

theorem canonical_of_append_zeros {z : Nat} (hds : IsRun Char.isDigit (ds ++ zeros z))
    (hhead : (ds ++ zeros z).head? ≠ some '0') : Canonical ds ∧ ds.head? ≠ some '0' := by
  have hne : ds ≠ [] := by
    rintro rfl
    obtain ⟨z, rfl⟩ := Nat.exists_eq_succ_of_ne_zero (n := z) (by rintro rfl; exact hds.1 rfl)
    exact hhead rfl
  have hhead' : ds.head? ≠ some '0' := by rwa [List.head?_append_of_ne_nil _ hne] at hhead
  exact ⟨⟨⟨hne, fun c hc ↦ hds.2 c (by simp [hc])⟩, fun h ↦ absurd h hhead'⟩, hhead'⟩

theorem toDigits_of_pos {d : Decimal} (h : 0 < d.coeff) :
    Canonical d.toDigits.digits ∧ d.toDigits.digits.head? ≠ some '0' ∧
      ∃ z : Nat, d.coeff = ofDigits d.toDigits.digits * tenPow z ∧
        d.toDigits.digits.length + z = width d.coeff ∧
        d.toDigits.point = width d.coeff + d.exp := by
  obtain ⟨z, hz⟩ := exists_zeros (Nat.toDigits 10 d.coeff)
  simp only [toDigits, Nat.ne_of_gt h, if_false, width]
  generalize (Nat.toDigits 10 d.coeff).reverse.dropWhile (· = '0') = ds at hz ⊢
  obtain ⟨hcanonical, hhead⟩ := canonical_of_append_zeros (hz ▸ isRun_toDigits d.coeff)
    (hz ▸ head?_toDigits h)
  refine ⟨hcanonical, hhead, z, ?_, ?_, trivial⟩
  · rw [← ofDigits_toDigits d.coeff, hz, ofDigits_append, ofDigits_zeros, length_zeros,
      Nat.add_zero, Nat.mul_comm]
  · rw [hz, List.length_append, length_zeros]

end Achievements.Decimal
