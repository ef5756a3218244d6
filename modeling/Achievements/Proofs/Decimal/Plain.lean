import Achievements.Proofs.Decimal.Shortest
import Achievements.Proofs.Number.Limits

namespace Achievements

open Text Decimal

namespace Decimal

variable {ds : List Char} {d : Digits} {units : Nat}

theorem digit_lt_ten {c : Char} (h : c.isDigit = true) : c.toNat - '0'.toNat < 10 := by
  have hc : 48 ≤ c.toNat ∧ c.toNat ≤ 57 := isDigit_iff.1 h
  have hzero : '0'.toNat = 48 := rfl
  omega

theorem digitChar_of_isDigit {c : Char} (h : c.isDigit = true) :
    (c.toNat - '0'.toNat).digitChar = c := by
  have hc : 48 ≤ c.toNat ∧ c.toNat ≤ 57 := isDigit_iff.1 h
  have hzero : '0'.toNat = 48 := rfl
  apply Char.toNat_inj.1
  rw [Nat.toNat_digitChar_of_lt_ten (digit_lt_ten h)]
  omega

theorem ofDigits_singleton (c : Char) : ofDigits [c] = c.toNat - '0'.toNat := Nat.zero_add _

theorem toDigits_append_of_isDigit {n : Nat} (hn : 0 < n) (h : ∀ c ∈ ds, c.isDigit = true) :
    Nat.toDigits 10 n ++ ds = Nat.toDigits 10 (tenPow ds.length * n + ofDigits ds) := by
  induction ds generalizing n with
  | nil => simp [tenPow_zero, ofDigits]
  | cons c ds ih =>
    rw [List.forall_mem_cons] at h
    have hstep := Nat.toDigits_append_toDigits (b := 10) (by decide) hn (digit_lt_ten h.1)
    rw [Nat.toDigits_of_lt_base (digit_lt_ten h.1), digitChar_of_isDigit h.1] at hstep
    calc Nat.toDigits 10 n ++ c :: ds
        = Nat.toDigits 10 (10 * n + (c.toNat - '0'.toNat)) ++ ds := by rw [← hstep]; simp
      _ = Nat.toDigits 10 (tenPow ds.length * (10 * n + ofDigits [c]) + ofDigits ds) := by
        rw [ih (by omega) h.2, ofDigits_singleton]
      _ = Nat.toDigits 10 (tenPow (c :: ds).length * n + ofDigits ([c] ++ ds)) := by
        rw [ofDigits_append, List.length_cons, Nat.add_comm ds.length, tenPow_add, Nat.mul_add,
          ← Nat.add_assoc, show tenPow 1 = 10 from rfl]
        ac_rfl

theorem toDigits_ofDigits (h : Canonical ds) : Nat.toDigits 10 (ofDigits ds) = ds := by
  obtain ⟨c, ds, rfl, hc⟩ := head_digit_of_isRun h.isRun
  by_cases hzero : c = '0'
  · rw [h.head (by simp [hzero])]
    rfl
  · have hdigit := digitChar_of_isDigit hc
    have hpos : 0 < c.toNat - '0'.toNat := by
      refine Nat.pos_of_ne_zero fun h0 ↦ hzero ?_
      rw [← hdigit, h0]
      rfl
    have hds : ∀ x ∈ ds, x.isDigit = true := fun x hx ↦ h.isRun.2 x (by simp [hx])
    have happend := toDigits_append_of_isDigit hpos hds
    rw [Nat.toDigits_of_lt_base (digit_lt_ten hc), hdigit, ← ofDigits_singleton] at happend
    rw [← List.singleton_append, ofDigits_append]
    exact happend.symm

theorem unsignedDecimal?_of_isRun (h : IsRun Char.isDigit ds) :
    unsignedDecimal? ds = some ⟨ofDigits ds, 0⟩ := by
  have ht : ds.takeWhile Char.isDigit = ds := List.takeWhile_eq_self_iff.2 h.2
  have hd : ds.dropWhile Char.isDigit = [] := List.dropWhile_eq_nil_iff.2 h.2
  simp [unsignedDecimal?, ht, hd, exponent?, h.1]

theorem exists_float?_of_integer? {cs : List Char} {n : Int} (h : integer? cs = some n) :
    ∃ x, float? cs = some x := by
  obtain ⟨ds, k, hds, hcs⟩ := integer?_eq_some_iff.1 h
  obtain ⟨c, ds', rfl, hc⟩ := head_digit_of_isRun hds.isRun
  have hdecimal := unsignedDecimal?_of_isRun hds.isRun
  rcases hcs with ⟨rfl | rfl, -⟩ | ⟨rfl, -⟩
  · exact ⟨_, by rw [float?_of_isDigit hc, hdecimal, Option.map_some]⟩
  · exact ⟨_, by rw [float?_of_sign hc rfl, hdecimal, Option.map_some]⟩
  · exact ⟨_, by rw [float?_of_sign hc rfl, hdecimal, Option.map_some]⟩

theorem isRun_append_zeros (h : IsRun Char.isDigit ds) (z : Nat) :
    IsRun Char.isDigit (ds ++ zeros z) := by
  refine ⟨by simp [h.1], fun c hc ↦ ?_⟩
  rcases List.mem_append.1 hc with hc | hc
  · exact h.2 c hc
  · exact isDigit_of_mem_zeros hc

/-- Digits in full are a whole number, or stand on both sides of a point. -/
theorem plain_cases (hd : d.Names units) :
    (∃ z : Nat, d.plain false = d.digits ++ zeros z ∧ d.point = d.digits.length + z) ∨
    ∃ whole frac, d.plain false = whole ++ '.' :: frac ∧ IsRun Char.isDigit whole ∧
      IsRun Char.isDigit frac ∧ ofDigits (whole ++ frac) = ofDigits d.digits ∧
      (frac.length : Int) = d.digits.length - d.point := by
  have hrun := hd.canonical.isRun
  by_cases hbelow : d.point ≤ 0
  · refine .inr ⟨['0'], zeros (-d.point).toNat ++ d.digits, ?_, by decide, ?_, ?_, ?_⟩
    · simp [Digits.plain, hbelow]
    · refine ⟨by simp [hrun.1], fun c hc ↦ ?_⟩
      rcases List.mem_append.1 hc with hc | hc
      · exact isDigit_of_mem_zeros hc
      · exact hrun.2 c hc
    · rw [List.singleton_append, ofDigits_zero_cons, ofDigits_append, ofDigits_zeros,
        Nat.mul_zero, Nat.zero_add]
    · rw [List.length_append, length_zeros]
      omega
  by_cases hwhole : d.digits.length ≤ d.point.toNat
  · refine .inl ⟨d.point.toNat - d.digits.length, ?_, by omega⟩
    simp [Digits.plain, hbelow, hwhole]
  · refine .inr ⟨d.digits.take d.point.toNat, d.digits.drop d.point.toNat, ?_, ?_, ?_, ?_, ?_⟩
    · simp [Digits.plain, hbelow, hwhole]
    · exact ⟨by simp [hrun.1]; omega, fun c hc ↦ hrun.2 c (List.mem_of_mem_take hc)⟩
    · exact ⟨by simpa using hwhole, fun c hc ↦ hrun.2 c (List.mem_of_mem_drop hc)⟩
    · rw [List.take_append_drop]
    · rw [List.length_drop]
      omega

theorem exists_unsignedDecimal?_plain (hd : d.Names units) :
    ∃ e : Decimal, unsignedDecimal? (d.plain false) = some e ∧ -400 ≤ e.exp ∧ e.exp ≤ 400 ∧
      unitsOf e.coeff e.exp = units := by
  have hlow := hd.low
  have hreads := hd.reads
  rcases plain_cases hd with ⟨z, htext, hpoint⟩ | ⟨whole, frac, htext, hwhole, hfrac, hvalue, hlength⟩
  · have hrun := isRun_append_zeros hd.canonical.isRun z
    refine ⟨_, by rw [htext, unsignedDecimal?_of_isRun hrun], by simp, by simp, ?_⟩
    change unitsOf (ofDigits (d.digits ++ zeros z)) 0 = units
    rw [ofDigits_append, ofDigits_zeros, length_zeros, Nat.add_zero, Nat.mul_comm,
      unitsOf_mul_tenPow, ← hreads]
    congr 1
    omega
  · refine ⟨_, by rw [htext, unsignedDecimal?_point hwhole hfrac], by simp only; omega, by simp, ?_⟩
    change unitsOf (ofDigits (whole ++ frac)) (-frac.length) = units
    rw [hvalue, ← hreads, hlength, Int.neg_sub]

theorem exists_plain_eq_cons (hd : d.Names units) :
    ∃ c cs, d.plain false = c :: cs ∧ c.isDigit = true := by
  rcases plain_cases hd with ⟨z, htext, -⟩ | ⟨whole, frac, htext, hwhole, -⟩
  · obtain ⟨c, cs, h, hc⟩ := head_digit_of_isRun hd.canonical.isRun
    exact ⟨c, cs ++ zeros z, by rw [htext, h]; rfl, hc⟩
  · obtain ⟨c, cs, rfl, hc⟩ := head_digit_of_isRun hwhole
    exact ⟨c, cs ++ '.' :: frac, htext, hc⟩

end Decimal

namespace Finite64

theorem write_plainLayout (x : Finite64) :
    x.write plainLayout = (if x.neg then ['-'] else []) ++ (ofUnits .up x.units).plain false := rfl

theorem sign_write (x : Finite64) :
    sign (x.write plainLayout) = (x.neg, (ofUnits .up x.units).plain false) := by
  obtain ⟨c, cs, hcs, hc⟩ := exists_plain_eq_cons (names_ofUnits .up x)
  rw [write_plainLayout, hcs]
  cases x.neg with
  | true => rfl
  | false => exact sign_of_isDigit hc cs

/-- What is shown of a double is read as the double. -/
theorem float?_write (x : Finite64) : float? (x.write plainLayout) = some (.fin x) := by
  have hd := names_ofUnits .up x
  obtain ⟨c, cs, hcs, hc⟩ := exists_plain_eq_cons hd
  obtain ⟨e, he, hlow, hhigh, hunits⟩ := exists_unsignedDecimal?_plain hd
  have hsign := sign_write x
  rw [hcs] at hsign he
  rw [float?_of_sign hc hsign, he, Option.map_some, toBinary64_of_unitsOf hlow hhigh hunits]

/-- Where what is shown reads as an integer, it is that integer's text. Only the zero with a sign is
read without it. -/
theorem integerText_of_integer? {x : Finite64} {n : Int}
    (hx : ¬ (x.neg = true ∧ x.units = 0)) (h : integer? (x.write plainLayout) = some n) :
    integerText n = x.write plainLayout := by
  have hd := names_ofUnits .up x
  obtain ⟨_, hn, rfl⟩ := Option.map_eq_some_iff.1 h
  obtain ⟨k, hk, ⟨⟩⟩ := Option.bind_eq_some_iff.1 hn
  rw [sign_write] at hk ⊢
  obtain ⟨hrun, hvalue⟩ := standsFor_iff.1 (natural?_eq_some_iff.1 hk)
  obtain ⟨z, htext, hpoint⟩ := (plain_cases hd).resolve_right fun ⟨whole, frac, htext, _⟩ ↦
    isRun_not_mem hrun isDigit_point (by simp [htext])
  rw [htext] at hrun hvalue
  have hdigits : Nat.toDigits 10 k = (ofUnits .up x.units).plain false := by
    rw [← hvalue, htext]
    refine toDigits_ofDigits ⟨hrun, fun hzero ↦ ?_⟩
    rw [List.head?_append_of_ne_nil _ hd.canonical.isRun.1] at hzero
    have hone := hd.zero (.inl hzero)
    rw [hone] at hpoint ⊢
    have hz : z = 0 := by simp at hpoint; omega
    rw [hz]
    rfl
  rw [write_plainLayout]
  cases hneg : x.neg with
  | false => simp [integerText, hdigits]
  | true =>
    have hpos : 0 < k := by
      refine Nat.pos_of_ne_zero fun hk0 ↦ hx ⟨hneg, ?_⟩
      rw [hk0, ofDigits_append, ofDigits_zeros, length_zeros, Nat.add_zero, Nat.mul_eq_zero] at hvalue
      have hzero := hvalue.resolve_left (Nat.ne_of_gt (tenPow_pos z))
      rw [← hd.reads, hzero, unitsOf_zero]
    simp [integerText, hdigits, hpos]

end Finite64

end Achievements
