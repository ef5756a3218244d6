import Achievements.Json.Numeral
import Achievements.Proofs.Decimal.Product

namespace Achievements.Json

open Text (IsRun Stops)

open Decimal (Canonical ofDigits tenPow)

theorem Integer.ofInt?_val (i : Integer) : Integer.ofInt? i.val = some i :=
  dif_pos ⟨i.lower, i.upper⟩

namespace Numeral

variable {n : Numeral} {ds rest : List Char}

def fractionText (frac : List Char) : List Char := if frac = [] then [] else '.' :: frac

def exponentText : Option (Bool × List Char) → List Char
  | none => []
  | some (neg, ds) => 'e' :: (if neg then '-' else '+') :: ds

def text (n : Numeral) : List Char :=
  (if n.neg then ['-'] else []) ++ (n.whole ++ (fractionText n.frac ++ exponentText n.exp))

structure Proper (n : Numeral) : Prop where
  whole : Canonical n.whole
  frac : ∀ c ∈ n.frac, c.isDigit = true
  exp : ∀ neg ds, n.exp = some (neg, ds) → IsRun Char.isDigit ds

structure Breaks (rest : List Char) : Prop where
  digit : Stops Char.isDigit rest
  mark : ∀ c ∈ rest.head?, c ≠ '.' ∧ c ≠ 'e' ∧ c ≠ 'E'

theorem someDigits_append (h : IsRun Char.isDigit ds) (hr : Stops Char.isDigit rest) :
    someDigits (ds ++ rest) = .ok (ds, rest) := by
  have htake : (ds ++ rest).takeWhile Char.isDigit = ds := by
    rw [List.takeWhile_append_of_pos h.2, Text.takeWhile_eq_nil_of_stops hr, List.append_nil]
  have hdrop : (ds ++ rest).dropWhile Char.isDigit = rest := by
    rw [List.dropWhile_append_of_pos h.2, Text.dropWhile_eq_self_of_stops hr]
  obtain ⟨d, ds, rfl⟩ := List.exists_cons_of_ne_nil h.1
  rw [List.cons_append] at htake hdrop ⊢
  rw [someDigits, if_pos (h.2 d (by simp)), htake, hdrop]

theorem wholePart_append (h : Canonical ds) (hr : Stops Char.isDigit rest) :
    wholePart (ds ++ rest) = .ok (ds, rest) := by
  have hzero : ¬(ds.head? = some '0' ∧ ds ≠ ['0']) := fun hd ↦ hd.2 (h.head hd.1)
  simp only [wholePart, someDigits_append h.isRun hr, bind, Except.bind, if_neg hzero]

theorem fraction_append (h : ∀ c ∈ ds, c.isDigit = true) (hr : Stops Char.isDigit rest)
    (hpoint : rest.head? ≠ some '.') : fraction (fractionText ds ++ rest) = .ok (ds, rest) := by
  rw [fractionText]
  split
  case isTrue hnil =>
    subst hnil
    rw [List.nil_append, fraction.eq_def]
    split
    · exact absurd rfl hpoint
    · rfl
  case isFalse hne =>
    rw [List.cons_append, fraction]
    exact someDigits_append ⟨hne, h⟩ hr

theorem stops_fractionText (hr : Stops Char.isDigit rest) :
    Stops Char.isDigit (fractionText ds ++ rest) := by
  rw [fractionText]
  split
  · exact hr
  · exact Text.stops_cons.2 rfl

theorem exponent_append {exp : Option (Bool × List Char)}
    (h : ∀ neg ds, exp = some (neg, ds) → IsRun Char.isDigit ds) (hr : Breaks rest) :
    exponent (exponentText exp ++ rest) = .ok (exp, rest) := by
  cases exp with
  | none =>
    rw [exponentText, List.nil_append, exponent.eq_def]
    cases rest with
    | nil => rfl
    | cons c rest => simp [hr.mark c (by simp)]
  | some e =>
    obtain ⟨neg, ds⟩ := e
    have hds := someDigits_append (h neg ds rfl) hr.digit
    cases neg <;> simp [exponentText, exponent, hds, Except.map]

theorem stops_exponentText (hr : Breaks rest) (exp : Option (Bool × List Char)) :
    Stops Char.isDigit (exponentText exp ++ rest) ∧
      (exponentText exp ++ rest).head? ≠ some '.' := by
  cases exp with
  | none => exact ⟨hr.digit, fun h ↦ absurd rfl (hr.mark '.' h).1⟩
  | some e => exact ⟨Text.stops_cons.2 rfl, by simp [exponentText]⟩

theorem read_unsigned {whole : List Char} (hw : IsRun Char.isDigit whole) (neg : Bool) :
    read ((if neg then ['-'] else []) ++ (whole ++ rest)) = (do
      let (whole, cs) ← wholePart (whole ++ rest)
      let (frac, cs) ← fraction cs
      let (exp, cs) ← exponent cs
      return (⟨neg, whole, frac, exp⟩, cs)) := by
  cases neg with
  | true => rfl
  | false =>
    obtain ⟨d, whole, rfl⟩ := List.exists_cons_of_ne_nil hw.1
    have hd : d ≠ '-' := by
      rintro rfl
      exact absurd (hw.2 '-' (by simp)) (by decide)
    simp only [Bool.false_eq_true, if_false, List.nil_append, List.cons_append]
    rw [read.eq_def]
    split
    case h_1 heq =>
      split at heq
      case h_1 h => exact absurd (List.cons.inj h).1 hd
      case h_2 =>
        cases heq
        rfl

theorem exists_sign_append_eq_cons {whole : List Char} (hw : IsRun Char.isDigit whole) (neg : Bool) :
    ∃ c cs, (if neg then ['-'] else []) ++ (whole ++ rest) = c :: cs ∧
      (c = '-' ∨ c.isDigit = true) := by
  obtain ⟨d, whole, rfl⟩ := List.exists_cons_of_ne_nil hw.1
  cases neg with
  | true => exact ⟨'-', _, rfl, .inl rfl⟩
  | false => exact ⟨d, _, rfl, .inr (hw.2 d (by simp))⟩

theorem read_text (hn : n.Proper) (hr : Breaks rest) : read (n.text ++ rest) = .ok (n, rest) := by
  obtain ⟨hdigit, hpoint⟩ := stops_exponentText hr n.exp
  simp only [text, List.append_assoc]
  rw [read_unsigned hn.whole.isRun, wholePart_append hn.whole (stops_fractionText hdigit)]
  simp only [bind, Except.bind, fraction_append hn.frac hdigit hpoint, exponent_append hn.exp hr]
  rfl

section Values

open Binary64

open Decimal (nearest)

open Finite64 (one)

def exponentValue : Option (Bool × List Char) → Int
  | none => 0
  | some (neg, ds) => if neg then -(ofDigits ds : Int) else ofDigits ds

def decimal (n : Numeral) : Decimal :=
  ⟨ofDigits (n.whole ++ n.frac), exponentValue n.exp - n.frac.length⟩

theorem le_ofDigitChars (s : Nat) (ds : List Char) : s ≤ Nat.ofDigitChars 10 ds s := by
  rw [Nat.ofDigitChars_eq_ofDigitChars_zero]
  have hs := Nat.le_mul_of_pos_left s (Decimal.tenPow_pos ds.length)
  exact Nat.le_trans hs (Nat.le_add_right _ _)

theorem collect_eq {s : Nat} (h : Nat.ofDigitChars 10 ds s < 0x10000000000000000) :
    collect s ds = (Nat.ofDigitChars 10 ds s, 0) := by
  induction ds generalizing s with
  | nil => rfl
  | cons d ds ih =>
    rw [Nat.ofDigitChars_cons] at h ⊢
    have hle := le_ofDigitChars (10 * s + (d.toNat - '0'.toNat)) ds
    rw [collect, if_pos (Nat.lt_of_le_of_lt hle h), ih h]

theorem magnitude_eq (hcoeff : n.decimal.coeff < 0x10000000000000000)
    (hfrac : n.frac.length ≤ 1000) (hexp : ∀ neg ds, n.exp = some (neg, ds) → ofDigits ds ≤ 1000) :
    n.magnitude = (finite? (.ofNat n.decimal.coeff)).bind (scale 4 · n.decimal.exp) := by
  have hsplit : n.decimal.coeff = Nat.ofDigitChars 10 n.frac (Nat.ofDigitChars 10 n.whole 0) :=
    Nat.ofDigitChars_append 0
  rw [hsplit] at hcoeff ⊢
  have hwhole := Nat.lt_of_le_of_lt (le_ofDigitChars _ _) hcoeff
  simp only [magnitude, collect_eq hwhole, collect_eq hcoeff, decimal]
  cases hn : n.exp with
  | none => simp [exponentValue]
  | some e =>
    obtain ⟨neg, ds⟩ := e
    have hds := hexp neg ds hn
    -- far from where exponents are cut off
    have hmax : ofDigits ds ≤ maxExponent := Nat.le_trans hds (by decide)
    have hclamp : clampExponent (if neg then
          (0 : Nat) - ((n.frac.length - 0 : Nat) : Int) - ofDigits ds
        else (0 : Nat) - ((n.frac.length - 0 : Nat) : Int) + ofDigits ds) =
        exponentValue (some (neg, ds)) - n.frac.length := by
      simp only [clampExponent, maxExponent, exponentValue]
      cases neg <;> simp <;> omega
    simp only [if_pos hmax, hclamp]

theorem finite?_round {num den : Nat} (h : roundUnits num den < limit) (neg : Bool) :
    finite? (.round neg num den) =
      some ⟨neg, roundUnits num den, fits_roundUnits num den, h⟩ := by
  rw [Binary64.round, dif_pos h, finite?]

theorem powerOfTen_eq {k : Nat} (h : k ≤ 308) :
    (powerOfTen k).neg = false ∧ (powerOfTen k).units = nearest (tenPow k) := by
  rw [powerOfTen, ofNat, finite?_round (Decimal.nearest_tenPow_lt_limit h), Option.getD_some]
  exact ⟨rfl, rfl⟩

theorem scale_of_le {x : Finite64} (hx : x.neg = false) {e : Int} (he : e.natAbs ≤ 308)
    (steps : Nat) : scale (steps + 1) x e = finite? (Decimal.timesPower false x.units e) := by
  obtain ⟨hneg, hunits⟩ := powerOfTen_eq he
  rw [scale, if_pos he, Decimal.timesPower]
  split
  case isTrue h =>
    have : e.natAbs = e.toNat := by omega
    rw [Finite64.mul, hx, hneg, hunits, this]
    rfl
  case isFalse h =>
    have : e.natAbs = (-e).toNat := by omega
    rw [Finite64.div, hx, hneg, hunits, this]
    rfl

theorem scale_of_lt {x : Finite64} (hx : x.neg = false) {e : Int} (he : e < -308) (steps : Nat) :
    scale (steps + 1) x e =
      if x.units = 0 then some x
      else (finite? (.round false (x.units * one) (nearest (tenPow 308)))).bind
        (scale steps · (e + 308)) := by
  obtain ⟨hneg, hunits⟩ := powerOfTen_eq (Nat.le_refl 308)
  rw [scale, if_neg (by omega), Finite64.isZero]
  simp only [decide_eq_true_eq]
  split
  case isTrue => rfl
  case isFalse =>
    rw [if_neg (by omega), Finite64.div, hx, hneg, hunits]
    rfl

theorem finite?_ofNat {s : Nat} (h : s ≤ tenPow 18) :
    ∃ x : Finite64, finite? (.ofNat s) = some x ∧ x.neg = false ∧ x.units = nearest s :=
  ⟨⟨false, nearest s, Decimal.fits_nearest s, Decimal.nearest_lt_limit h⟩,
    finite?_round (Decimal.nearest_lt_limit h) false, rfl, rfl⟩

theorem scale_eq_product {d : Decimal} (hcoeff : d.coeff ≤ tenPow 18) (hlow : -616 ≤ d.exp)
    (hhigh : d.exp ≤ 308) :
    (finite? (.ofNat d.coeff)).bind (scale 4 · d.exp) = finite? (d.product false) := by
  obtain ⟨x, hx, hneg, hunits⟩ := finite?_ofNat hcoeff
  rw [hx, Option.bind_some, Decimal.product, ← hunits]
  split
  case isTrue he => exact scale_of_le hneg (by omega) 3
  case isFalse he =>
    rw [scale_of_lt hneg (by omega)]
    split
    case isTrue hzero =>
      -- `scale` stops at zero, the product divides it once more
      rw [hzero, Nat.zero_mul, roundUnits_zero (Decimal.nearest_tenPow_pos 308),
        Decimal.timesPower_zero, finite?]
      obtain ⟨neg, units, fits, bounded⟩ := x
      subst hneg hzero
      rfl
    case isFalse =>
      have hquotient : roundUnits (x.units * one) (nearest (tenPow 308)) < limit :=
        Nat.lt_of_le_of_lt (Decimal.roundUnits_div_le x.fits 308) x.bounded
      rw [finite?_round hquotient, Option.bind_some]
      exact scale_of_le rfl (by omega) 2

theorem value?_of_product {y : Finite64} (hfloat : n.frac ≠ [] ∨ n.exp ≠ none)
    (hmagnitude : n.magnitude = finite? (n.decimal.product false))
    (hproduct : n.decimal.product false = .fin y) :
    n.value? = some (.float { y with neg := n.neg }) := by
  have hint : n.integer? = none := by
    rw [integer?, if_neg]
    rintro ⟨hfrac, hexp⟩
    exact hfloat.elim (· hfrac) (· hexp)
  rw [value?, hint, hmagnitude, hproduct, finite?, Option.map_some]

end Values

/-- A text from which a number is read, wherever nothing behind it continues a numeral. -/
structure Spells (t : List Char) (v : Json) : Prop where
  start : ∃ c cs, t = c :: cs ∧ (c = '-' ∨ c.isDigit = true)
  read (rest : List Char) : Breaks rest → readNumber (t ++ rest) = .ok (v, rest)

theorem spells_text {v : Json} (hn : n.Proper) (hv : n.value? = some v) : Spells n.text v where
  start := exists_sign_append_eq_cons hn.whole.isRun n.neg
  read rest hr := by
    simp only [readNumber, read_text hn hr, bind, Except.bind, hv]
    rfl

theorem spells_integerText (i : Integer) : Spells (integerText i.val) (.int i) := by
  have hproper : Proper ⟨decide (i.val < 0), Nat.toDigits 10 i.val.natAbs, [], none⟩ :=
    ⟨Decimal.canonical_toDigits _, by simp, by simp⟩
  have htext : text ⟨decide (i.val < 0), Nat.toDigits 10 i.val.natAbs, [], none⟩ =
      integerText i.val := by
    simp [text, fractionText, exponentText, integerText]
  have hinteger :
      integer? ⟨decide (i.val < 0), Nat.toDigits 10 i.val.natAbs, [], none⟩ = some i := by
    simp only [integer?, Decimal.ofDigits_toDigits, and_self, if_true, decide_eq_true_eq]
    split
    case isTrue hneg =>
      have habs : -(i.val.natAbs : Int) = i.val := by omega
      rw [if_neg (by omega), habs, Integer.ofInt?_val]
    case isFalse hpos =>
      have habs : (i.val.natAbs : Int) = i.val := by omega
      rw [habs, Integer.ofInt?_val]
  rw [← htext]
  exact spells_text hproper (by rw [value?, hinteger])

end Numeral

end Achievements.Json
