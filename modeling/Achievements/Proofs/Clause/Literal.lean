import Achievements.Number
import Achievements.Proofs.Text.Trim

namespace Achievements

open Text

variable {ds whole frac : List Char}

theorem head_digit_of_isRun (h : IsRun Char.isDigit ds) :
    ∃ d ds', ds = d :: ds' ∧ d.isDigit = true := by
  obtain ⟨d, ds', rfl⟩ := List.exists_cons_of_ne_nil h.1
  exact ⟨d, ds', rfl, h.2 d (by simp)⟩

theorem head_digit_of_isNumeral {n : List Char} (h : IsNumeral n) :
    ∃ d n', n = d :: n' ∧ d.isDigit = true := by
  rcases h with h | ⟨whole, frac, rfl, hwhole, -⟩
  · exact head_digit_of_isRun h
  · obtain ⟨d, whole', rfl, hd⟩ := head_digit_of_isRun hwhole
    exact ⟨d, whole' ++ '.' :: frac, rfl, hd⟩

theorem ne_of_isDigit {c d : Char} (hc : c.isDigit = true) (hd : d.isDigit = false) : c ≠ d := by
  rintro rfl
  rw [hc] at hd
  cases hd

theorem toLower_of_isDigit {c : Char} (h : c.isDigit = true) : c.toLower = c := by
  have hn : ¬ (65 ≤ c.val ∧ c.val ≤ 90) := by
    have : c.val.toNat ≤ 57 := (isDigit_iff.1 h).2
    rw [UInt32.le_iff_toNat_le]
    exact fun hupper ↦ absurd (Nat.le_trans hupper.1 this) (by decide)
  exact dif_neg hn

theorem isSpace_of_isDigit (c : Char) (h : c.isDigit = true) : isSpace c = false :=
  isSpace_of_isWord (isWord_of_isDigit h)

namespace Decimal

theorem natural?_of_isRun (h : IsRun Char.isDigit ds) : natural? ds = some (ofDigits ds) := by
  rw [natural?, if_pos ⟨h.1, List.all_eq_true.2 h.2⟩]

theorem unsigned?_of_isRun (h : IsRun Char.isDigit ds) : unsigned? ds = some (ofDigits ds) := by
  obtain ⟨d, ds', rfl, hd⟩ := head_digit_of_isRun h
  have hplus := ne_of_isDigit hd (show Char.isDigit '+' = false by decide)
  rw [unsigned?, natural?_of_isRun h]
  rintro cs ⟨⟩
  exact hplus rfl

theorem sign_of_isDigit {d : Char} (h : d.isDigit = true) (cs : List Char) :
    sign (d :: cs) = (false, d :: cs) := by
  have hplus := ne_of_isDigit h (show Char.isDigit '+' = false by decide)
  have hminus := ne_of_isDigit h (show Char.isDigit '-' = false by decide)
  rw [sign]
  · rintro cs ⟨⟩
    exact hminus rfl
  · rintro cs ⟨⟩
    exact hplus rfl

theorem integer?_of_isRun (h : IsRun Char.isDigit ds) : integer? ds = some (ofDigits ds : Int) := by
  obtain ⟨d, ds', rfl, hd⟩ := head_digit_of_isRun h
  simp [integer?, sign_of_isDigit hd, natural?_of_isRun h]

theorem unsignedDecimal?_point (hw : IsRun Char.isDigit whole) (hf : IsRun Char.isDigit frac) :
    unsignedDecimal? (whole ++ '.' :: frac) = some ⟨ofDigits (whole ++ frac), -frac.length⟩ := by
  have hs : Stops Char.isDigit ('.' :: frac) := stops_cons.2 isDigit_point
  have ht : frac.takeWhile Char.isDigit = frac := List.takeWhile_eq_self_iff.2 hf.2
  have hd : frac.dropWhile Char.isDigit = [] := List.dropWhile_eq_nil_iff.2 hf.2
  simp only [unsignedDecimal?, List.takeWhile_append_of_pos hw.2, List.dropWhile_append_of_pos hw.2,
    takeWhile_eq_nil_of_stops hs, dropWhile_eq_self_of_stops hs, List.append_nil, Option.getD_some,
    Option.map_some, ht, hd, exponent?, hw.1, false_and, if_false]
  simp

theorem float?_of_sign {d : Char} {cs rest : List Char} {neg : Bool} (h : d.isDigit = true)
    (hsign : sign cs = (neg, d :: rest)) :
    float? cs = (unsignedDecimal? (d :: rest)).map (toBinary64 neg) := by
  have hn := ne_of_isDigit h (show Char.isDigit 'n' = false by decide)
  have hi := ne_of_isDigit h (show Char.isDigit 'i' = false by decide)
  have hname : ∀ (c : Char) (s : String), s.toList.head? = some c → d ≠ c →
      String.ofList ((d :: rest).map Char.toLower) ≠ s := by
    intro c s hs hc he
    rw [← he, String.toList_ofList, List.map_cons, List.head?_cons, toLower_of_isDigit h,
      Option.some.injEq] at hs
    exact hc hs
  simp only [float?, hsign]
  rw [if_neg (hname 'n' "nan" rfl hn),
    if_neg (not_or.2 ⟨hname 'i' "inf" rfl hi, hname 'i' "infinity" rfl hi⟩)]

theorem float?_of_isDigit {d : Char} (h : d.isDigit = true) (cs : List Char) :
    float? (d :: cs) = (unsignedDecimal? (d :: cs)).map (toBinary64 false) :=
  float?_of_sign h (sign_of_isDigit h cs)

theorem neg_of_toBinary64 {d : Decimal} {neg : Bool} {x : Finite64}
    (h : d.toBinary64 neg = .fin x) : x.neg = neg := by
  have hround {num den : Nat} (hx : Binary64.round neg num den = .fin x) : x.neg = neg := by
    rw [Binary64.round] at hx
    split at hx <;> cases hx
    rfl
  rw [toBinary64] at h
  split_ifs at h
  · cases h
    rfl
  · exact hround h
  · exact hround h

end Decimal

theorem maskOfLiteral?_of_isRun (h : IsRun Char.isDigit ds) :
    maskOfLiteral? ds = uint32? (Decimal.ofDigits ds) := by
  rw [maskOfLiteral?, trim_of_isRun h isSpace_of_isDigit, Decimal.unsigned?_of_isRun h,
    Option.bind_some]

namespace Number

theorem ofLiteral?_of_isRun (h : IsRun Char.isDigit ds) :
    ofLiteral? ds = (int64? (Decimal.ofDigits ds)).map .int := by
  have hp : '.' ∉ ds := isRun_not_mem h isDigit_point
  rw [ofLiteral?, trim_of_isRun h isSpace_of_isDigit, if_neg hp, Decimal.integer?_of_isRun h,
    Option.bind_some]

theorem ofLiteral?_point (hw : IsRun Char.isDigit whole) (hf : IsRun Char.isDigit frac) :
    ofLiteral? (whole ++ '.' :: frac) =
      (some (Decimal.toBinary64 false ⟨Decimal.ofDigits (whole ++ frac), -frac.length⟩)).bind
        fun x ↦ if x.isFinite then some (.float x) else none := by
  obtain ⟨d, ds, rfl, hd⟩ := head_digit_of_isRun hw
  have ht : trim (d :: ds ++ '.' :: frac) = d :: ds ++ '.' :: frac := by
    refine trim_eq_self ?_ fun c hc ↦ ?_
    · simpa using isSpace_of_isDigit d hd
    · rw [List.getLast?_append, List.getLast?_cons_of_ne_nil hf.1] at hc
      have hne := List.getLast?_eq_some_getLast hf.1
      rw [hne, Option.some_or, Option.mem_some] at hc
      exact isSpace_of_isDigit c (hf.2 c (hc ▸ List.getLast_mem hf.1))
  have hu := Decimal.unsignedDecimal?_point hw hf
  have hf := Decimal.float?_of_isDigit hd (ds ++ '.' :: frac)
  rw [← List.cons_append, hu, Option.map_some] at hf
  rw [ofLiteral?, ht, if_pos (by simp), hf]

end Number

end Achievements
