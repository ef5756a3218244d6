import Achievements.Json.Quoted

namespace Achievements.Json

theorem codeUnit?_digits {n : Nat} (h : n < 0x20) :
    codeUnit? '0' '0' (Nat.digitChar (n / 16)) (Nat.digitChar (n % 16)) = some n := by
  revert n
  decide

theorem control_not_surrogate {n : Nat} (h : n < 0x20) :
    isTrailing n = false ∧ isLeading n = false := by
  simp only [isTrailing, isLeading, Bool.and_eq_false_iff, decide_eq_false_iff_not]
  omega

theorem readChars_codeUnit {c : Char} (h : c.toNat < 0x20) (rest : List Char) :
    readChars (['\\', 'u', '0', '0', Nat.digitChar (c.toNat / 16), Nat.digitChar (c.toNat % 16)] ++
      rest) = consChar c (readChars rest) := by
  obtain ⟨htrail, hlead⟩ := control_not_surrogate h
  simp only [List.cons_append, List.nil_append]
  rw [readChars.eq_def]
  simp [codeUnit?_digits h, htrail, hlead]

theorem readChars_plain {c : Char} (hquote : c ≠ '"') (hslash : c ≠ '\\') (h : ¬c.toNat < 0x20)
    (rest : List Char) : readChars (c :: rest) = consChar c (readChars rest) := by
  rw [readChars.eq_def]
  split
  case h_7 heq =>
    obtain ⟨rfl, rfl⟩ := List.cons.inj heq
    exact if_neg h
  all_goals simp_all

theorem readChars_escapeChar (c : Char) (rest : List Char) :
    readChars (escapeChar c ++ rest) = consChar c (readChars rest) := by
  unfold escapeChar
  split
  case h_8 hquote hslash _ _ _ _ _ =>
    split
    case isTrue h => exact readChars_codeUnit h rest
    case isFalse h => exact readChars_plain hquote hslash h rest
  all_goals rfl

theorem readChars_escaped (s rest : List Char) :
    readChars (s.flatMap escapeChar ++ '"' :: rest) = .ok (s, rest) := by
  induction s with
  | nil => rfl
  | cons c s ih =>
    rw [List.flatMap_cons, List.append_assoc, readChars_escapeChar, ih]
    rfl

theorem quote_append (s : String) (rest : List Char) :
    quote s ++ rest = '"' :: (s.toList.flatMap escapeChar ++ '"' :: rest) := by
  simp [quote]

theorem readQuoted_escaped (s : String) (rest : List Char) :
    readQuoted (s.toList.flatMap escapeChar ++ '"' :: rest) = .ok (s, rest) := by
  rw [readQuoted, readChars_escaped]
  simp [Except.map]

end Achievements.Json
