import Achievements.Json.Record
import Achievements.Proofs.Json.ReadBack

namespace Achievements.Json

variable {α β σ : Type} {st : Style} {reader : Reader α} {p : List Char} {x : α}

def SkipsBlanks (reader : Reader α) : Prop :=
  ∀ b cs, AllBlank b → reader (b ++ cs) = reader cs

theorem skipsBlanks_value (depth : Nat) : SkipsBlanks (value depth) :=
  fun _ cs hb ↦ value_append_blank hb depth cs

theorem skipsBlanks_scalarOf (expected : String) (pick : Json → Except Mismatch α) :
    SkipsBlanks (scalarOf expected pick) := by
  intro b cs hb
  simp only [scalarOf, skipBlanks_append hb]

theorem SkipsBlanks.map (h : SkipsBlanks reader) (f : α × List Char → β × List Char) :
    SkipsBlanks fun cs ↦ (reader cs).map f := by
  intro b cs hb
  simp only [h b cs hb]

theorem Yields.map (h : Yields reader p x) (f : α → β) :
    Yields (fun cs ↦ (reader cs).map fun (x, rest) ↦ (f x, rest)) p (f x) := by
  intro rest hrest
  simp only [h rest hrest]
  rfl

theorem yields_scalarOf {v : Json} {expected : String} {pick : Json → Except Mismatch α}
    (h : Yields (value 0) p v) (hpick : pick v = .ok x) : Yields (scalarOf expected pick) p x := by
  intro rest hrest
  have hvalue := h rest hrest
  rw [value] at hvalue
  rw [scalarOf]
  split at hvalue
  · cases hvalue
  · cases hvalue
  · simp only [hvalue, bind, Except.bind, hpick]
    rfl

theorem yields_string (s : String) : Yields string (quote s) s :=
  yields_scalarOf (stands_quote s).2 rfl

theorem yields_int32 (n : Int32) : Yields int32 (integerText n.toInt) n := by
  refine yields_scalarOf (stands_of_spells (Numeral.spells_integerText (.ofInt32 n))).2 ?_
  have hrange : -0x80000000 ≤ (Integer.ofInt32 n).val ∧ (Integer.ofInt32 n).val < 0x80000000 :=
    ⟨n.le_toInt, n.toInt_lt⟩
  exact (if_pos hrange).trans (congrArg Except.ok (Int32.ofInt_toInt n))

theorem yields_list (hst : st.Blank) {item : Reader α} {ps : List (List Char)} {xs : List α}
    (h : AllYield item ps xs) (d : Nat) : Yields (list item) (st.bracket d '[' ']' ps) xs := by
  intro rest hrest
  obtain ⟨cs, hcs, hread⟩ := allItems_bracket hst h d rest
  have hskip : skipBlanks ('[' :: cs) = '[' :: cs := skipBlanks_of_stops (Text.stops_cons.2 rfl)
  rw [hcs, list]
  simp only [hskip, hread]

namespace Shape

variable {sh : Shape σ α} {s : σ} {key : String} {ps : List (List Char)}

theorem yields_member (hst : st.Blank) {get : σ → Option β} {set : σ → β → σ} {reader : Reader β}
    {y : β} {p : List Char}
    (hfield : sh.fields.find? (·.name = key) = some (.of key get set reader))
    (hseen : get s = none) (hskip : SkipsBlanks reader) (hread : Yields reader p y) :
    Yields (sh.member s key) (st.colon ++ p) (set s y) := by
  intro rest hrest
  obtain ⟨b, hb, hcolon⟩ := colon_append hst (p ++ rest)
  rw [List.append_assoc]
  simp only [member, hfield, Field.of, hseen, hcolon, bind, Except.bind, hskip b _ hb,
    hread rest hrest]
  rfl

theorem yields_read (hst : st.Blank) (hsteps : Steps sh.member sh.start ps s)
    (hfinish : sh.finish s = .ok x) (d : Nat) :
    Opens (st.bracket d '\x7b' '\x7d' ps) ∧ Yields sh.read (st.bracket d '\x7b' '\x7d' ps) x := by
  refine ⟨?_, fun rest _ ↦ ?_⟩
  · obtain ⟨cs, hcs, -⟩ := allMembers_bracket hst hsteps d []
    exact ⟨'\x7b', cs, by simpa using hcs, by decide⟩
  · obtain ⟨cs, hcs, hread⟩ := allMembers_bracket hst hsteps d rest
    have hskip : skipBlanks ('\x7b' :: cs) = '\x7b' :: cs :=
      skipBlanks_of_stops (Text.stops_cons.2 rfl)
    rw [hcs, read]
    simp only [hskip, hread, bind, Except.bind, finished, hfinish]

end Shape

end Achievements.Json
