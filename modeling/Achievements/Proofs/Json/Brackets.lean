import Achievements.Proofs.Json.Quoted
import Achievements.Proofs.Text.Scanner
import Achievements.Json.Reader

namespace Achievements.Json

open Text (Stops)

variable {α σ : Type} {st : Style} {depth : Nat} {b p rest : List Char} {ps : List (List Char)}

def AllBlank (b : List Char) : Prop := ∀ c ∈ b, isBlank c = true

/-- What may stand behind a value: nothing, a blank, a comma or a closing bracket. -/
def Ends (rest : List Char) : Prop :=
  ∀ c ∈ rest.head?, isBlank c = true ∨ c = ',' ∨ c = ']' ∨ c = '\x7d'

def Opens (p : List Char) : Prop :=
  ∃ c cs, p = c :: cs ∧ isBlank c = false ∧ c ≠ ',' ∧ c ≠ ']'

/-- From a text with anything behind it that may follow a value, the reader gives a result and stops
at the end of the text. -/
def Yields (reader : Reader α) (p : List Char) (x : α) : Prop :=
  ∀ rest, Ends rest → reader (p ++ rest) = .ok (x, rest)

inductive Steps (step : σ → String → Reader σ) : σ → List (List Char) → σ → Prop
  | nil (s : σ) : Steps step s [] s
  | cons {s s' t : σ} {key : String} {body : List Char} {ps : List (List Char)} :
    Yields (step s key) body s' → Steps step s' ps t → Steps step s ((quote key ++ body) :: ps) t

namespace Style

structure Blank (st : Style) : Prop where
  newline (n : Nat) : AllBlank (st.newline n)
  colon : ∃ b, st.colon = ':' :: b ∧ AllBlank b

theorem blank_compact : compact.Blank where
  newline := by simp [compact, AllBlank]
  colon := ⟨[], rfl, by simp [AllBlank]⟩

theorem blank_pretty : pretty.Blank where
  newline n := by
    intro c hc
    rcases List.mem_cons.1 hc with rfl | hc
    · rfl
    · rw [List.eq_of_mem_replicate hc]
      rfl
  colon := ⟨[' '], rfl, by simp [AllBlank, isBlank]⟩

def behind (st : Style) (depth : Nat) (closing : Char) (ps : List (List Char)) : List Char :=
  ps.flatMap (fun q ↦ ',' :: st.newline (depth + 1) ++ q) ++ st.newline depth ++ [closing]

theorem bracket_cons (opening closing : Char) :
    st.bracket depth opening closing (p :: ps) ++ rest =
      opening :: (st.newline (depth + 1) ++ (p ++ (st.behind depth closing ps ++ rest))) := by
  simp [bracket, behind]

theorem behind_nil (closing : Char) :
    st.behind depth closing [] ++ rest = st.newline depth ++ closing :: rest := by
  simp [behind]

theorem behind_cons (closing : Char) :
    st.behind depth closing (p :: ps) ++ rest =
      ',' :: (st.newline (depth + 1) ++ (p ++ (st.behind depth closing ps ++ rest))) := by
  simp [behind]

theorem length_lt_length_behind (st : Style) (depth : Nat) (closing : Char)
    (ps : List (List Char)) (rest : List Char) :
    ps.length < (st.behind depth closing ps ++ rest).length := by
  induction ps with
  | nil =>
    rw [behind_nil, List.length_append, List.length_cons]
    exact Nat.add_pos_right _ (Nat.succ_pos _)
  | cons p ps ih =>
    rw [behind_cons]
    simp only [List.length_cons, List.length_append] at ih ⊢
    omega

end Style

theorem stops_of_opens (hp : Opens p) : Stops isBlank (p ++ rest) := by
  obtain ⟨c, cs, rfl, hc, -⟩ := hp
  exact Text.stops_cons.2 hc

theorem skipBlanks_append (hb : AllBlank b) : skipBlanks (b ++ rest) = skipBlanks rest :=
  List.dropWhile_append_of_pos hb

theorem skipBlanks_of_stops (h : Stops isBlank rest) : skipBlanks rest = rest :=
  Text.dropWhile_eq_self_of_stops h

theorem ends_cons_of_blank (hb : AllBlank b) {c : Char} (hc : Ends (c :: rest)) :
    Ends (b ++ c :: rest) := by
  cases b with
  | nil => exact hc
  | cons d b =>
    intro e he
    obtain rfl : d = e := by simpa using he
    exact .inl (hb d (by simp))

theorem ends_behind (hst : st.Blank) {closing : Char} (hc : closing = ']' ∨ closing = '\x7d')
    (depth : Nat) (ps : List (List Char)) (rest : List Char) :
    Ends (st.behind depth closing ps ++ rest) := by
  cases ps with
  | nil =>
    rw [Style.behind_nil]
    refine ends_cons_of_blank (hst.newline depth) fun c hc' ↦ ?_
    obtain rfl : closing = c := by simpa using hc'
    exact .inr (.inr hc)
  | cons p ps =>
    rw [Style.behind_cons]
    simp [Ends]

section Items

theorem nextItem_closed (hb : AllBlank b) (first : Bool) :
    nextItem first (b ++ ']' :: rest) = .ok (.closed rest) := by
  rw [nextItem, skipBlanks_append hb]
  rfl

theorem nextItem_first (hb : AllBlank b) (hp : Opens p) :
    nextItem true (b ++ (p ++ rest)) = .ok (.item (p ++ rest)) := by
  rw [nextItem, skipBlanks_append hb, skipBlanks_of_stops (stops_of_opens hp)]
  obtain ⟨c, cs, rfl, -, hcomma, hclose⟩ := hp
  split <;> simp_all

theorem nextItem_comma (hb : AllBlank b) (hp : Opens p) :
    nextItem false (',' :: (b ++ (p ++ rest))) = .ok (.item (p ++ rest)) := by
  have hskip : skipBlanks (b ++ (p ++ rest)) = p ++ rest := by
    rw [skipBlanks_append hb, skipBlanks_of_stops (stops_of_opens hp)]
  rw [nextItem, skipBlanks_of_stops (Text.stops_cons.2 rfl)]
  obtain ⟨c, cs, rfl, -, -, hclose⟩ := hp
  simp only [hskip, Bool.false_eq_true, if_false]
  split <;> simp_all

variable {item : Reader α} {xs : List α}

def AllYield (item : Reader α) : List (List Char) → List α → Prop :=
  List.Forall₂ fun p x ↦ Opens p ∧ Yields item p x

theorem items_behind (hst : st.Blank) (h : AllYield item ps xs) {fuel : Nat}
    (hfuel : ps.length < fuel) :
    items item fuel false (st.behind depth ']' ps ++ rest) = .ok (xs, rest) := by
  induction h generalizing fuel with
  | nil =>
    obtain ⟨fuel, rfl⟩ := Nat.exists_eq_succ_of_ne_zero (Nat.ne_zero_of_lt hfuel)
    rw [Style.behind_nil, items, nextItem_closed (hst.newline depth)]
    rfl
  | @cons p x ps xs hp _ ih =>
    obtain ⟨fuel, rfl⟩ := Nat.exists_eq_succ_of_ne_zero (Nat.ne_zero_of_lt hfuel)
    have hitem := hp.2 _ (ends_behind hst (.inl rfl) depth ps rest)
    have hmore := ih (Nat.lt_of_succ_lt_succ hfuel)
    rw [Style.behind_cons, items, nextItem_comma (hst.newline _) hp.1]
    simp only [bind, Except.bind, pure, Except.pure, hitem, hmore]

theorem allItems_bracket (hst : st.Blank) (h : AllYield item ps xs) (depth : Nat)
    (rest : List Char) :
    ∃ cs, st.bracket depth '[' ']' ps ++ rest = '[' :: cs ∧
      allItems item true cs = .ok (xs, rest) := by
  cases h with
  | nil => exact ⟨_, rfl, rfl⟩
  | @cons p x ps xs hp hps =>
    refine ⟨_, Style.bracket_cons '[' ']', ?_⟩
    have hitem := hp.2 _ (ends_behind hst (.inl rfl) depth ps rest)
    have hlength := Style.length_lt_length_behind st depth ']' ps rest
    rw [allItems, items, nextItem_first (hst.newline _) hp.1]
    simp only [bind, Except.bind, pure, Except.pure, hitem]
    rw [items_behind hst hps]
    simp only [List.length_append] at hlength ⊢
    omega

end Items

section Members

variable {step : σ → String → Reader σ} {s s' : σ}

theorem nextKey_closed (hb : AllBlank b) (first : Bool) :
    nextKey first (b ++ '\x7d' :: rest) = .ok (.closed rest) := by
  rw [nextKey, skipBlanks_append hb]
  rfl

theorem nextKey_first (hb : AllBlank b) :
    nextKey true (b ++ '"' :: rest) = .ok (.item rest) := by
  rw [nextKey, skipBlanks_append hb]
  rfl

theorem nextKey_comma (hb : AllBlank b) :
    nextKey false (',' :: (b ++ '"' :: rest)) = .ok (.item rest) := by
  have hskip : skipBlanks (b ++ '"' :: rest) = '"' :: rest := skipBlanks_append hb
  rw [nextKey, skipBlanks_of_stops (Text.stops_cons.2 rfl)]
  simp only [hskip, Bool.false_eq_true, if_false]

theorem colon_append (hst : st.Blank) (rest : List Char) :
    ∃ b, AllBlank b ∧ colon (st.colon ++ rest) = .ok (b ++ rest) := by
  obtain ⟨b, hcolon, hb⟩ := hst.colon
  exact ⟨b, hb, by rw [hcolon]; rfl⟩

theorem members_behind (hst : st.Blank) (h : Steps step s ps s') {fuel : Nat}
    (hfuel : ps.length < fuel) :
    members step fuel false s (st.behind depth '\x7d' ps ++ rest) = .ok (s', rest) := by
  induction h generalizing fuel with
  | nil =>
    obtain ⟨fuel, rfl⟩ := Nat.exists_eq_succ_of_ne_zero (Nat.ne_zero_of_lt hfuel)
    rw [Style.behind_nil, members, nextKey_closed (hst.newline depth)]
    rfl
  | @cons s s' t key body ps hp _ ih =>
    obtain ⟨fuel, rfl⟩ := Nat.exists_eq_succ_of_ne_zero (Nat.ne_zero_of_lt hfuel)
    have hbody := hp _ (ends_behind hst (.inr rfl) depth ps rest)
    have hmore := ih (Nat.lt_of_succ_lt_succ hfuel)
    rw [Style.behind_cons, List.append_assoc, quote_append, members, nextKey_comma (hst.newline _)]
    simp only [bind, Except.bind, readQuoted_escaped, hbody, hmore]

theorem allMembers_bracket (hst : st.Blank) (h : Steps step s ps s') (depth : Nat)
    (rest : List Char) :
    ∃ cs, st.bracket depth '\x7b' '\x7d' ps ++ rest = '\x7b' :: cs ∧
      allMembers step s cs = .ok (s', rest) := by
  cases h with
  | nil => exact ⟨_, rfl, rfl⟩
  | @cons s s' t key body ps hp hps =>
    refine ⟨_, Style.bracket_cons '\x7b' '\x7d', ?_⟩
    have hbody := hp _ (ends_behind hst (.inr rfl) depth ps rest)
    have hlength := Style.length_lt_length_behind st depth '\x7d' ps rest
    rw [allMembers, List.append_assoc, quote_append, members, nextKey_first (hst.newline _)]
    simp only [bind, Except.bind, readQuoted_escaped, hbody]
    rw [members_behind hst hps]
    simp only [List.length_append, List.length_cons] at hlength ⊢
    omega

end Members

end Achievements.Json
