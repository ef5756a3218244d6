import Achievements.Proofs.Json.Brackets
import Achievements.Proofs.Json.Reread

namespace Achievements.Json

mutual

def reread : Json → Json
  | arr items => arr (rereadItems items)
  | obj members => obj (rereadMembers members)
  | float x => ofBinary64 x.reread
  | null => null
  | bool b => bool b
  | int n => int n
  | str s => str s
termination_by structural v => v

def rereadItems : List Json → List Json
  | [] => []
  | v :: vs => reread v :: rereadItems vs
termination_by structural vs => vs

def rereadMembers : List (String × Json) → List (String × Json)
  | [] => []
  | m :: ms => rereadMember m :: rereadMembers ms
termination_by structural ms => ms

def rereadMember : String × Json → String × Json
  | (key, v) => (key, reread v)
termination_by structural m => m

end

mutual

def nesting : Json → Nat
  | arr items => nestingItems items + 1
  | obj members => nestingMembers members + 1
  | null | bool _ | int _ | float _ | str _ => 0
termination_by structural v => v

def nestingItems : List Json → Nat
  | [] => 0
  | v :: vs => max (nesting v) (nestingItems vs)
termination_by structural vs => vs

def nestingMembers : List (String × Json) → Nat
  | [] => 0
  | m :: ms => max (nestingMember m) (nestingMembers ms)
termination_by structural ms => ms

def nestingMember : String × Json → Nat
  | (_, v) => nesting v
termination_by structural m => m

end

mutual

def FloatFree : Json → Prop
  | arr items => FloatFreeItems items
  | obj members => FloatFreeMembers members
  | float _ => False
  | null | bool _ | int _ | str _ => True
termination_by structural v => v

def FloatFreeItems : List Json → Prop
  | [] => True
  | v :: vs => FloatFree v ∧ FloatFreeItems vs
termination_by structural vs => vs

def FloatFreeMembers : List (String × Json) → Prop
  | [] => True
  | m :: ms => FloatFreeMember m ∧ FloatFreeMembers ms
termination_by structural ms => ms

def FloatFreeMember : String × Json → Prop
  | (_, v) => FloatFree v
termination_by structural m => m

end

mutual

theorem reread_of_floatFree : ∀ v : Json, v.FloatFree → v.reread = v
  | arr items, h => congrArg arr (rereadItems_of_floatFree items h)
  | obj members, h => congrArg obj (rereadMembers_of_floatFree members h)
  | float _, h => h.elim
  | null, _ => rfl
  | bool _, _ => rfl
  | int _, _ => rfl
  | str _, _ => rfl

theorem rereadItems_of_floatFree : ∀ vs : List Json, FloatFreeItems vs → rereadItems vs = vs
  | [], _ => rfl
  | v :: vs, h => by
    rw [rereadItems, reread_of_floatFree v h.1, rereadItems_of_floatFree vs h.2]

theorem rereadMembers_of_floatFree :
    ∀ ms : List (String × Json), FloatFreeMembers ms → rereadMembers ms = ms
  | [], _ => rfl
  | (key, v) :: ms, h => by
    rw [rereadMembers, rereadMember, reread_of_floatFree v h.1, rereadMembers_of_floatFree ms h.2]

end

variable {st : Style} {rest : List Char}

theorem Ends.breaks (h : Ends rest) : Numeral.Breaks rest := by
  refine ⟨fun c hc ↦ ?_, fun c hc ↦ ?_⟩
  · rcases h c hc with hb | rfl | rfl | rfl
    · simp only [isBlank, Bool.or_eq_true, decide_eq_true_eq] at hb
      rcases hb with ((rfl | rfl) | rfl) | rfl <;> rfl
    all_goals rfl
  · rcases h c hc with hb | rfl | rfl | rfl
    · simp only [isBlank, Bool.or_eq_true, decide_eq_true_eq] at hb
      rcases hb with ((rfl | rfl) | rfl) | rfl <;> decide
    all_goals decide

theorem value_eq_scalar {depth : Nat} {c : Char} {cs : List Char} (hblank : isBlank c = false)
    (hsquare : c ≠ '[') (hcurly : c ≠ '\x7b') : value depth (c :: cs) = scalar (c :: cs) := by
  have hskip : skipBlanks (c :: cs) = c :: cs := skipBlanks_of_stops (Text.stops_cons.2 hblank)
  cases depth <;> rw [value.eq_def] <;> simp only [hskip] <;> split <;> simp_all

theorem value_append_blank {b : List Char} (hb : AllBlank b) (depth : Nat) (cs : List Char) :
    value depth (b ++ cs) = value depth cs := by
  cases depth <;> simp only [value, skipBlanks_append hb]

/-- Where a value may stand: it can be told from what follows a value, and it is read. -/
def Stands (depth : Nat) (p : List Char) (v : Json) : Prop := Opens p ∧ Yields (value depth) p v

theorem stands_of_scalar {depth : Nat} {c : Char} {cs : List Char} {v : Json}
    (hopen : isBlank c = false ∧ c ≠ ',' ∧ c ≠ ']' ∧ c ≠ '[' ∧ c ≠ '\x7b')
    (h : Yields scalar (c :: cs) v) : Stands depth (c :: cs) v := by
  obtain ⟨hblank, hcomma, hclose, hsquare, hcurly⟩ := hopen
  refine ⟨⟨c, cs, rfl, hblank, hcomma, hclose⟩, fun rest hrest ↦ ?_⟩
  rw [List.cons_append, value_eq_scalar hblank hsquare hcurly]
  exact h rest hrest

theorem ne_of_number_start {c d : Char} (hc : c = '-' ∨ c.isDigit = true)
    (hd : ¬(d = '-' ∨ d.isDigit = true)) : c ≠ d := by
  rintro rfl
  exact hd hc

theorem scalar_eq_readNumber {c : Char} (hc : c = '-' ∨ c.isDigit = true) (cs : List Char) :
    scalar (c :: cs) = readNumber (c :: cs) := by
  have hn := ne_of_number_start (d := 'n') hc (by decide)
  have ht := ne_of_number_start (d := 't') hc (by decide)
  have hf := ne_of_number_start (d := 'f') hc (by decide)
  have hquote := ne_of_number_start (d := '"') hc (by decide)
  rw [scalar.eq_def]
  split
  case h_6 heq =>
    obtain ⟨rfl, rfl⟩ := List.cons.inj heq
    exact if_pos hc
  all_goals simp_all

theorem number_start_opens {c : Char} (hc : c = '-' ∨ c.isDigit = true) :
    isBlank c = false ∧ c ≠ ',' ∧ c ≠ ']' ∧ c ≠ '[' ∧ c ≠ '\x7b' := by
  refine ⟨?_, ?_, ?_, ?_, ?_⟩
  · have hspace := ne_of_number_start (d := ' ') hc (by decide)
    have htab := ne_of_number_start (d := '\t') hc (by decide)
    have hline := ne_of_number_start (d := '\n') hc (by decide)
    have hreturn := ne_of_number_start (d := '\r') hc (by decide)
    simp [isBlank, hspace, htab, hline, hreturn]
  all_goals exact ne_of_number_start hc (by decide)

theorem stands_of_spells {depth : Nat} {t : List Char} {v : Json} (h : Numeral.Spells t v) :
    Stands depth t v := by
  obtain ⟨c, cs, rfl, hc⟩ := h.start
  refine stands_of_scalar (number_start_opens hc) fun rest hrest ↦ ?_
  rw [List.cons_append, scalar_eq_readNumber hc]
  exact h.read rest hrest.breaks

theorem stands_quote {depth : Nat} (s : String) : Stands depth (quote s) (str s) := by
  have hquote := quote_append s []
  rw [List.append_nil] at hquote
  rw [hquote]
  refine stands_of_scalar (by decide) fun rest _ ↦ ?_
  rw [← hquote, quote_append, scalar, readQuoted_escaped]
  rfl

def valueStep (depth : Nat) (ms : List (String × Json)) (key : String) :
    Reader (List (String × Json)) := fun cs ↦ do
  let (v, rest) ← value depth (← colon cs)
  return ((key, v) :: ms, rest)

theorem yields_valueStep (hst : st.Blank) {depth : Nat} {p : List Char} {v : Json}
    (h : Yields (value depth) p v) (ms : List (String × Json)) (key : String) :
    Yields (valueStep depth ms key) (st.colon ++ p) ((key, v) :: ms) := by
  intro rest hrest
  obtain ⟨b, hb, hcolon⟩ := colon_append hst (p ++ rest)
  rw [List.append_assoc]
  simp only [valueStep, hcolon, bind, Except.bind, value_append_blank hb, h rest hrest]
  rfl

theorem stands_square (hst : st.Blank) {depth d : Nat} {ps : List (List Char)} {vs : List Json}
    (h : AllYield (value depth) ps vs) : Stands (depth + 1) (st.bracket d '[' ']' ps) (arr vs) := by
  refine ⟨?_, fun rest _ ↦ ?_⟩
  · obtain ⟨cs, hcs, -⟩ := allItems_bracket hst h d []
    exact ⟨'[', cs, by simpa using hcs, by decide⟩
  · obtain ⟨cs, hcs, hread⟩ := allItems_bracket hst h d rest
    have hskip : skipBlanks ('[' :: cs) = '[' :: cs := skipBlanks_of_stops (Text.stops_cons.2 rfl)
    rw [hcs, value.eq_def]
    simp only [hskip, hread]
    rfl

theorem stands_curly (hst : st.Blank) {depth d : Nat} {ps : List (List Char)}
    {ms : List (String × Json)} (h : Steps (valueStep depth) [] ps ms) :
    Stands (depth + 1) (st.bracket d '\x7b' '\x7d' ps) (obj ms.reverse) := by
  refine ⟨?_, fun rest _ ↦ ?_⟩
  · obtain ⟨cs, hcs, -⟩ := allMembers_bracket hst h d []
    exact ⟨'\x7b', cs, by simpa using hcs, by decide⟩
  · obtain ⟨cs, hcs, hread⟩ := allMembers_bracket hst h d rest
    have hskip : skipBlanks ('\x7b' :: cs) = '\x7b' :: cs :=
      skipBlanks_of_stops (Text.stops_cons.2 rfl)
    rw [hcs, value.eq_def]
    unfold valueStep at hread
    simp only [hskip, hread]
    rfl

mutual

theorem stands_write (hst : st.Blank) :
    ∀ (v : Json) (depth d : Nat), v.nesting ≤ depth → Stands depth (write st d v) v.reread
  | null, _, _, _ => stands_of_scalar (by decide) fun _ _ ↦ rfl
  | bool true, _, _, _ => stands_of_scalar (by decide) fun _ _ ↦ rfl
  | bool false, _, _, _ => stands_of_scalar (by decide) fun _ _ ↦ rfl
  | int n, _, _, _ => stands_of_spells (Numeral.spells_integerText n)
  | float x, _, _, _ => stands_of_spells (Numeral.spells_write x)
  | str s, _, _, _ => stands_quote s
  | arr items, depth + 1, d, h =>
    stands_square hst (allYield_write hst items depth (d + 1) (Nat.le_of_succ_le_succ h))
  | obj members, depth + 1, d, h => by
    have hsteps := steps_write hst members depth (d + 1) [] (Nat.le_of_succ_le_succ h)
    have hstands := stands_curly hst hsteps (d := d)
    simpa only [write, reread, List.append_nil, List.reverse_reverse] using hstands

theorem allYield_write (hst : st.Blank) :
    ∀ (vs : List Json) (depth d : Nat), nestingItems vs ≤ depth →
      AllYield (value depth) (writeItems st d vs) (rereadItems vs)
  | [], _, _, _ => .nil
  | v :: vs, depth, d, h =>
    .cons (stands_write hst v depth d (Nat.le_trans (Nat.le_max_left _ _) h))
      (allYield_write hst vs depth d (Nat.le_trans (Nat.le_max_right _ _) h))

theorem steps_write (hst : st.Blank) :
    ∀ (ms : List (String × Json)) (depth d : Nat) (read : List (String × Json)),
      nestingMembers ms ≤ depth →
        Steps (valueStep depth) read (writeMembers st d ms) ((rereadMembers ms).reverse ++ read)
  | [], _, _, read, _ => .nil read
  | (key, v) :: ms, depth, d, read, h => by
    have hvalue := stands_write hst v depth d (Nat.le_trans (Nat.le_max_left _ _) h)
    have hmore := steps_write hst ms depth d ((key, v.reread) :: read)
      (Nat.le_trans (Nat.le_max_right _ _) h)
    -- the reader puts each member in front of those before it
    simp only [writeMembers, writeMember, rereadMembers, rereadMember, List.reverse_cons,
      List.append_assoc, List.singleton_append]
    exact .cons (yields_valueStep hst hvalue.2 read key) hmore

end

theorem ends_nil : Ends [] := by simp [Ends]

theorem readAll_of_yields {α : Type} {reader : Reader α} {p : List Char} {x : α}
    (h : Yields reader p x) : readAll reader (.ofList p) = .ok x := by
  have hread := h [] ends_nil
  rw [List.append_nil] at hread
  simp only [readAll, String.toList_ofList, hread, bind, Except.bind]
  rfl

/-- A text that was written in some style is read as the value with its objects sorted. -/
theorem parse_write (hst : st.Blank) {v : Json} (h : v.nesting ≤ maxDepth) :
    parse (.ofList (write st 0 v)) = .ok v.reread.sorted := by
  rw [parse, readAll_of_yields (stands_write hst v maxDepth 0 h).2]
  rfl

end Achievements.Json
