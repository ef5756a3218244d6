import Achievements.Proofs.Json.Record

namespace Achievements.Json

structure Blanks where
  chars : List Char
  blank : AllBlank chars

structure Gap where
  before : Blanks
  after : Blanks

def Blanks.none : Blanks := ⟨[], by simp [AllBlank]⟩

def Gap.none : Gap := ⟨.none, .none⟩

def Gap.around (g : Gap) (p : List Char) : List Char := g.before.chars ++ (p ++ g.after.chars)

theorem Gap.around_none (p : List Char) : none.around p = p := List.append_nil p

inductive Piece
  | plain (c : Char) (proper : c ≠ '"' ∧ c ≠ '\\' ∧ ¬c.toNat < 0x20)
  | escape (c d : Char) (stands : unescape? c = some d)
  | unit (a b c d : Char) (n : Nat) (stands : codeUnit? a b c d = some n)

namespace Piece

def text : Piece → List Char
  | plain c _ => [c]
  | escape c _ _ => ['\\', c]
  | unit a b c d _ _ => ['\\', 'u', a, b, c, d]

def ofChar (c : Char) : Piece :=
  if hquote : c = '"' then escape '"' '"' rfl
  else if hslash : c = '\\' then escape '\\' '\\' rfl
  else if hcontrol : c.toNat < 0x20 then
    unit '0' '0' (Nat.digitChar (c.toNat / 16)) (Nat.digitChar (c.toNat % 16)) c.toNat
      (codeUnit?_digits hcontrol)
  else plain c ⟨hquote, hslash, hcontrol⟩

def spell (s : String) : List Piece := s.toList.map ofChar

/-- The characters that are written; none if a surrogate has no partner. -/
def decode : List Piece → Option (List Char)
  | [] => some []
  | plain c _ :: ps => (decode ps).map (c :: ·)
  | escape _ d _ :: ps => (decode ps).map (d :: ·)
  | unit _ _ _ _ n _ :: ps =>
    if isTrailing n then none
    else if isLeading n then
      match ps with
      | unit _ _ _ _ m _ :: ps =>
        if isTrailing m then (decode ps).map (pairChar n m :: ·) else none
      | _ => none
    else (decode ps).map (.ofNat n :: ·)

theorem decode_ofChar_cons (c : Char) (ps : List Piece) :
    decode (ofChar c :: ps) = (decode ps).map (c :: ·) := by
  by_cases hquote : c = '"'
  · subst hquote
    rfl
  by_cases hslash : c = '\\'
  · subst hslash
    rfl
  by_cases hcontrol : c.toNat < 0x20
  · obtain ⟨htrail, hlead⟩ := control_not_surrogate hcontrol
    rw [ofChar, dif_neg hquote, dif_neg hslash, dif_pos hcontrol, decode.eq_def]
    simp [htrail, hlead]
  · rw [ofChar, dif_neg hquote, dif_neg hslash, dif_neg hcontrol, decode]

theorem decode_spell (s : String) : decode (spell s) = some s.toList := by
  rw [spell]
  induction s.toList with
  | nil => rfl
  | cons c cs ih => rw [List.map_cons, decode_ofChar_cons, ih, Option.map_some]

end Piece

structure Figures where
  numeral : Numeral
  proper : numeral.Proper
  capital : Bool
  plus : Bool

namespace Figures

def exponentText (f : Figures) : List Char :=
  match f.numeral.exp with
  | none => []
  | some (neg, ds) =>
    (if f.capital then 'E' else 'e') ::
      ((if neg then ['-'] else if f.plus then ['+'] else []) ++ ds)

def text (f : Figures) : List Char :=
  (if f.numeral.neg then ['-'] else []) ++
    (f.numeral.whole ++ (Numeral.fractionText f.numeral.frac ++ f.exponentText))

end Figures

structure Key where
  before : Blanks
  name : List Piece
  after : Blanks
  gap : Gap

namespace Key

def close (name : List Piece) : Key := ⟨.none, name, .none, .none⟩

def body (k : Key) (p : List Char) : List Char := k.after.chars ++ ':' :: (k.gap.before.chars ++ p)

def member (k : Key) (p : List Char) : List Char :=
  k.before.chars ++ '"' :: (k.name.flatMap Piece.text ++ '"' :: (k.body p ++ k.gap.after.chars))

end Key

/-- A text in full: a tree keeps the blanks, the escapes and the spelling of numbers. Not every tree
has a value, for a numeral may be out of range and a surrogate may stand alone. -/
inductive Written
  | null
  | bool (b : Bool)
  | number (f : Figures)
  | string (ps : List Piece)
  | array (inner : Blanks) (items : List (Gap × Written))
  | object (inner : Blanks) (members : List (Key × Written))

namespace Written

def joined : List (List Char) → List Char
  | [] => []
  | p :: ps => p ++ ps.flatMap (',' :: ·)

mutual

def text : Written → List Char
  | null => ['n', 'u', 'l', 'l']
  | bool true => ['t', 'r', 'u', 'e']
  | bool false => ['f', 'a', 'l', 's', 'e']
  | number f => f.text
  | string ps => '"' :: (ps.flatMap Piece.text ++ ['"'])
  | array inner items => '[' :: (inner.chars ++ (joined (itemTexts items) ++ [']']))
  | object inner members => '\x7b' :: (inner.chars ++ (joined (memberTexts members) ++ ['\x7d']))
termination_by structural w => w

def itemTexts : List (Gap × Written) → List (List Char)
  | [] => []
  | (gap, w) :: is => gap.around w.text :: itemTexts is
termination_by structural is => is

def memberTexts : List (Key × Written) → List (List Char)
  | [] => []
  | (key, w) :: ms => key.member w.text :: memberTexts ms
termination_by structural ms => ms

end

mutual

def value? : Written → Option Json
  | null => some .null
  | bool b => some (.bool b)
  | number f => f.numeral.value?
  | string ps => (Piece.decode ps).map fun s ↦ .str (.ofList s)
  | array _ items => (itemValues items).map .arr
  | object _ members => (memberValues members).map .obj
termination_by structural w => w

def itemValues : List (Gap × Written) → Option (List Json)
  | [] => some []
  | (_, w) :: is => do return (← w.value?) :: (← itemValues is)
termination_by structural is => is

def memberValues : List (Key × Written) → Option (List (String × Json))
  | [] => some []
  | (key, w) :: ms => do
    return (.ofList (← Piece.decode key.name), ← w.value?) :: (← memberValues ms)
termination_by structural ms => ms

end

def source (w : Written) (gap : Gap) : String := .ofList (gap.around w.text)

def Within : Nat → Written → Prop
  | n + 1, array _ items => ∀ i ∈ items, i.2.Within n
  | n + 1, object _ members => ∀ m ∈ members, m.2.Within n
  | 0, array _ _ => False
  | 0, object _ _ => False
  | _, _ => True

end Written

section Outcomes

variable {ε α β : Type}

theorem toOption_bind (x : Except ε α) (f : α → Except ε β) :
    (x >>= f).toOption = x.toOption.bind fun a ↦ (f a).toOption := by
  cases x <;> rfl

theorem toOption_map (x : Except ε α) (f : α → β) : (x.map f).toOption = x.toOption.map f := by
  cases x <;> rfl

theorem toOption_eq_some_iff {x : Except ε α} {a : α} : x.toOption = some a ↔ x = .ok a := by
  cases x <;> simp [Except.toOption]

/-- The reader gives this result and stops at the end of the text, or fails if there is none,
whatever comes behind. -/
def Settles (reader : Reader α) (p : List Char) (o : Option α) : Prop :=
  ∀ rest, Ends rest → (reader (p ++ rest)).toOption = o.map (·, rest)

end Outcomes

variable {rest : List Char}

section Strings

open Piece

theorem toOption_consChar (c : Char) (r : Except Fault (List Char × List Char)) :
    (consChar c r).toOption = r.toOption.map fun (s, rest) ↦ (c :: s, rest) := by
  rw [consChar, toOption_map]

theorem readChars_escape {c d : Char} (h : unescape? c = some d) (rest : List Char) :
    readChars ('\\' :: c :: rest) = consChar d (readChars rest) := by
  unfold unescape? at h
  split at h
  case h_9 => cases h
  all_goals
    obtain rfl := Option.some.inj h
    rfl

section Units

variable {a b c d : Char} {n : Nat} (h : codeUnit? a b c d = some n)

include h

theorem readChars_trailing (htrail : isTrailing n = true) (cs : List Char) :
    readChars ('\\' :: 'u' :: a :: b :: c :: d :: cs) = .error .malformed := by
  rw [readChars.eq_def]
  simp only [h, if_pos htrail]

theorem readChars_unit (htrail : ¬isTrailing n = true) (hlead : ¬isLeading n = true)
    (cs : List Char) :
    readChars ('\\' :: 'u' :: a :: b :: c :: d :: cs) = consChar (.ofNat n) (readChars cs) := by
  rw [readChars.eq_def]
  simp only [h, if_neg htrail, if_neg hlead]

variable (htrail : ¬isTrailing n = true) (hlead : isLeading n = true)

include htrail hlead

theorem readChars_pair {a' b' c' d' : Char} {m : Nat} (h' : codeUnit? a' b' c' d' = some m)
    (cs : List Char) :
    readChars ('\\' :: 'u' :: a :: b :: c :: d :: '\\' :: 'u' :: a' :: b' :: c' :: d' :: cs) =
      if isTrailing m then consChar (pairChar n m) (readChars cs) else .error .malformed := by
  rw [readChars.eq_def]
  simp only [h, h', if_neg htrail, if_pos hlead]

theorem readChars_lone {cs : List Char} (hcs : ∀ cs', cs ≠ '\\' :: 'u' :: cs') :
    (readChars ('\\' :: 'u' :: a :: b :: c :: d :: cs)).toOption = none := by
  rw [readChars.eq_def]
  simp only [h, if_neg htrail, if_pos hlead]
  split
  case h_3 => exact absurd rfl (hcs _)
  all_goals rfl

end Units

theorem text_ne_unit {p : Piece} (hp : ∀ a b c d n h, p ≠ .unit a b c d n h) (cs cs' : List Char) :
    p.text ++ cs ≠ '\\' :: 'u' :: cs' := by
  cases p with
  | plain c hc => simp [text, hc.2.1]
  | escape c d h =>
    intro heq
    obtain ⟨rfl, -⟩ : c = 'u' ∧ cs = cs' := by simpa [text] using heq
    cases h
  | unit a b c d n h => exact absurd rfl (hp a b c d n h)

theorem readChars_pieces (ps : List Piece) (rest : List Char) :
    (readChars (ps.flatMap text ++ '"' :: rest)).toOption = (decode ps).map (·, rest) := by
  fun_induction decode ps with
  | case1 => rfl
  | case2 c hc ps ih =>
    simp only [List.flatMap_cons, text, List.cons_append, List.nil_append]
    rw [readChars_plain hc.1 hc.2.1 hc.2.2, toOption_consChar, ih]
    simp [Function.comp_def]
  | case3 c d h ps ih =>
    simp only [List.flatMap_cons, text, List.cons_append, List.nil_append]
    rw [readChars_escape h, toOption_consChar, ih]
    simp [Function.comp_def]
  | case4 a b c d n h ps htrail =>
    simp only [List.flatMap_cons, text, List.cons_append, List.nil_append]
    rw [readChars_trailing h htrail]
    rfl
  | case5 a b c d n h htrail hlead a' b' c' d' m h' ps hm ih =>
    simp only [List.flatMap_cons, text, List.cons_append, List.nil_append]
    rw [readChars_pair h htrail hlead h', if_pos hm, toOption_consChar, ih]
    simp [Function.comp_def]
  | case6 a b c d n h htrail hlead a' b' c' d' m h' ps hm =>
    simp only [List.flatMap_cons, text, List.cons_append, List.nil_append]
    rw [readChars_pair h htrail hlead h', if_neg hm]
    rfl
  | case7 a b c d n h ps htrail hlead hps =>
    simp only [List.flatMap_cons, text, List.cons_append, List.nil_append]
    apply readChars_lone h htrail hlead
    intro cs'
    cases ps with
    | nil => simp
    | cons p ps =>
      rw [List.flatMap_cons, List.append_assoc]
      refine text_ne_unit ?_ _ _
      rintro a b c d n h rfl
      exact hps a b c d n h ps rfl
  | case8 a b c d n h ps htrail hlead ih =>
    simp only [List.flatMap_cons, text, List.cons_append, List.nil_append]
    rw [readChars_unit h htrail hlead, toOption_consChar, ih]
    simp [Function.comp_def]

theorem readQuoted_pieces (ps : List Piece) (rest : List Char) :
    (readQuoted (ps.flatMap text ++ '"' :: rest)).toOption =
      (decode ps).map fun s ↦ (.ofList s, rest) := by
  rw [readQuoted, toOption_map, readChars_pieces, Option.map_map]
  rfl

end Strings

namespace Figures

open Numeral (Breaks)

open Text (IsRun Stops)

theorem exponent_marked {mark : Char} (hmark : mark = 'e' ∨ mark = 'E') {ds : List Char}
    (hds : IsRun Char.isDigit ds) (hr : Breaks rest) (neg plus : Bool) :
    Numeral.exponent
        (mark :: ((if neg then ['-'] else if plus then ['+'] else []) ++ ds) ++ rest) =
      .ok (some (neg, ds), rest) := by
  have hread := Numeral.someDigits_append hds hr.digit
  obtain ⟨d, ds, rfl⟩ := List.exists_cons_of_ne_nil hds.1
  have hd := hds.2 d (by simp)
  -- without a sign the first digit is not taken for one
  have hminus : d ≠ '-' := by
    rintro rfl
    exact absurd hd (by decide)
  have hplus : d ≠ '+' := by
    rintro rfl
    exact absurd hd (by decide)
  rw [List.cons_append] at hread
  cases neg <;> cases plus <;>
    simp [Numeral.exponent, hmark, hminus, hplus, hread, Except.map]

theorem exponent_exponentText (f : Figures) (hr : Breaks rest) :
    Numeral.exponent (f.exponentText ++ rest) = .ok (f.numeral.exp, rest) := by
  have hproper := f.proper.exp
  rw [exponentText]
  cases hexp : f.numeral.exp with
  | none =>
    rw [hexp] at hproper
    exact Numeral.exponent_append hproper hr
  | some e =>
    refine exponent_marked ?_ (hproper e.1 e.2 hexp) hr e.1 f.plus
    cases f.capital <;> simp

theorem stops_exponentText (f : Figures) (hr : Breaks rest) :
    Stops Char.isDigit (f.exponentText ++ rest) ∧ (f.exponentText ++ rest).head? ≠ some '.' := by
  rw [exponentText]
  split
  case h_1 => exact ⟨hr.digit, fun h ↦ absurd rfl (hr.mark '.' h).1⟩
  case h_2 => cases f.capital <;> simp [Stops]

theorem read_text (f : Figures) (hr : Breaks rest) :
    Numeral.read (f.text ++ rest) = .ok (f.numeral, rest) := by
  obtain ⟨hdigit, hpoint⟩ := f.stops_exponentText hr
  simp only [text, List.append_assoc]
  rw [Numeral.read_unsigned f.proper.whole.isRun,
    Numeral.wholePart_append f.proper.whole (Numeral.stops_fractionText hdigit)]
  simp only [bind, Except.bind, Numeral.fraction_append f.proper.frac hdigit hpoint,
    f.exponent_exponentText hr]
  rfl

theorem exists_text_eq_cons (f : Figures) :
    ∃ c cs, f.text = c :: cs ∧ (c = '-' ∨ c.isDigit = true) :=
  Numeral.exists_sign_append_eq_cons f.proper.whole.isRun f.numeral.neg

theorem settles_scalar (f : Figures) : Settles scalar f.text f.numeral.value? := by
  intro rest hrest
  have hread := f.read_text hrest.breaks
  obtain ⟨c, cs, htext, hc⟩ := f.exists_text_eq_cons
  rw [htext, List.cons_append] at hread ⊢
  rw [scalar_eq_readNumber hc]
  simp only [readNumber, hread, bind, Except.bind]
  cases f.numeral.value? <;> rfl

end Figures

namespace Written

def IsScalar : Written → Prop
  | array _ _ => False
  | object _ _ => False
  | _ => True

theorem settles_scalar {w : Written} (h : w.IsScalar) : Settles scalar w.text w.value? := by
  cases w with
  | null => exact fun _ _ ↦ rfl
  | bool b => cases b <;> exact fun _ _ ↦ rfl
  | number f => exact f.settles_scalar
  | string ps =>
    intro rest _
    rw [text, value?, List.cons_append, List.append_assoc, List.singleton_append, scalar,
      toOption_map, readQuoted_pieces]
    simp [Function.comp_def]
  | array inner items => exact h.elim
  | object inner members => exact h.elim

theorem exists_scalar_start {w : Written} (h : w.IsScalar) :
    ∃ c cs, w.text = c :: cs ∧ isBlank c = false ∧ c ≠ ',' ∧ c ≠ ']' ∧ c ≠ '[' ∧ c ≠ '\x7b' := by
  cases w with
  | null => exact ⟨_, _, rfl, by decide⟩
  | bool b => cases b <;> exact ⟨_, _, rfl, by decide⟩
  | number f =>
    obtain ⟨c, cs, htext, hc⟩ := f.exists_text_eq_cons
    exact ⟨c, cs, htext, number_start_opens hc⟩
  | string ps => exact ⟨_, _, rfl, by decide⟩
  | array inner items => exact h.elim
  | object inner members => exact h.elim

theorem opens_text (w : Written) : Opens w.text := by
  by_cases h : w.IsScalar
  · obtain ⟨c, cs, htext, hblank, hcomma, hclose, -⟩ := exists_scalar_start h
    exact ⟨c, cs, htext, hblank, hcomma, hclose⟩
  · cases w with
    | array inner items => exact ⟨_, _, rfl, by decide⟩
    | object inner members => exact ⟨_, _, rfl, by decide⟩
    | _ => exact absurd trivial h

theorem settles_value_of_isScalar {w : Written} (h : w.IsScalar) (depth : Nat) :
    Settles (value depth) w.text w.value? := by
  intro rest hrest
  have hread := settles_scalar h rest hrest
  obtain ⟨c, cs, htext, hblank, -, -, hsquare, hcurly⟩ := exists_scalar_start h
  rw [htext, List.cons_append] at hread ⊢
  rw [value_eq_scalar hblank hsquare hcurly]
  exact hread

theorem toOption_scalarOf {α : Type} {c : Char} {cs : List Char} (hblank : isBlank c = false)
    (hsquare : c ≠ '[') (hcurly : c ≠ '\x7b') (expected : String)
    (pick : Json → Except Mismatch α) :
    (scalarOf expected pick (c :: cs)).toOption =
      (scalar (c :: cs)).toOption.bind fun p ↦ (pick p.1).toOption.map (·, p.2) := by
  have hskip : skipBlanks (c :: cs) = c :: cs := skipBlanks_of_stops (Text.stops_cons.2 hblank)
  rw [scalarOf, hskip]
  split
  case h_1 heq => exact absurd (List.cons.inj heq).1 hsquare
  case h_2 heq => exact absurd (List.cons.inj heq).1 hcurly
  case h_3 =>
    rw [toOption_bind]
    congr 1
    funext p
    cases hpick : pick p.1 with
    | ok x =>
      simp only [hpick]
      rfl
    | error m =>
      simp only [hpick]
      rfl

theorem settles_scalarOf {α : Type} {pick : Json → Except Mismatch α}
    (hitems : ∀ vs, (pick (.arr vs)).toOption = none)
    (hmembers : ∀ ms, (pick (.obj ms)).toOption = none) (expected : String) (w : Written) :
    Settles (scalarOf expected pick) w.text (w.value?.bind fun v ↦ (pick v).toOption) := by
  intro rest hrest
  by_cases h : w.IsScalar
  · have hread := settles_scalar h rest hrest
    obtain ⟨c, cs, htext, hblank, -, -, hsquare, hcurly⟩ := exists_scalar_start h
    rw [htext, List.cons_append] at hread ⊢
    rw [toOption_scalarOf hblank hsquare hcurly, hread]
    cases w.value? <;> rfl
  · cases w with
    | array inner items =>
      rw [value?]
      cases itemValues items with
      | none => rfl
      | some vs =>
        simp only [Option.map_some, Option.bind_some, hitems]
        rfl
    | object inner members =>
      rw [value?]
      cases memberValues members with
      | none => rfl
      | some ms =>
        simp only [Option.map_some, Option.bind_some, hmembers]
        rfl
    | _ => exact absurd trivial h

theorem IsScalar.ne_bracket {w : Written} (h : w.IsScalar) {v : Json} (hv : w.value? = some v) :
    (∀ vs, v ≠ .arr vs) ∧ ∀ ms, v ≠ .obj ms := by
  cases w with
  | number f =>
    rw [value?, Numeral.value?] at hv
    split at hv
    · obtain rfl := Option.some.inj hv
      simp
    · obtain ⟨x, -, rfl⟩ := Option.map_eq_some_iff.1 hv
      simp
  | string ps =>
    obtain ⟨s, -, rfl⟩ := Option.map_eq_some_iff.1 hv
    simp
  | array inner items => exact h.elim
  | object inner members => exact h.elim
  | _ =>
    obtain rfl := Option.some.inj hv
    simp

theorem isScalar_of_within_zero {w : Written} (h : w.Within 0) : w.IsScalar := by
  cases w with
  | array inner items => exact h.elim
  | object inner members => exact h.elim
  | _ => trivial

theorem IsScalar.within {w : Written} (h : w.IsScalar) (n : Nat) : w.Within n := by
  cases w with
  | array inner items => exact h.elim
  | object inner members => exact h.elim
  | _ => cases n <;> trivial

theorem Within.mono {m n : Nat} {w : Written} (h : w.Within m) (hmn : m ≤ n) : w.Within n := by
  induction m generalizing n w with
  | zero => exact (isScalar_of_within_zero h).within n
  | succ m ih =>
    obtain ⟨n, rfl⟩ := Nat.exists_eq_add_of_lt hmn
    cases w with
    | array inner items => exact fun i hi ↦ ih (h i hi) (Nat.le_add_right m n)
    | object inner members => exact fun i hi ↦ ih (h i hi) (Nat.le_add_right m n)
    | _ => trivial

end Written

end Achievements.Json
