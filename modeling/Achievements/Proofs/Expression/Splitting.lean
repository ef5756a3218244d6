import Achievements.Expression
import Achievements.Proofs.Text.Trim

namespace Achievements.Expression

open Text

variable {c s rest : List Char}

def andWord : List Char := ['a', 'n', 'd']

structure Delimiter where
  before : List Char
  after : List Char
  isRun_before : IsRun isBlank before
  isRun_after : IsRun isBlank after

def Delimiter.text (d : Delimiter) : List Char := d.before ++ andWord ++ d.after

/-- A clause in which no delimiter stands or starts, and which no blank surrounds. -/
structure Solid (c : List Char) : Prop where
  ne_nil : c ≠ []
  starts : ∀ x ∈ c.head?, isBlank x = false
  ends : ∀ x ∈ c.getLast?, isBlank x = false
  no_delimiter : ∀ before (d : Delimiter) after, c ≠ before ++ d.text ++ after
  no_open : ∀ before blanks, IsRun isBlank blanks → c ≠ before ++ blanks ++ andWord

def joined : List Char → List (Delimiter × List Char) → List Char
  | c, [] => c
  | c, (d, c') :: r => c ++ (d.text ++ joined c' r)

theorem delimiter_text_append (d : Delimiter) (hr : Stops isBlank rest) :
    delimiter (d.text ++ rest) = some rest := by
  have h₁ : Stops isBlank (andWord ++ (d.after ++ rest)) := stops_cons.2 (by decide)
  have h₂ : expect ['a', 'n', 'd'] (andWord ++ (d.after ++ rest)) = some (d.after ++ rest) :=
    expect_eq_some_iff.2 rfl
  simp only [delimiter, Delimiter.text, List.append_assoc, run_append_of_stops d.isRun_before h₁,
    Option.bind_eq_bind, Option.bind_some, h₂, run_append_of_stops d.isRun_after hr,
    Option.pure_def]

theorem delimiter_sound (h : delimiter s = some rest) :
    ∃ d : Delimiter, s = d.text ++ rest ∧ Stops isBlank rest := by
  simp only [delimiter, Option.bind_eq_bind, Option.bind_eq_some_iff, Prod.exists] at h
  obtain ⟨before, r₁, hb, r₂, hand, after, r₃, ha, ⟨⟩⟩ := h
  obtain ⟨rfl, hbefore, -⟩ := run_sound hb
  obtain ⟨rfl, hafter, hstop⟩ := run_sound ha
  refine ⟨⟨before, after, hbefore, hafter⟩, ?_, hstop⟩
  rw [expect_eq_some_iff.1 hand, Delimiter.text, andWord]
  simp

theorem isBlank_of_andWord_eq {t v : List Char} {x : Char} (h : andWord = t ++ x :: v)
    (ht : t ≠ []) : isBlank x = false := by
  rcases t with _ | ⟨a, _ | ⟨b, _ | ⟨c, t⟩⟩⟩
  · exact absurd rfl ht
  · obtain ⟨-, rfl, -⟩ : 'a' = a ∧ 'n' = x ∧ ['d'] = v := by simpa [andWord] using h
    rfl
  · obtain ⟨-, -, rfl, -⟩ : 'a' = a ∧ 'n' = b ∧ 'd' = x ∧ [] = v := by simpa [andWord] using h
    rfl
  · simp [andWord] at h

theorem Solid.delimiter_eq_none {u : List Char} (hc : Solid c) (hcs : c = u ++ s) (hs : s ≠ [])
    (hr : ∀ x ∈ rest.head?, isBlank x = true) : delimiter (s ++ rest) = none := by
  rw [Option.eq_none_iff_forall_ne_some]
  intro r h
  have hlast : isBlank (s.getLast hs) = false :=
    hc.ends _ (by rw [hcs, List.getLast?_append, List.getLast?_eq_some_getLast hs]; rfl)
  obtain ⟨d, hd, -⟩ := delimiter_sound h
  have hend : ∀ blanks, s ++ blanks ≠ d.before := by
    intro blanks hb
    rw [d.isRun_before.2 _ (by simp [← hb])] at hlast
    cases hlast
  rw [Delimiter.text, List.append_assoc, List.append_assoc, List.append_eq_append_iff] at hd
  rcases hd with ⟨t, ht, -⟩ | ⟨t, rfl, ht⟩
  · exact hend t ht.symm
  rw [List.append_eq_append_iff] at ht
  rcases ht with ⟨v, rfl, hv⟩ | ⟨v, hv, hrest⟩
  · -- the clause goes on behind the word
    cases v with
    | nil => exact hc.no_open u d.before d.isRun_before (by simp [hcs])
    | cons x v =>
      obtain ⟨y, after, hafter⟩ := List.exists_cons_of_ne_nil d.isRun_after.1
      have hxy : x = y := by
        rw [hafter] at hv
        exact (List.cons.inj hv).1.symm
      have hx : isBlank x = true := d.isRun_after.2 x (by simp [hafter, hxy])
      refine hc.no_delimiter u ⟨d.before, [x], d.isRun_before, by simp, by simpa using hx⟩ v ?_
      simp [hcs, Delimiter.text]
  · -- the clause ends in the word, and what follows it starts with a blank
    cases v with
    | nil =>
      rw [List.append_nil] at hv
      exact hc.no_open u d.before d.isRun_before (by rw [hcs, hv, List.append_assoc])
    | cons x v =>
      have ht : t ≠ [] := by
        rintro rfl
        exact hend [] (by simp)
      have hx := hr x (by simp [hrest])
      rw [isBlank_of_andWord_eq hv ht] at hx
      cases hx

theorem splitFrom_of_delimiter {piece cs : List Char} (h : delimiter cs = some rest) :
    splitFrom piece cs = piece.reverse :: splitFrom [] rest := by
  rw [splitFrom]
  split <;> simp_all

theorem splitFrom_nil {piece : List Char} : splitFrom piece [] = [piece.reverse] := by
  rw [splitFrom]
  rfl

theorem splitFrom_cons {x : Char} {piece cs : List Char} (h : delimiter (x :: cs) = none) :
    splitFrom piece (x :: cs) = splitFrom (x :: piece) cs := by
  rw [splitFrom]
  split <;> simp_all

theorem splitFrom_append {piece : List Char}
    (h : ∀ s u, s ≠ [] → c = u ++ s → delimiter (s ++ rest) = none) :
    splitFrom piece (c ++ rest) = splitFrom (c.reverse ++ piece) rest := by
  induction c generalizing piece with
  | nil => rfl
  | cons x c ih =>
    have hx : delimiter (x :: c ++ rest) = none := h (x :: c) [] (by simp) rfl
    have ht : ∀ s u, s ≠ [] → c = u ++ s → delimiter (s ++ rest) = none :=
      fun s u hs hc ↦ h s (x :: u) hs (by rw [hc, List.cons_append])
    rw [List.cons_append] at hx ⊢
    rw [splitFrom_cons hx, ih ht]
    simp

theorem joined_ne_nil {r : List (Delimiter × List Char)} (hc : c ≠ []) : joined c r ≠ [] := by
  cases r with
  | nil => exact hc
  | cons x r => simp [joined, hc]

theorem head?_joined {r : List (Delimiter × List Char)} (hc : c ≠ []) :
    (joined c r).head? = c.head? := by
  cases r with
  | nil => rfl
  | cons x r => rw [joined, List.head?_append_of_ne_nil _ hc]

theorem getLast?_joined {r : List (Delimiter × List Char)}
    (hc : c ≠ []) (hr : ∀ x ∈ r, x.2 ≠ []) :
    (joined c r).getLast? = ((c :: r.map Prod.snd).getLast (List.cons_ne_nil _ _)).getLast? := by
  induction r generalizing c with
  | nil => rfl
  | cons x r ih =>
    obtain ⟨d, c'⟩ := x
    have hc' : c' ≠ [] := hr (d, c') (by simp)
    have hlast := ih hc' fun y hy ↦ hr y (by simp [hy])
    have hj := joined_ne_nil (r := r) hc'
    rw [joined, List.getLast?_append_of_ne_nil _ (by simp [hj]),
      List.getLast?_append_of_ne_nil _ hj, hlast]
    simp only [List.map_cons, List.getLast_cons_cons]

theorem splitFrom_joined {r : List (Delimiter × List Char)} (hc : Solid c)
    (hr : ∀ x ∈ r, Solid x.2) : splitFrom [] (joined c r) = c :: r.map Prod.snd := by
  induction r generalizing c with
  | nil =>
    have h : splitFrom [] (c ++ []) = splitFrom (c.reverse ++ []) [] :=
      splitFrom_append fun s u hs hcs ↦ hc.delimiter_eq_none hcs hs (by simp)
    rw [joined, ← List.append_nil c, h, splitFrom_nil]
    simp
  | cons x r ih =>
    obtain ⟨d, c'⟩ := x
    have hc' : Solid c' := hr (d, c') (by simp)
    have hblank : ∀ y ∈ (d.text ++ joined c' r).head?, isBlank y = true := by
      obtain ⟨y, before, hy⟩ := List.exists_cons_of_ne_nil d.isRun_before.1
      simpa [Delimiter.text, hy] using d.isRun_before.2 y (by simp [hy])
    have hstop : Stops isBlank (joined c' r) := by
      rw [Stops, head?_joined hc'.ne_nil]
      exact hc'.starts
    -- the first clause is passed over, then its delimiter is taken whole
    rw [joined, splitFrom_append fun s u hs hcs ↦ hc.delimiter_eq_none hcs hs hblank,
      splitFrom_of_delimiter (delimiter_text_append d hstop),
      ih hc' fun y hy ↦ hr y (by simp [hy])]
    simp

/-- Solid clauses joined by delimiters are the clauses of the joined text, if trimming and
unwrapping leave that text alone. -/
theorem clauses_joined {r : List (Delimiter × List Char)} (hc : Solid c) (hr : ∀ x ∈ r, Solid x.2)
    (hs : ∀ x ∈ (joined c r).head?, isSpace x = false)
    (he : ∀ x ∈ (joined c r).getLast?, isSpace x = false)
    (hp : ¬ ((joined c r).head? = some '(' ∧ (joined c r).getLast? = some ')')) :
    clauses (.ofList (joined c r)) = (c :: r.map Prod.snd).map .ofList := by
  rw [clauses, String.toList_ofList, trim_eq_self hs he, unwrap_eq_self hp,
    splitFrom_joined hc hr]

end Achievements.Expression
