import Mathlib.Data.List.Infix
import Mathlib.Data.List.TakeWhile
import Achievements.Text.Pattern

namespace Achievements.Text

variable {p : Char → Bool} {cs w b t rest : List Char} {α : Type}

def IsRun (p : Char → Bool) (w : List Char) : Prop := w ≠ [] ∧ ∀ c ∈ w, p c = true

def AllBlank (b : List Char) : Prop := ∀ c ∈ b, isBlank c = true

def Stops (p : Char → Bool) (cs : List Char) : Prop := ∀ c ∈ cs.head?, p c = false

def Spaced (op t : List Char) : Prop := ∃ b₁ b₂, t = b₁ ++ op ++ b₂ ∧ AllBlank b₁ ∧ AllBlank b₂

def IsNumeral (n : List Char) : Prop :=
  IsRun Char.isDigit n ∨
    ∃ whole frac, n = whole ++ '.' :: frac ∧ IsRun Char.isDigit whole ∧ IsRun Char.isDigit frac

instance : Decidable (IsRun p w) :=
  decidable_of_iff (w ≠ [] ∧ w.all p = true) (by simp only [IsRun, List.all_eq_true])

instance : Decidable (AllBlank b) :=
  decidable_of_iff (b.all isBlank = true) (by simp only [AllBlank, List.all_eq_true])

instance : Decidable (Stops p cs) :=
  decidable_of_iff (cs.head?.all (!p ·) = true) (by cases cs <;> simp [Stops])

/-- A text of a form at the leftmost place where one starts, and the longest that starts there. -/
def Leftmost (F : α → List Char → Prop) (cs : List Char) (a : α) : Prop :=
  ∃ before text after, cs = before ++ text ++ after ∧ F a text ∧
    ∀ before' a' text' after', cs = before' ++ text' ++ after' → F a' text' →
      before.length < before'.length ∨
        before.length = before'.length ∧ text'.length ≤ text.length

/-- A scanner finds the texts of a form, and from where one starts the longest. -/
structure Recognises (p : Scanner α) (F : α → List Char → Prop) : Prop where
  sound {cs a rest} : p cs = some (a, rest) → ∃ t, cs = t ++ rest ∧ F a t
  complete {a t} (post : List Char) : F a t →
    ∃ b rest, p (t ++ post) = some (b, rest) ∧ (rest = post ∧ b = a ∨ rest.length < post.length)

theorem Leftmost.exists_occurrence {F : α → List Char → Prop} {a : α} (h : Leftmost F cs a) :
    ∃ t, F a t ∧ t <:+: cs := by
  obtain ⟨before, text, after, rfl, ha, -⟩ := h
  exact ⟨text, ha, List.infix_append before text after⟩

theorem stops_nil : Stops p [] := by simp [Stops]

theorem stops_cons {c : Char} : Stops p (c :: cs) ↔ p c = false := by simp [Stops]

theorem stops_dropWhile : Stops p (cs.dropWhile p) := by
  intro c hc
  have h := List.head?_dropWhile_not p cs
  rw [Option.mem_def.1 hc] at h
  exact h

theorem IsRun.stops {q : Char → Bool} (h : IsRun p w) (hq : ∀ c, p c = true → q c = false) :
    Stops q (w ++ rest) := by
  obtain ⟨c, w, rfl⟩ := List.exists_cons_of_ne_nil h.1
  exact stops_cons.2 (hq c (h.2 c (by simp)))

theorem takeWhile_eq_nil_of_stops (h : Stops p cs) : cs.takeWhile p = [] := by
  cases cs with
  | nil => rfl
  | cons c cs => simp [stops_cons.1 h]

theorem dropWhile_eq_self_of_stops (h : Stops p cs) : cs.dropWhile p = cs := by
  cases cs with
  | nil => rfl
  | cons c cs => simp [stops_cons.1 h]

theorem run_append (h : IsRun p w) :
    run p (w ++ rest) = some (w ++ rest.takeWhile p, rest.dropWhile p) := by
  rw [run_eq_some_iff, List.takeWhile_append_of_pos h.2, List.dropWhile_append_of_pos h.2]
  simp [h.1]

theorem run_append_of_stops (h : IsRun p w) (hr : Stops p rest) :
    run p (w ++ rest) = some (w, rest) := by
  rw [run_append h, takeWhile_eq_nil_of_stops hr, dropWhile_eq_self_of_stops hr, List.append_nil]

theorem run_sound (h : run p cs = some (w, rest)) : cs = w ++ rest ∧ IsRun p w ∧ Stops p rest := by
  obtain ⟨hw, rfl, rfl⟩ := run_eq_some_iff.1 h
  exact ⟨List.takeWhile_append_dropWhile.symm, ⟨hw, fun c hc ↦ List.mem_takeWhile_imp hc⟩,
    stops_dropWhile⟩

theorem length_dropWhile_lt (h : cs.takeWhile p ≠ []) : (cs.dropWhile p).length < cs.length := by
  have hl := congrArg List.length (List.takeWhile_append_dropWhile (p := p) (l := cs))
  have hp := List.length_pos_iff.2 h
  rw [List.length_append] at hl
  omega

theorem recognises_run (p : Char → Bool) : Recognises (run p) fun a t ↦ a = t ∧ IsRun p t where
  sound h := by
    obtain ⟨rfl, hw, -⟩ := run_sound h
    exact ⟨_, rfl, rfl, hw⟩
  complete post h := by
    obtain ⟨rfl, hw⟩ := h
    refine ⟨_, _, run_append hw, ?_⟩
    by_cases hp : post.takeWhile p = []
    · have hpost := List.takeWhile_append_dropWhile (p := p) (l := post)
      exact .inl ⟨by simpa [hp] using hpost, by simp [hp]⟩
    · exact .inr (length_dropWhile_lt hp)

theorem skipBlanks_append (hb : AllBlank b) (hr : Stops isBlank rest) :
    skipBlanks (b ++ rest) = rest := by
  rw [skipBlanks, List.dropWhile_append_of_pos hb, dropWhile_eq_self_of_stops hr]

theorem exists_blank_append (cs : List Char) :
    ∃ b, cs = b ++ skipBlanks cs ∧ AllBlank b ∧ Stops isBlank (skipBlanks cs) :=
  ⟨cs.takeWhile isBlank, List.takeWhile_append_dropWhile.symm,
    fun _ hc ↦ List.mem_takeWhile_imp hc, stops_dropWhile⟩

theorem token_append {op : List Char} (hs : Spaced op t) (ho : op ≠ []) (hb : Stops isBlank op)
    (hr : Stops isBlank rest) : token op (t ++ rest) = some rest := by
  obtain ⟨b₁, b₂, rfl, h₁, h₂⟩ := hs
  have ho' : Stops isBlank (op ++ (b₂ ++ rest)) := by
    obtain ⟨c, op, rfl⟩ := List.exists_cons_of_ne_nil ho
    exact stops_cons.2 (stops_cons.1 hb)
  have he := expect_eq_some_iff.2 (rfl : op ++ (b₂ ++ rest) = op ++ (b₂ ++ rest))
  rw [token, List.append_assoc, List.append_assoc, skipBlanks_append h₁ ho', he,
    Option.map_some, skipBlanks_append h₂ hr]

theorem token_sound {op : List Char} (h : token op cs = some rest) :
    ∃ t, Spaced op t ∧ cs = t ++ rest ∧ Stops isBlank rest := by
  obtain ⟨u, hu, rfl⟩ := Option.map_eq_some_iff.1 h
  obtain ⟨b₁, h₁, hb₁, -⟩ := exists_blank_append cs
  obtain ⟨b₂, h₂, hb₂, hs⟩ := exists_blank_append u
  refine ⟨b₁ ++ op ++ b₂, ⟨b₁, b₂, rfl, hb₁, hb₂⟩, ?_, hs⟩
  rw [h₁, expect_eq_some_iff.1 hu]
  nth_rewrite 1 [h₂]
  simp

theorem Spaced.stops {c : Char} {op : List Char} (h : Spaced (c :: op) t) (hc : p c = false)
    (hb : ∀ c, isBlank c = true → p c = false) : Stops p (t ++ rest) := by
  obtain ⟨b₁, b₂, rfl, h₁, -⟩ := h
  cases b₁ with
  | nil => exact stops_cons.2 hc
  | cons c b₁ => exact stops_cons.2 (hb c (h₁ c (by simp)))

theorem isRun_not_mem {c : Char} (h : IsRun p w) (hc : p c = false) : c ∉ w := fun hm ↦ by
  rw [h.2 c hm] at hc
  cases hc

theorem isDigit_point : Char.isDigit '.' = false := by decide

theorem numeral_append (h : IsNumeral t) (hd : Stops Char.isDigit rest)
    (hp : Stops (· = '.') rest) : numeral (t ++ rest) = some (t, rest) := by
  rcases h with h | ⟨whole, frac, rfl, hw, hf⟩
  · simp only [numeral, digits, run_append_of_stops h hd, Option.bind_eq_bind, Option.bind_some]
    split
    · simp [stops_cons] at hp
    · rfl
  · have hs : Stops Char.isDigit ('.' :: (frac ++ rest)) := stops_cons.2 isDigit_point
    simp only [numeral, digits, List.append_assoc, List.cons_append, run_append_of_stops hw hs,
      Option.bind_eq_bind, Option.bind_some, run_append_of_stops hf hd]

theorem numeral_sound (h : numeral cs = some (w, rest)) : cs = w ++ rest ∧ IsNumeral w := by
  simp only [numeral, Option.bind_eq_bind, Option.bind_eq_some_iff, Prod.exists] at h
  obtain ⟨whole, r, hw, h⟩ := h
  obtain ⟨rfl, hwhole, -⟩ := run_sound hw
  split at h
  · split at h
    · next hf =>
      obtain ⟨rfl, hfrac, -⟩ := run_sound hf
      obtain ⟨rfl, rfl⟩ : _ = w ∧ _ = rest := by simpa using h
      exact ⟨by simp, .inr ⟨_, _, rfl, hwhole, hfrac⟩⟩
    · obtain ⟨rfl, rfl⟩ : _ = w ∧ _ = rest := by simpa using h
      exact ⟨rfl, .inl hwhole⟩
  · obtain ⟨rfl, rfl⟩ : _ = w ∧ _ = rest := by simpa using h
    exact ⟨rfl, .inl hwhole⟩

theorem exists_numeral (h : IsNumeral t) (post : List Char) :
    ∃ w rest, numeral (t ++ post) = some (w, rest) ∧ rest.length ≤ post.length := by
  have hd := (List.dropWhile_suffix (l := post) Char.isDigit).length_le
  rcases h with h | ⟨whole, frac, rfl, hw, hf⟩
  · simp only [numeral, digits, run_append h, Option.bind_eq_bind, Option.bind_some]
    split
    · next tail htail =>
      split
      · next rest hrest =>
        obtain ⟨rfl, -, -⟩ := run_sound hrest
        rw [htail] at hd
        simp only [List.length_cons, List.length_append] at hd
        exact ⟨_, _, rfl, by omega⟩
      · exact ⟨_, _, rfl, hd⟩
    · exact ⟨_, _, rfl, hd⟩
  · have hs : Stops Char.isDigit ('.' :: (frac ++ post)) := stops_cons.2 isDigit_point
    refine ⟨whole ++ '.' :: (frac ++ post.takeWhile Char.isDigit), _, ?_, hd⟩
    simp only [numeral, digits, List.append_assoc, List.cons_append, run_append_of_stops hw hs,
      Option.bind_eq_bind, Option.bind_some, run_append hf]

theorem recognises_numeral : Recognises numeral fun a t ↦ a = t ∧ IsNumeral t where
  sound h := by
    obtain ⟨rfl, hw⟩ := numeral_sound h
    exact ⟨_, rfl, rfl, hw⟩
  complete post h := by
    obtain ⟨rfl, ht⟩ := h
    obtain ⟨w, rest, hn, hle⟩ := exists_numeral ht post
    refine ⟨w, rest, hn, ?_⟩
    rcases hle.lt_or_eq with hlt | heq
    · exact .inr hlt
    · obtain ⟨rfl, rfl⟩ := List.append_inj' (numeral_sound hn).1 heq.symm
      exact .inl ⟨rfl, rfl⟩

variable {q : List Char → Option α}

theorem search_of_eq_some {a : α} (h : q cs = some a) : search q cs = some a := by
  cases cs <;> simp [search, h]

theorem search_append (h : ∀ s u, s ≠ [] → w = u ++ s → q (s ++ rest) = none) :
    search q (w ++ rest) = search q rest := by
  induction w with
  | nil => rfl
  | cons c w ih =>
    have hc : q (c :: w ++ rest) = none := h (c :: w) [] (by simp) rfl
    have ht : ∀ s u, s ≠ [] → w = u ++ s → q (s ++ rest) = none :=
      fun s u hs hw ↦ h s (c :: u) hs (by rw [hw, List.cons_append])
    simp only [List.cons_append] at hc ⊢
    rw [search, hc, Option.none_or, ih ht]

theorem search_eq_some_iff {a : α} : search q cs = some a ↔
    ∃ before tail, cs = before ++ tail ∧ q tail = some a ∧
      ∀ before' tail', cs = before' ++ tail' → before'.length < before.length → q tail' = none := by
  induction cs with
  | nil =>
    constructor
    · intro h
      exact ⟨[], [], rfl, h, by simp⟩
    · rintro ⟨before, tail, hcs, h, -⟩
      obtain ⟨rfl, rfl⟩ := List.append_eq_nil_iff.1 hcs.symm
      exact h
  | cons c cs ih =>
    cases hq : q (c :: cs) with
    | some b =>
      rw [search, hq, Option.some_or]
      constructor
      · intro h
        exact ⟨[], c :: cs, rfl, hq.trans h, by simp⟩
      · rintro ⟨before, tail, hcs, h, hl⟩
        cases before with
        | nil => rw [← hq, hcs]; exact h
        | cons d before => simp [hl [] (c :: cs) rfl (by simp)] at hq
    | none =>
      rw [search, hq, Option.none_or, ih]
      constructor
      · rintro ⟨before, tail, rfl, h, hl⟩
        refine ⟨c :: before, tail, rfl, h, fun before' tail' hcs hlt ↦ ?_⟩
        cases before' with
        | nil => rw [← show c :: (before ++ tail) = tail' from hcs]; exact hq
        | cons d before' =>
          exact hl before' tail' (List.cons.inj hcs).2 (by simpa using hlt)
      · rintro ⟨before, tail, hcs, h, hl⟩
        cases before with
        | nil => rw [← show c :: cs = tail from hcs, hq] at h; cases h
        | cons d before =>
          obtain ⟨rfl, rfl⟩ := List.cons.inj hcs
          exact ⟨before, tail, rfl, h, fun before' tail' hcs' hlt ↦
            hl (c :: before') tail' (congrArg (c :: ·) hcs') (by simpa using hlt)⟩

theorem occurs_iff : occurs t cs = true ↔ t <:+: cs := by
  rw [occurs, Option.isSome_iff_exists]
  constructor
  · rintro ⟨rest, h⟩
    obtain ⟨before, tail, rfl, h, -⟩ := search_eq_some_iff.1 h
    exact ⟨before, rest, by rw [expect_eq_some_iff.1 h, List.append_assoc]⟩
  · rintro ⟨before, after, rfl⟩
    induction before with
    | nil =>
      exact ⟨after, search_of_eq_some (expect_eq_some_iff.2 rfl)⟩
    | cons c before ih =>
      obtain ⟨rest, h⟩ := ih
      cases he : expect t (c :: before ++ t ++ after) with
      | some r => exact ⟨r, search_of_eq_some he⟩
      | none => exact ⟨rest, by
          simp only [List.cons_append] at he ⊢
          rw [search, he, Option.none_or, h]⟩

namespace Recognises

variable {s : Scanner α} {F : α → List Char → Prop}

theorem exact {a : α} (h : Recognises s F) (ha : F a t) : s t = some (a, []) := by
  obtain ⟨b, rest, hs, ⟨rfl, rfl⟩ | hl⟩ := h.complete [] ha
  · simpa using hs
  · simp at hl

theorem complete_of_eq_map {β : Type} {s' : Scanner β} {a : α} {f : α → β} {u : List Char}
    (h : Recognises s F) (ha : F a t) (post : List Char)
    (hs : s' (u ++ (t ++ post)) = (s (t ++ post)).map fun x ↦ (f x.1, x.2)) :
    ∃ b rest, s' (u ++ t ++ post) = some (b, rest) ∧
      (rest = post ∧ b = f a ∨ rest.length < post.length) := by
  obtain ⟨b, rest, hb, hr⟩ := h.complete post ha
  refine ⟨f b, rest, by rw [List.append_assoc, hs, hb, Option.map_some], ?_⟩
  exact hr.imp_left fun ⟨hrest, hba⟩ ↦ ⟨hrest, congrArg f hba⟩

/-- Searching finds the leftmost text of the form, and the longest that starts there. -/
theorem search_iff {a : α} (h : Recognises s F) :
    (∃ rest, search s cs = some (a, rest)) ↔ Leftmost F cs a := by
  constructor
  · rintro ⟨rest, hs⟩
    obtain ⟨before, tail, rfl, hs, hl⟩ := search_eq_some_iff.1 hs
    obtain ⟨text, rfl, ha⟩ := h.sound hs
    refine ⟨before, text, rest, by simp, ha, fun before' a' text' after' hcs ha' ↦ ?_⟩
    obtain ⟨b, rest', hs', hr⟩ := h.complete after' ha'
    rw [List.append_assoc] at hcs
    -- an earlier place would have been found, and from the same place the scanner takes all it can
    rcases Nat.lt_trichotomy before.length before'.length with hlt | heq | hgt
    · exact .inl hlt
    · obtain ⟨rfl, htail⟩ := List.append_inj hcs heq
      rw [← htail, hs] at hs'
      obtain ⟨rfl, rfl⟩ : a = b ∧ rest = rest' := by simpa using hs'
      have hle : rest.length ≤ after'.length := by
        rcases hr with ⟨rfl, -⟩ | hr
        · exact le_rfl
        · exact hr.le
      have hlen := congrArg List.length htail
      simp only [List.length_append] at hlen
      exact .inr ⟨rfl, by omega⟩
    · rw [hl before' _ hcs hgt] at hs'
      cases hs'
  · rintro ⟨before, text, after, rfl, ha, hl⟩
    obtain ⟨b, rest, hs, hr⟩ := h.complete after ha
    obtain ⟨text', htext, hb⟩ := h.sound hs
    have hlen := congrArg List.length htext
    simp only [List.length_append] at hlen
    rcases hr with ⟨rfl, rfl⟩ | hr
    · refine ⟨rest, search_eq_some_iff.2 ⟨before, text ++ rest, by simp, hs, ?_⟩⟩
      intro before' tail' hcs hlt
      by_contra hne
      obtain ⟨⟨a', r⟩, hs'⟩ := Option.ne_none_iff_exists'.1 hne
      obtain ⟨u, rfl, hu⟩ := h.sound hs'
      have := hl before' a' u r (by rw [hcs, List.append_assoc]) hu
      omega
    · -- the scanner takes more only where a longer text of the form starts
      have := hl before b text' rest (by rw [List.append_assoc, htext, List.append_assoc]) hb
      omega

theorem leftmost_unique {a b : α} (h : Recognises s F) (ha : Leftmost F cs a)
    (hb : Leftmost F cs b) : a = b := by
  obtain ⟨r, hr⟩ := h.search_iff.2 ha
  obtain ⟨r', hr'⟩ := h.search_iff.2 hb
  rw [hr, Option.some.injEq, Prod.mk.injEq] at hr'
  exact hr'.1

theorem leftmost_of_form {a : α} (h : Recognises s F) (ha : F a t) : Leftmost F t a :=
  h.search_iff.1 ⟨[], search_of_eq_some (h.exact ha)⟩

end Recognises

end Achievements.Text
