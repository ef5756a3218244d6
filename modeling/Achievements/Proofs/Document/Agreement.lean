import Achievements.Proofs.Document.Acceptance
import Achievements.Proofs.Json.Reading
import Achievements.Proofs.Json.Rearrangement

namespace Achievements

open Json (Same SameItems SameMembers Settles Written Mismatch)

open Json.Written (Performs RearrangedMembers allItems_texts allMembers_text colon_body ends_behind
  exists_scalar_start itemTexts itemValues joined memberTexts memberValues nextItem_append_blank
  settles_scalarOf settles_value toOption_scalarOf)

namespace Condition

section Order

variable {v w : Json}

theorem comparison_describes_obj_iff {ms : List (String × Json)} {op : Comparison} :
    Comparison.Describes (.obj ms) op ↔
      ms.length = 1 ∧ ∃ v, (op.token, v) ∈ ms ∧ (v = .null ∨ v = .obj []) := by
  constructor
  · intro h
    cases h with
    | null => simp
    | empty => simp
  · rintro ⟨hlength, v, hv, hnone⟩
    obtain ⟨m, rfl⟩ := List.length_eq_one_iff.1 hlength
    obtain rfl := List.mem_singleton.1 hv
    rcases hnone with rfl | rfl
    · exact .null op
    · exact .empty op

theorem nothing_congr (h : Same v w) : v = .null ∨ v = .obj [] ↔ w = .null ∨ w = .obj [] := by
  cases h with
  | refl => exact Iff.rfl
  | arr h => simp
  | obj h hp =>
    have hlength := h.length_eq.trans hp.length_eq
    simp only [reduceCtorEq, Json.obj.injEq, false_or, ← List.length_eq_zero_iff, hlength]

theorem comparison_describes_congr {ms ns ks : List (String × Json)} {op : Comparison}
    (h : SameMembers ms ns) (hp : ns.Perm ks) :
    Comparison.Describes (.obj ms) op ↔ Comparison.Describes (.obj ks) op := by
  simp only [comparison_describes_obj_iff, h.length_eq.trans hp.length_eq,
    h.exists_mem_iff nothing_congr, hp.mem_iff]

theorem Field.not_describes_arr {f : Field} {x : f.Content} {vs : List Json} :
    ¬f.Describes (.arr vs) x := by
  rw [← decode_eq_ok_iff]
  cases f <;> exact nofun

theorem Field.not_describes_obj {f : Field} (hf : f ≠ .op) {x : f.Content}
    {ms : List (String × Json)} : ¬f.Describes (.obj ms) x := by
  rw [← decode_eq_ok_iff]
  cases f with
  | op => exact absurd rfl hf
  | _ => exact nofun

theorem Field.describes_congr {f : Field} {x : f.Content} (h : Same v w) :
    f.Describes v x ↔ f.Describes w x := by
  cases h with
  | refl => exact Iff.rfl
  | arr h => exact iff_of_false not_describes_arr not_describes_arr
  | obj h hp =>
    by_cases hf : f = .op
    · subst hf
      exact comparison_describes_congr h hp
    · exact iff_of_false (not_describes_obj hf) (not_describes_obj hf)

theorem forall₂_describes_congr {es : List ((f : Field) × f.Content)} {vs ws : List Json}
    (h : SameItems vs ws) :
    List.Forall₂ (fun e v ↦ e.1.Describes v e.2) es vs ↔
      List.Forall₂ (fun e v ↦ e.1.Describes v e.2) es ws := by
  induction vs generalizing es ws with
  | nil =>
    cases h
    exact Iff.rfl
  | cons v vs ih =>
    cases h with
    | cons hsame hrest =>
      cases es with
      | nil => simp
      | cons e es =>
        rw [List.forall₂_cons, List.forall₂_cons, Field.describes_congr hsame, ih hrest]

theorem str_congr {s : String} (h : Same v w) : v = .str s ↔ w = .str s := by
  cases h <;> simp

theorem ofJson_congr {c : Condition} (h : Same v w) (hv : v.DistinctKeys) :
    ofJson v = .ok c ↔ ofJson w = .ok c := by
  have hw := h.distinctKeys hv
  cases h with
  | refl => exact Iff.rfl
  | arr h =>
    cases h with
    | nil => exact Iff.rfl
    | cons hsame hrest =>
      rw [ofJson_arr_eq_ok_iff, ofJson_arr_eq_ok_iff, str_congr hsame,
        forall₂_describes_congr hrest]
  | @obj ms ns ks h hp =>
    have htype : ("type", .str c.tag) ∈ ms ↔ ("type", .str c.tag) ∈ ks := by
      simpa [hp.mem_iff] using h.exists_mem_iff (str_congr (s := c.tag)) "type"
    simp only [ofJson_obj_eq_ok_iff hv.1, ofJson_obj_eq_ok_iff hw.1, htype,
      h.exists_mem_iff Field.describes_congr, hp.mem_iff]

theorem toOption_ofJson_congr (h : Same v w) (hv : v.DistinctKeys) :
    (ofJson v).toOption = (ofJson w).toOption := by
  ext c
  rw [Json.toOption_eq_some_iff, Json.toOption_eq_some_iff, ofJson_congr h hv]

end Order

section Text

theorem identifier_words :
    Json.identifier Kind.words = Json.scalarOf "variant identifier" kindOf := by
  rw [Json.identifier]
  congr 1

theorem settles_identifier (w : Written) :
    Settles (Json.identifier Kind.words) w.text (w.value?.bind fun v ↦ (kindOf v).toOption) := by
  rw [identifier_words]
  exact settles_scalarOf (fun _ ↦ rfl) (fun _ ↦ rfl) _ w

/-- What a member does to what has been read so far: the type is decoded at once, and may come only
once. -/
def absorb (s : Option Kind × List (String × Json)) (m : String × Json) :
    Option (Option Kind × List (String × Json)) :=
  if m.1 = "type" then
    if s.1.isSome then none else (kindOf m.2).toOption.map fun kind ↦ (some kind, s.2)
  else some (s.1, m :: s.2)

theorem performs_member {depth : Nat} {m : Json.Key × Written}
    (h : Settles (Json.value depth) m.2.text m.2.value?) : Performs (member depth) absorb m := by
  intro s key rest hrest
  have hblank := m.1.gap.before.blank
  simp only [member, absorb, colon_body]
  split
  case isTrue =>
    split
    case isTrue => cases m.2.value? <;> rfl
    case isFalse =>
      refine (Json.toOption_bind (Json.identifier Kind.words _) _).trans ?_
      rw [identifier_words, Json.skipsBlanks_scalarOf _ _ _ _ hblank, ← identifier_words,
        settles_identifier m.2 rest hrest]
      cases m.2.value? with
      | none => rfl
      | some v =>
        rw [Option.bind_some, Option.bind_some]
        cases (kindOf v).toOption <;> rfl
  case isFalse =>
    refine (Json.toOption_bind (Json.value depth _) _).trans ?_
    rw [Json.value_append_blank hblank, h rest hrest]
    cases m.2.value? <;> rfl

variable {ms acc : List (String × Json)}

theorem foldlM_absorb_rest (hms : "type" ∉ ms.map Prod.fst) (kind : Option Kind) :
    ms.foldlM absorb (kind, acc) = some (kind, ms.reverse ++ acc) := by
  induction ms generalizing acc with
  | nil => rfl
  | cons m ms ih =>
    rw [List.map_cons, List.mem_cons, not_or] at hms
    have hstep : absorb (kind, acc) m = some (kind, m :: acc) := if_neg (Ne.symm hms.1)
    rw [List.foldlM_cons, hstep, Option.bind_eq_bind, Option.bind_some, ih hms.2]
    simp

theorem foldlM_absorb (hkeys : (ms.map Prod.fst).Nodup) :
    ms.foldlM absorb (none, acc) = match ms.lookup "type" with
      | none => some (none, ms.reverse ++ acc)
      | some v => (kindOf v).toOption.map fun kind ↦
        (some kind, (ms.filter (·.1 ≠ "type")).reverse ++ acc) := by
  induction ms generalizing acc with
  | nil => rfl
  | cons m ms ih =>
    obtain ⟨key, v⟩ := m
    rw [List.map_cons, List.nodup_cons] at hkeys
    rw [List.foldlM_cons]
    by_cases hkey : key = "type"
    · subst hkey
      have hfilter : ms.filter (·.1 ≠ "type") = ms := by
        rw [List.filter_eq_self]
        rintro ⟨key, w⟩ hm
        have hne : key ≠ "type" := fun h ↦ hkeys.1 (List.mem_map.2 ⟨_, hm, h⟩)
        simpa using hne
      have hstep : absorb (none, acc) ("type", v) =
          (kindOf v).toOption.map fun kind ↦ (some kind, acc) := rfl
      have hlookup : (("type", v) :: ms).lookup "type" = some v := by simp
      rw [hstep, List.filter_cons_of_neg (by simp), hfilter]
      simp only [hlookup]
      cases (kindOf v).toOption with
      | none => rfl
      | some kind => exact foldlM_absorb_rest hkeys.1 (some kind)
    · have hstep : absorb (none, acc) (key, v) = some (none, (key, v) :: acc) := if_neg hkey
      have hlookup : ((key, v) :: ms).lookup "type" = ms.lookup "type" := by
        rw [List.lookup_cons, beq_eq_false_iff_ne.2 (Ne.symm hkey)]
      rw [hlookup, hstep, List.filter_cons_of_pos (by simpa using hkey)]
      refine (ih hkeys.2).trans ?_
      simp

theorem toOption_checked {α : Type} (rest : List Char) (x : Except Mismatch α) :
    (checked rest x).toOption = x.toOption.map (·, rest) := by
  cases x <;> rfl

theorem bind_foldlM_absorb (hkeys : (ms.map Prod.fst).Nodup) :
    ((ms.foldlM absorb (none, [])).bind fun s ↦
        (Json.required "type" s.1 >>= (ofMembers · s.2.reverse)).toOption) =
      (ofJson (.obj ms)).toOption := by
  rw [foldlM_absorb hkeys, ofJson]
  cases ms.lookup "type" with
  | none => rfl
  | some v =>
    cases hkind : kindOf v with
    | error m => simp [hkind, bind, Except.bind, Except.toOption]
    | ok kind => simp [hkind, bind, Except.bind, Except.toOption, Json.required]

theorem toOption_read_curly (cs : List Char) :
    (read ('\x7b' :: cs)).toOption =
      (Json.allMembers (member (Json.maxDepth - 1)) (none, []) cs).toOption.bind fun (s, rest) ↦
        (Json.required "type" s.1 >>= (ofMembers · s.2.reverse)).toOption.map (·, rest) := by
  refine (Json.toOption_bind (Json.allMembers _ _ cs) _).trans ?_
  simp only [toOption_checked]

theorem settles_read_object {inner : Json.Blanks} {members : List (Json.Key × Written)}
    (h : ∀ m ∈ members, m.2.Within (Json.maxDepth - 1))
    (hkeys : ∀ ms, memberValues members = some ms → (ms.map Prod.fst).Nodup) :
    Settles read (Written.object inner members).text
      ((memberValues members).bind fun ms ↦ (ofJson (.obj ms)).toOption) := by
  intro rest _
  have hread := allMembers_text
    (fun m hm ↦ performs_member (settles_value (h m hm))) (none, []) inner rest
  simp only [Json.Written.text, List.cons_append, List.append_assoc, List.nil_append]
  rw [toOption_read_curly, hread]
  cases hms : memberValues members with
  | none => rfl
  | some ms =>
    rw [Option.bind_some, Option.bind_some, ← bind_foldlM_absorb (hkeys ms hms)]
    cases ms.foldlM absorb (none, []) <;> rfl

theorem toOption_read_square {cs cs' : List Char}
    (hnext : Json.nextItem true cs = .ok (.item cs')) :
    (read ('[' :: cs)).toOption =
      (Json.identifier Kind.words cs').toOption.bind fun (kind, cs) ↦
        (Json.allItems (Json.value (Json.maxDepth - 1)) false cs).toOption.bind fun (vs, rest) ↦
          (ofItems kind vs).toOption.map (·, rest) := by
  refine (Json.toOption_bind (Json.nextItem true cs) _).trans ?_
  rw [hnext]
  refine (Json.toOption_bind (Json.identifier Kind.words cs') _).trans ?_
  congr 1
  funext ⟨kind, cs⟩
  refine (Json.toOption_bind (Json.allItems _ false cs) _).trans ?_
  simp only [toOption_checked]

theorem toOption_ofJson_arr (v : Json) (vs : List Json) :
    (ofJson (.arr (v :: vs))).toOption =
      (kindOf v).toOption.bind fun kind ↦ (ofItems kind vs).toOption :=
  Json.toOption_bind (kindOf v) _

theorem settles_read_array {inner : Json.Blanks} {items : List (Json.Gap × Written)}
    (h : ∀ i ∈ items, i.2.Within (Json.maxDepth - 1)) :
    Settles read (Written.array inner items).text
      ((itemValues items).bind fun vs ↦ (ofJson (.arr vs)).toOption) := by
  intro rest _
  simp only [Json.Written.text, List.cons_append, List.append_assoc, List.nil_append]
  cases items with
  | nil =>
    refine (Json.toOption_bind (Json.nextItem true _) _).trans ?_
    rw [itemTexts, joined, List.nil_append, Json.nextItem_closed inner.blank]
    rfl
  | cons i is =>
    obtain ⟨gap, w⟩ := i
    have hkind := settles_identifier w _
      (ends_behind gap.after.blank (.inl rfl) (itemTexts is) rest)
    have hitems := allItems_texts (fun i hi ↦ settles_value (h i (List.mem_cons_of_mem _ hi)))
      gap.after.blank rest
    have hnext := nextItem_append_blank inner.blank true
    simp only [itemTexts, joined, Json.Gap.around, List.append_assoc]
    rw [toOption_read_square ((hnext _).trans (Json.nextItem_first gap.before.blank w.opens_text)),
      hkind, itemValues]
    cases w.value? with
    | none => rfl
    | some v =>
      rw [Option.bind_some]
      cases hkind : (kindOf v).toOption with
      | none => cases itemValues is <;> simp [toOption_ofJson_arr, hkind]
      | some kind =>
        simp only [Option.map_some, Option.bind_some, hitems]
        cases itemValues is <;> simp [toOption_ofJson_arr, hkind]

theorem settles_read_scalar {w : Written} (h : w.IsScalar) :
    Settles read w.text (w.value?.bind fun v ↦ (ofJson v).toOption) := by
  intro rest hrest
  obtain ⟨c, cs, htext, hblank, -, -, hsquare, hcurly⟩ := exists_scalar_start h
  have hskip : Json.skipBlanks (c :: (cs ++ rest)) = c :: (cs ++ rest) :=
    Json.skipBlanks_of_stops (Text.stops_cons.2 hblank)
  have hnone : (w.value?.bind fun v ↦ (ofJson v).toOption) = none := by
    rw [Option.bind_eq_none_iff]
    intro v hv
    obtain ⟨hitems, hmembers⟩ := Json.Written.IsScalar.ne_bracket h hv
    cases v with
    | arr vs => exact absurd rfl (hitems vs)
    | obj ms => exact absurd rfl (hmembers ms)
    | _ => rfl
  rw [hnone, htext, List.cons_append, read, hskip]
  split
  case h_1 heq => exact absurd (List.cons.inj heq).1 hcurly
  case h_2 heq => exact absurd (List.cons.inj heq).1 hsquare
  case h_3 =>
    rw [toOption_scalarOf hblank hsquare hcurly]
    simp [Except.toOption]

/-- Reading a condition straight from a text is reading the value first, as long as no key comes
twice. -/
theorem settles_read {w : Written} (h : w.Within Json.maxDepth)
    (hkeys : ∀ v, w.value? = some v → v.DistinctKeys) :
    Settles read w.text (w.value?.bind fun v ↦ (ofJson v).toOption) := by
  cases w with
  | array inner items =>
    rw [Json.Written.value?, Option.bind_map]
    exact settles_read_array h
  | object inner members =>
    rw [Json.Written.value?, Option.bind_map]
    refine settles_read_object h fun ms hms ↦ (hkeys (.obj ms) ?_).1
    rw [Json.Written.value?, hms]
    rfl
  | _ => exact settles_read_scalar (by trivial)

theorem skipsBlanks_read : Json.SkipsBlanks read := by
  intro b cs hb
  simp only [read, Json.skipBlanks_append hb]

theorem toOption_read_source {w : Written} (h : w.Within Json.maxDepth)
    (hkeys : ∀ v, w.value? = some v → v.DistinctKeys) (gap : Json.Gap) :
    (Json.readAll read (w.source gap)).toOption = w.value?.bind fun v ↦ (ofJson v).toOption :=
  Json.toOption_readAll_source skipsBlanks_read (settles_read h hkeys) gap

theorem toOption_read_rearranged {w w' : Written} (hr : w.Rearranged w')
    (h : w.Within Json.maxDepth) (hkeys : ∀ v, w.value? = some v → v.DistinctKeys)
    (gap gap' : Json.Gap) :
    (Json.readAll read (w'.source gap')).toOption =
      (Json.readAll read (w.source gap)).toOption := by
  rw [toOption_read_source h hkeys, toOption_read_source (hr.within h) (hr.distinctKeys hkeys)]
  refine (Json.bind_eq_bind_of_rel hr.rel_value? ?_).symm
  intro v v' hv hsame
  exact toOption_ofJson_congr hsame (hkeys v hv)

end Text

end Condition

namespace Conjunction

def documentOf (t : String) : String := "\x7b\"type\":\"and\",\"conditions\":[" ++ t ++ "]\x7d"

def enclosing (gap : Json.Gap) (w : Written) : Written :=
  .object .none [
    (.close (Json.Piece.spell "type"), .string (Json.Piece.spell "and")),
    (.close (Json.Piece.spell "conditions"), .array .none [(gap, w)])]

variable (gap : Json.Gap) {w : Written}

theorem text_enclosing :
    (enclosing gap w).text =
      "\x7b\"type\":\"and\",\"conditions\":[".toList ++ gap.around w.text ++ "]\x7d".toList := by
  simp [enclosing, Json.Written.text, memberTexts, itemTexts, joined, Json.Key.member,
    Json.Key.close, Json.Key.body, Json.Piece.spell, Json.Piece.ofChar, Json.Piece.text,
    Json.Blanks.none, Json.Gap.none]

theorem documentOf_source : documentOf (w.source gap) = (enclosing gap w).source .none := by
  have happend (a b : String) (p : List Char) :
      a ++ .ofList p ++ b = .ofList (a.toList ++ p ++ b.toList) := by
    rw [String.ofList_append, String.ofList_append, String.ofList_toList, String.ofList_toList]
  unfold documentOf Json.Written.source
  rw [Json.Gap.around_none, happend, ← text_enclosing]

theorem value?_enclosing :
    (enclosing gap w).value? =
      w.value?.map fun v ↦ .obj [("type", .str "and"), ("conditions", .arr [v])] := by
  simp only [enclosing, Json.Written.value?, memberValues, itemValues, Json.Key.close,
    Json.Piece.decode_spell]
  cases w.value? <;> simp

theorem within_enclosing {n : Nat} (h : w.Within n) : (enclosing gap w).Within (n + 2) := by
  simp [enclosing, Json.Written.Within, h]

theorem sorted_singleton (v : Json) :
    (Json.obj [("type", .str "and"), ("conditions", .arr [v])]).sorted =
      .obj [("conditions", .arr [v.sorted]), ("type", .str "and")] := by
  simp only [Json.sorted, Json.sortedMembers, Json.sortedMember, Json.sortedItems,
    Json.insertMember, List.foldl_cons, List.foldl_nil, String.reduceLT, if_true]

theorem toOption_ofValue_singleton (v : Json) :
    (ofValue (.obj [("conditions", .arr [v]), ("type", .str "and")])).toOption =
      (Condition.ofJson v).toOption.map fun c ↦ ⟨[c]⟩ := by
  have hconditions : conditionsOf (.obj [("conditions", .arr [v]), ("type", .str "and")]) =
      [v].mapM Condition.ofJson := rfl
  rw [ofValue_of_type rfl, hconditions, List.mapM_cons, List.mapM_nil]
  cases Condition.ofJson v <;> rfl

theorem toOption_parse_documentOf (h : w.Within 125) :
    (parse (documentOf (w.source gap))).toOption =
      w.value?.bind fun v ↦ (Condition.ofJson v.sorted).toOption.map fun c ↦ ⟨[c]⟩ := by
  have hread := Json.toOption_readAll_source (Json.skipsBlanks_value Json.maxDepth)
    (settles_value (within_enclosing gap h)) .none
  have hparse (t : String) :
      (parse t).toOption = (Json.parse t).toOption.bind fun v ↦ (ofValue v).toOption := by
    rw [parse]
    cases Json.parse t <;> rfl
  rw [documentOf_source, hparse, Json.parse, Json.toOption_map, hread, value?_enclosing]
  cases w.value? with
  | none => rfl
  | some v =>
    simp only [Option.map_some, Option.bind_some, sorted_singleton, toOption_ofValue_singleton]

theorem toOption_parse_eq_map_read (h : w.Within 125)
    (hkeys : ∀ v, w.value? = some v → v.DistinctKeys) :
    (parse (documentOf (w.source gap))).toOption =
      (Json.readAll Condition.read (w.source gap)).toOption.map fun c ↦ ⟨[c]⟩ := by
  rw [toOption_parse_documentOf gap h, Condition.toOption_read_source (h.mono (by decide)) hkeys]
  cases hv : w.value? with
  | none => rfl
  | some v =>
    have hdistinct := hkeys v hv
    rw [Option.bind_some, Option.bind_some,
      Condition.toOption_ofJson_congr (Json.same_sorted v hdistinct) hdistinct]

/-- A condition is read straight from a text exactly if the document around the text is read as
this condition alone. Neither depends on the order of members. -/
theorem readings_agree (w : Json.Written) (gap : Json.Gap) (hdepth : w.Within 125)
    (hkeys : ∀ v, w.value? = some v → v.DistinctKeys) :
    (∀ c, Json.readAll Condition.read (w.source gap) = .ok c ↔
        parse (documentOf (w.source gap)) = .ok ⟨[c]⟩) ∧
      ∀ w' gap', w.Rearranged w' →
        (∀ c, Json.readAll Condition.read (w'.source gap') = .ok c ↔
          Json.readAll Condition.read (w.source gap) = .ok c) ∧
        ∀ d, parse (documentOf (w'.source gap')) = .ok d ↔
          parse (documentOf (w.source gap)) = .ok d := by
  have hagree := toOption_parse_eq_map_read gap hdepth hkeys
  refine ⟨fun c ↦ ?_, fun w' gap' hr ↦ ?_⟩
  · rw [← Json.toOption_eq_some_iff, ← Json.toOption_eq_some_iff, hagree]
    simp
  · have hread := Condition.toOption_read_rearranged hr (hdepth.mono (by decide)) hkeys gap gap'
    have hagree' := toOption_parse_eq_map_read gap' (hr.within hdepth) (hr.distinctKeys hkeys)
    constructor
    · intro c
      rw [← Json.toOption_eq_some_iff, ← Json.toOption_eq_some_iff, hread]
    · intro d
      rw [← Json.toOption_eq_some_iff, ← Json.toOption_eq_some_iff, hagree, hagree', hread]

theorem readings_agree_type_last :
    let ms : List (Json.Key × Written) := [
      (.close (Json.Piece.spell "value"), .number ⟨⟨false, ['5'], [], none⟩,
        ⟨⟨⟨by simp, by simp⟩, by simp⟩, by simp, by simp⟩, false, false⟩),
      (.close (Json.Piece.spell "op"), .object .none [
        (.close [.unit '0' '0' '3' 'e' 0x3e (by decide), .plain '=' (by decide)], .null)]),
      (.close (Json.Piece.spell "note"), .array .none []),
      (.close (Json.Piece.spell "stat"), .string (Json.Piece.spell "sr")),
      (.close (Json.Piece.spell "type"), .string (Json.Piece.spell "compare"))]
    let w : Written := .object .none ms
    let w' : Written := .object .none ms.reverse
    w.Within 125 ∧ (∀ v, w.value? = some v → v.DistinctKeys) ∧ w.Rearranged w' ∧
      parse (documentOf (w'.source .none)) = .ok ⟨[.compare "sr" .atLeast (.int 5)]⟩ := by
  intro ms w w'
  have hvalue : w.value? = some (.obj [("value", .int ⟨5, by decide, by decide⟩),
      ("op", .obj [(">=", .null)]), ("note", .arr []), ("stat", .str "sr"),
      ("type", .str "compare")]) := by
    have hinteger : Json.Numeral.integer? ⟨false, ['5'], [], none⟩ =
        some ⟨5, by decide, by decide⟩ := by decide +kernel
    have hname : Json.Piece.decode
        [.unit '0' '0' '3' 'e' 0x3e (by decide), .plain '=' (by decide)] = some ['>', '='] := rfl
    simp [w, ms, Json.Written.value?, memberValues, itemValues, Json.Key.close,
      Json.Piece.decode_spell, Json.Numeral.value?, hinteger, hname]
  have hdepth : w.Within 125 := by
    simp [w, ms, Json.Written.Within]
  have hkeys : ∀ v, w.value? = some v → v.DistinctKeys := by
    intro v hv
    obtain rfl := Option.some.inj (hvalue.symm.trans hv)
    simp [Json.DistinctKeys, Json.DistinctItems, Json.DistinctMembers, Json.DistinctMember]
  have hr : w.Rearranged w' := by
    have hsame : RearrangedMembers ms ms :=
      .cons rfl (.refl _) (.cons rfl (.refl _) (.cons rfl (.refl _) (.cons rfl (.refl _)
        (.cons rfl (.refl _) .nil))))
    exact .object hsame (List.reverse_perm ms).symm
  have hread : Json.readAll Condition.read (w.source .none) =
      .ok (.compare "sr" .atLeast (.int 5)) := by
    rw [← Json.toOption_eq_some_iff, Condition.toOption_read_source (hdepth.mono (by decide)) hkeys,
      hvalue]
    rfl
  obtain ⟨hiff, hmoved⟩ := readings_agree w .none hdepth hkeys
  exact ⟨hdepth, hkeys, hr, ((hmoved w' .none hr).2 _).2 ((hiff _).1 hread)⟩

end Conjunction

end Achievements
