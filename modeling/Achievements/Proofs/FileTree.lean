import Achievements.FileTree
import Mathlib.Data.List.Basic

namespace Achievements

theorem Path.fault?_ne_notFound {text : String} {e : FileError} (h : Path.fault? text = some e) :
    e ≠ .notFound := by
  rw [fault?] at h
  split at h
  · cases h; decide
  · split at h
    · cases h; decide
    · cases h

namespace FileTree

variable {t t' t'' : FileTree} {base names p q : Path} {e : Entry} {text : String}

def file? (t : FileTree) (p : Path) : Option ByteArray :=
  match t.entry? p with
  | some (.file bytes) => some bytes
  | _ => none

theorem entry?_put_self (t : FileTree) (e : Entry) (hp : p ≠ []) :
    entry? (t.put p e) p = some e := by
  simp [put, entry?, hp]

theorem entry?_put_of_ne (t : FileTree) (e : Entry) (hq : q ≠ p) :
    entry? (t.put p e) q = t.entry? q := by
  have hlookup : (q == p) = false := by simpa using hq
  simp [put, entry?, List.lookup_cons, hlookup]

theorem ne_nil_of_entry?_ne (hp : t.entry? p ≠ some .dir) : p ≠ [] := by
  intro hnil
  exact hp (by simp [hnil, entry?])

theorem file?_eq_some_iff {bytes : ByteArray} :
    t.file? p = some bytes ↔ t.entry? p = some (.file bytes) := by
  rw [file?]
  split <;> simp_all

section Changes

def AddsDirs (t t' : FileTree) : Prop :=
  ∀ p, t'.entry? p = t.entry? p ∨ t.entry? p = none ∧ t'.entry? p = some .dir

/-- What was a directory still is one, and what was a file, though maybe another one. -/
structure KeepsKinds (t t' : FileTree) : Prop where
  dirs : ∀ p, t.entry? p = some .dir → t'.entry? p = some .dir
  files : ∀ p, (t.file? p).isSome → (t'.file? p).isSome

theorem AddsDirs.refl (t : FileTree) : t.AddsDirs t := fun _ ↦ .inl rfl

theorem AddsDirs.trans (h : t.AddsDirs t') (h' : t'.AddsDirs t'') : t.AddsDirs t'' := by
  intro p
  rcases h p with hp | ⟨hp, hdir⟩ <;> rcases h' p with hp' | ⟨hp', hdir'⟩ <;> simp_all

theorem addsDirs_put (hp : t.entry? p = none) : t.AddsDirs (t.put p .dir) := by
  intro q
  by_cases hq : q = p
  · subst hq
    have hdir : t.entry? q ≠ some .dir := by simp [hp]
    exact .inr ⟨hp, entry?_put_self t .dir (ne_nil_of_entry?_ne hdir)⟩
  · exact .inl (entry?_put_of_ne t .dir hq)

theorem AddsDirs.file? (h : t.AddsDirs t') (p : Path) : t'.file? p = t.file? p := by
  rcases h p with hp | ⟨hp, hdir⟩ <;> simp [FileTree.file?, *]

theorem AddsDirs.keepsKinds (h : t.AddsDirs t') : t.KeepsKinds t' where
  dirs p hp := by
    rcases h p with hp' | ⟨hnone, -⟩
    · rw [hp', hp]
    · simp [hp] at hnone
  files p hp := by rwa [h.file? p]

theorem KeepsKinds.trans (h : t.KeepsKinds t') (h' : t'.KeepsKinds t'') : t.KeepsKinds t'' where
  dirs p hp := h'.dirs p (h.dirs p hp)
  files p hp := h'.files p (h.files p hp)

theorem file?_put_of_ne (t : FileTree) (e : Entry) (hq : q ≠ p) :
    (t.put p e).file? q = t.file? q := by
  rw [file?, entry?_put_of_ne t e hq, file?]

theorem file?_put_self (t : FileTree) (bytes : ByteArray) (hp : p ≠ []) :
    (t.put p (.file bytes)).file? p = some bytes := by
  rw [file?, entry?_put_self t _ hp]

theorem keepsKinds_put_file (bytes : ByteArray) (hp : t.entry? p ≠ some .dir) :
    t.KeepsKinds (t.put p (.file bytes)) where
  dirs q hq := by
    rwa [entry?_put_of_ne t _ (by rintro rfl; exact hp hq)]
  files q hq := by
    by_cases hqp : q = p
    · subst hqp
      simp [file?_put_self t bytes (ne_nil_of_entry?_ne hp)]
    · rwa [file?_put_of_ne t _ hqp]

end Changes

section Ways

/-- On the way from a directory along some names everything but the end is a directory, and no name
is too long. -/
def Reaches (t : FileTree) (base : Path) : Path → Prop
  | [] => True
  | name :: names =>
    t.entry? base = some .dir ∧ Path.isLongName name = false ∧ Reaches t (base ++ [name]) names

theorem reaches_append (t : FileTree) (base names rest : Path) :
    t.Reaches base (names ++ rest) ↔ t.Reaches base names ∧ t.Reaches (base ++ names) rest := by
  induction names generalizing base with
  | nil => simp [Reaches]
  | cons name names ih => simp [Reaches, ih, and_assoc]

theorem KeepsKinds.reaches (h : t.KeepsKinds t') (hreach : t.Reaches base names) :
    t'.Reaches base names := by
  induction names generalizing base with
  | nil => trivial
  | cons name names ih =>
    obtain ⟨hdir, hname, hrest⟩ := hreach
    exact ⟨h.dirs base hdir, hname, ih hrest⟩

theorem walk_append (hreach : t.Reaches base names) (rest : Path) :
    t.walk base (names ++ rest) = t.walk (base ++ names) rest := by
  induction names generalizing base with
  | nil => simp
  | cons name names ih =>
    obtain ⟨hdir, hname, hrest⟩ := hreach
    simp [walk, hdir, hname, ih hrest]

theorem walk_eq_ok_iff :
    t.walk base names = .ok e ↔ t.Reaches base names ∧ t.entry? (base ++ names) = some e := by
  induction names generalizing base with
  | nil =>
    rw [walk, List.append_nil]
    cases t.entry? base <;> simp [Reaches]
  | cons name names ih =>
    rw [walk, Reaches]
    cases hbase : t.entry? base with
    | none => simp
    | some entry =>
      cases entry with
      | file bytes => simp
      | dir =>
        cases hname : Path.isLongName name with
        | true => simp
        | false => simp [ih]

theorem locate_eq_ok_iff :
    t.locate p = .ok e ↔ Path.fault? p.text = none ∧ t.Reaches [] p ∧ t.entry? p = some e := by
  rw [locate]
  cases Path.fault? p.text with
  | some fault => simp
  | none => simp [walk_eq_ok_iff]

theorem readBytes_eq_ok_iff {bytes : ByteArray} :
    t.readBytes p = .ok bytes ↔ t.locate p = .ok (.file bytes) := by
  rw [readBytes]
  cases t.locate p with
  | error e => simp [bind, Except.bind]
  | ok entry => cases entry <;> simp [bind, Except.bind, pure, Except.pure]

theorem readText_eq_ok_iff : t.readText p = .ok text ↔ t.locate p = .ok (.file text.toUTF8) := by
  rw [← readBytes_eq_ok_iff, readText]
  cases t.readBytes p with
  | error e => simp [bind, Except.bind]
  | ok bytes =>
    simp only [bind, Except.bind, Except.ok.injEq]
    constructor
    · intro h
      split at h
      next s hs =>
        cases h
        rw [String.fromUTF8?] at hs
        split at hs
        · cases hs
          rfl
        · cases hs
      next => cases h
    · intro h
      rw [h, String.fromUTF8?, String.toUTF8_eq_toByteArray, dif_pos text.isValidUTF8]
      rfl

theorem KeepsKinds.readText (h : t.KeepsKinds t') (hfile : t'.file? p = t.file? p)
    (hread : t.readText p = .ok text) : t'.readText p = .ok text := by
  obtain ⟨hfault, hreach, hentry⟩ := locate_eq_ok_iff.mp (readText_eq_ok_iff.mp hread)
  rw [← file?_eq_some_iff, ← hfile, file?_eq_some_iff] at hentry
  exact readText_eq_ok_iff.mpr (locate_eq_ok_iff.mpr ⟨hfault, h.reaches hreach, hentry⟩)

end Ways

section Making

theorem addsDirs_makeWay (t : FileTree) (base names : Path) :
    t.AddsDirs (t.makeWay base names).1 := by
  induction names generalizing t base with
  | nil => exact .refl t
  | cons name names ih =>
    rw [makeWay]
    split
    · exact .refl t
    · split
      next hnone => exact (addsDirs_put hnone).trans (ih _ _)
      next => exact ih t _
      next => exact .refl t

theorem addsDirs_makeDirs (t : FileTree) (p : Path) : t.AddsDirs (t.makeDirs p).1 := by
  rw [makeDirs]
  split
  · exact .refl t
  · exact addsDirs_makeWay t [] p

theorem makeWay_of_reaches (hreach : t.Reaches base names)
    (hend : t.entry? (base ++ names) = some .dir) : t.makeWay base names = (t, .ok ()) := by
  induction names generalizing base with
  | nil => rfl
  | cons name names ih =>
    obtain ⟨-, hname, hrest⟩ := hreach
    rw [List.append_cons] at hend
    -- The place behind the first name is the end, or the next place on the way.
    have hdir : t.entry? (base ++ [name]) = some .dir := by
      cases names with
      | nil => rwa [List.append_nil] at hend
      | cons next names => exact hrest.1
    simp [makeWay, hname, hdir, ih hrest hend]

/-- Directories that are made stay made, also where a later one cannot be made. -/
theorem makeWay_makeWay (t : FileTree) (base names : Path) :
    (t.makeWay base names).1.makeWay base names = t.makeWay base names := by
  induction names generalizing t base with
  | nil => rfl
  | cons name names ih =>
    cases hname : Path.isLongName name with
    | true => simp [makeWay, hname]
    | false =>
      cases hentry : t.entry? (base ++ [name]) with
      | none =>
        have hput : entry? (t.put (base ++ [name]) .dir) (base ++ [name]) = some .dir :=
          entry?_put_self t .dir (by simp)
        have hmade := (addsDirs_makeWay _ (base ++ [name]) names).keepsKinds.dirs _ hput
        simp [makeWay, hname, hentry, hmade, ih]
      | some entry =>
        cases entry with
        | file bytes => simp [makeWay, hname, hentry]
        | dir =>
          have hkept := (addsDirs_makeWay t (base ++ [name]) names).keepsKinds.dirs _ hentry
          simp [makeWay, hname, hentry, hkept, ih]

theorem makeDirs_makeDirs (t : FileTree) (p : Path) :
    (t.makeDirs p).1.makeDirs p = t.makeDirs p := by
  unfold makeDirs
  cases Path.fault? p.text with
  | some e => rfl
  | none => exact makeWay_makeWay t [] p

theorem fault?_of_makeDirs (h : t.makeDirs p = (t', .ok ())) : Path.fault? p.text = none := by
  rw [makeDirs] at h
  split at h
  next => cases h
  next hfault => exact hfault

end Making

section Writing

theorem reaches_of_locate_dropLast (hp : t.locate p = .error .notFound)
    (hparent : t.locate p.dropLast = .ok e) :
    Path.fault? p.text = none ∧ t.Reaches [] p ∧ t.entry? p = none := by
  have hne : p ≠ [] := by
    intro hnil
    have hroot : t.locate [] = .ok .dir := locate_eq_ok_iff.mpr ⟨rfl, trivial, rfl⟩
    rw [hnil, hroot] at hp
    cases hp
  obtain ⟨parent, name, rfl⟩ := List.eq_nil_or_concat' p |>.resolve_left hne
  rw [List.dropLast_concat] at hparent
  obtain ⟨-, hreach, hentry⟩ := locate_eq_ok_iff.mp hparent
  rw [locate] at hp
  split at hp
  next fault hfault => exact absurd (Except.error.inj hp) (Path.fault?_ne_notFound hfault)
  next hfault =>
    rw [walk_append hreach, List.nil_append, walk, hentry] at hp
    cases e with
    | file bytes => cases hp
    | dir =>
      cases hname : Path.isLongName name with
      | true => simp [hname] at hp
      | false =>
        have hend := (reaches_append t [] parent [name]).mpr ⟨hreach, hentry, hname, trivial⟩
        refine ⟨hfault, hend, ?_⟩
        simp only [hname, walk] at hp
        cases hnone : t.entry? (parent ++ [name]) with
        | none => rfl
        | some entry => simp [hnone] at hp

theorem put_of_writeText (h : t.writeText p text = .ok t') :
    t' = t.put p (.file text.toUTF8) ∧ Path.fault? p.text = none ∧ t.Reaches [] p ∧
      t.entry? p ≠ some .dir := by
  rw [writeText] at h
  split at h
  next => cases h
  next bytes hfile =>
    obtain ⟨hfault, hreach, hentry⟩ := locate_eq_ok_iff.mp hfile
    exact ⟨(Except.ok.inj h).symm, hfault, hreach, by simp [hentry]⟩
  next hmissing =>
    cases hparent : t.locate p.dropLast with
    | error e => simp [hparent, Except.map] at h
    | ok entry =>
      obtain ⟨hfault, hreach, hnone⟩ := reaches_of_locate_dropLast hmissing hparent
      rw [hparent] at h
      exact ⟨(Except.ok.inj h).symm, hfault, hreach, by simp [hnone]⟩
  next => cases h

theorem writeText_of_locate {bytes : ByteArray} (h : t.locate p = .ok (.file bytes)) :
    t.writeText p text = .ok (t.put p (.file text.toUTF8)) := by
  rw [writeText, h]

theorem locate_put_file (bytes : ByteArray) (hfault : Path.fault? p.text = none)
    (hreach : t.Reaches [] p) (hdir : t.entry? p ≠ some .dir) :
    (t.put p (.file bytes)).locate p = .ok (.file bytes) := by
  rw [locate_eq_ok_iff]
  exact ⟨hfault, (keepsKinds_put_file bytes hdir).reaches hreach,
    entry?_put_self t _ (ne_nil_of_entry?_ne hdir)⟩

theorem makeDirs_dropLast_of_reaches (hp : p ≠ [])
    (hfault : Path.fault? (Path.text p.dropLast) = none) (hreach : t.Reaches [] p) :
    t.makeDirs p.dropLast = (t, .ok ()) := by
  obtain ⟨parent, name, rfl⟩ := (List.eq_nil_or_concat' p).resolve_left hp
  rw [List.dropLast_concat] at hfault ⊢
  obtain ⟨hparent, hdir, -⟩ := (reaches_append t [] parent [name]).mp hreach
  rw [makeDirs, hfault]
  exact makeWay_of_reaches hparent hdir

end Writing

section Naming

theorem KeepsKinds.resolve_step (h : t.KeepsKinds t') {piece : List Char}
    (hq : resolve.step t p piece = .ok q) : resolve.step t' p piece = .ok q := by
  rw [resolve.step] at hq ⊢
  split at hq
  next hdir => rwa [h.dirs p hdir]
  next => cases hq
  next => cases hq

theorem KeepsKinds.foldlM_step (h : t.KeepsKinds t') {pieces : List (List Char)}
    (hq : pieces.foldlM (resolve.step t) p = .ok q) :
    pieces.foldlM (resolve.step t') p = .ok q := by
  induction pieces generalizing p with
  | nil => exact hq
  | cons piece pieces ih =>
    rw [List.foldlM_cons] at hq ⊢
    cases hstep : resolve.step t p piece with
    | error e => simp [hstep, bind, Except.bind] at hq
    | ok next =>
      rw [hstep] at hq
      rw [h.resolve_step hstep]
      exact ih hq

theorem KeepsKinds.resolve (h : t.KeepsKinds t') (hp : t.resolve base text = .ok p) :
    t'.resolve base text = .ok p := by
  rw [FileTree.resolve] at hp ⊢
  split at hp
  next => cases hp
  next => cases hp
  next => simp_all [h.foldlM_step hp]
  next => simp_all [h.foldlM_step hp]

theorem isFile_iff :
    t.isFile base text = true ↔ ∃ p, t.resolve base text = .ok p ∧ (t.file? p).isSome := by
  rw [isFile]
  cases t.resolve base text with
  | error e => simp
  | ok p =>
    simp only [file?, Except.ok.injEq, exists_eq_left']
    cases t.entry? p with
    | none => simp
    | some entry => cases entry <;> simp

theorem KeepsKinds.isFile (h : t.KeepsKinds t') (hfile : t.isFile base text = true) :
    t'.isFile base text = true := by
  obtain ⟨p, hp, hsome⟩ := isFile_iff.mp hfile
  exact isFile_iff.mpr ⟨p, h.resolve hp, h.files p hsome⟩

end Naming

end FileTree

end Achievements
