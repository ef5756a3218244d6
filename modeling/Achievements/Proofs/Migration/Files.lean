import Achievements.Proofs.Document.ReadBack
import Achievements.Proofs.FileTree
import Achievements.Proofs.Migration.Protocol

namespace Achievements

section Rows

theorem Json.rereadItems_eq_map (vs : List Json) : rereadItems vs = vs.map reread := by
  induction vs with
  | nil => rfl
  | cons v vs ih => rw [rereadItems, ih, List.map_cons]

theorem Json.nestingItems_le {vs : List Json} {n : Nat} (h : ∀ v ∈ vs, v.nesting ≤ n) :
    nestingItems vs ≤ n := by
  induction vs with
  | nil => exact Nat.zero_le n
  | cons v vs ih =>
    rw [nestingItems]
    exact Nat.max_le.mpr ⟨h v (by simp), ih fun w hw ↦ h w (by simp [hw])⟩

theorem Conjunction.nesting_toValue (c : Conjunction) : c.toValue.nesting ≤ 3 := by
  have hitems : Json.nestingItems (c.conditions.map (·.toJson.sorted)) ≤ 1 := by
    apply Json.nestingItems_le
    intro v hv
    obtain ⟨d, -, rfl⟩ := List.mem_map.mp hv
    cases d <;>
      simp [Condition.sorted_toJson, Condition.sortedPairs, Json.nesting, Json.nestingMembers,
        Json.nestingMember, Number.nesting_toJson, Comparison.toJson]
  simp only [toValue_eq, Json.nesting, Json.nestingMembers, Json.nestingMember]
  omega

theorem LegacyRow.parse_listText (rows : List LegacyRow) :
    Json.parse (MigratedRow.listText (rows.map migrate)) =
      .ok (.arr (rows.map fun r ↦ (MigratedRow.toJson r.migrate).reread.sorted)) := by
  have hrow (r : LegacyRow) : (MigratedRow.toJson r.migrate).nesting ≤ 4 := by
    have hdocument := r.reading.conjunction.nesting_toValue
    simp only [MigratedRow.toJson, Row.toJson, migrate, id, Json.nesting, Json.nestingMembers,
      Json.nestingMember]
    omega
  have hrows : Json.nestingItems ((rows.map migrate).map MigratedRow.toJson) ≤ 4 := by
    apply Json.nestingItems_le
    intro v hv
    rw [List.map_map] at hv
    obtain ⟨r, -, rfl⟩ := List.mem_map.mp hv
    exact hrow r
  have hnesting :
      (Json.arr ((rows.map migrate).map MigratedRow.toJson)).nesting ≤ Json.maxDepth := by
    simp only [Json.nesting, Json.maxDepth]
    omega
  rw [MigratedRow.listText, Json.pretty, Json.parse_write Json.Style.blank_pretty hnesting]
  simp [Json.reread, Json.sorted, Json.rereadItems_eq_map, Json.sortedItems_eq_map,
    Function.comp_def]

end Rows

namespace FileStore

open Migration (run Course)

variable {s : FileStore} {t t' : FileTree} {result : Except RunError Summary}

def holding (s : FileStore) (rows : List MigratedRow) : FileStore :=
  { s with pending := s.pending ++ rows }

theorem accepts (s : FileStore) (t : FileTree) (rows : List MigratedRow) :
    sink.Accepts rows (s, t) (s.holding rows, t) := by
  induction rows generalizing s with
  | nil =>
    have hnone : s.holding [] = s := by simp [holding]
    rw [hnone]
    exact .nil _
  | cons row rows ih =>
    have hboth : (s.holding [row]).holding rows = s.holding (row :: rows) := by simp [holding]
    have hrest := ih (s.holding [row])
    rw [hboth] at hrest
    exact .cons rfl hrest

theorem pending_holding (hs : s.pending = []) (rows : List MigratedRow) :
    (s.holding rows).pending = rows := by
  simp [holding, hs]

section Flush

theorem written_eq_error_iff {e : FileError} :
    s.written t = (t', .error e) ↔ t.makeDirs s.outputPath.dropLast = (t', .error e) ∨
      t.makeDirs s.outputPath.dropLast = (t', .ok ()) ∧
        t'.writeText s.outputPath (MigratedRow.listText s.pending) = .error e := by
  rw [written]
  split
  next made e' hmade => simp [hmade]
  next made hmade =>
    split
    next t₁ hwrite =>
      simp only [hmade, Prod.mk.injEq]
      grind
    next e' hwrite =>
      simp only [hmade, Prod.mk.injEq]
      grind

theorem written_eq_ok_iff :
    s.written t = (t', .ok ()) ↔ ∃ made, t.makeDirs s.outputPath.dropLast = (made, .ok ()) ∧
      made.writeText s.outputPath (MigratedRow.listText s.pending) = .ok t' := by
  rw [written]
  split
  next made e' hmade => simp [hmade]
  next made hmade =>
    split
    next t₁ hwrite => simp [hmade, hwrite]
    next e' hwrite => simp [hmade, hwrite]

/-- A flush that fails may leave directories behind, and fails in the same way again. -/
theorem written_failed {e : FileError} (h : s.written t = (t', .error e)) :
    t.AddsDirs t' ∧ s.written t' = (t', .error e) := by
  have hadds := t.addsDirs_makeDirs s.outputPath.dropLast
  have hagain := t.makeDirs_makeDirs s.outputPath.dropLast
  rcases written_eq_error_iff.mp h with hmade | ⟨hmade, hwrite⟩
  · rw [hmade] at hadds hagain
    exact ⟨hadds, written_eq_error_iff.mpr (.inl hagain)⟩
  · rw [hmade] at hadds hagain
    exact ⟨hadds, written_eq_error_iff.mpr (.inr ⟨hagain, hwrite⟩)⟩

theorem written_done (h : s.written t = (t', .ok ())) :
    t.KeepsKinds t' ∧ (∀ p, p ≠ s.outputPath → t'.file? p = t.file? p) ∧
      t'.readText s.outputPath = .ok (MigratedRow.listText s.pending) ∧
      ∃ t'', s.written t' = (t'', .ok ()) ∧ ∀ p, t''.file? p = t'.file? p := by
  obtain ⟨made, hmade, hwrite⟩ := written_eq_ok_iff.mp h
  obtain ⟨rfl, hfault, hreach, hdir⟩ := FileTree.put_of_writeText hwrite
  have hadds := t.addsDirs_makeDirs s.outputPath.dropLast
  rw [hmade] at hadds
  have hne := FileTree.ne_nil_of_entry?_ne hdir
  have hkinds := FileTree.keepsKinds_put_file (MigratedRow.listText s.pending).toUTF8 hdir
  have hlocate :=
    FileTree.locate_put_file (MigratedRow.listText s.pending).toUTF8 hfault hreach hdir
  have hmade' := FileTree.makeDirs_dropLast_of_reaches hne (FileTree.fault?_of_makeDirs hmade)
    (hkinds.reaches hreach)
  refine ⟨hadds.keepsKinds.trans hkinds, ?_, FileTree.readText_eq_ok_iff.mpr hlocate,
    _, written_eq_ok_iff.mpr ⟨_, hmade', FileTree.writeText_of_locate hlocate⟩, ?_⟩
  · intro p hp
    rw [FileTree.file?_put_of_ne made _ hp, hadds.file?]
  · intro p
    by_cases hp : p = s.outputPath
    · rw [hp, FileTree.file?_put_self _ _ hne, FileTree.file?_put_self _ _ hne]
    · rw [FileTree.file?_put_of_ne _ _ hp]

end Flush

/-- How a migration between files goes, and the files it leaves. -/
inductive Filing (s : FileStore) (t : FileTree) : FileTree → Except RunError Summary → Prop
  | unread {e : StoreError} (failed : (fetch (s, t)).1 = .error e) :
      Filing s t t (.error (.fetch e))
  | unwritten {rows : List LegacyRow} {t' : FileTree} {e : FileError}
      (fetched : (fetch (s, t)).1 = .ok rows)
      (failed : (s.holding (rows.map LegacyRow.migrate)).written t = (t', .error e)) :
      Filing s t t' (.error (.flush (.file e)))
  | done {rows : List LegacyRow} {t' : FileTree} (fetched : (fetch (s, t)).1 = .ok rows)
      (written : (s.holding (rows.map LegacyRow.migrate)).written t = (t', .ok ())) :
      Filing s t t' (.ok (.recordAll {} rows))

theorem run_of_filing (h : Filing s t t' result) :
    (run fetch sink false (s, t)).result = result ∧
      (run fetch sink false (s, t)).state.2 = t' := by
  cases h with
  | unread failed =>
    have hcourse : Course fetch sink (s, t) [] (s, t) _ := .unread failed
    obtain ⟨hresult, hstate⟩ := Migration.result_and_state_of_course hcourse
    rw [hstate]
    exact ⟨hresult, rfl⟩
  | @unwritten rows _ e fetched failed =>
    have hflush : (sink.flush (s.holding (rows.map LegacyRow.migrate), t)).result =
          .error (.file e) ∧
        (sink.flush (s.holding (rows.map LegacyRow.migrate), t)).state.2 = t' := by
      simp [sink, failed]
    obtain ⟨hresult, hstate⟩ := Migration.result_and_state_of_course
      (.unflushed fetched (accepts s t _) hflush.1)
    rw [hstate]
    exact ⟨hresult, hflush.2⟩
  | @done rows _ fetched written =>
    have hflush : (sink.flush (s.holding (rows.map LegacyRow.migrate), t)).result = .ok () ∧
        (sink.flush (s.holding (rows.map LegacyRow.migrate), t)).state.2 = t' := by
      simp [sink, written]
    obtain ⟨hresult, hstate⟩ := Migration.result_and_state_of_course
      (.done fetched (accepts s t _) hflush.1)
    rw [hstate]
    exact ⟨hresult, hflush.2⟩

theorem filing_run (s : FileStore) (t : FileTree) :
    Filing s t (run fetch sink false (s, t)).state.2 (run fetch sink false (s, t)).result := by
  have hfiling : ∃ t' result, Filing s t t' result := by
    cases hfetch : (fetch (s, t)).1 with
    | error e => exact ⟨_, _, .unread hfetch⟩
    | ok rows =>
      rcases hwritten : (s.holding (rows.map LegacyRow.migrate)).written t with ⟨t', e | u⟩
      · exact ⟨_, _, .unwritten hfetch hwritten⟩
      · exact ⟨_, _, .done hfetch hwritten⟩
  obtain ⟨t', result, h⟩ := hfiling
  obtain ⟨hresult, hstate⟩ := run_of_filing h
  rw [hresult, hstate]
  exact h

/-- What stops a migration from one place to another, and the error it ends with. -/
inductive Obstacle (t : FileTree) (input output : Path) : RunError → Prop
  | unreadable {e : FileError} (failed : t.readText input = .error e) :
      Obstacle t input output (.fetch (.file e))
  | illTyped {text : String} {f : Json.Fault} (read : t.readText input = .ok text)
      (failed : LegacyRow.parseList text = .error f) : Obstacle t input output (.fetch (.json f))
  | parentless {text : String} {rows : List LegacyRow} {t' : FileTree} {e : FileError}
      (read : t.readText input = .ok text) (parsed : LegacyRow.parseList text = .ok rows)
      (failed : t.makeDirs output.dropLast = (t', .error e)) :
      Obstacle t input output (.flush (.file e))
  | unwritable {text : String} {rows : List LegacyRow} {t' : FileTree} {e : FileError}
      (read : t.readText input = .ok text) (parsed : LegacyRow.parseList text = .ok rows)
      (made : t.makeDirs output.dropLast = (t', .ok ()))
      (failed :
        t'.writeText output (MigratedRow.listText (rows.map LegacyRow.migrate)) = .error e) :
      Obstacle t input output (.flush (.file e))

theorem fetch_eq_ok_iff {rows : List LegacyRow} :
    (fetch (s, t)).1 = .ok rows ↔
      ∃ text, t.readText s.inputPath = .ok text ∧ LegacyRow.parseList text = .ok rows := by
  rw [fetch]
  cases t.readText s.inputPath with
  | error e => simp
  | ok text => cases hparse : LegacyRow.parseList text <;> simp [hparse]

theorem fetch_eq_error_iff {e : StoreError} :
    (fetch (s, t)).1 = .error e ↔
      (∃ e', t.readText s.inputPath = .error e' ∧ .file e' = e) ∨
        ∃ text f, t.readText s.inputPath = .ok text ∧ LegacyRow.parseList text = .error f ∧
          .json f = e := by
  rw [fetch]
  cases t.readText s.inputPath with
  | error e' => simp
  | ok text => cases hparse : LegacyRow.parseList text <;> simp [hparse]

theorem obstacle_of_filing {e : RunError} (hs : s.pending = []) (h : Filing s t t' (.error e)) :
    Obstacle t s.inputPath s.outputPath e := by
  cases h with
  | unread failed =>
    rcases fetch_eq_error_iff.mp failed with ⟨e', hread, rfl⟩ | ⟨text, f, hread, hparse, rfl⟩
    · exact .unreadable hread
    · exact .illTyped hread hparse
  | unwritten fetched failed =>
    obtain ⟨text, hread, hparse⟩ := fetch_eq_ok_iff.mp fetched
    rcases written_eq_error_iff.mp failed with hmade | ⟨hmade, hwrite⟩
    · exact .parentless hread hparse hmade
    · rw [pending_holding hs] at hwrite
      exact .unwritable hread hparse hmade hwrite

theorem filing_of_obstacle {e : RunError} (hs : s.pending = [])
    (h : Obstacle t s.inputPath s.outputPath e) : ∃ t', Filing s t t' (.error e) := by
  cases h with
  | unreadable failed => exact ⟨t, .unread (fetch_eq_error_iff.mpr (.inl ⟨_, failed, rfl⟩))⟩
  | illTyped read failed =>
    exact ⟨t, .unread (fetch_eq_error_iff.mpr (.inr ⟨_, _, read, failed, rfl⟩))⟩
  | parentless read parsed failed =>
    exact ⟨_, .unwritten (fetch_eq_ok_iff.mpr ⟨_, read, parsed⟩)
      (written_eq_error_iff.mpr (.inl failed))⟩
  | unwritable read parsed made failed =>
    rw [← pending_holding hs (List.map LegacyRow.migrate _)] at failed
    exact ⟨_, .unwritten (fetch_eq_ok_iff.mpr ⟨_, read, parsed⟩)
      (written_eq_error_iff.mpr (.inr ⟨made, failed⟩))⟩

namespace Filing

theorem keepsKinds (h : Filing s t t' result) : t.KeepsKinds t' := by
  cases h with
  | unread failed => exact (FileTree.AddsDirs.refl t).keepsKinds
  | unwritten fetched failed => exact (written_failed failed).1.keepsKinds
  | done fetched written => exact (written_done written).1

theorem file?_of_error {e : RunError} (h : Filing s t t' (.error e)) (p : Path) :
    t'.file? p = t.file? p := by
  cases h with
  | unread failed => rfl
  | unwritten fetched failed => exact (written_failed failed).1.file? p

theorem file?_of_ne (h : Filing s t t' result) {p : Path} (hp : p ≠ s.outputPath) :
    t'.file? p = t.file? p := by
  cases h with
  | unread failed => rfl
  | unwritten fetched failed => exact (written_failed failed).1.file? p
  | done fetched written => exact (written_done written).2.1 p hp

theorem output_of_ok {total : Summary} (hs : s.pending = []) (h : Filing s t t' (.ok total)) :
    ∃ text rows, t.readText s.inputPath = .ok text ∧ LegacyRow.parseList text = .ok rows ∧
      t'.readText s.outputPath = .ok (MigratedRow.listText (rows.map LegacyRow.migrate)) := by
  cases h with
  | @done rows _ fetched written =>
    obtain ⟨text, hread, hparse⟩ := fetch_eq_ok_iff.mp fetched
    obtain ⟨-, -, houtput, -⟩ := written_done written
    rw [pending_holding hs] at houtput
    exact ⟨text, rows, hread, hparse, houtput⟩

theorem again (h : Filing s t t' result) (hne : s.inputPath ≠ s.outputPath) :
    t'.readText s.inputPath = t.readText s.inputPath ∧
      ∃ t'', Filing s t' t'' result ∧ ∀ p, t''.file? p = t'.file? p := by
  cases h with
  | unread failed => exact ⟨rfl, t, .unread failed, fun _ ↦ rfl⟩
  | unwritten fetched failed =>
    obtain ⟨hadds, hagain⟩ := written_failed failed
    obtain ⟨text, hread, hparse⟩ := fetch_eq_ok_iff.mp fetched
    have hread' := hadds.keepsKinds.readText (hadds.file? s.inputPath) hread
    have hfetch := fetch_eq_ok_iff.mpr ⟨text, hread', hparse⟩
    exact ⟨hread'.trans hread.symm, t', .unwritten hfetch hagain, fun _ ↦ rfl⟩
  | done fetched written =>
    obtain ⟨hkinds, hothers, -, t'', hagain, hfiles⟩ := written_done written
    obtain ⟨text, hread, hparse⟩ := fetch_eq_ok_iff.mp fetched
    have hread' := hkinds.readText (hothers s.inputPath hne) hread
    have hfetch := fetch_eq_ok_iff.mpr ⟨text, hread', hparse⟩
    exact ⟨hread'.trans hread.symm, t'', .done hfetch hagain, hfiles⟩

end Filing

theorem open?_eq_ok_iff {base : Path} {input output : String} :
    open? t base input output = .ok s ↔
      t.isFile base input = true ∧ ⟨.ofText base input, .ofText base output, []⟩ = s := by
  rw [open?]
  split <;> simp_all

/-- A migration between files is all or nothing, whatever became of the files since the store was
opened. It fails exactly where there is an obstacle, and then no file at all has changed. Else the
output holds the array of the migrated rows, one for each row of the input and in order, and no
other file has changed. Where input and output are two files the input is as before, the store can
be opened again, and a second run ends as the first one did and changes no file. -/
theorem run_all_or_nothing {t₀ : FileTree} {base : Path} {input output : String} {store : FileStore}
    (h : open? t₀ base input output = .ok store) (t : FileTree) :
    let first := run fetch sink false (store, t)
    let files := first.state.2
    (∀ e, first.result = .error e ↔ Obstacle t store.inputPath store.outputPath e) ∧
    (∀ e, first.result = .error e → ∀ p, files.file? p = t.file? p) ∧
    (∀ total, first.result = .ok total → ∃ text rows,
      t.readText store.inputPath = .ok text ∧ LegacyRow.parseList text = .ok rows ∧
      files.readText store.outputPath = .ok (MigratedRow.listText (rows.map LegacyRow.migrate)) ∧
      Json.parse (MigratedRow.listText (rows.map LegacyRow.migrate)) =
        .ok (.arr (rows.map fun r ↦ (MigratedRow.toJson r.migrate).reread.sorted)) ∧
      ∀ p, p ≠ store.outputPath → files.file? p = t.file? p) ∧
    (store.inputPath ≠ store.outputPath →
      files.file? store.inputPath = t.file? store.inputPath ∧
      files.readText store.inputPath = t.readText store.inputPath ∧
      (t.isFile base input = true → open? files base input output = .ok store) ∧
      (run fetch sink false (store, files)).result = first.result ∧
      ∀ p, (run fetch sink false (store, files)).state.2.file? p = files.file? p) := by
  intro first files
  obtain ⟨-, hstore⟩ := open?_eq_ok_iff.mp h
  have hs : store.pending = [] := by rw [← hstore]
  have hfiling : Filing store t files first.result := filing_run store t
  refine ⟨fun e ↦ ⟨?_, ?_⟩, ?_, ?_, ?_⟩
  · intro he
    rw [he] at hfiling
    exact obstacle_of_filing hs hfiling
  · intro hobstacle
    obtain ⟨t', hfailed⟩ := filing_of_obstacle hs hobstacle
    exact (run_of_filing hfailed).1
  · intro e he
    rw [he] at hfiling
    exact hfiling.file?_of_error
  · intro total htotal
    rw [htotal] at hfiling
    obtain ⟨text, rows, hread, hparse, houtput⟩ := hfiling.output_of_ok hs
    exact ⟨text, rows, hread, hparse, houtput, LegacyRow.parse_listText rows,
      fun p hp ↦ hfiling.file?_of_ne hp⟩
  · intro hne
    obtain ⟨hread, t', hagain, hfiles⟩ := hfiling.again hne
    obtain ⟨hresult, hstate⟩ := run_of_filing hagain
    refine ⟨hfiling.file?_of_ne hne, hread, ?_, hresult, ?_⟩
    · intro hfile
      exact open?_eq_ok_iff.mpr ⟨hfiling.keepsKinds.isFile hfile, hstore⟩
    · rw [hstate]
      exact hfiles

theorem run_into_new_directory :
    let text := "[[7,\"f\",\"n\",\"d\",\"score.mods & 8\"]]"
    let tree : FileTree := ⟨[(["in"], .file text.toUTF8)]⟩
    let store : FileStore := ⟨["in"], ["new", "out"], []⟩
    let files := (run fetch sink false (store, tree)).state.2
    open? tree [] "in" "new/out" = .ok store ∧ store.inputPath ≠ store.outputPath ∧
      (run fetch sink false (store, tree)).result = .ok ⟨1, 1, 0, []⟩ ∧
      files.readText ["new", "out"] =
        .ok (MigratedRow.listText [LegacyRow.migrate ⟨7, "f", "n", "d", "score.mods & 8"⟩]) ∧
      open? files [] "in" "new/out" = .ok store ∧
      ∀ p, (run fetch sink false (store, files)).state.2.file? p = files.file? p := by
  intro text tree store files
  have hopen : open? tree [] "in" "new/out" = .ok store := rfl
  have hread : tree.readText ["in"] = .ok text := FileTree.readText_eq_ok_iff.mpr rfl
  have hparse : LegacyRow.parseList text = .ok [⟨7, "f", "n", "d", "score.mods & 8"⟩] := by
    have hsome : (LegacyRow.parseList text).toOption =
        some [⟨7, "f", "n", "d", "score.mods & 8"⟩] := by decide +kernel
    cases hrows : LegacyRow.parseList text with
    | error e => rw [hrows] at hsome; cases hsome
    | ok rows => rw [hrows] at hsome; rw [Option.some.inj hsome]
  have hmade : tree.makeDirs ["new"] = (tree.put ["new"] .dir, .ok ()) := rfl
  have hwrite (text : String) : (tree.put ["new"] .dir).writeText ["new", "out"] text =
      .ok ((tree.put ["new"] .dir).put ["new", "out"] (.file text.toUTF8)) := rfl
  have hdone : Filing store tree _ _ :=
    .done (fetch_eq_ok_iff.mpr ⟨text, hread, hparse⟩) (written_eq_ok_iff.mpr ⟨_, hmade, hwrite _⟩)
  have htotal : Summary.recordAll {} [⟨7, "f", "n", "d", "score.mods & 8"⟩] = ⟨1, 1, 0, []⟩ := by
    decide +kernel
  have hresult := (run_of_filing hdone).1
  rw [htotal] at hresult
  obtain ⟨-, -, hok, hagain⟩ := run_all_or_nothing hopen tree
  obtain ⟨text', rows, hread', hparse', houtput, -⟩ := hok _ hresult
  obtain ⟨-, -, hreopen, -, hsame⟩ := hagain (by decide)
  cases hread.symm.trans hread'
  cases hparse.symm.trans hparse'
  exact ⟨hopen, by decide, hresult, houtput, hreopen rfl, hsame⟩

end FileStore

end Achievements
