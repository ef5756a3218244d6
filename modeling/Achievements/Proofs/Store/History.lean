import Achievements.Proofs.Migration.Files
import Achievements.Proofs.Row

namespace Achievements

namespace Sink

variable {σ : Type} {sink : Sink σ} {calls before after : List Call} {s s' : σ}

def Call.perform (sink : Sink σ) (s : σ) : Call → Reply σ StoreError Unit
  | insert row => sink.insert row s
  | flush => sink.flush s

def Call.row? : Call → Option MigratedRow
  | insert row => some row
  | flush => none

def inserted (calls : List Call) : List MigratedRow := calls.filterMap Call.row?

@[simp]
theorem inserted_insert (row : MigratedRow) (calls : List Call) :
    inserted (.insert row :: calls) = row :: inserted calls := rfl

@[simp]
theorem inserted_flush (calls : List Call) : inserted (.flush :: calls) = inserted calls := rfl

theorem inserted_append (before after : List Call) :
    inserted (before ++ after) = inserted before ++ inserted after :=
  List.filterMap_append

/-- Calls that are made one after the other, without a failure, lead from a state to another. -/
inductive Serves (sink : Sink σ) : List Call → σ → σ → Prop
  | nil (s : σ) : Serves sink [] s s
  | cons {call : Call} {calls : List Call} {s s' : σ} :
      (call.perform sink s).result = .ok () → Serves sink calls (call.perform sink s).state s' →
        Serves sink (call :: calls) s s'

theorem serves_append :
    sink.Serves (before ++ after) s s' ↔ ∃ m, sink.Serves before s m ∧ sink.Serves after m s' := by
  induction before generalizing s with
  | nil =>
    refine ⟨fun h ↦ ⟨s, .nil s, h⟩, ?_⟩
    rintro ⟨m, hbefore, hafter⟩
    cases hbefore
    exact hafter
  | cons call before ih =>
    constructor
    · intro h
      cases h with
      | cons hcall hrest =>
        obtain ⟨m, hbefore, hafter⟩ := ih.mp hrest
        exact ⟨m, .cons hcall hbefore, hafter⟩
    · rintro ⟨m, hbefore, hafter⟩
      cases hbefore with
      | cons hcall hrest => exact .cons hcall (ih.mpr ⟨m, hrest, hafter⟩)

end Sink

namespace FileStore

open Sink (Call)

section Calls

open Sink (inserted)

variable {s s' : FileStore} {t t' : FileTree} {calls before after : List Call}

theorem holding_nil (s : FileStore) : s.holding [] = s := by
  simp [holding]

theorem serves_insert_iff {row : MigratedRow} :
    sink.Serves (.insert row :: calls) (s, t) (s', t') ↔
      sink.Serves calls (s.holding [row], t) (s', t') := by
  refine ⟨fun h ↦ ?_, fun h ↦ .cons rfl h⟩
  cases h with
  | cons _ hrest => exact hrest

theorem serves_flush_iff :
    sink.Serves (.flush :: calls) (s, t) (s', t') ↔
      ∃ t₁, s.written t = (t₁, .ok ()) ∧ sink.Serves calls (s, t₁) (s', t') := by
  rcases hwritten : s.written t with ⟨t₁, e | u⟩
  · refine ⟨fun h ↦ ?_, fun ⟨_, he, _⟩ ↦ nomatch he⟩
    cases h with
    | cons hflush _ => simp [Call.perform, sink, hwritten] at hflush
  · constructor
    · intro h
      cases h with
      | cons _ hrest =>
        simp only [Call.perform, sink, hwritten] at hrest
        exact ⟨t₁, rfl, hrest⟩
    · rintro ⟨_, ⟨⟩, hrest⟩
      refine .cons ?_ ?_
      · simp [Call.perform, sink, hwritten]
      · simpa only [Call.perform, sink, hwritten] using hrest

theorem store_of_serves (h : sink.Serves calls (s, t) (s', t')) :
    s' = s.holding (inserted calls) := by
  induction calls generalizing s t with
  | nil =>
    cases h
    exact (holding_nil _).symm
  | cons call calls ih =>
    cases call with
    | insert row =>
      rw [ih (serves_insert_iff.mp h)]
      simp [holding]
    | flush =>
      obtain ⟨t₁, -, hrest⟩ := serves_flush_iff.mp h
      exact ih hrest

theorem tree_of_serves (h : sink.Serves calls (s, t) (s', t')) (hflush : .flush ∉ calls) :
    t' = t := by
  induction calls generalizing s with
  | nil =>
    cases h
    rfl
  | cons call calls ih =>
    cases call with
    | insert row => exact ih (serves_insert_iff.mp h) (List.not_mem_of_not_mem_cons hflush)
    | flush => exact absurd List.mem_cons_self hflush

theorem file?_of_serves (h : sink.Serves calls (s, t) (s', t')) {p : Path}
    (hp : p ≠ s.outputPath) : t'.file? p = t.file? p := by
  induction calls generalizing s t with
  | nil =>
    cases h
    rfl
  | cons call calls ih =>
    cases call with
    | insert row => exact ih (serves_insert_iff.mp h) hp
    | flush =>
      obtain ⟨t₁, hwritten, hrest⟩ := serves_flush_iff.mp h
      rw [ih hrest hp, (written_done hwritten).2.1 p hp]

theorem output_of_serves (h : sink.Serves (before ++ .flush :: after) (s, t) (s', t'))
    (hafter : .flush ∉ after) :
    t'.readText s.outputPath = .ok (MigratedRow.listText (s.pending ++ inserted before)) := by
  obtain ⟨⟨s₁, t₁⟩, hbefore, hrest⟩ := Sink.serves_append.mp h
  obtain ⟨t₂, hwritten, hrest⟩ := serves_flush_iff.mp hrest
  have hstore := store_of_serves hbefore
  rw [tree_of_serves hrest hafter]
  rw [hstore] at hwritten
  exact (written_done hwritten).2.2.1

def UpToDate (s : FileStore) (t : FileTree) : Prop :=
  ∃ t', s.written t = (t', .ok ()) ∧ ∀ p, t'.file? p = t.file? p

theorem upToDate_of_written (h : s.written t = (t', .ok ())) : s.UpToDate t' :=
  (written_done h).2.2.2

theorem written_over {bytes : ByteArray} (hdirs : t.makeDirs s.outputPath.dropLast = (t, .ok ()))
    (hfile : t.locate s.outputPath = .ok (.file bytes)) :
    s.written t =
      (t.put s.outputPath (.file (MigratedRow.listText s.pending).toUTF8), .ok ()) :=
  written_eq_ok_iff.mpr ⟨t, hdirs, FileTree.writeText_of_locate hfile⟩

theorem file?_of_upToDate (h : sink.Serves calls (s, t) (s', t')) (hdate : s.UpToDate t)
    (hcalls : inserted calls = []) (p : Path) : t'.file? p = t.file? p := by
  induction calls generalizing t with
  | nil =>
    cases h
    rfl
  | cons call calls ih =>
    cases call with
    | insert row => simp at hcalls
    | flush =>
      obtain ⟨t₁, hwritten, hrest⟩ := serves_flush_iff.mp h
      obtain ⟨t₂, hagain, hfiles⟩ := hdate
      cases hagain.symm.trans hwritten
      rw [ih hrest (upToDate_of_written hwritten) hcalls, hfiles]

end Calls

inductive Operation
  | insert (row : MigratedRow)
  | flush
  | fetch

namespace Operation

def perform (s : FileStore × FileTree) : Operation → Reply (FileStore × FileTree) StoreError Unit
  | insert row => sink.insert row s
  | flush => sink.flush s
  | fetch => ⟨(FileStore.fetch s).1.map fun _ ↦ (), s, (FileStore.fetch s).2⟩

def call? : Operation → Option Call
  | insert row => some (.insert row)
  | flush => some .flush
  | fetch => none

def calls (ops : List Operation) : List Call := ops.filterMap call?

def inserted (ops : List Operation) : List MigratedRow := Sink.inserted (calls ops)

theorem calls_append (before after : List Operation) :
    calls (before ++ after) = calls before ++ calls after :=
  List.filterMap_append

theorem flush_notMem_calls {ops : List Operation} (h : .flush ∉ ops) : .flush ∉ calls ops := by
  intro hmem
  obtain ⟨op, hop, hcall⟩ := List.mem_filterMap.mp hmem
  cases op with
  | insert row => simp [call?] at hcall
  | flush => exact h hop
  | fetch => simp [call?] at hcall

end Operation

open Operation (calls inserted)

/-- Operations, every flush of them done, lead from a state to another. Whether a fetch fails does
not matter. -/
inductive Performs : List Operation → FileStore × FileTree → FileStore × FileTree → Prop
  | nil (s : FileStore × FileTree) : Performs [] s s
  | cons {op : Operation} {ops : List Operation} {s s' : FileStore × FileTree} :
      (op = .flush → (op.perform s).result = .ok ()) → Performs ops (op.perform s).state s' →
        Performs (op :: ops) s s'

theorem performs_iff_serves {ops : List Operation} {s s' : FileStore × FileTree} :
    Performs ops s s' ↔ sink.Serves (calls ops) s s' := by
  constructor
  · intro h
    induction h with
    | nil s => exact .nil s
    | @cons op ops s s' hflush _ ih =>
      cases op with
      | insert row => exact .cons rfl ih
      | flush => exact .cons (hflush rfl) ih
      | fetch => exact ih
  · intro h
    induction ops generalizing s with
    | nil =>
      cases h
      exact .nil _
    | cons op ops ih =>
      cases op with
      | insert row =>
        cases h with
        | cons _ hrest => exact .cons nofun (ih hrest)
      | flush =>
        cases h with
        | cons hcall hrest => exact .cons (fun _ ↦ hcall) (ih hrest)
      | fetch => exact .cons nofun (ih h)

/-- Whatever is done with a store, it holds the rows it was given since it was opened, all of them
and in order. No file changes before the first flush, and none but the output after it. The output
is the array of the rows that came before the last flush, and to read it gives these rows again if
their documents have no doubles, no key twice and at most 125 levels. Flushes with no row between
them leave the files as the first of them did, and a fetch might as well not have been made. -/
theorem history_read_back {t₀ t t' : FileTree} {base : Path} {input output : String}
    {store store' : FileStore} {ops : List Operation}
    (hopen : open? t₀ base input output = .ok store)
    (h : Performs ops (store, t) (store', t')) :
    store' = { store with pending := inserted ops } ∧
    (.flush ∉ ops → t' = t) ∧
    (∀ p, p ≠ store.outputPath → t'.file? p = t.file? p) ∧
    (∀ before after, ops = before ++ .flush :: after → .flush ∉ after → ∃ text,
      t'.readText store.outputPath = .ok text ∧
      text = Json.pretty (.arr ((inserted before).map MigratedRow.toJson)) ∧
      ((∀ r ∈ inserted before, r.Storable) → ∃ rows, MigratedRow.parseList text = .ok rows ∧
        List.Forall₂ MigratedRow.Same (inserted before) rows ∧
        ((∀ r ∈ inserted before, r.cond.InOrder) → rows = inserted before))) ∧
    (∀ before after, ops = before ++ .flush :: after → inserted after = [] → ∃ t₁,
      Performs (before ++ [.flush]) (store, t) (store', t₁) ∧ ∀ p, t'.file? p = t₁.file? p) ∧
    (∀ before after, ops = before ++ .fetch :: after →
      Performs (before ++ after) (store, t) (store', t')) := by
  have hpending : store.pending = [] := by rw [← (open?_eq_ok_iff.mp hopen).2]
  have hserves := performs_iff_serves.mp h
  refine ⟨?_, ?_, ?_, ?_, ?_, ?_⟩
  · rw [store_of_serves hserves, holding, hpending]
    rfl
  · intro hflush
    exact tree_of_serves hserves (Operation.flush_notMem_calls hflush)
  · intro p hp
    exact file?_of_serves hserves hp
  · rintro before after rfl hafter
    rw [Operation.calls_append] at hserves
    have houtput := output_of_serves hserves (Operation.flush_notMem_calls hafter)
    rw [hpending] at houtput
    exact ⟨_, houtput, rfl, MigratedRow.exists_parseList⟩
  · rintro before after rfl hafter
    rw [Operation.calls_append] at hserves
    obtain ⟨⟨s₁, t₁⟩, hbefore, hrest⟩ := Sink.serves_append.mp hserves
    obtain ⟨t₂, hwritten, hrest⟩ := serves_flush_iff.mp hrest
    have hstore : store' = s₁ := by
      have hholding : store' = s₁.holding (inserted after) := store_of_serves hrest
      rw [hholding, hafter, holding_nil]
    have hflush : Performs (before ++ [.flush]) (store, t) (s₁, t₂) := by
      rw [performs_iff_serves, Operation.calls_append]
      exact Sink.serves_append.mpr ⟨_, hbefore, serves_flush_iff.mpr ⟨t₂, hwritten, .nil _⟩⟩
    rw [hstore]
    exact ⟨t₂, hflush, file?_of_upToDate hrest (upToDate_of_written hwritten) hafter⟩
  · rintro before after rfl
    rw [Operation.calls_append] at hserves
    rw [performs_iff_serves, Operation.calls_append]
    exact hserves

theorem history_read_back_over_old_file :
    let first : MigratedRow :=
      ⟨7, "f", "n", "d\n\"", .obj [("a", .arr []), ("b", .int (.ofInt32 (-1)))]⟩
    let second : MigratedRow := ⟨-2147483648, "", "é", "", .null⟩
    let tree : FileTree := ⟨[(["out"], .file "old".toUTF8), (["in"], .file "[]".toUTF8)]⟩
    let store : FileStore := ⟨["in"], ["out"], []⟩
    let before : List Operation := [.insert first, .flush, .flush, .insert second, .fetch]
    open? tree [] "in" "out" = .ok store ∧ (∀ r ∈ [first, second], r.Storable) ∧
      ∃ store' files, Performs (before ++ [.flush]) (store, tree) (store', files) ∧
        store'.pending = [first, second] ∧ ∃ text, files.readText ["out"] = .ok text ∧
          MigratedRow.parseList text = .ok [first, second] := by
  intro first second tree store before
  have hopen : open? tree [] "in" "out" = .ok store := rfl
  let save (rows : List MigratedRow) (t : FileTree) : FileTree :=
    t.put ["out"] (.file (MigratedRow.listText rows).toUTF8)
  have hwritten (rows : List MigratedRow) (bytes : ByteArray) (entries : List (Path × Entry)) :
      let t : FileTree := ⟨(["out"], .file bytes) :: entries⟩
      written ⟨["in"], ["out"], rows⟩ t = (save rows t, .ok ()) := by
    intro t
    have hdirs : t.makeDirs [] = (t, .ok ()) := rfl
    have hfile : t.locate ["out"] = .ok (.file bytes) := rfl
    exact written_over hdirs hfile
  have hops : Performs (before ++ [.flush]) (store, tree)
      (⟨["in"], ["out"], [first, second]⟩,
        save [first, second] (save [first] (save [first] tree))) := by
    apply performs_iff_serves.mpr
    apply serves_insert_iff.mpr
    refine serves_flush_iff.mpr ⟨_, hwritten _ _ _, ?_⟩
    refine serves_flush_iff.mpr ⟨_, hwritten _ _ _, ?_⟩
    apply serves_insert_iff.mpr
    exact serves_flush_iff.mpr ⟨_, hwritten _ _ _, .nil _⟩
  have hrows : (∀ r ∈ [first, second], r.Storable) ∧ ∀ r ∈ [first, second], r.cond.InOrder := by
    have hfree : first.cond.FloatFree := ⟨trivial, trivial, trivial⟩
    have hkeys : first.cond.DistinctKeys := ⟨by decide, trivial, trivial, trivial⟩
    have horder : first.cond.InOrder := ⟨by decide, trivial, trivial, trivial⟩
    have hnesting : first.cond.nesting ≤ 125 := by decide
    simp only [List.forall_mem_cons]
    exact ⟨⟨⟨hfree, hkeys, hnesting⟩, ⟨trivial, trivial, Nat.zero_le _⟩, nofun⟩,
      horder, trivial, nofun⟩
  obtain ⟨-, -, -, houtput, -⟩ := history_read_back hopen hops
  obtain ⟨text, hread, -, hback⟩ := houtput before [] rfl List.not_mem_nil
  obtain ⟨rows, hparse, -, hsame⟩ := hback hrows.1
  rw [hsame hrows.2] at hparse
  exact ⟨hopen, hrows.1, _, _, hops, rfl, text, hread, hparse⟩

end FileStore

end Achievements
