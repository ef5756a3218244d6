import Achievements.Settings.Load
import Mathlib.Control.Monad.Basic

namespace Achievements

namespace Setting

/-- What stands at the end of some names. -/
def inner? (v : Option Setting) : List String → Option Setting
  | [] => v
  | n :: ns => inner? ((members v).lookup n) ns

/-- Whether a path leaves what stands at the end of some names as it is: it turns off to another
name on the way. -/
def misses : List String → List Step → Bool
  | n :: ns, .name m :: path => lower m ≠ n || misses ns path
  | _, _ => false

def route (key : String) : List Step := (path? key).getD [.name key]

theorem lookup_put_self (key : String) (v : Setting) (ms : Members) :
    (put key v ms).lookup key = some v := by
  induction ms with
  | nil => simp [put]
  | cons m ms ih =>
    obtain ⟨l, w⟩ := m
    rw [put]
    split
    · simp
    · next hl => simpa [List.lookup_cons, beq_false_of_ne (Ne.symm hl)] using ih

theorem lookup_put_of_ne {key k : String} (h : k ≠ key) (v : Setting) (ms : Members) :
    (put key v ms).lookup k = ms.lookup k := by
  induction ms with
  | nil => simp [put, List.lookup_cons, beq_false_of_ne h]
  | cons m ms ih =>
    obtain ⟨l, w⟩ := m
    rw [put]
    split
    · next hl => simp [List.lookup_cons, hl, beq_false_of_ne h]
    · simp [List.lookup_cons, ih]

theorem inner?_setAt_of_misses (v : Setting) {ns : List String} {path : List Step}
    (h : misses ns path) (base : Option Setting) :
    inner? (some (setAt base v path)) ns = inner? base ns := by
  induction ns generalizing path base with
  | nil => simp [misses] at h
  | cons n ns ih =>
    cases path with
    | nil => simp [misses] at h
    | cons step path =>
      cases step with
      | index i => simp [misses] at h
      | name m =>
        simp only [setAt, inner?, members]
        by_cases hn : lower m = n
        · have hp : misses ns path := by simpa [misses, hn] using h
          rw [hn, lookup_put_self]
          exact ih hp _
        · rw [lookup_put_of_ne (Ne.symm hn)]

theorem inner?_setAt_self (v : Setting) {ns : List String} (h : ∀ n ∈ ns, lower n = n)
    (base : Option Setting) :
    inner? (some (setAt base v (ns.map .name))) ns = some (overlay (inner? base ns) v) := by
  induction ns generalizing base with
  | nil => rfl
  | cons n ns ih =>
    rw [List.forall_mem_cons] at h
    simp only [List.map_cons, setAt, inner?, members, h.1, lookup_put_self]
    exact ih h.2 _

-- The first step of a route is a name, so that settings stay a table.
theorem exists_route_eq (key : String) : ∃ n path, route key = .name n :: path := by
  rw [route, path?]
  split
  · exact ⟨_, _, rfl⟩
  · cases steps (key.toList.dropWhile isPathChar) with
    | none => exact ⟨_, _, rfl⟩
    | some path => exact ⟨_, _, rfl⟩

theorem table_set (ms : Members) (key : String) (v : Setting) :
    table (set ms key v) = setAt (some (table ms)) v (route key) := by
  obtain ⟨n, path, h⟩ := exists_route_eq key
  have hset : set ms key v = members (some (setAt (some (table ms)) v (route key))) := rfl
  rw [hset, h, setAt]
  rfl

theorem fields_of_storeOf {source input output url : Option Setting} {c : StoreConfig}
    (h : storeOf source input output url = some c) :
    field source source? .fileSystem = some c.source ∧
      field input optionalText? none = some c.inputPath ∧
      field output optionalText? none = some c.outputPath ∧
      field url optionalText? none = some c.databaseUrl := by
  simp only [storeOf, Option.pure_def, Option.bind_eq_bind, Option.bind_eq_some_iff,
    Option.some.injEq] at h
  obtain ⟨_, hsource, _, hinput, _, houtput, _, hurl, rfl⟩ := h
  exact ⟨hsource, hinput, houtput, hurl⟩

end Setting

namespace Environment

open Setting

def without (name : String) (env : Environment) : Environment := env.filter (·.1 ≠ name)

def touches (ns : List String) (name : String) : Bool :=
  match key? name with
  | some key => !misses ns (route key)
  | none => false

theorem guess_cases (value : String) :
    (∃ b, guess value = .bool b) ∨ (∃ n, guess value = .int n) ∨ (∃ x, guess value = .float x) ∨
      guess value = .str value := by
  unfold guess
  split
  · exact .inl ⟨_, rfl⟩
  · exact .inl ⟨_, rfl⟩
  · split
    · exact .inr (.inl ⟨_, rfl⟩)
    · split
      · exact .inr (.inr (.inl ⟨_, rfl⟩))
      · exact .inr (.inr (.inr rfl))

theorem overlay_guess (base : Option Setting) (value : String) :
    overlay base (guess value) = guess value := by
  obtain ⟨b, h⟩ | ⟨n, h⟩ | ⟨x, h⟩ | h := guess_cases value <;> rw [h] <;> rfl

theorem counting_without {name : String} (h : key? name = none) (env : Environment) :
    counting (env.without name) = counting env := by
  have hany (env : Environment) (key : String) :
      (env.without name).any (key? ·.1 = some key) = env.any (key? ·.1 = some key) := by
    rw [without, List.any_filter]
    congr 1
    funext x
    by_cases hx : x.1 = name <;> simp [hx, h]
  induction env with
  | nil => rfl
  | cons x env ih =>
    by_cases hx : x.1 = name
    · have hw : without name (x :: env) = without name env := by simp [without, hx]
      have hc : counting (x :: env) = counting env := by simp [counting, hx, h]
      rw [hw, hc, ih]
    · have hw : without name (x :: env) = x :: without name env := by simp [without, hx]
      rw [hw, counting, counting, ih]
      simp only [hany]

theorem inner?_apply_of_untouched {ns : List String} {env : Environment}
    (h : ∀ x ∈ env, ¬ touches ns x.1) (ms : Members) :
    inner? (some (table (apply env ms))) ns = inner? (some (table ms)) ns := by
  induction env generalizing ms with
  | nil => rfl
  | cons x env ih =>
    rw [List.forall_mem_cons] at h
    have hx := h.1
    refine (ih h.2 _).trans ?_
    unfold touches at hx
    split at hx
    · next key hk =>
      have hm : misses ns (route key) := by simpa using hx
      simp only [hk]
      rw [table_set, inner?_setAt_of_misses _ hm]
    · next hk => simp only [hk]

theorem inner?_apply_append_cons {ns : List String} {key name : String} (value : String)
    {before after : Environment} (hr : route key = ns.map .name) (hl : ∀ n ∈ ns, lower n = n)
    (hk : key? name = some key) (ha : ∀ x ∈ after, ¬ touches ns x.1) (ms : Members) :
    inner? (some (table (apply (before ++ (name, value) :: after) ms))) ns =
      some (guess value) := by
  have hsplit : apply (before ++ (name, value) :: after) ms =
      apply after (set (apply before ms) key (guess value)) := by
    simp only [apply, List.foldl_append, List.foldl_cons, hk]
  rw [hsplit, inner?_apply_of_untouched ha, table_set, hr, inner?_setAt_self _ hl, overlay_guess]

end Environment

namespace Settings

open Setting Environment

inductive Leaf
  | logLevel
  | dryRun
  | source
  | inputPath
  | outputPath
  | databaseUrl

namespace Leaf

def documented : Leaf → String
  | logLevel => "MEDAL_LOG_LEVEL"
  | dryRun => "MEDAL_DRY_RUN"
  | source => "MEDAL_REPOSITORY__SOURCE"
  | inputPath => "MEDAL_REPOSITORY__INPUT_PATH"
  | outputPath => "MEDAL_REPOSITORY__OUTPUT_PATH"
  | databaseUrl => "MEDAL_REPOSITORY__DATABASE_URL"

def key : Leaf → String
  | logLevel => "log_level"
  | dryRun => "dry_run"
  | source => "repository.source"
  | inputPath => "repository.input_path"
  | outputPath => "repository.output_path"
  | databaseUrl => "repository.database_url"

def names : Leaf → List String
  | logLevel => ["log_level"]
  | dryRun => ["dry_run"]
  | source => ["repository", "source"]
  | inputPath => ["repository", "input_path"]
  | outputPath => ["repository", "output_path"]
  | databaseUrl => ["repository", "database_url"]

def Holds (v : Setting) (s : Settings) : Leaf → Prop
  | logLevel => v.text? = some s.logLevel
  | dryRun => v.bool? = some s.dryRun
  | source => v.source? = some s.store.source
  | inputPath => v.optionalText? = some s.store.inputPath
  | outputPath => v.optionalText? = some s.store.outputPath
  | databaseUrl => v.optionalText? = some s.store.databaseUrl

theorem key?_documented (f : Leaf) : key? f.documented = none := by
  cases f <;> decide

theorem route_key (f : Leaf) : route f.key = f.names.map .name := by
  cases f <;> decide +kernel

theorem lower_of_mem_names (f : Leaf) : ∀ n ∈ f.names, lower n = n := by
  cases f <;> decide +kernel

theorem holds_of_settings? (f : Leaf) {ms : Members} {s : Settings} {v : Setting}
    (hs : settings? ms = some s) (hv : inner? (some (table ms)) f.names = some v) :
    f.Holds v s := by
  simp only [settings?, Option.pure_def, Option.bind_eq_bind, Option.bind_eq_some_iff,
    Option.some.injEq] at hs
  obtain ⟨c, hc, level, hlevel, dry, hdry, rfl⟩ := hs
  -- A setting that lies inside the store is found there only if the store is a table.
  have inside : ∀ {n : String}, (members (ms.lookup "repository")).lookup n = some v →
      ∃ rs, store? (table rs) = some c ∧ rs.lookup n = some v := by
    intro n hn
    unfold members at hn
    split at hn
    · next rs hr => exact ⟨rs, by simpa [field, hr] using hc, hn⟩
    · cases hn
  cases f with
  | logLevel =>
    have hv : ms.lookup "log_level" = some v := hv
    rwa [hv] at hlevel
  | dryRun =>
    have hv : ms.lookup "dry_run" = some v := hv
    rwa [hv] at hdry
  | source =>
    obtain ⟨rs, hrs, hn⟩ := inside hv
    have h := (fields_of_storeOf hrs).1
    rwa [hn] at h
  | inputPath =>
    obtain ⟨rs, hrs, hn⟩ := inside hv
    have h := (fields_of_storeOf hrs).2.1
    rwa [hn] at h
  | outputPath =>
    obtain ⟨rs, hrs, hn⟩ := inside hv
    have h := (fields_of_storeOf hrs).2.2.1
    rwa [hn] at h
  | databaseUrl =>
    obtain ⟨rs, hrs, hn⟩ := inside hv
    have h := (fields_of_storeOf hrs).2.2.2
    rwa [hn] at h

end Leaf

namespace Loader

variable {L : Loader}

theorem build_without {name : String} (h : key? name = none) (file : Members)
    (env : Environment) : L.build file (env.without name) = L.build file env := by
  rw [build, build, counting_without h]

theorem loadFrom_congr {env env' : Environment}
    (h : ∀ file, L.build file env = L.build file env') (t : FileTree) (base : Path)
    (name : String) : L.loadFrom t base env name = L.loadFrom t base env' name := by
  simp only [loadFrom, h]

theorem load_congr {t : FileTree} {base : Path} {env env' : Environment}
    (h : ∀ file, L.build file (fullEnvironment t base env) =
      L.build file (fullEnvironment t base env')) : L.load t base env = L.load t base env' := by
  simp only [load, h]

theorem build_of_loadFrom {t : FileTree} {base : Path} {env : Environment} {name : String}
    {s : Settings} (h : L.loadFrom t base env name = .ok s) :
    ∃ file, L.build file env = .ok s := by
  unfold loadFrom at h
  split at h
  · cases h
  · split at h
    · cases h
    · exact ⟨_, h⟩

theorem build_of_load {t : FileTree} {base : Path} {env : Environment} {s : Settings}
    (h : L.load t base env = .ok s) :
    ∃ file, L.build file (fullEnvironment t base env) = .ok s := by
  unfold load at h
  dsimp only at h
  split at h
  · exact ⟨_, h⟩
  · split at h
    · cases h
    · exact ⟨_, h⟩

theorem holds_of_build (f : Leaf) {file : Members} {env before after : Environment}
    {name value : String} {s : Settings}
    (hvars : L.arrange env.counting = before ++ (name, value) :: after)
    (hk : key? name = some f.key) (ha : ∀ x ∈ after, ¬ touches f.names x.1)
    (h : L.build file env = .ok s) : f.Holds (guess value) s := by
  unfold build at h
  dsimp only at h
  rw [hvars] at h
  split at h
  · next s' hs =>
    cases h
    apply f.holds_of_settings? hs
    exact inner?_apply_append_cons value f.route_key f.lower_of_mem_names hk ha _
  · cases h

end Loader

/-- A documented variable counts for nothing: what is loaded is the same with and without it, and
with any other value of it. A variable that spells the key of the setting behind two underscores
decides it over any file, unless one that is gone through later concerns the same setting. -/
theorem reached_by_key_alone (L : Loader) (f : Leaf) (t : FileTree) (base : Path) :
    (∀ env env' name, env.without f.documented = env'.without f.documented →
      L.loadFrom t base env name = L.loadFrom t base env' name) ∧
    (∀ env env', (fullEnvironment t base env).without f.documented =
        (fullEnvironment t base env').without f.documented →
      L.load t base env = L.load t base env') ∧
    ∀ before name value after, key? name = some f.key → (∀ x ∈ after, ¬ touches f.names x.1) →
      (∀ env file s, L.arrange env.counting = before ++ (name, value) :: after →
        L.loadFrom t base env file = .ok s → f.Holds (guess value) s) ∧
      ∀ env s, L.arrange (fullEnvironment t base env).counting = before ++ (name, value) :: after →
        L.load t base env = .ok s → f.Holds (guess value) s := by
  have same : ∀ {env env' : Environment}, env.without f.documented = env'.without f.documented →
      ∀ file, L.build file env = L.build file env' := by
    intro env env' h file
    rw [← Loader.build_without f.key?_documented, h, Loader.build_without f.key?_documented]
  refine ⟨?_, ?_, ?_⟩
  · intro env env' name h
    exact Loader.loadFrom_congr (same h) t base name
  · intro env env' h
    exact Loader.load_congr (same h)
  · intro before name value after hk ha
    constructor
    · intro env file s hvars h
      obtain ⟨members, hb⟩ := Loader.build_of_loadFrom h
      exact Loader.holds_of_build f hvars hk ha hb
    · intro env s hvars h
      obtain ⟨members, hb⟩ := Loader.build_of_load h
      exact Loader.holds_of_build f hvars hk ha hb

theorem reached_by_two_underscores :
    load ⟨[]⟩ [] [("MEDAL__DRY_RUN", "yes")] = .ok { standard with dryRun := true } ∧
      Leaf.dryRun.Holds (guess "yes") { standard with dryRun := true } := by
  have h : load ⟨[]⟩ [] [("MEDAL__DRY_RUN", "yes")] = .ok { standard with dryRun := true } := by
    decide +kernel
  have hk : key? "MEDAL__DRY_RUN" = some Leaf.dryRun.key := by decide +kernel
  have hall := (reached_by_key_alone .inOrder .dryRun ⟨[]⟩ []).2.2 [] _ "yes" [] hk (by simp)
  exact ⟨h, hall.2 _ _ (by decide +kernel) h⟩

theorem load_ignores_dry_run_variable :
    load ⟨[]⟩ [] [(Leaf.dryRun.documented, "true")] = .ok standard ∧
      (guess "true").bool? = some true ∧ standard.dryRun = false := by
  decide +kernel

end Settings

end Achievements
