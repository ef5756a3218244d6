import Achievements.Proofs.Settings.Assignments
import Achievements.Store.Basic

namespace Achievements

namespace Setting

inductive Shows : Setting → String → Prop
  | str (s : String) : Shows (.str s) s
  | bool (b : Bool) : Shows (.bool b) (if b then "true" else "false")
  | int (n : Int) : Shows (.int n) (.ofList (integerText n))
  | float (x : Binary64) : Shows (.float x) (.ofList x.plain)

inductive MayShow : Setting → Option String → Prop
  | nothing : MayShow .nil none
  | text {v : Setting} {s : String} : Shows v s → MayShow v (some s)

inductive Means : Setting → Bool → Prop
  | bool (b : Bool) : Means (.bool b) b
  | int (n : Int) : Means (.int n) (n ≠ 0)
  | float (x : Binary64) : Means (.float x) !(x.eq .zero)
  | yes {s : String} : lower s ∈ ["1", "true", "on", "yes"] → Means (.str s) true
  | no {s : String} : lower s ∈ ["0", "false", "off", "no"] → Means (.str s) false

inductive Names : Setting → Source → Prop
  | fileSystem {s : String} : lower s = "filesystem" → Names (.str s) .fileSystem
  | database {s : String} : lower s = "database" → Names (.str s) .database
  | memory {s : String} : lower s = "memory" → Names (.str s) .memory

/-- What is read where something is assigned, and what stands for it where nothing is. -/
def Stands {α : Type} (reads : Setting → α → Prop) (absent : α) : Option Setting → α → Prop
  | none, x => x = absent
  | some v, x => reads v x

theorem shows_of_text? {v : Setting} {s : String} (h : v.text? = some s) : Shows v s := by
  cases v <;> cases h <;> constructor

theorem mayShow_of_optionalText? {v : Setting} {s : Option String}
    (h : v.optionalText? = some s) : MayShow v s := by
  unfold optionalText? at h
  split at h
  · cases h
    exact .nothing
  · obtain ⟨t, ht, rfl⟩ := Option.map_eq_some_iff.1 h
    exact .text (shows_of_text? ht)

theorem means_of_bool? {v : Setting} {b : Bool} (h : v.bool? = some b) : Means v b := by
  cases v with
  | str s =>
    simp only [bool?] at h
    split at h
    · next hyes =>
      cases h
      exact .yes hyes
    · split at h
      · next hno =>
        cases h
        exact .no hno
      · cases h
  | _ => cases h <;> constructor

theorem names_of_source? {s : String} {x : Source} (h : (Setting.str s).source? = some x) :
    Names (.str s) x := by
  simp only [source?, Source.words, List.lookup_cons, List.lookup_nil] at h
  split at h
  · next hs =>
    cases h
    exact .fileSystem (beq_iff_eq.1 hs)
  · split at h
    · next hs =>
      cases h
      exact .database (beq_iff_eq.1 hs)
    · split at h
      · next hs =>
        cases h
        exact .memory (beq_iff_eq.1 hs)
      · cases h

theorem stands_of_field {α : Type} {read : Setting → Option α} {reads : Setting → α → Prop}
    {absent x : α} {v : Option Setting} (h : field v read absent = some x)
    (hreads : ∀ w, v = some w → read w = some x → reads w x) : Stands reads absent v x := by
  cases v with
  | none => exact (Option.some.inj h).symm
  | some w => exact hreads w rfl h

end Setting

namespace Settings

open Setting Environment

namespace Leaf

def isOptional : Leaf → Bool
  | inputPath => true
  | outputPath => true
  | databaseUrl => true
  | _ => false

def fits : Leaf → Setting → Bool
  | dryRun, .str s => lower s ∈ ["1", "true", "on", "yes", "0", "false", "off", "no"]
  | source, .str s => lower s ∈ ["filesystem", "database", "memory"]
  | source, _ => false
  | f, .nil => f.isOptional
  | _, .list _ => false
  | _, .table _ => false
  | _, _ => true

def inStore : Leaf → Bool
  | logLevel => false
  | dryRun => false
  | _ => true

/-- Settings have what is assigned to a leaf, or else what the leaf is by itself. -/
def Takes (s : Settings) (v : Option Setting) : Leaf → Prop
  | logLevel => Stands Shows "info" v s.logLevel
  | dryRun => Stands Means false v s.dryRun
  | source => Stands Names .fileSystem v s.store.source
  | inputPath => Stands MayShow none v s.store.inputPath
  | outputPath => Stands MayShow none v s.store.outputPath
  | databaseUrl => Stands MayShow none v s.store.databaseUrl

theorem fits_table (f : Leaf) (ms : Members) : f.fits (table ms) = false := by
  cases f <;> rfl

theorem exists_text?_of_fits {v : Setting} (h : logLevel.fits v = true) :
    ∃ s, v.text? = some s := by
  cases v <;> first | exact ⟨_, rfl⟩ | cases h

theorem exists_optionalText?_of_fits {f : Leaf} (hf : f.isOptional = true) {v : Setting}
    (h : f.fits v = true) : ∃ s, v.optionalText? = some s := by
  cases f <;> cases hf <;> cases v <;> first | exact ⟨_, rfl⟩ | cases h

theorem exists_bool?_of_fits {v : Setting} (h : dryRun.fits v = true) :
    ∃ b, v.bool? = some b := by
  cases v with
  | str s =>
    have hword : lower s ∈ yes ++ no := of_decide_eq_true h
    simp only [bool?]
    split
    · exact ⟨_, rfl⟩
    · next hyes => exact ⟨false, if_pos ((List.mem_append.1 hword).resolve_left hyes)⟩
  | _ => first | exact ⟨_, rfl⟩ | cases h

theorem exists_source?_of_fits {v : Setting} (h : source.fits v = true) :
    ∃ s x, v = .str s ∧ v.source? = some x := by
  cases v with
  | str s =>
    have hword : lower s ∈ ["filesystem", "database", "memory"] := of_decide_eq_true h
    simp only [List.mem_cons, List.not_mem_nil, or_false] at hword
    obtain hs | hs | hs := hword <;> exact ⟨s, _, rfl, by rw [source?, hs]; rfl⟩
  | _ => cases h

theorem inner?_store {ms rs : Members} (h : ms.lookup "repository" = some (table rs)) (n : String) :
    inner? (some (table ms)) ["repository", n] = rs.lookup n := by
  simp [inner?, members, h]

theorem exists_field {α : Type} {read : Setting → Option α} {v : Option Setting} (absent : α)
    (h : ∀ w, v = some w → ∃ x, read w = some x) : ∃ x, Setting.field v read absent = some x := by
  cases v with
  | none => exact ⟨absent, rfl⟩
  | some w => exact h w rfl

theorem exists_store? {rs : Members}
    (h : ∀ (f : Leaf) n v, f.names = ["repository", n] → rs.lookup n = some v → f.fits v = true) :
    ∃ c, store? (table rs) = some c := by
  have hsource : ∃ x, Setting.field (rs.lookup "source") Setting.source? .fileSystem = some x := by
    refine exists_field _ fun v hv ↦ ?_
    obtain ⟨_, x, -, hx⟩ := exists_source?_of_fits (h source _ v rfl hv)
    exact ⟨x, hx⟩
  obtain ⟨source, hsource⟩ := hsource
  have htext (f : Leaf) (hf : f.isOptional = true) (n : String)
      (hn : f.names = ["repository", n]) :
      ∃ x, Setting.field (rs.lookup n) optionalText? none = some x :=
    exists_field none fun v hv ↦ exists_optionalText?_of_fits hf (h f n v hn hv)
  obtain ⟨input, hinput⟩ := htext inputPath rfl "input_path" rfl
  obtain ⟨output, houtput⟩ := htext outputPath rfl "output_path" rfl
  obtain ⟨url, hurl⟩ := htext databaseUrl rfl "database_url" rfl
  refine ⟨⟨source, input, output, url⟩, ?_⟩
  simp [store?, storeOf, hsource, hinput, houtput, hurl]

theorem exists_settings? {ms : Members}
    (hfits : ∀ (f : Leaf) v, inner? (some (table ms)) f.names = some v → f.fits v = true)
    (hstore : ms.lookup "repository" = none ∨ ∃ rs, ms.lookup "repository" = some (table rs)) :
    ∃ s, settings? ms = some s := by
  have hlevel : ∃ x, Setting.field (ms.lookup "log_level") text? standard.logLevel = some x :=
    exists_field _ fun v hv ↦ exists_text?_of_fits (hfits logLevel v hv)
  have hdry : ∃ x, Setting.field (ms.lookup "dry_run") bool? standard.dryRun = some x :=
    exists_field _ fun v hv ↦ exists_bool?_of_fits (hfits dryRun v hv)
  have hstore : ∃ x, Setting.field (ms.lookup "repository") store? standard.store = some x := by
    rcases hstore with h | ⟨rs, h⟩
    · exact ⟨_, by rw [h, Setting.field]⟩
    · rw [h]
      exact exists_store? fun f n v hn hv ↦ hfits f v (by rw [hn, inner?_store h, hv])
  obtain ⟨level, hlevel⟩ := hlevel
  obtain ⟨dry, hdry⟩ := hdry
  obtain ⟨store, hstore⟩ := hstore
  exact ⟨⟨store, level, dry⟩, by simp [settings?, hstore, hlevel, hdry]⟩

theorem takes_of_settings? (f : Leaf) {ms : Members} {s : Settings} (hs : settings? ms = some s)
    (hfits : ∀ v, inner? (some (table ms)) f.names = some v → f.fits v = true)
    (hstore : f.inStore = true → ∃ rs, ms.lookup "repository" = some (table rs)) :
    f.Takes s (inner? (some (table ms)) f.names) := by
  simp only [settings?, Option.pure_def, Option.bind_eq_bind, Option.bind_eq_some_iff,
    Option.some.injEq] at hs
  obtain ⟨store, hc, level, hlevel, dry, hdry, rfl⟩ := hs
  by_cases hf : f.inStore = true
  · obtain ⟨rs, hrs⟩ := hstore hf
    rw [hrs] at hc
    obtain ⟨hsource, hinput, houtput, hurl⟩ := fields_of_storeOf hc
    cases f with
    | logLevel => cases hf
    | dryRun => cases hf
    | source =>
      rw [names, inner?_store hrs] at hfits ⊢
      refine stands_of_field hsource fun v hv hx ↦ ?_
      obtain ⟨word, _, rfl, -⟩ := exists_source?_of_fits (hfits v hv)
      exact names_of_source? hx
    | inputPath =>
      rw [names, inner?_store hrs]
      exact stands_of_field hinput fun _ _ ↦ mayShow_of_optionalText?
    | outputPath =>
      rw [names, inner?_store hrs]
      exact stands_of_field houtput fun _ _ ↦ mayShow_of_optionalText?
    | databaseUrl =>
      rw [names, inner?_store hrs]
      exact stands_of_field hurl fun _ _ ↦ mayShow_of_optionalText?
  · cases f with
    | logLevel => exact stands_of_field hlevel fun _ _ ↦ shows_of_text?
    | dryRun => exact stands_of_field hdry fun _ _ ↦ means_of_bool?
    | _ => exact absurd rfl hf

end Leaf

def written (t : FileTree) (base : Path) (env : Environment) : Environment :=
  match (variablesFile t base.length base).bind fun p ↦ (t.readBytes p).toOption with
  | some bytes => Variables.assignments env (Variables.lines (Text.skipMark bytes.data.toList))
  | none => []

theorem fullEnvironment_eq_extend (t : FileTree) (base : Path) (env : Environment) :
    fullEnvironment t base env = env.extend (written t base env) := by
  unfold fullEnvironment written
  cases (variablesFile t base.length base).bind fun p ↦ (t.readBytes p).toOption with
  | none => rfl
  | some bytes => exact Variables.addLines_eq_extend _ _

/-- Both ways of loading, with the members of the configuration file and the assignments of the file
of variables. -/
inductive Loading (L : Loader) (t : FileTree) (base : Path) (env : Environment) :
    Except LoadError Settings → Members → Environment → Prop
  | named {name text format file} : L.source? t base name = some (text, format) →
      L.parse format text = some file → Loading L t base env (L.loadFrom t base env name) file []
  | usual {text format file} : L.source? t base "config/migrate" = some (text, format) →
      L.parse format text = some file →
      Loading L t base env (L.load t base env) file (written t base env)
  /-- There is no file of any format, or one without an extension hides them. -/
  | missing : (t.isFile base "config/migrate" = true ∨ ∀ f : Format, ∀ e ∈ f.extensions,
        t.isFile base ("config/migrate." ++ e) = false) →
      Loading L t base env (L.load t base env) [] (written t base env)

theorem Loader.source?_eq_none (L : Loader) {t : FileTree} {base : Path}
    (h : t.isFile base "config/migrate" = true ∨ ∀ f : Format, ∀ e ∈ f.extensions,
      t.isFile base ("config/migrate." ++ e) = false) :
    L.source? t base "config/migrate" = none := by
  have hfind : L.find t base "config/migrate" = none := by
    rw [find]
    split
    · decide +kernel
    · next hno =>
      have hstem : stem? base "config/migrate" = some "config/migrate" := rfl
      have hall := h.resolve_left hno
      rw [hstem, Option.bind_some, List.findSome?_eq_none_iff]
      intro f _
      rw [Option.map_eq_none_iff, List.find?_eq_none]
      intro full hfull
      obtain ⟨e, he, rfl⟩ := List.mem_map.1 hfull
      rw [Bool.not_eq_true]
      exact hall f e he
  rw [source?, hfind]
  rfl

theorem Loading.eq_build {L : Loader} {t : FileTree} {base : Path} {env : Environment}
    {outcome : Except LoadError Settings} {file : Members} {extra : Environment}
    (h : Loading L t base env outcome file extra) : outcome = L.build file (env.extend extra) := by
  cases h with
  | named hsource hfile => rw [Loader.loadFrom, hsource]; simp only [hfile]; rfl
  | usual hsource hfile =>
    rw [Loader.load, hsource, fullEnvironment_eq_extend]; simp only [hfile]
  | missing hno => rw [Loader.load, L.source?_eq_none hno, fullEnvironment_eq_extend]

/-- All assignments. Those of the file come first and those of the variables after them. -/
def layers (file : Members) (vars : Environment) : Members := file ++ vars.assignments

def merged (as : Members) : Members := as.foldl (fun ms a ↦ set ms a.1 a.2) []

theorem Loader.build_eq_ok {L : Loader} {file : Members} {env : Environment} {s : Settings}
    (h : settings? (merged (layers file (L.arrange env.counting))) = some s) :
    L.build file env = .ok s := by
  rw [layers, merged, List.foldl_append, ← apply_eq_foldl] at h
  unfold build
  dsimp only
  rw [h]

theorem mem_layers_arrange (L : Loader) {file : Members} {env : Environment}
    {a : String × Setting} : a ∈ layers file (L.arrange env) ↔ a ∈ layers file env := by
  have hperm : (assignments (L.arrange env)).Perm (assignments env) :=
    (L.arrange_perm env).filterMap _
  simp [layers, hperm.mem_iff]

/-- Settings are what has won at each leaf. The leaves of the store count by themselves only if the
store is configured at all. -/
structure Reflects (as : Members) (won : Leaf → Option Setting) (s : Settings) : Prop where
  outside : ∀ f : Leaf, f.inStore = false → f.Takes s (won f)
  standard : (∀ a ∈ as, enters "repository" a = false) →
    s.store = .files "achievements.json" "achievements2.json"
  inside : (∃ a ∈ as, enters "repository" a = true) →
    ∀ f : Leaf, f.inStore = true → f.Takes s (won f)

/-- What wins at a leaf: the variable that sets its key, or else something that the file assigns to
it. -/
inductive Winner (f : Leaf) (file : Members) (vars : Environment) : Option Setting → Prop
  | fromVariable {value : String} : valueAt? f.key vars = some value →
      Winner f file vars (some (guess value))
  | fromFile {w : Setting} : valueAt? f.key vars = none → Assigned f.names file w →
      Winner f file vars (some w)
  | absent : valueAt? f.key vars = none → (∀ w, ¬ Assigned f.names file w) →
      Winner f file vars none

theorem Winner.eq_guess {f : Leaf} {file : Members} {vars : Environment} {v : Option Setting}
    {value : String} (h : Winner f file vars v) (hvalue : valueAt? f.key vars = some value) :
    v = some (guess value) := by
  cases h with
  | fromVariable h => rw [Option.some.inj (h.symm.trans hvalue)]
  | fromFile h => cases h.symm.trans hvalue
  | absent h => cases h.symm.trans hvalue

theorem store_of_settings? {ms : Members} {s : Settings} (hs : settings? ms = some s)
    (h : ms.lookup "repository" = none) : s.store = Settings.standard.store := by
  simp only [settings?, Option.pure_def, Option.bind_eq_bind, Option.bind_eq_some_iff,
    Option.some.injEq, h, Setting.field] at hs
  obtain ⟨_, rfl, _, -, _, -, rfl⟩ := hs
  rfl

section Merged

variable {as file : Members}

theorem settles_merged (f : Leaf) (h : ∀ a ∈ as, proper f.fits f.names a = true) :
    Settles (Assigned f.names as) none (inner? (some (table (merged as))) f.names) := by
  have hnone : inner? (some (table [])) f.names = none := by cases f <;> rfl
  rw [← hnone]
  exact settles_foldl_set f.fits_table h []

theorem assigned_of_settles {P : Setting → Prop} {v : Option Setting} {w : Setting}
    (h : Settles P none v) (hw : v = some w) : P w := by
  rcases h with ⟨w', hw', rfl⟩ | ⟨-, rfl⟩
  · cases hw
    exact hw'
  · cases hw

theorem exists_reflects (h : ∀ (f : Leaf), ∀ a ∈ as, proper f.fits f.names a = true) :
    ∃ s, settings? (merged as) = some s ∧
      Reflects as (fun f ↦ inner? (some (table (merged as))) f.names) s := by
  have hfits (f : Leaf) (v : Setting) (hv : inner? (some (table (merged as))) f.names = some v) :
      f.fits v = true :=
    fits_of_assigned (h f) (assigned_of_settles (settles_merged f (h f)) hv)
  obtain ⟨hout, hin⟩ := lookup_foldl_set (h .source) []
  obtain ⟨s, hs⟩ : ∃ s, settings? (merged as) = some s := by
    refine Leaf.exists_settings? hfits ?_
    by_cases hc : ∃ a ∈ as, enters "repository" a = true
    · exact .inr (hin hc)
    · exact .inl (hout fun a ha ↦ Bool.eq_false_iff.2 fun he ↦ hc ⟨a, ha, he⟩)
  refine ⟨s, hs, ?_, ?_, ?_⟩
  · intro f hf
    exact f.takes_of_settings? hs (hfits f) fun hf' ↦ absurd (hf.symm.trans hf') Bool.false_ne_true
  · intro hno
    exact store_of_settings? hs (hout hno)
  · intro hsome f _
    exact f.takes_of_settings? hs (hfits f) fun _ ↦ hin hsome

theorem assigned_arrange_iff (L : Loader) {f : Leaf} {vars : Environment} {w : Setting} :
    Assigned f.names (assignments (L.arrange vars.counting)) w ↔
      ∃ value, valueAt? f.key vars = some value ∧ w = guess value := by
  have hperm := (L.arrange_perm vars.counting).filterMap fun x ↦ (key? x.1).map (·, guess x.2)
  rw [← assigned_counting_iff]
  exact exists_congr fun a ↦ and_congr_left' hperm.mem_iff

theorem winner_merged {L : Loader} {vars : Environment} (f : Leaf)
    (h : ∀ a ∈ layers file (L.arrange vars.counting), proper f.fits f.names a = true) :
    Winner f file vars
      (inner? (some (table (merged (layers file (L.arrange vars.counting))))) f.names) := by
  rw [layers, List.forall_mem_append] at h
  have hfile := settles_merged f h.1
  have hvars := (settles_foldl_set f.fits_table h.2 (merged file)).congr fun w ↦
    (assigned_arrange_iff L).symm
  rw [layers, merged, List.foldl_append, ← merged]
  rcases hvars with ⟨w, ⟨value, hvalue, rfl⟩, hnew⟩ | ⟨hno, hnew⟩
  · rw [hnew]
    exact .fromVariable hvalue
  · have hnone : valueAt? f.key vars = none :=
      Option.eq_none_iff_forall_ne_some.2 fun value hvalue ↦ hno _ ⟨value, hvalue, rfl⟩
    rcases hfile with ⟨w, hw, hold⟩ | ⟨hnot, hold⟩
    · rw [hnew, hold]
      exact .fromFile hnone hw
    · rw [hnew, hold]
      exact .absent hnone hnot

end Merged

def given : Option Setting → Bool
  | none => false
  | some .nil => false
  | some _ => true

theorem exists_of_given {v : Option Setting} (h : given v = true) : ∃ w, v = some w := by
  cases v with
  | none => cases h
  | some w => exact ⟨w, rfl⟩

theorem isSome_eq_given {v : Option Setting} {x : Option String} (h : Stands MayShow none v x) :
    x.isSome = given v := by
  cases v with
  | none =>
    rw [h]
    rfl
  | some w =>
    cases h with
    | nothing => rfl
    | text h => cases h <;> rfl

theorem validate_of_one_path {c : StoreConfig} (hsource : c.source = .fileSystem) :
    (c.inputPath.isSome = true → c.outputPath.isSome = false →
      c.validate = .error (.missing .fileSystem "output_path")) ∧
    (c.inputPath.isSome = false → c.validate = .error (.missing .fileSystem "input_path")) := by
  rw [StoreConfig.validate, hsource]
  cases c.inputPath <;> cases c.outputPath <;> simp

theorem Reflects.open?_of_one_path {as : Members} {won : Leaf → Option Setting} {s : Settings}
    (h : Reflects as won s) (hwon : ∀ f w, won f = some w → Assigned f.names as w)
    (hsource : s.store.source = .fileSystem) (t : FileTree) (base : Path) :
    (given (won .inputPath) = true → given (won .outputPath) = false →
      Store.open? s.store t base = (.error (.config (.missing .fileSystem "output_path")), [])) ∧
    (given (won .outputPath) = true → given (won .inputPath) = false →
      Store.open? s.store t base = (.error (.config (.missing .fileSystem "input_path")), [])) := by
  have paths (hc : ∃ a ∈ as, enters "repository" a = true) :
      s.store.inputPath.isSome = given (won .inputPath) ∧
        s.store.outputPath.isSome = given (won .outputPath) :=
    ⟨isSome_eq_given (h.inside hc .inputPath rfl), isSome_eq_given (h.inside hc .outputPath rfl)⟩
  obtain ⟨hvalidate, hvalidate'⟩ := validate_of_one_path hsource
  constructor
  · intro hin hout
    obtain ⟨v, hv⟩ := exists_of_given hin
    obtain ⟨hi, ho⟩ := paths (exists_enters_of_assigned (hwon .inputPath v hv))
    rw [Store.open?, hvalidate (hi.trans hin) (ho.trans hout)]
  · intro hout hin
    obtain ⟨v, hv⟩ := exists_of_given hout
    obtain ⟨hi, -⟩ := paths (exists_enters_of_assigned (hwon .outputPath v hv))
    rw [Store.open?, hvalidate' (hi.trans hin)]

theorem Reflects.congr {as as' : Members} {won : Leaf → Option Setting} {s : Settings}
    (h : Reflects as won s) (hmem : ∀ {a}, a ∈ as' ↔ a ∈ as) : Reflects as' won s where
  outside := h.outside
  standard hno := h.standard fun a ha ↦ hno a (hmem.2 ha)
  inside := fun ⟨a, ha, he⟩ ↦ h.inside ⟨a, hmem.1 ha, he⟩

/-- Loading well-typed assignments succeeds, in whatever order tables are gone through. The log level
and the dry run are what wins there or else their defaults, the store is the standard one unless
something is assigned to it, and then each of its fields is by itself what wins there or else nothing,
so that one path without the other is refused. Variables win over the file, and a variable of the
process over the same one in the file of variables. -/
theorem overlaid_leaf_by_leaf {L : Loader} {t : FileTree} {base : Path} {env extra : Environment}
    {outcome : Except LoadError Settings} {file : Members}
    (h : Loading L t base env outcome file extra)
    (hproper : ∀ (f : Leaf), ∀ a ∈ layers file (env.extend extra).counting,
      proper f.fits f.names a = true) :
    ∃ s won, outcome = .ok s ∧ (∀ f, Winner f file (env.extend extra) (won f)) ∧
      Reflects (layers file (env.extend extra).counting) won s ∧
      (s.store.source = .fileSystem → ∀ t base,
        (given (won .inputPath) = true → given (won .outputPath) = false →
          Store.open? s.store t base =
            (.error (.config (.missing .fileSystem "output_path")), [])) ∧
        (given (won .outputPath) = true → given (won .inputPath) = false →
          Store.open? s.store t base =
            (.error (.config (.missing .fileSystem "input_path")), []))) ∧
      ∀ name, (env.extend extra).value? name = (env.value? name).or (extra.lookup name) := by
  have hproper' (f : Leaf) : ∀ a ∈ layers file (L.arrange (env.extend extra).counting),
      proper f.fits f.names a = true := fun a ha ↦ hproper f a ((mem_layers_arrange L).1 ha)
  obtain ⟨s, hs, hreflects⟩ := exists_reflects hproper'
  refine ⟨s, _, h.eq_build.trans (Loader.build_eq_ok hs), fun f ↦ winner_merged f (hproper' f),
    hreflects.congr (mem_layers_arrange L).symm, hreflects.open?_of_one_path fun f w hw ↦ ?_,
    fun name ↦ value?_extend env extra name⟩
  exact assigned_of_settles (settles_merged f (hproper' f)) hw

theorem overlaid_over_three_layers :
    let t : FileTree := ⟨[([".env"], .file "MEDAL__DRY_RUN=on\nMEDAL__LOG_LEVEL=warn\n".toUTF8),
      (["config"], .dir), (["config", "migrate.toml"], .file
        "log_level = \"debug\"\n[repository]\nsource = \"database\"\nInput_Path = \"a.json\"\n".toUTF8)]⟩
    let env : Environment := [("MEDAL__LOG_LEVEL", "trace"),
      ("MEDAL__REPOSITORY__DATABASE_URL", "mysql://x"), ("medal__repository__source", "FileSystem")]
    let extra : Environment := [("MEDAL__DRY_RUN", "on"), ("MEDAL__LOG_LEVEL", "warn")]
    let s : Settings := ⟨{ inputPath := some "a.json", databaseUrl := some "mysql://x" }, "trace", true⟩
    ∃ file won, Loading .inOrder t [] env (load t [] env) file extra ∧ load t [] env = .ok s ∧
      (∀ f, Winner f file (env.extend extra) (won f)) ∧ won .source = some (guess "FileSystem") ∧
      Reflects (layers file (env.extend extra).counting) won s ∧ Store.open? s.store t [] =
        (.error (.config (.missing .fileSystem "output_path")), []) := by
  intro t env extra s
  let text :=
    "log_level = \"debug\"\n[repository]\nsource = \"database\"\nInput_Path = \"a.json\"\n"
  let file := (Toml.parse text).getD []
  have hsource : Loader.inOrder.source? t [] "config/migrate" = some (text, .toml) := by
    decide +kernel
  have hparse : Loader.inOrder.parse .toml text = some file := by
    have hparses : (Toml.parse text).isSome = true := by decide +kernel
    obtain ⟨file', hfile⟩ := Option.isSome_iff_exists.1 hparses
    simp only [file, Loader.inOrder, hfile, Option.getD_some]
  have hextra : written t [] env = extra := by decide +kernel
  have hloading : Loading .inOrder t [] env (load t [] env) file extra := by
    rw [← hextra]
    exact .usual hsource hparse
  have hproper : ∀ (f : Leaf), ∀ a ∈ layers file (env.extend extra).counting,
      proper f.fits f.names a = true := by
    intro f
    cases f <;> decide +kernel
  have hload : load t [] env = .ok s := by decide +kernel
  obtain ⟨s', won, hs, hwon, hreflects, hopen, -⟩ := overlaid_leaf_by_leaf hloading hproper
  cases hload.symm.trans hs
  have hstore : ∃ a ∈ layers file (env.extend extra).counting, enters "repository" a = true := by
    decide +kernel
  have hsource : won .source = some (guess "FileSystem") :=
    (hwon .source).eq_guess (by decide +kernel)
  refine ⟨file, won, hloading, hload, hwon, hsource, hreflects, (hopen rfl t []).1 ?_ ?_⟩
  · exact (isSome_eq_given (hreflects.inside hstore .inputPath rfl)).symm
  · exact (isSome_eq_given (hreflects.inside hstore .outputPath rfl)).symm

end Settings

end Achievements
