import SignalK.Lib.Machine
import SignalK.UnitPreferences.Manager

/-! A restart of the manager: what a new one loads, against what the running one holds. -/
namespace SignalK.UnitPreferences

section
variable {ι τ : Type} [DecidableEq ι] [Filesystem ι] [UnitText τ]

/-! The files that a load looks at. -/

def definitionPaths (d : Dirs) : List String :=
  [d.standardDefinitions, d.customDefinitions]

def staticPaths (d : Dirs) : List String :=
  [d.categories, d.defaultCategories]

/-- The configuration of the static directory is a fallback. -/
def configPaths (d : Dirs) (fs : Files ι τ) : List String :=
  match loadJson UnitText.parseConfig fs d.config with
  | .ok _ => [d.config]
  | .error _ => [d.config, d.staticConfig]

/-- A custom preset shadows the one of the static directory. -/
def presetPaths (d : Dirs) (fs : Files ι τ) (name : String) : List String :=
  if Files.present fs (d.customPreset name) then [d.customPreset name]
  else [d.customPreset name, d.staticPreset name]

def Unchanged (fs fs' : Files ι τ) (paths : List String) : Prop :=
  ∀ p ∈ paths, Files.read fs' p = Files.read fs p

omit [UnitText τ] in
theorem loadJson_congr {α : Type} {fs fs' : Files ι τ} {p : String}
    (h : Files.read fs' p = Files.read fs p) (parse : τ → Except String α) :
    loadJson parse fs' p = loadJson parse fs p := by
  rw [loadJson, loadJson, h]

omit [UnitText τ] in
theorem unchanged_append {fs fs' : Files ι τ} {ps qs : List String} :
    Unchanged fs fs' (ps ++ qs) ↔ Unchanged fs fs' ps ∧ Unchanged fs fs' qs := by
  simp [Unchanged, or_imp, forall_and]

theorem loadDefinitions_congr {d : Dirs} {fs fs' : Files ι τ}
    (h : Unchanged fs fs' (definitionPaths d)) : loadDefinitions d fs' = loadDefinitions d fs := by
  have hstandard := h d.standardDefinitions (by simp [definitionPaths])
  have hcustom := h d.customDefinitions (by simp [definitionPaths])
  rw [loadDefinitions, loadDefinitions, Files.present, Files.present, hcustom,
    loadJson_congr hstandard, loadJson_congr hcustom]

theorem loadConfig_congr {d : Dirs} {fs fs' : Files ι τ}
    (h : Unchanged fs fs' (configPaths d fs)) : loadConfig d fs' = loadConfig d fs := by
  rw [configPaths] at h
  rw [loadConfig, loadConfig]
  cases hconfig : loadJson UnitText.parseConfig fs d.config with
  | ok config =>
    rw [hconfig] at h
    rw [loadJson_congr (h d.config (by simp)), hconfig]
  | error e =>
    rw [hconfig] at h
    rw [loadJson_congr (h d.config (by simp)), hconfig]
    dsimp only
    rw [loadJson_congr (h d.staticConfig (by simp))]

theorem loadPreset_congr {d : Dirs} {fs fs' : Files ι τ} {name : String}
    (h : Unchanged fs fs' (presetPaths d fs name)) :
    loadPreset d fs' name = loadPreset d fs name := by
  rw [presetPaths] at h
  have hcustom : Files.read fs' (d.customPreset name) = Files.read fs (d.customPreset name) := by
    refine h _ ?_
    split_ifs <;> simp
  rw [loadPreset, loadPreset, Files.present, Files.present, hcustom]
  by_cases hpresent : (Files.read fs (d.customPreset name)).isSome = true
  · rw [if_pos hpresent, if_pos hpresent, loadJson_congr hcustom]
  · rw [Files.present, if_neg hpresent] at h
    rw [if_neg hpresent, if_neg hpresent, loadJson_congr (h _ (by simp))]

/-- A load, part by part. -/
theorem load_iff {d : Dirs} {fs : Files ι τ} {inner : Inner} :
    load d fs = .ok inner ↔ loadDefinitions d fs = .ok inner.definitions ∧
      loadCategories d fs = .ok inner.categories ∧
      loadDefaultCategories d fs = .ok inner.defaultCategories ∧
      loadCustomCategories d fs = inner.customCategories ∧
      loadConfig d fs = inner.config ∧
      loadPreset d fs inner.config.activePreset = .ok inner.activePreset := by
  have hbind : ∀ {α β : Type} {x : Except String α} {f : α → Except String β} {b : β},
      (x >>= f) = .ok b ↔ ∃ a, x = .ok a ∧ f a = .ok b := by
    intro α β x f b
    cases x with
    | error e => exact iff_of_false (fun h => nomatch h) fun ⟨_, h, _⟩ => nomatch h
    | ok a =>
      constructor
      · exact fun h => ⟨a, rfl, h⟩
      · rintro ⟨_, ha, h⟩
        obtain rfl := Except.ok.inj ha
        exact h
  constructor
  · intro h
    obtain ⟨definitions, hdefinitions, h⟩ := hbind.mp h
    obtain ⟨categories, hcategories, h⟩ := hbind.mp h
    obtain ⟨defaultCategories, hdefault, h⟩ := hbind.mp h
    obtain ⟨preset, hpreset, h⟩ := hbind.mp h
    obtain rfl := Except.ok.inj h
    exact ⟨hdefinitions, hcategories, hdefault, rfl, rfl, hpreset⟩
  · rintro ⟨hdefinitions, hcategories, hdefault, hcustom, hconfig, hpreset⟩
    rw [load, hdefinitions, hcategories, hdefault, hconfig, hpreset, hcustom]
    rfl

/-! The files that a call may change. -/

/-- A path leads to none of the files of others. -/
def Apart (ι : Type) [Filesystem ι] (p : String) (paths : List String) : Prop :=
  ∀ q ∈ paths, ¬Files.Same ι p q

instance (p : String) (paths : List String) : Decidable (Apart ι p paths) :=
  inferInstanceAs (Decidable (∀ q ∈ paths, ¬Files.Same ι p q))

/-- The change is made. -/
def Written (ι : Type) [Filesystem ι] (p : String) (fate : Fate τ) : Prop :=
  (∃ l : ι, Filesystem.locate p = some l) ∧ fate = .done

/-- The change fails and leaves the file as it was. -/
def Refused (ι : Type) [Filesystem ι] (p : String) (fate : Fate τ) : Prop :=
  (Filesystem.locate p : Option ι) = none ∨ ∃ e, fate = .refused e

omit [UnitText τ] in
theorem unchanged_insert (fs : Files ι τ) {p : String} {l : ι} (h : Filesystem.locate p = some l)
    (t : τ) {paths : List String} (hapart : Apart ι p paths) :
    Unchanged fs (fs.insert l t) paths :=
  fun q hq => (Files.read_insert fs h t q).2 (hapart q hq)

omit [UnitText τ] in
theorem unchanged_erase (fs : Files ι τ) {p : String} {l : ι} (h : Filesystem.locate p = some l)
    {paths : List String} (hapart : Apart ι p paths) : Unchanged fs (fs.erase l) paths :=
  fun q hq => Files.read_erase fs h (hapart q hq)

omit [UnitText τ] in
theorem write_done {p : String} {l : ι} (h : Filesystem.locate p = some l) (fs : Files ι τ) (t : τ) :
    Files.write fs p t .done = (fs.insert l t, .ok ()) := by
  simp [Files.write, h]

omit [UnitText τ] in
theorem write_refused {p : String} {fate : Fate τ} (h : Refused ι p fate) (fs : Files ι τ)
    (t : τ) : ∃ e, Files.write fs p t fate = (fs, .error e) := by
  rw [Files.write]
  cases hp : (Filesystem.locate p : Option ι) with
  | none => exact ⟨_, rfl⟩
  | some l =>
    obtain hnone | ⟨e, rfl⟩ := h
    · rw [hp] at hnone
      cases hnone
    · exact ⟨e, rfl⟩

omit [UnitText τ] in
/-- What was written is what is read. -/
theorem read_written {p q : String} {l : ι} (h : Filesystem.locate p = some l)
    (hq : Filesystem.locate q = some l) (fs : Files ι τ) (t : τ) :
    Files.read (fs.insert l t) q = some t :=
  (Files.read_insert fs h t q).1 ⟨l, h, hq⟩

/-- A call that cannot be told from a load: it fails before it changes anything, or it changes
the one file that stands for what it changes in memory. -/
def Safe (d : Dirs) (m : Manager ι τ) (c : Call) (fate : Fate τ) : Prop :=
  match c with
  | .setActivePreset name =>
    (∃ e, loadPreset d m.files name = .error e) ∨
      Written ι d.config fate ∧ Apart ι d.config
        (definitionPaths d ++ staticPaths d ++ [d.customCategories] ++
          presetPaths d m.files name)
  | .saveCustomPreset name _ =>
    Refused ι (d.savedPreset name) fate ∨
      Written ι (d.savedPreset name) fate ∧
        Apart ι (d.savedPreset name) (definitionPaths d ++ staticPaths d ++
          [d.customCategories] ++ configPaths d m.files) ∧
        if m.inner.config.activePreset = name then
          Files.Same ι (d.savedPreset name) (d.customPreset name)
        else Apart ι (d.savedPreset name) (presetPaths d m.files m.inner.config.activePreset)
  | .deleteCustomPreset name =>
    Files.present m.files (d.customPreset name) = false ∨ fate ≠ .done ∨
      Apart ι (d.customPreset name) (definitionPaths d ++ staticPaths d ++
        [d.customCategories] ++ configPaths d m.files ++
        presetPaths d m.files m.inner.config.activePreset)
  | .saveCustomDefinitions _ =>
    Refused ι d.customDefinitions fate ∨
      Written ι d.customDefinitions fate ∧ Apart ι d.customDefinitions (staticPaths d ++
        [d.customCategories] ++ configPaths d m.files ++
        presetPaths d m.files m.inner.config.activePreset)
  | .saveCustomCategories _ =>
    Refused ι d.customCategories fate ∨
      Written ι d.customCategories fate ∧ Apart ι d.customCategories (definitionPaths d ++
        staticPaths d ++ configPaths d m.files ++
        presetPaths d m.files m.inner.config.activePreset)

/-- After the call a new manager would hold the same; and if it failed, nothing has changed. -/
def Kept (d : Dirs) (m : Manager ι τ) (r : Manager ι τ × Except String Unit) : Prop :=
  load d r.1.files = .ok r.1.inner ∧
    r.1.inner.defaultCategories = m.inner.defaultCategories ∧
    ∀ e, r.2 = .error e → r.1 = m

theorem kept_failed {d : Dirs} {m : Manager ι τ} (h : load d m.files = .ok m.inner) (e : String) :
    Kept d m (m, .error e) :=
  ⟨h, rfl, fun _ _ => rfl⟩

section
variable {d : Dirs} {m : Manager ι τ} (h : load d m.files = .ok m.inner) {fs : Files ι τ}
include h

theorem definitions_kept (hu : Unchanged m.files fs (definitionPaths d)) :
    loadDefinitions d fs = .ok m.inner.definitions := by
  rw [loadDefinitions_congr hu]
  exact (load_iff.mp h).1

theorem static_kept (hu : Unchanged m.files fs (staticPaths d)) :
    loadCategories d fs = .ok m.inner.categories ∧
      loadDefaultCategories d fs = .ok m.inner.defaultCategories := by
  obtain ⟨-, hcategories, hdefault, -⟩ := load_iff.mp h
  have hu' := hu d.categories (by simp [staticPaths])
  have hu'' := hu d.defaultCategories (by simp [staticPaths])
  exact ⟨(loadJson_congr hu' _).trans hcategories, (loadJson_congr hu'' _).trans hdefault⟩

theorem customCategories_kept (hu : Unchanged m.files fs [d.customCategories]) :
    loadCustomCategories d fs = m.inner.customCategories := by
  have hu' := hu d.customCategories (by simp)
  rw [loadCustomCategories, loadJson_congr hu']
  exact (load_iff.mp h).2.2.2.1

theorem config_kept (hu : Unchanged m.files fs (configPaths d m.files)) :
    loadConfig d fs = m.inner.config := by
  rw [loadConfig_congr hu]
  exact (load_iff.mp h).2.2.2.2.1

theorem preset_kept
    (hu : Unchanged m.files fs (presetPaths d m.files m.inner.config.activePreset)) :
    loadPreset d fs m.inner.config.activePreset = .ok m.inner.activePreset := by
  rw [loadPreset_congr hu]
  exact (load_iff.mp h).2.2.2.2.2

theorem setActivePreset_kept {name : String} {fate : Fate τ}
    (hsafe : Safe d m (.setActivePreset name) fate) : Kept d m (setActivePreset d m name fate) := by
  rw [setActivePreset]
  cases hpreset : loadPreset d m.files name with
  | error e => exact kept_failed h e
  | ok preset =>
    obtain ⟨e, he⟩ | ⟨⟨⟨l, hl⟩, rfl⟩, hapart⟩ := hsafe
    · rw [hpreset] at he
      cases he
    · have hu := unchanged_insert m.files hl (UnitText.configText ⟨name⟩) hapart
      simp only [unchanged_append] at hu
      obtain ⟨⟨⟨hdefinitions, hstatic⟩, hcustom⟩, hnew⟩ := hu
      have hconfig : loadConfig d (m.files.insert l (UnitText.configText ⟨name⟩)) = ⟨name⟩ := by
        rw [loadConfig, loadJson, read_written hl hl]
        dsimp only
        rw [UnitText.parseConfig_text]
      simp only [write_done hl]
      refine ⟨load_iff.mpr ⟨definitions_kept h hdefinitions, (static_kept h hstatic).1,
        (static_kept h hstatic).2, customCategories_kept h hcustom, hconfig, ?_⟩, rfl,
        fun e he => nomatch he⟩
      exact (loadPreset_congr hnew).trans hpreset

theorem saveCustomPreset_kept {name : String} {preset : Preset} {fate : Fate τ}
    (hsafe : Safe d m (.saveCustomPreset name preset) fate) :
    Kept d m (saveCustomPreset d m name preset fate) := by
  rw [saveCustomPreset]
  obtain hrefused | ⟨⟨⟨l, hl⟩, rfl⟩, hapart, hactive⟩ := hsafe
  · obtain ⟨e, hwrite⟩ := write_refused hrefused m.files (UnitText.presetText preset)
    simp only [hwrite]
    exact kept_failed h _
  · have hu := unchanged_insert m.files hl (UnitText.presetText preset) hapart
    simp only [unchanged_append] at hu
    obtain ⟨⟨⟨hdefinitions, hstatic⟩, hcustom⟩, hconfig⟩ := hu
    simp only [write_done hl]
    by_cases hname : m.inner.config.activePreset = name
    · -- the active preset is the one that was saved, and its file is read first
      rw [if_pos hname] at hactive ⊢
      obtain ⟨l', hsaved, hread⟩ := hactive
      obtain rfl := Option.some.inj (hl.symm.trans hsaved)
      have hfile := read_written hl hread m.files (UnitText.presetText preset)
      have hpreset : loadPreset d (m.files.insert l (UnitText.presetText preset)) name =
          .ok preset := by
        rw [loadPreset, Files.present, hfile, Option.isSome_some, if_pos rfl, loadJson, hfile]
        dsimp only
        rw [UnitText.parsePreset_text]
      refine ⟨load_iff.mpr ⟨definitions_kept h hdefinitions, (static_kept h hstatic).1,
        (static_kept h hstatic).2, customCategories_kept h hcustom, config_kept h hconfig, ?_⟩,
        rfl, fun e he => nomatch he⟩
      change loadPreset d _ m.inner.config.activePreset = _
      rw [hname]
      exact hpreset
    · rw [if_neg hname] at hactive ⊢
      have hpreset := unchanged_insert m.files hl (UnitText.presetText preset) hactive
      exact ⟨load_iff.mpr ⟨definitions_kept h hdefinitions, (static_kept h hstatic).1,
        (static_kept h hstatic).2, customCategories_kept h hcustom, config_kept h hconfig,
        preset_kept h hpreset⟩, rfl, fun e he => nomatch he⟩

theorem deleteCustomPreset_kept {name : String} {fate : Fate τ}
    (hsafe : Safe d m (.deleteCustomPreset name) fate) :
    Kept d m (deleteCustomPreset d m name fate) := by
  rw [deleteCustomPreset]
  by_cases hpresent : Files.present m.files (d.customPreset name) = true
  · rw [if_pos hpresent]
    obtain ⟨l, hl, -⟩ := Option.bind_eq_some_iff.mp (Option.get_mem hpresent)
    cases fate with
    | refused e =>
      simp only [Files.remove, hl]
      exact kept_failed h _
    | torn t e =>
      simp only [Files.remove, hl]
      exact kept_failed h _
    | done =>
      obtain hno | hdone | hapart := hsafe
      · rw [hpresent] at hno
        cases hno
      · exact (hdone rfl).elim
      · have hu := unchanged_erase m.files hl hapart
        simp only [unchanged_append] at hu
        obtain ⟨⟨⟨⟨hdefinitions, hstatic⟩, hcustom⟩, hconfig⟩, hpreset⟩ := hu
        simp only [Files.remove, hl]
        exact ⟨load_iff.mpr ⟨definitions_kept h hdefinitions, (static_kept h hstatic).1,
          (static_kept h hstatic).2, customCategories_kept h hcustom, config_kept h hconfig,
          preset_kept h hpreset⟩, rfl, fun e he => nomatch he⟩
  · rw [if_neg hpresent]
    exact kept_failed h _

/-- Custom definitions that were written are loaded again. -/
theorem definitions_reload {l : ι} (hl : Filesystem.locate d.customDefinitions = some l)
    (defs : UnitDefinitions) : ∃ definitions, loadDefinitions d
      (m.files.insert l (UnitText.definitionsText defs)) = .ok definitions := by
  have hparse : ∀ {q : String}, Files.read (m.files.insert l (UnitText.definitionsText defs)) q =
      some (UnitText.definitionsText defs) → loadJson UnitText.parseDefinitions
        (m.files.insert l (UnitText.definitionsText defs)) q = .ok defs := by
    intro q hq
    rw [loadJson, hq]
    dsimp only
    rw [UnitText.parseDefinitions_text]
  have hstandard : ∃ standard, loadJson UnitText.parseDefinitions
      (m.files.insert l (UnitText.definitionsText defs)) d.standardDefinitions = .ok standard := by
    obtain ⟨hsame, hother⟩ := Files.read_insert m.files hl (UnitText.definitionsText defs)
      d.standardDefinitions
    by_cases hs : Files.Same ι d.customDefinitions d.standardDefinitions
    · exact ⟨defs, hparse (hsame hs)⟩
    · have hload := (load_iff.mp h).1
      rw [loadDefinitions] at hload
      rw [loadJson_congr (hother hs)]
      cases hold : loadJson UnitText.parseDefinitions m.files d.standardDefinitions with
      | ok standard => exact ⟨standard, rfl⟩
      | error e =>
        rw [hold] at hload
        cases hload
  obtain ⟨standard, hstandard⟩ := hstandard
  have hfile := read_written hl hl m.files (UnitText.definitionsText defs)
  refine ⟨mergeDefinitions standard defs, ?_⟩
  rw [loadDefinitions, hstandard, Files.present, hfile, hparse hfile]
  rfl

theorem saveCustomDefinitions_kept {defs : UnitDefinitions} {fate : Fate τ}
    (hsafe : Safe d m (.saveCustomDefinitions defs) fate) :
    Kept d m (saveCustomDefinitions d m defs fate) := by
  rw [saveCustomDefinitions]
  obtain hrefused | ⟨⟨⟨l, hl⟩, rfl⟩, hapart⟩ := hsafe
  · obtain ⟨e, hwrite⟩ := write_refused hrefused m.files (UnitText.definitionsText defs)
    simp only [hwrite]
    exact kept_failed h _
  · have hu := unchanged_insert m.files hl (UnitText.definitionsText defs) hapart
    simp only [unchanged_append] at hu
    obtain ⟨⟨⟨hstatic, hcustom⟩, hconfig⟩, hpreset⟩ := hu
    obtain ⟨definitions, hdefinitions⟩ := definitions_reload h hl defs
    simp only [write_done hl, hdefinitions]
    exact ⟨load_iff.mpr ⟨hdefinitions, (static_kept h hstatic).1, (static_kept h hstatic).2,
      customCategories_kept h hcustom, config_kept h hconfig, preset_kept h hpreset⟩, rfl,
      fun e he => nomatch he⟩

theorem saveCustomCategories_kept {cats : CustomCategories} {fate : Fate τ}
    (hsafe : Safe d m (.saveCustomCategories cats) fate) :
    Kept d m (saveCustomCategories d m cats fate) := by
  rw [saveCustomCategories]
  obtain hrefused | ⟨⟨⟨l, hl⟩, rfl⟩, hapart⟩ := hsafe
  · obtain ⟨e, hwrite⟩ := write_refused hrefused m.files (UnitText.customCategoriesText cats)
    simp only [hwrite]
    exact kept_failed h _
  · have hu := unchanged_insert m.files hl (UnitText.customCategoriesText cats) hapart
    simp only [unchanged_append] at hu
    obtain ⟨⟨⟨hdefinitions, hstatic⟩, hconfig⟩, hpreset⟩ := hu
    have hcustom : loadCustomCategories d
        (m.files.insert l (UnitText.customCategoriesText cats)) = cats := by
      rw [loadCustomCategories, loadJson, read_written hl hl]
      dsimp only
      rw [UnitText.parseCustomCategories_text]
    simp only [write_done hl]
    exact ⟨load_iff.mpr ⟨definitions_kept h hdefinitions, (static_kept h hstatic).1,
      (static_kept h hstatic).2, hcustom, config_kept h hconfig, preset_kept h hpreset⟩, rfl,
      fun e he => nomatch he⟩

theorem call_kept {c : Call} {fate : Fate τ} (hsafe : Safe d m c fate) :
    Kept d m (m.call d c fate) := by
  cases c with
  | setActivePreset name => exact setActivePreset_kept h hsafe
  | saveCustomPreset name preset => exact saveCustomPreset_kept h hsafe
  | deleteCustomPreset name => exact deleteCustomPreset_kept h hsafe
  | saveCustomDefinitions defs => exact saveCustomDefinitions_kept h hsafe
  | saveCustomCategories cats => exact saveCustomCategories_kept h hsafe

end

/-! Runs. -/

def step (d : Dirs) (m : Manager ι τ) (e : Call × Fate τ) :
    Manager ι τ × List (Except String Unit) :=
  let r := m.call d e.1 e.2
  (r.1, [r.2])

/-- A new manager holds what the running one holds and resolves every path to the same units,
in whatever order its map of categories is visited; and calls that failed changed nothing. -/
def Survives (d : Dirs) (m₀ : Manager ι τ) (order : List (String × DefaultCategoryEntry))
    (es : List (Call × Fate τ)) : Prop :=
  let m := Machine.run (step d) m₀ es
  load d m.files = .ok m.inner ∧
  (∀ order', HashMap.IterOrder order' m.inner.defaultCategories.categories → ∀ path,
    resolveDisplayUnits path order' m.inner.customCategories m.inner.categories
        m.inner.activePreset m.inner.definitions =
      resolveDisplayUnits path order m.inner.customCategories m.inner.categories
        m.inner.activePreset m.inner.definitions) ∧
  ∀ fs c fate e, fs ++ [(c, fate)] <+: es →
    ((Machine.run (step d) m₀ fs).call d c fate).2 = .error e →
    ((Machine.run (step d) m₀ fs).call d c fate).1 = Machine.run (step d) m₀ fs

/-- Preferences survive every run of safe calls, if no path has two categories. -/
theorem survives_of_safe {d : Dirs} {m₀ : Manager ι τ}
    {order : List (String × DefaultCategoryEntry)} {es : List (Call × Fate τ)}
    (hload : load d m₀.files = .ok m₀.inner)
    (horder : HashMap.IterOrder order m₀.inner.defaultCategories.categories)
    (hone : Unambiguous m₀.inner.defaultCategories.categories)
    (hsafe : Machine.Meets (step d) (fun m e => Safe d m e.1 e.2) m₀ es) :
    Survives d m₀ order es := by
  have hstep : ∀ (m : Manager ι τ) (e : Call × Fate τ),
      (load d m.files = .ok m.inner ∧
        m.inner.defaultCategories = m₀.inner.defaultCategories) → Safe d m e.1 e.2 →
      load d (step d m e).1.files = .ok (step d m e).1.inner ∧
        (step d m e).1.inner.defaultCategories = m₀.inner.defaultCategories := by
    intro m e hinv hs
    obtain ⟨hnew, hdefault, -⟩ := call_kept hinv.1 hs
    exact ⟨hnew, hdefault.trans hinv.2⟩
  have hinv : ∀ fs, Machine.Meets (step d) (fun m e => Safe d m e.1 e.2) m₀ fs →
      load d (Machine.run (step d) m₀ fs).files = .ok (Machine.run (step d) m₀ fs).inner ∧
        (Machine.run (step d) m₀ fs).inner.defaultCategories = m₀.inner.defaultCategories :=
    fun fs hm => Machine.run_inv hstep ⟨hload, rfl⟩ hm
  obtain ⟨hnew, hdefault⟩ := hinv es hsafe
  refine ⟨hnew, fun order' horder' path => ?_, fun fs c fate e hp he => ?_⟩
  · rw [hdefault] at horder'
    rw [resolveDisplayUnits, resolveDisplayUnits,
      resolveCategory_order horder' horder hone path]
  · have hprefixes := Machine.meets_iff_prefix.mp hsafe
    obtain ⟨gs, rfl⟩ := hp
    rw [List.append_assoc] at hsafe
    obtain ⟨hfs, -⟩ := Machine.meets_append.mp hsafe
    have hs := hprefixes fs (c, fate) (List.prefix_append _ gs)
    exact (call_kept (hinv fs hfs).1 hs).2.2 e he

end
/-! Runs on files that are documents. -/

inductive Document where
  | definitions (defs : UnitDefinitions)
  | categories (cats : CategoriesFile)
  | defaultCategories (cats : DefaultCategoriesFile)
  | customCategories (cats : CustomCategories)
  | config (config : UnitPrefsConfig)
  | preset (preset : Preset)
  deriving DecidableEq

@[reducible] def Document.text : UnitText Document where
  presetText := .preset
  parsePreset
    | .preset p => .ok p
    | _ => .error "missing field"
  parsePreset_text _ := rfl
  configText := .config
  parseConfig
    | .config c => .ok c
    | _ => .error "missing field"
  parseConfig_text _ := rfl
  definitionsText := .definitions
  parseDefinitions
    | .definitions defs => .ok defs
    | _ => .error "missing field"
  parseDefinitions_text _ := rfl
  customCategoriesText := .customCategories
  parseCustomCategories
    | .customCategories cats => .ok cats
    | _ => .error "invalid type"
  parseCustomCategories_text _ := rfl
  parseCategories
    | .categories cats => .ok cats
    | _ => .error "missing field"
  parseDefaultCategories
    | .defaultCategories cats => .ok cats
    | _ => .error "missing field"

/-- All directories are there, and paths lead where their dots say. -/
@[reducible] def everywhere : Filesystem (List String) where
  locate p := some (Paths.resolve [] p)
  notFound _ := "No such file or directory (os error 2)"

section
attribute [local instance] Document.text everywhere

def shippedDirs : Dirs := ⟨"/etc", "/data"⟩

def presetOf (name targetUnit : String) : Preset :=
  ⟨"1.0.0", "2026-01-01", name, "",
    HashMap.collect [("speed", ⟨"m/s", targetUnit, none⟩)]⟩

def shippedInner : Inner where
  definitions := HashMap.collect [("m/s", ⟨none,
    HashMap.collect [("kn", ⟨"value * 1.94384", "value * 0.514444", "kn", none, none⟩)]⟩)]
  categories := ⟨HashMap.collect [("speed", "m/s")], ["speed"]⟩
  defaultCategories := ⟨"", "1.0.0",
    HashMap.collect [("speed", ⟨"m/s", ["navigation.speedOverGround"]⟩)]⟩
  customCategories := ∅
  config := ⟨"nautical-metric"⟩
  activePreset := presetOf "Nautical (Metric)" "kn"

/-- A fresh data directory. -/
def shipped : Manager (List String) Document where
  files := HashMap.collect
    [(["etc", "standard-units-definitions.json"], .definitions shippedInner.definitions),
      (["etc", "categories.json"], .categories shippedInner.categories),
      (["etc", "default-categories.json"], .defaultCategories shippedInner.defaultCategories),
      (["etc", "presets", "nautical-metric.json"], .preset shippedInner.activePreset)]
  inner := shippedInner

abbrev shippedOrder : List (String × DefaultCategoryEntry) :=
  [("speed", ⟨"m/s", ["navigation.speedOverGround"]⟩)]

/-- A preset of one's own is saved and made the active one. -/
theorem survives_own_preset :
    Survives shippedDirs shipped shippedOrder
      [(.saveCustomPreset "mine" (presetOf "Mine" "m/s"), .done),
        (.setActivePreset "mine", .done)] := by
  have hone : Unambiguous shipped.inner.defaultCategories.categories := by
    intro path a b entry entry' ha hb _
    have hkey : ∀ c listing, shipped.inner.defaultCategories.categories.lookup c = some listing →
        c = "speed" := by
      intro c listing hc
      by_contra hne
      simp [shipped, shippedInner, HashMap.collect, hne] at hc
    rw [hkey a entry ha, hkey b entry' hb]
  refine survives_of_safe (by decide +kernel) (by decide +kernel) hone ⟨?_, ?_, trivial⟩
  · refine .inr ⟨⟨⟨_, rfl⟩, rfl⟩, by decide +kernel, ?_⟩
    rw [if_neg (by decide +kernel)]
    decide +kernel
  · exact .inr ⟨⟨⟨_, rfl⟩, rfl⟩, by decide +kernel⟩

/-- The active preset is deleted; another file is saved under the name of a preset; the file of
the configuration cannot be written. -/
theorem restart_differs :
    ¬ Survives shippedDirs shipped shippedOrder
      [(.saveCustomPreset "mine" (presetOf "Mine" "m/s"), .done),
        (.setActivePreset "mine", .done), (.deleteCustomPreset "mine", .done)] ∧
    ¬ Survives shippedDirs shipped shippedOrder
      [(.saveCustomPreset "mine" (presetOf "Mine" "m/s"), .done),
        (.setActivePreset "mine", .done),
        (.saveCustomPreset "../config" (presetOf "Mine" "m/s"), .done)] ∧
    ¬ Survives shippedDirs shipped shippedOrder
      [(.saveCustomPreset "mine" (presetOf "Mine" "m/s"), .done),
        (.setActivePreset "mine", .refused "Permission denied (os error 13)")] := by
  refine ⟨fun h => ?_, fun h => ?_, fun h => ?_⟩
  · exact absurd h.1 (by decide +kernel)
  · exact absurd h.1 (by decide +kernel)
  · exact absurd h.1 (by decide +kernel)

end

end SignalK.UnitPreferences
