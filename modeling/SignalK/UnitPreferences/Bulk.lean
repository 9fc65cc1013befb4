import SignalK.UnitPreferences.Types

/-! The display units of all known paths at once, against those of one path at a time. -/
namespace SignalK.UnitPreferences

/-- The two maps it goes through are visited in orders of their own. -/
def resolveAll (order : List (String × DefaultCategoryEntry))
    (customOrder : List (String × String)) (customCategories : CustomCategories)
    (categories : CategoriesFile) (activePreset : Preset) (definitions : UnitDefinitions) :
    HashMap String DisplayUnits :=
  let resolve := fun path => resolveDisplayUnits path order customCategories categories
    activePreset definitions
  order.foldl
    (fun result e =>
      let result := e.2.paths.foldl
        (fun result pattern =>
          -- Skip wildcard patterns — they can't be pre-resolved
          if '*' ∈ pattern.toList then result else HashMap.insertSome resolve result pattern)
        result
      -- custom overrides that point to this category
      customOrder.foldl
        (fun result c => if c.2 = e.1 then HashMap.insertSome resolve result c.1 else result)
        result)
    ∅

/-- A pattern that stands for several paths. -/
def Wildcard (path : String) : Prop := '*' ∈ path.toList

instance (path : String) : Decidable (Wildcard path) := inferInstanceAs (Decidable (_ ∈ _))

/-- Some default category lists the path. -/
def ListedByDefault (defaults : HashMap String DefaultCategoryEntry) (path : String) : Prop :=
  ∃ category entry, defaults.lookup category = some entry ∧ path ∈ entry.paths

/-- Values of the category have a unit to be shown in, and a formula that leads there. -/
def Convertible (categories : CategoriesFile) (activePreset : Preset)
    (definitions : UnitDefinitions) (category : String) : Prop :=
  ∃ baseUnit presetCat unitDef, categories.categoryToBaseUnit.lookup category = some baseUnit ∧
    activePreset.categories.lookup category = some presetCat ∧
    definitions.lookup baseUnit = some unitDef ∧
    (presetCat.targetUnit ∈ unitDef.conversions ∨ presetCat.targetUnit = baseUnit)

section
variable (defaults : HashMap String DefaultCategoryEntry)
  (order : List (String × DefaultCategoryEntry)) (customOrder : List (String × String))
  (customCategories : CustomCategories) (categories : CategoriesFile) (activePreset : Preset)
  (definitions : UnitDefinitions)

/-- All the paths, and only those, that are listed and no wildcards, with their units. -/
structure BulkAgrees : Prop where
  same : ∀ path, ¬ Wildcard path →
    ListedByDefault defaults path ∨ path ∈ customCategories → ∀ units,
    (resolveAll order customOrder customCategories categories activePreset definitions).lookup
        path = some units ↔
      resolveDisplayUnits path order customCategories categories activePreset definitions =
        some units
  noOther : ∀ path,
    path ∈ resolveAll order customOrder customCategories categories activePreset definitions →
    ¬ Wildcard path ∧ (ListedByDefault defaults path ∨ path ∈ customCategories)

/-- An override to a category with units is for a listed path or to a default category; one of
a wildcard is to neither. -/
def OverridesInReach : Prop :=
  ∀ path category, customCategories.lookup path = some category →
    Convertible categories activePreset definitions category →
    if Wildcard path then category ∉ defaults
    else ListedByDefault defaults path ∨ category ∈ defaults

/-- The paths that are resolved under a default category. -/
def visited (e : String × DefaultCategoryEntry) : List String :=
  e.2.paths.filter (fun pattern => decide (¬ '*' ∈ pattern.toList)) ++
    (customOrder.filter fun c => decide (c.2 = e.1)).map (·.1)

theorem foldl_visited (resolve : String → Option DisplayUnits) (e : String × DefaultCategoryEntry)
    (result : HashMap String DisplayUnits) :
    (visited customOrder e).foldl (HashMap.insertSome resolve) result =
      customOrder.foldl
        (fun result c => if c.2 = e.1 then HashMap.insertSome resolve result c.1 else result)
        (e.2.paths.foldl
          (fun result pattern =>
            if '*' ∈ pattern.toList then result else HashMap.insertSome resolve result pattern)
          result) := by
  rw [visited, List.foldl_append, List.foldl_map, List.foldl_filter, List.foldl_filter]
  simp only [decide_eq_true_eq, ite_not]

theorem resolveAll_eq :
    resolveAll order customOrder customCategories categories activePreset definitions =
      (order.flatMap (visited customOrder)).foldl (HashMap.insertSome fun path =>
        resolveDisplayUnits path order customCategories categories activePreset definitions) ∅ := by
  rw [resolveAll, List.foldl_flatMap]
  simp only [foldl_visited]

/-- What is contained is what the path resolves to by itself. -/
theorem lookup_resolveAll (path : String) :
    (resolveAll order customOrder customCategories categories activePreset definitions).lookup
        path =
      if path ∈ order.flatMap (visited customOrder) then
        resolveDisplayUnits path order customCategories categories activePreset definitions
      else none := by
  rw [resolveAll_eq, HashMap.lookup_foldl_insertSome]
  simp

/-- A path has units as soon as its category has. -/
theorem isSome_resolveDisplayUnits (path : String) :
    (resolveDisplayUnits path order customCategories categories activePreset
        definitions).isSome = true ↔
      ∃ category, resolveCategory path order customCategories = some category ∧
        Convertible categories activePreset definitions category := by
  rw [resolveDisplayUnits]
  constructor
  · intro h
    obtain ⟨units, h⟩ := Option.isSome_iff_exists.mp h
    obtain ⟨category, hcategory, h⟩ := Option.bind_eq_some_iff.mp h
    obtain ⟨baseUnit, hbase, h⟩ := Option.bind_eq_some_iff.mp h
    obtain ⟨presetCat, hpreset, h⟩ := Option.bind_eq_some_iff.mp h
    obtain ⟨unitDef, hdef, h⟩ := Option.bind_eq_some_iff.mp h
    refine ⟨category, hcategory, baseUnit, presetCat, unitDef, hbase, hpreset, hdef, ?_⟩
    cases hconv : unitDef.conversions.lookup presetCat.targetUnit with
    | some conversion => exact .inl (Finmap.mem_of_lookup_eq_some hconv)
    | none =>
      by_cases heq : presetCat.targetUnit = baseUnit
      · exact .inr heq
      · simp [hconv, heq] at h
  · rintro ⟨category, hcategory, baseUnit, presetCat, unitDef, hbase, hpreset, hdef, hconv⟩
    simp only [hcategory, hbase, hpreset, hdef, Option.bind_eq_bind, Option.bind_some]
    cases hlookup : unitDef.conversions.lookup presetCat.targetUnit with
    | some conversion => rfl
    | none =>
      have heq : presetCat.targetUnit = baseUnit := by
        cases hconv with
        | inl hmem =>
          obtain ⟨conversion, hmem⟩ := Finmap.mem_iff.mp hmem
          rw [hlookup] at hmem
          cases hmem
        | inr heq => exact heq
      simp [heq]

variable {defaults order customOrder customCategories}

theorem mem_visited (horder : HashMap.IterOrder order defaults)
    (hcustom : HashMap.IterOrder customOrder customCategories) (path : String) :
    path ∈ order.flatMap (visited customOrder) ↔
      ¬ Wildcard path ∧ ListedByDefault defaults path ∨
        ∃ category, customCategories.lookup path = some category ∧ category ∈ defaults := by
  have hvisited : ∀ e, path ∈ visited customOrder e ↔
      path ∈ e.2.paths ∧ ¬ Wildcard path ∨ customCategories.lookup path = some e.1 := by
    intro e
    rw [visited, List.mem_append, List.mem_filter, decide_eq_true_iff, List.mem_map,
      ← hcustom.mem_iff]
    refine or_congr Iff.rfl ⟨?_, fun h => ⟨_, List.mem_filter.mpr ⟨h, by simp⟩, rfl⟩⟩
    rintro ⟨⟨p, category⟩, hmem, rfl⟩
    obtain ⟨hmem, hcategory⟩ := List.mem_filter.mp hmem
    rw [← of_decide_eq_true hcategory]
    exact hmem
  simp only [List.mem_flatMap, hvisited, Prod.exists, horder.mem_iff]
  constructor
  · rintro ⟨category, entry, hentry, ⟨hpath, hplain⟩ | hover⟩
    · exact .inl ⟨hplain, category, entry, hentry, hpath⟩
    · exact .inr ⟨category, hover, Finmap.mem_of_lookup_eq_some hentry⟩
  · rintro (⟨hplain, category, entry, hentry, hpath⟩ | ⟨category, hover, hdefault⟩)
    · exact ⟨category, entry, hentry, .inl ⟨hpath, hplain⟩⟩
    · obtain ⟨entry, hentry⟩ := Finmap.mem_iff.mp hdefault
      exact ⟨category, entry, hentry, .inr hover⟩

variable {categories activePreset definitions}

/-- An override settles the category. -/
theorem isSome_of_override {path category : String}
    (hover : customCategories.lookup path = some category) :
    (resolveDisplayUnits path order customCategories categories activePreset
        definitions).isSome = true ↔
      Convertible categories activePreset definitions category := by
  have hcategory : resolveCategory path order customCategories = some category := by
    rw [resolveCategory, hover]
  rw [isSome_resolveDisplayUnits, hcategory]
  constructor
  · rintro ⟨c, hc, h⟩
    exact Option.some.inj hc ▸ h
  · exact fun h => ⟨category, rfl, h⟩

theorem overridesInReach_of_bulkAgrees (horder : HashMap.IterOrder order defaults)
    (hcustom : HashMap.IterOrder customOrder customCategories)
    (h : BulkAgrees defaults order customOrder customCategories categories activePreset
      definitions) :
    OverridesInReach defaults customCategories categories activePreset definitions := by
  intro path category hover hconv
  obtain ⟨units, hunits⟩ := Option.isSome_iff_exists.mp ((isSome_of_override hover).mpr hconv)
  have hlookup := lookup_resolveAll order customOrder customCategories categories activePreset
    definitions path
  have hmem := mem_visited horder hcustom path
  split_ifs with hwild
  · intro hdefault
    rw [if_pos (hmem.mpr (.inr ⟨category, hover, hdefault⟩)), hunits] at hlookup
    exact (h.noOther path (Finmap.mem_of_lookup_eq_some hlookup)).1 hwild
  · have hsame := (h.same path hwild (.inr (Finmap.mem_of_lookup_eq_some hover)) units).mpr hunits
    rw [hlookup] at hsame
    split_ifs at hsame with hvisited
    cases hmem.mp hvisited with
    | inl hlisted => exact .inl hlisted.2
    | inr hdefault =>
      obtain ⟨c, hc, hdefault⟩ := hdefault
      rw [hover] at hc
      exact .inr (Option.some.inj hc ▸ hdefault)

theorem bulkAgrees_of_overridesInReach (horder : HashMap.IterOrder order defaults)
    (hcustom : HashMap.IterOrder customOrder customCategories)
    (h : OverridesInReach defaults customCategories categories activePreset definitions) :
    BulkAgrees defaults order customOrder customCategories categories activePreset
      definitions where
  same := by
    intro path hplain hlisted units
    rw [lookup_resolveAll]
    split_ifs with hvisited
    · rfl
    · constructor
      · intro hnone
        cases hnone
      · intro hunits
        refine absurd ((mem_visited horder hcustom path).mpr ?_) hvisited
        cases hlisted with
        | inl hdefault => exact .inl ⟨hplain, hdefault⟩
        | inr hmem =>
          obtain ⟨category, hover⟩ := Finmap.mem_iff.mp hmem
          have hreach := h path category hover
            ((isSome_of_override hover).mp (Option.isSome_of_eq_some hunits))
          rw [if_neg hplain] at hreach
          exact hreach.imp (fun hd => ⟨hplain, hd⟩) fun hd => ⟨category, hover, hd⟩
  noOther := by
    intro path hmem
    obtain ⟨units, hunits⟩ := Finmap.mem_iff.mp hmem
    rw [lookup_resolveAll] at hunits
    split_ifs at hunits with hvisited
    cases (mem_visited horder hcustom path).mp hvisited with
    | inl hlisted => exact ⟨hlisted.1, .inl hlisted.2⟩
    | inr hdefault =>
      obtain ⟨category, hover, hdefault⟩ := hdefault
      have hreach := h path category hover
        ((isSome_of_override hover).mp (Option.isSome_of_eq_some hunits))
      refine ⟨fun hwild => ?_, .inr (Finmap.mem_of_lookup_eq_some hover)⟩
      rw [if_pos hwild] at hreach
      exact hreach hdefault

/-- All units at once are those of the single paths exactly when every override is in reach. -/
theorem bulkAgrees_iff (horder : HashMap.IterOrder order defaults)
    (hcustom : HashMap.IterOrder customOrder customCategories) :
    BulkAgrees defaults order customOrder customCategories categories activePreset definitions ↔
      OverridesInReach defaults customCategories categories activePreset definitions :=
  ⟨overridesInReach_of_bulkAgrees horder hcustom, bulkAgrees_of_overridesInReach horder hcustom⟩

end

/-! An override to a category that the default categories do not have. -/

def sailArea : CustomCategories := Finmap.singleton "sails.area.total" "area"

def speedOnly : HashMap String DefaultCategoryEntry :=
  Finmap.singleton "speed" ⟨"m/s", ["navigation.speedOverGround"]⟩

def areaUnits : CategoriesFile := ⟨Finmap.singleton "area" "m2", []⟩

def areaPreset : Preset :=
  ⟨"1", "2024-01-01", "Nautical metric", "", Finmap.singleton "area" ⟨"m2", "m2", some "0.0"⟩⟩

def squareMeter : UnitDefinitions :=
  Finmap.singleton "m2" ⟨some "Square meter", Finmap.singleton "m2"
    ⟨"value", "value", "m2", none, none⟩⟩

theorem convertible_area : Convertible areaUnits areaPreset squareMeter "area" :=
  ⟨"m2", ⟨"m2", "m2", some "0.0"⟩, ⟨some "Square meter", Finmap.singleton "m2"
    ⟨"value", "value", "m2", none, none⟩⟩, Finmap.lookup_singleton_eq, Finmap.lookup_singleton_eq,
    Finmap.lookup_singleton_eq, .inl (by simp)⟩

theorem bulkAgrees_fails : ¬ ∀ (defaults : HashMap String DefaultCategoryEntry)
    (order : List (String × DefaultCategoryEntry)) (customOrder : List (String × String))
    (customCategories : CustomCategories) (categories : CategoriesFile) (activePreset : Preset)
    (definitions : UnitDefinitions), HashMap.IterOrder order defaults →
    HashMap.IterOrder customOrder customCategories →
    BulkAgrees defaults order customOrder customCategories categories activePreset
      definitions := by
  intro h
  have horder := HashMap.iterOrder_singleton "speed"
    (⟨"m/s", ["navigation.speedOverGround"]⟩ : DefaultCategoryEntry)
  have hcustom := HashMap.iterOrder_singleton "sails.area.total" "area"
  have hagrees := h speedOnly _ _ sailArea areaUnits areaPreset squareMeter horder hcustom
  have hreach := overridesInReach_of_bulkAgrees horder hcustom hagrees "sails.area.total" "area"
    Finmap.lookup_singleton_eq convertible_area
  rw [if_neg (by decide)] at hreach
  cases hreach with
  | inl hlisted =>
    obtain ⟨category, entry, hentry, hpath⟩ := hlisted
    rw [Finmap.lookup_eq_some_iff] at hentry
    cases Multiset.mem_singleton.mp hentry
    exact absurd hpath (by decide)
  | inr hdefault => exact absurd hdefault (by decide)

theorem bulkAgrees_iff_speed :
    BulkAgrees speedOnly [("speed", ⟨"m/s", ["navigation.speedOverGround"]⟩)]
        [("sails.area.total", "area")] sailArea areaUnits areaPreset squareMeter ↔
      OverridesInReach speedOnly sailArea areaUnits areaPreset squareMeter :=
  bulkAgrees_iff (HashMap.iterOrder_singleton _ _) (HashMap.iterOrder_singleton _ _)

end SignalK.UnitPreferences
