import SignalK.Lib.HashMap
import SignalK.Types.Meta
import SignalK.Types.Path

/-! Unit preferences: the files they consist of, and the display units of a path. -/
namespace SignalK.UnitPreferences

structure ConversionDef where
  formula : String
  inverseFormula : String
  symbol : String
  longName : Option String
  key : Option String
  deriving DecidableEq

structure UnitDefinition where
  longName : Option String
  conversions : HashMap String ConversionDef
  deriving DecidableEq

abbrev UnitDefinitions := HashMap String UnitDefinition

structure CategoriesFile where
  categoryToBaseUnit : HashMap String String
  coreCategories : List String
  deriving DecidableEq

structure DefaultCategoryEntry where
  siUnit : String
  paths : List String
  deriving DecidableEq

structure DefaultCategoriesFile where
  description : String
  version : String
  categories : HashMap String DefaultCategoryEntry
  deriving DecidableEq

abbrev CustomCategories := HashMap String String

structure PresetCategory where
  baseUnit : String
  targetUnit : String
  displayFormat : Option String
  deriving DecidableEq

structure Preset where
  version : String
  date : String
  name : String
  description : String
  categories : HashMap String PresetCategory
  deriving DecidableEq

structure UnitPrefsConfig where
  activePreset : String
  deriving DecidableEq

/-- serde_json on these types; what is written reads back. -/
class UnitText (τ : Type) where
  presetText : Preset → τ
  parsePreset : τ → Except String Preset
  parsePreset_text : ∀ preset, parsePreset (presetText preset) = .ok preset
  configText : UnitPrefsConfig → τ
  parseConfig : τ → Except String UnitPrefsConfig
  parseConfig_text : ∀ config, parseConfig (configText config) = .ok config
  definitionsText : UnitDefinitions → τ
  parseDefinitions : τ → Except String UnitDefinitions
  parseDefinitions_text : ∀ defs, parseDefinitions (definitionsText defs) = .ok defs
  customCategoriesText : CustomCategories → τ
  parseCustomCategories : τ → Except String CustomCategories
  parseCustomCategories_text :
    ∀ cats, parseCustomCategories (customCategoriesText cats) = .ok cats
  parseCategories : τ → Except String CategoriesFile
  parseDefaultCategories : τ → Except String DefaultCategoriesFile

/-! The resolver. The map of default categories is visited in an order of its own. -/

def matchesWildcard (pattern path : String) : Bool :=
  let patternParts := segments pattern
  let pathParts := segments path
  decide (patternParts.length = pathParts.length) &&
    (patternParts.zip pathParts).all fun (p, s) => decide (p = "*") || decide (p = s)

/-- The category lists the path. -/
def DefaultCategoryEntry.lists (entry : DefaultCategoryEntry) (path : String) : Bool :=
  decide (path ∈ entry.paths)

/-- Some pattern of the category matches the path. -/
def DefaultCategoryEntry.covers (entry : DefaultCategoryEntry) (path : String) : Bool :=
  entry.paths.any fun pattern => decide ('*' ∈ pattern.toList) && matchesWildcard pattern path

def resolveCategory (path : String) (order : List (String × DefaultCategoryEntry))
    (customCategories : CustomCategories) : Option String :=
  match customCategories.lookup path with
  | some category => some category
  | none =>
    match order.find? fun e => e.2.lists path with
    | some (category, _) => some category
    | none => (order.find? fun e => e.2.covers path).map (·.1)

def resolveDisplayUnits (path : String) (order : List (String × DefaultCategoryEntry))
    (customCategories : CustomCategories) (categories : CategoriesFile) (activePreset : Preset)
    (definitions : UnitDefinitions) : Option DisplayUnits := do
  let category ← resolveCategory path order customCategories
  let baseUnit ← categories.categoryToBaseUnit.lookup category
  let presetCat ← activePreset.categories.lookup category
  let targetUnit := presetCat.targetUnit
  let unitDef ← definitions.lookup baseUnit
  let conversion ←
    match unitDef.conversions.lookup targetUnit with
    | some conversion => some conversion
    | none =>
      if targetUnit = baseUnit then
        some ⟨"value * 1", "value * 1", baseUnit, unitDef.longName, none⟩
      else none
  some ⟨category, targetUnit, conversion.formula, conversion.inverseFormula, conversion.symbol,
    presetCat.displayFormat⟩

/-- No path is listed by two categories, and none that is not listed is covered by two. -/
def Unambiguous (categories : HashMap String DefaultCategoryEntry) : Prop :=
  ∀ path a b entry entry', categories.lookup a = some entry → categories.lookup b = some entry' →
    (entry.lists path = true ∧ entry'.lists path = true ∨
      (∀ c listing, categories.lookup c = some listing → listing.lists path = false) ∧
        entry.covers path = true ∧ entry'.covers path = true) → a = b

/-- The first entry of a map with a property does not depend on the order if no two have it. -/
theorem find_unique {categories : HashMap String DefaultCategoryEntry}
    {order order' : List (String × DefaultCategoryEntry)}
    (h : HashMap.IterOrder order categories) (h' : HashMap.IterOrder order' categories)
    {p : String × DefaultCategoryEntry → Bool}
    (hone : ∀ a b entry entry', categories.lookup a = some entry →
      categories.lookup b = some entry' → p (a, entry) = true → p (b, entry') = true → a = b) :
    (order.find? p).map (·.1) = (order'.find? p).map (·.1) := by
  have hfound : ∀ {l l' : List (String × DefaultCategoryEntry)},
      HashMap.IterOrder l categories → HashMap.IterOrder l' categories →
      ∀ a, (l.find? p).map (·.1) = some a → (l'.find? p).map (·.1) = some a := by
    intro l l' hl hl' a ha
    obtain ⟨⟨a, entry⟩, hfind, rfl⟩ := Option.map_eq_some_iff.mp ha
    have hentry := (hl.mem_iff a entry).mp (List.mem_of_find?_eq_some hfind)
    have hp : p (a, entry) = true := List.find?_some hfind
    have hsome : (l'.find? p).isSome = true :=
      List.find?_isSome.mpr ⟨_, (hl'.mem_iff a entry).mpr hentry, hp⟩
    obtain ⟨⟨b, entry'⟩, hfind'⟩ := Option.isSome_iff_exists.mp hsome
    have hentry' := (hl'.mem_iff b entry').mp (List.mem_of_find?_eq_some hfind')
    have hp' : p (b, entry') = true := List.find?_some hfind'
    rw [hfind', Option.map_some, hone a b entry entry' hentry hentry' hp hp']
  exact Option.ext fun a => ⟨hfound h h' a, hfound h' h a⟩

/-- Where categories are unambiguous, the order of the map is of no consequence. -/
theorem resolveCategory_order {categories : HashMap String DefaultCategoryEntry}
    {order order' : List (String × DefaultCategoryEntry)}
    (h : HashMap.IterOrder order categories) (h' : HashMap.IterOrder order' categories)
    (hone : Unambiguous categories) (path : String) (customCategories : CustomCategories) :
    resolveCategory path order customCategories =
      resolveCategory path order' customCategories := by
  have hlists := find_unique h h' (p := fun e => e.2.lists path)
    fun a b entry entry' ha hb hp hp' => hone path a b entry entry' ha hb (.inl ⟨hp, hp'⟩)
  rw [resolveCategory, resolveCategory]
  cases customCategories.lookup path with
  | some category => rfl
  | none =>
    cases hfind : order.find? fun e => e.2.lists path with
    | some e =>
      rw [hfind] at hlists
      obtain ⟨e', hfind', he'⟩ := Option.map_eq_some_iff.mp hlists.symm
      simp [hfind', he']
    | none =>
      rw [hfind] at hlists
      have hfind' := Option.map_eq_none_iff.mp hlists.symm
      have hnone : ∀ c listing, categories.lookup c = some listing →
          listing.lists path = false := by
        intro c listing hc
        have hmem := (h.mem_iff c listing).mpr hc
        simpa using List.find?_eq_none.mp hfind _ hmem
      simp only [hfind']
      exact find_unique h h' (p := fun e => e.2.covers path)
        fun a b entry entry' ha hb hp hp' =>
          hone path a b entry entry' ha hb (.inr ⟨hnone, hp, hp'⟩)

end SignalK.UnitPreferences
