import SignalK.Lib.Files
import SignalK.Lib.Paths
import SignalK.UnitPreferences.Types

/-! The manager of unit preferences: what it loads from its two directories, and the calls that
change its memory and its files. -/
namespace SignalK.UnitPreferences

structure Dirs where
  staticDir : String
  dataDir : String

namespace Dirs

def standardDefinitions (d : Dirs) : String :=
  Paths.join d.staticDir "standard-units-definitions.json"

def customDefinitions (d : Dirs) : String :=
  Paths.join d.dataDir "custom-units-definitions.json"

def categories (d : Dirs) : String := Paths.join d.staticDir "categories.json"

def defaultCategories (d : Dirs) : String := Paths.join d.staticDir "default-categories.json"

def customCategories (d : Dirs) : String := Paths.join d.dataDir "custom-categories.json"

def config (d : Dirs) : String := Paths.join d.dataDir "config.json"

def staticConfig (d : Dirs) : String := Paths.join d.staticDir "config.json"

/-- Where a custom preset is looked for and deleted. -/
def customPreset (d : Dirs) (name : String) : String :=
  Paths.join d.dataDir ("presets/" ++ name ++ ".json")

def staticPreset (d : Dirs) (name : String) : String :=
  Paths.join d.staticDir ("presets/" ++ name ++ ".json")

/-- Where a custom preset is saved. -/
def savedPreset (d : Dirs) (name : String) : String :=
  Paths.join (Paths.join d.dataDir "presets") (name ++ ".json")

end Dirs

structure Inner where
  definitions : UnitDefinitions
  categories : CategoriesFile
  defaultCategories : DefaultCategoriesFile
  customCategories : CustomCategories
  config : UnitPrefsConfig
  activePreset : Preset
  deriving DecidableEq

/-- One custom definition over the standard ones. -/
def mergeDefinition (defs : UnitDefinitions) (baseUnit : String) (custom : UnitDefinition) :
    UnitDefinition :=
  match defs.lookup baseUnit with
  | some entry => { entry with conversions := custom.conversions ∪ entry.conversions }
  | none => ⟨custom.longName, custom.conversions⟩

/-- The loop over the custom definitions, whose base units are all different. -/
def mergeDefinitions (defs custom : UnitDefinitions) : UnitDefinitions :=
  HashMap.mapValues custom (mergeDefinition defs) ∪ defs

section
variable {ι τ : Type} [DecidableEq ι] [Filesystem ι] [UnitText τ]

/-! The loader. -/

def loadJson {α : Type} (parse : τ → Except String α) (fs : Files ι τ) (path : String) :
    Except String α :=
  match Files.read fs path with
  | none => .error ("Failed to read " ++ path ++ ": " ++ Filesystem.notFound ι path)
  | some text =>
    match parse text with
    | .ok a => .ok a
    | .error e => .error ("Failed to parse " ++ path ++ ": " ++ e)

def loadDefinitions (d : Dirs) (fs : Files ι τ) : Except String UnitDefinitions := do
  let defs ← loadJson UnitText.parseDefinitions fs d.standardDefinitions
  if Files.present fs d.customDefinitions then do
    let custom ← loadJson UnitText.parseDefinitions fs d.customDefinitions
    .ok (mergeDefinitions defs custom)
  else .ok defs

def loadCategories (d : Dirs) (fs : Files ι τ) : Except String CategoriesFile :=
  loadJson UnitText.parseCategories fs d.categories

def loadDefaultCategories (d : Dirs) (fs : Files ι τ) : Except String DefaultCategoriesFile :=
  loadJson UnitText.parseDefaultCategories fs d.defaultCategories

def loadCustomCategories (d : Dirs) (fs : Files ι τ) : CustomCategories :=
  match loadJson UnitText.parseCustomCategories fs d.customCategories with
  | .ok cats => cats
  | .error _ => ∅

def loadConfig (d : Dirs) (fs : Files ι τ) : UnitPrefsConfig :=
  match loadJson UnitText.parseConfig fs d.config with
  | .ok config => config
  | .error _ =>
    match loadJson UnitText.parseConfig fs d.staticConfig with
    | .ok config => config
    | .error _ => ⟨"nautical-metric"⟩

def loadPreset (d : Dirs) (fs : Files ι τ) (name : String) : Except String Preset :=
  if Files.present fs (d.customPreset name) then
    loadJson UnitText.parsePreset fs (d.customPreset name)
  else loadJson UnitText.parsePreset fs (d.staticPreset name)

/-- What a new manager holds. -/
def load (d : Dirs) (fs : Files ι τ) : Except String Inner := do
  let definitions ← loadDefinitions d fs
  let categories ← loadCategories d fs
  let defaultCategories ← loadDefaultCategories d fs
  let activePreset ← loadPreset d fs (loadConfig d fs).activePreset
  .ok ⟨definitions, categories, defaultCategories, loadCustomCategories d fs, loadConfig d fs,
    activePreset⟩

/-! The calls. -/

structure Manager (ι τ : Type) where
  files : Files ι τ
  inner : Inner

inductive Call where
  | setActivePreset (name : String)
  | saveCustomPreset (name : String) (preset : Preset)
  | deleteCustomPreset (name : String)
  | saveCustomDefinitions (defs : UnitDefinitions)
  | saveCustomCategories (cats : CustomCategories)

def setActivePreset (d : Dirs) (m : Manager ι τ) (name : String) (fate : Fate τ) :
    Manager ι τ × Except String Unit :=
  match loadPreset d m.files name with
  | .error e => (m, .error e)
  | .ok preset =>
    let inner := { m.inner with config := ⟨name⟩, activePreset := preset }
    let written := Files.write m.files d.config (UnitText.configText inner.config) fate
    (⟨written.1, inner⟩, written.2.mapError fun e => "Failed to write config: " ++ e)

def saveCustomPreset (d : Dirs) (m : Manager ι τ) (name : String) (preset : Preset)
    (fate : Fate τ) : Manager ι τ × Except String Unit :=
  let written := Files.write m.files (d.savedPreset name) (UnitText.presetText preset) fate
  match written.2 with
  | .error e => (⟨written.1, m.inner⟩, .error ("Failed to write preset: " ++ e))
  | .ok () =>
    if m.inner.config.activePreset = name then
      (⟨written.1, { m.inner with activePreset := preset }⟩, .ok ())
    else (⟨written.1, m.inner⟩, .ok ())

def deleteCustomPreset (d : Dirs) (m : Manager ι τ) (name : String) (fate : Fate τ) :
    Manager ι τ × Except String Unit :=
  if Files.present m.files (d.customPreset name) then
    let removed := Files.remove m.files (d.customPreset name) fate
    (⟨removed.1, m.inner⟩, removed.2.mapError fun e => "Failed to delete preset: " ++ e)
  else (m, .error ("Custom preset '" ++ name ++ "' not found"))

def saveCustomDefinitions (d : Dirs) (m : Manager ι τ) (defs : UnitDefinitions)
    (fate : Fate τ) : Manager ι τ × Except String Unit :=
  let written := Files.write m.files d.customDefinitions (UnitText.definitionsText defs) fate
  match written.2 with
  | .error e => (⟨written.1, m.inner⟩, .error ("Failed to write definitions: " ++ e))
  | .ok () =>
    match loadDefinitions d written.1 with
    | .error e => (⟨written.1, m.inner⟩, .error e)
    | .ok definitions => (⟨written.1, { m.inner with definitions := definitions }⟩, .ok ())

def saveCustomCategories (d : Dirs) (m : Manager ι τ) (cats : CustomCategories)
    (fate : Fate τ) : Manager ι τ × Except String Unit :=
  let written := Files.write m.files d.customCategories (UnitText.customCategoriesText cats) fate
  match written.2 with
  | .error e => (⟨written.1, m.inner⟩, .error ("Failed to write categories: " ++ e))
  | .ok () => (⟨written.1, { m.inner with customCategories := cats }⟩, .ok ())

/-- A call, with what becomes of the file that it changes. -/
def Manager.call (d : Dirs) (m : Manager ι τ) (c : Call) (fate : Fate τ) :
    Manager ι τ × Except String Unit :=
  match c with
  | .setActivePreset name => setActivePreset d m name fate
  | .saveCustomPreset name preset => saveCustomPreset d m name preset fate
  | .deleteCustomPreset name => deleteCustomPreset d m name fate
  | .saveCustomDefinitions defs => saveCustomDefinitions d m defs fate
  | .saveCustomCategories cats => saveCustomCategories d m cats fate

end
end SignalK.UnitPreferences
