import SignalK.Lib.FileProgram
import SignalK.UnitPreferences.Restart

/-! The calls of the manager that take the name of a preset, as programs over files. -/
namespace SignalK.UnitPreferences

section
variable {β : Type} [UnitText (List β)] (d : Dirs) (name : String)

/-- What `load_json` makes of what it finds. -/
def parsePresetFile (path : String) : Except IoError (List β) → Except String Preset
  | .ok text =>
    match UnitText.parsePreset text with
    | .ok preset => .ok preset
    | .error e => .error ("Failed to parse " ++ path ++ ": " ++ e)
  | .error e => .error ("Failed to read " ++ path ++ ": " ++ e.text)

def readPreset (path : String) : FileProgram β (Except String Preset) :=
  .read path fun found => .done (parsePresetFile path found)

def getPreset : FileProgram β (Except String Preset) :=
  .present (d.customPreset name) fun there =>
    if there then readPreset (d.customPreset name) else readPreset (d.staticPreset name)

/-- Whether the directory could be made is not looked at. -/
def savePreset (preset : Preset) : FileProgram β (Except String Unit) :=
  .createDirs (Paths.join d.dataDir "presets") fun _ =>
    .write (d.savedPreset name) (UnitText.presetText preset) fun
      | .ok () => .done (.ok ())
      | .error e => .done (.error ("Failed to write preset: " ++ e.text))

def deletePreset : FileProgram β (Except String Unit) :=
  .present (d.customPreset name) fun there =>
    if there then .remove (d.customPreset name) fun
      | .ok () => .done (.ok ())
      | .error e => .done (.error ("Failed to delete preset: " ++ e.text))
    else .done (.error ("Custom preset '" ++ name ++ "' not found"))

end

/-! The files that they touch. -/

section
variable {β : Type} [UnitText (List β)] {P : String → Prop}

theorem within_getPreset (d : Dirs) (name : String) :
    (getPreset (β := β) d name).Within P ↔
      P (d.customPreset name) ∧ P (d.staticPreset name) := by
  constructor
  · rintro ⟨hcustom, h⟩
    exact ⟨hcustom, (h false).1⟩
  · rintro ⟨hcustom, hstatic⟩
    refine ⟨hcustom, fun there => ?_⟩
    cases there with
    | true => exact ⟨hcustom, fun _ => trivial⟩
    | false => exact ⟨hstatic, fun _ => trivial⟩

theorem within_savePreset (d : Dirs) (name : String)
    (preset : Preset) :
    (savePreset (β := β) d name preset).Within P ↔
      P (Paths.join d.dataDir "presets") ∧ P (d.savedPreset name) := by
  constructor
  · rintro ⟨hdir, h⟩
    exact ⟨hdir, (h (.ok ())).1⟩
  · rintro ⟨hdir, hfile⟩
    refine ⟨hdir, fun _ => FileProgram.within_write.mpr ⟨hfile, fun answer => ?_⟩⟩
    cases answer <;> trivial

omit [UnitText (List β)] in
theorem within_deletePreset (d : Dirs) (name : String) :
    (deletePreset (β := β) d name).Within P ↔ P (d.customPreset name) := by
  refine ⟨fun h => h.1, fun h => ⟨h, fun there => ?_⟩⟩
  cases there with
  | false => trivial
  | true =>
    refine ⟨h, fun answer => ?_⟩
    cases answer <;> trivial

end

/-! Run on their own, the programs do what the manager's calls do. -/

section
variable {ι β : Type} [DecidableEq ι] [Filesystem ι] [UnitText (List β)] {locate : String → ι}
  {v : Volume ι β}

/-- Names lead to the same texts, and all paths lead somewhere. -/
structure Agree (locate : String → ι) (v : Volume ι β) (fs : Files ι (List β)) : Prop where
  lookup : ∀ l, v.read l = fs.lookup l
  located : ∀ p, Filesystem.locate p = some (locate p)
  missing : ∀ p, Filesystem.notFound ι p = IoError.notFound.text

omit [UnitText (List β)] in
theorem Agree.read {fs : Files ι (List β)} (h : Agree locate v fs) (p : String) :
    v.read (locate p) = Files.read fs p := by
  rw [h.lookup, Files.read, h.located, Option.bind_some]

theorem getPreset_alone {fs : Files ι (List β)} (h : Agree locate v fs) (d : Dirs)
    (name : String) : (getPreset d name).alone locate v = (v, loadPreset d fs name) := by
  have hread : ∀ p, (readPreset p).alone locate v = (v, loadJson UnitText.parsePreset fs p) := by
    intro p
    rw [readPreset, FileProgram.alone, loadJson, h.read, h.missing]
    cases Files.read fs p with
    | none => rfl
    | some text =>
      dsimp only
      rw [FileProgram.alone, parsePresetFile]
      cases UnitText.parsePreset text with
      | ok preset => rfl
      | error e => rfl
  rw [getPreset, FileProgram.alone, loadPreset, Files.present, h.read]
  split_ifs
  · exact hread _
  · exact hread _

theorem savePreset_alone {m : Manager ι (List β)} (h : Agree locate v m.files) (d : Dirs)
    (name : String) (preset : Preset) :
    let r := (savePreset d name preset).alone locate v
    let m' := saveCustomPreset d m name preset .done
    Agree locate r.1 m'.1.files ∧ r.2 = m'.2 := by
  let next : Except IoError Unit → FileProgram β (Except String Unit)
    | .ok () => .done (.ok ())
    | .error e => .done (.error ("Failed to write preset: " ++ e.text))
  obtain ⟨v', halone, hread⟩ := FileProgram.alone_write locate (d.savedPreset name)
    (UnitText.presetText preset) next v
  have hagree : Agree locate v' (m.files.insert (locate (d.savedPreset name))
      (UnitText.presetText preset)) := by
    refine ⟨fun l => ?_, h.located, h.missing⟩
    rw [hread, HashMap.lookup_insert, h.lookup l]
  have hprogram : (savePreset d name preset).alone locate v = (v', .ok ()) := halone
  dsimp only
  rw [hprogram, saveCustomPreset, Files.write, h.located]
  dsimp only
  split_ifs
  · exact ⟨hagree, rfl⟩
  · exact ⟨hagree, rfl⟩

omit [UnitText (List β)] in
theorem deletePreset_alone {m : Manager ι (List β)} (h : Agree locate v m.files) (d : Dirs)
    (name : String) :
    let r := (deletePreset d name).alone locate v
    let m' := deleteCustomPreset d m name .done
    Agree locate r.1 m'.1.files ∧ r.2 = m'.2 := by
  dsimp only
  rw [deletePreset, FileProgram.alone, deleteCustomPreset, Files.present, h.read]
  cases hthere : Files.read m.files (d.customPreset name) with
  | none => exact ⟨h, rfl⟩
  | some text =>
    have hv := (h.read (d.customPreset name)).trans hthere
    simp only [Option.isSome_some, if_true, FileProgram.alone, hv, Files.remove, h.located]
    refine ⟨⟨fun l => ?_, h.located, h.missing⟩, rfl⟩
    rw [Volume.read_remove, HashMap.lookup_erase, h.lookup l]

end

/-- Files of one symbol, a document. -/
@[reducible] def Document.texts : UnitText (List Document) where
  presetText p := [.preset p]
  parsePreset
    | [.preset p] => .ok p
    | _ => .error "missing field"
  parsePreset_text _ := rfl
  configText c := [.config c]
  parseConfig
    | [.config c] => .ok c
    | _ => .error "missing field"
  parseConfig_text _ := rfl
  definitionsText defs := [.definitions defs]
  parseDefinitions
    | [.definitions defs] => .ok defs
    | _ => .error "missing field"
  parseDefinitions_text _ := rfl
  customCategoriesText cats := [.customCategories cats]
  parseCustomCategories
    | [.customCategories cats] => .ok cats
    | _ => .error "invalid type"
  parseCustomCategories_text _ := rfl
  parseCategories
    | [.categories cats] => .ok cats
    | _ => .error "missing field"
  parseDefaultCategories
    | [.defaultCategories cats] => .ok cats
    | _ => .error "missing field"

end SignalK.UnitPreferences
