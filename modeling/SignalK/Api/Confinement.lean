import SignalK.Resources.FileProvider
import SignalK.UnitPreferences.Presets
import SignalK.UnitPreferences.Restart

/-! Names that clients put into URLs, and the files that the server touches for them. -/
namespace SignalK.Api
open Resources (FileName PathText)

/-- Where a server keeps its files. -/
structure Server where
  cwd : List String
  dataDir : String
  units : UnitPreferences.Dirs
  /-- the next fresh UUID -/
  uuid : String
  /-- what the directory of a resource type holds -/
  names : List FileName

/-- Requests with names from the URL, percent-decoded. -/
inductive Request where
  | getAppData (scope appId version : String)
  | setAppData (scope appId version : String) (body : Json)
  | getAppDataKey (scope appId version key : String)
  | setAppDataKey (scope appId version key : String) (body : Json)
  | getPreset (name : String)
  | savePreset (name : String) (preset : UnitPreferences.Preset)
  | deletePreset (name : String)
  | listResources (resourceType : String) (limit : Nat)
  | getResource (resourceType id : String)
  | createResource (resourceType : String) (value : Json)
  | updateResource (resourceType id : String) (value : Json)
  | deleteResource (resourceType id : String)

/-- The resource type that the handlers let through. -/
def validateResourceName (typeName : String) : Bool :=
  decide ¬(typeName = "" ∨ traverses typeName ∨ '\\' ∈ typeName.toList)

namespace Server
variable (s : Server)

/-- A path leads into a directory. -/
def Inside (home p : String) : Prop :=
  Paths.resolve s.cwd home <+: Paths.resolve s.cwd p

def InAppData (p : String) : Prop := s.Inside (Paths.join s.dataDir "applicationData") p

/-- In one of the two directories of presets. -/
def InPresets (p : String) : Prop :=
  s.Inside (Paths.join s.units.dataDir "presets") p ∨
    s.Inside (Paths.join s.units.staticDir "presets") p

def resources : String := Paths.join s.dataDir "resources"

def InResources (p : String) : Prop := s.Inside s.resources p

end Server

section
variable (β γ : Type) [JsonFile β] [PathText] [UnitPreferences.UnitText (List γ)]

/-- Every file that the server looks for, reads, writes or deletes for the request lies inside
the directory for it. -/
def Confined (s : Server) : Request → Prop
  | .getAppData scope appId version =>
    (getAppData (β := β) s.dataDir scope appId version).Within s.InAppData
  | .setAppData scope appId version body =>
    (setAppData (β := β) s.dataDir scope appId version body).Within s.InAppData
  | .getAppDataKey scope appId version key =>
    (getAppDataKey (β := β) s.dataDir scope appId version key).Within s.InAppData
  | .setAppDataKey scope appId version key body =>
    (setAppDataKey (β := β) s.dataDir scope appId version key body).Within s.InAppData
  | .getPreset name => (UnitPreferences.getPreset (β := γ) s.units name).Within s.InPresets
  | .savePreset name preset =>
    (UnitPreferences.savePreset (β := γ) s.units name preset).Within s.InPresets
  | .deletePreset name => (UnitPreferences.deletePreset (β := γ) s.units name).Within s.InPresets
  | .listResources resourceType limit =>
    validateResourceName resourceType = true →
      (Resources.list (β := β) s.resources resourceType s.names limit).Within s.InResources
  | .getResource resourceType id =>
    validateResourceName resourceType = true →
      (Resources.get (β := β) s.resources resourceType id).Within s.InResources
  | .createResource resourceType value =>
    validateResourceName resourceType = true →
      (Resources.create (β := β) s.resources resourceType s.uuid value).Within s.InResources
  | .updateResource resourceType id value =>
    validateResourceName resourceType = true →
      (Resources.update (β := β) s.resources resourceType id value).Within s.InResources
  | .deleteResource resourceType id =>
    validateResourceName resourceType = true →
      (Resources.delete (β := β) s.resources resourceType id).Within s.InResources

end

/-- A document's names lead to a place below the directory, dots and all. -/
def DocumentStays (appId version : String) : Prop :=
  Paths.isAbsolute appId = false ∧ Paths.isAbsolute version = false ∧
    Paths.Stays ["applicationData"] ["applicationData", "global"]
      (Paths.segments appId ++ Paths.segments (version ++ ".json"))

def PresetStays (name : String) : Prop :=
  Paths.Stays ["presets"] ["presets"] (Paths.segments (name ++ ".json"))

/-- The names of a request do not lead out of its directory. Writes of application data and all
requests for resources are checked. -/
def Request.Stays : Request → Prop
  | .getAppData scope appId version => invalidScope scope = none → DocumentStays appId version
  | .getAppDataKey scope appId version _ => invalidScope scope = none → DocumentStays appId version
  | .getPreset name => PresetStays name
  | .deletePreset name => PresetStays name
  | .savePreset name _ => Paths.isAbsolute name = false ∧ PresetStays name
  | _ => True

/-! Names with an extension. -/

theorem isAbsolute_json (name : String) :
    Paths.isAbsolute (name ++ ".json") = Paths.isAbsolute name := by
  by_cases h : name = ""
  · rw [h]
    rfl
  · exact Paths.isAbsolute_append h ".json"

theorem plain_of_not_traverses {name : String} (h : ¬traverses name) : Paths.Plain name := by
  obtain ⟨hslash, hdots⟩ := not_or.mp h
  refine ⟨hslash, ?_⟩
  rintro rfl
  exact hdots List.infix_rfl

/-- A text that ends in another that is plain enough. -/
theorem plain_append {name ext : String} (h : '/' ∉ name.toList) (hext : '/' ∉ ext.toList)
    (hlen : 2 < ext.length) : Paths.Plain (name ++ ext) := by
  refine ⟨by simp [h, hext], fun he => ?_⟩
  have hl := congrArg String.length he
  rw [String.length_append] at hl
  have htwo : "..".length = 2 := rfl
  omega

theorem plain_json {name : String} (h : ¬traverses name) : Paths.Plain (name ++ ".json") :=
  plain_append (not_or.mp h).1 (by decide) (by decide)

/-! Checked names. -/

namespace Server
variable (s : Server)

theorem inside_join {home base p : String} (h : s.Inside home base) (hp : Paths.Plain p) :
    s.Inside home (Paths.join base p) :=
  h.trans (hp.prefix_join s.cwd base)

theorem scope_plain {scope : String} (h : invalidScope scope = none) :
    Paths.Plain (if scope = "user" then "global" else scope) ∧
      (if scope = "user" then "global" else scope) = "global" := by
  rw [invalidScope] at h
  split_ifs at h with hno
  have hscope : (if scope = "user" then "global" else scope) = "global" := by
    by_cases huser : scope = "user"
    · rw [if_pos huser]
    · rw [if_neg huser]
      by_contra hglobal
      exact hno ⟨hglobal, huser⟩
  rw [hscope]
  exact ⟨⟨by decide, by decide⟩, rfl⟩

theorem document_inside {scope appId version : String} (hscope : invalidScope scope = none)
    (happ : ¬traverses appId) (hversion : ¬traverses version) :
    s.InAppData (appDataDir s.dataDir scope appId) ∧
      s.InAppData (appDataFile s.dataDir scope appId version) := by
  have hdir : s.InAppData (appDataDir s.dataDir scope appId) :=
    s.inside_join (s.inside_join List.prefix_rfl (scope_plain hscope).1)
      (plain_of_not_traverses happ)
  exact ⟨hdir, s.inside_join hdir (plain_json hversion)⟩

theorem type_inside {resourceType : String} (h : ¬traverses resourceType) :
    s.InResources (Resources.typeDir s.resources resourceType) :=
  s.inside_join List.prefix_rfl (plain_of_not_traverses h)

theorem resource_inside {resourceType id : String} (h : ¬traverses resourceType)
    (hid : ¬traverses id) : s.InResources (Resources.resourceFile s.resources resourceType id) :=
  s.inside_join (s.type_inside h) (plain_json hid)

theorem tmp_inside {resourceType id : String} (h : ¬traverses resourceType)
    (hid : ¬traverses id) : s.InResources (Resources.tmpFile s.resources resourceType id) := by
  refine s.inside_join (s.type_inside h) (plain_append ?_ (by decide) (by decide))
  split_ifs
  · decide
  · exact (not_or.mp hid).1

theorem name_inside {resourceType : String} (h : ¬traverses resourceType) (name : FileName) :
    s.InResources (Paths.join (Resources.typeDir s.resources resourceType) name.text) :=
  s.inside_join (s.type_inside h) ⟨name.plain.1, name.plain.2.2.2⟩

/-! Names that are not checked. -/

theorem home_eq : Paths.resolve s.cwd (Paths.join s.dataDir "applicationData") =
    Paths.resolve s.cwd s.dataDir ++ ["applicationData"] :=
  Paths.resolve_entry (by decide) (by decide) s.cwd s.dataDir

theorem appDataFile_eq {scope : String} (hscope : invalidScope scope = none) (appId version : String) :
    Paths.resolve s.cwd (appDataFile s.dataDir scope appId version) =
      Paths.walk
        (if Paths.isAbsolute version then []
         else Paths.walk
          (if Paths.isAbsolute appId then []
           else Paths.resolve s.cwd s.dataDir ++ ["applicationData", "global"])
          (Paths.segments appId))
        (Paths.segments (version ++ ".json")) := by
  have hglobal : Paths.resolve s.cwd
      (Paths.join (Paths.join s.dataDir "applicationData") "global") =
        Paths.resolve s.cwd s.dataDir ++ ["applicationData", "global"] := by
    rw [Paths.resolve_entry (by decide) (by decide), s.home_eq, List.append_assoc]
    rfl
  rw [appDataFile, Paths.resolve_join, isAbsolute_json, appDataDir, (scope_plain hscope).2,
    Paths.resolve_join, hglobal]

theorem document_inside_of_stays {scope appId version : String}
    (hscope : invalidScope scope = none) (h : DocumentStays appId version) :
    s.InAppData (appDataFile s.dataDir scope appId version) := by
  obtain ⟨happ, hversion, hstays⟩ := h
  rw [InAppData, Inside, s.home_eq, s.appDataFile_eq hscope, happ, hversion,
    if_neg Bool.false_ne_true, if_neg Bool.false_ne_true, ← Paths.walk_append]
  exact Paths.prefix_of_stays hstays _

theorem preset_eq (base name : String) :
    Paths.resolve s.cwd (Paths.join base ("presets/" ++ name ++ ".json")) =
      Paths.walk (Paths.resolve s.cwd base ++ ["presets"]) (Paths.segments (name ++ ".json")) := by
  have hfile : "presets/" ++ name ++ ".json" = "presets" ++ "/" ++ (name ++ ".json") := by
    have hdir : "presets/" = "presets" ++ "/" := rfl
    rw [hdir, String.append_assoc]
  have hrel : ¬Paths.isAbsolute ("presets" ++ "/" ++ (name ++ ".json")) = true := by
    rw [String.append_assoc, Paths.isAbsolute_append (by decide)]
    decide
  have hseg : Paths.segments "presets" = ["presets"] := Paths.segments_plain (by decide)
  rw [hfile, Paths.resolve_join, if_neg hrel, Paths.segments_slash, hseg, List.singleton_append,
    Paths.walk_cons, Paths.enter_name (by decide)]

theorem presets_eq (base : String) : Paths.resolve s.cwd (Paths.join base "presets") =
    Paths.resolve s.cwd base ++ ["presets"] :=
  Paths.resolve_entry (by decide) (by decide) s.cwd base

theorem saved_eq (name : String) : Paths.resolve s.cwd (s.units.savedPreset name) =
    Paths.walk (if Paths.isAbsolute name then [] else
      Paths.resolve s.cwd s.units.dataDir ++ ["presets"]) (Paths.segments (name ++ ".json")) := by
  rw [UnitPreferences.Dirs.savedPreset, Paths.resolve_join, isAbsolute_json, s.presets_eq]

theorem custom_inside {name : String} (h : PresetStays name) :
    s.InPresets (s.units.customPreset name) := by
  refine .inl ?_
  rw [Inside, s.presets_eq, UnitPreferences.Dirs.customPreset, s.preset_eq]
  exact Paths.prefix_of_stays h _

theorem static_inside {name : String} (h : PresetStays name) :
    s.InPresets (s.units.staticPreset name) := by
  refine .inr ?_
  rw [Inside, s.presets_eq, UnitPreferences.Dirs.staticPreset, s.preset_eq]
  exact Paths.prefix_of_stays h _

theorem saved_inside {name : String} (hrel : Paths.isAbsolute name = false)
    (h : PresetStays name) : s.InPresets (s.units.savedPreset name) := by
  refine .inl ?_
  rw [Inside, s.presets_eq, s.saved_eq, hrel, if_neg Bool.false_ne_true]
  exact Paths.prefix_of_stays h _

end Server

/-! Directories at the root under a name that no request spells. -/

/-- All files of a server in one directory of the root. -/
def serverAt (name : String) : Server where
  cwd := []
  dataDir := "/" ++ name
  units := ⟨"/" ++ name, "/" ++ name⟩
  uuid := ""
  names := []

section
variable {home : String} (hname : home ≠ "" ∧ home ≠ "." ∧ home ≠ "..") (hslash : '/' ∉ home.toList)
include hname hslash

theorem serverAt_root : Paths.resolve [] ("/" ++ home) = [home] :=
  Paths.resolve_root hname hslash []

theorem serverAt_appData {p : String} :
    (serverAt home).InAppData p ↔ [home, "applicationData"] <+: Paths.resolve [] p := by
  have hroot := serverAt_root hname hslash
  rw [Server.InAppData, Server.Inside, Server.home_eq, serverAt, hroot]
  exact Iff.rfl

theorem serverAt_presets {p : String} :
    (serverAt home).InPresets p ↔ [home, "presets"] <+: Paths.resolve [] p := by
  have hroot := serverAt_root hname hslash
  rw [Server.InPresets, Server.Inside, Server.Inside, Server.presets_eq, Server.presets_eq,
    serverAt, hroot, or_self]
  exact Iff.rfl

end

theorem documentStays_of_inside {scope appId version : String} (hscope : invalidScope scope = none)
    (h : ∀ s : Server, s.InAppData (appDataFile s.dataDir scope appId version)) :
    DocumentStays appId version := by
  obtain ⟨home, hname, hslash, hfresh⟩ := Paths.exists_name (["applicationData", "global"] ++
    Paths.segments appId ++ Paths.segments (version ++ ".json"))
  simp only [List.mem_append, not_or] at hfresh
  obtain ⟨⟨hstart, happ⟩, hversion⟩ := hfresh
  have hp := (serverAt_appData hname hslash).mp (h (serverAt home))
  have hroot := serverAt_root hname hslash
  have hfile := (serverAt home).appDataFile_eq hscope appId version
  rw [serverAt, hroot] at hfile
  rw [serverAt, hfile] at hp
  have hmem := hp.subset List.mem_cons_self
  cases hv : Paths.isAbsolute version with
  | true =>
    rw [hv, if_pos rfl] at hmem
    exact absurd hmem (Paths.notMem_walk List.not_mem_nil hversion)
  | false =>
    rw [hv, if_neg Bool.false_ne_true] at hmem hp
    cases ha : Paths.isAbsolute appId with
    | true =>
      rw [ha, if_pos rfl] at hmem
      exact absurd hmem (Paths.notMem_walk (Paths.notMem_walk List.not_mem_nil happ) hversion)
    | false =>
      rw [ha, if_neg Bool.false_ne_true, ← Paths.walk_append] at hp
      have hss : home ∉ Paths.segments appId ++ Paths.segments (version ++ ".json") := by
        simp [happ, hversion]
      exact ⟨ha, hv, Paths.stays_of_prefix hstart hss hp⟩

theorem presetStays_of_inside {name : String}
    (h : ∀ s : Server, s.InPresets (s.units.customPreset name)) : PresetStays name := by
  obtain ⟨home, hname, hslash, hfresh⟩ := Paths.exists_name (["presets"] ++
    Paths.segments (name ++ ".json"))
  simp only [List.mem_append, not_or] at hfresh
  have hp := (serverAt_presets hname hslash).mp (h (serverAt home))
  have hroot := serverAt_root hname hslash
  have hfile := (serverAt home).preset_eq (serverAt home).units.dataDir name
  rw [serverAt, hroot] at hfile
  rw [serverAt, UnitPreferences.Dirs.customPreset, hfile] at hp
  exact Paths.stays_of_prefix hfresh.1 hfresh.2 hp

theorem savedStays_of_inside {name : String}
    (h : ∀ s : Server, s.InPresets (s.units.savedPreset name)) :
    Paths.isAbsolute name = false ∧ PresetStays name := by
  obtain ⟨home, hname, hslash, hfresh⟩ := Paths.exists_name (["presets"] ++
    Paths.segments (name ++ ".json"))
  simp only [List.mem_append, not_or] at hfresh
  have hp := (serverAt_presets hname hslash).mp (h (serverAt home))
  have hroot := serverAt_root hname hslash
  have hfile := (serverAt home).saved_eq name
  rw [serverAt, hroot] at hfile
  rw [serverAt, hfile] at hp
  cases habs : Paths.isAbsolute name with
  | true =>
    rw [habs, if_pos rfl] at hp
    exact absurd (hp.subset List.mem_cons_self)
      (Paths.notMem_walk List.not_mem_nil hfresh.2)
  | false =>
    rw [habs, if_neg Bool.false_ne_true] at hp
    exact ⟨rfl, Paths.stays_of_prefix hfresh.1 hfresh.2 hp⟩

/-- A request is confined, wherever the server keeps its files, exactly if its names do not lead
out of the directory. -/
theorem confined_iff (β γ : Type) [JsonFile β] [PathText] [UnitPreferences.UnitText (List γ)]
    (r : Request) : (∀ s, Confined β γ s r) ↔ r.Stays := by
  cases r with
  | getAppData scope appId version =>
    simp only [Confined, within_getAppData]
    exact ⟨fun h hscope => documentStays_of_inside hscope fun s => h s hscope,
      fun h s hscope => s.document_inside_of_stays hscope (h hscope)⟩
  | getAppDataKey scope appId version key =>
    simp only [Confined, within_getAppDataKey]
    exact ⟨fun h hscope => documentStays_of_inside hscope fun s => h s hscope,
      fun h s hscope => s.document_inside_of_stays hscope (h hscope)⟩
  | setAppData scope appId version body =>
    exact iff_of_true (fun s => within_setAppData body s.document_inside) trivial
  | setAppDataKey scope appId version key body =>
    exact iff_of_true (fun s => within_setAppDataKey key body s.document_inside) trivial
  | getPreset name =>
    simp only [Confined, UnitPreferences.within_getPreset]
    exact ⟨fun h => presetStays_of_inside fun s => (h s).1,
      fun h s => ⟨s.custom_inside h, s.static_inside h⟩⟩
  | deletePreset name =>
    simp only [Confined, UnitPreferences.within_deletePreset]
    exact ⟨presetStays_of_inside, fun h s => s.custom_inside h⟩
  | savePreset name preset =>
    simp only [Confined, UnitPreferences.within_savePreset]
    exact ⟨fun h => savedStays_of_inside fun s => (h s).2,
      fun h s => ⟨.inl List.prefix_rfl, s.saved_inside h.1 h.2⟩⟩
  | listResources resourceType limit =>
    exact iff_of_true (fun s _ => Resources.within_list s.names limit fun htype =>
      ⟨s.type_inside htype, fun name _ => s.name_inside htype name⟩) trivial
  | getResource resourceType id =>
    exact iff_of_true (fun s _ => Resources.within_get s.resource_inside) trivial
  | createResource resourceType value =>
    exact iff_of_true (fun s _ => Resources.within_create value fun htype hid =>
      ⟨s.type_inside htype, s.tmp_inside htype hid, s.resource_inside htype hid⟩) trivial
  | updateResource resourceType id value =>
    exact iff_of_true (fun s _ => Resources.within_update value fun htype hid =>
      ⟨s.tmp_inside htype hid, s.resource_inside htype hid⟩) trivial
  | deleteResource resourceType id =>
    exact iff_of_true (fun s _ => Resources.within_delete s.resource_inside) trivial

section
attribute [local instance] JsonFile.whole UnitPreferences.Document.texts PathText.plain

/-- An absolute name reads `/etc/passwd.json`, and dots in the name of a preset lead to other files
that are written and deleted. -/
theorem requests_escape :
    ¬ Confined Json UnitPreferences.Document (serverAt "data")
      (.getAppData "global" "/etc" "passwd") ∧
    ¬ Confined Json UnitPreferences.Document (serverAt "data")
      (.savePreset "../config" (UnitPreferences.presetOf "Mine" "kn")) ∧
    ¬ Confined Json UnitPreferences.Document (serverAt "data")
      (.deletePreset "../../resources/routes/home") := by
  have hname : "data" ≠ "" ∧ "data" ≠ "." ∧ "data" ≠ ".." := by decide
  have hslash : '/' ∉ "data".toList := by decide
  simp only [Confined, within_getAppData, UnitPreferences.within_savePreset,
    UnitPreferences.within_deletePreset, serverAt_appData hname hslash,
    serverAt_presets hname hslash]
  exact ⟨fun h => absurd (h (by decide)) (by decide),
    fun h => absurd h.2 (by decide), fun h => absurd h (by decide +kernel)⟩

end
end SignalK.Api
