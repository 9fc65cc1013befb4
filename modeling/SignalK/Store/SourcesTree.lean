import SignalK.Lib.Machine
import SignalK.Lib.Merge
import SignalK.Lib.Walk
import SignalK.Store.FullModel

/-! The sources tree that the registry is turned into. A bare label is written over
whatever the tree has under it, a dotted reference goes into whatever object is
there, so a label that is registered both ways depends on the order of the map. -/
namespace SignalK

/-- The JSON of a source, its further fields in the order of their map. -/
def Source.toValue (source : Source) (extra : List (String × Json)) : Json :=
  Json.ofFields (("label", .string source.label) :: ("type", .string source.type) :: extra)

/-- The orders in which the registry and the fields of its sources are iterated. -/
structure SourcesOrder (sources : HashMap SourceRef Source) where
  entries : List (SourceRef × Source)
  extra : Source → List (String × Json)
  entries_order : HashMap.IterOrder entries sources
  extra_order : ∀ e ∈ entries, HashMap.IterOrder (extra e.2) e.2.extra

namespace SourcesOrder
variable {sources : HashMap SourceRef Source}

def values (order : SourcesOrder sources) : List (SourceRef × Json) :=
  order.entries.map fun e => (e.1, e.2.toValue (order.extra e.2))

/-- `build_sources_hierarchy` of a registry. -/
def tree (order : SourcesOrder sources) : Json :=
  buildSourcesHierarchy order.values

end SourcesOrder

/-- A reference at its first dot. -/
def splitRef (ref : SourceRef) : String × Option String :=
  match Text.split '.' ref with
  | label :: part :: parts => (label, some (Text.join '.' (part :: parts)))
  | _ => (ref, none)

/-- Where the tree has a reference: under its label, and there under its suffix. -/
def refPath (ref : SourceRef) : List String :=
  (splitRef ref).1 :: (splitRef ref).2.toList

/-- What an entry makes of what the tree has under its label. -/
def place (cur : Option Json) (suffix : Option String) (source : Json) : Option Json :=
  match suffix with
  | none => some source
  | some suffix =>
    match cur with
    | none => some (.object (SortedMap.insert suffix source []))
    | some (.object labelMap) => some (.object (SortedMap.insert suffix source labelMap))
    | some _ => none

theorem addSource_eq (root : List (String × Json)) (ref : SourceRef) (source : Json) :
    addSource root ref source =
      match place (SortedMap.get (splitRef ref).1 root) (splitRef ref).2 source with
      | none => root
      | some value => SortedMap.insert (splitRef ref).1 value root := by
  unfold addSource splitRef
  rcases Text.split '.' ref with _ | ⟨label, _ | ⟨part, parts⟩⟩
  · rfl
  · rfl
  · dsimp only
    cases SortedMap.get label root with
    | none => rfl
    | some value => cases value <;> rfl

/-- A reference is its label and its suffix. -/
theorem splitRef_injective {a b : SourceRef} (h : splitRef a = splitRef b) : a = b := by
  have hjoin : ∀ ref, ref = (splitRef ref).1 ++
      ((splitRef ref).2.map fun suffix => String.singleton '.' ++ suffix).getD "" := by
    intro ref
    have hs := Text.join_split '.' ref
    unfold splitRef
    rcases hsplit : Text.split '.' ref with _ | ⟨label, _ | ⟨part, parts⟩⟩
    · simp
    · simp
    · rw [hsplit] at hs
      simp only [Option.map_some, Option.getD_some]
      rw [← hs]
      simp [Text.join, List.intercalate, String.ofList_append]
  rw [hjoin a, hjoin b, h]

/-- A JSON object as serde_json builds it. -/
def IsRecord (value : Json) : Prop := ∃ fields, value = .object fields ∧ SortedMap.Sorted fields

/-- The bare source has the dotted one among its own fields. -/
def Holds (bare dotted : SourceRef × Json) : Prop :=
  ∀ suffix, (splitRef bare.1).2 = none → splitRef dotted.1 = ((splitRef bare.1).1, some suffix) →
    bare.2.get suffix = some dotted.2

theorem addSource_bare {ref : SourceRef} {label : String} (h : splitRef ref = (label, none))
    (root : List (String × Json)) (source : Json) :
    addSource root ref source = SortedMap.insert label source root := by
  rw [addSource_eq, h]
  rfl

theorem addSource_dotted {ref : SourceRef} {label suffix : String}
    (h : splitRef ref = (label, some suffix)) (root : List (String × Json)) (source : Json) :
    addSource root ref source =
      match SortedMap.get label root with
      | none => SortedMap.insert label (.object (SortedMap.insert suffix source [])) root
      | some (.object labelMap) =>
        SortedMap.insert label (.object (SortedMap.insert suffix source labelMap)) root
      | some _ => root := by
  rw [addSource_eq, h]
  cases SortedMap.get label root with
  | none => rfl
  | some value => cases value <;> rfl

theorem get_addSource_ne {label : String} {ref : SourceRef} (h : label ≠ (splitRef ref).1)
    (root : List (String × Json)) (source : Json) :
    SortedMap.get label (addSource root ref source) = SortedMap.get label root := by
  rw [addSource_eq]
  split
  · rfl
  · exact SortedMap.get_insert_ne h _ root

/-- A bare source takes the place of what is under its label, before or after. -/
theorem addSource_bare_dotted {bare dotted : SourceRef × Json} {label suffix : String}
    (hb : splitRef bare.1 = (label, none)) (hd : splitRef dotted.1 = (label, some suffix))
    (hrec : IsRecord bare.2) (hholds : Holds bare dotted) (root : List (String × Json)) :
    addSource (addSource root bare.1 bare.2) dotted.1 dotted.2 =
      addSource (addSource root dotted.1 dotted.2) bare.1 bare.2 := by
  obtain ⟨fields, hfields, hsorted⟩ := hrec
  have hget : SortedMap.get suffix fields = some dotted.2 := by
    have h := hholds suffix (by rw [hb]) (by rw [hd, hb])
    rwa [hfields] at h
  rw [addSource_bare hb, addSource_dotted hd, SortedMap.get_insert_self, hfields]
  simp only [SortedMap.insert_of_get hsorted hget, SortedMap.insert_insert]
  rw [addSource_bare hb, addSource_dotted hd]
  split
  · rw [SortedMap.insert_insert]
  · rw [SortedMap.insert_insert]
  · rfl

theorem addSource_dotted_dotted {e f : SourceRef × Json} {label x y : String}
    (he : splitRef e.1 = (label, some x)) (hf : splitRef f.1 = (label, some y)) (hne : x ≠ y)
    (root : List (String × Json)) :
    addSource (addSource root e.1 e.2) f.1 f.2 = addSource (addSource root f.1 f.2) e.1 e.2 := by
  simp only [addSource_dotted he, addSource_dotted hf]
  cases hcur : SortedMap.get label root with
  | none =>
    simp only [SortedMap.get_insert_self, SortedMap.insert_insert]
    rw [SortedMap.insert_comm hne.symm]
  | some value =>
    cases value with
    | object labelMap =>
      simp only [SortedMap.get_insert_self, SortedMap.insert_insert]
      rw [SortedMap.insert_comm hne.symm]
    | _ => simp [hcur]

/-- Two entries may be added in either order, unless one is a bare label that the
other one has dotted. -/
theorem addSource_comm {e f : SourceRef × Json} (hne : e.1 ≠ f.1) (he : IsRecord e.2)
    (hf : IsRecord f.2) (hef : Holds e f) (hfe : Holds f e) (root : List (String × Json)) :
    addSource (addSource root e.1 e.2) f.1 f.2 = addSource (addSource root f.1 f.2) e.1 e.2 := by
  by_cases hlabel : (splitRef e.1).1 = (splitRef f.1).1
  · cases hes : (splitRef e.1).2 with
    | none =>
      have hepair : splitRef e.1 = ((splitRef f.1).1, none) := Prod.ext hlabel hes
      cases hfs : (splitRef f.1).2 with
      | none =>
        have hfpair : splitRef f.1 = ((splitRef f.1).1, none) := Prod.ext rfl hfs
        exact absurd (splitRef_injective (hepair.trans hfpair.symm)) hne
      | some y => exact addSource_bare_dotted hepair (Prod.ext rfl hfs) he hef root
    | some x =>
      have hepair : splitRef e.1 = ((splitRef f.1).1, some x) := Prod.ext hlabel hes
      cases hfs : (splitRef f.1).2 with
      | none => exact (addSource_bare_dotted (Prod.ext rfl hfs) hepair hf hfe root).symm
      | some y =>
        have hfpair : splitRef f.1 = ((splitRef f.1).1, some y) := Prod.ext rfl hfs
        have hxy : x ≠ y := by
          rintro rfl
          exact hne (splitRef_injective (hepair.trans hfpair.symm))
        exact addSource_dotted_dotted hepair hfpair hxy root
  · rw [addSource_eq (addSource root e.1 e.2), addSource_eq (addSource root f.1 f.2),
      get_addSource_ne (Ne.symm hlabel), get_addSource_ne hlabel, addSource_eq root e.1,
      addSource_eq root f.1]
    cases place (SortedMap.get (splitRef e.1).1 root) (splitRef e.1).2 e.2 with
    | none => rfl
    | some v =>
      cases place (SortedMap.get (splitRef f.1).1 root) (splitRef f.1).2 f.2 with
      | none => rfl
      | some w => exact SortedMap.insert_comm (Ne.symm hlabel) w v root

theorem buildSourcesHierarchy_perm {l l' : List (SourceRef × Json)} (hp : l.Perm l')
    (hn : (l.map Prod.fst).Nodup) (hrec : ∀ e ∈ l, IsRecord e.2)
    (hholds : ∀ e ∈ l, ∀ f ∈ l, Holds e f) :
    buildSourcesHierarchy l = buildSourcesHierarchy l' := by
  refine congrArg Json.object (hp.foldl_eq' (fun e he f hf root => ?_) [])
  by_cases hk : e.1 = f.1
  · rw [List.inj_on_of_nodup_map hn he hf hk]
  · exact addSource_comm hk (hrec e he) (hrec f hf) (hholds e he f hf) (hholds f hf e he) root

/-- Everything in a tree of sources is an object. -/
def Objects (root : List (String × Json)) : Prop :=
  ∀ label value, SortedMap.get label root = some value → ∃ fields, value = .object fields

theorem objects_addSource {root : List (String × Json)} (h : Objects root) (ref : SourceRef)
    {source : Json} (hs : IsRecord source) : Objects (addSource root ref source) := by
  have hinsert : ∀ label fields, Objects (SortedMap.insert label (.object fields) root) := by
    intro label fields k value hget
    rw [SortedMap.get_insert] at hget
    split_ifs at hget
    · exact ⟨fields, (Option.some.inj hget).symm⟩
    · exact h k value hget
  obtain ⟨fields, rfl, -⟩ := hs
  cases hsuffix : (splitRef ref).2 with
  | none =>
    rw [addSource_bare (Prod.ext rfl hsuffix)]
    exact hinsert _ _
  | some suffix =>
    rw [addSource_dotted (Prod.ext rfl hsuffix)]
    split
    · exact hinsert _ _
    · exact hinsert _ _
    · exact h

theorem objects_foldl {root : List (String × Json)} (h : Objects root)
    {l : List (SourceRef × Json)} (hrec : ∀ e ∈ l, IsRecord e.2) :
    Objects (l.foldl (fun root e => addSource root e.1 e.2) root) := by
  induction l generalizing root with
  | nil => exact h
  | cons e l ih =>
    exact ih (objects_addSource h e.1 (hrec e List.mem_cons_self))
      fun f hf => hrec f (List.mem_cons_of_mem e hf)

theorem traverseJson_single (value : Json) (key : String) :
    traverseJson value [key] = value.get key := by
  cases value with
  | object fields =>
    cases hget : SortedMap.get key fields <;> simp [traverseJson, Json.get, hget]
  | _ => rfl

/-- What was added last is found under its reference. -/
theorem traverse_addSource {root : List (String × Json)} (h : Objects root) (ref : SourceRef)
    (source : Json) :
    traverseJson (.object (addSource root ref source)) (refPath ref) = some source := by
  cases hsuffix : (splitRef ref).2 with
  | none =>
    rw [addSource_bare (Prod.ext rfl hsuffix), refPath, hsuffix]
    exact (traverseJson_single _ _).trans (SortedMap.get_insert_self _ _ _)
  | some suffix =>
    rw [addSource_dotted (Prod.ext rfl hsuffix), refPath, hsuffix]
    cases hcur : SortedMap.get (splitRef ref).1 root with
    | none => simp [traverseJson]
    | some value =>
      obtain ⟨fields, rfl⟩ := h _ _ hcur
      simp [traverseJson]

theorem traverse_last {l : List (SourceRef × Json)} (hrec : ∀ e ∈ l, IsRecord e.2)
    (e : SourceRef × Json) :
    traverseJson (buildSourcesHierarchy (l ++ [e])) (refPath e.1) = some e.2 := by
  have hempty : Objects [] := fun _ _ h => nomatch h
  rw [buildSourcesHierarchy, List.foldl_append]
  exact traverse_addSource (objects_foldl hempty hrec) e.1 e.2

theorem perm_last {α : Type*} {l : List α} {a : α} (h : a ∈ l) :
    ∃ k, l.Perm (k ++ [a]) ∧ ∀ b ∈ k, b ∈ l := by
  obtain ⟨s, t, rfl⟩ := List.append_of_mem h
  refine ⟨s ++ t, List.perm_middle.trans (List.perm_append_singleton a (s ++ t)).symm, ?_⟩
  intro b hb
  cases List.mem_append.mp hb with
  | inl hb => exact List.mem_append_left _ hb
  | inr hb => exact List.mem_append_right _ (List.mem_cons_of_mem a hb)

/-- Where the order does not matter, every source may be taken for the last one. -/
theorem traverse_of_holds {l : List (SourceRef × Json)} (hn : (l.map Prod.fst).Nodup)
    (hrec : ∀ e ∈ l, IsRecord e.2) (hholds : ∀ e ∈ l, ∀ f ∈ l, Holds e f)
    {e : SourceRef × Json} (he : e ∈ l) :
    traverseJson (buildSourcesHierarchy l) (refPath e.1) = some e.2 := by
  obtain ⟨k, hperm, hk⟩ := perm_last he
  rw [buildSourcesHierarchy_perm hperm hn hrec hholds]
  exact traverse_last (fun f hf => hrec f (hk f hf)) e

namespace Source
variable {source : Source} {extra : List (String × Json)}

theorem isRecord_toValue : IsRecord (source.toValue extra) :=
  ⟨_, rfl, SortedMap.sorted_foldl_insert List.Pairwise.nil _⟩

theorem toValue_congr {extra' : List (String × Json)} (h : HashMap.IterOrder extra source.extra)
    (h' : HashMap.IterOrder extra' source.extra) : source.toValue extra = source.toValue extra' :=
  congrArg Json.object (SortedMap.foldl_insert_perm (h.perm h') h.nodup _)

/-- Only a further field of a source can be the JSON of a source. -/
theorem get_toValue_iff (h : HashMap.IterOrder extra source.extra) (key : String)
    {value : Json} (hv : IsRecord value) :
    (source.toValue extra).get key = some value ↔ source.extra.lookup key = some value := by
  obtain ⟨fields, rfl, -⟩ := hv
  have hfold : (source.toValue extra).get key = SortedMap.get key
      (extra.foldl (fun m e => SortedMap.insert e.1 e.2 m)
        (SortedMap.insert "type" (.string source.type)
          (SortedMap.insert "label" (.string source.label) []))) := rfl
  rw [hfold]
  cases hl : source.extra.lookup key with
  | some v => rw [SortedMap.get_foldl_insert h.nodup ((h.mem_iff key v).mpr hl)]
  | none =>
    have hne : ∀ e ∈ extra, key ≠ e.1 := by
      rintro e he rfl
      rw [(h.mem_iff e.1 e.2).mp he] at hl
      cases hl
    rw [SortedMap.get_foldl_insert_ne hne, SortedMap.get_insert, SortedMap.get_insert,
      SortedMap.get_nil]
    split_ifs <;> simp

end Source

namespace SourcesOrder
variable {sources : HashMap SourceRef Source}

theorem exists_order (sources : HashMap SourceRef Source) : Nonempty (SourcesOrder sources) := by
  obtain ⟨entries, hentries⟩ := HashMap.exists_iterOrder sources
  have hextra := fun source : Source => HashMap.exists_iterOrder source.extra
  choose extra hextra using hextra
  exact ⟨⟨entries, extra, hentries, fun e _ => hextra e.2⟩⟩

variable (order : SourcesOrder sources)

/-- Any source may be the last one of the registry. -/
theorem exists_last {e : SourceRef × Source} (he : e ∈ order.entries) :
    ∃ (order' : SourcesOrder sources) (k : List (SourceRef × Source)),
      order'.entries = k ++ [e] ∧ order'.extra = order.extra := by
  obtain ⟨k, hperm, -⟩ := perm_last he
  refine ⟨⟨k ++ [e], order.extra, order.entries_order.of_perm hperm, ?_⟩, k, rfl, rfl⟩
  exact fun f hf => order.extra_order f (hperm.mem_iff.mpr hf)

theorem nodup_values : (order.values.map Prod.fst).Nodup := by
  simpa [values, Function.comp_def] using order.entries_order.nodup

theorem isRecord_values : ∀ e ∈ order.values, IsRecord e.2 := by
  intro e he
  obtain ⟨f, -, rfl⟩ := List.mem_map.mp he
  exact Source.isRecord_toValue

theorem mem_values {ref : SourceRef} {source : Source} (h : sources.lookup ref = some source) :
    (ref, source.toValue (order.extra source)) ∈ order.values :=
  List.mem_map.mpr ⟨(ref, source), (order.entries_order.mem_iff ref source).mpr h, rfl⟩

theorem extra_lookup {ref : SourceRef} {source : Source} (h : sources.lookup ref = some source) :
    HashMap.IterOrder (order.extra source) source.extra :=
  order.extra_order (ref, source) ((order.entries_order.mem_iff ref source).mpr h)

theorem values_perm (order order' : SourcesOrder sources) : order.values.Perm order'.values := by
  have hsame : order'.values =
      order'.entries.map fun e => (e.1, e.2.toValue (order.extra e.2)) := by
    refine List.map_congr_left fun e he => ?_
    have hmem := (order.entries_order.perm order'.entries_order).mem_iff.mpr he
    rw [Source.toValue_congr (order'.extra_order e he) (order.extra_order e hmem)]
  rw [hsame]
  exact (order.entries_order.perm order'.entries_order).map _

end SourcesOrder

/-- A label that is registered bare is not registered with a suffix, unless the bare
source has the dotted one's metadata as its own field of that name. -/
def Unmixed (sources : HashMap SourceRef Source) : Prop :=
  ∀ bare b ref s label suffix, sources.lookup bare = some b → sources.lookup ref = some s →
    splitRef bare = (label, none) → splitRef ref = (label, some suffix) →
    ∃ extra, HashMap.IterOrder extra s.extra ∧ b.extra.lookup suffix = some (s.toValue extra)

theorem holds_of_unmixed {sources : HashMap SourceRef Source} (h : Unmixed sources)
    (order : SourcesOrder sources) : ∀ e ∈ order.values, ∀ f ∈ order.values, Holds e f := by
  intro e he f hf suffix hbare hdotted
  obtain ⟨⟨bare, b⟩, hb, rfl⟩ := List.mem_map.mp he
  obtain ⟨⟨ref, s⟩, hs, rfl⟩ := List.mem_map.mp hf
  have hblookup := (order.entries_order.mem_iff bare b).mp hb
  have hslookup := (order.entries_order.mem_iff ref s).mp hs
  obtain ⟨extra, hextra, hfield⟩ :=
    h bare b ref s _ suffix hblookup hslookup (Prod.ext rfl hbare) hdotted
  refine (Source.get_toValue_iff (order.extra_order _ hb) suffix Source.isRecord_toValue).mpr ?_
  rw [hfield, Source.toValue_congr hextra (order.extra_order _ hs)]

/-- The tree shows every source whatever the order of the maps exactly when no label
is registered both bare and with a suffix. -/
theorem sourcesTree_iff (sources : HashMap SourceRef Source) :
    ((∀ order order' : SourcesOrder sources, order.tree = order'.tree) ∧
      ∀ (order : SourcesOrder sources) (ref : SourceRef) (source : Source),
        sources.lookup ref = some source →
        traverseJson order.tree (refPath ref) = some (source.toValue (order.extra source))) ↔
    Unmixed sources := by
  constructor
  · rintro ⟨-, hleads⟩ bare b ref s label suffix hb hs hbare hdotted
    obtain ⟨order⟩ := SourcesOrder.exists_order sources
    obtain ⟨order', k, hk, hsame⟩ :=
      order.exists_last ((order.entries_order.mem_iff bare b).mpr hb)
    have hroot : ∃ root, order'.tree = .object (SortedMap.insert label
        (b.toValue (order'.extra b)) root) := by
      refine ⟨(k.map fun e => (e.1, e.2.toValue (order'.extra e.2))).foldl
        (fun root e => addSource root e.1 e.2) [], ?_⟩
      rw [SourcesOrder.tree, buildSourcesHierarchy, SourcesOrder.values, hk, List.map_append,
        List.foldl_append]
      exact congrArg Json.object (addSource_bare hbare _ _)
    obtain ⟨root, hroot⟩ := hroot
    have hfound := hleads order' ref s hs
    rw [hroot, refPath, hdotted] at hfound
    simp only [Option.toList_some, traverseJson, SortedMap.get_insert_self] at hfound
    rw [traverseJson_single] at hfound
    exact ⟨order'.extra s, order'.extra_lookup hs,
      (Source.get_toValue_iff (order'.extra_lookup hb) suffix Source.isRecord_toValue).mp hfound⟩
  · intro h
    constructor
    · intro order order'
      have hholds := holds_of_unmixed h order
      have hperm := order.values_perm order'
      exact buildSourcesHierarchy_perm hperm order.nodup_values order.isRecord_values hholds
    · intro order ref source hlookup
      have hmem := order.mem_values hlookup
      have hfound := traverse_of_holds order.nodup_values order.isRecord_values
        (holds_of_unmixed h order) hmem
      exact hfound

/-! A plugin and an NMEA0183 source of the same label. -/

section
attribute [local instance] JsonText.unused

def mixed : SignalKStore :=
  Machine.run SignalKStore.step (SignalKStore.new "u")
    [.applyDelta (fun _ => 0) (.selfVessel [⟨.plugin "gps", 0, []⟩]),
      .applyDelta (fun _ => 0) (.selfVessel [⟨.nmea0183 "gps" "GP", 0, []⟩])]

def mixedOrder (entries : List (SourceRef × Source))
    (h : HashMap.IterOrder entries mixed.sources ∧ ∀ e ∈ entries, HashMap.IterOrder
      (if e.2.type = "NMEA0183" then [("talker", .string "GP")] else []) e.2.extra) :
    SourcesOrder mixed.sources where
  entries := entries
  extra source := if source.type = "NMEA0183" then [("talker", .string "GP")] else []
  entries_order := h.1
  extra_order := h.2

/-- Visited last, the plugin wipes the talker; visited first, it gets the talker
among its own fields. -/
theorem mixed_label :
    ∃ pluginLast talkerLast : SourcesOrder mixed.sources, pluginLast.tree ≠ talkerLast.tree ∧
      traverseJson pluginLast.tree (refPath "gps.GP") = none ∧
      mixed.sources.lookup "gps" = some (.plugin "gps") ∧
      traverseJson talkerLast.tree (refPath "gps") ≠
        some ((Source.plugin "gps").toValue (talkerLast.extra (.plugin "gps"))) := by
  refine ⟨mixedOrder [("gps.GP", .nmea0183 "gps" "GP"), ("gps", .plugin "gps")] (by decide +kernel),
    mixedOrder [("gps", .plugin "gps"), ("gps.GP", .nmea0183 "gps" "GP")] (by decide +kernel), ?_⟩
  decide +kernel

end

end SignalK
