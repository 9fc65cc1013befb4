import SignalK.Lib.FileProgram
import SignalK.Lib.Paths
import SignalK.Types.Resources

/-! Application data: documents that clients keep in files, read and written as a whole or key
by key. -/
namespace SignalK

namespace Json

mutual
/-- How deep arrays and objects are nested. -/
def depth : Json → Nat
  | array items => depthItems items + 1
  | object fields => depthFields fields + 1
  | null => 0
  | bool _ => 0
  | number _ => 0
  | string _ => 0

def depthItems : List Json → Nat
  | [] => 0
  | j :: items => max (depth j) (depthItems items)

def depthFields : List (String × Json) → Nat
  | [] => 0
  | (_, j) :: fields => max (depth j) (depthFields fields)
end

end Json

/-- serde_json between documents and the contents of files. It reads back what it has printed, up
to its precision for doubles and its limit for recursion. -/
class JsonFile (β : Type) extends FloatText where
  print : Json → List β
  parse : List β → Except String Json
  parse_print : ∀ j, j.depth < 128 → parse (print j) = .ok j.reparsed
  parse_depth : ∀ text j, parse text = .ok j → j.depth < 128

/-! Where doubles read back as themselves, documents do. -/

mutual
theorem Json.reparsed_eq [FloatText] (h : ∀ x, FloatText.reparse x = x) :
    ∀ j : Json, j.reparsed = j
  | .number (.float x) => by rw [Json.reparsed, h]
  | .array items => by rw [Json.reparsed, Json.reparsedItems_self h items]
  | .object fields => by rw [Json.reparsed, Json.reparsedFields_self h fields]
  | .null | .bool _ | .number (.posInt _) | .number (.negInt _) | .string _ => by
    rw [Json.reparsed]

theorem Json.reparsedItems_self [FloatText] (h : ∀ x, FloatText.reparse x = x) :
    ∀ items : List Json, Json.reparsedItems items = items
  | [] => by rw [Json.reparsedItems]
  | j :: items => by
    rw [Json.reparsedItems, Json.reparsed_eq h j, Json.reparsedItems_self h items]

theorem Json.reparsedFields_self [FloatText] (h : ∀ x, FloatText.reparse x = x) :
    ∀ fields : List (String × Json), Json.reparsedFields fields = fields
  | [] => by rw [Json.reparsedFields]
  | (_, j) :: fields => by
    rw [Json.reparsedFields, Json.reparsed_eq h j, Json.reparsedFields_self h fields]
end

/-- For files whose content is a document, or nothing that could be read. -/
@[reducible] def JsonFile.whole : JsonFile Json where
  toFloatText := FloatText.exact
  print j := [j]
  parse
    | [j] => if j.depth < 128 then .ok j else .error "recursion limit exceeded"
    | _ => .error "EOF while parsing a value"
  parse_print j h := by
    dsimp only
    rw [if_pos h]
    exact congrArg Except.ok (@Json.reparsed_eq FloatText.exact (fun _ => rfl) j).symm
  parse_depth
    | [j], j', h => by
      dsimp only at h
      by_cases hd : j.depth < 128
      · rw [if_pos hd] at h
        rwa [← Except.ok.inj h]
      · rw [if_neg hd] at h
        cases h
    | [], _, h => nomatch h
    | _ :: _ :: _, _, h => nomatch h

namespace Api

structure Reply where
  status : Nat
  body : Json
  deriving DecidableEq

namespace Reply

def message (status : Nat) (text : String) : Reply :=
  ⟨status, .ofFields [("message", .string text)]⟩

def completed : Reply :=
  ⟨200, .ofFields [("state", .string "COMPLETED"), ("statusCode", .number (.posInt 200))]⟩

/-- The document of a reply that is no error. -/
def value (r : Reply) : Option Json :=
  if r.status = 200 then some r.body else none

end Reply

/-- Scope "user" falls back to "global". -/
def appDataDir (dataDir scope appId : String) : String :=
  let effectiveScope := if scope = "user" then "global" else scope
  Paths.join (Paths.join (Paths.join dataDir "applicationData") effectiveScope) appId

def appDataFile (dataDir scope appId version : String) : String :=
  Paths.join (appDataDir dataDir scope appId) (version ++ ".json")

def invalidScope (scope : String) : Option Reply :=
  if scope ≠ "global" ∧ scope ≠ "user" then
    some (.message 400 ("Invalid scope: " ++ scope ++ ". Must be 'global' or 'user'"))
  else none

/-- A slash or two dots in a row. -/
def traverses (name : String) : Prop :=
  '/' ∈ name.toList ∨ "..".toList <:+: name.toList

instance (name : String) : Decidable (traverses name) :=
  inferInstanceAs (Decidable (_ ∨ _))

def keyParts (key : String) : List String :=
  (Text.split '/' key).filter fun s => s ≠ ""

def fieldsOf : Json → List (String × Json)
  | .object fields => fields
  | _ => []

def setNested (root : Json) : List String → Json → Json
  | [], value => value
  | [head], value => .object (SortedMap.insert head value (fieldsOf root))
  | head :: next :: tail, value =>
    let child := (SortedMap.get head (fieldsOf root)).getD (.object [])
    .object (SortedMap.insert head (setNested child (next :: tail) value) (fieldsOf root))

def traverseJson : Json → List String → Option Json
  | value, [] => some value
  | .object map, head :: tail => (SortedMap.get head map).bind fun child => traverseJson child tail
  | _, _ :: _ => none

section
variable {β : Type} [JsonFile β]

def getAppData (dataDir scope appId version : String) : FileProgram β Reply :=
  match invalidScope scope with
  | some r => .done r
  | none => .read (appDataFile dataDir scope appId version) fun
    | .ok contents =>
      match JsonFile.parse contents with
      | .ok v => .done ⟨200, v⟩
      | .error e => .done (.message 500 ("Corrupt data file: " ++ e))
    | .error .notFound => .done (.message 404 ("No data for " ++ appId ++ "/" ++ version))
    | .error (.other e) => .done (.message 500 ("Read error: " ++ e))

def getAppDataKey (dataDir scope appId version key : String) : FileProgram β Reply :=
  match invalidScope scope with
  | some r => .done r
  | none => .read (appDataFile dataDir scope appId version) fun
    | .ok contents =>
      match JsonFile.parse contents with
      | .ok root =>
        match traverseJson root (keyParts key) with
        | some value => .done ⟨200, value⟩
        | none => .done (.message 404 ("Key not found: " ++ key))
      | .error e => .done (.message 500 ("Corrupt data file: " ++ e))
    | .error .notFound => .done (.message 404 ("No data for " ++ appId ++ "/" ++ version))
    | .error (.other e) => .done (.message 500 ("Read error: " ++ e))

/-! The write at the end of both kinds of update, call by call. -/

def writeReply : Except IoError Unit → FileProgram β Reply
  | .ok () => .done .completed
  | .error e => .done (.message 500 ("Write error: " ++ e.text))

def writeDocument (file : String) (contents : List β) : FileProgram β Reply :=
  .write file contents writeReply

def storeDocument (dir file : String) (contents : List β) : FileProgram β Reply :=
  .createDirs dir fun
    | .ok () => writeDocument file contents
    | .error e => .done (.message 500 ("Cannot create directory: " ++ e.text))

def setAppData (dataDir scope appId version : String) (body : Json) : FileProgram β Reply :=
  match invalidScope scope with
  | some r => .done r
  | none =>
    if traverses appId ∨ traverses version then .done (.message 400 "Invalid appId or version")
    else
      storeDocument (appDataDir dataDir scope appId) (appDataFile dataDir scope appId version)
        (JsonFile.print body)

/-- The document that a key is set in: an empty object if there is none that can be read. -/
def rootOf : Except IoError (List β) → Json
  | .ok contents =>
    match JsonFile.parse contents with
    | .ok root => root
    | .error _ => .object []
  | .error _ => .object []

def setAppDataKey (dataDir scope appId version key : String) (body : Json) :
    FileProgram β Reply :=
  match invalidScope scope with
  | some r => .done r
  | none =>
    if traverses appId ∨ traverses version then .done (.message 400 "Invalid appId or version")
    else .read (appDataFile dataDir scope appId version) fun found =>
      storeDocument (appDataDir dataDir scope appId) (appDataFile dataDir scope appId version)
        (JsonFile.print (setNested (rootOf found) (keyParts key) body))

end

/-! Keys of a document. -/

theorem traverseJson_eq (value : Json) (parts : List String) :
    traverseJson value parts = Nested.traverse value parts := by
  induction parts generalizing value with
  | nil => cases value <;> rfl
  | cons head tail ih =>
    cases value with
    | object map =>
      rw [traverseJson]
      simp only [ih]
      rfl
    | _ => rfl

/-- A value that was set is found. -/
theorem traverse_setNested_self (root : Json) (parts : List String) (value : Json) :
    traverseJson (setNested root parts value) parts = some value := by
  fun_induction setNested root parts value with
  | case1 root value => cases value <;> rfl
  | case2 root head value =>
    rw [traverseJson, SortedMap.get_insert_self, Option.bind_some]
    cases value <;> rfl
  | case3 root head next tail value child ih =>
    rw [traverseJson, SortedMap.get_insert_self, Option.bind_some, ih]

theorem traverseJson_cons (root : Json) (head : String) (tail : List String) :
    traverseJson root (head :: tail) =
      (SortedMap.get head (fieldsOf root)).bind fun child => traverseJson child tail := by
  cases root with
  | object map => rw [traverseJson, fieldsOf]
  | _ => rfl

/-- What is neither above nor below the key is as it was. -/
theorem traverse_setNested_of_unrelated {parts others : List String}
    (h : Nested.Unrelated parts others) (root value : Json) :
    traverseJson (setNested root parts value) others = traverseJson root others := by
  fun_induction setNested root parts value generalizing others with
  | case1 root value => exact absurd List.nil_prefix h.1
  | case2 root head value =>
    cases others with
    | nil => exact absurd List.nil_prefix h.2
    | cons other rest =>
      have hne : other ≠ head := by
        rintro rfl
        exact h.1 (List.cons_prefix_cons.mpr ⟨rfl, List.nil_prefix⟩)
      rw [traverseJson_cons, traverseJson_cons, fieldsOf, SortedMap.get_insert_ne hne]
  | case3 root head next tail value child =>
    rename_i ih
    cases others with
    | nil => exact absurd List.nil_prefix h.2
    | cons other rest =>
      rw [traverseJson_cons, traverseJson_cons, fieldsOf]
      by_cases hne : other = head
      · subst hne
        have hrest : Nested.Unrelated (next :: tail) rest :=
          ⟨fun hp => h.1 (List.cons_prefix_cons.mpr ⟨rfl, hp⟩),
            fun hp => h.2 (List.cons_prefix_cons.mpr ⟨rfl, hp⟩)⟩
        rw [SortedMap.get_insert_self, Option.bind_some, ih hrest]
        cases hget : SortedMap.get other (fieldsOf root) with
        | some c => simp [child, hget]
        | none =>
          have hrest' : rest ≠ [] := by
            rintro rfl
            exact hrest.2 List.nil_prefix
          obtain ⟨k, ks, rfl⟩ := List.exists_cons_of_ne_nil hrest'
          simp [child, hget, traverseJson]
      · rw [SortedMap.get_insert_ne hne]

theorem fieldsOf_reparsed [FloatText] {root : Json} (h : root.reparsed = root) :
    Json.reparsedFields (fieldsOf root) = fieldsOf root := by
  cases root with
  | object fields =>
    rw [Json.reparsed] at h
    exact Json.object.inj h
  | _ => rfl

theorem reparsedFields_insert [FloatText] (key : String) (value : Json)
    (fields : List (String × Json)) :
    Json.reparsedFields (SortedMap.insert key value fields) =
      SortedMap.insert key value.reparsed (Json.reparsedFields fields) := by
  induction fields with
  | nil => simp [SortedMap.insert, Json.reparsedFields]
  | cons e fields ih =>
    obtain ⟨other, j⟩ := e
    rw [SortedMap.insert, Json.reparsedFields, SortedMap.insert]
    split_ifs <;> simp [Json.reparsedFields, ih]

/-- A document of doubles that read back stays one. -/
theorem setNested_reparsed [FloatText] {root value : Json} (hroot : root.reparsed = root)
    (hvalue : value.reparsed = value) (parts : List String) :
    (setNested root parts value).reparsed = setNested root parts value := by
  fun_induction setNested root parts value with
  | case1 root value => exact hvalue
  | case2 root head value =>
    rw [Json.reparsed, reparsedFields_insert, fieldsOf_reparsed hroot, hvalue]
  | case3 root head next tail value child ih =>
    have hchild : child.reparsed = child := by
      have hget := Json.get_reparsed (.object (fieldsOf root)) head
      rw [Json.reparsed, fieldsOf_reparsed hroot] at hget
      simp only [Json.get] at hget
      cases hc : SortedMap.get head (fieldsOf root) with
      | none => simp [child, hc, Json.reparsed, Json.reparsedFields]
      | some c =>
        rw [hc] at hget
        simpa [child, hc] using (Option.some.inj hget).symm
    rw [Json.reparsed, reparsedFields_insert, fieldsOf_reparsed hroot, ih hchild hvalue]

theorem depth_le_fields {key : String} {fields : List (String × Json)} {j : Json}
    (h : (key, j) ∈ fields) : j.depth ≤ Json.depthFields fields := by
  induction fields with
  | nil => cases h
  | cons e fields ih =>
    rw [Json.depthFields]
    cases List.mem_cons.mp h with
    | inl he =>
      subst he
      dsimp only
      omega
    | inr htail =>
      have := ih htail
      omega

theorem depthFields_insert (key : String) (value : Json) (fields : List (String × Json)) :
    Json.depthFields (SortedMap.insert key value fields) ≤
      max value.depth (Json.depthFields fields) := by
  induction fields with
  | nil => simp [SortedMap.insert, Json.depthFields]
  | cons e fields ih =>
    rw [SortedMap.insert]
    split_ifs
    · simp only [Json.depthFields]
      omega
    · simp only [Json.depthFields]
      omega
    · simp only [Json.depthFields]
      omega

/-- A key with many parts nests deep. -/
theorem depth_setNested (root : Json) (parts : List String) (value : Json) :
    (setNested root parts value).depth ≤ max root.depth (parts.length + value.depth) := by
  have hfields : ∀ root : Json, Json.depthFields (fieldsOf root) + 1 ≤ max root.depth 1 := by
    intro root
    cases root <;> simp [fieldsOf, Json.depth, Json.depthFields]
  fun_induction setNested root parts value with
  | case1 root value =>
    rw [List.length_nil]
    omega
  | case2 root head value =>
    have hinsert := depthFields_insert head value (fieldsOf root)
    have := hfields root
    rw [Json.depth, List.length_singleton]
    omega
  | case3 root head next tail value child ih =>
    have hinsert := depthFields_insert head (setNested child (next :: tail) value) (fieldsOf root)
    have := hfields root
    have hchild : child.depth ≤ max (Json.depthFields (fieldsOf root)) 1 := by
      cases hc : SortedMap.get head (fieldsOf root) with
      | none => simp [child, hc, Json.depth, Json.depthFields]
      | some c =>
        have := depth_le_fields (SortedMap.mem_of_get hc)
        simp only [child, hc, Option.getD_some]
        omega
    rw [Json.depth, List.length_cons, List.length_cons]
    rw [List.length_cons] at ih
    omega

/-! The files that a handler touches. -/

section
variable {β : Type} [JsonFile β] {P : String → Prop}

theorem within_getAppData (dataDir scope appId version : String) :
    (getAppData (β := β) dataDir scope appId version).Within P ↔
      (invalidScope scope = none → P (appDataFile dataDir scope appId version)) := by
  rw [getAppData]
  cases invalidScope scope with
  | some r => simp [FileProgram.Within]
  | none =>
    refine ⟨fun h _ => h.1, fun h => ⟨h rfl, fun answer => ?_⟩⟩
    cases answer with
    | ok contents =>
      dsimp only
      cases JsonFile.parse contents <;> trivial
    | error e => cases e <;> trivial

theorem within_getAppDataKey (dataDir scope appId version key : String) :
    (getAppDataKey (β := β) dataDir scope appId version key).Within P ↔
      (invalidScope scope = none → P (appDataFile dataDir scope appId version)) := by
  rw [getAppDataKey]
  cases invalidScope scope with
  | some r => simp [FileProgram.Within]
  | none =>
    refine ⟨fun h _ => h.1, fun h => ⟨h rfl, fun answer => ?_⟩⟩
    cases answer with
    | ok contents =>
      dsimp only
      cases JsonFile.parse contents with
      | ok root =>
        dsimp only
        cases traverseJson root (keyParts key) <;> trivial
      | error e => trivial
    | error e => cases e <;> trivial

omit [JsonFile β] in
theorem within_storeDocument {dir file : String} (contents : List β) (hdir : P dir)
    (hfile : P file) : (storeDocument dir file contents).Within P := by
  refine ⟨hdir, fun answer => ?_⟩
  cases answer with
  | error e => trivial
  | ok _ =>
    refine FileProgram.within_write.mpr ⟨hfile, fun answer => ?_⟩
    cases answer <;> trivial

theorem within_setAppData {dataDir scope appId version : String} (body : Json)
    (h : invalidScope scope = none → ¬traverses appId → ¬traverses version →
      P (appDataDir dataDir scope appId) ∧ P (appDataFile dataDir scope appId version)) :
    (setAppData (β := β) dataDir scope appId version body).Within P := by
  rw [setAppData]
  cases hscope : invalidScope scope with
  | some r => trivial
  | none =>
    by_cases hnames : traverses appId ∨ traverses version
    · rw [if_pos hnames]
      trivial
    · obtain ⟨happ, hversion⟩ := not_or.mp hnames
      rw [if_neg hnames]
      exact within_storeDocument _ (h hscope happ hversion).1 (h hscope happ hversion).2

theorem within_setAppDataKey {dataDir scope appId version : String} (key : String) (body : Json)
    (h : invalidScope scope = none → ¬traverses appId → ¬traverses version →
      P (appDataDir dataDir scope appId) ∧ P (appDataFile dataDir scope appId version)) :
    (setAppDataKey (β := β) dataDir scope appId version key body).Within P := by
  rw [setAppDataKey]
  cases hscope : invalidScope scope with
  | some r => trivial
  | none =>
    by_cases hnames : traverses appId ∨ traverses version
    · rw [if_pos hnames]
      trivial
    · obtain ⟨happ, hversion⟩ := not_or.mp hnames
      rw [if_neg hnames]
      exact ⟨(h hscope happ hversion).2, fun _ =>
        within_storeDocument _ (h hscope happ hversion).1 (h hscope happ hversion).2⟩

end

end Api
end SignalK
