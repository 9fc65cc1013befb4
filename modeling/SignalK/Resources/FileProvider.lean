import SignalK.Api.ApplicationData
import SignalK.Course.Resolve

/-! The provider that keeps resources in files, one for each, and replaces them by renaming. -/
namespace SignalK.Resources
open Api (traverses)

/-- `{path:?}` -/
class PathText where
  debug : String → String

/-- For paths without characters that are escaped. -/
@[reducible] def PathText.plain : PathText := ⟨fun p => "\"" ++ p ++ "\""⟩

/-- A name that the file system lists in a directory. -/
structure FileName where
  text : String
  plain : '/' ∉ text.toList ∧ text ≠ "" ∧ text ≠ "." ∧ text ≠ ".."

inductive Answer where
  | created (id : String)
  | found (value : Option Json)
  | listed (resources : List (String × Json))
  | done
  deriving DecidableEq

abbrev Result := Except PluginError Answer

def rejectTraversal (component : String) : Except PluginError Unit :=
  if traverses component ∨ '\\' ∈ component.toList then
    .error (.config ("invalid path component: " ++ component))
  else .ok ()

def typeDir (base resourceType : String) : String :=
  Paths.join base resourceType

/-- The file of a resource. -/
def resourceFile (base resourceType id : String) : String :=
  Paths.join (typeDir base resourceType) (id ++ ".json")

/-- `with_extension("json.tmp")` of that file; a name with a dot only in front has no extension. -/
def tmpFile (base resourceType id : String) : String :=
  Paths.join (typeDir base resourceType) ((if id = "" then ".json" else id) ++ ".json.tmp")

/-- What a call goes on with if the names are accepted. -/
def withPath {β : Type} (resourceType id : String) (next : FileProgram β Result) :
    FileProgram β Result :=
  match rejectTraversal resourceType with
  | .error e => .done (.error e)
  | .ok () =>
    match rejectTraversal id with
    | .error e => .done (.error e)
    | .ok () => next

section
variable {β : Type} [JsonFile β] [PathText] (base resourceType id : String)

def readResource : Except IoError (List β) → FileProgram β Result
  | .ok contents =>
    match JsonFile.parse contents with
    | .ok value => .done (.ok (.found (some value)))
    | .error e => .done (.error (.runtime
        ("malformed JSON in " ++ PathText.debug (resourceFile base resourceType id) ++ ": " ++ e)))
  | .error .notFound => .done (.ok (.found none))
  | .error (.other e) => .done (.error (.runtime
      ("failed to read " ++ PathText.debug (resourceFile base resourceType id) ++ ": " ++ e)))

def get : FileProgram β Result :=
  withPath resourceType id <|
    .read (resourceFile base resourceType id) (readResource base resourceType id)

/-! The way a file is replaced, call by call. -/

def renamed (answer : Answer) : Except IoError Unit → FileProgram β Result
  | .ok () => .done (.ok answer)
  | .error e => .done (.error (.runtime ("rename " ++
      PathText.debug (tmpFile base resourceType id) ++ " → " ++
      PathText.debug (resourceFile base resourceType id) ++ ": " ++ e.text)))

def filled (answer : Answer) : Except IoError Unit → FileProgram β Result
  | .ok () => .rename (tmpFile base resourceType id) (resourceFile base resourceType id)
      (renamed base resourceType id answer)
  | .error e => .done (.error (.runtime
      ("write " ++ PathText.debug (tmpFile base resourceType id) ++ ": " ++ e.text)))

/-- Write to a temporary file, then rename it. -/
def replace (value : Json) (answer : Answer) : FileProgram β Result :=
  .write (tmpFile base resourceType id) (JsonFile.print value)
    (filled base resourceType id answer)

def makeReplace (value : Json) (answer : Answer) : Except IoError Unit → FileProgram β Result
  | .ok () => replace base resourceType id value answer
  | .error e => .done (.error (.runtime
      ("mkdir " ++ PathText.debug (typeDir base resourceType) ++ ": " ++ e.text)))

/-- `id` is a fresh UUID. -/
def create (value : Json) : FileProgram β Result :=
  withPath resourceType id <|
    .createDirs (typeDir base resourceType) (makeReplace base resourceType id value (.created id))

def replacePresent (value : Json) (there : Bool) : FileProgram β Result :=
  if there then replace base resourceType id value .done
  else .done (.error (.notFound (resourceType ++ "/" ++ id)))

def update (value : Json) : FileProgram β Result :=
  withPath resourceType id <|
    .present (resourceFile base resourceType id) (replacePresent base resourceType id value)

def removed : Except IoError Unit → FileProgram β Result
  | .ok () => .done (.ok .done)
  | .error .notFound => .done (.error (.notFound (resourceType ++ "/" ++ id)))
  | .error (.other e) => .done (.error (.runtime
      ("delete " ++ PathText.debug (resourceFile base resourceType id) ++ ": " ++ e)))

def delete : FileProgram β Result :=
  withPath resourceType id <|
    .remove (resourceFile base resourceType id) (removed base resourceType id)

/-- The files of a directory, one after another, up to a limit; those that cannot be read as JSON
are skipped. -/
def listFrom (dir : String) (limit : Nat) :
    List FileName → List (String × Json) → FileProgram β Result
  | [], result => .done (.ok (.listed result))
  | name :: names, result =>
    if limit ≤ result.length then .done (.ok (.listed result))
    else
      match Text.stripSuffix name.text ".json" with
      | none | some "" => listFrom dir limit names result
      | some id => .read (Paths.join dir name.text) fun
        | .ok contents =>
          match JsonFile.parse contents with
          | .ok value => listFrom dir limit names (SortedMap.insert id value result)
          | .error _ => listFrom dir limit names result
        | .error _ => listFrom dir limit names result

/-- `names` is what the directory holds. -/
def list (names : List FileName) (limit : Nat) : FileProgram β Result :=
  match rejectTraversal resourceType with
  | .error e => .done (.error e)
  | .ok () => .present (typeDir base resourceType) fun there =>
    if there then listFrom (typeDir base resourceType) limit names []
    else .done (.ok (.listed []))

end

/-! The files that the calls touch. -/

theorem rejectTraversal_ok {component : String} (h : rejectTraversal component = .ok ()) :
    ¬traverses component := by
  rw [rejectTraversal] at h
  split_ifs at h with hno
  exact fun ht => hno (.inl ht)

section
variable {β : Type} {P : String → Prop} {base resourceType id : String}

theorem within_withPath {next : FileProgram β Result}
    (h : ¬traverses resourceType → ¬traverses id → next.Within P) :
    (withPath resourceType id next).Within P := by
  rw [withPath]
  cases htype : rejectTraversal resourceType with
  | error e => trivial
  | ok _ =>
    cases hid : rejectTraversal id with
    | error e => trivial
    | ok _ => exact h (rejectTraversal_ok htype) (rejectTraversal_ok hid)

variable [JsonFile β]

theorem within_listFrom {dir : String} (limit : Nat) (names : List FileName)
    (h : ∀ name ∈ names, P (Paths.join dir name.text)) (result : List (String × Json)) :
    (listFrom (β := β) dir limit names result).Within P := by
  induction names generalizing result with
  | nil => trivial
  | cons name names ih =>
    have ih' := ih fun n hn => h n (List.mem_cons_of_mem name hn)
    rw [listFrom]
    split_ifs
    · trivial
    · split
      · exact ih' result
      · exact ih' result
      · refine ⟨h name List.mem_cons_self, fun answer => ?_⟩
        cases answer with
        | error e => exact ih' result
        | ok contents =>
          dsimp only
          cases JsonFile.parse contents with
          | ok value => exact ih' _
          | error e => exact ih' result

theorem within_list (names : List FileName) (limit : Nat)
    (h : ¬traverses resourceType → P (typeDir base resourceType) ∧
      ∀ name ∈ names, P (Paths.join (typeDir base resourceType) name.text)) :
    (list (β := β) base resourceType names limit).Within P := by
  rw [list]
  cases htype : rejectTraversal resourceType with
  | error e => trivial
  | ok _ =>
    obtain ⟨hdir, hnames⟩ := h (rejectTraversal_ok htype)
    refine ⟨hdir, fun there => ?_⟩
    cases there with
    | false => trivial
    | true => exact within_listFrom limit names hnames []

variable [PathText]

theorem within_get (h : ¬traverses resourceType → ¬traverses id →
    P (resourceFile base resourceType id)) :
    (get (β := β) base resourceType id).Within P := by
  refine within_withPath fun htype hid => ⟨h htype hid, fun answer => ?_⟩
  cases answer with
  | ok contents =>
    rw [readResource]
    cases JsonFile.parse contents <;> trivial
  | error e => cases e <;> trivial

theorem within_replace (value : Json) (answer : Answer) (htmp : P (tmpFile base resourceType id))
    (hfile : P (resourceFile base resourceType id)) :
    (replace (β := β) base resourceType id value answer).Within P := by
  refine FileProgram.within_write.mpr ⟨htmp, fun a => ?_⟩
  cases a with
  | error e => trivial
  | ok _ =>
    refine ⟨htmp, hfile, fun a => ?_⟩
    cases a <;> trivial

theorem within_create (value : Json) (h : ¬traverses resourceType → ¬traverses id →
    P (typeDir base resourceType) ∧ P (tmpFile base resourceType id) ∧
      P (resourceFile base resourceType id)) :
    (create (β := β) base resourceType id value).Within P := by
  refine within_withPath fun htype hid => ?_
  obtain ⟨hdir, htmp, hfile⟩ := h htype hid
  refine ⟨hdir, fun a => ?_⟩
  cases a with
  | error e => trivial
  | ok _ => exact within_replace value _ htmp hfile

theorem within_update (value : Json) (h : ¬traverses resourceType → ¬traverses id →
    P (tmpFile base resourceType id) ∧ P (resourceFile base resourceType id)) :
    (update (β := β) base resourceType id value).Within P := by
  refine within_withPath fun htype hid => ?_
  obtain ⟨htmp, hfile⟩ := h htype hid
  refine ⟨hfile, fun there => ?_⟩
  cases there with
  | false => trivial
  | true => exact within_replace value _ htmp hfile

omit [JsonFile β] in
theorem within_delete (h : ¬traverses resourceType → ¬traverses id →
    P (resourceFile base resourceType id)) :
    (delete (β := β) base resourceType id).Within P := by
  refine within_withPath fun htype hid => ⟨h htype hid, fun a => ?_⟩
  cases a with
  | ok _ => trivial
  | error e => cases e <;> trivial

end
end SignalK.Resources
