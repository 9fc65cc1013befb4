import Mathlib.Data.List.Permutation
import SignalK.Lib.Sequential
import SignalK.Resources.FileProvider

/-! Concurrent calls of the file provider and the order that their replies stand for. A call has
its effect with its last step, and replies with it. -/
namespace SignalK.Resources
open Api (traverses)

inductive Kind where
  | create (value : Json)
  | update (value : Json)
  | delete
  | get

/-- The id of a call that creates is its fresh UUID. -/
structure Call where
  resourceType : String
  id : String
  kind : Kind

namespace Call

def isUpdate (c : Call) : Bool :=
  match c.kind with
  | .update _ => true
  | _ => false

/-- What a call writes, and what it then replies. -/
def value (c : Call) : Json :=
  match c.kind with
  | .create value => value
  | .update value => value
  | _ => .null

def answer (c : Call) : Answer :=
  match c.kind with
  | .create _ => .created c.id
  | _ => .done

/-- Both names are accepted. -/
def Accepted (c : Call) : Prop :=
  rejectTraversal c.resourceType = .ok () ∧ rejectTraversal c.id = .ok ()

/-- The call puts a text into the place of the resource. -/
def writes (c : Call) : Bool :=
  match c.kind with
  | .create _ => true
  | .update _ => true
  | _ => false

/-- Where the resource and its temporary file are. -/
def file (base : String) (cwd : List String) (c : Call) : List String :=
  Paths.resolve cwd (resourceFile base c.resourceType c.id)

def tmp (base : String) (cwd : List String) (c : Call) : List String :=
  Paths.resolve cwd (tmpFile base c.resourceType c.id)

end Call

/-! Resources and temporary files are different files. -/

/-- The place of a resource. -/
def IsResource (base : String) (cwd x : List String) : Prop :=
  ∃ c : Call, c.Accepted ∧ x = c.file base cwd

theorem Call.Accepted.plain {c : Call} (h : c.Accepted) : '/' ∉ c.id.toList :=
  (not_or.mp (rejectTraversal_ok h.2)).1

theorem entry_eq {name ext : String} (hname : '/' ∉ name.toList) (hext : '/' ∉ ext.toList)
    (hlen : 2 < ext.length) (cwd : List String) (dir : String) :
    Paths.resolve cwd (Paths.join dir (name ++ ext)) =
      Paths.resolve cwd dir ++ [name ++ ext] := by
  have hlong : 2 < (name ++ ext).length := by
    rw [String.length_append]
    omega
  have hne : ∀ s : String, s.length ≤ 2 → name ++ ext ≠ s := by
    rintro s hs rfl
    omega
  refine Paths.resolve_entry ⟨hne _ (by decide), hne _ (by decide), hne _ (by decide)⟩ ?_ cwd dir
  simp [hname, hext]

theorem Call.file_ne_tmp (base : String) (cwd : List String) {c c' : Call} (h : c.Accepted)
    (h' : c'.Accepted) : c.file base cwd ≠ c'.tmp base cwd := by
  have hstem : '/' ∉ (if c'.id = "" then ".json" else c'.id).toList := by
    split_ifs
    · decide
    · exact h'.plain
  rw [Call.file, Call.tmp, resourceFile, tmpFile,
    entry_eq h.plain (by decide) (by decide), entry_eq hstem (by decide) (by decide)]
  intro he
  have hlast := congrArg List.getLast? he
  simp only [List.getLast?_append, List.getLast?_singleton, Option.some_or] at hlast
  exact Text.append_ne_append (by decide +kernel) (by decide +kernel) (Option.some.inj hlast)

section
variable {β : Type} [JsonFile β] [PathText] (base : String) (cwd : List String)

namespace Call
variable (c : Call)

def program : FileProgram β Result :=
  match c.kind with
  | .create value => create base c.resourceType c.id value
  | .update value => update base c.resourceType c.id value
  | .delete => delete base c.resourceType c.id
  | .get => get base c.resourceType c.id

/-- A call is rejected, or takes its steps. -/
theorem program_cases :
    (¬c.Accepted ∧ ∃ m, c.program (β := β) base = .done (.error (.config m))) ∨
      c.Accepted ∧ c.program (β := β) base =
        match c.kind with
        | .create value => .createDirs (typeDir base c.resourceType)
            (makeReplace base c.resourceType c.id value (.created c.id))
        | .update value => .present (resourceFile base c.resourceType c.id)
            (replacePresent base c.resourceType c.id value)
        | .delete => .remove (resourceFile base c.resourceType c.id)
            (removed base c.resourceType c.id)
        | .get => .read (resourceFile base c.resourceType c.id)
            (readResource base c.resourceType c.id) := by
  have hcases : ∀ component, (∃ m, rejectTraversal component = .error (.config m)) ∨
      rejectTraversal component = .ok () := by
    intro component
    rw [rejectTraversal]
    split_ifs
    · exact .inl ⟨_, rfl⟩
    · exact .inr rfl
  have hpath : ∀ next : FileProgram β Result,
      (¬c.Accepted ∧ ∃ m, withPath c.resourceType c.id next = .done (.error (.config m))) ∨
        c.Accepted ∧ withPath c.resourceType c.id next = next := by
    intro next
    rw [withPath, Accepted]
    obtain ⟨m, hm⟩ | hok := hcases c.resourceType
    · exact .inl ⟨by simp [hm], m, by rw [hm]⟩
    · obtain ⟨m, hm⟩ | hok' := hcases c.id
      · exact .inl ⟨by simp [hm], m, by rw [hok, hm]⟩
      · exact .inr ⟨⟨hok, hok'⟩, by rw [hok, hok']⟩
  rw [program]
  cases c.kind with
  | create value => exact hpath _
  | update value => exact hpath _
  | delete => exact hpath _
  | get => exact hpath _

end Call

/-- How far a call is that replaces a file. -/
inductive Stage where
  | waiting
  | ready
  | opened (n : Nat)
  | full

def Stage.program (c : Call) : Stage → FileProgram β Result
  | .waiting => c.program base
  | .ready => replace base c.resourceType c.id c.value c.answer
  | .opened n => .fill n (JsonFile.print c.value) (filled base c.resourceType c.id c.answer)
  | .full => .rename (tmpFile base c.resourceType c.id) (resourceFile base c.resourceType c.id)
      (renamed base c.resourceType c.id c.answer)

end

/-! What may be done next. -/

/-- The next call empties, fills or renames a temporary file. -/
def isReplacing {β ρ : Type} : FileProgram β ρ → Bool
  | .truncate _ _ => true
  | .fill _ _ _ => true
  | .rename _ _ _ => true
  | _ => false

/-- The temporary file is open or full. -/
def isHolding {β ρ : Type} : FileProgram β ρ → Bool
  | .fill _ _ _ => true
  | .rename _ _ _ => true
  | _ => false

section
variable {κ β : Type} [DecidableEq κ] [JsonFile β] [PathText]

abbrev Calls (κ β : Type) := Tasks κ (List String) β Result

/-- A temporary file is only emptied while no other call holds it, and a resource only deleted
while no update of it has passed its check; and the check itself runs into no trouble. -/
def CarefulCall (base : String) (cwd : List String) (calls : κ → Call) (s : Calls κ β) (k : κ)
    (fate : Fate (List β)) : Option (FileProgram β Result) → Prop
  | some (.present _ _) => FileProgram.trouble fate = none
  | some (.truncate _ _) =>
    FileProgram.trouble fate = none → ∀ j, j ≠ k → (s.program j).all (fun p =>
      !(isHolding p && decide ((calls j).tmp base cwd = (calls k).tmp base cwd))) = true
  | some (.remove _ _) =>
    FileProgram.trouble fate = none → ∀ j, j ≠ k → (s.program j).all (fun p =>
      !(isReplacing p && (calls j).isUpdate &&
        decide ((calls j).file base cwd = (calls k).file base cwd))) = true
  | _ => True

instance [Fintype κ] (base : String) (cwd : List String) (calls : κ → Call) (s : Calls κ β)
    (k : κ) (fate : Fate (List β)) :
    (p : Option (FileProgram β Result)) → Decidable (CarefulCall base cwd calls s k fate p)
  | some (.present _ _) => inferInstanceAs (Decidable (_ = none))
  | some (.truncate _ _) => inferInstanceAs (Decidable (_ → ∀ j, j ≠ k → _ = true))
  | some (.remove _ _) => inferInstanceAs (Decidable (_ → ∀ j, j ≠ k → _ = true))
  | none => .isTrue trivial
  | some (.done _) => .isTrue trivial
  | some (.read _ _) => .isTrue trivial
  | some (.createDirs _ _) => .isTrue trivial
  | some (.fill _ _ _) => .isTrue trivial
  | some (.rename _ _ _) => .isTrue trivial

def Careful (base : String) (cwd : List String) (calls : κ → Call) (s : Calls κ β)
    (e : κ × Fate (List β)) : Prop :=
  CarefulCall base cwd calls s e.1 e.2 (s.program e.1)

instance [Fintype κ] (base : String) (cwd : List String) (calls : κ → Call) (s : Calls κ β)
    (e : κ × Fate (List β)) : Decidable (Careful base cwd calls s e) :=
  inferInstanceAs (Decidable (CarefulCall base cwd calls s e.1 e.2 (s.program e.1)))

/-! The sequential provider: resources by their place, as texts. -/

abbrev Store (β : Type) := List String → Option (List β)

/-- An error that is no fault of the file system: a name that is rejected, or a file that was
malformed. -/
def Excused (x : List String) (c : Call) (d : Store β) : PluginError → Prop
  | .config _ => ¬c.Accepted
  | .runtime _ => c.kind = .get ∧ ∃ text e, d x = some text ∧ JsonFile.parse text = .error e
  | _ => False

/-- What a reply says and does. Calls with an error change nothing; `smooth` are runs without
trouble in the file system. -/
def Serial (base : String) (cwd : List String) (calls : κ → Call) (smooth : Prop) (d : Store β)
    (e : κ × Result) (d' : Store β) : Prop :=
  let c := calls e.1
  let x := c.file base cwd
  match e.2 with
  | .error (.notFound _) => d x = none ∧ d' = d
  | .error err => (smooth → Excused x c d err) ∧ d' = d
  | .ok answer =>
    match c.kind with
    | .create value =>
      answer = .created c.id ∧ d' = Function.update d x (some (JsonFile.print value))
    | .update value =>
      answer = .done ∧ (d x).isSome ∧ d' = Function.update d x (some (JsonFile.print value))
    | .delete => answer = .done ∧ (d x).isSome ∧ d' = Function.update d x none
    | .get =>
      d' = d ∧
        match d x with
        | none => answer = .found none
        | some text => ∃ value, JsonFile.parse text = .ok value ∧ answer = .found (some value)

/-! The invariant of careful runs. -/

/-- The temporary file is open or full. -/
def Stage.holds : Stage → Bool
  | .opened _ => true
  | .full => true
  | _ => false

/-- Resources are as the replies say, and each temporary file belongs to one call. -/
structure Fits (base : String) (cwd : List String) (calls : κ → Call) (s : Calls κ β)
    (stage : κ → Option Stage) (d : Store β) : Prop where
  program : ∀ k, s.program k = (stage k).map (Stage.program base (calls k))
  store : ∀ x, IsResource base cwd x → s.volume.read x = d x
  replacing : ∀ k st, stage k = some st → st ≠ .waiting →
    (calls k).Accepted ∧ (calls k).writes = true ∧
      ((calls k).isUpdate = true → (d ((calls k).file base cwd)).isSome)
  opened : ∀ k n, stage k = some (.opened n) →
    s.volume.names.lookup ((calls k).tmp base cwd) = some n ∧
      s.volume.read ((calls k).tmp base cwd) = some []
  full : ∀ k, stage k = some .full →
    s.volume.read ((calls k).tmp base cwd) = some (JsonFile.print (calls k).value)
  apart : ∀ j k st st', j ≠ k → stage j = some st → stage k = some st' → st.holds = true →
    st'.holds = true → (calls j).tmp base cwd ≠ (calls k).tmp base cwd

namespace Fits
variable {base : String} {cwd : List String} {calls : κ → Call} {s : Calls κ β}
  {stage : κ → Option Stage} {d d' : Store β}

/-- One call takes a step that leaves what the others rely on. -/
theorem update (h : Fits base cwd calls s stage d) (k : κ) (o : Option Stage)
    {v : Volume (List String) β}
    (hstore : ∀ x, IsResource base cwd x → v.read x = d' x)
    (hothers : ∀ j st, j ≠ k → stage j = some st → st.holds = true →
      v.names.lookup ((calls j).tmp base cwd) = s.volume.names.lookup ((calls j).tmp base cwd) ∧
        v.read ((calls j).tmp base cwd) = s.volume.read ((calls j).tmp base cwd))
    (hthere : ∀ j st, j ≠ k → stage j = some st → st ≠ .waiting → (calls j).isUpdate = true →
      (d' ((calls j).file base cwd)).isSome)
    (hnew : ∀ st, o = some st → st ≠ .waiting →
      (calls k).Accepted ∧ (calls k).writes = true ∧
        ((calls k).isUpdate = true → (d' ((calls k).file base cwd)).isSome))
    (hopened : ∀ n, o = some (.opened n) → v.names.lookup ((calls k).tmp base cwd) = some n ∧
      v.read ((calls k).tmp base cwd) = some [])
    (hfull : o = some .full →
      v.read ((calls k).tmp base cwd) = some (JsonFile.print (calls k).value))
    (hapart : ∀ st j st', o = some st → st.holds = true → j ≠ k → stage j = some st' →
      st'.holds = true → (calls j).tmp base cwd ≠ (calls k).tmp base cwd) :
    Fits base cwd calls ⟨v, Function.update s.program k (o.map (Stage.program base (calls k)))⟩
      (Function.update stage k o) d' where
  program j := by
    by_cases hj : j = k
    · subst hj
      simp
    · dsimp only
      rw [Function.update_of_ne hj, Function.update_of_ne hj, h.program j]
  store := hstore
  replacing j st hj hst := by
    by_cases hjk : j = k
    · subst hjk
      rw [Function.update_self] at hj
      exact hnew st hj hst
    · rw [Function.update_of_ne hjk] at hj
      obtain ⟨haccepted, hwrites, -⟩ := h.replacing j st hj hst
      exact ⟨haccepted, hwrites, hthere j st hjk hj hst⟩
  opened j n hj := by
    by_cases hjk : j = k
    · subst hjk
      rw [Function.update_self] at hj
      exact hopened n hj
    · rw [Function.update_of_ne hjk] at hj
      obtain ⟨hnames, hread⟩ := hothers j _ hjk hj rfl
      rw [hnames, hread]
      exact h.opened j n hj
  full j hj := by
    by_cases hjk : j = k
    · subst hjk
      rw [Function.update_self] at hj
      exact hfull hj
    · rw [Function.update_of_ne hjk] at hj
      rw [(hothers j _ hjk hj rfl).2]
      exact h.full j hj
  apart i j st st' hij hi hj hst hst' := by
    by_cases hik : i = k
    · subst hik
      rw [Function.update_self] at hi
      rw [Function.update_of_ne hij.symm] at hj
      exact (hapart st j st' hi hst hij.symm hj hst').symm
    · rw [Function.update_of_ne hik] at hi
      by_cases hjk : j = k
      · subst hjk
        rw [Function.update_self] at hj
        exact hapart st' i st hj hst' hij hi hst
      · rw [Function.update_of_ne hjk] at hj
        exact h.apart i j st st' hij hi hj hst hst'

/-- A call returns. -/
theorem leave (h : Fits base cwd calls s stage d) (k : κ) {v : Volume (List String) β}
    (hstore : ∀ x, IsResource base cwd x → v.read x = d' x)
    (hothers : ∀ j st, j ≠ k → stage j = some st → st.holds = true →
      v.names.lookup ((calls j).tmp base cwd) = s.volume.names.lookup ((calls j).tmp base cwd) ∧
        v.read ((calls j).tmp base cwd) = s.volume.read ((calls j).tmp base cwd))
    (hthere : ∀ j st, j ≠ k → stage j = some st → st ≠ .waiting → (calls j).isUpdate = true →
      (d' ((calls j).file base cwd)).isSome) :
    Fits base cwd calls ⟨v, Function.update s.program k none⟩ (Function.update stage k none) d' :=
  h.update k none hstore hothers hthere (fun _ hst => nomatch hst) (fun _ hn => nomatch hn)
    (fun hf => nomatch hf) fun _ _ _ hst => nomatch hst

/-- A call returns and nothing changes. -/
theorem returned (h : Fits base cwd calls s stage d) (k : κ) :
    Fits base cwd calls ⟨s.volume, Function.update s.program k none⟩
      (Function.update stage k none) d :=
  h.leave k h.store (fun _ _ _ _ _ => ⟨rfl, rfl⟩)
    fun j st _ hj hst => (h.replacing j st hj hst).2.2

/-- A call goes on to where it replaces the file. -/
theorem made_ready (h : Fits base cwd calls s stage d) (k : κ) (haccepted : (calls k).Accepted)
    (hwrites : (calls k).writes = true)
    (hthere : (calls k).isUpdate = true → (d ((calls k).file base cwd)).isSome) :
    Fits base cwd calls ⟨s.volume, Function.update s.program k
      (some (Stage.ready.program base (calls k)))⟩ (Function.update stage k (some .ready)) d :=
  h.update k (some .ready) h.store (fun _ _ _ _ _ => ⟨rfl, rfl⟩)
    (fun j st _ hj hst => (h.replacing j st hj hst).2.2)
    (fun _ _ _ => ⟨haccepted, hwrites, hthere⟩) (fun _ hn => nomatch hn) (fun hf => nomatch hf)
    fun _ _ _ hst hholds => by
      obtain rfl := Option.some.inj hst
      cases hholds

end Fits

/-! One step. -/

section
variable (base : String) (cwd : List String) (calls : κ → Call)

def InStep (s : Calls κ β) (d : Store β) : Prop :=
  ∃ stage, Fits base cwd calls s stage d

/-- What the replies so far have made of the resources. -/
abbrev History (smooth : Prop) : Store β → List (κ × Result) → Store β → Prop :=
  Sequential.Legal (Serial base cwd calls smooth)

/-- The step stands for what its reply says. -/
def Stands (smooth : Prop) (d : Store β) (r : Calls κ β × List (κ × Result)) : Prop :=
  ∃ d', History base cwd calls smooth d r.2 d' ∧ InStep base cwd calls r.1 d'

end

section
variable {base : String} {cwd : List String} {calls : κ → Call} {s : Calls κ β}
  {stage : κ → Option Stage} {d d' : Store β} {smooth : Prop} {k : κ} {fate : Fate (List β)}

/-- A reply that changes nothing. -/
theorem stands_unchanged (h : Fits base cwd calls s stage d) {r : Result}
    (hr : Serial base cwd calls smooth d (k, r) d) :
    Stands base cwd calls smooth d
      (⟨s.volume, Function.update s.program k none⟩, [(k, r)]) :=
  ⟨d, ⟨d, hr, rfl⟩, _, h.returned k⟩

omit [DecidableEq κ] in
/-- Trouble in the file system is reported, and changes no resource. -/
theorem stands_trouble (hsmooth : smooth → fate = .done) {e : String}
    (ht : FileProgram.trouble fate = some e) {s' : Calls κ β}
    (h : Fits base cwd calls s' stage d) (m : String) :
    Stands base cwd calls smooth d (s', [(k, .error (.runtime m))]) := by
  refine ⟨d, ⟨d, ⟨fun hs => ?_, rfl⟩, rfl⟩, stage, h⟩
  rw [hsmooth hs] at ht
  cases ht

theorem get_step (h : Fits base cwd calls s stage d) (hsmooth : smooth → fate = .done)
    (haccepted : (calls k).Accepted) (hkind : (calls k).kind = .get)
    (hk : s.program k = some (.read (resourceFile base (calls k).resourceType (calls k).id)
      (readResource base (calls k).resourceType (calls k).id))) :
    Stands base cwd calls smooth d (s.step (Paths.resolve cwd) (k, fate)) := by
  have hread : s.volume.read (Paths.resolve cwd
      (resourceFile base (calls k).resourceType (calls k).id)) =
        d ((calls k).file base cwd) := h.store _ ⟨_, haccepted, rfl⟩
  cases ht : FileProgram.trouble fate with
  | some e =>
    rw [Tasks.step_returns hk (by simp only [FileProgram.step, ht]; rfl)]
    exact stands_trouble hsmooth ht (h.returned k) _
  | none =>
    cases hfile : d ((calls k).file base cwd) with
    | none =>
      rw [hfile] at hread
      rw [Tasks.step_returns hk (by simp only [FileProgram.step, ht, hread]; rfl)]
      refine stands_unchanged h ?_
      simp only [Serial, hkind, hfile]
      exact ⟨trivial, trivial⟩
    | some text =>
      rw [hfile] at hread
      cases hparse : JsonFile.parse text with
      | ok value =>
        rw [Tasks.step_returns hk
          (by simp only [FileProgram.step, ht, hread, readResource, hparse]; rfl)]
        refine stands_unchanged h ?_
        simp only [Serial, hkind, hfile]
        exact ⟨trivial, value, hparse, rfl⟩
      | error e =>
        rw [Tasks.step_returns hk
          (by simp only [FileProgram.step, ht, hread, readResource, hparse]; rfl)]
        exact stands_unchanged h ⟨fun _ => ⟨hkind, text, e, hfile, hparse⟩, rfl⟩

theorem delete_step (h : Fits base cwd calls s stage d) (hsmooth : smooth → fate = .done)
    (haccepted : (calls k).Accepted) (hkind : (calls k).kind = .delete)
    (hk : s.program k = some (.remove (resourceFile base (calls k).resourceType (calls k).id)
      (removed base (calls k).resourceType (calls k).id)))
    (hclear : FileProgram.trouble fate = none → ∀ j st, j ≠ k → stage j = some st →
      st ≠ .waiting → (calls j).isUpdate = true →
      (calls j).file base cwd ≠ (calls k).file base cwd) :
    Stands base cwd calls smooth d (s.step (Paths.resolve cwd) (k, fate)) := by
  have hread : s.volume.read (Paths.resolve cwd
      (resourceFile base (calls k).resourceType (calls k).id)) =
        d ((calls k).file base cwd) := h.store _ ⟨_, haccepted, rfl⟩
  cases ht : FileProgram.trouble fate with
  | some e =>
    rw [Tasks.step_returns hk (by simp only [FileProgram.step, ht]; rfl)]
    exact stands_trouble hsmooth ht (h.returned k) _
  | none =>
    cases hfile : d ((calls k).file base cwd) with
    | none =>
      rw [hfile] at hread
      rw [Tasks.step_returns hk (by simp only [FileProgram.step, ht, hread]; rfl)]
      exact stands_unchanged h ⟨hfile, rfl⟩
    | some text =>
      rw [hfile] at hread
      rw [Tasks.step_returns hk (by simp only [FileProgram.step, ht, hread]; rfl)]
      refine ⟨Function.update d ((calls k).file base cwd) none, ⟨_, ?_, rfl⟩, _,
        h.leave k ?_ ?_ ?_⟩
      · simp only [Serial, hkind, hfile]
        exact ⟨trivial, rfl, trivial⟩
      · intro x hx
        rw [Volume.read_remove]
        by_cases he : x = (calls k).file base cwd
        · rw [he, Function.update_self]
          exact if_pos rfl
        · rw [Function.update_of_ne he, ← h.store x hx]
          exact if_neg he
      · intro j st hj hst hholds
        have hst' : st ≠ .waiting := by
          rintro rfl
          cases hholds
        have hne : (calls j).tmp base cwd ≠ (calls k).file base cwd :=
          (Call.file_ne_tmp base cwd haccepted (h.replacing j st hst hst').1).symm
        rw [Volume.remove_names, Volume.read_remove]
        exact ⟨if_neg hne, if_neg hne⟩
      · intro j st hj hst hst' hup
        rw [Function.update_of_ne (hclear ht j st hj hst hst' hup)]
        exact (h.replacing j st hst hst').2.2 hup

theorem update_step (h : Fits base cwd calls s stage d) (haccepted : (calls k).Accepted)
    {value : Json} (hkind : (calls k).kind = .update value)
    (hk : s.program k = some (.present (resourceFile base (calls k).resourceType (calls k).id)
      (replacePresent base (calls k).resourceType (calls k).id value)))
    (ht : FileProgram.trouble fate = none) :
    Stands base cwd calls smooth d (s.step (Paths.resolve cwd) (k, fate)) := by
  have hread : s.volume.read (Paths.resolve cwd
      (resourceFile base (calls k).resourceType (calls k).id)) =
        d ((calls k).file base cwd) := h.store _ ⟨_, haccepted, rfl⟩
  cases hfile : d ((calls k).file base cwd) with
  | none =>
    rw [hfile] at hread
    rw [Tasks.step_returns hk (by simp only [FileProgram.step, ht, hread]; rfl)]
    exact stands_unchanged h ⟨hfile, rfl⟩
  | some text =>
    rw [hfile] at hread
    have hready : replace (β := β) base (calls k).resourceType (calls k).id value .done =
        Stage.ready.program base (calls k) := by
      simp [Stage.program, Call.value, Call.answer, hkind]
    have hstep : s.step (Paths.resolve cwd) (k, fate) = (⟨s.volume, Function.update s.program k
        (some (Stage.ready.program base (calls k)))⟩, []) := by
      rw [← hready]
      refine Tasks.step_goes_on hk ?_ fun result he => nomatch he
      simp only [FileProgram.step, ht, hread]
      rfl
    rw [hstep]
    refine ⟨d, rfl, _, h.made_ready k haccepted ?_ fun _ => by rw [hfile]; rfl⟩
    simp [Call.writes, hkind]

theorem create_step (h : Fits base cwd calls s stage d) (hsmooth : smooth → fate = .done)
    (haccepted : (calls k).Accepted) {value : Json} (hkind : (calls k).kind = .create value)
    (hk : s.program k = some (.createDirs (typeDir base (calls k).resourceType)
      (makeReplace base (calls k).resourceType (calls k).id value (.created (calls k).id)))) :
    Stands base cwd calls smooth d (s.step (Paths.resolve cwd) (k, fate)) := by
  cases ht : FileProgram.trouble fate with
  | some e =>
    rw [Tasks.step_returns hk (by simp only [FileProgram.step, ht]; rfl)]
    exact stands_trouble hsmooth ht (h.returned k) _
  | none =>
    have hready : replace (β := β) base (calls k).resourceType (calls k).id value
        (.created (calls k).id) = Stage.ready.program base (calls k) := by
      simp [Stage.program, Call.value, Call.answer, hkind]
    have hstep : s.step (Paths.resolve cwd) (k, fate) = (⟨s.volume, Function.update s.program k
        (some (Stage.ready.program base (calls k)))⟩, []) := by
      rw [← hready]
      refine Tasks.step_goes_on hk ?_ fun result he => nomatch he
      simp only [FileProgram.step, ht]
      rfl
    rw [hstep]
    refine ⟨d, rfl, _, h.made_ready k haccepted ?_ ?_⟩
    · simp [Call.writes, hkind]
    · simp [Call.isUpdate, hkind]

/-- The temporary file is emptied, which no other call holds. -/
theorem ready_step (h : Fits base cwd calls s stage d) (hsmooth : smooth → fate = .done)
    (hst : stage k = some .ready)
    (hclear : FileProgram.trouble fate = none → ∀ j st, j ≠ k → stage j = some st →
      st.holds = true → (calls j).tmp base cwd ≠ (calls k).tmp base cwd) :
    Stands base cwd calls smooth d (s.step (Paths.resolve cwd) (k, fate)) := by
  have hk : s.program k = some (Stage.ready.program base (calls k)) := by
    rw [h.program, hst, Option.map_some]
  obtain ⟨haccepted, hwrites, hthere⟩ := h.replacing k _ hst (by simp)
  cases ht : FileProgram.trouble fate with
  | some e =>
    rw [Tasks.step_returns hk (by
      simp only [Stage.program, replace, FileProgram.write, FileProgram.step, ht]; rfl)]
    exact stands_trouble hsmooth ht (h.returned k) _
  | none =>
    have hstep : s.step (Paths.resolve cwd) (k, fate) =
        (⟨(s.volume.truncate ((calls k).tmp base cwd)).1, Function.update s.program k
          (some ((Stage.opened (s.volume.truncate ((calls k).tmp base cwd)).2).program base
            (calls k)))⟩, []) := by
      refine Tasks.step_goes_on hk ?_ fun result he => nomatch he
      simp only [Stage.program, replace, FileProgram.write, FileProgram.step, ht]
      rfl
    rw [hstep]
    refine ⟨d, rfl, _, h.update k (some (.opened _)) (fun x hx => ?_) (fun j st hj hstj hholds => ?_)
      (fun j st _ hj hstj => (h.replacing j st hj hstj).2.2)
      (fun _ _ _ => ⟨haccepted, hwrites, hthere⟩) (fun n hn => ?_) (fun hf => nomatch hf)
      fun st j st' _ _ hj hstj hholds => hclear ht j st' hj hstj hholds⟩
    · obtain ⟨c, hc, rfl⟩ := hx
      rw [Volume.read_truncate, if_neg (Call.file_ne_tmp base cwd hc haccepted),
        h.store _ ⟨c, hc, rfl⟩]
    · have hne := hclear ht j st hj hstj hholds
      rw [Volume.truncate_names, if_neg hne, Volume.read_truncate, if_neg hne]
      exact ⟨rfl, rfl⟩
    · obtain rfl := Stage.opened.inj (Option.some.inj hn)
      rw [Volume.truncate_names, if_pos rfl, Volume.read_truncate, if_pos rfl]
      exact ⟨rfl, rfl⟩

omit [DecidableEq κ] in
/-- Filling an open temporary file changes no other file. -/
theorem read_fill_other (h : Fits base cwd calls s stage d) {n : Nat}
    (hst : stage k = some (.opened n)) (text : List β) {x : List String}
    (hx : x ≠ (calls k).tmp base cwd) : (s.volume.fill n text).read x = s.volume.read x := by
  rw [Volume.read_fill, if_neg]
  intro hn
  exact hx (s.volume.single _ _ _ hn (h.opened k n hst).1)

theorem opened_step (h : Fits base cwd calls s stage d) (hsmooth : smooth → fate = .done) {n : Nat}
    (hst : stage k = some (.opened n)) :
    Stands base cwd calls smooth d (s.step (Paths.resolve cwd) (k, fate)) := by
  have hk : s.program k = some ((Stage.opened n).program base (calls k)) := by
    rw [h.program, hst, Option.map_some]
  obtain ⟨haccepted, hwrites, hthere⟩ := h.replacing k _ hst (by simp)
  obtain ⟨hnames, hempty⟩ := h.opened k n hst
  have hstore : ∀ text x, IsResource base cwd x → (s.volume.fill n text).read x = d x := by
    intro text x hx
    obtain ⟨c, hc, rfl⟩ := hx
    rw [read_fill_other h hst text (Call.file_ne_tmp base cwd hc haccepted),
      h.store _ ⟨c, hc, rfl⟩]
  have hothers : ∀ text j st, j ≠ k → stage j = some st → st.holds = true →
      (s.volume.fill n text).names.lookup ((calls j).tmp base cwd) =
          s.volume.names.lookup ((calls j).tmp base cwd) ∧
        (s.volume.fill n text).read ((calls j).tmp base cwd) =
          s.volume.read ((calls j).tmp base cwd) := by
    intro text j st hj hstj hholds
    exact ⟨rfl, read_fill_other h hst text (h.apart j k st _ hj hstj hst hholds rfl)⟩
  have hkept : ∀ j st, j ≠ k → stage j = some st → st ≠ .waiting → (calls j).isUpdate = true →
      (d ((calls j).file base cwd)).isSome := fun j st _ hj hstj => (h.replacing j st hj hstj).2.2
  cases fate with
  | done =>
    have hstep : s.step (Paths.resolve cwd) (k, .done) =
        (⟨s.volume.fill n (JsonFile.print (calls k).value), Function.update s.program k
          (some (Stage.full.program base (calls k)))⟩, []) :=
      Tasks.step_goes_on hk rfl fun result he => nomatch he
    rw [hstep]
    refine ⟨d, rfl, _, h.update k (some .full) (hstore _) (hothers _) hkept
      (fun _ _ _ => ⟨haccepted, hwrites, hthere⟩) (fun _ hn => nomatch hn) (fun _ => ?_)
      fun st j st' _ _ hj hstj hholds => h.apart j k st' _ hj hstj hst hholds rfl⟩
    have hcontents : s.volume.contents n = [] := by
      rw [Volume.read_of_names hnames] at hempty
      exact Option.some.inj hempty
    rw [Volume.read_fill, if_pos hnames, hcontents, List.drop_nil, List.append_nil]
  | refused e =>
    rw [Tasks.step_returns hk rfl]
    exact stands_trouble hsmooth rfl (h.returned k) _
  | torn part e =>
    rw [Tasks.step_returns hk rfl]
    exact stands_trouble hsmooth rfl (h.leave k (hstore part) (hothers part) hkept) _

/-- The new text takes the place of the resource. -/
theorem full_step (h : Fits base cwd calls s stage d) (hsmooth : smooth → fate = .done)
    (hst : stage k = some .full) :
    Stands base cwd calls smooth d (s.step (Paths.resolve cwd) (k, fate)) := by
  have hk : s.program k = some (Stage.full.program base (calls k)) := by
    rw [h.program, hst, Option.map_some]
  obtain ⟨haccepted, hwrites, hthere⟩ := h.replacing k _ hst (by simp)
  have hfull := h.full k hst
  cases ht : FileProgram.trouble fate with
  | some e =>
    rw [Tasks.step_returns hk (by simp only [Stage.program, FileProgram.step, ht]; rfl)]
    exact stands_trouble hsmooth ht (h.returned k) _
  | none =>
    have hread : s.volume.read (Paths.resolve cwd
        (tmpFile base (calls k).resourceType (calls k).id)) =
          some (JsonFile.print (calls k).value) := hfull
    obtain ⟨n, hn, hcontents⟩ := Option.map_eq_some_iff.mp hfull
    rw [Tasks.step_returns hk (by simp only [Stage.program, FileProgram.step, ht, hread]; rfl)]
    refine ⟨Function.update d ((calls k).file base cwd) (some (JsonFile.print (calls k).value)),
      ⟨_, ?_, rfl⟩, _, h.leave k (fun x hx => ?_) (fun j st hj hstj hholds => ?_)
        fun j st hj hstj hw hup => ?_⟩
    · cases hkind : (calls k).kind with
      | create value =>
        simp only [Serial, hkind, Call.value, Call.answer]
        exact ⟨trivial, trivial⟩
      | update value =>
        have hup : (calls k).isUpdate = true := by simp [Call.isUpdate, hkind]
        simp only [Serial, hkind, Call.value, Call.answer]
        exact ⟨trivial, hthere hup, trivial⟩
      | delete => simp [Call.writes, hkind] at hwrites
      | get => simp [Call.writes, hkind] at hwrites
    · have hrename := Volume.read_rename hn ((calls k).file base cwd) x
      rw [hcontents] at hrename
      refine hrename.trans ?_
      by_cases he : x = (calls k).file base cwd
      · rw [if_pos he, he, Function.update_self]
      · obtain ⟨c, hc, rfl⟩ := hx
        rw [if_neg he, if_neg (Call.file_ne_tmp base cwd hc haccepted), Function.update_of_ne he,
          h.store _ ⟨c, hc, rfl⟩]
    · have hw : st ≠ .waiting := by
        rintro rfl
        cases hholds
      have hfile : (calls j).tmp base cwd ≠ (calls k).file base cwd :=
        (Call.file_ne_tmp base cwd haccepted (h.replacing j st hstj hw).1).symm
      have htmp := h.apart j k st _ hj hstj hst hholds rfl
      have hnames := Volume.rename_names hn ((calls k).file base cwd)
        ((calls j).tmp base cwd)
      have hreads := Volume.read_rename hn ((calls k).file base cwd)
        ((calls j).tmp base cwd)
      rw [if_neg hfile, if_neg htmp] at hnames hreads
      exact ⟨hnames, hreads⟩
    · by_cases he : (calls j).file base cwd = (calls k).file base cwd
      · rw [he, Function.update_self]
        rfl
      · rw [Function.update_of_ne he]
        exact (h.replacing j st hstj hw).2.2 hup

/-- Every careful step stands for what its reply says. -/
theorem careful_step {e : κ × Fate (List β)} (hinv : InStep base cwd calls s d)
    (hcare : Careful base cwd calls s e ∧ (smooth → e.2 = .done)) :
    Stands base cwd calls smooth d (s.step (Paths.resolve cwd) e) := by
  obtain ⟨k, fate⟩ := e
  obtain ⟨stage, h⟩ := hinv
  obtain ⟨hcare, hsmooth⟩ := hcare
  have hk := h.program k
  rw [Careful] at hcare
  dsimp only at hcare
  cases hst : stage k with
  | none =>
    rw [hst] at hk
    have hs : s.step (Paths.resolve cwd) (k, fate) = (s, []) := by
      rw [Tasks.step, hk, Option.map_none]
    rw [hs]
    exact ⟨d, rfl, stage, h⟩
  | some st =>
    rw [hst, Option.map_some] at hk
    rw [hk] at hcare
    cases st with
    | waiting =>
      obtain ⟨hrejected, m, hprog⟩ | ⟨haccepted, hprog⟩ := (calls k).program_cases (β := β) base
      · rw [Tasks.step_returns hk (by rw [Stage.program, hprog]; rfl)]
        exact stands_unchanged h ⟨fun _ => hrejected, rfl⟩
      · rw [Stage.program, hprog] at hk hcare
        cases hkind : (calls k).kind with
        | create value =>
          simp only [hkind] at hk
          exact create_step h hsmooth haccepted hkind hk
        | update value =>
          simp only [hkind] at hk hcare
          exact update_step h haccepted hkind hk hcare
        | get =>
          simp only [hkind] at hk
          exact get_step h hsmooth haccepted hkind hk
        | delete =>
          simp only [hkind] at hk hcare
          refine delete_step h hsmooth haccepted hkind hk fun ht j st hj hstj hw hup he => ?_
          have hj' := hcare ht j hj
          rw [h.program, hstj, Option.map_some, Option.all_some, hup, decide_eq_true he] at hj'
          cases st with
          | waiting => exact hw rfl
          | ready => cases hj'
          | opened n => cases hj'
          | full => cases hj'
    | ready =>
      refine ready_step h hsmooth hst fun ht j st hj hstj hholds he => ?_
      have hj' := hcare ht j hj
      rw [h.program, hstj, Option.map_some, Option.all_some, decide_eq_true he] at hj'
      cases st with
      | waiting => cases hholds
      | ready => cases hholds
      | opened n => cases hj'
      | full => cases hj'
    | opened n => exact opened_step h hsmooth hst
    | full => exact full_step h hsmooth hst

end

/-! Runs. -/

section
variable (base : String) (cwd : List String) (calls : κ → Call) (v : Volume (List String) β)
  (es : List (κ × Fate (List β)))

def begun : Calls κ β :=
  .start v fun k => (calls k).program base

def replies : List (κ × Result) :=
  (Machine.exec (Tasks.step (Paths.resolve cwd)) (begun base calls v) es).2

def after : Calls κ β :=
  Machine.run (Tasks.step (Paths.resolve cwd)) (begun base calls v) es

/-- The replies and the resources are those of the calls one after another, in some order; and
without trouble in the file system no call fails. -/
def Linearizes : Prop :=
  ∃ history d, history.Perm (replies base cwd calls v es) ∧
    History base cwd calls (∀ e ∈ es, e.2 = .done) v.read history d ∧
    ∀ x, IsResource base cwd x → (after base cwd calls v es).volume.read x = d x

end

/-- Careful runs linearize, in the order of the replies. -/
theorem linearizes_of_careful {base : String} {cwd : List String} {calls : κ → Call}
    {v : Volume (List String) β} {es : List (κ × Fate (List β))}
    (hcare : Machine.Meets (Tasks.step (Paths.resolve cwd)) (Careful base cwd calls)
      (begun base calls v) es) :
    Linearizes base cwd calls v es := by
  have hmeets : Machine.Meets (Tasks.step (Paths.resolve cwd))
      (fun s e => Careful base cwd calls s e ∧ ((∀ e ∈ es, e.2 = .done) → e.2 = .done))
      (begun base calls v) es :=
    Machine.meets_iff_prefix.mpr fun fs e hp => ⟨Machine.meets_iff_prefix.mp hcare fs e hp,
      fun hs => hs e (hp.subset (List.mem_append_right fs List.mem_cons_self))⟩
  have hstart : InStep base cwd calls (begun base calls v) v.read := by
    refine ⟨fun _ => some .waiting, ⟨fun _ => rfl, fun _ _ => rfl, fun k st hst hw => ?_,
      fun _ _ hst => ?_, fun _ hst => ?_, fun j k st st' _ hst _ hholds => ?_⟩⟩
    · exact absurd (Option.some.inj hst).symm hw
    · cases hst
    · cases hst
    · obtain rfl := Option.some.inj hst
      cases hholds
  obtain ⟨d, hhistory, stage, hfits⟩ := Sequential.exec_legal
    (fun s d e hinv hc => careful_step hinv hc) hstart hmeets
  exact ⟨_, d, List.Perm.refl _, hhistory, hfits.store⟩

end

/-! Runs on files that hold documents. -/

section
attribute [local instance] JsonFile.whole PathText.plain

/-- An update of a resource and another call for it. -/
def withUpdate (kind : Kind) (first : Bool) : Call :=
  ⟨"w", "a", if first then .update (.bool true) else kind⟩

/-- The resource is there. -/
def oneResource : Volume (List String) Json :=
  (Volume.empty.truncate ["r", "w", "a.json"]).1.fill 0 [.null]

/-- The deletion comes after the update. -/
theorem linearizes_update_delete :
    Linearizes "/r" [] (withUpdate .delete) oneResource
      [(true, .done), (true, .done), (true, .done), (true, .done), (false, .done)] :=
  linearizes_of_careful (by decide +kernel)

/-- The update brings the resource back after its deletion; of two updates that share their
temporary file one fails although its value is stored. -/
theorem calls_race :
    ¬ Linearizes "/r" [] (withUpdate .delete) oneResource
      [(true, .done), (false, .done), (true, .done), (true, .done), (true, .done)] ∧
    ¬ Linearizes "/r" [] (withUpdate (.update (.bool false))) oneResource
      [(true, .done), (false, .done), (true, .done), (true, .done), (false, .done),
        (false, .done), (true, .done), (false, .done)] := by
  refine ⟨fun h => ?_, fun h => ?_⟩
  · obtain ⟨history, d, hperm, hhistory, hstore⟩ := h
    have hreplies : replies "/r" [] (withUpdate .delete) oneResource
        [(true, .done), (false, .done), (true, .done), (true, .done), (true, .done)] =
          [(false, .ok .done), (true, .ok .done)] := by decide +kernel
    rw [hreplies] at hperm
    obtain rfl | rfl := List.perm_pair.mp hperm
    · obtain ⟨d₁, ⟨-, -, rfl⟩, d₂, ⟨-, hthere, -⟩, -⟩ := hhistory
      simp [withUpdate, Call.file] at hthere
    · obtain ⟨d₁, -, d₂, ⟨-, -, rfl⟩, rfl⟩ := hhistory
      have hplace : IsResource "/r" [] ((withUpdate .delete false).file "/r" []) :=
        ⟨_, ⟨by decide +kernel, by decide +kernel⟩, rfl⟩
      have hgone := hstore _ hplace
      rw [Function.update_self] at hgone
      exact absurd hgone (by decide +kernel)
  · obtain ⟨history, d, hperm, hhistory, -⟩ := h
    have hreplies : replies "/r" [] (withUpdate (.update (.bool false))) oneResource
        [(true, .done), (false, .done), (true, .done), (true, .done), (false, .done),
          (false, .done), (true, .done), (false, .done)] =
          [(true, .ok .done), (false, .error (.runtime ("rename \"/r/w/a.json.tmp\" → " ++
            "\"/r/w/a.json\": No such file or directory (os error 2)")))] := by decide +kernel
    rw [hreplies] at hperm
    have hget : (withUpdate (.update (.bool false)) false).kind ≠ .get := fun he => nomatch he
    obtain rfl | rfl := List.perm_pair.mp hperm
    · obtain ⟨d₁, -, d₂, ⟨hexcused, -⟩, -⟩ := hhistory
      exact hget (hexcused (by simp)).1
    · obtain ⟨d₁, ⟨hexcused, -⟩, -⟩ := hhistory
      exact hget (hexcused (by simp)).1

end
end SignalK.Resources
