import Mathlib.Data.List.Permutation
import SignalK.Api.ApplicationData
import SignalK.Lib.Sequential

/-! Concurrent writes of one document. Each request reads the file, computes and writes it back in
steps of its own, and nothing keeps another request out in between. -/
namespace SignalK.Api

inductive Change where
  | whole (body : Json)
  | atKey (key : String) (body : Json)

def Change.isKey : Change → Bool
  | .atKey _ _ => true
  | .whole _ => false

structure WriteRequest where
  scope : String
  appId : String
  version : String
  change : Change

section
variable {β : Type} [JsonFile β]

/-- The text that is written for what was found. -/
def Change.contents (change : Change) (found : Except IoError (List β)) : List β :=
  match change with
  | .whole body => JsonFile.print body
  | .atKey key body => JsonFile.print (setNested (rootOf found) (keyParts key) body)

theorem message_ne_completed {status : Nat} (h : status ≠ 200) (text : String) :
    Reply.message status text ≠ Reply.completed :=
  fun he => h (congrArg Reply.status he)

/-- What a read without trouble finds. -/
def foundIn : Option (List β) → Except IoError (List β)
  | some text => .ok text
  | none => .error .notFound

namespace WriteRequest
variable (dataDir : String) (q : WriteRequest)

def file : String := appDataFile dataDir q.scope q.appId q.version

def program : FileProgram β Reply :=
  match q.change with
  | .whole body => setAppData dataDir q.scope q.appId q.version body
  | .atKey key body => setAppDataKey dataDir q.scope q.appId q.version key body

def store (text : List β) : FileProgram β Reply :=
  storeDocument (appDataDir dataDir q.scope q.appId) (q.file dataDir) text

/-- A request is rejected with an error, or takes its steps. -/
theorem program_cases :
    (∃ r, r ≠ Reply.completed ∧ q.program (β := β) dataDir = .done r) ∨
      invalidScope q.scope = none ∧ q.program (β := β) dataDir =
        match q.change with
        | .whole _ => q.store dataDir (q.change.contents (.error .notFound))
        | .atKey _ _ => .read (q.file dataDir) fun found =>
          q.store dataDir (q.change.contents found) := by
  have hbad := message_ne_completed (show 400 ≠ 200 by decide)
  have hscope : ∀ r, invalidScope q.scope = some r → r ≠ Reply.completed := by
    intro r hr
    rw [invalidScope] at hr
    split_ifs at hr
    rw [← Option.some.inj hr]
    exact hbad _
  cases hs : invalidScope q.scope with
  | some r =>
    refine .inl ⟨r, hscope r hs, ?_⟩
    rw [program]
    cases q.change <;> simp [setAppData, setAppDataKey, hs]
  | none =>
    by_cases hnames : traverses q.appId ∨ traverses q.version
    · refine .inl ⟨_, hbad "Invalid appId or version", ?_⟩
      rw [program]
      cases q.change <;> simp [setAppData, setAppDataKey, hs, hnames]
    · refine .inr ⟨rfl, ?_⟩
      rw [program]
      cases hc : q.change <;>
        simp [setAppData, setAppDataKey, hs, hnames, store, file, Change.contents]

end WriteRequest

/-- How far a request is; from its first write on it knows its text. -/
inductive Stage (β : Type) where
  | waiting
  | storing (text : List β)
  | writing (text : List β)
  | filling (n : Nat) (text : List β)

def Stage.program (dataDir : String) (q : WriteRequest) : Stage β → FileProgram β Reply
  | .waiting => q.program dataDir
  | .storing text => q.store dataDir text
  | .writing text => writeDocument (q.file dataDir) text
  | .filling n text => .fill n text writeReply

end

/-! What may be done next. -/

/-- The next call fills a file that is open. -/
def isFilling {β ρ : Type} : FileProgram β ρ → Bool
  | .fill _ _ _ => true
  | _ => false

/-- The next call comes after the document was read. -/
def isStoring {β ρ : Type} : FileProgram β ρ → Bool
  | .createDirs _ _ => true
  | .truncate _ _ => true
  | .fill _ _ _ => true
  | _ => false

section
variable {κ β ι : Type} [DecidableEq κ] [DecidableEq ι] [JsonFile β]

abbrev Writes (κ ι β : Type) [DecidableEq ι] := Tasks κ ι β Reply

/-- The text can be parsed. -/
def readable (text : List β) : Bool :=
  (JsonFile.parse text).toOption.isSome

/-- A file is only emptied while no other request has it open or has read it for a key, and only
read while none has it open; and what is read is there, or there is none. -/
def CarefulCall (locate : String → ι) (requests : κ → WriteRequest) (s : Writes κ ι β) (k : κ)
    (fate : Fate (List β)) : Option (FileProgram β Reply) → Prop
  | some (.truncate _ _) =>
    FileProgram.trouble fate = none → ∀ j, j ≠ k → (s.program j).all (fun p =>
      !isFilling p && !((requests j).change.isKey && isStoring p)) = true
  | some (.read p _) =>
    FileProgram.trouble fate = none ∧ (s.volume.read (locate p)).all readable = true ∧
      ∀ j, (s.program j).all (fun p => !isFilling p) = true
  | _ => True

def Careful (locate : String → ι) (requests : κ → WriteRequest) (s : Writes κ ι β)
    (e : κ × Fate (List β)) : Prop :=
  CarefulCall locate requests s e.1 e.2 (s.program e.1)

instance [Fintype κ] (locate : String → ι) (requests : κ → WriteRequest) (s : Writes κ ι β)
    (k : κ) (fate : Fate (List β)) :
    (p : Option (FileProgram β Reply)) → Decidable (CarefulCall locate requests s k fate p)
  | some (.truncate _ _) => inferInstanceAs (Decidable (_ → ∀ j, j ≠ k → _ = true))
  | some (.read _ _) => inferInstanceAs (Decidable (_ ∧ _ = true ∧ ∀ _, _ = true))
  | none => .isTrue trivial
  | some (.done _) => .isTrue trivial
  | some (.present _ _) => .isTrue trivial
  | some (.createDirs _ _) => .isTrue trivial
  | some (.fill _ _ _) => .isTrue trivial
  | some (.rename _ _ _) => .isTrue trivial
  | some (.remove _ _) => .isTrue trivial

instance [Fintype κ] (locate : String → ι) (requests : κ → WriteRequest) (s : Writes κ ι β)
    (e : κ × Fate (List β)) : Decidable (Careful locate requests s e) :=
  inferInstanceAs (Decidable (CarefulCall locate requests s e.1 e.2 (s.program e.1)))

/-- The document after one more reply, if all requests have been completed. -/
def afterReply (requests : κ → WriteRequest) (a : Option (Option (List β))) (e : κ × Reply) :
    Option (Option (List β)) :=
  if e.2 = .completed then a.map fun c => some ((requests e.1).change.contents (foundIn c))
  else none

/-! The calls of a request. -/

section
variable {dataDir : String} {q : WriteRequest} {s : Writes κ ι β} {k : κ}

theorem step_storing (locate : String → ι) {text : List β} (h : s.program k = some (q.store dataDir text))
    (fate : Fate (List β)) :
    (∃ r, r ≠ Reply.completed ∧ s.step locate (k, fate) =
      (⟨s.volume, Function.update s.program k none⟩, [(k, r)])) ∨
    s.step locate (k, fate) = (⟨s.volume, Function.update s.program k
      (some ((Stage.writing text).program dataDir q))⟩, []) := by
  rw [Tasks.step, h]
  cases ht : FileProgram.trouble fate with
  | some e =>
    refine .inl ⟨.message 500 ("Cannot create directory: " ++ e), ?_, ?_⟩
    · exact message_ne_completed (by decide) _
    · simp only [WriteRequest.store, storeDocument, FileProgram.step, ht, IoError.text]
  | none =>
    refine .inr ?_
    simp only [WriteRequest.store, storeDocument, FileProgram.step, ht]
    rfl

theorem step_writing (locate : String → ι) {text : List β}
    (h : s.program k = some ((Stage.writing text).program dataDir q)) (fate : Fate (List β)) :
    (∃ r, r ≠ Reply.completed ∧ s.step locate (k, fate) =
      (⟨s.volume, Function.update s.program k none⟩, [(k, r)])) ∨
    FileProgram.trouble fate = none ∧ s.step locate (k, fate) =
      (⟨(s.volume.truncate (locate (q.file dataDir))).1, Function.update s.program k
        (some ((Stage.filling (s.volume.truncate (locate (q.file dataDir))).2 text).program
          dataDir q))⟩, []) := by
  rw [Tasks.step, h]
  cases ht : FileProgram.trouble fate with
  | some e =>
    refine .inl ⟨.message 500 ("Write error: " ++ e), ?_, ?_⟩
    · exact message_ne_completed (by decide) _
    · simp only [Stage.program, writeDocument, FileProgram.write, FileProgram.step, ht, writeReply,
        IoError.text]
  | none =>
    refine .inr ⟨rfl, ?_⟩
    simp only [Stage.program, writeDocument, FileProgram.write, FileProgram.step, ht]

theorem step_filling (locate : String → ι) {n : Nat} {text : List β}
    (h : s.program k = some ((Stage.filling n text).program dataDir q)) (fate : Fate (List β)) :
    (∃ r v, r ≠ Reply.completed ∧ s.step locate (k, fate) =
      (⟨v, Function.update s.program k none⟩, [(k, r)])) ∨
    s.step locate (k, fate) = (⟨s.volume.fill n text, Function.update s.program k none⟩,
      [(k, .completed)]) := by
  rw [Tasks.step, h]
  have herror : ∀ e, Reply.message 500 ("Write error: " ++ e) ≠ Reply.completed :=
    fun e => message_ne_completed (by decide) _
  cases fate with
  | done => exact .inr rfl
  | refused e => exact .inl ⟨_, s.volume, herror e, rfl⟩
  | torn part e => exact .inl ⟨_, s.volume.fill n part, herror e, rfl⟩

/-- A read without trouble. -/
theorem step_reading (locate : String → ι) {p : String} {text : Except IoError (List β) → List β}
    (h : s.program k = some (.read p fun found => q.store dataDir (text found)))
    {fate : Fate (List β)} (ht : FileProgram.trouble fate = none) :
    s.step locate (k, fate) = (⟨s.volume, Function.update s.program k
      (some ((Stage.storing (text (foundIn (s.volume.read (locate p))))).program dataDir q))⟩,
      []) := by
  rw [Tasks.step, h]
  cases hr : s.volume.read (locate p) with
  | none =>
    simp only [FileProgram.step, ht, hr]
    rfl
  | some found =>
    simp only [FileProgram.step, ht, hr]
    rfl

end

/-! The invariant of careful runs. -/

namespace Stage

/-- The text of a request is the one for the document as it is. -/
def fits (change : Change) (c : Option (List β)) : Stage β → Prop
  | .waiting => True
  | .storing text => text = change.contents (foundIn c)
  | .writing text => text = change.contents (foundIn c)
  | .filling _ _ => False

/-- The text of a request does not depend on the document. -/
def steady (change : Change) : Stage β → Prop
  | .waiting => True
  | .storing text => ∀ c, text = change.contents (foundIn c)
  | .writing text => ∀ c, text = change.contents (foundIn c)
  | .filling _ _ => False

theorem fits_of_steady {change : Change} {st : Stage β} (h : st.steady change)
    (c : Option (List β)) : st.fits change c := by
  cases st with
  | waiting => trivial
  | storing text => exact h c
  | writing text => exact h c
  | filling n text => exact h

theorem steady_of_whole {change : Change} (hwhole : change.isKey = false) {c : Option (List β)}
    {st : Stage β} (h : st.fits change c) : st.steady change := by
  cases change with
  | atKey key body => cases hwhole
  | whole body =>
    cases st with
    | waiting => trivial
    | storing text => exact fun _ => h
    | writing text => exact fun _ => h
    | filling n text => exact h

/-- The text of a request that does not set a key, or has not got it yet. -/
theorem steady_of_clear {dataDir : String} {q : WriteRequest} {c : Option (List β)} {st : Stage β}
    (hfit : st.fits q.change c)
    (hclear : (!(q.change.isKey && isStoring (st.program dataDir q))) = true) :
    st.steady q.change := by
  cases st with
  | waiting => trivial
  | storing text =>
    refine steady_of_whole ?_ hfit
    simpa [program, WriteRequest.store, storeDocument, isStoring] using hclear
  | writing text =>
    refine steady_of_whole ?_ hfit
    simpa [program, writeDocument, FileProgram.write, isStoring] using hclear
  | filling n text => exact hfit

end Stage

section
variable (dataDir : String) (locate : String → ι) (l : ι) (requests : κ → WriteRequest)

/-- No request has the file open. -/
def Settled (s : Writes κ ι β) (stage : κ → Option (Stage β)) (c : Option (List β)) : Prop :=
  s.volume.read l = c ∧ ∀ k st, stage k = some st → st.fits (requests k).change c

/-- One request has the file open, which it has emptied. -/
def Opened (s : Writes κ ι β) (stage : κ → Option (Stage β)) (c : Option (List β)) (k : κ)
    (n : Nat) : Prop :=
  stage k = some (.filling n ((requests k).change.contents (foundIn c))) ∧
    s.volume.names.lookup l = some n ∧ s.volume.contents n = [] ∧
    ∀ j st, j ≠ k → stage j = some st → st.steady (requests j).change

def InStep (s : Writes κ ι β) (a : Option (Option (List β))) : Prop :=
  ∀ c, a = some c → ∃ stage : κ → Option (Stage β),
    (∀ k, s.program k = (stage k).map (Stage.program dataDir (requests k))) ∧
      (Settled l requests s stage c ∨ ∃ k n, Opened l requests s stage c k n)

end

section
variable {dataDir : String} {locate : String → ι} {l : ι} {requests : κ → WriteRequest}
  {s : Writes κ ι β} {stage : κ → Option (Stage β)} {c : Option (List β)}

omit [DecidableEq ι] in
theorem program_update {programs : κ → Option (FileProgram β Reply)}
    (h : ∀ k, programs k = (stage k).map (Stage.program dataDir (requests k))) (k : κ)
    (o : Option (Stage β)) (j : κ) :
    Function.update programs k (o.map (Stage.program dataDir (requests k))) j =
      (Function.update stage k o j).map (Stage.program dataDir (requests j)) := by
  by_cases hj : j = k
  · subst hj
    rw [Function.update_self, Function.update_self]
  · rw [Function.update_of_ne hj, Function.update_of_ne hj, h j]

/-- A request that knows its text goes on, or fails. -/
theorem inStep_kept (hprogram : ∀ k, s.program k = (stage k).map (Stage.program dataDir (requests k)))
    (hstage : Settled l requests s stage c ∨ ∃ k n, Opened l requests s stage c k n) {j : κ}
    {o : Option (Stage β)}
    (hfits : ∀ st, o = some st → Settled l requests s stage c → st.fits (requests j).change c)
    (hsteady : ∀ st k n, o = some st → Opened l requests s stage c k n →
      j ≠ k ∧ st.steady (requests j).change)
    (hnot : ∀ k n, Opened l requests s stage c k n → j ≠ k) :
    InStep dataDir l requests
      ⟨s.volume, Function.update s.program j (o.map (Stage.program dataDir (requests j)))⟩
      (some c) := by
  intro c' hc
  obtain rfl := Option.some.inj hc
  refine ⟨Function.update stage j o, program_update hprogram j o, ?_⟩
  obtain hset | ⟨k, n, hopen⟩ := hstage
  · refine .inl ⟨hset.1, fun k st hk => ?_⟩
    by_cases hj : k = j
    · subst hj
      rw [Function.update_self] at hk
      exact hfits st hk hset
    · rw [Function.update_of_ne hj] at hk
      exact hset.2 k st hk
  · have hjk := hnot k n hopen
    have hopen' := hopen
    obtain ⟨hk, hname, hempty, hothers⟩ := hopen'
    refine .inr ⟨k, n, ?_, hname, hempty, fun i st hi hst => ?_⟩
    · rw [Function.update_of_ne hjk.symm, hk]
    · by_cases hij : i = j
      · subst hij
        rw [Function.update_self] at hst
        exact (hsteady st k n hst hopen).2
      · rw [Function.update_of_ne hij] at hst
        exact hothers i st hi hst

/-- What the replies so far have made of the document. -/
abbrev History (requests : κ → WriteRequest) :
    Option (Option (List β)) → List (κ × Reply) → Option (Option (List β)) → Prop :=
  Sequential.Legal fun a e b => b = afterReply requests a e

omit [DecidableEq κ] in
/-- After an error nothing is said about the document any more. -/
theorem inStep_failed {a : Option (Option (List β))} {j : κ} {r : Reply} (h : r ≠ .completed)
    (s' : Writes κ ι β) :
    ∃ b, History requests a [(j, r)] b ∧ InStep dataDir l requests s' b :=
  ⟨none, ⟨none, by simp [afterReply, h], rfl⟩, fun c hc => nomatch hc⟩

theorem storing_step
    (hprogram : ∀ k, s.program k = (stage k).map (Stage.program dataDir (requests k)))
    (hstage : Settled l requests s stage c ∨ ∃ k n, Opened l requests s stage c k n) {j : κ}
    {text : List β} (hj : s.program j = some ((requests j).store dataDir text))
    (hfits : Settled l requests s stage c → text = (requests j).change.contents (foundIn c))
    (hsteady : ∀ k n, Opened l requests s stage c k n →
      j ≠ k ∧ ∀ c, text = (requests j).change.contents (foundIn c)) (fate : Fate (List β)) :
    ∃ b, History requests (some c) (s.step locate (j, fate)).2 b ∧
      InStep dataDir l requests (s.step locate (j, fate)).1 b := by
  obtain ⟨r, hr, hs⟩ | hs := step_storing locate hj fate
  · rw [hs]
    exact inStep_failed hr _
  · rw [hs]
    refine ⟨some c, rfl, ?_⟩
    have hkept := inStep_kept hprogram hstage (j := j) (o := some (.writing text))
      (fun st hst hset => Option.some.inj hst ▸ hfits hset)
      (fun st k n hst hopen => ⟨(hsteady k n hopen).1, Option.some.inj hst ▸ (hsteady k n hopen).2⟩)
      fun k n hopen => (hsteady k n hopen).1
    exact hkept

theorem reading_step
    (hprogram : ∀ k, s.program k = (stage k).map (Stage.program dataDir (requests k)))
    (hset : Settled l requests s stage c) {j : κ} {p : String} (hp : locate p = l)
    (hj : s.program j = some (.read p fun found =>
      (requests j).store dataDir ((requests j).change.contents found)))
    {fate : Fate (List β)} (hfate : FileProgram.trouble fate = none) :
    InStep dataDir l requests (s.step locate (j, fate)).1 (some c) := by
  rw [step_reading locate hj hfate, hp, hset.1]
  have hopen : ∀ k n, ¬Opened l requests s stage c k n :=
    fun k n hopen => hset.2 k _ hopen.1
  exact inStep_kept hprogram (.inl hset) (o := some (.storing _))
    (fun st hst _ => Option.some.inj hst ▸ rfl) (fun st k n _ ho => absurd ho (hopen k n))
    fun k n ho => absurd ho (hopen k n)

/-- The file is emptied, and all texts that are ready do not depend on what it was. -/
theorem writing_step
    (hprogram : ∀ k, s.program k = (stage k).map (Stage.program dataDir (requests k)))
    (hset : Settled l requests s stage c) {j : κ} {text : List β}
    (hp : locate ((requests j).file dataDir) = l) (hj : stage j = some (.writing text))
    (hothers : ∀ k st, k ≠ j → stage k = some st → st.steady (requests k).change)
    (fate : Fate (List β)) :
    ∃ b, History requests (some c) (s.step locate (j, fate)).2 b ∧
      InStep dataDir l requests (s.step locate (j, fate)).1 b := by
  have hrun : s.program j = some ((Stage.writing text).program dataDir (requests j)) := by
    rw [hprogram, hj, Option.map_some]
  have htext : text = (requests j).change.contents (foundIn c) := hset.2 j _ hj
  obtain ⟨r, hr, hs⟩ | ⟨-, hs⟩ := step_writing locate hrun fate
  · rw [hs]
    exact inStep_failed hr _
  · rw [hs, hp]
    refine ⟨some c, rfl, fun c' hc => ?_⟩
    obtain rfl := Option.some.inj hc
    refine ⟨_, program_update hprogram j (some (.filling (s.volume.truncate l).2 text)),
      .inr ⟨j, (s.volume.truncate l).2, ?_, ?_, ?_, fun k st hk hst => ?_⟩⟩
    · rw [Function.update_self, htext]
    · rw [Volume.truncate_names, if_pos rfl]
    · rw [Volume.truncate_contents, Function.update_self]
    · rw [Function.update_of_ne hk] at hst
      exact hothers k st hk hst

/-- The file is filled, and the request is completed. -/
theorem filling_step
    (hprogram : ∀ k, s.program k = (stage k).map (Stage.program dataDir (requests k))) {j : κ}
    {n : Nat} (hopen : Opened l requests s stage c j n) (fate : Fate (List β)) :
    ∃ b, History requests (some c) (s.step locate (j, fate)).2 b ∧
      InStep dataDir l requests (s.step locate (j, fate)).1 b := by
  obtain ⟨hj, hname, hempty, hothers⟩ := hopen
  have hrun : s.program j = some ((Stage.filling n
      ((requests j).change.contents (foundIn c))).program dataDir (requests j)) := by
    rw [hprogram, hj, Option.map_some]
  obtain ⟨r, v, hr, hs⟩ | hs := step_filling locate hrun fate
  · rw [hs]
    exact inStep_failed hr _
  · rw [hs]
    refine ⟨some (some ((requests j).change.contents (foundIn c))),
      ⟨_, by simp [afterReply], rfl⟩, fun c' hc => ?_⟩
    obtain rfl := Option.some.inj hc
    refine ⟨_, program_update hprogram j none, .inl ⟨?_, fun k st hst => ?_⟩⟩
    · rw [Volume.read_fill, if_pos hname, hempty, List.drop_nil, List.append_nil]
    · by_cases hk : k = j
      · subst hk
        rw [Function.update_self] at hst
        cases hst
      · rw [Function.update_of_ne hk] at hst
        exact Stage.fits_of_steady (hothers k st hk hst) _

omit [DecidableEq κ] in
theorem not_opened (hprogram : ∀ k, s.program k = (stage k).map (Stage.program dataDir (requests k)))
    (h : ∀ k, (s.program k).all (fun p => !isFilling p) = true) (k : κ) (n : Nat) :
    ¬Opened l requests s stage c k n := by
  intro hopen
  have hk := h k
  rw [hprogram, hopen.1] at hk
  cases hk

/-- A request begins: it is refused, it has its text, or it reads the document. -/
theorem waiting_step
    (hprogram : ∀ k, s.program k = (stage k).map (Stage.program dataDir (requests k)))
    (hstage : Settled l requests s stage c ∨ ∃ k n, Opened l requests s stage c k n) {j : κ}
    (hone : locate ((requests j).file dataDir) = l) (hj : stage j = some .waiting)
    {fate : Fate (List β)} (hcare : Careful locate requests s (j, fate)) :
    ∃ b, History requests (some c) (s.step locate (j, fate)).2 b ∧
      InStep dataDir l requests (s.step locate (j, fate)).1 b := by
  have hrun : s.program j = some ((requests j).program dataDir) := by
    rw [hprogram, hj, Option.map_some, Stage.program]
  have hne : ∀ k n, Opened l requests s stage c k n → j ≠ k := by
    rintro k n hopen rfl
    cases hj.symm.trans hopen.1
  rw [Careful] at hcare
  dsimp only at hcare
  rw [hrun] at hcare
  obtain ⟨r, hr, hprog⟩ | ⟨-, hprog⟩ := (requests j).program_cases (β := β) dataDir
  · have hs : s.step locate (j, fate) =
        (⟨s.volume, Function.update s.program j none⟩, [(j, r)]) := by
      rw [Tasks.step, hrun, hprog]
      rfl
    rw [hs]
    exact inStep_failed hr _
  · rw [hprog] at hrun hcare
    cases hc : (requests j).change with
    | whole body =>
      simp only [hc] at hrun
      refine storing_step hprogram hstage hrun (fun _ => ?_) (fun k n ho => ⟨hne k n ho, ?_⟩) fate
      · rw [hc]
        rfl
      · intro _
        rw [hc]
        rfl
    | atKey key body =>
      simp only [hc] at hrun hcare
      rw [← hc] at hrun
      obtain ⟨hfate, -, hnone⟩ := hcare
      obtain hset | ⟨k, n, hopen⟩ := hstage
      · refine ⟨some c, ?_, reading_step hprogram hset hone hrun hfate⟩
        rw [step_reading locate hrun hfate]
        rfl
      · exact absurd hopen (not_opened hprogram hnone k n)

/-- The file is opened while nobody else has it open or holds a text that depends on it. -/
theorem opening_step
    (hprogram : ∀ k, s.program k = (stage k).map (Stage.program dataDir (requests k)))
    (hstage : Settled l requests s stage c ∨ ∃ k n, Opened l requests s stage c k n) {j : κ}
    (hone : locate ((requests j).file dataDir) = l) {text : List β}
    (hj : stage j = some (.writing text)) (fate : Fate (List β))
    (hclear : ∀ k, k ≠ j → (s.program k).all (fun p =>
      !isFilling p && !((requests k).change.isKey && isStoring p)) = true) :
    ∃ b, History requests (some c) (s.step locate (j, fate)).2 b ∧
      InStep dataDir l requests (s.step locate (j, fate)).1 b := by
  obtain hset | ⟨k, n, hopen⟩ := hstage
  · refine writing_step hprogram hset hone hj (fun k st hk hst => ?_) fate
    have hk' := hclear k hk
    rw [hprogram, hst, Option.map_some, Option.all_some, Bool.and_eq_true] at hk'
    exact Stage.steady_of_clear (hset.2 k st hst) hk'.2
  · have hne : k ≠ j := by
      rintro rfl
      cases hj.symm.trans hopen.1
    have hk' := hclear k hne
    rw [hprogram, hopen.1] at hk'
    cases hk'

/-- Every careful step keeps the document in step with the replies. -/
theorem careful_step (hone : ∀ k, locate ((requests k).file dataDir) = l) {s : Writes κ ι β}
    {a : Option (Option (List β))} {e : κ × Fate (List β)} (hinv : InStep dataDir l requests s a)
    (hcare : Careful locate requests s e) :
    ∃ b, History requests a (s.step locate e).2 b ∧
      InStep dataDir l requests (s.step locate e).1 b := by
  obtain ⟨j, fate⟩ := e
  cases a with
  | none =>
    obtain ⟨-, hs⟩ | ⟨-, v, rest, -, -, ⟨r, -, hs⟩ | ⟨-, hs⟩⟩ := Tasks.step_cases locate s j fate
    · exact ⟨none, by rw [hs]; rfl, fun c hc => nomatch hc⟩
    · exact ⟨none, by rw [hs]; exact ⟨none, by simp [afterReply], rfl⟩, fun c hc => nomatch hc⟩
    · exact ⟨none, by rw [hs]; rfl, fun c hc => nomatch hc⟩
  | some c =>
    obtain ⟨stage, hprogram, hstage⟩ := hinv c rfl
    have hj := hprogram j
    cases hst : stage j with
    | none =>
      rw [hst] at hj
      have hs : s.step locate (j, fate) = (s, []) := by
        rw [Tasks.step, hj, Option.map_none]
      rw [hs]
      exact ⟨some c, rfl, hinv⟩
    | some st =>
      rw [hst, Option.map_some] at hj
      cases st with
      | waiting => exact waiting_step hprogram hstage (hone j) hst hcare
      | storing text =>
        refine storing_step hprogram hstage hj (fun hset => hset.2 j _ hst) (fun k n hopen => ?_) fate
        have hne : j ≠ k := by
          rintro rfl
          cases hst.symm.trans hopen.1
        exact ⟨hne, hopen.2.2.2 j _ hne hst⟩
      | writing text =>
        rw [Careful] at hcare
        dsimp only at hcare
        rw [hj] at hcare
        cases hfate : FileProgram.trouble fate with
        | some e =>
          obtain ⟨r, hr, hs⟩ | ⟨hnone, -⟩ := step_writing locate hj fate
          · rw [hs]
            exact inStep_failed hr _
          · rw [hfate] at hnone
            cases hnone
        | none => exact opening_step hprogram hstage (hone j) hst fate (hcare hfate)
      | filling n text =>
        obtain hset | ⟨k, m, hopen⟩ := hstage
        · exact (hset.2 j _ hst).elim
        · by_cases hk : j = k
          · subst hk
            obtain ⟨rfl, -⟩ := Stage.filling.inj (Option.some.inj (hst.symm.trans hopen.1))
            exact filling_step hprogram hopen fate
          · exact (hopen.2.2.2 j _ hk hst).elim

end

/-! Runs. -/

section
variable (dataDir : String) (locate : String → ι) (l : ι) (requests : κ → WriteRequest)
  (v : Volume ι β) (es : List (κ × Fate (List β)))

def begun : Writes κ ι β :=
  .start v fun k => (requests k).program dataDir

def replies : List (κ × Reply) :=
  (Machine.exec (Tasks.step locate) (begun dataDir requests v) es).2

def after : Writes κ ι β :=
  Machine.run (Tasks.step locate) (begun dataDir requests v) es

/-- The next call is a read that does not get the document that is there. -/
def Unread (s : Writes κ ι β) (e : κ × Fate (List β)) : Prop :=
  ∃ p next, s.program e.1 = some (.read p next) ∧
    ¬(FileProgram.trouble e.2 = none ∧ (s.volume.read (locate p)).all readable = true)

/-- What a client reads under a key of the document. -/
def valueAt (q : WriteRequest) (v : Volume ι β) (key : String) : Option Json :=
  ((getAppDataKey dataDir q.scope q.appId q.version key).alone locate v).2.value

/-- Concurrent writes lose nothing. -/
structure Kept : Prop where
  /-- once all are completed, they might have come one after another -/
  serial : (∀ k, (after dataDir locate requests v es).program k = none) →
    (∀ e ∈ replies dataDir locate requests v es, e.2 = .completed) →
    ∃ order : List κ, order.Nodup ∧ (∀ k, k ∈ order) ∧
      (after dataDir locate requests v es).volume.read l =
        order.foldl (fun c k => some ((requests k).change.contents (foundIn c))) (v.read l)
  /-- a document that was not read is not replaced -/
  unread : ∀ fs e, fs ++ [e] <+: es → Unread locate (after dataDir locate requests v fs) e →
    (e.1, .completed) ∉ replies dataDir locate requests v es
  /-- a request for a key, alone, sets this key -/
  lone : ∀ k key body, (∀ j, j = k) → (requests k).change = .atKey key body →
    (k, .completed) ∈ replies dataDir locate requests v es →
    valueAt dataDir locate (requests k) (after dataDir locate requests v es).volume key =
        some body ∧
      ∀ other, Nested.Unrelated (keyParts key) (keyParts other) →
        valueAt dataDir locate (requests k) (after dataDir locate requests v es).volume other =
          valueAt dataDir locate (requests k) v other

end

section
variable {dataDir : String} {locate : String → ι} {l : ι} {requests : κ → WriteRequest}
  {v : Volume ι β} {es : List (κ × Fate (List β))}

theorem valueAt_eq {q : WriteRequest} (h : invalidScope q.scope = none) (v : Volume ι β)
    (key : String) : valueAt dataDir locate q v key =
      (v.read (locate (q.file dataDir))).bind fun text =>
        (JsonFile.parse text).toOption.bind fun root => traverseJson root (keyParts key) := by
  rw [valueAt, getAppDataKey, h]
  simp only [FileProgram.alone, WriteRequest.file]
  cases v.read (locate (appDataFile dataDir q.scope q.appId q.version)) with
  | none => rfl
  | some text =>
    dsimp only
    rw [Option.bind_some]
    cases JsonFile.parse text with
    | error e => rfl
    | ok root =>
      have hok : (Except.ok root : Except String Json).toOption = some root := rfl
      dsimp only
      rw [hok, Option.bind_some]
      cases traverseJson root (keyParts key) <;> rfl

omit [DecidableEq κ] in
theorem history_completed {a b : Option (Option (List β))} {c : Option (List β)}
    {os : List (κ × Reply)} (ha : a = some c) (h : History requests a os b)
    (hall : ∀ e ∈ os, e.2 = .completed) :
    b = some ((os.map Prod.fst).foldl
      (fun c k => some ((requests k).change.contents (foundIn c))) c) := by
  induction os generalizing a c with
  | nil =>
    have hb : b = a := h
    rw [hb, ha]
    rfl
  | cons e os ih =>
    obtain ⟨a', ha', h⟩ := h
    rw [afterReply, if_pos (hall e List.mem_cons_self), ha, Option.map_some] at ha'
    exact ih ha' h fun e' he' => hall e' (List.mem_cons_of_mem e he')

/-- A careful run is in step with its replies. -/
theorem careful_history (hone : ∀ k, locate ((requests k).file dataDir) = l)
    (hcare : Machine.Meets (Tasks.step locate) (Careful locate requests)
      (begun dataDir requests v) es) :
    ∃ b, History requests (some (v.read l)) (replies dataDir locate requests v es) b ∧
      InStep dataDir l requests (after dataDir locate requests v es) b := by
  refine Sequential.exec_legal (fun s a e hinv hc => careful_step hone hinv hc) ?_ hcare
  intro c hc
  obtain rfl := Option.some.inj hc
  exact ⟨fun _ => some .waiting, fun _ => rfl, .inl ⟨rfl, fun k st hst => Option.some.inj hst ▸ trivial⟩⟩

/-- Requests that are rejected are not completed. -/
theorem accepted {k : κ} (h : (k, .completed) ∈ replies dataDir locate requests v es) :
    invalidScope (requests k).scope = none := by
  by_contra hscope
  obtain ⟨r, hr, hprog⟩ | ⟨hok, -⟩ := (requests k).program_cases (β := β) dataDir
  · have hstep : ∀ (s : Writes κ ι β) (out : List (κ × Reply)) (e : κ × Fate (List β)),
        ((k, .completed) ∉ out ∧ (s.program k = none ∨ s.program k = some (.done r))) → True →
        (k, .completed) ∉ out ++ (s.step locate e).2 ∧
          ((s.step locate e).1.program k = none ∨
            (s.step locate e).1.program k = some (.done r)) := by
      rintro s out ⟨j, fate⟩ ⟨hout, hk⟩ -
      by_cases hj : j = k
      · subst hj
        obtain hnone | hdone := hk
        · have hs : s.step locate (j, fate) = (s, []) := by rw [Tasks.step, hnone]
          rw [hs, List.append_nil]
          exact ⟨hout, .inl hnone⟩
        · have hs : s.step locate (j, fate) =
              (⟨s.volume, Function.update s.program j none⟩, [(j, r)]) := by
            rw [Tasks.step, hdone]
            rfl
          rw [hs]
          simp [hout, hr.symm]
      · obtain ⟨-, hs⟩ | ⟨p, w, rest, -, -, ⟨result, -, hs⟩ | ⟨-, hs⟩⟩ :=
          Tasks.step_cases locate s j fate
        · rw [hs, List.append_nil]
          exact ⟨hout, hk⟩
        · rw [hs]
          simp [hout, hk, Ne.symm hj]
        · rw [hs, List.append_nil]
          simp [hout, Function.update_of_ne (Ne.symm hj), hk]
    have hstart : (k, Reply.completed) ∉ ([] : List (κ × Reply)) ∧
        ((begun dataDir requests v).program k = none ∨
          (begun dataDir requests v).program k = some (.done r)) :=
      ⟨List.not_mem_nil, .inr (congrArg some hprog)⟩
    have hinv := Machine.exec_inv hstep hstart (Machine.meets_true (Tasks.step locate) _ es)
    rw [List.nil_append] at hinv
    exact hinv.1 h
  · exact hscope hok

omit [DecidableEq κ] in
/-- The replies of a single request. -/
theorem replies_single {out : List (κ × Reply)} {k : κ} {r : Reply} (hk : ∀ j, j = k)
    (hn : (out.map Prod.fst).Nodup) (h : (k, r) ∈ out) : out = [(k, r)] := by
  cases out with
  | nil => cases h
  | cons e out =>
    cases out with
    | nil => rw [List.mem_singleton.mp h]
    | cons e' out =>
      have hne := (List.nodup_cons.mp hn).1
      rw [hk e.1, List.map_cons, hk e'.1] at hne
      exact absurd List.mem_cons_self hne

omit [DecidableEq κ] [DecidableEq ι] in
/-- A document that was printed is read back with the key set and the others as they were. -/
theorem rereads {key : String} {body : Json} {found : Option (List β)}
    (hbody : body.reparsed = body)
    (hroot : (rootOf (foundIn found)).reparsed = rootOf (foundIn found))
    (hdepth : (keyParts key).length + body.depth < 128) :
    JsonFile.parse ((Change.atKey key body).contents (foundIn found)) =
      .ok (setNested (rootOf (foundIn found)) (keyParts key) body) := by
  have hold : (rootOf (foundIn found)).depth < 128 := by
    cases found with
    | none => simp [foundIn, rootOf, Json.depth, Json.depthFields]
    | some text =>
      cases hp : JsonFile.parse text with
      | error e => simp [foundIn, rootOf, hp, Json.depth, Json.depthFields]
      | ok root =>
        have := JsonFile.parse_depth text root hp
        simpa [foundIn, rootOf, hp] using this
  have hnew := depth_setNested (rootOf (foundIn found)) (keyParts key) body
  rw [Change.contents, JsonFile.parse_print _ (by omega), setNested_reparsed hroot hbody]

omit [DecidableEq κ] [DecidableEq ι] in
/-- What is found under a key is what is under it in the document that a new key is set in. -/
theorem traverse_found (found : Option (List β)) {parts : List String} (h : parts ≠ []) :
    (found.bind fun text => (JsonFile.parse text).toOption.bind fun root =>
      traverseJson root parts) = traverseJson (rootOf (foundIn found)) parts := by
  obtain ⟨head, tail, rfl⟩ := List.exists_cons_of_ne_nil h
  have hempty : traverseJson (.object []) (head :: tail) = none := by
    simp [traverseJson]
  cases found with
  | none => exact hempty.symm
  | some text =>
    cases hp : JsonFile.parse text with
    | error e =>
      rw [Option.bind_some, hp, foundIn, rootOf, hp]
      exact hempty.symm
    | ok root =>
      rw [Option.bind_some, hp, foundIn, rootOf, hp]
      rfl

/-- In a run of careful steps nothing is lost; and a request for a key, alone, sets it as long as
its value and the document read back from their text. -/
theorem kept_of_careful (hone : ∀ k, locate ((requests k).file dataDir) = l)
    (hcare : Machine.Meets (Tasks.step locate) (Careful locate requests)
      (begun dataDir requests v) es)
    (hlone : ∀ k key body, (∀ j, j = k) → (requests k).change = .atKey key body →
      body.reparsed = body ∧
        (rootOf (foundIn (v.read l))).reparsed = rootOf (foundIn (v.read l)) ∧
        (keyParts key).length + body.depth < 128) :
    Kept dataDir locate l requests v es := by
  obtain ⟨b, hhistory, hstep⟩ := careful_history hone hcare
  have hreplies : ((replies dataDir locate requests v es).map Prod.fst).Nodup ∧
      ∀ k, k ∈ (replies dataDir locate requests v es).map Prod.fst ↔
        (after dataDir locate requests v es).program k = none :=
    Tasks.run_replies locate v (fun k => (requests k).program dataDir) es
  obtain ⟨hnodup, hmem⟩ := hreplies
  have hread : ∀ c, b = some c →
      (∀ k, (after dataDir locate requests v es).program k = none) →
      (after dataDir locate requests v es).volume.read l = c := by
    intro c hb hdone
    obtain ⟨stage, hprogram, hset | ⟨k, n, hopen⟩⟩ := hstep c hb
    · exact hset.1
    · have hk := hprogram k
      rw [hdone k, hopen.1] at hk
      cases hk
  refine ⟨fun hdone hall => ?_, fun fs e hp hunread => ?_, fun k key body hk hchange hreply => ?_⟩
  · have hb := history_completed rfl hhistory hall
    exact ⟨_, hnodup, fun k => (hmem k).mpr (hdone k), hread _ hb hdone⟩
  · obtain ⟨p, next, hprog, hnot⟩ := hunread
    have hc := Machine.meets_iff_prefix.mp hcare fs e hp
    rw [after] at hprog hnot
    rw [Careful, hprog] at hc
    exact absurd ⟨hc.1, hc.2.1⟩ hnot
  · obtain ⟨hbody, hroot, hdepth⟩ := hlone k key body hk hchange
    have hscope := accepted hreply
    have hsingle := replies_single hk hnodup hreply
    have hall : ∀ e ∈ replies dataDir locate requests v es, e.2 = .completed := by
      intro e he
      rw [hsingle] at he
      rw [List.mem_singleton.mp he]
    have hdone : ∀ j, (after dataDir locate requests v es).program j = none := by
      intro j
      rw [hk j]
      exact (hmem k).mp (List.mem_map_of_mem hreply)
    have hb := history_completed rfl hhistory hall
    have hfile := hread _ hb hdone
    have horder : (replies dataDir locate requests v es).map Prod.fst = [k] :=
      congrArg (List.map Prod.fst) hsingle
    rw [horder, List.foldl_cons, List.foldl_nil, hchange] at hfile
    have hvalue : ∀ other,
        valueAt dataDir locate (requests k) (after dataDir locate requests v es).volume other =
          traverseJson (setNested (rootOf (foundIn (v.read l))) (keyParts key) body)
            (keyParts other) := by
      intro other
      rw [valueAt_eq hscope, hone k, hfile, Option.bind_some, rereads hbody hroot hdepth]
      rfl
    refine ⟨?_, fun other hunrelated => ?_⟩
    · rw [hvalue, traverse_setNested_self]
    · have hother : keyParts other ≠ [] := by
        intro he
        exact hunrelated.2 (he ▸ List.nil_prefix)
      rw [hvalue, traverse_setNested_of_unrelated hunrelated, valueAt_eq hscope, hone k,
        traverse_found _ hother]

end

end
/-! Runs on files that hold documents. -/

section
attribute [local instance] JsonFile.whole

/-- Two clients set keys of their own. -/
def twoKeys (first : Bool) : WriteRequest :=
  ⟨"global", "app", "1", .atKey (if first then "a" else "b") (.bool first)⟩

/-- The file of these requests. -/
def theFile : String := appDataFile "/d" "global" "app" "1"

def emptyDocument : Volume String Json :=
  (Volume.empty.truncate theFile).1.fill 0 [.object []]

/-- One request after the other. -/
theorem kept_in_turn :
    Kept "/d" id theFile twoKeys emptyDocument
      [(true, .done), (true, .done), (true, .done), (true, .done),
        (false, .done), (false, .done), (false, .done), (false, .done)] := by
  refine kept_of_careful (fun k => ?_) (by decide +kernel) fun k key body hk => ?_
  · cases k <;> rfl
  · exact absurd ((hk true).trans (hk false).symm) (by decide)

/-- Both requests read before one of them writes: the first key is lost. A file that cannot be
parsed is replaced by the new key alone. -/
theorem writes_lost :
    ¬ Kept "/d" id theFile twoKeys emptyDocument
      [(true, .done), (false, .done), (true, .done), (true, .done), (true, .done),
        (false, .done), (false, .done), (false, .done)] ∧
    ¬ Kept "/d" id theFile (fun _ : Unit => twoKeys true)
      ((Volume.empty.truncate theFile).1.fill 0 [Json.object [], Json.null])
      [((), .done), ((), .done), ((), .done), ((), .done)] := by
  refine ⟨fun h => ?_, fun h => ?_⟩
  · obtain ⟨order, hn, hall, hfile⟩ := h.serial (by decide +kernel) (by decide +kernel)
    have hperm : order.Perm [true, false] :=
      (List.perm_ext_iff_of_nodup hn (by decide)).mpr fun k => by simp [hall k]
    obtain rfl | rfl := List.perm_pair.mp hperm
    · exact absurd hfile (by decide +kernel)
    · exact absurd hfile (by decide +kernel)
  · exact h.unread [] ((), .done) (List.prefix_append _ _) ⟨_, _, rfl, by decide +kernel⟩ (by decide +kernel)

end
end SignalK.Api
