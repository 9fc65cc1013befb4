import Mathlib.Data.Int.Order.Basic
import SignalK.Lib.Transactions

/-! Migration of the shared database, by any number of processes that open it, while others
already write to its tables. -/
namespace SignalK.Migration
open Transactions (Statement Program runAll)

variable {Row : Type}

structure Database (Row : Type) where
  /-- the rows of `schema_version`, if there is such a table -/
  versions : Option (List Int)
  tables : List (String × List Row)
  indexes : List String

def Database.empty : Database Row := ⟨none, [], []⟩

/-! Statements. -/

def createVersionTable : Statement (Database Row) := fun d =>
  some { d with versions := some (d.versions.getD []) }

/-- `CREATE TABLE IF NOT EXISTS` -/
def createTable (name : String) : Statement (Database Row) := fun d =>
  some (if name ∈ d.tables.map Prod.fst then d else { d with tables := d.tables ++ [(name, [])] })

/-- `CREATE INDEX IF NOT EXISTS` -/
def createIndex (name table : String) : Statement (Database Row) := fun d =>
  if table ∈ d.tables.map Prod.fst then
    some (if name ∈ d.indexes then d else { d with indexes := d.indexes ++ [name] })
  else none

/-- The version is the primary key. -/
def insertVersion (version : Int) : Statement (Database Row) := fun d =>
  d.versions.bind fun versions =>
    if version ∈ versions then none else some { d with versions := some (versions ++ [version]) }

def Database.mapRows (d : Database Row) (table : String) (f : List Row → List Row) :
    Database Row :=
  { d with tables := d.tables.map fun e => (e.1, if e.1 = table then f e.2 else e.2) }

/-- Any change of the rows of a table. -/
def writeRows (table : String) (f : List Row → List Row) : Statement (Database Row) := fun d =>
  if table ∈ d.tables.map Prod.fst then some (d.mapRows table f) else none

/-! `migrate` -/

/-- There is none without the table. -/
def currentVersion (d : Database Row) : Option Int :=
  d.versions.map fun versions => versions.max?.getD 0

def migrateV1 : List (Statement (Database Row)) :=
  [createTable "history_raw", createIndex "idx_raw_ctx_path_ts" "history_raw",
    createTable "history_daily", createTable "track_points",
    createIndex "idx_track_ctx_ts" "track_points", createTable "config", insertVersion 1]

def migrate : Program (Database Row) Unit :=
  .execute createVersionTable (.read fun d =>
    match currentVersion d with
    | none => .fail
    | some current => if current < 1 then .transaction migrateV1 (.done ()) else .done ())

/-- A connection that opens the database, or one that is already at work. -/
inductive Client (Row : Type) where
  | opening
  | writing (writes : List (String × (List Row → List Row)))

def Client.program : Client Row → Program (Database Row) Unit
  | opening => migrate
  | writing writes => writes.foldr (fun w next => .execute (writeRows w.1 w.2) next) (.done ())

/-! What the database can look like. -/

def tableNames : List String := ["history_raw", "history_daily", "track_points", "config"]

def indexNames : List String := ["idx_raw_ctx_path_ts", "idx_track_ctx_ts"]

def Untouched (d : Database Row) : Prop :=
  d.tables = [] ∧ d.indexes = [] ∧ (d.versions = none ∨ d.versions = some [])

/-- Version 1 is recorded once, and everything that it has is there. -/
def Complete (d : Database Row) : Prop :=
  d.versions = some [1] ∧ d.tables.map Prod.fst = tableNames ∧ d.indexes = indexNames

def Whole (d : Database Row) : Prop := Untouched d ∨ Complete d

/-- Versions are never lost, and a migration leaves the rows alone. -/
def Respects (client : Client Row) (d d' : Database Row) : Prop :=
  (Complete d → Complete d') ∧ (d.versions.isSome → d'.versions.isSome) ∧
    (client = .opening → ∀ e ∈ d.tables, e ∈ d'.tables)

/-- A migration that has returned is complete. -/
def Migrated (client : Client Row) (_ : Unit) (d : Database Row) : Prop :=
  client = .opening → Complete d

theorem runAll_cons (s : Statement (Database Row)) (body : List (Statement (Database Row)))
    (d : Database Row) : runAll (s :: body) d = (s d).bind (runAll body) :=
  rfl

theorem migrateV1_untouched :
    runAll migrateV1 (⟨some [], [], []⟩ : Database Row) =
      some ⟨some [1], tableNames.map fun name => (name, []), indexNames⟩ := by
  simp [migrateV1, createTable, createIndex, insertVersion, runAll, tableNames, indexNames]

/-- What is there already is left as it is, and then the version cannot be recorded again. -/
theorem migrateV1_complete {d : Database Row} (h : Complete d) : runAll migrateV1 d = none := by
  obtain ⟨hversions, htables, hindexes⟩ := h
  simp [migrateV1, runAll_cons, createTable, createIndex, insertVersion, htables, hindexes,
    hversions, tableNames, indexNames]

theorem Complete.mapRows {d : Database Row} (table : String) (f : List Row → List Row)
    (h : Complete d) : Complete (d.mapRows table f) := by
  refine ⟨h.1, ?_, h.2.2⟩
  rw [← h.2.1, Database.mapRows, List.map_map]
  rfl

section
variable {ι : Type*} [DecidableEq ι] (client : ι → Client Row)

abbrev Guar (i : ι) : Database Row → Database Row → Prop := Respects (client i)

omit [DecidableEq ι] in
theorem stable_complete : Transactions.Stable Whole (Guar client) Complete :=
  fun _ _ _ _ _ hguar h => hguar.1 h

omit [DecidableEq ι] in
theorem stable_versioned :
    Transactions.Stable Whole (Guar client) fun d : Database Row => d.versions.isSome = true :=
  fun _ _ _ _ _ hguar h => hguar.2.1 h

omit [DecidableEq ι] in
theorem makes_versionTable (i : ι) : Transactions.Makes Whole (Guar client) i (fun _ => True)
    (fun d : Database Row => d.versions.isSome = true) createVersionTable := by
  rintro d d' hd - hs
  obtain rfl := Option.some.inj hs
  refine ⟨?_, ⟨?_, fun _ => rfl, fun _ e he => he⟩, rfl⟩
  · rcases hd with ⟨htables, hindexes, hversions⟩ | h
    · left
      refine ⟨htables, hindexes, .inr ?_⟩
      rcases hversions with hversions | hversions <;> simp [hversions]
    · right
      refine ⟨?_, h.2.1, h.2.2⟩
      simp [h.1]
  · intro h
    refine ⟨?_, h.2.1, h.2.2⟩
    simp [h.1]

omit [DecidableEq ι] in
theorem makes_migrateV1 (i : ι) : Transactions.Makes Whole (Guar client) i
    (fun d : Database Row => d.versions.isSome = true) Complete (runAll migrateV1) := by
  intro d d' hd hversioned hrun
  rcases hd with ⟨htables, hindexes, hversions⟩ | h
  · have hsome : d.versions = some [] := by
      rcases hversions with hnone | hsome
      · rw [hnone] at hversioned
        exact absurd hversioned Bool.false_ne_true
      · exact hsome
    have hd : d = ⟨some [], [], []⟩ := by
      obtain ⟨versions, tables, indexes⟩ := d
      simp_all
    rw [hd, migrateV1_untouched] at hrun
    obtain rfl := Option.some.inj hrun
    have hcomplete : Complete (⟨some [1], tableNames.map fun name => (name, []), indexNames⟩ :
        Database Row) := ⟨rfl, by simp [Function.comp_def], rfl⟩
    refine ⟨.inr hcomplete, ⟨fun _ => hcomplete, fun _ => rfl, fun _ e he => ?_⟩, hcomplete⟩
    rw [htables] at he
    exact absurd he List.not_mem_nil
  · rw [migrateV1_complete h] at hrun
    exact absurd hrun (Option.some_ne_none d').symm

omit [DecidableEq ι] in
theorem makes_writeRows {i : ι} {writes : List (String × (List Row → List Row))}
    (hi : client i = .writing writes) (table : String) (f : List Row → List Row) :
    Transactions.Makes Whole (Guar client) i (fun _ => True) (fun _ => True)
      (writeRows table f) := by
  rintro d d' hd - hs
  rw [writeRows] at hs
  split at hs
  · rename_i hmem
    obtain rfl := Option.some.inj hs
    refine ⟨?_, ⟨Complete.mapRows table f, id, fun hopening => ?_⟩, trivial⟩
    · rcases hd with h | h
      · rw [h.1] at hmem
        exact absurd hmem List.not_mem_nil
      · exact .inr (h.mapRows table f)
    · rw [hi] at hopening
      cases hopening
  · exact absurd hs (Option.some_ne_none d').symm

omit [DecidableEq ι] in
theorem outline_migrate (i : ι) : Transactions.Outline Whole (Guar client)
    (fun i => Migrated (client i)) i (fun _ => True) (migrate : Program (Database Row) Unit) := by
  refine .execute _ (stable_versioned client) (makes_versionTable client i) ?_
  refine .read (fun seen d => d.versions.isSome = true ∧
    ∀ v, currentVersion seen = some v → ¬ v < 1 → Complete d) ?_ ?_ ?_
  · intro seen j d d' hd hd' hguar h
    exact ⟨hguar.2.1 h.1, fun v hv hlt => hguar.1 (h.2 v hv hlt)⟩
  · intro d hd hversioned
    refine ⟨hversioned, fun v hv hlt => ?_⟩
    rcases hd with ⟨-, -, hversions⟩ | h
    · rcases hversions with hnone | hsome
      · rw [hnone] at hversioned
        exact absurd hversioned Bool.false_ne_true
      · rw [currentVersion, hsome] at hv
        obtain rfl := Option.some.inj hv
        exact absurd (by decide) hlt
    · exact h
  · intro seen
    cases hcurrent : currentVersion seen with
    | none => exact .fail
    | some current =>
      dsimp only
      by_cases hlt : current < 1
      · rw [if_pos hlt]
        refine .transaction Complete (stable_complete client) ?_ (.done fun d _ h _ => h)
        exact fun d d' hd hQ => makes_migrateV1 client i d d' hd hQ.1
      · rw [if_neg hlt]
        exact .done fun d _ hQ _ => hQ.2 current rfl hlt

omit [DecidableEq ι] in
theorem outline_client (i : ι) : Transactions.Outline Whole (Guar client)
    (fun i => Migrated (client i)) i (fun _ => True) (client i).program := by
  cases hi : client i with
  | opening => exact outline_migrate client i
  | writing writes =>
    have hdone : ∀ rest : List (String × (List Row → List Row)), Transactions.Outline Whole
        (Guar client) (fun i => Migrated (client i)) i (fun _ => True)
        (rest.foldr (fun w next => Program.execute (writeRows w.1 w.2) next) (.done ())) := by
      intro rest
      induction rest with
      | nil =>
        refine .done fun d _ _ hopening => ?_
        rw [hi] at hopening
        cases hopening
      | cons w rest ih =>
        exact .execute _ (fun _ _ _ _ _ _ _ => trivial) (makes_writeRows client hi w.1 w.2) ih
    exact hdone writes

theorem migrate_alone {d : Database Row} (h : Whole d) :
    ∃ d', Transactions.alone migrate d = some ((), d') := by
  rcases h with ⟨htables, hindexes, hversions⟩ | h
  · refine ⟨⟨some [1], tableNames.map fun name => (name, []), indexNames⟩, ?_⟩
    have hd : createVersionTable d = some ⟨some [], [], []⟩ := by
      obtain ⟨versions, tables, indexes⟩ := d
      rcases hversions with hversions | hversions <;> simp_all [createVersionTable]
    have hcurrent : currentVersion (⟨some [], [], []⟩ : Database Row) = some 0 := rfl
    simp [migrate, Transactions.alone, hd, hcurrent, migrateV1_untouched]
  · refine ⟨d, ?_⟩
    have hd : createVersionTable d = some d := by
      obtain ⟨versions, tables, indexes⟩ := d
      obtain ⟨hversions, -, -⟩ := h
      simp_all [createVersionTable]
    have hcurrent : currentVersion d = some 1 := by
      rw [currentVersion, h.1]
      rfl
    simp [migrate, Transactions.alone, hd, hcurrent]

/-- However connections are opened, broken and used side by side, the database is never half
migrated: a migration that returns has the complete schema, none touches a row, and one that is
left alone, with no transaction open, returns. -/
theorem migrations_whole (es : List (Transactions.Event ι)) :
    let p := Transactions.run (Transactions.start .empty fun i => (client i).program) es
    Whole p.committed ∧
      (∀ i, client i = .opening → p.connection i = .running (.done ()) → Complete p.committed) ∧
      (∀ i, client i = .opening → ∀ e ∈ p.committed.tables,
        e ∈ (Transactions.step p (.go i)).committed.tables) ∧
      ∀ i, client i = .opening → p.connection i = .running migrate → p.Quiet → ∃ n,
        let q := Transactions.run p (List.replicate n (.go i))
        q.connection i = .running (.done ()) ∧ Complete q.committed := by
  intro p
  have hstart : Transactions.Kept Whole (Guar client) (fun i => Migrated (client i))
      (Transactions.start .empty fun i => (client i).program) :=
    Transactions.kept_start (.inl ⟨rfl, rfl, .inl rfl⟩) (outline_client client)
  have hkept := Transactions.kept_run hstart es
  refine ⟨hkept.inv, fun i hi hdone => hkept.result hdone hi, fun i hi e he => ?_,
    fun i hi hp _ => ?_⟩
  · obtain ⟨-, hsame | ⟨j, hj, hguar⟩⟩ := Transactions.kept_step hkept (.go i)
    · exact hsame ▸ he
    · cases hj
      exact hguar.2.2 hi e he
  · obtain ⟨d, hd⟩ := migrate_alone hkept.inv
    obtain ⟨n, hn, -⟩ := Transactions.run_alone hp hd
    exact ⟨n, hn, (Transactions.kept_run hkept _).result hn hi⟩

end

end SignalK.Migration
