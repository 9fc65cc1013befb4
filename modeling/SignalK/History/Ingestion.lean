import SignalK.History.Provider
import SignalK.Store.Replay

/-! How the history is recorded: the task that listens to the store's broadcasts, collects
the numbers in a batch and hands the batch on whenever its interval ticks. -/
namespace SignalK
namespace History

/-- What the configuration says of the paths. -/
structure HistoryConfig where
  included : List String
  excluded : List String

/-- The pattern's segments against the path's; "**" stands for any number of them. -/
def matchParts : List String → List String → Bool
  | [], path => path.isEmpty
  | q :: qs, path =>
    if q = "**" then qs.isEmpty || path.tails.any (matchParts qs)
    else match path with
      | [] => false
      | p :: ps => (q = "*" || q = p) && matchParts qs ps

def pathMatchesGlob (path pattern : String) : Bool :=
  pattern = "**" || matchParts (Text.split '.' pattern) (Text.split '.' path)

/-- A match in the second list makes a path one not to record. -/
def shouldRecord (path : String) (included excluded : List String) : Bool :=
  !excluded.any (pathMatchesGlob path) && included.any (pathMatchesGlob path)

/-- Everything is recorded by default. -/
theorem shouldRecord_default (path : String) : shouldRecord path ["**"] [] = true := by
  simp [shouldRecord, pathMatchesGlob]

/-- `to_rfc3339` of a delta's timestamp. -/
def stamp (t : DateTime) : String :=
  Rfc3339.utc (Rfc3339.startOfYear 1970 + t / 60000000000 * Rfc3339.minute + t % 60000000000)

/-- Context, path, value and timestamp. -/
abbrev Entry := String × String × ℚ × Option String

/-- What the task adds to its batch for one delta. -/
def entries (cfg : HistoryConfig) (delta : Delta) : List Entry :=
  let context := delta.context.getD "vessels.self"
  delta.updates.flatMap fun update =>
    let ts := stamp update.timestamp
    update.values.filterMap fun pv =>
      if ¬shouldRecord pv.path cfg.included cfg.excluded then none
      else pv.value.asF64.map fun n => (context, pv.path, n, some ts)

/-- The task with the store it listens to. A batch that was handed on is written by a
thread of its own, in no particular order. -/
structure Ingestion where
  store : SignalKStore
  channel : List Delta
  batch : List Entry
  writing : List (List Entry)
  db : HistoryDb

inductive IngestionEvent where
  | store (e : StoreEvent)
  | receive
  | tick
  | write (i : Nat) (clock : Nat → Int)

namespace Ingestion

def start (selfUri : String) : Ingestion where
  store := SignalKStore.new selfUri
  channel := []
  batch := []
  writing := []
  db := HistoryDb.empty

/-- One step, with what the store broadcasts. -/
def step [JsonText] (cfg : HistoryConfig) (s : Ingestion) : IngestionEvent → Ingestion × List Delta
  | .store e =>
    let r := s.store.step e
    ({ s with store := r.1, channel := s.channel ++ r.2 }, r.2)
  | .receive =>
    match s.channel with
    | [] => (s, [])
    | delta :: channel => ({ s with channel := channel, batch := s.batch ++ entries cfg delta }, [])
  | .tick =>
    if s.batch = [] then (s, [])
    else ({ s with batch := [], writing := s.writing ++ [s.batch] }, [])
  | .write i clock =>
    match s.writing[i]? with
    | none => (s, [])
    | some batch =>
      ({ s with writing := s.writing.eraseIdx i, db := s.db.recordBatch clock batch }, [])

/-- Everything that was broadcast has been received and written. -/
structure Done (s : Ingestion) : Prop where
  channel : s.channel = []
  batch : s.batch = []
  writing : s.writing = []

end Ingestion

/-- The calls to the store in a run. -/
def storeEvents (es : List IngestionEvent) : List StoreEvent :=
  es.filterMap fun
    | .store e => some e
    | _ => none

/-! Nothing that is broadcast gets lost or is written twice. -/

def Entry.row (e : Entry) : RawRow where
  timestamp := e.2.2.2.getD ""
  context := e.1
  path := e.2.1
  value := e.2.2.1

theorem stamp_ne_empty (t : DateTime) : stamp t ≠ "" := by
  intro h
  have hlist := congrArg String.toList h
  simp [stamp, Rfc3339.utc, Rfc3339.toRfc3339, Rfc3339.text] at hlist

theorem entries_stamped {cfg : HistoryConfig} {delta : Delta} {e : Entry}
    (h : e ∈ entries cfg delta) : e.2.2.2.getD "" ≠ "" := by
  obtain ⟨update, -, he⟩ := List.mem_flatMap.mp h
  obtain ⟨pv, -, hpv⟩ := List.mem_filterMap.mp he
  split_ifs at hpv
  obtain ⟨n, -, rfl⟩ := Option.map_eq_some_iff.mp hpv
  exact stamp_ne_empty _

/-- Entries with timestamps are recorded as they stand. -/
theorem recordBatch_raw (clock : Nat → Int) (db : HistoryDb) {batch : List Entry}
    (h : ∀ e ∈ batch, e.2.2.2.getD "" ≠ "") :
    (db.recordBatch clock batch).raw = db.raw ++ batch.map Entry.row := by
  have hmap : (batch.mapIdx fun i (context, path, value, timestamp) =>
      let ts := timestamp.getD ""
      ({ timestamp := if ts = "" then Rfc3339.utc (clock i) else ts
         context := context
         path := path
         value := value } : RawRow)) = batch.map Entry.row := by
    apply List.ext_getElem
    · simp
    · intro i hi _
      have hlt : i < batch.length := by simpa using hi
      have hmem : batch[i] ∈ batch := List.getElem_mem hlt
      simp [Entry.row, h _ hmem]
  exact congrArg (db.raw ++ ·) hmap

/-- The rows of a delta. -/
def rows (cfg : HistoryConfig) (delta : Delta) : List RawRow :=
  (entries cfg delta).map Entry.row

namespace Ingestion

/-- The entries on their way to the database. -/
def pending (cfg : HistoryConfig) (s : Ingestion) : List Entry :=
  s.writing.flatten ++ (s.batch ++ s.channel.flatMap (entries cfg))

/-- What is recorded or on its way is what was broadcast. -/
structure Accounted (cfg : HistoryConfig) (s : Ingestion) (stream : List Delta) : Prop where
  stamped : ∀ e ∈ s.pending cfg, e.2.2.2.getD "" ≠ ""
  rows : (s.db.raw ++ (s.pending cfg).map Entry.row).Perm (stream.flatMap (rows cfg))

theorem step_accounted [JsonText] {cfg : HistoryConfig} (s : Ingestion) (stream : List Delta)
    (e : IngestionEvent) (h : Accounted cfg s stream) :
    Accounted cfg (s.step cfg e).1 (stream ++ (s.step cfg e).2) := by
  obtain ⟨hstamped, hrows⟩ := h
  cases e with
  | store e =>
    have hpending : ((s.step cfg (.store e)).1).pending cfg =
        s.pending cfg ++ (s.store.step e).2.flatMap (entries cfg) := by
      simp [step, pending]
    constructor
    · intro e' he'
      rw [hpending] at he'
      rcases List.mem_append.mp he' with he' | he'
      · exact hstamped e' he'
      · obtain ⟨delta, -, hd⟩ := List.mem_flatMap.mp he'
        exact entries_stamped hd
    · rw [hpending, List.map_append, ← List.append_assoc, List.flatMap_append, List.map_flatMap]
      exact hrows.append_right _
  | receive =>
    rw [step]
    cases hc : s.channel with
    | nil => exact ⟨hstamped, by simpa using hrows⟩
    | cons delta channel =>
      have hpending : ({ s with channel := channel, batch := s.batch ++ entries cfg delta } :
          Ingestion).pending cfg = s.pending cfg := by
        simp [pending, hc]
      constructor
      · rwa [hpending]
      · rw [hpending, List.append_nil]
        exact hrows
  | tick =>
    rw [step]
    split_ifs with hb
    · exact ⟨hstamped, by simpa using hrows⟩
    · have hpending : ({ s with batch := [], writing := s.writing ++ [s.batch] } :
          Ingestion).pending cfg = s.pending cfg := by
        simp [pending]
      constructor
      · rwa [hpending]
      · rw [hpending, List.append_nil]
        exact hrows
  | write i clock =>
    rw [step]
    cases hw : s.writing[i]? with
    | none => exact ⟨hstamped, by simpa using hrows⟩
    | some batch =>
      have hsplit : s.writing.Perm (batch :: s.writing.eraseIdx i) := by
        obtain ⟨hi, hbatch⟩ := List.getElem?_eq_some_iff.mp hw
        rw [← hbatch]
        exact (List.getElem_cons_eraseIdx_perm hi).symm
      have hpending : (s.pending cfg).Perm
          (batch ++ ({ s with writing := s.writing.eraseIdx i } : Ingestion).pending cfg) := by
        have hflat := hsplit.flatten
        rw [List.flatten_cons] at hflat
        simpa [pending, List.append_assoc] using hflat.append_right
          (s.batch ++ s.channel.flatMap (entries cfg))
      have hbatch : ∀ e ∈ batch, e.2.2.2.getD "" ≠ "" := fun e he =>
        hstamped e (hpending.mem_iff.mpr (List.mem_append_left _ he))
      constructor
      · exact fun e he => hstamped e (hpending.mem_iff.mpr (List.mem_append_right _ he))
      · rw [List.append_nil, recordBatch_raw clock s.db hbatch]
        refine List.Perm.trans ?_ hrows
        rw [List.append_assoc, ← List.map_append]
        exact (hpending.symm.map _).append_left _

/-- When all is received and written, the rows are those of the broadcasts. -/
theorem done_rows [JsonText] (cfg : HistoryConfig) (selfUri : String) (es : List IngestionEvent)
    (hdone : Done (Machine.exec (step cfg) (start selfUri) es).1) :
    (Machine.exec (step cfg) (start selfUri) es).1.db.raw.Perm
      ((Machine.exec (step cfg) (start selfUri) es).2.flatMap (History.rows cfg)) := by
  have hstart : Accounted cfg (start selfUri) [] :=
    ⟨fun e he => by simp [start, pending] at he, by simp [start, pending, HistoryDb.empty]⟩
  have hrun := Machine.exec_inv (fun s stream e h _ => step_accounted s stream e h) hstart
    (Machine.meets_true (step cfg) (start selfUri) es)
  have hrows := hrun.rows
  simpa [pending, hdone.channel, hdone.batch, hdone.writing] using hrows

theorem step_quiet [JsonText] (cfg : HistoryConfig) (s : Ingestion) {e : IngestionEvent}
    (h : ∀ e', e ≠ .store e') : (s.step cfg e).1.store = s.store ∧ (s.step cfg e).2 = [] := by
  cases e with
  | store e => exact absurd rfl (h e)
  | receive =>
    rw [step]
    cases s.channel <;> exact ⟨rfl, rfl⟩
  | tick =>
    rw [step]
    split_ifs <;> exact ⟨rfl, rfl⟩
  | write i clock =>
    rw [step]
    cases s.writing[i]? <;> exact ⟨rfl, rfl⟩

/-- The task changes nothing about what the store does. -/
theorem exec_store [JsonText] (cfg : HistoryConfig) (s : Ingestion) (es : List IngestionEvent) :
    (Machine.exec (step cfg) s es).2 =
      (Machine.exec SignalKStore.step s.store (storeEvents es)).2 := by
  induction es generalizing s with
  | nil => rfl
  | cons e es ih =>
    rw [Machine.exec, ih]
    cases e with
    | store e => rfl
    | receive | tick | write _ _ =>
      rw [(step_quiet cfg s (by simp)).1, (step_quiet cfg s (by simp)).2]
      rfl

end Ingestion
end History
end SignalK
