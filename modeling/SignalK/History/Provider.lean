import Mathlib.Algebra.Order.Ring.Rat
import Mathlib.Data.List.Sort
import SignalK.History.Query
import SignalK.Lib.HashMap
import SignalK.Lib.Rfc3339

/-! The history provider on SQLite: its two tables, what is recorded in them, how the
old rows are summed up by the day, and its queries. -/
namespace SignalK
open Rfc3339 (toRfc3339 utc)

/-- What the libraries around the provider do with texts. -/
class HistoryLibs where
  /-- SQLite's `strftime(format, text)`, NULL for a text that is no time -/
  strftime : String → String → Option String
  /-- what is said of a text that is no date-time -/
  parseError : String → String

/-- For runs in which no bucket is formed and every date-time is valid. -/
@[reducible] def HistoryLibs.unused : HistoryLibs where
  strftime _ _ := none
  parseError _ := ""

structure RawRow where
  timestamp : String
  context : String
  path : String
  value : ℚ
  deriving DecidableEq

structure DailyRow where
  date : String
  context : String
  path : String
  avgValue : ℚ
  minValue : ℚ
  maxValue : ℚ
  count : Nat
  deriving DecidableEq

structure HistoryDb where
  raw : List RawRow
  daily : List DailyRow
  deriving DecidableEq

namespace HistoryDb

def empty : HistoryDb where
  raw := []
  daily := []

/-- A value without a timestamp is recorded at the time it is inserted. -/
def recordBatch (clock : Nat → Int) (db : HistoryDb)
    (batch : List (String × String × ℚ × Option String)) : HistoryDb :=
  { db with raw := db.raw ++ batch.mapIdx fun i (context, path, value, timestamp) =>
      let ts := timestamp.getD ""
      { timestamp := if ts = "" then utc (clock i) else ts
        context := context
        path := path
        value := value } }

end HistoryDb

/-- Aggregate functions, in exact arithmetic. -/
def average (vals : List ℚ) : ℚ := vals.sum / vals.length
def minimum (vals : List ℚ) : ℚ := vals.min?.getD 0
def maximum (vals : List ℚ) : ℚ := vals.max?.getD 0

/-- `substr(timestamp, 1, 10)` -/
def dateOf (timestamp : String) : String :=
  String.ofList (timestamp.toList.take 10)

def RawRow.key (r : RawRow) : String × String × String :=
  (dateOf r.timestamp, r.context, r.path)

def DailyRow.key (r : DailyRow) : String × String × String :=
  (r.date, r.context, r.path)

namespace Sqlite

/-- The times that SQLite prints: from Julian day zero through year 9999. -/
def valid (t : Int) : Prop :=
  (-1721060 * 1440 + 720) * Rfc3339.minute ≤ t ∧ t < Rfc3339.startOfYear 10000

instance (t : Int) : Decidable (valid t) := by
  unfold valid
  infer_instance

/-- `date('now', '-N days')` -/
def dateBefore (now : Int) (days : Nat) : Option String :=
  let t := now - days * 1440 * Rfc3339.minute
  if valid t then some (String.ofList (Rfc3339.dateText (Calendar.date (Rfc3339.Instant.day t))))
  else none

/-- `datetime('now', '-N days')` -/
def datetimeBefore (now : Int) (days : Nat) : Option String :=
  let t := now - days * 1440 * Rfc3339.minute
  if valid t then
    some (String.ofList (Rfc3339.dateText (Calendar.date (Rfc3339.Instant.day t)) ++
      ' ' :: Rfc3339.clockText t))
  else none

/-- `text < cutoff`, which a NULL does not make true. -/
def below (cutoff : Option String) (text : String) : Bool :=
  cutoff.any fun c => decide (Text.Lt text c)

/-- `INSERT OR REPLACE` under the primary key of the table. -/
def insertOrReplace (table : List DailyRow) (row : DailyRow) : List DailyRow :=
  table.filter (fun r => r.key ≠ row.key) ++ [row]

/-- `ORDER BY`; rows that compare equal stay in the order of their insertion. -/
def orderBy {α : Type} (column : α → String) (rows : List α) : List α :=
  rows.insertionSort fun a b => Text.Le (column a) (column b)

end Sqlite

namespace HistoryDb

/-- The values of a group: a date, a context and a path. -/
def groupValues (key : String × String × String) (rows : List RawRow) : List ℚ :=
  (rows.filter fun r => r.key = key).map RawRow.value

def summary (key : String × String × String) (vals : List ℚ) : DailyRow where
  date := key.1
  context := key.2.1
  path := key.2.2
  avgValue := average vals
  minValue := minimum vals
  maxValue := maximum vals
  count := vals.length

/-- The first statement: a summary for every group of old rows. -/
def aggregate (cutoff : Option String) (db : HistoryDb) : HistoryDb :=
  let old := db.raw.filter fun r => Sqlite.below cutoff r.timestamp
  let summaries := (old.map RawRow.key).dedup.map fun key => summary key (groupValues key old)
  { db with daily := summaries.foldl Sqlite.insertOrReplace db.daily }

def aggregateAndPrune (now : Int) (retentionRawDays retentionDailyDays : Nat)
    (db : HistoryDb) : HistoryDb :=
  let cutoff := Sqlite.datetimeBefore now retentionRawDays
  let dailyCutoff := Sqlite.dateBefore now retentionDailyDays
  let db := aggregate cutoff db
  { raw := db.raw.filter fun r => !Sqlite.below cutoff r.timestamp
    daily := db.daily.filter fun r => !Sqlite.below dailyCutoff r.date }

end HistoryDb

namespace Chrono
open Rfc3339

/-- `Duration::seconds`, in the range of 64-bit milliseconds. -/
def seconds (n : Int) : Fallible String Int :=
  .unwrap (if n.natAbs ≤ 9223372036854775 then some n else none)

/-- The instants of the years from -262143 through 262142. -/
def InRange (t : Int) : Prop :=
  startOfYear (-262143) ≤ t ∧ t < startOfYear 262143

instance (t : Int) : Decidable (InRange t) := by
  unfold InRange
  infer_instance

/-- `dt + duration` -/
def add (d : Rfc3339.DateTime) (n : Int) : Fallible String Rfc3339.DateTime :=
  let t := Instant.addSeconds d.instant n
  .unwrap (if InRange t then some { d with instant := t } else none)

/-- `dt - duration` -/
def sub (d : Rfc3339.DateTime) (n : Int) : Fallible String Rfc3339.DateTime :=
  add d (-n)

/-- Nanoseconds on the time line without leap seconds, where one runs into the next
second. -/
def elapsed (t : Int) : Int :=
  Instant.minutes t * 60000000000 + t % Rfc3339.minute

/-- `(a - b).num_seconds()`; a leap second between two times of day is counted. -/
def numSeconds (a b : Int) : Int :=
  let ofDay (t : Int) : Int := Instant.minutes t % 1440 * 60 + min (Instant.second t) 59
  let leap :=
    if ofDay b < ofDay a ∧ Instant.second b = 60 then 1
    else if ofDay a < ofDay b ∧ Instant.second a = 60 then -1
    else 0
  (elapsed a - elapsed b + leap * 1000000000).tdiv 1000000000

def parseFromRfc3339 [HistoryLibs] (field s : String) : Fallible String Rfc3339.DateTime :=
  .okOr ("Invalid " ++ field ++ ": " ++ HistoryLibs.parseError s) (Rfc3339.parse s)

end Chrono

namespace Provider
variable [FloatMath] [FloatParse] [HistoryLibs]

/-- The seconds of a duration, or the error that it is none. -/
def requestedDuration (dur : String) : Fallible String F64 := do
  let secs ← Query.parseDurationSecs dur
  Fallible.okOr ("Invalid duration: " ++ dur) secs

/-- The bounds of a request as texts: what is given is taken as it stands. -/
def resolveTimeRange (now : Int) (fromTs toTs duration : Option String) :
    Fallible String (String × String) :=
  match fromTs, toTs, duration with
  | none, none, some dur => do
    let secs ← requestedDuration dur
    let d ← Chrono.seconds secs.toI64
    let start ← Chrono.sub { instant := now, offset := 0 } d
    .ok (toRfc3339 start, utc now)
  | some f, none, some dur => do
    let secs ← requestedDuration dur
    let start ← Chrono.parseFromRfc3339 "from" f
    let d ← Chrono.seconds secs.toI64
    let stop ← Chrono.add start d
    .ok (f, toRfc3339 stop)
  | none, some t, some dur => do
    let secs ← requestedDuration dur
    let stop ← Chrono.parseFromRfc3339 "to" t
    let d ← Chrono.seconds secs.toI64
    let start ← Chrono.sub stop d
    .ok (toRfc3339 start, t)
  | some f, none, none => .ok (f, utc now)
  | some f, some t, _ => .ok (f, t)
  | none, none, none => do
    let start ← Chrono.sub { instant := now, offset := 0 } 3600
    .ok (toRfc3339 start, utc now)
  | none, some t, none => do
    let stop ← Chrono.parseFromRfc3339 "to" t
    let start ← Chrono.sub stop 3600
    .ok (toRfc3339 start, t)

/-- Where a query looks for the raw rows of a path. -/
def rangeRows (db : HistoryDb) (context path fromTs toTs : String) : List RawRow :=
  db.raw.filter fun r => r.context = context ∧ r.path = path ∧
    Text.Le fromTs r.timestamp ∧ Text.Le r.timestamp toTs

/-- The format of the start of a bucket; none is full resolution. -/
def bucketFormat (resolutionSecs : Option F64) : Option String :=
  match resolutionSecs with
  | none => none
  | some s =>
    if (F64.finite 86400).le s then some "%Y-%m-%dT00:00:00Z"
    else if (F64.finite 3600).le s then some "%Y-%m-%dT%H:00:00Z"
    else if (F64.finite 60).le s then some "%Y-%m-%dT%H:%M:00Z"
    else none

/-- The value of a bucket, whose values are in the order of time. The first and the last
are approximated, and the middle is computed outside of SQL. -/
def aggregateOf (method : AggregateMethod) (vals : List ℚ) : ℚ :=
  match method with
  | .average => average vals
  | .min | .first => minimum vals
  | .max | .last => maximum vals
  | .count => vals.length
  | .mid =>
    let sorted := vals.insertionSort (· ≤ ·)
    let mid := sorted.length / 2
    if sorted.length % 2 = 0 ∧ 2 ≤ sorted.length then
      (sorted.getD (mid - 1) 0 + sorted.getD mid 0) / 2
    else sorted.getD mid 0
  | .middleIndex => vals.getD (vals.length / 2) 0

def queryRawValues (db : HistoryDb) (context path fromTs toTs : String)
    (resolutionSecs : Option F64) (method : AggregateMethod) : List (String × Json) :=
  let rows := Sqlite.orderBy RawRow.timestamp (rangeRows db context path fromTs toTs)
  match bucketFormat resolutionSecs with
  | none => rows.map fun r => (r.timestamp, Json.ofF64 r.value)
  | some format =>
    let bucketed := rows.filterMap fun r =>
      (HistoryLibs.strftime format r.timestamp).map fun ts => (ts, r.value)
    let buckets := Sqlite.orderBy id (bucketed.map Prod.fst).dedup
    buckets.map fun ts =>
      let vals := (bucketed.filter fun b => b.1 = ts).map Prod.snd
      (ts, Json.ofF64 (aggregateOf method vals))

/-- `&s[..10.min(s.len())]` -/
def datePrefix (s : String) : Fallible String String := do
  let cs ← Fallible.unwrap (Text.takeBytes (min 10 (Text.byteLen s.toList)) s.toList)
  .ok (String.ofList cs)

/-- The column that a method reads of the daily rows. -/
def dailyColumn (method : AggregateMethod) (r : DailyRow) : ℚ :=
  match method with
  | .average | .mid | .middleIndex | .first | .last => r.avgValue
  | .min => r.minValue
  | .max => r.maxValue
  | .count => r.count

/-- The daily rows of a path between two dates. -/
def dailyRows (db : HistoryDb) (context path fromDate toDate : String) : List DailyRow :=
  db.daily.filter fun r => r.context = context ∧ r.path = path ∧
    Text.Le fromDate r.date ∧ Text.Le r.date toDate

def queryDailyValues (db : HistoryDb) (context path fromTs toTs : String)
    (method : AggregateMethod) : Fallible String (List (String × Json)) := do
  let fromDate ← datePrefix fromTs
  let toDate ← datePrefix toTs
  let rows := Sqlite.orderBy DailyRow.date (dailyRows db context path fromDate toDate)
  .ok (rows.map fun r => (r.date ++ "T00:00:00Z", Json.ofF64 (dailyColumn method r)))

/-- The raw rows where there are any, the daily ones otherwise. -/
def queryPathValues (db : HistoryDb) (context path fromTs toTs : String)
    (resolutionSecs : Option F64) (method : AggregateMethod) :
    Fallible String (List (String × Json)) :=
  if 0 < (rangeRows db context path fromTs toTs).length then
    .ok (queryRawValues db context path fromTs toTs resolutionSecs method)
  else queryDailyValues db context path fromTs toTs method

/-- A row of the response, written as an array that begins with its timestamp. -/
structure DataRow where
  timestamp : String
  values : List Json
  deriving DecidableEq

def DataRow.toJson (r : DataRow) : Json :=
  .array (.string r.timestamp :: r.values)

/-- The last row of each timestamp. -/
def tsMap (data : List DataRow) : HashMap String Nat :=
  data.zipIdx.foldl (fun m (r, i) => m.insert r.timestamp i) ∅

/-- Adds one value for column `colIdx`. -/
def mergeRow (colIdx : Nat) (acc : List DataRow × HashMap String Nat) (row : String × Json) :
    List DataRow × HashMap String Nat :=
  match acc.2.lookup row.1 with
  | some idx =>
    let push (r : DataRow) : DataRow :=
      let padding := List.replicate (colIdx - 1 - r.values.length) Json.null
      { r with values := r.values ++ padding ++ [row.2] }
    (acc.1.modify idx push, acc.2)
  | none =>
    let fresh := { timestamp := row.1, values := List.replicate (colIdx - 1) .null ++ [row.2] }
    (acc.1 ++ [fresh], acc.2.insert row.1 acc.1.length)

/-- The columns up to `colIdx`: the first path makes the rows, the others are merged into
them by their timestamps. -/
def mergeColumn (colIdx : Nat) (data : List DataRow) (rows : List (String × Json)) :
    List DataRow :=
  if colIdx = 1 then rows.map fun (ts, val) => { timestamp := ts, values := [val] }
  else (rows.foldl (mergeRow colIdx) (data, tsMap data)).1

structure ValuesResponse where
  context : String
  fromTs : String
  toTs : String
  /-- the path and the method of each column -/
  values : List (String × String)
  data : List DataRow
  deriving DecidableEq

/-- The resolution that is asked for, else one that suits the range. -/
def resolutionSecs (resolution : Option String) (fromTs toTs : String) : Option F64 :=
  match resolution.bind Query.parseResolutionSecs with
  | some secs => some secs
  | none => do
    let start ← Rfc3339.parse fromTs
    let stop ← Rfc3339.parse toTs
    Query.autoResolutionSecs (.ofI64 (Chrono.numSeconds stop.instant start.instant))

/-- The loop over the paths of a request. -/
def collectValues (db : HistoryDb) (context fromTs toTs : String) (resolution : Option F64) :
    List PathSpec → Nat → List DataRow → Fallible String (List DataRow)
  | [], _, data => .ok data
  | spec :: specs, n, data => do
    let rows ← queryPathValues db context spec.path fromTs toTs resolution spec.method
    collectValues db context fromTs toTs resolution specs (n + 1)
      (mergeColumn (n + 1) data rows)

def getValues (now : Int) (db : HistoryDb) (req : ValuesRequest) :
    Fallible String ValuesResponse := do
  let (fromTs, toTs) ← resolveTimeRange now req.fromTs req.toTs req.duration
  let resolution := resolutionSecs req.resolution fromTs toTs
  let data ← collectValues db req.context fromTs toTs resolution req.pathSpecs 0 []
  .ok {
    context := req.context
    fromTs := fromTs
    toTs := toTs
    values := req.pathSpecs.map fun spec => (spec.path, spec.method.asStr)
    data := Sqlite.orderBy DataRow.timestamp data }

/-- The names that either table has in a range, sorted. -/
def distinctNames (rawNames dailyNames : List String) : List String :=
  Sqlite.orderBy id (rawNames ++ dailyNames).dedup

def getContexts (now : Int) (db : HistoryDb) (req : ContextsRequest) :
    Fallible String (List String) := do
  let (fromTs, toTs) ← resolveTimeRange now req.fromTs req.toTs req.duration
  let raw := db.raw.filter fun r => Text.Le fromTs r.timestamp ∧ Text.Le r.timestamp toTs
  let fromDate ← datePrefix fromTs
  let toDate ← datePrefix toTs
  let daily := db.daily.filter fun r => Text.Le fromDate r.date ∧ Text.Le r.date toDate
  .ok (distinctNames (raw.map RawRow.context) (daily.map DailyRow.context))

def getPaths (now : Int) (db : HistoryDb) (req : PathsRequest) :
    Fallible String (List String) := do
  let (fromTs, toTs) ← resolveTimeRange now req.fromTs req.toTs req.duration
  let raw := db.raw.filter fun r => r.context = req.context ∧
    Text.Le fromTs r.timestamp ∧ Text.Le r.timestamp toTs
  let fromDate ← datePrefix fromTs
  let toDate ← datePrefix toTs
  let daily := db.daily.filter fun r => r.context = req.context ∧
    Text.Le fromDate r.date ∧ Text.Le r.date toDate
  .ok (distinctNames (raw.map RawRow.path) (daily.map DailyRow.path))

omit [FloatMath] [FloatParse] [HistoryLibs] in
theorem datePrefix_of_ascii {s : String} (hlen : 10 ≤ s.toList.length)
    (h : ∀ c ∈ s.toList.take 10, c.utf8Size = 1) :
    datePrefix s = .ok (String.ofList (s.toList.take 10)) := by
  have hmin : min 10 (Text.byteLen s.toList) = 10 := by
    have := Text.length_le_byteLen s.toList
    omega
  rw [datePrefix, hmin, Text.takeBytes_of_ascii hlen h]
  rfl

end Provider

end SignalK
