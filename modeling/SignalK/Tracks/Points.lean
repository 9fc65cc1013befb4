import SignalK.Tracks.Recorder

/-! The points of a track against the reports of positions that came in. -/
namespace SignalK.Tracks

/-- A position with the timestamp of its update. -/
structure Report where
  lat : ℚ
  lon : ℚ
  timestamp : DateTime
  deriving DecidableEq

def reportOf (timestamp : DateTime) (pv : PathValue) : Option Report :=
  if pv.path = "navigation.position" then
    (positionOf pv.value).map fun pos => ⟨pos.1, pos.2, timestamp⟩
  else none

/-- The positions of a delta, in order. -/
def reports (delta : Delta) : List Report :=
  delta.updates.flatMap fun u => u.values.filterMap (reportOf u.timestamp)

/-- The timestamp that the callback goes by: the last update's. -/
def stamp (e : Broadcast) : DateTime :=
  (e.delta.updates.getLast?.map (·.timestamp)).getD e.now

/-- The test of the callback on the context. -/
def admits (cfg : TracksConfig) (context : Option String) : Bool :=
  context.any fun c => if isSelf c then cfg.trackSelf else cfg.trackOthers

def ownShip (selfUri : String) (context : Option String) : Bool :=
  decide (resolveContext selfUri context = "vessels." ++ selfUri)

/-- Whether the configuration asks for the vessel's track. -/
def tracked (cfg : TracksConfig) (selfUri : String) (context : Option String) : Bool :=
  if ownShip selfUri context then cfg.trackSelf else cfg.trackOthers

/-- Where a vessel's points belong; those of the own ship under one context. -/
def home (selfUri own : String) (context : Option String) : String :=
  if ownShip selfUri context then own else resolveContext selfUri context

/-- Not stamped later than it can have been sent. -/
def Plausible (tolerance : Int) (now : DateTime) (r : Report) : Prop :=
  r.timestamp ≤ now + tolerance

instance (tolerance : Int) (now : DateTime) (r : Report) : Decidable (Plausible tolerance now r) :=
  inferInstanceAs (Decidable (_ ≤ _))

/-- The plausible reports of a vessel. -/
def heard (selfUri : String) (tolerance : Int) (vessel : String) (es : List Broadcast) :
    List Report :=
  es.flatMap fun e =>
    if resolveContext selfUri e.delta.context = vessel then
      (reports e.delta).filter fun r => decide (Plausible tolerance e.now r)
    else []

def TrackRow.IsOf (row : TrackRow) (r : Report) : Prop :=
  row.point.lat = r.lat ∧ row.point.lon = r.lon ∧ row.point.timestamp = r.timestamp

instance (row : TrackRow) (r : Report) : Decidable (row.IsOf r) :=
  inferInstanceAs (Decidable (_ ∧ _))

/-- The configured interval lies between two times. -/
def Apart (cfg : TracksConfig) (a b : DateTime) : Prop :=
  a + cfg.minIntervalSecs.toNat * 1000000000 ≤ b

instance (cfg : TracksConfig) (a b : DateTime) : Decidable (Apart cfg a b) :=
  inferInstanceAs (Decidable (_ ≤ _))

/-- What a delta records: reports of its own, of a vessel to be tracked, where they belong, and
each that comes the interval after all plausible ones before it. -/
def RightStep (cfg : TracksConfig) (selfUri own : String) (tolerance : Int)
    (es : List Broadcast) (e : Broadcast) (rows : List TrackRow) : Prop :=
  (∀ row ∈ rows, tracked cfg selfUri e.delta.context = true ∧
    row.context = home selfUri own e.delta.context ∧ ∃ r ∈ reports e.delta, row.IsOf r) ∧
  (tracked cfg selfUri e.delta.context = true →
    ∀ before r after, reports e.delta = before ++ r :: after →
      (∀ r' ∈ heard selfUri tolerance (resolveContext selfUri e.delta.context) es ++
          before.filter fun r => decide (Plausible tolerance e.now r),
        Apart cfg r'.timestamp r.timestamp) →
      ∃ row ∈ rows, row.IsOf r)

/-- The tracks of a run are right. -/
def Records (cfg : TracksConfig) (selfUri : String) (tolerance : Int) (es : List Broadcast) :
    Prop :=
  ∀ minInterval, cfg.minInterval = .ok minInterval → ∃ own,
    (∀ fs e, fs ++ [e] <+: es → RightStep cfg selfUri own tolerance fs e
      (receive cfg minInterval (Machine.run (receive cfg minInterval) Recorder.new fs) e).2) ∧
    ∀ context, ((recorded cfg minInterval es).filter (·.context = context)).IsChain
      fun a b => Apart cfg a.point.timestamp b.point.timestamp

/-- A delta without positions, or of a vessel that both the test of the callback and the
configuration leave out, or with a single report under the vessel's own context, which is
plausible and has the last timestamp of the delta. -/
def Sound (cfg : TracksConfig) (selfUri own : String) (tolerance : Int) (e : Broadcast) : Prop :=
  reports e.delta = [] ∨
    admits cfg e.delta.context = tracked cfg selfUri e.delta.context ∧
    (tracked cfg selfUri e.delta.context = true →
      e.delta.context = some (home selfUri own e.delta.context) ∧
      ∀ r ∈ reports e.delta, (∀ r' ∈ reports e.delta, r' = r) ∧ r.timestamp = stamp e ∧
        Plausible tolerance e.now r)

/-! What the callback does with a delta. -/

theorem gatherValue_position (context : String) (timestamp : DateTime) (g : Gathered)
    (pv : PathValue) :
    (gatherValue context g pv).position =
      ((reportOf timestamp pv).map fun r => (r.lat, r.lon)).or g.position := by
  rw [gatherValue, reportOf]
  split_ifs with hposition
  · cases hpos : positionOf pv.value <;> simp
  all_goals cases pv.value.asF64 <;> simp [Gathered.setAux]

theorem gatherValue_timestamp (context : String) (g : Gathered) (pv : PathValue) :
    (gatherValue context g pv).timestamp = g.timestamp := by
  rw [gatherValue]
  split_ifs with hposition
  · cases hpos : positionOf pv.value <;> rfl
  all_goals cases pv.value.asF64 <;> rfl

theorem gather_values (context : String) (timestamp : DateTime) (values : List PathValue)
    (g : Gathered) :
    (values.foldl (gatherValue context) g).position =
        (((values.filterMap (reportOf timestamp)).getLast?.map fun r => (r.lat, r.lon)).or
          g.position) ∧
      (values.foldl (gatherValue context) g).timestamp = g.timestamp := by
  induction values using List.reverseRecOn with
  | nil => simp
  | append_singleton values pv ih =>
    rw [List.foldl_append, List.foldl_cons, List.foldl_nil, gatherValue_timestamp,
      gatherValue_position context timestamp, ih.1, ih.2, List.filterMap_append]
    cases h : reportOf timestamp pv <;> simp [h]

theorem gather_updates (context : String) (updates : List Update) (now : DateTime)
    (aux : HashMap String AuxCache) :
    (updates.foldl (gatherUpdate context) ⟨none, now, aux⟩).position =
        (reports ⟨some context, updates⟩).getLast?.map (fun r => (r.lat, r.lon)) ∧
      (updates.foldl (gatherUpdate context) ⟨none, now, aux⟩).timestamp =
        (updates.getLast?.map (·.timestamp)).getD now := by
  induction updates using List.reverseRecOn with
  | nil => exact ⟨rfl, rfl⟩
  | append_singleton updates u ih =>
    obtain ⟨hpos, htime⟩ := gather_values context u.timestamp u.values
      { updates.foldl (gatherUpdate context) ⟨none, now, aux⟩ with timestamp := u.timestamp }
    rw [List.foldl_append, List.foldl_cons, List.foldl_nil, gatherUpdate]
    constructor
    · rw [hpos, ih.1]
      simp only [reports, List.flatMap_append, List.flatMap_cons, List.flatMap_nil,
        List.append_nil, List.getLast?_append]
      cases (u.values.filterMap (reportOf u.timestamp)).getLast? <;> simp
    · rw [htime]
      simp

/-- A delta with a position is one of those that the plugin subscribed to. -/
theorem receives_of_report {delta : Delta} {r : Report} (h : r ∈ reports delta) :
    tracksSubscription.receives delta = true := by
  obtain ⟨u, hu, hr⟩ := List.mem_flatMap.mp h
  obtain ⟨pv, hpv, hreport⟩ := List.mem_filterMap.mp hr
  have hpath : pv.path = "navigation.position" := by
    by_contra hne
    rw [reportOf, if_neg hne] at hreport
    cases hreport
  have hmatch : tracksSubscription.matchesDelta delta = true := by
    refine List.any_eq_true.mpr ⟨u, hu, List.any_eq_true.mpr ⟨pv, hpv, ?_⟩⟩
    refine List.any_eq_true.mpr ⟨"navigation.position", List.mem_cons_self, ?_⟩
    rw [hpath]
    exact matchesParts_self _
  have hall : ¬(tracksSubscription.context ≠ "*" ∧
      tracksSubscription.context ≠ delta.context.getD "vessels.self") :=
    fun hne => hne.1 rfl
  rw [SubscriptionSpec.receives, if_neg hall]
  exact hmatch

/-- The limiter holds a context back. -/
def Held (minInterval : Int) (s : Recorder) (context : String) (time : DateTime) : Prop :=
  ∃ prev, s.lastRecorded.lookup context = some prev ∧ time - prev < minInterval * 1000000000

/-- One step: nothing is recorded and the limiter is unchanged, or the last position of the
delta is recorded with the delta's last timestamp. -/
theorem receive_cases (cfg : TracksConfig) (minInterval : Int) (s : Recorder) (e : Broadcast) :
    ((receive cfg minInterval s e).2 = [] ∧
      (receive cfg minInterval s e).1.lastRecorded = s.lastRecorded ∧
      (reports e.delta = [] ∨ admits cfg e.delta.context = false ∨
        ∃ context, e.delta.context = some context ∧ Held minInterval s context (stamp e))) ∨
    ∃ (context : String) (r : Report) (aux : AuxCache),
      e.delta.context = some context ∧ admits cfg (some context) = true ∧
      (reports e.delta).getLast? = some r ∧ ¬ Held minInterval s context (stamp e) ∧
      (receive cfg minInterval s e).2 =
        [⟨context, ⟨r.lat, r.lon, stamp e, aux.sog, aux.cog, aux.depth⟩⟩] ∧
      (receive cfg minInterval s e).1.lastRecorded =
        s.lastRecorded.insert context (stamp e) := by
  by_cases hrec : tracksSubscription.receives e.delta = true
  · rw [receive, if_pos hrec, callback]
    cases hcontext : e.delta.context with
    | none => exact .inl ⟨rfl, rfl, .inr (.inl rfl)⟩
    | some context =>
      obtain ⟨hpos, htime⟩ := gather_updates context e.delta.updates e.now s.auxCache
      have hreports : reports ⟨some context, e.delta.updates⟩ = reports e.delta := rfl
      have hadmits : admits cfg (some context) = true ↔
          ¬(isSelf context && !cfg.trackSelf) = true ∧
            ¬(!isSelf context && !cfg.trackOthers) = true := by
        cases hself : isSelf context <;> simp [admits, hself]
      by_cases hadmit : admits cfg (some context) = true
      · obtain ⟨hown, hother⟩ := hadmits.mp hadmit
        simp only [if_neg hown, if_neg hother]
        rw [hpos, hreports]
        cases hlast : (reports e.delta).getLast? with
        | none => exact .inl ⟨rfl, rfl, .inl (List.getLast?_eq_none_iff.mp hlast)⟩
        | some r =>
          have hheld : ((s.lastRecorded.lookup context).any fun prev =>
              decide (stamp e - prev < minInterval * 1000000000)) = true ↔
              Held minInterval s context (stamp e) := by
            simp [Held, Option.any_eq_true]
          have hstamp : (e.delta.updates.foldl (gatherUpdate context)
              ⟨none, e.now, s.auxCache⟩).timestamp = stamp e := htime
          simp only [Option.map_some, hstamp]
          by_cases hblocked : Held minInterval s context (stamp e)
          · rw [if_pos (hheld.mpr hblocked)]
            exact .inl ⟨rfl, rfl, .inr (.inr ⟨context, rfl, hblocked⟩)⟩
          · rw [if_neg (mt hheld.mp hblocked)]
            exact .inr ⟨context, r, _, rfl, hadmit, rfl, hblocked, rfl, rfl⟩
      · have hno : admits cfg (some context) = false := Bool.eq_false_iff.mpr hadmit
        by_cases hown : (isSelf context && !cfg.trackSelf) = true
        · simp only [if_pos hown]
          exact .inl ⟨trivial, trivial, .inr (.inl hno)⟩
        · have hother : (!isSelf context && !cfg.trackOthers) = true := by
            by_contra hother
            exact hadmit (hadmits.mpr ⟨hown, hother⟩)
          simp only [if_neg hown, if_pos hother]
          exact .inl ⟨trivial, trivial, .inr (.inl hno)⟩
  · have hempty : reports e.delta = [] := by
      refine List.eq_nil_iff_forall_not_mem.mpr fun r hr => hrec (receives_of_report hr)
    rw [receive, if_neg hrec]
    exact .inl ⟨rfl, rfl, .inl hempty⟩

theorem recorded_append (cfg : TracksConfig) (minInterval : Int) (es : List Broadcast)
    (e : Broadcast) :
    recorded cfg minInterval (es ++ [e]) = recorded cfg minInterval es ++
      (receive cfg minInterval (Machine.run (receive cfg minInterval) Recorder.new es) e).2 := by
  rw [recorded, Machine.exec_append]
  simp [Machine.exec, Machine.run, recorded]

/-- The limiter remembers the time of a context's last row, and rows are the interval apart. -/
theorem limiter (cfg : TracksConfig) (minInterval : Int) (es : List Broadcast) (context : String) :
    (Machine.run (receive cfg minInterval) Recorder.new es).lastRecorded.lookup context =
        (((recorded cfg minInterval es).filter (·.context = context)).getLast?.map
          (·.point.timestamp)) ∧
      ((recorded cfg minInterval es).filter (·.context = context)).IsChain
        fun a b => a.point.timestamp + minInterval * 1000000000 ≤ b.point.timestamp := by
  induction es using List.reverseRecOn with
  | nil => exact ⟨Finmap.lookup_empty context, List.IsChain.nil⟩
  | append_singleton es e ih =>
    obtain ⟨hlast, hchain⟩ := ih
    rw [recorded_append, Machine.run_append, List.filter_append]
    change (receive cfg minInterval _ e).1.lastRecorded.lookup context = _ ∧ _
    obtain ⟨hrows, hkeep, -⟩ | ⟨c, r, aux, -, -, -, hfree, hrows, hset⟩ :=
      receive_cases cfg minInterval (Machine.run (receive cfg minInterval) Recorder.new es) e
    · rw [hrows, hkeep, List.filter_nil, List.append_nil]
      exact ⟨hlast, hchain⟩
    · rw [hrows, hset, HashMap.lookup_insert]
      by_cases hc : context = c
      · subst hc
        refine ⟨by simp, ?_⟩
        rw [List.filter_cons_of_pos (by simp), List.filter_nil, List.isChain_append]
        refine ⟨hchain, List.isChain_singleton _, fun a ha b hb => ?_⟩
        obtain rfl := Option.some.inj hb
        have hprev : (Machine.run (receive cfg minInterval) Recorder.new es).lastRecorded.lookup
            context = some a.point.timestamp := by
          rw [hlast, ha]
          rfl
        have hlate : minInterval * 1000000000 ≤ stamp e - a.point.timestamp :=
          not_lt.mp fun hlt => hfree ⟨_, hprev, hlt⟩
        exact le_sub_iff_add_le'.mp hlate
      · have hne : ¬c = context := fun he => hc he.symm
        rw [if_neg hc, List.filter_cons_of_neg (by simpa using hne), List.filter_nil,
          List.append_nil]
        exact ⟨hlast, hchain⟩

/-- Only a report that was plausible and of the same context is remembered. -/
theorem recorded_heard {cfg : TracksConfig} {minInterval : Int} {selfUri own : String}
    {tolerance : Int} {es : List Broadcast}
    (hsound : ∀ e ∈ es, Sound cfg selfUri own tolerance e) {row : TrackRow}
    (hrow : row ∈ recorded cfg minInterval es) :
    ∃ r ∈ heard selfUri tolerance (resolveContext selfUri (some row.context)) es,
      row.IsOf r := by
  induction es using List.reverseRecOn with
  | nil => cases hrow
  | append_singleton es e ih =>
    have hheard : heard selfUri tolerance (resolveContext selfUri (some row.context)) (es ++ [e]) =
        heard selfUri tolerance (resolveContext selfUri (some row.context)) es ++
          heard selfUri tolerance (resolveContext selfUri (some row.context)) [e] :=
      List.flatMap_append
    rw [hheard]
    rw [recorded_append] at hrow
    obtain hrow | hrow := List.mem_append.mp hrow
    · obtain ⟨r, hr, hof⟩ := ih (fun e he => hsound e (List.mem_append_left _ he)) hrow
      exact ⟨r, List.mem_append_left _ hr, hof⟩
    · obtain ⟨hrows, -⟩ | ⟨c, r, aux, hcontext, hadmit, hlast, -, hrows, -⟩ :=
        receive_cases cfg minInterval (Machine.run (receive cfg minInterval) Recorder.new es) e
      · rw [hrows] at hrow
        cases hrow
      · rw [hrows] at hrow
        obtain rfl := List.mem_singleton.mp hrow
        have hr : r ∈ reports e.delta := List.mem_of_getLast? hlast
        obtain hempty | ⟨hgoverned, hright⟩ := hsound e (by simp)
        · rw [hempty] at hr
          cases hr
        · rw [hcontext, hadmit] at hgoverned
          rw [hcontext] at hright
          obtain ⟨-, htime, hplausible⟩ := (hright hgoverned.symm).2 r hr
          refine ⟨r, List.mem_append_right _ ?_, rfl, rfl, htime.symm⟩
          simp [heard, hcontext, hr, hplausible]

/-- Where every delta is sound, the tracks are right. -/
theorem records_of_sound {cfg : TracksConfig} {selfUri : String} (own : String) {tolerance : Int}
    {es : List Broadcast} (hsecs : cfg.minIntervalSecs.toNat ≤ 9223372036854775)
    (hsound : ∀ e ∈ es, Sound cfg selfUri own tolerance e) :
    Records cfg selfUri tolerance es := by
  intro minInterval hstart
  have hinterval : minInterval = cfg.minIntervalSecs.toNat := by
    have hsigned : cfg.minIntervalSecs.toBitVec.toInt = cfg.minIntervalSecs.toNat := by
      rw [BitVec.toInt_eq_toNat_of_lt]
      · rfl
      · change 2 * cfg.minIntervalSecs.toNat < 2 ^ 64
        omega
    rw [TracksConfig.minInterval, hsigned, Chrono.seconds, if_pos (by omega)] at hstart
    exact (Fallible.ok.inj hstart).symm
  refine ⟨own, fun fs e hp => ?_, fun context => ?_⟩
  · have hfs : ∀ e ∈ fs, Sound cfg selfUri own tolerance e :=
      fun e he => hsound e (hp.subset (List.mem_append_left _ he))
    have he := hsound e (hp.subset (by simp))
    obtain ⟨hrows, -, hwhy⟩ | ⟨c, r, aux, hcontext, hadmit, hlast, -, hrows, -⟩ :=
      receive_cases cfg minInterval (Machine.run (receive cfg minInterval) Recorder.new fs) e
    · rw [hrows]
      refine ⟨fun row hrow => (List.not_mem_nil hrow).elim, ?_⟩
      intro htracked before r after hreports hdue
      have hr : r ∈ reports e.delta := by simp [hreports]
      obtain hempty | ⟨hgoverned, hright⟩ := he
      · rw [hempty] at hr
        cases hr
      · obtain ⟨-, hsame⟩ := hright htracked
        obtain ⟨-, htime, -⟩ := hsame r hr
        rw [htracked] at hgoverned
        obtain hempty | hno | ⟨c, hcontext, prev, hprev, hheld⟩ := hwhy
        · rw [hempty] at hr
          cases hr
        · rw [hgoverned] at hno
          cases hno
        · -- what holds it back is an earlier row, and thereby an earlier plausible report
          rw [(limiter cfg minInterval fs c).1] at hprev
          obtain ⟨row, hrow, rfl⟩ := Option.map_eq_some_iff.mp hprev
          have hlt : stamp e - row.point.timestamp < minInterval * 1000000000 := hheld
          obtain ⟨hmem, hc⟩ := List.mem_filter.mp (List.mem_of_getLast? hrow)
          obtain ⟨r', hr', hof⟩ := recorded_heard hfs hmem
          rw [of_decide_eq_true hc, ← hcontext] at hr'
          have hapart := hdue r' (List.mem_append_left _ hr')
          rw [Apart, ← hof.2.2, htime, ← hinterval] at hapart
          exact (not_lt.mpr (le_sub_iff_add_le'.mpr hapart) hlt).elim
    · rw [hrows]
      have hr : r ∈ reports e.delta := List.mem_of_getLast? hlast
      obtain hempty | ⟨hgoverned, hright⟩ := he
      · rw [hempty] at hr
        cases hr
      · rw [hcontext, hadmit] at hgoverned
        obtain ⟨hhome, hsame⟩ := hright (hcontext ▸ hgoverned.symm)
        obtain ⟨honly, htime, -⟩ := hsame r hr
        constructor
        · intro row hrow
          obtain rfl := List.mem_singleton.mp hrow
          refine ⟨hcontext ▸ hgoverned.symm, ?_, r, hr, rfl, rfl, htime.symm⟩
          rw [hcontext] at hhome
          rw [hcontext]
          exact Option.some.inj hhome
        · intro _ before r' after hreports _
          obtain rfl := honly r' (by simp [hreports])
          exact ⟨_, List.mem_singleton.mpr rfl, rfl, rfl, htime.symm⟩
  · have hchain := (limiter cfg minInterval es context).2
    rw [hinterval] at hchain
    rw [hinterval]
    exact hchain

section

abbrev someVessel : String := "vessels.urn:mrn:imo:mmsi:211234560"

def position (lat lon : ℚ) : PathValue :=
  ⟨"navigation.position",
    .ofFields [("latitude", .ofF64 lat), ("longitude", .ofF64 lon)]⟩

def positionReport (context : String) (now time : DateTime) (lat lon : ℚ) : Broadcast :=
  ⟨now, .withContext context [⟨Source.internal, time, [position lat lon]⟩]⟩

def bothTracked : TracksConfig := ⟨5, true, true⟩

/-- Two reports of a vessel, a minute apart. -/
theorem records_minutes :
    Records bothTracked "urn:mrn:signalk:uuid:1" 0
      [positionReport someVessel 0 0 54 10,
        positionReport someVessel 60000000000 60000000000 55 10] := by
  refine records_of_sound "vessels.self" (by decide) fun e he => ?_
  simp only [List.mem_cons, List.not_mem_nil, or_false] at he
  obtain rfl | rfl := he <;>
  · right
    decide +kernel

/-- A position and, a second later, a speed. -/
def positionThenSpeed : Broadcast :=
  ⟨1000000000, .withContext someVessel
    [⟨Source.internal, 0, [position 54 10]⟩,
      ⟨Source.internal, 1000000000, [⟨"navigation.speedOverGround", .ofF64 3⟩]⟩]⟩

/-- A position comes with the time of the speed after it; a report from the future keeps out
the ones after it; another vessel is taken for the own ship. -/
theorem records_wrong :
    ¬ Records bothTracked "urn:mrn:signalk:uuid:1" 0 [positionThenSpeed] ∧
    ¬ Records bothTracked "urn:mrn:signalk:uuid:1" 0
      [positionReport someVessel 0 4102444800000000000 54 10,
        positionReport someVessel 60000000000 60000000000 55 10] ∧
    ¬ Records ⟨5, false, true⟩ "urn:mrn:signalk:uuid:1" 0
      [positionReport "vessels.urn:mrn:signalk:uuid:2" 0 0 54 10] := by
  have hstart : bothTracked.minInterval = .ok 5 := by decide
  refine ⟨fun h => ?_, fun h => ?_, fun h => ?_⟩
  · obtain ⟨own, hstep, -⟩ := h 5 hstart
    obtain ⟨hrows, -⟩ := hstep [] positionThenSpeed List.prefix_rfl
    have hrow : (⟨someVessel, ⟨54, 10, 1000000000, some 3, none, none⟩⟩ : TrackRow) ∈
        (receive bothTracked 5 Recorder.new positionThenSpeed).2 := by
      decide +kernel
    obtain ⟨-, -, hreport⟩ := hrows _ hrow
    exact absurd hreport (by decide +kernel)
  · obtain ⟨own, hstep, -⟩ := h 5 hstart
    obtain ⟨-, hdue⟩ := hstep [positionReport someVessel 0 4102444800000000000 54 10]
      (positionReport someVessel 60000000000 60000000000 55 10) List.prefix_rfl
    obtain ⟨row, hrow, -⟩ := hdue (by decide +kernel) [] ⟨55, 10, 60000000000⟩ []
      (by decide +kernel) (by decide +kernel)
    have hnone : (receive bothTracked 5 (Machine.run (receive bothTracked 5) Recorder.new
        [positionReport someVessel 0 4102444800000000000 54 10])
        (positionReport someVessel 60000000000 60000000000 55 10)).2 = [] := by
      decide +kernel
    rw [hnone] at hrow
    cases hrow
  · obtain ⟨own, hstep, -⟩ := h 5 (by decide)
    obtain ⟨-, hdue⟩ := hstep [] _ List.prefix_rfl
    obtain ⟨row, hrow, -⟩ := hdue (by decide +kernel) [] ⟨54, 10, 0⟩ []
      (by decide +kernel) (by decide +kernel)
    have hnone : (receive ⟨5, false, true⟩ 5 Recorder.new
        (positionReport "vessels.urn:mrn:signalk:uuid:2" 0 0 54 10)).2 = [] := by
      decide +kernel
    have hrow' : row ∈ (receive ⟨5, false, true⟩ 5 Recorder.new
        (positionReport "vessels.urn:mrn:signalk:uuid:2" 0 0 54 10)).2 := hrow
    rw [hnone] at hrow'
    cases hrow'

end

end SignalK.Tracks
