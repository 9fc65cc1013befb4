import SignalK.Plugins.Manager

/-! What a stopped plugin leaves behind. The cleanup knows the registries one by one; it
has no line for autopilot providers and webapps, and the subscriptions of a start that
failed are out of its reach. -/
namespace SignalK.Plugins
variable {P H : Type}

inductive PluginEvent (P H : Type) where
  | start (pluginId : String) (start : P → StartRun P H)
  | stop (pluginId : String) (stop : P → P)
  | call (pluginId : String) (call : Call H)

namespace PluginManager

def step (m : PluginManager P H) : PluginEvent P H → PluginManager P H × List Unit
  | .start pluginId start => ((m.startPlugin pluginId start).1, [])
  | .stop pluginId stop => ((m.stopPlugin pluginId stop).1, [])
  | .call pluginId call => (m.callPlugin pluginId call, [])

/-- Plugins are registered, none is started and none owns anything yet. -/
structure Initial (m : PluginManager P H) : Prop where
  entries : ∀ id e, m.plugins.lookup id = some e →
    e.status = .stopped ∧ e.context = none ∧ m.registries.entries id = .none
  tasks : m.registries.tasks = []

/-- The registries hold nothing of the plugin and are otherwise as before. -/
structure LeavesNoTrace (before after : PluginManager P H) (pluginId : String) : Prop where
  none : after.registries.entries pluginId = .none
  others : ∀ q, q ≠ pluginId → after.registries.entries q = before.registries.entries q

def context (m : PluginManager P H) (pluginId : String) : Option RustPluginContext :=
  (m.plugins.lookup pluginId).bind (·.context)

/-- No webapp and no autopilot provider of the plugin, and no subscription but those of
its present context. -/
structure Disposable (m : PluginManager P H) (pluginId : String) : Prop where
  webapps : (m.registries.entries pluginId).webapps = []
  autopilot : ∀ device, (m.registries.entries pluginId).autopilot device = .none
  tasks : ∀ t ∈ (m.registries.entries pluginId).tasks,
    ∃ c ∈ m.context pluginId, t.context = c.serial

end PluginManager

/-- The live tasks of a context are the plugin's and can be aborted through it. -/
def RustPluginContext.Holds (c : RustPluginContext) (r : Registries H) : Prop :=
  ∀ t ∈ r.tasks, t.context = c.serial → t.pluginId = c.pluginId ∧ t.handle ∈ c.subHandles

/-- What calls on a context can change. -/
structure Ran (r : Registries H) (c : RustPluginContext) (r' : Registries H)
    (c' : RustPluginContext) : Prop where
  serial : c'.serial = c.serial
  pluginId : c'.pluginId = c.pluginId
  others : ∀ q, q ≠ c.pluginId → (r.entries q).Clean → (r'.entries q).Clean
  tasks : ∀ t ∈ r'.tasks, t ∈ r.tasks ∨ t.context = c.serial
  holds : c.Holds r → c'.Holds r'

theorem Ran.refl (r : Registries H) (c : RustPluginContext) : Ran r c r c :=
  ⟨rfl, rfl, fun _ _ h => h, fun _ h => .inl h, id⟩

theorem Ran.trans {r r' r'' : Registries H} {c c' c'' : RustPluginContext} (h : Ran r c r' c')
    (h' : Ran r' c' r'' c'') : Ran r c r'' c'' where
  serial := h'.serial.trans h.serial
  pluginId := h'.pluginId.trans h.pluginId
  others q hq hc := h'.others q (h.pluginId ▸ hq) (h.others q hq hc)
  tasks t ht := by
    obtain ht | ht := h'.tasks t ht
    · exact h.tasks t ht
    · exact .inr (ht.trans h.serial)
  holds hh := h'.holds (h.holds hh)

/-- A call that leaves the subscriptions alone. -/
theorem Ran.of_tasks {r r' : Registries H} {c : RustPluginContext} (ht : r'.tasks = r.tasks)
    (ho : ∀ q, q ≠ c.pluginId → (r.entries q).Clean → (r'.entries q).Clean) : Ran r c r' c where
  serial := rfl
  pluginId := rfl
  others := ho
  tasks _ hmem := .inl (ht ▸ hmem)
  holds hh t hmem := hh t (ht ▸ hmem)

theorem ran_call (r : Registries H) (c : RustPluginContext) (call : Call H) :
    Ran r c (c.call r call).1 (c.call r call).2 := by
  have hclean : ∀ q, q ≠ c.pluginId → (r.entries q).Clean →
      ((c.call r call).1.entries q).Clean := fun q hq h => h.call hq call
  cases call with
  | subscribe spec callback =>
    refine ⟨rfl, rfl, hclean, fun t ht => ?_, fun hh t ht hs => ?_⟩
    · cases List.mem_append.mp ht with
      | inl ht => exact .inl ht
      | inr ht => exact .inr (by rw [List.mem_singleton.mp ht])
    · cases List.mem_append.mp ht with
      | inl ht =>
        obtain ⟨hp, hmem⟩ := hh t ht hs
        exact ⟨hp, List.mem_cons_of_mem _ hmem⟩
      | inr ht =>
        rw [List.mem_singleton.mp ht]
        exact ⟨rfl, List.mem_cons_self⟩
  | unsubscribe handle =>
    by_cases hmem : handle ∈ c.subHandles
    · simp only [RustPluginContext.call, if_pos hmem] at hclean ⊢
      refine ⟨rfl, rfl, hclean, fun t ht => .inl (List.mem_of_mem_filter ht), fun hh t ht hs => ?_⟩
      obtain ⟨ht, hkeep⟩ := List.mem_filter.mp ht
      obtain ⟨hp, hin⟩ := hh t ht hs
      have hne : t.handle ≠ handle := fun he => of_decide_eq_true hkeep ⟨hs, he⟩
      exact ⟨hp, List.mem_filter.mpr ⟨hin, decide_eq_true hne⟩⟩
    · rw [RustPluginContext.call, if_neg hmem]
      exact Ran.refl r c
  | registerPutHandler context path handler => exact Ran.of_tasks rfl hclean
  | registerRoutes routes => exact Ran.of_tasks rfl hclean
  | registerWebapp info => exact Ran.of_tasks rfl hclean
  | registerDeltaInputHandler handler => exact Ran.of_tasks rfl hclean
  | registerAutopilotProvider deviceId provider => exact Ran.of_tasks rfl hclean
  | registerResourceProvider resourceType provider => exact Ran.of_tasks rfl hclean

theorem ran_calls (r : Registries H) (c : RustPluginContext) (calls : List (Call H)) :
    Ran r c (c.calls r calls).1 (c.calls r calls).2 := by
  induction calls generalizing r c with
  | nil => exact Ran.refl r c
  | cons call calls ih => exact (ran_call r c call).trans (ih _ _)

namespace PluginManager

/-- Every registration is accounted for: a stopped plugin has none that stopping sees to,
and each context can abort the tasks it spawned. -/
structure Accounted (m : PluginManager P H) : Prop where
  stopped : ∀ id e, m.plugins.lookup id = some e → e.status = .stopped →
    e.context = none ∧ (m.registries.entries id).Clean
  contexts : ∀ id c, m.context id = some c →
    c.pluginId = id ∧ c.serial < m.nextSerial ∧ c.Holds m.registries
  serials : ∀ t ∈ m.registries.tasks, t.context < m.nextSerial
  distinct : ∀ id id' c c', m.context id = some c → m.context id' = some c' →
    c.serial = c'.serial → id = id'

theorem Initial.accounted {m : PluginManager P H} (h : m.Initial) : m.Accounted := by
  have hnone : ∀ id c, m.context id ≠ some c := by
    intro id c hc
    obtain ⟨e, he, hctx⟩ := Option.bind_eq_some_iff.mp hc
    rw [(h.entries id e he).2.1] at hctx
    cases hctx
  constructor
  case stopped =>
    intro id e he _
    obtain ⟨-, hctx, hent⟩ := h.entries id e he
    exact ⟨hctx, by rw [hent]; rfl⟩
  case contexts => exact fun id c hc => absurd hc (hnone id c)
  case serials => simp [h.tasks]
  case distinct => exact fun id id' c c' hc => absurd hc (hnone id c)

theorem context_setEntry (m : PluginManager P H) (id : String) (e : PluginEntry P) (q : String) :
    (m.setEntry id e).context q = if q = id then e.context else m.context q := by
  rw [context, setEntry, HashMap.lookup_insert]
  split_ifs <;> rfl

/-- Calls on one context, written back into its plugin's entry. -/
theorem Accounted.ran {m : PluginManager P H} (h : m.Accounted) {id : String}
    {c c' : RustPluginContext} {r' : Registries H} {n : Nat} {e : PluginEntry P}
    (hran : Ran m.registries c r' c') (hid : c.pluginId = id) (hserial : c.serial < n)
    (hn : m.nextSerial ≤ n) (hholds : c.Holds m.registries)
    (hfresh : ∀ q d, q ≠ id → m.context q = some d → d.serial ≠ c.serial)
    (hstatus : e.status ≠ .stopped) (hctx : e.context = some c' ∨ e.context = none) :
    ({ m with registries := r', nextSerial := n }.setEntry id e).Accounted := by
  have hentry : ∀ d, e.context = some d → d = c' := by
    intro d hd
    obtain hc | hc := hctx
    · exact Option.some.inj (hd.symm.trans hc)
    · rw [hc] at hd
      cases hd
  constructor
  case stopped =>
    intro q f hf hs
    have hlook : (m.plugins.insert id e).lookup q = some f := hf
    rw [HashMap.lookup_insert] at hlook
    split_ifs at hlook with hq
    · rw [← Option.some.inj hlook] at hs
      exact absurd hs hstatus
    · obtain ⟨hnone, hclean⟩ := h.stopped q f hlook hs
      exact ⟨hnone, hran.others q (hid ▸ hq) hclean⟩
  case contexts =>
    intro q d hd
    rw [context_setEntry] at hd
    split_ifs at hd with hq
    · rw [hentry d hd]
      exact ⟨(hran.pluginId.trans hid).trans hq.symm, hran.serial ▸ hserial, hran.holds hholds⟩
    · obtain ⟨hp, hlt, hh⟩ := h.contexts q d hd
      refine ⟨hp, Nat.lt_of_lt_of_le hlt hn, fun t ht hs => ?_⟩
      obtain ht | ht := hran.tasks t ht
      · exact hh t ht hs
      · exact absurd (hs.symm.trans ht) (hfresh q d hq hd)
  case serials =>
    intro t ht
    obtain ht | ht := hran.tasks t ht
    · exact Nat.lt_of_lt_of_le (h.serials t ht) hn
    · exact ht ▸ hserial
  case distinct =>
    intro q q' d d' hd hd' hs
    rw [context_setEntry] at hd hd'
    split_ifs at hd hd' with hq hq' hq'
    · exact hq.trans hq'.symm
    · rw [hentry d hd, hran.serial] at hs
      exact absurd hs.symm (hfresh q' d' hq' hd')
    · rw [hentry d' hd', hran.serial] at hs
      exact absurd hs (hfresh q d hq hd)
    · exact h.distinct q q' d d' hd hd' hs

theorem Accounted.startPlugin {m : PluginManager P H} (h : m.Accounted) (id : String)
    (start : P → StartRun P H) : (m.startPlugin id start).1.Accounted := by
  cases he : m.plugins.lookup id with
  | none => simpa [PluginManager.startPlugin, he] using h
  | some entry =>
    by_cases hr : entry.status.isRunning = true
    · simpa [PluginManager.startPlugin, he, hr] using h
    · have hran := ran_calls m.registries (RustPluginContext.new m.nextSerial id)
        (entry.plugin.start start).calls
      have hholds : (RustPluginContext.new m.nextSerial id).Holds m.registries := by
        intro t ht hs
        exact absurd hs (Nat.ne_of_lt (h.serials t ht))
      have hfresh : ∀ q d, q ≠ id → m.context q = some d →
          d.serial ≠ (RustPluginContext.new m.nextSerial id).serial :=
        fun q d _ hd => Nat.ne_of_lt (h.contexts q d hd).2.1
      simp only [PluginManager.startPlugin, he, if_neg hr]
      cases (entry.plugin.start start).ending.result id with
      | ok plugin =>
        exact h.ran hran rfl (Nat.lt_succ_self _) (Nat.le_succ _) hholds hfresh (by simp) (.inl rfl)
      | error e =>
        exact h.ran hran rfl (Nat.lt_succ_self _) (Nat.le_succ _) hholds hfresh (by simp) (.inr rfl)

theorem Accounted.callPlugin {m : PluginManager P H} (h : m.Accounted) (id : String)
    (call : Call H) : (m.callPlugin id call).Accounted := by
  cases he : m.plugins.lookup id with
  | none => simpa [PluginManager.callPlugin, he] using h
  | some entry =>
    cases hc : entry.context with
    | none => simpa [PluginManager.callPlugin, he, hc] using h
    | some c =>
      have hctx : m.context id = some c := by simp [context, he, hc]
      obtain ⟨hp, hlt, hholds⟩ := h.contexts id c hctx
      have hrunning : entry.status ≠ .stopped := by
        intro hs
        rw [(h.stopped id entry he hs).1] at hc
        cases hc
      simp only [PluginManager.callPlugin, he, hc]
      refine h.ran (ran_call m.registries c call) hp hlt (Nat.le_refl _) hholds ?_ hrunning
        (.inl rfl)
      exact fun q d hq hd hs => hq (h.distinct q id d c hd hctx hs)

/-- The tasks that stopping a plugin aborts are its own. -/
theorem Accounted.aborted {m : PluginManager P H} (h : m.Accounted) {id : String}
    {t : Task H} (ht : t ∈ m.registries.tasks)
    (ha : (m.context id).any (·.aborts t) = true) : t.pluginId = id := by
  obtain ⟨c, hc, hab⟩ := (Option.any_eq_true _ _).mp ha
  obtain ⟨hp, -, hh⟩ := h.contexts id c hc
  exact (hh t ht (of_decide_eq_true hab).1).1.trans hp

theorem Accounted.stopPlugin {m : PluginManager P H} (h : m.Accounted) (id : String)
    (stop : P → P) : (m.stopPlugin id stop).1.Accounted := by
  cases he : m.plugins.lookup id with
  | none => simpa [PluginManager.stopPlugin, he] using h
  | some entry =>
    by_cases hs : entry.status = .stopped
    · simpa [PluginManager.stopPlugin, he, hs] using h
    · have hctx : m.context id = entry.context := by simp [context, he]
      have hsub : ∀ t ∈ (m.registries.stopped id entry.context).tasks, t ∈ m.registries.tasks :=
        fun t ht => List.mem_of_mem_filter ht
      simp only [PluginManager.stopPlugin, he, if_neg hs]
      constructor
      case stopped =>
        intro q f hf hfs
        have hlook : (m.plugins.insert id _).lookup q = some f := hf
        rw [HashMap.lookup_insert] at hlook
        split_ifs at hlook with hq
        · subst hq
          refine ⟨by rw [← Option.some.inj hlook], ?_⟩
          have hself := m.registries.entries_stopped_self q entry.context
          rw [Entries.Clean]
          exact hself.trans (by rw [setEntry, hself]; rfl)
        · have hother := m.registries.entries_stopped_other hq
            fun t ht ha => h.aborted ht (hctx ▸ ha)
          obtain ⟨hnone, hclean⟩ := h.stopped q f hlook hfs
          exact ⟨hnone, hother ▸ hclean⟩
      case contexts =>
        intro q d hd
        rw [context_setEntry] at hd
        split_ifs at hd with hq
        obtain ⟨hp, hlt, hh⟩ := h.contexts q d hd
        exact ⟨hp, hlt, fun t ht => hh t (hsub t ht)⟩
      case serials => exact fun t ht => h.serials t (hsub t ht)
      case distinct =>
        intro q q' d d' hd hd'
        rw [context_setEntry] at hd hd'
        split_ifs at hd hd' with hq hq'
        exact h.distinct q q' d d' hd hd'

theorem accounted_run {m : PluginManager P H} (h : m.Accounted)
    (events : List (PluginEvent P H)) : (Machine.run step m events).Accounted := by
  refine Machine.run_inv (fun m e hm _ => ?_) h (Machine.meets_true _ _ _)
  cases e with
  | start id start => exact hm.startPlugin id start
  | stop id stop => exact hm.stopPlugin id stop
  | call id call => exact hm.callPlugin id call

/-- A stop leaves the webapps, the autopilot providers and the tasks it cannot abort. -/
theorem Accounted.entries_after_stop {m : PluginManager P H} (h : m.Accounted) {id : String}
    (hid : (m.plugins.lookup id).isSome = true) (stop : P → P) :
    (m.stopPlugin id stop).1.registries.entries id =
        .leftover (m.registries.entries id).webapps (m.registries.entries id).autopilot
          ((m.registries.entries id).tasks.filter fun t => !(m.context id).any (·.aborts t)) ∧
      ∀ q, q ≠ id → (m.stopPlugin id stop).1.registries.entries q = m.registries.entries q := by
  obtain ⟨entry, he⟩ := Option.isSome_iff_exists.mp hid
  have hctx : m.context id = entry.context := by simp [context, he]
  by_cases hs : entry.status = .stopped
  · obtain ⟨hnone, hclean⟩ := h.stopped id entry he hs
    have hstop : (m.stopPlugin id stop).1 = m := by simp [PluginManager.stopPlugin, he, hs]
    rw [hstop, hctx, hnone]
    refine ⟨?_, fun q _ => rfl⟩
    rw [Entries.Clean] at hclean
    rw [hclean]
    simp [Entries.leftover]
  · simp only [PluginManager.stopPlugin, he, if_neg hs, hctx]
    refine ⟨m.registries.entries_stopped_self id entry.context, fun q hq => ?_⟩
    exact m.registries.entries_stopped_other hq fun t ht ha => h.aborted ht (hctx ▸ ha)

/-- In every state of every run, stopping a plugin leaves no trace of it exactly when it
has no webapp, no autopilot provider and no subscription of a start that failed; what
the others have is never touched. -/
theorem stop_leaves_no_trace_iff (m : PluginManager P H) (events : List (PluginEvent P H))
    (id : String) (stop : P → P) (hm : m.Initial)
    (hid : ((Machine.run step m events).plugins.lookup id).isSome = true) :
    let before := Machine.run step m events
    LeavesNoTrace before (before.stopPlugin id stop).1 id ↔ before.Disposable id := by
  intro before
  have hacc : before.Accounted := accounted_run hm.accounted events
  obtain ⟨hself, hothers⟩ := hacc.entries_after_stop hid stop
  have haborts : ∀ t ∈ (before.registries.entries id).tasks,
      ((before.context id).any (·.aborts t) = true ↔
        ∃ c ∈ before.context id, t.context = c.serial) := by
    intro t ht
    rw [Option.any_eq_true]
    refine exists_congr fun c => and_congr_right fun hc => ?_
    have hheld := (hacc.contexts id c hc).2.2 t (List.mem_of_mem_filter ht)
    exact ⟨fun ha => (of_decide_eq_true ha).1, fun hs => decide_eq_true ⟨hs, (hheld hs).2⟩⟩
  constructor
  · intro h
    have hnone := hself.symm.trans h.none
    rw [Entries.none, Entries.ext_iff] at hnone
    simp only [Entries.leftover] at hnone
    obtain ⟨-, -, -, -, -, -, -, hw, ha, ht⟩ := hnone
    refine ⟨hw, fun device => congrFun ha device, fun t hmem => ?_⟩
    have hkeep := List.filter_eq_nil_iff.mp ht t hmem
    exact (haborts t hmem).mp (by simpa using hkeep)
  · intro h
    refine ⟨hself.trans ?_, hothers⟩
    have htasks : (before.registries.entries id).tasks.filter
        (fun t => !(before.context id).any (·.aborts t)) = [] := by
      refine List.filter_eq_nil_iff.mpr fun t hmem => ?_
      simp [(haborts t hmem).mpr (h.tasks t hmem)]
    rw [htasks, h.webapps, funext h.autopilot]
    rfl

end PluginManager

section

/-- A start of the pilot that makes some calls and returns. -/
abbrev pilotCalls (calls : List (Call String)) : Unit → StartRun Unit String :=
  fun _ => ⟨calls, .returned ()⟩

abbrev steering : List (PluginEvent Unit String) :=
  [.start "pilot" (pilotCalls [.registerPutHandler "vessels.self" "steering.target" "set target",
      .registerDeltaInputHandler "drop own", .registerResourceProvider "routes" "routes"]),
    .call "pilot" (.subscribe (SubscriptionSpec.selfVessel []) "on heading")]

/-- A start with what the cleanup has no line for. -/
abbrev providing : List (PluginEvent Unit String) :=
  [.start "pilot" (pilotCalls [.registerAutopilotProvider "pilot-0" "provider",
    .registerWebapp ⟨"Pilot", none, "public"⟩])]

theorem pilotManager_initial : pilotManager.Initial := by
  refine ⟨fun id e he => ?_, rfl⟩
  have hlook : ((∅ : HashMap String (PluginEntry Unit)).insert "pilot"
      ⟨.plugin (), .stopped, none⟩).lookup id = some e := he
  rw [HashMap.lookup_insert] at hlook
  split_ifs at hlook with hid
  · rw [← Option.some.inj hlook]
    refine ⟨rfl, rfl, ?_⟩
    apply Entries.ext <;> simp [Registries.entries, PluginManager.register,
      PluginManager.setEntry, PluginManager.new, Entries.none, Entries.leftover]
  · simp at hlook

theorem stop_leaves_no_trace_steering :
    let before := Machine.run PluginManager.step pilotManager steering
    PluginManager.LeavesNoTrace before (before.stopPlugin "pilot" id).1 "pilot" := by
  have hd : (Machine.run PluginManager.step pilotManager steering).Disposable "pilot" := by
    have hpilots : (Machine.run PluginManager.step pilotManager steering).registries.autopilotManager
        = some ⟨∅, none⟩ := rfl
    refine ⟨by decide +kernel, fun device => ?_, by decide +kernel⟩
    simp [Registries.entries, hpilots]
  exact (PluginManager.stop_leaves_no_trace_iff pilotManager steering "pilot" id
    pilotManager_initial (by decide +kernel)).mpr hd

/-- Commands still reach the provider of the stopped plugin and its webapp is still
listed; a subscription of a start that failed goes on. -/
theorem stop_leaves_provider_and_task :
    let served := (Machine.run PluginManager.step pilotManager providing)
    let failed := (pilotManager.startPlugin "pilot" misconfigured).1
    ((served.stopPlugin "pilot" id).1.registries.entries "pilot").autopilot "pilot-0" =
        some "provider" ∧
      ((served.stopPlugin "pilot" id).1.registries.entries "pilot").webapps.length = 1 ∧
      ((failed.stopPlugin "pilot" id).1.registries.entries "pilot").tasks.length = 1 ∧
      ¬ PluginManager.LeavesNoTrace served (served.stopPlugin "pilot" id).1 "pilot" ∧
      ¬ PluginManager.LeavesNoTrace failed (failed.stopPlugin "pilot" id).1 "pilot" := by
  intro served failed
  have hprovider : ((served.stopPlugin "pilot" id).1.registries.entries "pilot").autopilot
      "pilot-0" = some "provider" := by decide +kernel
  have htask : ((failed.stopPlugin "pilot" id).1.registries.entries "pilot").tasks.length = 1 := by
    decide +kernel
  refine ⟨hprovider, by decide +kernel, htask, fun h => ?_, fun h => ?_⟩
  · rw [h.none] at hprovider
    cases hprovider
  · rw [h.none] at htask
    cases htask

end
end SignalK.Plugins
