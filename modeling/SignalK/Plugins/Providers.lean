import SignalK.Autopilot.NextPoint
import SignalK.Lib.Locks

/-! The manager of the autopilot providers behind its two locks. Every call is cut at the
points where it waits for a lock; what it reads and writes in between is one step. -/
namespace SignalK.Plugins.AutopilotManager

inductive Lock where
  | providers
  | defaultId
  deriving DecidableEq

variable {H : Type}

def new : AutopilotManager H := ⟨∅, none⟩

inductive Request (H : Type) where
  | register (deviceId : String) (provider : H) (pluginName : String)
  | get (id : String)
  | getDefault
  | defaultId
  | list
  | setDefault (id : String)
  | resolveId (id : String)
  /-- `resolve_provider!`, one after the other -/
  | resolveProvider (id : String)

inductive Response (H : Type) where
  | registered
  | provider (p : Option H)
  | id (id : Option String)
  | list (entries : List (String × String × Bool))
  | set (r : Except PluginError Unit)

/-- `(device_id, provider_name, is_default)` for every provider, in some order. -/
def entries (providers : HashMap String (ProviderEntry H)) (defaultId : Option String) :
    List (String × String × Bool) :=
  (HashMap.ascending providers).map fun e =>
    (e.1, e.2.pluginName, decide (defaultId = some e.1))

abbrev Call (H : Type) := Locks.Program Lock (AutopilotManager H) (Response H)

def getCall (id : String) : Call H :=
  .acquire .providers .read (.act (fun m => m) fun m =>
    .release .providers (.done (.provider (m.get id))))

def defaultIdCall (k : Option String → Call H) : Call H :=
  .acquire .defaultId .read (.act (fun m => m) fun m => .release .defaultId (k m.defaultId))

def resolveIdCall (id : String) (k : Option String → Call H) : Call H :=
  if id = "_default" then defaultIdCall k
  else
    .acquire .providers .read (.act (fun m => m) fun m => .release .providers
      (k (if (m.providers.lookup id).isSome then some id else none)))

def Request.call : Request H → Call H
  | .register deviceId provider pluginName =>
    .acquire .providers .write (.acquire .defaultId .write
      (.act (fun m => m.register deviceId provider pluginName) fun _ =>
        .release .defaultId (.release .providers (.done .registered))))
  | .get id => getCall id
  | .getDefault => defaultIdCall fun id => id.elim (.done (.provider none)) getCall
  | .defaultId => defaultIdCall fun id => .done (.id id)
  | .list =>
    .acquire .providers .read (defaultIdCall fun id =>
      .act (fun m => m) fun m => .release .providers (.done (.list (entries m.providers id))))
  | .setDefault id =>
    .acquire .providers .read (.act (fun m => m) fun m => .release .providers
      (if (m.providers.lookup id).isSome then
        .acquire .defaultId .write (.act (fun m => { m with defaultId := some id }) fun _ =>
          .release .defaultId (.done (.set (.ok ()))))
      else .done (.set (.error (.notFound ("Autopilot device not found: " ++ id))))))
  | .resolveId id => resolveIdCall id fun id => .done (.id id)
  | .resolveProvider id => resolveIdCall id fun id => id.elim (.done (.provider none)) getCall

def Lock.rank : Lock → Nat
  | .providers => 0
  | .defaultId => 1

theorem ascending_getCall {held : Lock → Option Locks.Mode} (h : ∀ l, held l = none)
    (id : String) : (getCall id : Call H).Ascending Lock.rank held := by
  refine ⟨fun k hk => absurd (h k) hk, fun _ l => ?_⟩
  cases l <;> simp [h]

theorem ascending_defaultIdCall {held : Lock → Option Locks.Mode} (h : held .defaultId = none)
    {k : Option String → Call H} (hk : ∀ id, (k id).Ascending Lock.rank held) :
    (defaultIdCall k).Ascending Lock.rank held := by
  refine ⟨fun l hl => ?_, fun m => ?_⟩
  · cases l with
    | providers => exact Nat.zero_lt_one
    | defaultId => exact absurd h hl
  · simpa [Locks.Program.Ascending, ← h] using hk m.defaultId

theorem ascending_resolveIdCall {held : Lock → Option Locks.Mode} (h : ∀ l, held l = none)
    (id : String) {k : Option String → Call H} (hk : ∀ id, (k id).Ascending Lock.rank held) :
    (resolveIdCall id k).Ascending Lock.rank held := by
  unfold resolveIdCall
  split
  · exact ascending_defaultIdCall (h _) hk
  · refine ⟨fun k hk => absurd (h k) hk, fun m => ?_⟩
    simpa [Locks.Program.Ascending, ← h .providers] using hk _

/-- Who needs both locks asks for the providers first. -/
theorem Request.ascending (r : Request H) : r.call.Ascending Lock.rank fun _ => none := by
  have hpilot : ∀ id : Option String,
      (id.elim (.done (.provider none)) getCall : Call H).Ascending Lock.rank fun _ => none := by
    intro id
    cases id with
    | none => exact fun _ => rfl
    | some id => exact ascending_getCall (fun _ => rfl) id
  cases r with
  | register deviceId provider pluginName =>
    refine ⟨fun k hk => absurd rfl hk, fun k hk => ?_, fun _ l => ?_⟩
    · cases k with
      | providers => exact Nat.zero_lt_one
      | defaultId => simp at hk
    · cases l <;> simp
  | get id => exact ascending_getCall (fun _ => rfl) id
  | getDefault => exact ascending_defaultIdCall rfl hpilot
  | defaultId =>
    have hdone : ∀ id, (.done (.id id) : Call H).Ascending Lock.rank fun _ => none :=
      fun _ _ => rfl
    exact ascending_defaultIdCall rfl hdone
  | list =>
    refine ⟨fun k hk => absurd rfl hk, ascending_defaultIdCall rfl fun id m l => ?_⟩
    cases l <;> simp
  | setDefault id =>
    refine ⟨fun k hk => absurd rfl hk, fun m => ?_⟩
    simp only [Locks.Program.Ascending, Function.update_idem]
    split
    · refine ⟨fun k hk => ?_, fun _ l => ?_⟩
      · cases k <;> simp at hk
      · cases l <;> simp
    · intro l
      cases l <;> simp
  | resolveId id => exact ascending_resolveIdCall (fun _ => rfl) id fun _ _ => rfl
  | resolveProvider id => exact ascending_resolveIdCall (fun _ => rfl) id hpilot

/-- What a lock guards. -/
def same : Lock → AutopilotManager H → AutopilotManager H → Prop
  | .providers, m, m' => m'.providers = m.providers
  | .defaultId, m, m' => m'.defaultId = m.defaultId

/-- Providers are never taken back, and neither is the default. -/
structure Grows (m m' : AutopilotManager H) : Prop where
  providers : ∀ id, (m.providers.lookup id).isSome → (m'.providers.lookup id).isSome
  defaultId : m.defaultId.isSome → m'.defaultId.isSome

theorem Grows.refl (m : AutopilotManager H) : Grows m m := ⟨fun _ => id, id⟩

theorem Grows.trans {m m' m'' : AutopilotManager H} (h : Grows m m') (h' : Grows m' m'') :
    Grows m m'' :=
  ⟨fun id hid => h'.providers id (h.providers id hid), fun hm => h'.defaultId (h.defaultId hm)⟩

/-- The default is a registered provider, and there is one as soon as there are providers. -/
structure Sound (m : AutopilotManager H) : Prop where
  registered : ∀ id, m.defaultId = some id → (m.providers.lookup id).isSome
  chosen : ∀ id, (m.providers.lookup id).isSome → m.defaultId.isSome

theorem sound_new : (new : AutopilotManager H).Sound where
  registered id h := by simp [new] at h
  chosen id h := by simp [new] at h

theorem sound_register {m : AutopilotManager H} (h : m.Sound) (deviceId : String) (provider : H)
    (pluginName : String) : (m.register deviceId provider pluginName).Sound ∧
      Grows m (m.register deviceId provider pluginName) := by
  have hlookup : ∀ id, ((m.register deviceId provider pluginName).providers.lookup id).isSome ↔
      id = deviceId ∨ (m.providers.lookup id).isSome := by
    intro id
    rw [register, HashMap.lookup_insert]
    by_cases hid : id = deviceId <;> simp [hid]
  have hdefault : m.defaultId.isSome →
      (m.register deviceId provider pluginName).defaultId.isSome := by
    intro hm
    rw [register]
    split
    · rfl
    · exact hm
  refine ⟨⟨fun id hid => ?_, fun id _ => ?_⟩, fun id hid => (hlookup id).mpr (.inr hid), hdefault⟩
  · rw [hlookup]
    simp only [register] at hid
    split at hid
    · exact .inl (Option.some.inj hid).symm
    · exact .inr (h.registered id hid)
  · by_cases hempty : m.providers.keys = ∅
    · simp [register, hempty]
    · obtain ⟨k, hk⟩ := Finset.nonempty_of_ne_empty hempty
      refine hdefault (h.chosen k ?_)
      rwa [Finmap.lookup_isSome, ← Finmap.mem_keys]

/-- What a request is answered that comes after the manager was like this. -/
def Request.Answered (m : AutopilotManager H) : Request H → Response H → Prop
  | .register .., .registered => True
  | .get id, .provider p => (m.providers.lookup id).isSome → p.isSome
  | .getDefault, .provider p => m.defaultId.isSome → p.isSome
  | .defaultId, .id id => m.defaultId.isSome → id.isSome
  | .list, .list entries =>
    (∀ id, (m.providers.lookup id).isSome → ∃ e ∈ entries, e.1 = id) ∧
    (entries = [] ∨ (entries.filter (·.2.2)).length = 1)
  | .setDefault id, .set r => (m.providers.lookup id).isSome → r = .ok ()
  | .resolveId id, .id r => (m.resolveId id).isSome → r.isSome
  | .resolveProvider id, .provider p => (m.resolveId id).isSome → p.isSome
  | _, _ => False

theorem mem_entries {providers : HashMap String (ProviderEntry H)} {defaultId : Option String}
    {id : String} (h : (providers.lookup id).isSome) :
    ∃ e ∈ entries providers defaultId, e.1 = id := by
  obtain ⟨entry, he⟩ := Option.isSome_iff_exists.mp h
  exact ⟨_, List.mem_map_of_mem (((HashMap.ascending_order providers).mem_iff id entry).mpr he), rfl⟩

theorem entries_nil {providers : HashMap String (ProviderEntry H)} {defaultId : Option String}
    (h : ∀ id, ¬(providers.lookup id).isSome) : entries providers defaultId = [] := by
  rw [entries, List.map_eq_nil_iff, List.eq_nil_iff_forall_not_mem]
  intro e he
  exact h e.1 (by rw [((HashMap.ascending_order providers).mem_iff e.1 e.2).mp he]; rfl)

/-- Exactly one entry of a list is marked as the default. -/
theorem entries_default {providers : HashMap String (ProviderEntry H)} {id : String}
    (hid : (providers.lookup id).isSome) :
    ((entries providers (some id)).filter (·.2.2)).length = 1 := by
  have horder := HashMap.ascending_order providers
  obtain ⟨entry, he⟩ := Option.isSome_iff_exists.mp hid
  have hmem := (horder.mem_iff id entry).mpr he
  rw [entries, List.filter_map, List.length_map]
  have hcount : ((HashMap.ascending providers).map Prod.fst).count id = 1 :=
    List.count_eq_one_of_mem horder.nodup (List.mem_map_of_mem hmem)
  rw [List.count, List.countP_map, List.countP_eq_length_filter] at hcount
  rw [← hcount]
  congr 1
  refine List.filter_congr fun e _ => ?_
  by_cases he : id = e.1
  · simp [he]
  · simp [he, Ne.symm he]

section Rules
variable {m₀ : AutopilotManager H} {post : Response H → Prop}
  {held : Lock → Option Locks.Mode} {know : AutopilotManager H → Prop}

abbrev Keeps (m₀ : AutopilotManager H) (post : Response H → Prop) :
    (Lock → Option Locks.Mode) → (AutopilotManager H → Prop) → Call H → Prop :=
  Locks.Outline same Grows (fun m _ => m.Sound ∧ Grows m₀ m) post

/-- What a call reads under a lock it goes on to know. -/
theorem keeps_read {l : Lock} {next : AutopilotManager H → Call H} (hl : held l = none)
    (h : ∀ m, m.Sound → Grows m₀ m → know m → ∃ know' : AutopilotManager H → Prop, know' m ∧
      Locks.Stable same Grows (Function.update held l (some .read)) know' ∧
      Keeps m₀ post (Function.update held l (some .read)) know' (next m)) :
    Keeps m₀ post held know (.acquire l .read (.act (fun m => m) next)) :=
  Locks.outline_read hl Grows.refl (fun k _ => by cases k <;> rfl)
    fun m _ _ hinv hknow => h m hinv.1 hinv.2 hknow

/-- The invariant holds while locks are held for writing, too. -/
theorem keeps_release {l : Lock} {next : Call H} (know' : AutopilotManager H → Prop)
    (hknow : ∀ m, know m → know' m)
    (hstable : Locks.Stable same Grows (Function.update held l none) know')
    (h : Keeps m₀ post (Function.update held l none) know' next) :
    Keeps m₀ post held know (.release l next) :=
  ⟨fun _ _ _ _ _ hinv => hinv, know', hknow, hstable, h⟩

/-- To take a lock teaches nothing that the invariant does not say anyway. -/
theorem keeps_acquire {l : Lock} {mode : Locks.Mode} {next : Call H} (hl : held l = none)
    (h : Keeps m₀ post (Function.update held l (some mode)) (fun m => know m ∧ True) next) :
    Keeps m₀ post held know (.acquire l mode next) :=
  ⟨hl, fun _ => True, fun _ _ _ _ hinv _ => ⟨trivial, fun _ => hinv⟩, Locks.stable_true, h⟩

theorem keeps_getCall (h : ∀ l, held l = none) (id : String)
    (hpost : ∀ m, m.Sound → Grows m₀ m → know m → post (.provider (m.get id))) :
    Keeps m₀ post held know (getCall id) := by
  refine keeps_read (h _) fun m hm hg hknow => ⟨fun _ => True, trivial, Locks.stable_true, ?_⟩
  exact keeps_release (fun _ => True) (fun _ _ => trivial) Locks.stable_true (hpost m hm hg hknow)

variable (held) in
/-- What is known of the default must not rest on the lock that was given back. -/
theorem keeps_defaultIdCall (h : held .defaultId = none) {k : Option String → Call H}
    (hk : ∀ m, m.Sound → Grows m₀ m → know m → ∃ know' : AutopilotManager H → Prop, know' m ∧
      Locks.Stable same Grows held know' ∧ Keeps m₀ post held know' (k m.defaultId)) :
    Keeps m₀ post held know (defaultIdCall k) := by
  refine keeps_read h fun m hm hg hknow => ?_
  obtain ⟨know', hknow', hstable, hnext⟩ := hk m hm hg hknow
  have hback : Function.update (Function.update held .defaultId (some .read)) .defaultId none =
      held := by
    rw [Function.update_idem, ← h, Function.update_eq_self]
  refine ⟨know', hknow', hstable.acquire h, keeps_release know' (fun _ hm => hm) ?_ ?_⟩ <;>
    rwa [hback]

/-- The providers of a manager are still there later, and so is its default. -/
theorem get_of_isSome {m : AutopilotManager H} {id : String}
    (h : (m.providers.lookup id).isSome) : (m.get id).isSome := by
  rw [get, Option.isSome_map]
  exact h

/-- A provider that was there is there: to look it up by the id that came out. -/
def Leads (m : AutopilotManager H) (id : Option String) : Prop :=
  ∀ i, id = some i → (m.providers.lookup i).isSome

theorem stable_leads (id : Option String) :
    Locks.Stable same Grows held fun m : AutopilotManager H => Leads m id :=
  fun _ _ hg _ h i hi => hg.providers i (h i hi)

theorem keeps_resolveIdCall (h : ∀ l, held l = none) (id : String)
    {k : Option String → Call H}
    (hk : ∀ r : Option String, ((m₀.resolveId id).isSome → r.isSome) →
      Keeps m₀ post held (fun m => Leads m r) (k r)) :
    Keeps m₀ post held know (resolveIdCall id k) := by
  unfold resolveIdCall
  split
  · rename_i hid
    refine keeps_defaultIdCall held (h _) fun m hm hg _ =>
      ⟨fun m' => Leads m' m.defaultId, hm.registered, stable_leads _, hk _ fun hr => ?_⟩
    rw [resolveId, if_pos hid] at hr
    exact hg.defaultId hr
  · rename_i hid
    have hback : Function.update (Function.update held .providers (some .read)) .providers none =
        held := by
      rw [Function.update_idem, ← h .providers, Function.update_eq_self]
    refine keeps_read (h _) fun m _ hg _ => ?_
    have hleads : Leads m (if (m.providers.lookup id).isSome then some id else none) := by
      intro i hi
      split at hi
      · rename_i hsome
        exact Option.some.inj hi ▸ hsome
      · cases hi
    refine ⟨fun m' => Leads m' (if (m.providers.lookup id).isSome then some id else none), hleads,
      stable_leads _, keeps_release _ (fun _ hm => hm) (stable_leads _) ?_⟩
    rw [hback]
    refine hk _ fun hr => ?_
    have hold : (m₀.providers.lookup id).isSome := by
      rw [resolveId, if_neg hid] at hr
      by_contra hnot
      simp [hnot] at hr
    rw [if_pos (hg.providers id hold)]
    rfl

end Rules

theorem Request.keeps {m₀ : AutopilotManager H} (r : Request H) :
    Keeps m₀ (r.Answered m₀) (fun _ => none) (fun _ => True) r.call := by
  cases r with
  | register deviceId provider pluginName =>
    refine keeps_acquire rfl (keeps_acquire rfl fun m w _ hinv _ => ?_)
    obtain ⟨hsound, hgrows⟩ := sound_register hinv.1 deviceId provider pluginName
    refine ⟨⟨hsound, hinv.2.trans hgrows⟩, hgrows, fun l hl => ?_, fun _ => True, trivial,
      Locks.stable_true, ?_⟩
    · cases l <;> simp at hl
    · exact keeps_release (fun _ => True) (fun _ _ => trivial) Locks.stable_true
        (keeps_release (fun _ => True) (fun _ _ => trivial) Locks.stable_true trivial)
  | get id =>
    exact keeps_getCall (fun _ => rfl) id fun m _ hg _ h => get_of_isSome (hg.providers id h)
  | getDefault =>
    rw [Request.call]
    refine keeps_defaultIdCall (fun _ => none) rfl fun m hm hg _ =>
      ⟨fun m' => Leads m' m.defaultId, hm.registered, stable_leads _, ?_⟩
    cases hd : m.defaultId with
    | none =>
      intro h
      have := hg.defaultId h
      simp [hd] at this
    | some id =>
      exact keeps_getCall (fun _ => rfl) id fun m' _ _ hl _ => get_of_isSome (hl id rfl)
  | defaultId =>
    rw [Request.call]
    refine keeps_defaultIdCall (fun _ => none) rfl fun m _ hg _ =>
      ⟨fun _ => True, trivial, Locks.stable_true, ?_⟩
    exact hg.defaultId
  | list =>
    -- the providers stay locked, so that the default that was read is one of them
    refine keeps_acquire rfl (keeps_defaultIdCall _ (by simp) fun m hm _ _ =>
      ⟨fun m' => m'.providers = m.providers, rfl, fun m₁ m₂ _ hs h => ?_, ?_⟩)
    · exact (hs .providers (by simp)).trans h
    · intro m' w _ hinv hsame
      refine ⟨hinv, Grows.refl m', fun l _ => by cases l <;> rfl, fun _ => True, trivial,
        Locks.stable_true, keeps_release (fun _ => True) (fun _ _ => trivial) Locks.stable_true ?_⟩
      refine ⟨fun id hid => mem_entries (hinv.2.providers id hid), ?_⟩
      cases hd : m.defaultId with
      | none =>
        refine .inl (entries_nil fun id => ?_)
        by_contra hid
        have := hm.chosen id (by simpa [hsame] using hid)
        simp [hd] at this
      | some id => exact .inr (entries_default (hsame ▸ hm.registered id hd))
  | setDefault id =>
    refine keeps_read (by rfl) fun m _ hg _ =>
      ⟨fun m' => (m.providers.lookup id).isSome → (m'.providers.lookup id).isSome, fun h => h,
        fun _ _ hg' _ h hid => hg'.providers id (h hid), ?_⟩
    refine keeps_release _ (fun _ h => h) (fun _ _ hg' _ h hid => hg'.providers id (h hid)) ?_
    split
    · rename_i hid
      refine keeps_acquire (by simp) fun m' w _ hinv hknow => ?_
      have hgrows : Grows m' { m' with defaultId := some id } := ⟨fun _ h => h, fun _ => rfl⟩
      refine ⟨⟨⟨fun i hi => ?_, fun _ _ => rfl⟩, hinv.2.trans hgrows⟩, hgrows, fun l hl => ?_,
        fun _ => True, trivial, Locks.stable_true,
        keeps_release (fun _ => True) (fun _ _ => trivial) Locks.stable_true fun _ => rfl⟩
      · exact Option.some.inj hi ▸ hknow.1 hid
      · cases l with
        | providers => rfl
        | defaultId => simp at hl
    · rename_i hid
      exact fun h => absurd (hg.providers id h) hid
  | resolveId id => exact keeps_resolveIdCall (fun _ => rfl) id fun r hr => hr
  | resolveProvider id =>
    refine keeps_resolveIdCall (fun _ => rfl) id fun r hr => ?_
    cases r with
    | none => exact fun h => by simpa using hr h
    | some i =>
      exact keeps_getCall (fun _ => rfl) i fun m' _ _ hl _ => get_of_isSome (hl i rfl)

/-- Any number of calls at the same time, in any order of their steps: each one returns, the
default is registered at every moment, and whoever asks after a provider has been registered
is led to one. -/
theorem concurrent_calls {ι : Type} [Fintype ι] [DecidableEq ι] (m : AutopilotManager H)
    (hm : m.Sound) (requests : ι → Request H) (turns : Nat → Locks.Turn ι Lock) :
    let pool := Locks.after (Locks.start m fun i => (requests i).call) turns
    (Locks.Diligent (Locks.start m fun i => (requests i).call) turns →
      ∃ n, ∀ i, ((pool n).program i).result.isSome) ∧
    ∀ n, (pool n).shared.Sound ∧
      ∀ i r, ((pool n).program i).result = some r → (requests i).Answered m r := by
  refine ⟨Locks.diligent_returns (Locks.orderly_start fun i => (requests i).ascending), fun n => ?_⟩
  have hkept := Locks.kept_after (Locks.kept_start ⟨hm, Grows.refl m⟩ fun i => (requests i).keeps)
    turns n
  exact ⟨hkept.inv.1, fun i r hr => hkept.returned hr⟩

/-- A client asks for the default while the first pilot is registered. -/
theorem first_pilot_called :
    (Locks.after (Locks.start (new : AutopilotManager Unit) fun registers : Bool =>
        (if registers then .register "pilot" () "autopilot" else .getDefault : Request Unit).call)
      (fun n => if n % 2 = 0 then .go true else .grant .providers) 6).shared.Sound :=
  ((concurrent_calls new sound_new
    (fun registers : Bool => if registers then .register "pilot" () "autopilot" else .getDefault)
    fun n => if n % 2 = 0 then .go true else .grant .providers).2 6).1

end SignalK.Plugins.AutopilotManager
