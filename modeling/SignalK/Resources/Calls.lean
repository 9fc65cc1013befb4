import SignalK.Lib.Locks
import SignalK.Plugins.Registries
import SignalK.Resources.Registry

/-! The resource registry behind its two locks. A call is cut where it waits for a lock and
where it waits for a provider; what providers do to their data is one step each. -/
namespace SignalK.Resources

namespace ResourceProviderRegistry
variable {π : Type} (r : ResourceProviderRegistry π)

def new (fileProvider : π) : ResourceProviderRegistry π := ⟨∅, ∅, fileProvider⟩

/-- A plugin that is registered already has its provider replaced. -/
def register (resourceType pluginId : String) (provider : π) : ResourceProviderRegistry π :=
  { r with
    providers := r.providers.alter resourceType []
      (Plugins.ResourceProviderRegistry.place pluginId provider) }

def listProviderIds (resourceType : String) : List String :=
  (r.registered resourceType).map Prod.fst ++ ["file-provider"]

def getActiveProviderId (resourceType : String) : String :=
  (r.defaultCreateProvider.lookup resourceType).getD "file-provider"

/-- Every default is a plugin that is registered for the type, but for one that is leaving. -/
def NamedBut (leaving : Option String) : Prop :=
  ∀ t p, r.defaultCreateProvider.lookup t = some p → some p ≠ leaving →
    ∃ e ∈ r.registered t, e.1 = p

abbrev Named : Prop := r.NamedBut none

variable {r} {r' : ResourceProviderRegistry π}

theorem registered_congr (h : r'.providers = r.providers) : r'.registered = r.registered :=
  funext fun t => by rw [registered, registered, h]

/-- To take defaults back, and to choose a plugin that is registered. -/
theorem NamedBut.of_defaults {q : Option String} (h : r.NamedBut q)
    (hproviders : r'.providers = r.providers)
    (hdefaults : ∀ t p, r'.defaultCreateProvider.lookup t = some p →
      r.defaultCreateProvider.lookup t = some p ∨ ∃ e ∈ r.registered t, e.1 = p) :
    r'.NamedBut q := by
  intro t p hp hq
  rw [registered_congr hproviders]
  cases hdefaults t p hp with
  | inl hold => exact h t p hold hq
  | inr hnew => exact hnew

theorem named_new {p : π} : (new p).Named := by
  intro t q hq
  simp [new] at hq

theorem mem_place {l : List (String × π)} {e : String × π} {pluginId : String} (provider : π)
    (h : e ∈ l) :
    ∃ e' ∈ Plugins.ResourceProviderRegistry.place pluginId provider l, e'.1 = e.1 := by
  induction l with
  | nil => cases h
  | cons d l ih =>
    unfold Plugins.ResourceProviderRegistry.place
    split
    · obtain rfl | h := List.mem_cons.mp h
      · exact ⟨_, List.mem_cons_self, rfl⟩
      · exact ⟨e, List.mem_cons_of_mem _ h, rfl⟩
    · obtain rfl | h := List.mem_cons.mp h
      · exact ⟨_, List.mem_cons_self, rfl⟩
      · obtain ⟨e', he', hid⟩ := ih h
        exact ⟨e', List.mem_cons_of_mem _ he', hid⟩

theorem Named.register (h : r.Named) (resourceType pluginId : String) (provider : π) :
    (r.register resourceType pluginId provider).Named := by
  intro t p hp hq
  obtain ⟨e, he, rfl⟩ := h t p hp hq
  by_cases ht : t = resourceType
  · subst ht
    have hreg : (r.register t pluginId provider).registered t =
        Plugins.ResourceProviderRegistry.place pluginId provider (r.registered t) := by
      simp [registered, ResourceProviderRegistry.register, HashMap.lookup_alter]
    exact hreg ▸ mem_place provider he
  · refine ⟨e, ?_, rfl⟩
    simpa [registered, ResourceProviderRegistry.register, HashMap.lookup_alter, ht] using he

end ResourceProviderRegistry

/-- A call that has reached a provider, and who was registered at that moment. -/
structure Visit (π : Type) where
  targeted : Bool
  provider : π
  polled : List π

/-- The registry, the data of the providers, and the record of the calls that reached them. -/
structure Server (π σ : Type) where
  registry : ResourceProviderRegistry π
  world : σ
  visits : List (Visit π)

namespace Server

inductive Lock where
  | providers
  | defaultCreateProvider
  deriving DecidableEq

inductive Request (π : Type) where
  | register (resourceType pluginId : String) (provider : π)
  | unregister (pluginId : String)
  | setDefaultProvider (resourceType pluginId : String)
  | listProviderIds (resourceType : String)
  | getActiveProviderId (resourceType : String)
  | list (resourceType : String) (query : ResourceQueryParams)
  | get (resourceType id : String) (provider : Option String)
  | create (resourceType : String) (value : Json) (provider : Option String)
  | update (resourceType id : String) (value : Json) (provider : Option String)
  | delete (resourceType id : String) (provider : Option String)

inductive Response where
  | done
  | set (r : Except PluginError Unit)
  | ids (ids : List String)
  | active (id : String)
  | list (r : Except PluginError Json)
  | get (r : Except PluginError (Option Json))
  | create (r : Except PluginError String)
  | change (r : Except PluginError Unit)

variable {π σ : Type}

abbrev Call (π σ : Type) := Locks.Program Lock (Server π σ) Response

/-- The registry is looked at under the locks the call holds. -/
def look (next : ResourceProviderRegistry π → Call π σ) : Call π σ :=
  .act (fun s => s) fun s => next s.registry

/-- A provider does its work. -/
def visit {α : Type} (targeted : Bool) (resourceType : String)
    (provider : ResourceProviderRegistry π → π) (op : π → σ → α × σ) (next : α → Call π σ) :
    Call π σ :=
  .act (fun s => { s with
      world := (op (provider s.registry) s.world).2
      visits := ⟨targeted, provider s.registry, s.registry.polled resourceType⟩ :: s.visits })
    fun s => next (op (provider s.registry) s.world).1

/-- The provider outlives the lock: it may be unregistered before it is called. -/
def findProvider (resourceType pluginId : String) (next : Except PluginError π → Call π σ) :
    Call π σ :=
  if pluginId = "file-provider" then look fun r => next (r.findProvider resourceType pluginId)
  else
    .acquire .providers .read (look fun r => .release .providers
      (next (r.findProvider resourceType pluginId)))

/-- One provider, named in the request. -/
def target {α : Type} (resourceType pluginId : String) (op : π → σ → Except PluginError α × σ)
    (reply : Except PluginError α → Response) : Call π σ :=
  findProvider resourceType pluginId fun found =>
    match found with
    | .ok p => visit true resourceType (fun _ => p) op fun answer => .done (reply answer)
    | .error e => .done (reply (.error e))

variable (b : Providers π σ) (resourceType : String)

/-- The loop of `list`, with what has been merged so far. -/
def pollList (query : ResourceQueryParams) :
    List (String × Json) → List (String × π) → Call π σ
  | merged, [] => .release .providers
    (visit false resourceType (·.fileProvider) (fun p s => (b.list p resourceType query s, s))
      fun answer => .done (.list (.ok (.object (ResourceProviderRegistry.applyLimit query.limit
        (ResourceProviderRegistry.merge merged answer))))))
  | merged, (_, p) :: list =>
    visit false resourceType (fun _ => p) (fun p s => (b.list p resourceType query s, s))
      fun answer => pollList query (ResourceProviderRegistry.merge merged answer) list

/-- The loop of `get`, of `update` and of `delete`: go on to the next provider, or answer. -/
def poll {α : Type} (op : π → σ → Except PluginError α × σ)
    (passes : Except PluginError α → Bool) (reply : Except PluginError α → Response) :
    List (String × π) → Call π σ
  | [] => .release .providers
    (visit false resourceType (·.fileProvider) op fun answer => .done (reply answer))
  | (_, p) :: list =>
    visit false resourceType (fun _ => p) op fun answer =>
      if passes answer then poll op passes reply list
      else .release .providers (.done (reply answer))

/-- An operation on the provider that the request names, or on all in turn. -/
def targeted {α : Type} (provider : Option String) (op : π → σ → Except PluginError α × σ)
    (passes : Except PluginError α → Bool) (reply : Except PluginError α → Response) :
    Call π σ :=
  match provider with
  | some pluginId => target resourceType pluginId op reply
  | none => .acquire .providers .read
    (look fun r => poll resourceType op passes reply (r.registered resourceType))

/-- Absent is not found, or nothing was found. -/
def getPasses : Except PluginError (Option Json) → Bool
  | .ok v => v.isNone
  | .error e => isNotFound e

def changePasses : Except PluginError Unit → Bool
  | .ok () => false
  | .error e => isNotFound e

def createCall (value : Json) : Call π σ :=
  let op := fun p => b.create p resourceType value
  let reply := fun answer => (.done (.create answer) : Call π σ)
  .acquire .defaultCreateProvider .read (look fun r =>
    match r.defaultCreateProvider.lookup resourceType with
    | some defaultId => .release .defaultCreateProvider (.acquire .providers .read (look fun r =>
        match (r.registered resourceType).find? (·.1 = defaultId) with
        | some (_, p) => visit false resourceType (fun _ => p) op fun answer =>
          .release .providers (reply answer)
        | none => .release .providers (visit false resourceType (·.fileProvider) op reply)))
    | none => visit false resourceType (·.fileProvider) op fun answer =>
      .release .defaultCreateProvider (reply answer))

def write (change : ResourceProviderRegistry π → ResourceProviderRegistry π) (next : Call π σ) :
    Call π σ :=
  .act (fun s => { s with registry := change s.registry }) fun _ => next

def setDefaultCall (pluginId : String) : Call π σ :=
  if pluginId = "file-provider" then
    .acquire .defaultCreateProvider .write
      (write (fun r => { r with
          defaultCreateProvider := r.defaultCreateProvider.erase resourceType })
        (.release .defaultCreateProvider (.done (.set (.ok ())))))
  else
    .acquire .providers .read (look fun r =>
      if (r.registered resourceType).any (·.1 = pluginId) then
        .acquire .defaultCreateProvider .write
          (write (fun r => { r with
              defaultCreateProvider := r.defaultCreateProvider.insert resourceType pluginId })
            (.release .defaultCreateProvider (.release .providers (.done (.set (.ok ()))))))
      else .release .providers (.done (.set (.error (.notFound
        ("Provider '" ++ pluginId ++ "' not registered for '" ++ resourceType ++ "'"))))))

def unregisterCall (pluginId : String) : Call π σ :=
  .acquire .providers .write
    (write (fun r => { r with
        providers := r.providers.mapValues fun _ list => list.filter (·.1 ≠ pluginId) })
      (.acquire .defaultCreateProvider .write
        (write (fun r => { r with
            defaultCreateProvider := r.defaultCreateProvider.retain fun _ v =>
              decide (v ≠ pluginId) })
          (.release .defaultCreateProvider (.release .providers (.done .done))))))

def Request.call : Request π → Call π σ
  | .register t pluginId provider =>
    .acquire .providers .write (write (fun r => r.register t pluginId provider)
      (.release .providers (.done .done)))
  | .unregister pluginId => unregisterCall pluginId
  | .setDefaultProvider t pluginId => setDefaultCall t pluginId
  | .listProviderIds t =>
    .acquire .providers .read (look fun r =>
      .release .providers (.done (.ids (r.listProviderIds t))))
  | .getActiveProviderId t =>
    .acquire .defaultCreateProvider .read (look fun r =>
      .release .defaultCreateProvider (.done (.active (r.getActiveProviderId t))))
  | .list t query =>
    match query.provider with
    | some pluginId =>
      target t pluginId (fun p s => (b.list p t query s, s)) Response.list
    | none => .acquire .providers .read (look fun r => pollList b t query [] (r.registered t))
  | .get t id provider =>
    targeted t provider (fun p s => (b.get p t id s, s)) getPasses Response.get
  | .create t value provider =>
    match provider with
    | some pluginId => target t pluginId (fun p => b.create p t value) Response.create
    | none => createCall b t value
  | .update t id value provider =>
    targeted t provider (fun p => b.update p t id value) changePasses Response.change
  | .delete t id provider =>
    targeted t provider (fun p => b.delete p t id) changePasses Response.change

section Order
variable {b : Providers π σ} {resourceType : String} {held : Lock → Option Locks.Mode}

def Lock.rank : Lock → Nat
  | .providers => 0
  | .defaultCreateProvider => 1

abbrev Ascends (held : Lock → Option Locks.Mode) (c : Call π σ) : Prop :=
  c.Ascending Lock.rank held

theorem update_back (l : Lock) (m : Option Locks.Mode) :
    Function.update (Function.update (fun _ : Lock => (none : Option Locks.Mode)) l m) l none =
      fun _ => none := by
  rw [Function.update_idem, Function.update_eq_self]

theorem update_inner (m m' : Option Locks.Mode) :
    Function.update (Function.update (Function.update (fun _ : Lock => none) .providers m)
      .defaultCreateProvider m') .defaultCreateProvider none =
      Function.update (fun _ => none) .providers m := by
  rw [Function.update_idem]
  exact Function.update_eq_self_iff.mpr (by simp)

theorem ascends_release {l : Lock} {m : Option Locks.Mode} {next : Call π σ}
    (h : Ascends (fun _ => none) next) :
    Ascends (Function.update (fun _ => none) l m) (.release l next) := by
  simpa only [Ascends, Locks.Program.Ascending, update_back] using h

theorem ascends_acquire {l : Lock} {m : Locks.Mode} {next : Call π σ}
    (h : Ascends (Function.update (fun _ => none) l (some m)) next) :
    Ascends (fun _ => none) (.acquire l m next) :=
  ⟨fun _ hk => absurd rfl hk, h⟩

theorem ascends_target {α : Type} {pluginId : String} {op : π → σ → Except PluginError α × σ}
    {reply : Except PluginError α → Response} :
    Ascends (fun _ => none) (target resourceType pluginId op reply) := by
  have hfound : ∀ found : Except PluginError π, Ascends (fun _ => none)
      (match found with
        | .ok p => visit true resourceType (fun _ => p) op fun answer => .done (reply answer)
        | .error e => .done (reply (.error e)) : Call π σ) := by
    intro found
    cases found with
    | ok p => exact fun _ _ => rfl
    | error e => exact fun _ => rfl
  unfold target findProvider
  split
  · exact fun s => hfound _
  · exact ascends_acquire fun s => ascends_release (hfound _)

theorem ascends_poll {α : Type} {op : π → σ → Except PluginError α × σ}
    {passes : Except PluginError α → Bool} {reply : Except PluginError α → Response}
    (list : List (String × π)) :
    Ascends (Function.update (fun _ => none) .providers (some .read))
      (poll resourceType op passes reply list) := by
  induction list with
  | nil => exact ascends_release fun _ _ => rfl
  | cons e list ih =>
    intro s
    dsimp only
    split
    · exact ih
    · exact ascends_release fun _ => rfl

theorem ascends_pollList {query : ResourceQueryParams} (merged : List (String × Json))
    (list : List (String × π)) :
    Ascends (Function.update (fun _ => none) .providers (some .read))
      (pollList b resourceType query merged list) := by
  induction list generalizing merged with
  | nil => exact ascends_release fun _ _ => rfl
  | cons e list ih => exact fun s => ih _

theorem ascends_targeted {α : Type} {provider : Option String}
    {op : π → σ → Except PluginError α × σ} {passes : Except PluginError α → Bool}
    {reply : Except PluginError α → Response} :
    Ascends (fun _ => none) (targeted resourceType provider op passes reply) := by
  cases provider with
  | some pluginId => exact ascends_target
  | none => exact ascends_acquire fun s => ascends_poll _

theorem ascends_create {value : Json} :
    Ascends (fun _ => none) (createCall b resourceType value) := by
  refine ascends_acquire fun s => ?_
  dsimp only
  split
  · refine ascends_release (ascends_acquire fun s' => ?_)
    dsimp only
    split
    · exact fun _ => ascends_release fun _ => rfl
    · exact ascends_release fun _ _ => rfl
  · exact fun _ => ascends_release fun _ => rfl

/-- Both locks are taken in one order only: the providers first. -/
theorem ascends_inner {m m' : Locks.Mode} {change} {next : Call π σ}
    (h : Ascends (Function.update (fun _ => none) .providers (some m)) next) :
    Ascends (Function.update (fun _ => none) .providers (some m))
      (.acquire .defaultCreateProvider m' (write change (.release .defaultCreateProvider next))) := by
  refine ⟨fun k hk => ?_, fun _ => ?_⟩
  · cases k with
    | providers => exact Nat.zero_lt_one
    | defaultCreateProvider => simp at hk
  · simpa only [Ascends, Locks.Program.Ascending, update_inner] using h

theorem Request.ascends (r : Request π) : Ascends (fun _ => none) (r.call b) := by
  cases r with
  | register t pluginId provider => exact ascends_acquire fun _ => ascends_release fun _ => rfl
  | unregister pluginId =>
    exact ascends_acquire fun _ => ascends_inner (ascends_release fun _ => rfl)
  | setDefaultProvider t pluginId =>
    simp only [Request.call, setDefaultCall]
    split
    · exact ascends_acquire fun _ => ascends_release fun _ => rfl
    · refine ascends_acquire fun s => ?_
      dsimp only
      split
      · exact ascends_inner (ascends_release fun _ => rfl)
      · exact ascends_release fun _ => rfl
  | listProviderIds t => exact ascends_acquire fun _ => ascends_release fun _ => rfl
  | getActiveProviderId t => exact ascends_acquire fun _ => ascends_release fun _ => rfl
  | list t query =>
    simp only [Request.call]
    split
    · exact ascends_target
    · exact ascends_acquire fun _ => ascends_pollList _ _
  | get t id provider => exact ascends_targeted
  | create t value provider =>
    simp only [Request.call]
    split
    · exact ascends_target
    · exact ascends_create
  | update t id value provider => exact ascends_targeted
  | delete t id provider => exact ascends_targeted

end Order

/-- What a lock guards. -/
def same : Lock → Server π σ → Server π σ → Prop
  | .providers, s, s' => s'.registry.providers = s.registry.providers
  | .defaultCreateProvider, s, s' =>
    s'.registry.defaultCreateProvider = s.registry.defaultCreateProvider

/-- Who leaves the providers alone leaves the defaults named. -/
def Grows (s s' : Server π σ) : Prop :=
  s'.registry.providers = s.registry.providers →
    ∀ q, s.registry.NamedBut q → s'.registry.NamedBut q

theorem Grows.of_registry {s s' : Server π σ} (h : s'.registry = s.registry) : Grows s s' :=
  fun _ _ hq => h ▸ hq

/-- While nobody changes the providers the defaults are named, and only a request for one
provider can reach one that is registered no more. -/
def Sound (s : Server π σ) (w : Set Lock) : Prop :=
  (.providers ∉ w → s.registry.Named) ∧
  ∀ v ∈ s.visits, v.targeted = false → v.provider ∈ v.polled

section Rules
variable {b : Providers π σ} {resourceType : String} {held : Lock → Option Locks.Mode}
  {K : ResourceProviderRegistry π → Prop}

/-- All that calls know is about the registry. -/
abbrev Stable (σ : Type) (held : Lock → Option Locks.Mode) (K : ResourceProviderRegistry π → Prop) :
    Prop :=
  Locks.Stable same Grows held fun s : Server π σ => K s.registry

abbrev Keeps (held : Lock → Option Locks.Mode) (K : ResourceProviderRegistry π → Prop)
    (c : Call π σ) : Prop :=
  Locks.Outline same Grows Sound (fun _ => True) held (fun s => K s.registry) c

theorem stable_registered (h : held .providers ≠ none)
    (P : (String → List (String × π)) → Prop) : Stable σ held fun r => P r.registered := by
  intro s s' _ hs hp
  have hsame : s'.registry.registered = s.registry.registered := by
    refine funext fun t => ?_
    rw [ResourceProviderRegistry.registered, ResourceProviderRegistry.registered, hs _ h]
  change P s'.registry.registered
  rw [hsame]
  exact hp

theorem stable_namedBut (h : held .providers ≠ none) (q : Option String) :
    Stable σ held fun r : ResourceProviderRegistry π => r.NamedBut q :=
  fun _ _ hg hs hn => hg (hs _ h) q hn

theorem keeps_look {next : ResourceProviderRegistry π → Call π σ} (hstable : Stable σ held K)
    (h : ∀ r, Keeps held K (next r)) : Keeps held K (look next) :=
  fun s _ _ hinv hk => ⟨hinv, Grows.of_registry rfl, fun l _ => by cases l <;> rfl,
    fun s => K s.registry, hk, hstable, h s.registry⟩

theorem keeps_visit {α : Type} {t : Bool} {provider : ResourceProviderRegistry π → π}
    {op : π → σ → α × σ} {next : α → Call π σ} (hstable : Stable σ held K)
    (hin : ∀ r, K r → t = false → provider r ∈ r.polled resourceType)
    (h : ∀ a, Keeps held K (next a)) : Keeps held K (visit t resourceType provider op next) := by
  intro s w _ hinv hk
  refine ⟨⟨hinv.1, ?_⟩, Grows.of_registry rfl, fun l _ => by cases l <;> rfl,
    fun s => K s.registry, hk, hstable, h _⟩
  rw [List.forall_mem_cons]
  exact ⟨hin s.registry hk, hinv.2⟩

theorem keeps_release {l : Lock} {m : Option Locks.Mode} {next : Call π σ}
    (hm : m ≠ some .write) (h : Keeps (fun _ => none) (fun _ => True) next) :
    Keeps (Function.update (fun _ => none) l m) K (.release l next) := by
  refine Locks.outline_release (by simpa using hm) (fun _ => True) (fun _ _ => trivial)
    Locks.stable_true ?_
  rw [update_back]
  exact h

theorem keeps_read {l : Lock} {next : ResourceProviderRegistry π → Call π σ}
    (h : ∀ r, ∃ K' : ResourceProviderRegistry π → Prop, K' r ∧
      Stable σ (Function.update (fun _ => none) l (some .read)) K' ∧
      Keeps (Function.update (fun _ => none) l (some .read)) K' (next r)) :
    Keeps (fun _ => none) K (.acquire l .read (look next)) := by
  refine Locks.outline_read rfl (fun _ => Grows.of_registry rfl) (fun k _ => by cases k <;> rfl)
    fun s _ _ _ _ => ?_
  obtain ⟨K', hk', hstable, hnext⟩ := h s.registry
  exact ⟨fun s => K' s.registry, hk', hstable, hnext⟩

/-- A reply is made without locks and nothing is known. -/
theorem keeps_target {α : Type} {pluginId : String} {op : π → σ → Except PluginError α × σ}
    {reply : Except PluginError α → Response} :
    Keeps (fun _ => none) (fun _ => True) (target resourceType pluginId op reply) := by
  have hfound : ∀ found : Except PluginError π, Keeps (fun _ => none) (fun _ => True)
      (match found with
        | .ok p => visit true resourceType (fun _ => p) op fun answer => .done (reply answer)
        | .error e => .done (reply (.error e)) : Call π σ) := by
    intro found
    cases found with
    | ok p => exact keeps_visit Locks.stable_true (fun _ _ h => by cases h) fun _ => trivial
    | error e => trivial
  unfold target findProvider
  split
  · exact keeps_look Locks.stable_true fun r => hfound _
  · exact keeps_read fun r => ⟨fun _ => True, trivial, Locks.stable_true,
      keeps_release (by simp) (hfound _)⟩

/-- Those left to be polled are registered. -/
abbrev Polls (resourceType : String) (list : List (String × π))
    (r : ResourceProviderRegistry π) : Prop :=
  ∀ e ∈ list, e ∈ r.registered resourceType

theorem stable_polls (list : List (String × π)) :
    Stable σ (Function.update (fun _ => none) .providers (some .read))
      (Polls resourceType list) :=
  stable_registered (by simp) fun registered => ∀ e ∈ list, e ∈ registered resourceType

theorem mem_polled {r : ResourceProviderRegistry π} {e : String × π}
    (h : e ∈ r.registered resourceType) : e.2 ∈ r.polled resourceType :=
  List.mem_append_left _ (List.mem_map_of_mem h)

theorem fileProvider_mem_polled (r : ResourceProviderRegistry π) :
    r.fileProvider ∈ r.polled resourceType :=
  List.mem_append_right _ (List.mem_singleton.mpr rfl)

theorem keeps_file {α : Type} {op : π → σ → α × σ} {reply : α → Response} :
    Keeps (fun _ => none) (fun _ => True)
      (visit false resourceType (·.fileProvider) op fun answer => .done (reply answer)) :=
  keeps_visit Locks.stable_true (fun r _ _ => fileProvider_mem_polled r) fun _ => trivial

theorem keeps_poll {α : Type} {op : π → σ → Except PluginError α × σ}
    {passes : Except PluginError α → Bool} {reply : Except PluginError α → Response}
    (list : List (String × π)) :
    Keeps (Function.update (fun _ => none) .providers (some .read)) (Polls resourceType list)
      (poll resourceType op passes reply list) := by
  induction list with
  | nil => exact keeps_release (by simp) keeps_file
  | cons e list ih =>
    refine keeps_visit (stable_polls _) (fun r hr _ => mem_polled (hr e List.mem_cons_self))
      fun answer => ?_
    split
    · exact ih.mono fun s hs e he => hs e (List.mem_cons_of_mem _ he)
    · exact keeps_release (by simp) trivial

theorem keeps_pollList {query : ResourceQueryParams} (merged : List (String × Json))
    (list : List (String × π)) :
    Keeps (Function.update (fun _ => none) .providers (some .read)) (Polls resourceType list)
      (pollList b resourceType query merged list) := by
  induction list generalizing merged with
  | nil => exact keeps_release (by simp) keeps_file
  | cons e list ih =>
    exact keeps_visit (stable_polls _) (fun r hr _ => mem_polled (hr e List.mem_cons_self))
      fun answer => (ih _).mono fun s hs e he => hs e (List.mem_cons_of_mem _ he)

theorem keeps_targeted {α : Type} {provider : Option String}
    {op : π → σ → Except PluginError α × σ} {passes : Except PluginError α → Bool}
    {reply : Except PluginError α → Response} :
    Keeps (fun _ => none) (fun _ => True) (targeted resourceType provider op passes reply) := by
  cases provider with
  | some pluginId => exact keeps_target
  | none => exact keeps_read fun r => ⟨_, fun _ he => he, stable_polls _, keeps_poll _⟩

theorem keeps_create {value : Json} :
    Keeps (fun _ => none) (fun _ => True) (createCall b resourceType value) := by
  refine keeps_read fun r => ⟨fun _ => True, trivial, Locks.stable_true, ?_⟩
  split
  · refine keeps_release (by simp) (keeps_read fun r => ?_)
    split
    · rename_i i p hfind
      refine ⟨Polls resourceType [(i, p)], fun e he => ?_, stable_polls _, ?_⟩
      · rw [List.mem_singleton.mp he]
        exact List.mem_of_find?_eq_some hfind
      · exact keeps_visit (stable_polls _) (fun r hr _ => mem_polled (hr _ List.mem_cons_self))
          fun _ => keeps_release (by simp) trivial
    · exact ⟨fun _ => True, trivial, Locks.stable_true, keeps_release (by simp) keeps_file⟩
  · exact keeps_visit Locks.stable_true (fun r _ _ => fileProvider_mem_polled r)
      fun _ => keeps_release (by simp) trivial

section Writing
variable {K' : ResourceProviderRegistry π → Prop}
  {change : ResourceProviderRegistry π → ResourceProviderRegistry π} {next : Call π σ}

variable (K') in
/-- Who writes behind the providers need not leave the defaults named at once. -/
theorem keeps_write (hk : ∀ r, K r → K' (change r)) (hstable : Stable σ held K')
    (hnamed : held .providers ≠ some .write → ∀ r, K r → r.Named → (change r).Named)
    (hgrows : ∀ r, K r → (change r).providers = r.providers →
      ∀ q, r.NamedBut q → (change r).NamedBut q)
    (hsame : ∀ l, held l ≠ some .write → ∀ s : Server π σ,
      same l s { s with registry := change s.registry })
    (h : Keeps held K' next) : Keeps held K (write change next) := by
  intro s w hsees hinv hs
  refine ⟨⟨fun hw => ?_, hinv.2⟩, hgrows s.registry hs, fun l hl => hsame l hl s,
    fun s => K' s.registry, hk s.registry hs, hstable, h⟩
  exact hnamed (fun hp => hw ((hsees .providers).1 hp)) s.registry hs (hinv.1 hw)

variable (K') in
/-- A lock other than that of the providers may be given back at any time. -/
theorem keeps_release_defaults (hk : ∀ r, K r → K' r)
    (hstable : Stable σ (Function.update held .defaultCreateProvider none) K')
    (h : Keeps (Function.update held .defaultCreateProvider none) K' next) :
    Keeps held K (.release .defaultCreateProvider next) := by
  refine ⟨fun _ s w _ _ hinv => ⟨fun hw => hinv.1 fun hmem => hw ⟨hmem, by simp⟩, hinv.2⟩,
    fun s => K' s.registry, fun s => hk s.registry, hstable, h⟩

theorem keeps_acquire_defaults {m : Locks.Mode} (hl : held .defaultCreateProvider = none)
    (h : Keeps (Function.update held .defaultCreateProvider (some m)) K next) :
    Keeps held K (.acquire .defaultCreateProvider m next) :=
  ⟨hl, fun _ => True, fun _ _ _ _ hinv _ => ⟨trivial, fun _ =>
    ⟨fun hw => hinv.1 fun hmem => hw (Set.mem_insert_of_mem _ hmem), hinv.2⟩⟩, Locks.stable_true,
    h.mono fun _ hs => hs.1⟩

/-- Behind the providers the defaults are named until they are written. -/
theorem keeps_acquire_providers
    (h : Keeps (Function.update (fun _ => none) .providers (some .write))
      ResourceProviderRegistry.Named next) :
    Keeps (fun _ => none) K (.acquire .providers .write next) := by
  refine ⟨rfl, fun s => s.registry.Named, fun s w hw _ hinv _ => ⟨hinv.1 hw, fun _ =>
    ⟨fun hnot => absurd (Set.mem_insert _ _) hnot, hinv.2⟩⟩, ?_, h.mono fun _ hs => hs.2⟩
  exact stable_namedBut (by simp) none

theorem keeps_release_providers (hk : ∀ r, K r → r.Named)
    (h : Keeps (fun _ => none) (fun _ => True) next) :
    Keeps (Function.update (fun _ => none) .providers (some .write)) K
      (.release .providers next) := by
  refine ⟨fun _ s w _ hs hinv => ⟨fun _ => hk s.registry hs, hinv.2⟩, fun _ => True,
    fun _ _ => trivial, Locks.stable_true, ?_⟩
  rw [update_back]
  exact h

theorem keeps_set {pluginId : String} :
    Keeps (π := π) (σ := σ) (fun _ => none) (fun _ => True)
      (setDefaultCall resourceType pluginId) := by
  have herase : ∀ (r : ResourceProviderRegistry π) (q : Option String), r.NamedBut q →
      ({ r with defaultCreateProvider := r.defaultCreateProvider.erase resourceType } :
        ResourceProviderRegistry π).NamedBut q := by
    refine fun r q hq => hq.of_defaults rfl fun t p hp => .inl ?_
    rw [HashMap.lookup_erase] at hp
    split at hp
    · cases hp
    · exact hp
  unfold setDefaultCall
  split
  · refine keeps_acquire_defaults rfl (keeps_write (fun _ => True) (fun _ _ => trivial)
      Locks.stable_true (fun _ r _ => herase r none) (fun r _ _ => herase r) (fun l hl s => ?_)
      (keeps_release_defaults (fun _ => True) (fun _ h => h) Locks.stable_true trivial))
    cases l with
    | providers => rfl
    | defaultCreateProvider => simp at hl
  · refine keeps_read fun r => ?_
    split
    · rename_i hany
      have hinsert : ∀ r : ResourceProviderRegistry π,
          (r.registered resourceType).any (·.1 = pluginId) = true → ∀ q, r.NamedBut q →
          ({ r with
            defaultCreateProvider := r.defaultCreateProvider.insert resourceType pluginId } :
            ResourceProviderRegistry π).NamedBut q := by
        refine fun r hr q hq => hq.of_defaults rfl fun t p hp => ?_
        rw [HashMap.lookup_insert] at hp
        split at hp
        · rename_i ht
          obtain ⟨e, he, hid⟩ := List.any_eq_true.mp hr
          exact .inr ⟨e, ht ▸ he, by simpa [← Option.some.inj hp] using hid⟩
        · exact .inl hp
      refine ⟨fun r => (r.registered resourceType).any (·.1 = pluginId) = true, hany,
        stable_registered (by simp) fun registered =>
          (registered resourceType).any (·.1 = pluginId) = true, ?_⟩
      refine keeps_acquire_defaults (by simp) (keeps_write (fun _ => True) (fun _ _ => trivial)
        Locks.stable_true (fun _ r hr => hinsert r hr none) (fun r hr _ => hinsert r hr)
        (fun l hl s => ?_)
        (keeps_release_defaults (fun _ => True) (fun _ h => h) Locks.stable_true ?_))
      · cases l with
        | providers => rfl
        | defaultCreateProvider => simp at hl
      · rw [update_inner]
        exact keeps_release (by simp) trivial
    · exact ⟨fun _ => True, trivial, Locks.stable_true, keeps_release (by simp) trivial⟩

theorem keeps_register {pluginId : String} {provider : π} :
    Keeps (σ := σ) (fun _ => none) (fun _ => True)
      (.acquire .providers .write (write (fun r => r.register resourceType pluginId provider)
        (.release .providers (.done .done)))) := by
  refine keeps_acquire_providers (keeps_write ResourceProviderRegistry.Named
    (fun r hr => hr.register _ _ _) (stable_namedBut (by simp) none)
    (fun hw => absurd (by simp) hw) (fun r _ hsame q hq => ?_) (fun l hl s => ?_)
    (keeps_release_providers (fun _ h => h) trivial))
  · exact hq.of_defaults hsame fun _ _ hp => .inl hp
  · cases l with
    | providers => simp at hl
    | defaultCreateProvider => rfl

theorem retained {m : HashMap String String} {t p pluginId : String}
    (h : (m.retain fun _ v => decide (v ≠ pluginId)).lookup t = some p) :
    m.lookup t = some p ∧ p ≠ pluginId := by
  rw [HashMap.lookup_retain] at h
  simpa [Option.filter_eq_some_iff] using h

/-- In between a default may still name the plugin that is leaving. -/
theorem keeps_unregister {pluginId : String} :
    Keeps (π := π) (σ := σ) (fun _ => none) (fun _ => True) (unregisterCall pluginId) := by
  refine keeps_acquire_providers (keeps_write (fun r => r.NamedBut (some pluginId))
    (fun r hr => ?_) (stable_namedBut (by simp) _) (fun hw => absurd (by simp) hw)
    (fun r _ hsame q hq => hq.of_defaults hsame fun _ _ hp => .inl hp) (fun l hl s => ?_)
    (keeps_acquire_defaults (by simp) (keeps_write ResourceProviderRegistry.Named
      (fun r hr => ?_) (stable_namedBut (by simp) none) (fun hw => absurd (by simp) hw)
      (fun r _ _ q hq => hq.of_defaults rfl fun t p hp => .inl ?_) (fun l hl s => ?_)
      (keeps_release_defaults ResourceProviderRegistry.Named (fun _ h => h)
        (stable_namedBut (by simp) none) ?_))))
  · intro t p hp hq
    obtain ⟨e, he, rfl⟩ := hr t p hp (by simp)
    refine ⟨e, ?_, rfl⟩
    simp only [ResourceProviderRegistry.registered, HashMap.lookup_mapValues] at he ⊢
    cases hl : r.providers.lookup t with
    | none => simp [hl] at he
    | some l =>
      rw [hl, Option.getD_some] at he
      simpa [List.mem_filter, he] using fun h => hq (congrArg some h)
  · cases l with
    | providers => simp at hl
    | defaultCreateProvider => rfl
  · intro t p hp _
    obtain ⟨hold, hother⟩ := retained hp
    exact hr t p hold fun h => hother (Option.some.inj h)
  · exact (retained hp).1
  · cases l with
    | providers => rfl
    | defaultCreateProvider => simp at hl
  · rw [update_inner]
    exact keeps_release_providers (fun _ h => h) trivial

end Writing

theorem Request.keeps (r : Request π) : Keeps (fun _ => none) (fun _ => True) (r.call b) := by
  cases r with
  | register t pluginId provider => exact keeps_register
  | unregister pluginId => exact keeps_unregister
  | setDefaultProvider t pluginId => exact keeps_set
  | listProviderIds t =>
    exact keeps_read fun _ => ⟨fun _ => True, trivial, Locks.stable_true,
      keeps_release (by simp) trivial⟩
  | getActiveProviderId t =>
    exact keeps_read fun _ => ⟨fun _ => True, trivial, Locks.stable_true,
      keeps_release (by simp) trivial⟩
  | list t query =>
    simp only [Request.call]
    split
    · exact keeps_target
    · exact keeps_read fun r => ⟨_, fun _ he => he, stable_polls _, keeps_pollList _ _⟩
  | get t id provider => exact keeps_targeted
  | create t value provider =>
    simp only [Request.call]
    split
    · exact keeps_target
    · exact keeps_create
  | update t id value provider => exact keeps_targeted
  | delete t id provider => exact keeps_targeted

end Rules

/-- Any number of requests at the same time, in any order of their steps: each one returns,
whoever creates by default is registered whenever nobody is changing the providers, and a
request that names no provider reaches registered ones only. -/
theorem concurrent_requests {ι : Type} [Fintype ι] [DecidableEq ι] (b : Providers π σ)
    (registry : ResourceProviderRegistry π) (hnamed : registry.Named) (world : σ)
    (requests : ι → Request π) (turns : Nat → Locks.Turn ι Lock) :
    let start := Locks.start ⟨registry, world, []⟩ fun i => (requests i).call b
    (Locks.Diligent start turns →
      ∃ n, ∀ i, ((Locks.after start turns n).program i).result.isSome) ∧
    ∀ n, ((∀ i, (Locks.after start turns n).held i .providers ≠ some .write) →
        (Locks.after start turns n).shared.registry.Named) ∧
      ∀ v ∈ (Locks.after start turns n).shared.visits,
        v.targeted = false → v.provider ∈ v.polled := by
  have hsound : Sound (⟨registry, world, []⟩ : Server π σ) ∅ :=
    ⟨fun _ => hnamed, List.forall_mem_nil _⟩
  have hkept : Locks.Kept same Grows Sound (fun _ _ => True)
      (Locks.start ⟨registry, world, []⟩ fun i => (requests i).call b) :=
    Locks.kept_start hsound fun i => (requests i).keeps
  refine ⟨Locks.diligent_returns (Locks.orderly_start fun i => (requests i).ascends), fun n => ?_⟩
  have hn := Locks.kept_after hkept turns n
  refine ⟨fun hfree => hn.inv.1 ?_, hn.inv.2⟩
  rintro ⟨i, hi⟩
  exact hfree i hi

/-- A note is created while the plugin that keeps notes is unregistered. -/
def noteServer : Locks.Pool Bool Lock (Server String Unit) Response :=
  Locks.start ⟨ResourceProviderRegistry.new "file", (), []⟩ fun creates : Bool =>
    (if creates then .create "notes" .null none else .unregister "notes-plugin" :
      Request String).call
      ⟨fun _ _ _ _ => .ok .null, fun _ _ _ _ => .ok none, fun _ _ _ s => (.ok "1", s),
        fun _ _ _ _ s => (.ok (), s), fun _ _ _ s => (.ok (), s)⟩

def noteTurns (n : Nat) : Locks.Turn Bool Lock :=
  if n = 1 then .grant .defaultCreateProvider else .go true

theorem note_created :
    (Locks.after noteServer noteTurns 4).shared.visits.length = 1 ∧
    ∀ v ∈ (Locks.after noteServer noteTurns 4).shared.visits,
      v.targeted = false → v.provider ∈ v.polled :=
  ⟨by decide, ((concurrent_requests
    ⟨fun _ _ _ _ => .ok .null, fun _ _ _ _ => .ok none, fun _ _ _ s => (.ok "1", s),
      fun _ _ _ _ s => (.ok (), s), fun _ _ _ s => (.ok (), s)⟩
    (ResourceProviderRegistry.new "file") ResourceProviderRegistry.named_new ()
    (fun creates : Bool => if creates then .create "notes" .null none
      else .unregister "notes-plugin") noteTurns).2 4).2⟩

end Server
end SignalK.Resources
