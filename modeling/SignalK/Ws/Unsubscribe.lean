import SignalK.Lib.Text
import SignalK.Ws.Connection

/-! What an entry of a subscribe or unsubscribe message does to the subscriptions of others. The
map's keys are texts in which context and path are not told apart. -/
namespace SignalK

/-- One entry of a client's message. -/
inductive Change where
  | subscribe (context : String) (sub : Subscription)
  | unsubscribe (context : String) (spec : UnsubscribeSpec)
  deriving DecidableEq

namespace Change

def ofMessage : InboundMessage → List Change
  | .subscribe msg => msg.subscribe.map (.subscribe msg.context)
  | .unsubscribe msg => msg.unsubscribe.map (.unsubscribe msg.context)

def step (subscriptions : Subscriptions) : Change → Subscriptions × List Empty
  | .subscribe context sub => (applySubscription context subscriptions sub, [])
  | .unsubscribe context spec => (applyUnsubscription context subscriptions spec, [])

theorem handle_eq_run (msg : InboundMessage) (subscriptions : Subscriptions) :
    handleClientMessage (some msg) subscriptions =
      Machine.run step subscriptions (ofMessage msg) := by
  cases msg with
  | subscribe msg =>
    rw [ofMessage, Machine.run_eq_foldl, List.foldl_map]
    rfl
  | unsubscribe msg =>
    rw [ofMessage, Machine.run_eq_foldl, List.foldl_map]
    rfl

/-- Messages one after another, entry by entry. -/
theorem foldl_handle_eq_run (msgs : List InboundMessage) (subscriptions : Subscriptions) :
    msgs.foldl (fun s msg => handleClientMessage (some msg) s) subscriptions =
      Machine.run step subscriptions (msgs.flatMap ofMessage) := by
  induction msgs generalizing subscriptions with
  | nil => rfl
  | cons msg msgs ih =>
    rw [List.foldl_cons, ih, handle_eq_run, List.flatMap_cons, Machine.run_append]

/-- What an entry to unsubscribe names: a context, or a context and a path. -/
def Names (context : String) (spec : UnsubscribeSpec) (sub : ActiveSubscription) : Prop :=
  if spec.path = "*" then sub.context = context
  else sub.context = context ∧ sub.path = spec.path

/-- The keys that it takes away. -/
def hits (context : String) (spec : UnsubscribeSpec) (key : String) : Bool :=
  if spec.path = "*" then Text.startsWith key context
  else decide (key = context ++ ":" ++ spec.path)

/-- A new subscription replaces none of another context or path, and an entry to unsubscribe takes
away what it names and nothing else. -/
def Exact (before after : Subscriptions) : Change → Prop
  | .subscribe context sub => ∀ key old, before.lookup key = some old →
      ¬(old.context = context ∧ old.path = sub.path) → after.lookup key = some old
  | .unsubscribe context spec =>
    (∀ key sub, after.lookup key = some sub → ¬Names context spec sub) ∧
      ∀ key sub, before.lookup key = some sub → ¬Names context spec sub →
        after.lookup key = some sub

/-- The keys of the subscriptions that a connection starts with. -/
def IsDefault (key : String) : Prop := key = "default-self" ∨ key = "default-all"

/-- The key of a new subscription is not taken by another context and path. To unsubscribe, no
key of another subscription is hit, and what is named is no subscription from the start. -/
def Clear (subscriptions : Subscriptions) : Change → Prop
  | .subscribe context sub => ∀ old,
      subscriptions.lookup (context ++ ":" ++ sub.path) = some old →
        old.context = context ∧ old.path = sub.path
  | .unsubscribe context spec =>
    (∀ key sub, IsDefault key → subscriptions.lookup key = some sub → ¬Names context spec sub) ∧
      ∀ key sub, subscriptions.lookup key = some sub → ¬Names context spec sub →
        hits context spec key = false

/-- A key is made of context and path, or is one from the start. -/
def Keyed (subscriptions : Subscriptions) : Prop :=
  ∀ key sub, subscriptions.lookup key = some sub →
    key = sub.context ++ ":" ++ sub.path ∨
      key = "default-self" ∧ sub.context = "vessels.self" ∧ sub.path = "**" ∨
      key = "default-all" ∧ sub.context = "**" ∧ sub.path = "**"

theorem lookup_unsubscribe (context : String) (spec : UnsubscribeSpec) (s : Subscriptions)
    (key : String) : (applyUnsubscription context s spec).lookup key =
      if hits context spec key then none else s.lookup key := by
  unfold applyUnsubscription hits
  by_cases hstar : spec.path = "*"
  · rw [if_pos hstar, if_pos hstar, HashMap.lookup_retain]
    cases s.lookup key with
    | none => simp
    | some sub => cases Text.startsWith key context <;> simp
  · rw [if_neg hstar, if_neg hstar, HashMap.lookup_erase]
    by_cases hk : key = context ++ ":" ++ spec.path <;> simp [hk]

theorem keyed_initial (mode : SubscribeMode) : Keyed (initialSubscriptions mode) := by
  intro key sub h
  cases mode with
  | none => simp [initialSubscriptions] at h
  | self_ =>
    rw [initialSubscriptions, HashMap.collect, List.foldl_cons, List.foldl_nil,
      HashMap.lookup_insert] at h
    split_ifs at h with hk
    · obtain rfl := Option.some.inj h
      exact .inr (.inl ⟨hk, rfl, rfl⟩)
    · simp at h
  | all =>
    rw [initialSubscriptions, HashMap.collect, List.foldl_cons, List.foldl_nil,
      HashMap.lookup_insert] at h
    split_ifs at h with hk
    · obtain rfl := Option.some.inj h
      exact .inr (.inr ⟨hk, rfl, rfl⟩)
    · simp at h

theorem keyed_step {s : Subscriptions} (h : Keyed s) (e : Change) : Keyed (step s e).1 := by
  intro key sub hk
  cases e with
  | subscribe context new =>
    rw [step, applySubscription, HashMap.lookup_insert] at hk
    split_ifs at hk with heq
    · obtain rfl := Option.some.inj hk
      exact .inl heq
    · exact h key sub hk
  | unsubscribe context spec =>
    rw [step, lookup_unsubscribe] at hk
    split_ifs at hk
    exact h key sub hk

/-- What is named is hit, unless it is there from the start. -/
theorem hits_of_names {context : String} {spec : UnsubscribeSpec} {sub : ActiveSubscription}
    (h : Names context spec sub) : hits context spec (sub.context ++ ":" ++ sub.path) = true := by
  unfold Names at h
  unfold hits
  split_ifs at h ⊢ with hstar
  · subst h
    simp [Text.startsWith, String.toList_append]
  · simp [h.1, h.2]

theorem not_hits_default {context : String} {spec : UnsubscribeSpec} {key : String}
    {sub : ActiveSubscription} (hnames : Names context spec sub)
    (h : key = "default-self" ∧ sub.context = "vessels.self" ∧ sub.path = "**" ∨
      key = "default-all" ∧ sub.context = "**" ∧ sub.path = "**") :
    hits context spec key = false := by
  unfold Names at hnames
  unfold hits
  split_ifs at hnames ⊢ with hstar
  · rcases h with ⟨rfl, hc, -⟩ | ⟨rfl, hc, -⟩
    · rw [← hnames, hc]
      decide
    · rw [← hnames, hc]
      decide
  · rw [decide_eq_false_iff_not, ← hnames.1, ← hnames.2]
    rcases h with ⟨rfl, hc, hp⟩ | ⟨rfl, hc, hp⟩
    · rw [hc, hp]
      decide
    · rw [hc, hp]
      decide

theorem exact_iff {s : Subscriptions} (h : Keyed s) (e : Change) :
    Exact s (step s e).1 e ↔ Clear s e := by
  cases e with
  | subscribe context sub =>
    rw [Exact, Clear, step, applySubscription]
    constructor
    · intro hexact old hold
      by_contra hne
      have hnew := hexact _ old hold hne
      rw [HashMap.lookup_insert, if_pos rfl] at hnew
      obtain rfl := Option.some.inj hnew
      exact hne ⟨rfl, rfl⟩
    · intro hclear key old hold hne
      rw [HashMap.lookup_insert]
      split_ifs with hk
      · exact absurd (hclear old (hk ▸ hold)) hne
      · exact hold
  | unsubscribe context spec =>
    rw [Exact, Clear, step]
    constructor
    · rintro ⟨hgone, hstay⟩
      refine ⟨fun key sub hdef hsub hnames => ?_, fun key sub hsub hnames => ?_⟩
      · have hdefault := (h key sub hsub).resolve_left fun hkey => by
          have hcolon : ':' ∈ key.toList := by simp [hkey, String.toList_append]
          rcases hdef with rfl | rfl
          · exact absurd hcolon (by decide)
          · exact absurd hcolon (by decide)
        have hkept : (applyUnsubscription context s spec).lookup key = some sub := by
          rw [lookup_unsubscribe, not_hits_default hnames hdefault]
          exact hsub
        exact hgone key sub hkept hnames
      · have hkept := hstay key sub hsub hnames
        rw [lookup_unsubscribe] at hkept
        by_contra hhit
        rw [Bool.not_eq_false] at hhit
        rw [hhit, if_pos rfl] at hkept
        cases hkept
    · rintro ⟨hdefault, hother⟩
      refine ⟨fun key sub hsub hnames => ?_, fun key sub hsub hnames => ?_⟩
      · rw [lookup_unsubscribe] at hsub
        split_ifs at hsub with hhit
        rcases h key sub hsub with hkey | hdef
        · rw [hkey] at hhit
          exact hhit (hits_of_names hnames)
        · have hisDefault : IsDefault key := hdef.imp And.left And.left
          exact hdefault key sub hisDefault hsub hnames
      · rw [lookup_unsubscribe, hother key sub hsub hnames]
        exact hsub

/-- Along a run of messages, every entry does exactly what it says if and only if each finds the
keys clear. -/
theorem exact_run_iff (mode : SubscribeMode) (msgs : List InboundMessage) :
    (∀ es e, es ++ [e] <+: msgs.flatMap ofMessage →
      Exact (Machine.run step (initialSubscriptions mode) es)
        (Machine.run step (initialSubscriptions mode) (es ++ [e])) e) ↔
      Machine.Meets step Clear (initialSubscriptions mode) (msgs.flatMap ofMessage) := by
  have hstep : ∀ (cond : Subscriptions → Change → Prop) s e, Keyed s → cond s e →
      Keyed (step s e).1 := fun _ s e hs _ => keyed_step hs e
  have hmeets : Machine.Meets step (fun s e => Exact s (step s e).1 e)
      (initialSubscriptions mode) (msgs.flatMap ofMessage) ↔
        Machine.Meets step Clear (initialSubscriptions mode) (msgs.flatMap ofMessage) :=
    ⟨Machine.meets_of_inv (hstep _) (fun s e hs he => (exact_iff hs e).mp he)
        (keyed_initial mode),
      Machine.meets_of_inv (hstep _) (fun s e hs he => (exact_iff hs e).mpr he)
        (keyed_initial mode)⟩
  rw [← hmeets, Machine.meets_iff_prefix]
  have hrun : ∀ es e, Machine.run step (initialSubscriptions mode) (es ++ [e]) =
      (step (Machine.run step (initialSubscriptions mode) es) e).1 := by
    intro es e
    rw [Machine.run_append]
    rfl
  simp only [hrun]

/-- A subscription of the start stays, one of a context with a longer text goes, and one whose key
has the same text is replaced. -/
theorem unsubscribe_misses :
    (let s := Machine.run step (initialSubscriptions .self_)
        (ofMessage (.unsubscribe ⟨"vessels.self", [⟨"*"⟩]⟩))
    (s.lookup "default-self").map (·.context) = some "vessels.self") ∧
    (let s := Machine.run step (initialSubscriptions .none)
        ([.subscribe ⟨"vessels.self2", [.ofPath "a"]⟩,
          .unsubscribe ⟨"vessels.self", [⟨"*"⟩]⟩].flatMap ofMessage)
    s.lookup "vessels.self2:a" = none) ∧
    (let s := Machine.run step (initialSubscriptions .none)
        ([.subscribe ⟨"a:b", [.ofPath "c"]⟩, .subscribe ⟨"a", [.ofPath "b:c"]⟩].flatMap ofMessage)
    s.keys = {"a:b:c"} ∧ (s.lookup "a:b:c").map (·.context) = some "a") := by
  decide +kernel

end Change

end SignalK
