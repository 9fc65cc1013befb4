import SignalK.Store.Replay
import SignalK.Types.Path
import SignalK.Types.Ws

/-! The in-process plugin host: which broadcast deltas a plugin's subscription
hands to its callback. The host compares context strings where the store
resolves them. -/
namespace SignalK

structure SubscriptionSpec where
  context : String
  subscribe : List Subscription

namespace SubscriptionSpec

def selfVessel (paths : List Subscription) : SubscriptionSpec where
  context := "vessels.self"
  subscribe := paths

def allVessels (paths : List Subscription) : SubscriptionSpec where
  context := "*"
  subscribe := paths

/-- Some value's path matches some pattern. -/
def matchesDelta (spec : SubscriptionSpec) (delta : Delta) : Bool :=
  delta.updates.any fun u => u.values.any fun pv =>
    (spec.subscribe.map (·.path)).any fun pat => matchesPattern pat pv.path

/-- The test of the host's receive loop. -/
def receives (spec : SubscriptionSpec) (delta : Delta) : Bool :=
  let deltaCtx := delta.context.getD "vessels.self"
  if spec.context ≠ "*" ∧ spec.context ≠ deltaCtx then false else spec.matchesDelta delta

/-- The deltas of a broadcast stream the callback is called with. -/
def received (spec : SubscriptionSpec) (stream : List Delta) : List Delta :=
  stream.filter spec.receives

end SubscriptionSpec

namespace Host

/-- What a subscriber of the self vessel is owed for one delta: every broadcast
of the self vessel with a value it asked for, and nothing of another vessel. -/
def Served [JsonText] (st : SignalKStore) (clock : Nat → DateTime) (paths : List Subscription)
    (delta : Delta) : Prop :=
  let spec := SubscriptionSpec.selfVessel paths
  let stream := (st.applyDelta clock delta).2
  if resolveContext st.selfUri delta.context = "vessels." ++ st.selfUri then
    ∀ d ∈ stream, spec.matchesDelta d = true → d ∈ spec.received stream
  else spec.received stream = []

theorem receives_self (paths : List Subscription) (delta : Delta) :
    (SubscriptionSpec.selfVessel paths).receives delta =
      (decide (delta.context.getD "vessels.self" = "vessels.self") &&
        (SubscriptionSpec.selfVessel paths).matchesDelta delta) := by
  by_cases h : delta.context.getD "vessels.self" = "vessels.self"
  · simp [SubscriptionSpec.receives, SubscriptionSpec.selfVessel, h]
  · simp [SubscriptionSpec.receives, SubscriptionSpec.selfVessel, h, Ne.symm h]

/-- The broadcasts of a delta keep its spelling of the context. -/
theorem broadcast_context [JsonText] (clock : Nat → DateTime) (st : SignalKStore) (delta : Delta) :
    ∀ d ∈ (st.applyDelta clock delta).2, d.context = delta.context := by
  cases hu : vesselUri st.selfUri delta.context with
  | none =>
    intro d hd
    simp only [SignalKStore.applyDelta, hu, List.mem_singleton] at hd
    rw [hd]
  | some uri => exact (st.applyDelta_broadcast clock delta hu).1

/-- The two spellings that the host takes for the self vessel. -/
theorem self_spelling {selfUri : String} {context : Option String}
    (h : resolveContext selfUri context = "vessels." ++ selfUri) :
    context.getD "vessels.self" = "vessels.self" ∨ context = some ("vessels." ++ selfUri) := by
  cases context with
  | none => exact .inl rfl
  | some c =>
    by_cases hc : c = "vessels.self"
    · exact .inl hc
    · right
      simp only [resolveContext, Option.getD_some, if_neg hc] at h
      rw [h]

theorem resolve_self_spelling {selfUri : String} {context : Option String}
    (h : context.getD "vessels.self" = "vessels.self") :
    resolveContext selfUri context = "vessels." ++ selfUri := by
  cases context with
  | none =>
    by_cases hs : "vessels." ++ selfUri = "vessels.self" <;> simp [resolveContext, hs]
  | some c =>
    have hc : c = "vessels.self" := h
    simp [resolveContext, hc]

/-- A first value of a path is always broadcast. -/
theorem new_broadcasts [JsonText] (selfUri : String) (clock : Nat → DateTime) (source : Source)
    (timestamp : DateTime) (pv : PathValue) :
    ∃ d ∈ ((SignalKStore.new selfUri).applyDelta clock
        ⟨some ("vessels." ++ selfUri), [⟨source, timestamp, [pv]⟩]⟩).2, pv ∈ d.pathValues := by
  let delta : Delta := ⟨some ("vessels." ++ selfUri), [⟨source, timestamp, [pv]⟩]⟩
  let w : Write := Write.of selfUri (makeSourceRef source) timestamp pv
  have hu : vesselUri selfUri delta.context = some selfUri := by
    have hr : resolveContext selfUri delta.context = "vessels." ++ selfUri := by
      by_cases hs : "vessels." ++ selfUri = "vessels.self" <;> simp [delta, resolveContext, hs]
    rw [vesselUri, hr, Text.stripPrefix_append]
  have hws : deltaWrites selfUri delta = [w] := by
    simp [deltaWrites, hu, delta, updateWrites, w]
  have hexec : (Machine.exec Ledger.write (SignalKStore.new selfUri).ledger
      (Machine.timed clock [w])).2 = [w] := by
    simp [Machine.timed, Machine.exec, Ledger.write, Ledger.accepts, SignalKStore.ledger]
  have hstream := Replay.applyDelta_stream clock (SignalKStore.new selfUri) delta
  have hnew : (SignalKStore.new selfUri).selfUri = selfUri := rfl
  rw [hnew, hws, hexec] at hstream
  have hw : w ∈ [w] := List.mem_singleton.mpr rfl
  rw [← hstream] at hw
  obtain ⟨d, hd, hmem⟩ := List.mem_flatMap.mp hw
  have hctx := broadcast_context clock (SignalKStore.new selfUri) delta d hd
  have hvalues := (deltaWrites_pathValues (hctx ▸ hu)).1
  refine ⟨d, hd, ?_⟩
  rw [← hvalues]
  exact List.mem_map.mpr ⟨w, hmem, rfl⟩

/-- Every self subscriber is served, whatever the store holds and whatever it
asks for, exactly when the producer does not spell the self vessel out. -/
theorem served_iff [JsonText] (selfUri : String) (context : Option String) :
    (∀ (st : SignalKStore) (clock : Nat → DateTime) (paths : List Subscription)
        (updates : List Update), st.selfUri = selfUri →
        Served st clock paths ⟨context, updates⟩) ↔
      (context = some ("vessels." ++ selfUri) → selfUri = "self") := by
  constructor
  · intro h hc
    subst hc
    let pv : PathValue := ⟨"", .null⟩
    have hserved := h (SignalKStore.new selfUri) (fun _ => 0) [⟨"**", none, none, none, none⟩]
      [⟨Source.internal, 0, [pv]⟩] rfl
    obtain ⟨d, hd, hpv⟩ := new_broadcasts selfUri (fun _ => 0) Source.internal 0 pv
    have hr : resolveContext selfUri (some ("vessels." ++ selfUri)) = "vessels." ++ selfUri := by
      by_cases hs : "vessels." ++ selfUri = "vessels.self" <;> simp [resolveContext, hs]
    have hnew : (SignalKStore.new selfUri).selfUri = selfUri := rfl
    simp only [Served, hnew, hr, if_true] at hserved
    have hm : (SubscriptionSpec.selfVessel [⟨"**", none, none, none, none⟩]).matchesDelta d =
        true := by
      obtain ⟨u, hu, hv⟩ := List.mem_flatMap.mp hpv
      refine List.any_eq_true.mpr ⟨u, hu, List.any_eq_true.mpr ⟨pv, hv, ?_⟩⟩
      simp [SubscriptionSpec.selfVessel]
    have hrec := (List.mem_filter.mp (hserved d hd hm)).2
    rw [receives_self, broadcast_context _ _ _ d hd, Bool.and_eq_true] at hrec
    have hself : "vessels." ++ selfUri = "vessels." ++ "self" := of_decide_eq_true hrec.1
    exact (String.append_right_inj _).mp hself
  · intro h st clock paths updates hself
    subst hself
    have hctx := broadcast_context clock st ⟨context, updates⟩
    by_cases hr : resolveContext st.selfUri context = "vessels." ++ st.selfUri
    · have hspell : context.getD "vessels.self" = "vessels.self" := by
        cases self_spelling hr with
        | inl hs => exact hs
        | inr hs =>
          rw [hs, h hs]
          rfl
      simp only [Served, hr, if_true]
      intro d hd hm
      refine List.mem_filter.mpr ⟨hd, ?_⟩
      rw [receives_self, hctx d hd, hm, Bool.and_true]
      exact decide_eq_true hspell
    · simp only [Served, hr, if_false]
      refine List.filter_eq_nil_iff.mpr fun d hd hrec => hr ?_
      rw [receives_self, hctx d hd, Bool.and_eq_true] at hrec
      exact resolve_self_spelling (of_decide_eq_true hrec.1)

section
local instance : JsonText := JsonText.unused

/-- A speed sent under the vessel's own URI is stored and broadcast, and the
plugin that asked for it on "vessels.self" is not called. -/
theorem own_uri_not_served :
    let st := SignalKStore.new "urn:mrn:signalk:uuid:1"
    let paths : List Subscription := [⟨"navigation.*", none, none, none, none⟩]
    let delta := Delta.withContext "vessels.urn:mrn:signalk:uuid:1"
      [⟨Source.plugin "gps", 0, [⟨"navigation.speedOverGround", Json.ofF64 5⟩]⟩]
    let stream := (st.applyDelta (fun _ => 0) delta).2
    stream = [delta] ∧ (SubscriptionSpec.selfVessel paths).received stream = [] ∧
      ¬ Served st (fun _ => 0) paths delta := by
  intro st paths delta stream
  have hstream : stream = [delta] := by decide +kernel
  have hnone : (SubscriptionSpec.selfVessel paths).received stream = [] := by decide +kernel
  refine ⟨hstream, hnone, ?_⟩
  intro h
  have hr : resolveContext st.selfUri delta.context = "vessels." ++ st.selfUri := by decide
  have hserved : ∀ d ∈ stream, (SubscriptionSpec.selfVessel paths).matchesDelta d = true →
      d ∈ (SubscriptionSpec.selfVessel paths).received stream := by
    simpa only [Served, hr, if_true] using h
  have hmem := hserved delta (by rw [hstream]; exact List.mem_singleton.mpr rfl) (by decide)
  rw [hnone] at hmem
  cases hmem

end

end Host

/-! The chain of handlers that every delta passes on its way to the store. A handler is a
closure and may keep a state of its own. -/

abbrev DeltaInputHandler (φ : Type*) := φ → Delta → φ × Option Delta

/-- The handlers in the order of their registration. -/
abbrev DeltaFilterChain (φ : Type*) := List (DeltaInputHandler φ)

namespace DeltaFilterChain
variable {φ : Type*}

/-- The delta that comes out, unless a handler drops it; those after it do not run. -/
def apply (filters : φ) (delta : Delta) : DeltaFilterChain φ → φ × Option Delta
  | [] => (filters, some delta)
  | handler :: chain =>
    match handler filters delta with
    | (filters, some delta) => apply filters delta chain
    | (filters, none) => (filters, none)

end DeltaFilterChain

end SignalK
