import Mathlib.Data.List.Induction

/-! Values told on topics, and listeners that hear the latest value of their topic and then every
later one. -/
namespace Topics
variable {κ ν : Type*} [DecidableEq κ]

/-- What was told last on a topic. -/
def latest (told : List (κ × ν)) (k : κ) : Option ν :=
  (told.reverse.find? fun e => e.1 = k).map (·.2)

@[simp] theorem latest_nil (k : κ) : latest ([] : List (κ × ν)) k = none := rfl

theorem latest_concat (told : List (κ × ν)) (e : κ × ν) (k : κ) :
    latest (told ++ [e]) k = if k = e.1 then some e.2 else latest told k := by
  rw [latest, List.reverse_append, List.reverse_singleton, List.singleton_append,
    List.find?_cons]
  by_cases hk : k = e.1
  · simp [hk]
  · simp [hk, Ne.symm hk, latest]

theorem latest_append (told told' : List (κ × ν)) (k : κ) :
    latest (told ++ told') k = (latest told' k).or (latest told k) := by
  rw [latest, latest, latest, List.reverse_append, List.find?_append]
  cases told'.reverse.find? fun e => e.1 = k <;> rfl

/-- What was told is known of a topic on which it was told. -/
theorem latest_of_mem {told : List (κ × ν)} {e : κ × ν} (h : e ∈ told) :
    ∃ v, latest told e.1 = some v := by
  induction told using List.reverseRecOn with
  | nil => cases h
  | append_singleton told f ih =>
    rw [latest_concat]
    by_cases hk : e.1 = f.1
    · exact ⟨f.2, if_pos hk⟩
    · rw [if_neg hk]
      apply ih
      cases List.mem_append.mp h with
      | inl h => exact h
      | inr h => exact absurd (congrArg Prod.fst (List.mem_singleton.mp h)) hk

/-- What is told on a topic, in order. -/
def on (k : κ) (told : List (κ × ν)) : List ν :=
  (told.filter fun e => e.1 = k).map (·.2)

theorem on_cons (k : κ) (e : κ × ν) (told : List (κ × ν)) :
    on k (e :: told) = (if e.1 = k then [e.2] else []) ++ on k told := by
  by_cases hk : e.1 = k <;> simp [on, hk]

theorem on_append (k : κ) (told told' : List (κ × ν)) :
    on k (told ++ told') = on k told ++ on k told' := by
  simp [on]

@[ext] structure Listener (κ ν : Type*) where
  topic : κ
  active : Bool
  heard : List ν
  deriving DecidableEq

namespace Listener

def hear (e : κ × ν) (l : Listener κ ν) : Listener κ ν :=
  if l.active && l.topic = e.1 then { l with heard := l.heard ++ [e.2] } else l

def hearAll (told : List (κ × ν)) (l : Listener κ ν) : Listener κ ν :=
  told.foldl (fun l e => l.hear e) l

@[simp] theorem topic_hear (e : κ × ν) (l : Listener κ ν) : (l.hear e).topic = l.topic := by
  rw [hear]
  split <;> rfl

@[simp] theorem active_hear (e : κ × ν) (l : Listener κ ν) : (l.hear e).active = l.active := by
  rw [hear]
  split <;> rfl

@[simp] theorem topic_hearAll (told : List (κ × ν)) (l : Listener κ ν) :
    (l.hearAll told).topic = l.topic := by
  induction told generalizing l with
  | nil => rfl
  | cons e told ih => exact (ih (l.hear e)).trans (topic_hear e l)

@[simp] theorem active_hearAll (told : List (κ × ν)) (l : Listener κ ν) :
    (l.hearAll told).active = l.active := by
  induction told generalizing l with
  | nil => rfl
  | cons e told ih => exact (ih (l.hear e)).trans (active_hear e l)

theorem hear_of_ne {e : κ × ν} {l : Listener κ ν} (h : l.active = true → l.topic ≠ e.1) :
    l.hear e = l := by
  rw [hear, if_neg]
  simpa using h

/-- An active listener hears what is told on its topic. -/
theorem hearAll_active {l : Listener κ ν} (h : l.active = true) (told : List (κ × ν)) :
    l.hearAll told = { l with heard := l.heard ++ on l.topic told } := by
  induction told generalizing l with
  | nil => simp [hearAll, on]
  | cons e told ih =>
    have hhear : (l.hear e).heard = l.heard ++ if e.1 = l.topic then [e.2] else [] := by
      by_cases hk : e.1 = l.topic
      · simp [hear, h, hk]
      · simp [hear, hk, Ne.symm hk]
    have htail := ih (l := l.hear e) (by rw [active_hear, h])
    rw [hearAll, List.foldl_cons]
    refine htail.trans ?_
    rw [hhear, topic_hear, active_hear, on_cons, List.append_assoc]

end Listener

/-- Who listens, and what has been told. -/
structure Board (κ ν : Type*) where
  told : List (κ × ν)
  listeners : List (Listener κ ν)

inductive Act (κ ν : Type*) where
  /-- a new listener of a topic -/
  | listen (k : κ)
  /-- what is told; nobody hears it when it is not loud -/
  | tell (loud : Bool) (told : List (κ × ν))
  /-- everything is forgotten, and nobody listens any more -/
  | hush

namespace Board

def act (b : Board κ ν) : Act κ ν → Board κ ν
  | .listen k =>
    { b with listeners := b.listeners ++ [⟨k, true, (latest b.told k).toList⟩] }
  | .tell loud told =>
    { told := b.told ++ told
      listeners := if loud then b.listeners.map (·.hearAll told) else b.listeners }
  | .hush => ⟨[], b.listeners.map fun l => { l with active := false }⟩

/-- What is told loudly by an act. -/
def loudly : Act κ ν → List (κ × ν)
  | .tell true told => told
  | _ => []

/-- What a step does to a listener that stays. -/
theorem listeners_act {b : Board κ ν} {a : Act κ ν} (ha : a ≠ .hush) {n : Nat}
    {l : Listener κ ν} (hl : b.listeners[n]? = some l) (hactive : l.active = true) :
    (b.act a).listeners[n]? = some { l with heard := l.heard ++ on l.topic (loudly a) } := by
  have hn : n < b.listeners.length := by
    by_contra hc
    rw [List.getElem?_eq_none (Nat.le_of_not_lt hc)] at hl
    cases hl
  cases a with
  | listen k =>
    rw [act, List.getElem?_append_left hn, hl]
    simp [loudly, on]
  | tell loud told =>
    cases loud with
    | true =>
      rw [act, if_pos rfl, List.getElem?_map, hl, Option.map_some, l.hearAll_active hactive]
      rfl
    | false =>
      rw [act, if_neg (by decide), hl]
      simp [loudly, on]
  | hush => exact absurd rfl ha

/-- A listener hears the latest value of its topic and then all later ones. -/
theorem heard_listen (b : Board κ ν) (k : κ) {acts : List (Act κ ν)} (h : .hush ∉ acts) :
    (acts.foldl act (b.act (.listen k))).listeners[b.listeners.length]? =
      some ⟨k, true, (latest b.told k).toList ++ on k (acts.flatMap loudly)⟩ := by
  induction acts using List.reverseRecOn with
  | nil => simp [act, on]
  | append_singleton acts a ih =>
    have hacts : .hush ∉ acts := fun hm => h (List.mem_append_left _ hm)
    have ha : a ≠ .hush := fun he => h (List.mem_append_right _ (by simp [he]))
    rw [List.foldl_append, List.foldl_cons, List.foldl_nil, listeners_act ha (ih hacts) rfl]
    simp [on_append, List.append_assoc]

end Board
end Topics
