import Mathlib.Analysis.Real.Sqrt
import SignalK.Lib.Segment
import SignalK.Tracks.Query

/-! The simplification of a track with its indices checked, over any arithmetic, and how
far from what is left of a track the dropped points are. The distance that decides is the
one to the line through two points, not to the segment between them. -/
namespace SignalK.Tracks.Simplify

section
variable {P D : Type} (lt : D → D → Bool) (dist : P → P → P → D) (zero epsilon : D)
  (points : List P)

/-- The loop over the points between two indices. -/
def farthest (a b : P) (start stop : Nat) : D × Nat :=
  ((points.zipIdx.take stop).drop (start + 1)).foldl (fun m e =>
    let d := dist e.1 a b
    if lt m.1 d then (d, e.2) else m) (zero, start)

/-- Where an interval is divided; out of range it is not. -/
def split (start stop : Nat) : Option Nat := do
  let a ← points[start]?
  let b ← points[stop]?
  let m := farthest lt dist zero points a b start stop
  if stop ≤ start + 1 then none else if lt epsilon m.1 then some m.2 else none

/-- `v[i] = x`, which panics out of range. -/
def setAt {α : Type} (v : List α) (i : Nat) (x : α) : Option (List α) :=
  if i < v.length then some (v.set i x) else none

/-- `rdp_indices`; nothing comes of a panic or when the depth runs out. -/
def rdpIndices : Nat → Nat → Nat → List Bool → Option (List Bool)
  | 0, _, _, _ => none
  | depth + 1, start, stop, keep =>
    if stop ≤ start + 1 then some keep
    else do
      let a ← points[start]?
      let b ← points[stop]?
      let m := farthest lt dist zero points a b start stop
      if lt epsilon m.1 then
        let keep ← setAt keep m.2 true
        let keep ← rdpIndices depth start m.2 keep
        rdpIndices depth m.2 stop keep
      else some keep

/-- Which points are kept of more than two. -/
def keepVector : Option (List Bool) := do
  let keep := List.replicate points.length false
  let keep ← setAt keep 0 true
  let keep ← setAt keep (points.length - 1) true
  rdpIndices lt dist zero epsilon points points.length 0 (points.length - 1) keep

/-- The points whose index is kept; an index out of range panics. -/
def select {α : Type} (points : List α) (keep : List Bool) : Option (List α) :=
  (points.zipIdx.filterM fun e => keep[e.2]?).map fun kept => kept.map Prod.fst

/-! What an interval is divided at lies in between, whatever the arithmetic. -/

variable {lt dist zero epsilon points}

theorem mem_between {start stop : Nat} {p : P} {i : Nat} :
    (p, i) ∈ (points.zipIdx.take stop).drop (start + 1) ↔
      points[i]? = some p ∧ start < i ∧ i < stop := by
  rw [List.mem_iff_getElem?]
  simp only [List.getElem?_drop, List.getElem?_take, List.getElem?_zipIdx]
  constructor
  · rintro ⟨k, hk⟩
    split_ifs at hk with hlt
    obtain ⟨q, hq, he⟩ := Option.map_eq_some_iff.mp hk
    obtain ⟨rfl, rfl⟩ := Prod.mk.inj he
    rw [Nat.zero_add]
    exact ⟨hq, by omega, by omega⟩
  · rintro ⟨hp, hstart, hstop⟩
    have hi : start + 1 + (i - (start + 1)) = i := by omega
    exact ⟨i - (start + 1), by simp [hi, hstop, hp]⟩

theorem farthest_between (a b : P) (start stop : Nat) :
    farthest lt dist zero points a b start stop = (zero, start) ∨
      start < (farthest lt dist zero points a b start stop).2 ∧
        (farthest lt dist zero points a b start stop).2 < stop := by
  have hfold : ∀ (l : List (P × Nat)) (m : D × Nat), (∀ e ∈ l, start < e.2 ∧ e.2 < stop) →
      (m = (zero, start) ∨ start < m.2 ∧ m.2 < stop) →
      (l.foldl (fun m e => let d := dist e.1 a b; if lt m.1 d then (d, e.2) else m) m =
        (zero, start) ∨
      start < (l.foldl (fun m e => let d := dist e.1 a b; if lt m.1 d then (d, e.2) else m) m).2 ∧
        (l.foldl (fun m e => let d := dist e.1 a b; if lt m.1 d then (d, e.2) else m) m).2 <
          stop) := by
    intro l
    induction l with
    | nil => exact fun m _ hm => hm
    | cons e l ih =>
      intro m hl hm
      refine ih _ (fun f hf => hl f (List.mem_cons_of_mem e hf)) ?_
      dsimp only
      split_ifs with hd
      · exact .inr (hl e List.mem_cons_self)
      · exact hm
  exact hfold _ _ (fun e he => (mem_between.mp he).2) (.inl rfl)

theorem split_between (hzero : lt epsilon zero = false) {start stop m : Nat}
    (h : split lt dist zero epsilon points start stop = some m) : start < m ∧ m < stop := by
  simp only [split, Option.bind_eq_bind, Option.bind_eq_some_iff] at h
  obtain ⟨a, -, b, -, h⟩ := h
  split_ifs at h with hshort hfar
  cases Option.some.inj h
  have hcases := @farthest_between P D lt dist zero points a b start stop
  cases hcases with
  | inl hnone =>
    rw [hnone, hzero] at hfar
    cases hfar
  | inr hbetween => exact hbetween

variable (lt dist zero epsilon points)

/-- The intervals that the recursion comes to from one of them. -/
inductive Visited : Nat → Nat → Nat → Nat → Prop
  | here (start stop : Nat) : Visited start stop start stop
  | left {start stop m i j : Nat} (h : split lt dist zero epsilon points start stop = some m)
      (hv : Visited start m i j) : Visited start stop i j
  | right {start stop m i j : Nat} (h : split lt dist zero epsilon points start stop = some m)
      (hv : Visited m stop i j) : Visited start stop i j

/-- Two kept points with dropped ones at most between them. -/
def Gap (keep : List Bool) (i j : Nat) : Prop :=
  i < j ∧ keep[i]? = some true ∧ keep[j]? = some true ∧
    ∀ k, i < k → k < j → keep[k]? = some false

variable {lt dist zero epsilon points}

theorem Visited.within (hzero : lt epsilon zero = false) {start stop i j : Nat}
    (h : Visited lt dist zero epsilon points start stop i j) (hlt : start < stop) :
    start ≤ i ∧ i < j ∧ j ≤ stop := by
  induction h with
  | here start stop => exact ⟨le_rfl, hlt, le_rfl⟩
  | left hs _ ih =>
    have hm := split_between hzero hs
    have hi := ih hm.1
    omega
  | right hs _ ih =>
    have hm := split_between hzero hs
    have hi := ih hm.2
    omega

/-- One round of the recursion, for indices in range. -/
theorem rdpIndices_succ {start stop : Nat} (hlt : start < stop) (hstop : stop < points.length)
    (depth : Nat) (keep : List Bool) :
    rdpIndices lt dist zero epsilon points (depth + 1) start stop keep =
      match split lt dist zero epsilon points start stop with
      | none => some keep
      | some m => (setAt keep m true).bind fun keep =>
        (rdpIndices lt dist zero epsilon points depth start m keep).bind fun keep =>
          rdpIndices lt dist zero epsilon points depth m stop keep := by
  have ha : points[start]? = some points[start] := List.getElem?_eq_getElem (hlt.trans hstop)
  have hb : points[stop]? = some points[stop] := List.getElem?_eq_getElem hstop
  simp only [rdpIndices, split, ha, hb, Option.bind_eq_bind, Option.bind_some]
  split_ifs <;> rfl

/-- The same in an interval of which only the ends are kept so far. -/
theorem gap_iff {keep : List Bool} {start stop i j : Nat} (hlt : start < stop)
    (hs : keep[start]? = some true) (he : keep[stop]? = some true)
    (hmid : ∀ k, start < k → k < stop → keep[k]? = some false) (hi : start ≤ i) (hj : j ≤ stop) :
    Gap keep i j ↔ i = start ∧ j = stop := by
  have hend : ∀ k, start ≤ k → k ≤ stop → keep[k]? = some true → k = start ∨ k = stop := by
    intro k hk₁ hk₂ hk
    by_contra hne
    have hfalse := hmid k (by omega) (by omega)
    rw [hk] at hfalse
    cases hfalse
  constructor
  · rintro ⟨hij, hti, htj, -⟩
    have h₁ := hend i hi (by omega) hti
    have h₂ := hend j (by omega) hj htj
    omega
  · rintro ⟨rfl, rfl⟩
    exact ⟨hlt, hs, he, hmid⟩

theorem Gap.congr {keep keep' : List Bool} {i j : Nat}
    (h : ∀ k, i ≤ k → k ≤ j → keep[k]? = keep'[k]?) (hg : Gap keep i j) : Gap keep' i j := by
  obtain ⟨hij, hti, htj, hmid⟩ := hg
  refine ⟨hij, ?_, ?_, fun k hk₁ hk₂ => ?_⟩
  · rw [← h i le_rfl hij.le, hti]
  · rw [← h j hij.le le_rfl, htj]
  · rw [← h k hk₁.le hk₂.le, hmid k hk₁ hk₂]

/-- Where nothing is divided, the interval is the one gap. -/
theorem gap_undivided {keep : List Bool} {start stop i j : Nat}
    (hm : split lt dist zero epsilon points start stop = none) (hlt : start < stop)
    (hs : keep[start]? = some true) (he : keep[stop]? = some true)
    (hmid : ∀ k, start < k → k < stop → keep[k]? = some false) (hi : start ≤ i) (hj : j ≤ stop) :
    Gap keep i j ↔ Visited lt dist zero epsilon points start stop i j ∧
      split lt dist zero epsilon points i j = none := by
  rw [gap_iff hlt hs he hmid hi hj]
  constructor
  · rintro ⟨rfl, rfl⟩
    exact ⟨.here i j, hm⟩
  · rintro ⟨hv, -⟩
    cases hv with
    | here => exact ⟨rfl, rfl⟩
    | left hd _ => rw [hm] at hd; cases hd
    | right hd _ => rw [hm] at hd; cases hd

/-- The gaps of a divided interval are those of its two parts. -/
theorem gap_divided (hzero : lt epsilon zero = false) {keep keep' : List Bool}
    {start m stop i j : Nat} (hm : split lt dist zero epsilon points start stop = some m)
    (hbefore : ∀ k, k ≤ m → keep'[k]? = keep[k]?) (hkept : keep[m]? = some true)
    (hleft : ∀ i j, start ≤ i → j ≤ m → (Gap keep i j ↔
      Visited lt dist zero epsilon points start m i j ∧
        split lt dist zero epsilon points i j = none))
    (hright : ∀ i j, m ≤ i → j ≤ stop → (Gap keep' i j ↔
      Visited lt dist zero epsilon points m stop i j ∧
        split lt dist zero epsilon points i j = none))
    (hi : start ≤ i) (hj : j ≤ stop) :
    Gap keep' i j ↔ Visited lt dist zero epsilon points start stop i j ∧
      split lt dist zero epsilon points i j = none := by
  obtain ⟨hm₁, hm₂⟩ := split_between hzero hm
  constructor
  · intro hg
    by_cases hjm : j ≤ m
    · obtain ⟨hv, hn⟩ := (hleft i j hi hjm).mp (hg.congr fun k _ hk => hbefore k (by omega))
      exact ⟨.left hm hv, hn⟩
    · by_cases hmi : m ≤ i
      · obtain ⟨hv, hn⟩ := (hright i j hmi hj).mp hg
        exact ⟨.right hm hv, hn⟩
      · -- the divide is kept, so no gap goes across it
        have hfalse := hg.2.2.2 m (by omega) (by omega)
        rw [hbefore m le_rfl, hkept] at hfalse
        cases hfalse
  · rintro ⟨hv, hn⟩
    cases hv with
    | here => rw [hm] at hn; cases hn
    | left hd hv =>
      cases hm.symm.trans hd
      have hb := hv.within hzero hm₁
      have hg := (hleft i j hi hb.2.2).mpr ⟨hv, hn⟩
      exact hg.congr fun k _ hk => (hbefore k (by omega)).symm
    | right hd hv =>
      cases hm.symm.trans hd
      have hb := hv.within hzero hm₂
      exact (hright i j hb.1 hj).mpr ⟨hv, hn⟩

/-- With the depth of the interval the recursion ends, no index is out of range, and what
lies between two points that are kept is what the recursion leaves undivided. -/
theorem rdpIndices_spec (hzero : lt epsilon zero = false) {depth start stop : Nat}
    {keep : List Bool} (hdepth : stop - start < depth) (hlt : start < stop)
    (hstop : stop < points.length) (hlen : keep.length = points.length)
    (hs : keep[start]? = some true) (he : keep[stop]? = some true)
    (hmid : ∀ k, start < k → k < stop → keep[k]? = some false) :
    ∃ keep', rdpIndices lt dist zero epsilon points depth start stop keep = some keep' ∧
      keep'.length = points.length ∧ (∀ k, k ≤ start ∨ stop ≤ k → keep'[k]? = keep[k]?) ∧
      ∀ i j, start ≤ i → j ≤ stop → (Gap keep' i j ↔
        Visited lt dist zero epsilon points start stop i j ∧
          split lt dist zero epsilon points i j = none) := by
  induction depth generalizing start stop keep with
  | zero => omega
  | succ depth ih =>
    rw [rdpIndices_succ hlt hstop]
    cases hm : split lt dist zero epsilon points start stop with
    | none =>
      exact ⟨keep, rfl, hlen, fun _ _ => rfl, fun i j hi hj =>
        gap_undivided hm hlt hs he hmid hi hj⟩
    | some m =>
      obtain ⟨hm₁, hm₂⟩ := split_between hzero hm
      have hset : setAt keep m true = some (keep.set m true) := if_pos (by omega)
      have hget : ∀ k, (keep.set m true)[k]? = if k = m then some true else keep[k]? := by
        intro k
        rw [List.getElem?_set]
        by_cases hk : m = k
        · subst hk
          rw [if_pos rfl, if_pos rfl, if_pos (by omega)]
        · rw [if_neg hk, if_neg (Ne.symm hk)]
      obtain ⟨keep₂, hrun₂, hlen₂, hframe₂, hgap₂⟩ := @ih start m (keep.set m true)
        (by omega) hm₁ (by omega) (by simpa using hlen)
        (by rw [hget, if_neg (by omega), hs]) (by rw [hget, if_pos rfl])
        (fun k hk₁ hk₂ => by rw [hget, if_neg (by omega), hmid k hk₁ (by omega)])
      have hafter : ∀ k, m ≤ k → keep₂[k]? = if k = m then some true else keep[k]? :=
        fun k hk => by rw [hframe₂ k (.inr hk), hget]
      have hkept : keep₂[m]? = some true := by rw [hafter m le_rfl, if_pos rfl]
      obtain ⟨keep₃, hrun₃, hlen₃, hframe₃, hgap₃⟩ := @ih m stop keep₂
        (by omega) hm₂ hstop hlen₂ hkept
        (by rw [hafter stop hm₂.le, if_neg (by omega), he])
        (fun k hk₁ hk₂ => by
          rw [hafter k hk₁.le, if_neg (by omega), hmid k (by omega) hk₂])
      have hbefore : ∀ k, k ≤ m → keep₃[k]? = keep₂[k]? := fun k hk => hframe₃ k (.inl hk)
      refine ⟨keep₃, ?_, hlen₃, ?_, fun i j hi hj =>
        gap_divided hzero hm hbefore hkept hgap₂ hgap₃ hi hj⟩
      · simp only [hset, Option.bind_some, hrun₂, hrun₃]
      · intro k hk
        cases hk with
        | inl hk =>
          rw [hbefore k (by omega), hframe₂ k (.inl hk), hget, if_neg (by omega)]
        | inr hk => rw [hframe₃ k (.inr hk), hafter k (by omega), if_neg (by omega)]

/-- More than two points: both ends are kept, and between kept points lies what the
recursion leaves undivided. -/
theorem keepVector_spec (hzero : lt epsilon zero = false) (hlen : 2 < points.length) :
    ∃ keep, keepVector lt dist zero epsilon points = some keep ∧ keep.length = points.length ∧
      keep[0]? = some true ∧ keep[points.length - 1]? = some true ∧
      ∀ i j, j < points.length → (Gap keep i j ↔
        Visited lt dist zero epsilon points 0 (points.length - 1) i j ∧
          split lt dist zero epsilon points i j = none) := by
  let ends := ((List.replicate points.length false).set 0 true).set (points.length - 1) true
  have hends : ∀ k, ends[k]? = if k = points.length - 1 ∨ k = 0 then some true
      else if k < points.length then some false else none := by
    intro k
    simp only [ends, List.getElem?_set, List.getElem?_replicate, List.length_set,
      List.length_replicate]
    by_cases hlast : points.length - 1 = k
    · rw [if_pos hlast, if_pos (by omega), if_pos (.inl hlast.symm)]
    · rw [if_neg hlast]
      by_cases hfirst : 0 = k
      · rw [if_pos hfirst, if_pos (by omega), if_pos (.inr hfirst.symm)]
      · have hnot : ¬(k = points.length - 1 ∨ k = 0) := by omega
        rw [if_neg hfirst, if_neg hnot]
  have hrun : keepVector lt dist zero epsilon points =
      rdpIndices lt dist zero epsilon points points.length 0 (points.length - 1) ends := by
    have h₁ : setAt (List.replicate points.length false) 0 true =
        some ((List.replicate points.length false).set 0 true) := if_pos (by simp; omega)
    have h₂ : setAt ((List.replicate points.length false).set 0 true) (points.length - 1) true =
        some ends := if_pos (by simp; omega)
    simp only [keepVector, h₁, h₂, Option.bind_eq_bind, Option.bind_some]
  obtain ⟨keep, hkeep, hklen, hframe, hgap⟩ := @rdpIndices_spec P D lt dist zero epsilon points
    hzero points.length 0 (points.length - 1) ends (by omega) (by omega) (by omega)
    (by simp [ends]) (by rw [hends, if_pos (.inr rfl)]) (by rw [hends, if_pos (.inl rfl)])
    (fun k hk₁ hk₂ => by rw [hends, if_neg (by omega), if_pos (by omega)])
  refine ⟨keep, hrun.trans hkeep, hklen, ?_, ?_, fun i j hj => hgap i j (Nat.zero_le i) (by omega)⟩
  · rw [hframe 0 (.inl le_rfl), hends, if_pos (.inr rfl)]
  · rw [hframe _ (.inr le_rfl), hends, if_pos (.inl rfl)]

end

/-! The points of a track. -/

section
variable {α : Type}

theorem filterM_some {l : List α} {f : α → Option Bool} {p : α → Bool}
    (h : ∀ a ∈ l, f a = some (p a)) : l.filterM f = some (l.filter p) := by
  have hacc : ∀ (l acc : List α), (∀ a ∈ l, f a = some (p a)) →
      l.filterAuxM f acc = some ((l.filter p).reverse ++ acc) := by
    intro l
    induction l with
    | nil => exact fun acc _ => rfl
    | cons a l ih =>
      intro acc hl
      have ha := hl a List.mem_cons_self
      have hrest := fun acc => ih acc fun b hb => hl b (List.mem_cons_of_mem a hb)
      cases hp : p a <;> simp [List.filterAuxM, ha, hp, hrest, cond]
  simp [List.filterM, hacc l [] h]

/-- A vector that keeps the ends selects some of the points, the ends among them. -/
theorem select_spec {points : List α} {keep : List Bool} (hlen : keep.length = points.length)
    (hfirst : points ≠ [] → keep[0]? = some true)
    (hlast : points ≠ [] → keep[points.length - 1]? = some true) :
    ∃ kept, select points keep = some kept ∧ kept.Sublist points ∧
      kept.head? = points.head? ∧ kept.getLast? = points.getLast? := by
  have hkeep : ∀ e ∈ points.zipIdx, keep[e.2]? = some (keep[e.2]?.getD false) := by
    intro e he
    have hlt : e.2 < keep.length := by
      have h := List.snd_lt_add_of_mem_zipIdx he
      omega
    rw [List.getElem?_eq_getElem hlt, Option.getD_some]
  refine ⟨((points.zipIdx.filter fun e => keep[e.2]?.getD false).map Prod.fst), ?_, ?_, ?_, ?_⟩
  · rw [select, filterM_some hkeep, Option.map_some]
  · have hsub := (List.filter_sublist (l := points.zipIdx)
      (p := fun e => keep[e.2]?.getD false)).map Prod.fst
    rwa [List.zipIdx_map_fst] at hsub
  · cases points with
    | nil => rfl
    | cons a points =>
      have hk := hfirst (List.cons_ne_nil a points)
      simp [List.zipIdx_cons, hk]
  · induction points using List.reverseRecOn with
    | nil => rfl
    | append_singleton points a _ =>
      have hk := hlast (by simp)
      rw [List.length_append, List.length_singleton, Nat.add_sub_cancel] at hk
      simp [List.zipIdx_append, hk]

end

/-! The distances, in a field with square roots. -/

section
variable {K : Type} [Field K] [LinearOrder K] (sqrt : K → K)

def perpendicularDistance (p a b : K × K) : K :=
  let dx := b.1 - a.1
  let dy := b.2 - a.2
  let lenSq := dx * dx + dy * dy
  if lenSq < 1 / 10 ^ 20 then
    let ex := p.1 - a.1
    let ey := p.2 - a.2
    sqrt (ex * ex + ey * ey)
  else |(p.1 - a.1) * dy - (p.2 - a.2) * dx| / sqrt lenSq

def coords (points : List TrackPoint) : List (K × K) :=
  points.map fun p => ((p.lat : K), (p.lon : K))

/-- Which points are kept. -/
def kept (points : List TrackPoint) (epsilon : K) : Option (List Bool) :=
  if points.length ≤ 2 ∨ epsilon ≤ 0 then some (List.replicate points.length true)
  else keepVector (fun x y => decide (x < y)) (perpendicularDistance sqrt) 0 epsilon
    (coords points)

def simplifyTrackPoints (points : List TrackPoint) (epsilon : K) : Option (List TrackPoint) :=
  if points.length ≤ 2 ∨ epsilon ≤ 0 then some points
  else do
    let keep ← keepVector (fun x y => decide (x < y)) (perpendicularDistance sqrt) 0 epsilon
      (coords points)
    select points keep

theorem simplifyTrackPoints_eq (points : List TrackPoint) (epsilon : K) :
    simplifyTrackPoints sqrt points epsilon = (kept sqrt points epsilon).bind (select points) := by
  unfold simplifyTrackPoints kept
  split_ifs
  · have hall : ∀ e ∈ points.zipIdx, (List.replicate points.length true)[e.2]? = some true := by
      intro e he
      have h := List.snd_lt_add_of_mem_zipIdx he
      rw [List.getElem?_replicate, if_pos (by omega)]
    rw [Option.bind_some, select, filterM_some hall]
    simp [List.zipIdx_map_fst]
  · rfl

end

section
variable {P D : Type} [LinearOrder D] {dist : P → P → P → D} {zero epsilon : D} {points : List P}

theorem le_farthest (a b : P) {start stop i : Nat} {p : P} (hp : points[i]? = some p)
    (hstart : start < i) (hstop : i < stop) :
    dist p a b ≤ (farthest (fun x y => decide (x < y)) dist zero points a b start stop).1 := by
  have hfold : ∀ (l : List (P × Nat)) (m : D × Nat),
      m.1 ≤ (l.foldl (fun m e =>
        let d := dist e.1 a b
        if decide (m.1 < d) then (d, e.2) else m) m).1 ∧
      ∀ e ∈ l, dist e.1 a b ≤ (l.foldl (fun m e =>
        let d := dist e.1 a b
        if decide (m.1 < d) then (d, e.2) else m) m).1 := by
    intro l
    induction l with
    | nil => exact fun m => ⟨le_rfl, fun e he => nomatch he⟩
    | cons e l ih =>
      intro m
      have hmax : m.1 ≤ (if decide (m.1 < dist e.1 a b) then (dist e.1 a b, e.2) else m).1 ∧
          dist e.1 a b ≤ (if decide (m.1 < dist e.1 a b) then (dist e.1 a b, e.2) else m).1 := by
        by_cases h : m.1 < dist e.1 a b
        · simp [h, h.le]
        · simp [h, not_lt.mp h]
      obtain ⟨hm, hl⟩ := ih (if decide (m.1 < dist e.1 a b) then (dist e.1 a b, e.2) else m)
      refine ⟨hmax.1.trans hm, fun f hf => ?_⟩
      cases List.mem_cons.mp hf with
      | inl hf => exact hf ▸ hmax.2.trans hm
      | inr hf => exact hl f hf
  exact (hfold _ _).2 (p, i) (mem_between.mpr ⟨hp, hstart, hstop⟩)

/-- In an interval that is not divided every point is within epsilon of the line. -/
theorem dist_le_of_undivided {start stop i : Nat} {p a b : P}
    (h : split (fun x y => decide (x < y)) dist zero epsilon points start stop = none)
    (ha : points[start]? = some a) (hb : points[stop]? = some b) (hp : points[i]? = some p)
    (hstart : start < i) (hstop : i < stop) : dist p a b ≤ epsilon := by
  have hshort : ¬ stop ≤ start + 1 := by omega
  simp only [split, ha, hb, Option.bind_eq_bind, Option.bind_some, if_neg hshort] at h
  split_ifs at h with hfar
  exact (le_farthest a b hp hstart hstop).trans (not_lt.mp fun hlt => hfar (decide_eq_true hlt))

omit [LinearOrder D] in
theorem split_short {lt : D → D → Bool} {start stop : Nat} (h : stop ≤ start + 1) :
    split lt dist zero epsilon points start stop = none := by
  unfold split
  cases points[start]? with
  | none => rfl
  | some a =>
    cases points[stop]? with
    | none => rfl
    | some b => exact if_pos h

end

/-! Kept points and the segments between them. -/

/-- Within epsilon of a point of the segment. -/
def WithinOf (epsilon : ℝ) (p a b : ℝ × ℝ) : Prop :=
  ∃ t, 0 ≤ t ∧ t ≤ 1 ∧ √(Plane.sqDist p (Plane.onLine a b t)) ≤ epsilon

/-- Every point between two kept ones is close to the segment that joins them. -/
def Tolerates (epsilon : ℝ) (points : List TrackPoint) (keep : List Bool) : Prop :=
  ∀ i j k p a b, Gap keep i j → i < k → k < j → (coords points)[k]? = some p →
    (coords points)[i]? = some a → (coords points)[j]? = some b → WithinOf epsilon p a b

/-- In the intervals that the recursion does not divide any more, no point is beyond an
end of the interval by more than epsilon. -/
def StaysBetween (epsilon : ℝ) (points : List TrackPoint) : Prop :=
  ∀ i j k p a b,
    Visited (fun x y => decide (x < y)) (perpendicularDistance Real.sqrt) 0 epsilon
      (coords points) 0 (points.length - 1) i j →
    split (fun x y => decide (x < y)) (perpendicularDistance Real.sqrt) 0 epsilon
      (coords points) i j = none →
    i < k → k < j → (coords points)[k]? = some p → (coords points)[i]? = some a →
    (coords points)[j]? = some b → ¬ Plane.Beyond (epsilon * epsilon) p a b

theorem withinOf_iff {epsilon : ℝ} (heps : 0 < epsilon) (p a b : ℝ × ℝ) :
    WithinOf epsilon p a b ↔ Plane.NearSegment (epsilon * epsilon) p a b := by
  have hsq : ∀ x, √x ≤ epsilon ↔ x ≤ epsilon * epsilon := fun x => by
    rw [Real.sqrt_le_left heps.le, pow_two]
  simp only [WithinOf, Plane.NearSegment, hsq]

/-- Close to the line, as the code measures it. -/
theorem withinOf_iff_of_distance {epsilon : ℝ} (heps : 0 < epsilon) {p a b : ℝ × ℝ}
    (h : perpendicularDistance Real.sqrt p a b ≤ epsilon) :
    WithinOf epsilon p a b ↔ ¬ Plane.Beyond (epsilon * epsilon) p a b := by
  have hlen : (b.1 - a.1) * (b.1 - a.1) + (b.2 - a.2) * (b.2 - a.2) = Plane.sqDist b a := rfl
  have hcross : (p.1 - a.1) * (b.2 - a.2) - (p.2 - a.2) * (b.1 - a.1) = Plane.cross p a b := rfl
  have hstart : (p.1 - a.1) * (p.1 - a.1) + (p.2 - a.2) * (p.2 - a.2) = Plane.sqDist p a := rfl
  rw [withinOf_iff heps]
  simp only [perpendicularDistance, hlen, hcross, hstart] at h
  split_ifs at h with hsmall
  · rw [Real.sqrt_le_left heps.le, pow_two] at h
    have hnear := Plane.NearSegment.of_start (b := b) h
    exact iff_of_true hnear hnear.not_beyond
  · have hpos : 0 < Plane.sqDist b a := lt_of_lt_of_le (by norm_num) (not_lt.mp hsmall)
    refine Plane.nearSegment_iff hpos ?_
    rw [div_le_iff₀ (Real.sqrt_pos.mpr hpos)] at h
    have hsquare := mul_self_le_mul_self (abs_nonneg _) h
    rw [abs_mul_abs_self, mul_mul_mul_comm, Real.mul_self_sqrt hpos.le] at hsquare
    exact hsquare

/-- Simplification ends, with some of the points and both ends; the dropped ones are
within epsilon of the segments exactly when none runs beyond an end. -/
theorem simplify_iff (points : List TrackPoint) (epsilon : ℝ) (heps : 0 < epsilon) :
    ∃ keep left, kept Real.sqrt points epsilon = some keep ∧ select points keep = some left ∧
      simplifyTrackPoints Real.sqrt points epsilon = some left ∧
      left.Sublist points ∧ left.head? = points.head? ∧ left.getLast? = points.getLast? ∧
      (Tolerates epsilon points keep ↔ StaysBetween epsilon points) := by
  have hclen : (coords (K := ℝ) points).length = points.length := by simp [coords]
  have hzero : (fun x y : ℝ => decide (x < y)) epsilon 0 = false := by simpa using heps.le
  by_cases hshort : points.length ≤ 2
  · have hkept : kept Real.sqrt points epsilon = some (List.replicate points.length true) :=
      if_pos (.inl hshort)
    obtain ⟨left, hleft, hsub, hhead, hlast⟩ := @select_spec _ points
      (List.replicate points.length true) (by simp)
      (fun hne => by
        rw [List.getElem?_replicate, if_pos (List.length_pos_of_ne_nil hne)])
      (fun hne => by
        have hpos := List.length_pos_of_ne_nil hne
        rw [List.getElem?_replicate, if_pos (by omega)])
    refine ⟨_, left, hkept, hleft, ?_, hsub, hhead, hlast, ?_⟩
    · rw [simplifyTrackPoints_eq, hkept, Option.bind_some, hleft]
    · refine iff_of_true ?_ ?_
      · intro i j k p a b hg hik hkj
        have hfalse := hg.2.2.2 k hik hkj
        rw [List.getElem?_replicate] at hfalse
        split_ifs at hfalse
        cases hfalse
      · intro i j k p a b hv _ hik hkj
        cases hv with
        | here => omega
        | left hd _ => rw [split_short (by omega)] at hd; cases hd
        | right hd _ => rw [split_short (by omega)] at hd; cases hd
  · have hlong : 2 < (coords (K := ℝ) points).length := by omega
    have hkept : kept Real.sqrt points epsilon = keepVector (fun x y => decide (x < y))
        (perpendicularDistance Real.sqrt) 0 epsilon (coords points) :=
      if_neg (not_or.mpr ⟨hshort, not_le.mpr heps⟩)
    obtain ⟨keep, hkeep, hlen, hfirst, hend, hgap⟩ := @keepVector_spec (ℝ × ℝ) ℝ
      (fun x y => decide (x < y)) (perpendicularDistance Real.sqrt) 0 epsilon (coords points)
      hzero hlong
    rw [hclen] at hlen hend hgap
    obtain ⟨left, hleft, hsub, hhead, hlast⟩ :=
      select_spec hlen (fun _ => hfirst) (fun _ => hend)
    refine ⟨keep, left, hkept.trans hkeep, hleft, ?_, hsub, hhead, hlast, ?_⟩
    · rw [simplifyTrackPoints_eq, hkept, hkeep, Option.bind_some, hleft]
    · have hj : ∀ {j : Nat} {b : ℝ × ℝ}, (coords points)[j]? = some b → j < points.length := by
        intro j b hb
        have h := (List.getElem?_eq_some_iff.mp hb).1
        omega
      constructor
      · intro h i j k p a b hv hd hik hkj hp ha hb
        have hdist := dist_le_of_undivided hd ha hb hp hik hkj
        have hg := (hgap i j (hj hb)).mpr ⟨hv, hd⟩
        exact (withinOf_iff_of_distance heps hdist).mp (h i j k p a b hg hik hkj hp ha hb)
      · intro h i j k p a b hg hik hkj hp ha hb
        obtain ⟨hv, hd⟩ := (hgap i j (hj hb)).mp hg
        have hdist := dist_le_of_undivided hd ha hb hp hik hkj
        exact (withinOf_iff_of_distance heps hdist).mpr (h i j k p a b hv hd hik hkj hp ha hb)

/-! A track that runs past its last point and comes back. -/

def point (lat lon : ℚ) : TrackPoint :=
  ⟨lat, lon, 0, none, none, none⟩

/-- The turning point, one degree from where the track ends, is dropped. -/
theorem turn_dropped :
    kept Real.sqrt [point 0 0, point 0 2, point 0 1] (1 / 1000) = some [true, false, true] ∧
    ¬ Tolerates (1 / 1000) [point 0 0, point 0 2, point 0 1] [true, false, true] := by
  constructor
  · have hline : perpendicularDistance Real.sqrt (0, 2) (0, 0) (0, 1) = 0 := by
      norm_num [perpendicularDistance]
    norm_num [kept, keepVector, setAt, rdpIndices, farthest, coords, point, hline,
      List.zipIdx_cons]
    rfl
  · intro h
    obtain ⟨t, -, ht, hnear⟩ := h 0 2 1 (0, 2) (0, 0) (0, 1)
      ⟨by omega, rfl, rfl, fun k hk₁ hk₂ => by
        have hk : k = 1 := by omega
        rw [hk]
        rfl⟩ (by omega) (by omega) (by simp [coords, point]) (by simp [coords, point])
      (by simp [coords, point])
    rw [Real.sqrt_le_left (by norm_num)] at hnear
    simp only [Plane.sqDist, Plane.onLine] at hnear
    nlinarith

theorem simplify_iff_straight :
    ∃ keep left, kept Real.sqrt [point 0 0, point 0 1, point 0 2] (1 / 1000) = some keep ∧
      select [point 0 0, point 0 1, point 0 2] keep = some left ∧
      simplifyTrackPoints Real.sqrt [point 0 0, point 0 1, point 0 2] (1 / 1000) = some left ∧
      left.head? = some (point 0 0) ∧ left.getLast? = some (point 0 2) := by
  have heps : (0 : ℝ) < 1 / 1000 := by norm_num
  obtain ⟨keep, left, hkept, hselect, hleft, -, hhead, hlast, -⟩ :=
    simplify_iff [point 0 0, point 0 1, point 0 2] (1 / 1000) heps
  exact ⟨keep, left, hkept, hselect, hleft, hhead, hlast⟩

end SignalK.Tracks.Simplify
