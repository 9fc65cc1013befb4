import SignalK.History.Ingestion
import SignalK.Lib.Glob
import SignalK.UnitPreferences.Types

/-! What the three matchers make of a pattern: of a subscription, of the history's paths and
of the categories of unit preferences. -/
namespace SignalK
open Glob History UnitPreferences

/-- `*` is any one segment and `**` any number of them. -/
def token (segment : String) : Token String :=
  if segment = "**" then .rest else if segment = "*" then .one else .letter segment

/-- The pattern over the segments of a path. -/
def globOf (pattern : String) : List (Token String) := (segments pattern).map token

theorem token_rest (segment : String) : token segment = .rest ↔ segment = "**" := by
  unfold token
  split_ifs <;> simp_all

theorem token_letter {segment a : String} (h : token segment = .letter a) : segment = a := by
  unfold token at h
  split_ifs at h
  exact Token.letter.inj h

theorem token_one : token "*" = .one := by decide

theorem token_of_ne {q : String} (hall : q ≠ "**") (hone : q ≠ "*") : token q = .letter q := by
  simp [token, hall, hone]

/-- The matcher of the history tries all ends of the path after a `**`. -/
theorem matchParts_iff (pattern path : List String) :
    matchParts pattern path = true ↔ Matches (pattern.map token) path := by
  induction pattern generalizing path with
  | nil => simp [matchParts, matches_nil]
  | cons q qs ih =>
    by_cases hall : q = "**"
    · have hstep : matchParts (q :: qs) path =
          (qs.isEmpty || path.tails.any (matchParts qs)) := by
        cases path <;> exact if_pos hall
      rw [hstep, List.map_cons, (token_rest q).mpr hall, matches_rest]
      simp only [Bool.or_eq_true, List.any_eq_true, List.mem_tails, ih]
      constructor
      · rintro (hnil | h)
        · rw [List.isEmpty_iff.mp hnil]
          exact ⟨[], List.nil_suffix, .nil⟩
        · exact h
      · exact .inr
    · by_cases hone : q = "*"
      · rw [List.map_cons, hone, token_one, matches_one]
        cases path with
        | nil => simp [matchParts]
        | cons p ps => simp [matchParts, ih]
      · rw [List.map_cons, token_of_ne hall hone, matches_letter]
        cases path with
        | nil => simp [matchParts, hall]
        | cons p ps =>
          have hswap : q = p ↔ p = q := eq_comm
          simp [matchParts, hall, hone, ih, hswap]

/-- The matcher of a subscription stops at the first `**`. -/
theorem matchesParts_iff (pattern path : List String) :
    matchesParts pattern path = true ↔ Matches (cut (pattern.map token)) path := by
  induction pattern generalizing path with
  | nil => cases path <;> simp [matchesParts, cut, matches_nil]
  | cons q qs ih =>
    by_cases hall : q = "**"
    · have hstep : matchesParts (q :: qs) path = true := by
        cases path <;> exact if_pos hall
      rw [List.map_cons, (token_rest q).mpr hall, cut]
      exact iff_of_true hstep (matches_rest_alone path)
    · by_cases hone : q = "*"
      · rw [List.map_cons, hone, token_one, cut, matches_one]
        cases path with
        | nil => simp [matchesParts]
        | cons p ps => simp [matchesParts, ih]
      · rw [List.map_cons, token_of_ne hall hone, cut, matches_letter]
        cases path with
        | nil => simp [matchesParts, hall]
        | cons p ps =>
          have hswap : q = p ↔ p = q := eq_comm
          simp [matchesParts, hall, hone, ih, hswap]

/-- The matcher of the categories compares segment by segment. -/
theorem zip_all_iff {pattern : List String} (hp : "**" ∉ pattern) (path : List String) :
    (pattern.length = path.length ∧
      ∀ pair ∈ pattern.zip path, pair.1 = "*" ∨ pair.1 = pair.2) ↔
      Matches (pattern.map token) path := by
  induction pattern generalizing path with
  | nil => simp [matches_nil, eq_comm]
  | cons q qs ih =>
    obtain ⟨hall, hrest⟩ := not_or.mp (mt List.mem_cons.mpr hp)
    have hall : q ≠ "**" := Ne.symm hall
    cases path with
    | nil =>
      by_cases hone : q = "*"
      · simp [hone, token_one, matches_one]
      · simp [token_of_ne hall hone, matches_letter]
    | cons p ps =>
      have hsplit : ((q :: qs).length = (p :: ps).length ∧
          ∀ pair ∈ (q :: qs).zip (p :: ps), pair.1 = "*" ∨ pair.1 = pair.2) ↔
          (q = "*" ∨ q = p) ∧ qs.length = ps.length ∧
            ∀ pair ∈ qs.zip ps, pair.1 = "*" ∨ pair.1 = pair.2 := by
        simp only [List.length_cons, Nat.add_right_cancel_iff, List.zip_cons_cons,
          List.forall_mem_cons]
        exact and_left_comm
      rw [hsplit, ih hrest]
      by_cases hone : q = "*"
      · simp [hone, token_one, matches_one]
      · have hswap : q = p ↔ p = q := eq_comm
        simp [hone, token_of_ne hall hone, matches_letter, hswap]

theorem matchesWildcard_iff {pattern : String} (hp : "**" ∉ segments pattern) (path : String) :
    matchesWildcard pattern path = true ↔ Matches (globOf pattern) (segments path) := by
  have hiff := zip_all_iff hp (segments path)
  simpa [matchesWildcard, globOf, List.all_eq_true] using hiff

theorem pathMatchesGlob_iff (path pattern : String) :
    pathMatchesGlob path pattern = true ↔ Matches (globOf pattern) (segments path) := by
  have hiff := matchParts_iff (segments pattern) (segments path)
  unfold pathMatchesGlob
  by_cases hall : pattern = "**"
  · have hglob : globOf pattern = [.rest] := by
      rw [hall]
      decide
    rw [hglob]
    exact iff_of_true (by simp [hall]) (matches_rest_alone _)
  · simp only [hall, decide_false, Bool.false_or]
    exact hiff

/-- For which patterns a matcher that stops at the first `**` says the same. -/
theorem cut_iff_settled (pattern : String) :
    (∀ path, Matches (cut (globOf pattern)) (segments path) →
      Matches (globOf pattern) (segments path)) ↔ Settled (globOf pattern) := by
  have hletter : ∀ a, .letter a ∈ globOf pattern → '.' ∉ a.toList := by
    intro a ha
    obtain ⟨segment, hs, ht⟩ := List.mem_map.mp ha
    rw [← token_letter ht]
    exact Text.notMem_of_mem_split hs
  have hx : '.' ∉ "x".toList := by decide
  have hy : '.' ∉ "y".toList := by decide
  rw [← cut_iff (P := fun s : String => '.' ∉ s.toList) hx hy (by decide) hletter]
  constructor
  · intro h w hne hw hm
    have hsplit : segments (Text.join '.' w) = w := Text.split_join hw hne
    rw [← hsplit] at hm ⊢
    exact h _ hm
  · intro h path hm
    exact h _ (Text.split_ne_nil '.' path) (fun a ha => Text.notMem_of_mem_split ha) hm

theorem matchesPattern_iff (pattern path : String) :
    matchesPattern pattern path = true ↔ Matches (cut (globOf pattern)) (segments path) :=
  matchesParts_iff (segments pattern) (segments path)

theorem settled_of_plain {pattern : String} (hp : "**" ∉ segments pattern) :
    Settled (globOf pattern) := by
  by_contra hnot
  have hsome := (not_or.mp hnot).1
  obtain ⟨segment, hs, ht⟩ := List.mem_map.mp (rest_mem hsome)
  exact hp ((token_rest segment).mp ht ▸ hs)

theorem matchers_agree_iff (pattern : String) :
    (∀ path, matchesPattern pattern path = pathMatchesGlob path pattern) ↔
      Settled (globOf pattern) := by
  rw [← cut_iff_settled]
  refine forall_congr' fun path => ?_
  rw [Bool.eq_iff_iff, matchesPattern_iff, pathMatchesGlob_iff]
  exact ⟨fun h => h.mp, fun h => ⟨h, Matches.cut⟩⟩

/-- The history's matcher speaks the language of patterns; that of subscriptions speaks the
one in which nothing counts after a `**`, which is the same for settled patterns; that of
the categories joins them on patterns without `**`. -/
theorem wildcards (pattern : String) :
    (∀ path, pathMatchesGlob path pattern = true ↔ Matches (globOf pattern) (segments path)) ∧
    (∀ path, matchesPattern pattern path = true ↔
      Matches (cut (globOf pattern)) (segments path)) ∧
    ((∀ path, matchesPattern pattern path = pathMatchesGlob path pattern) ↔
      Settled (globOf pattern)) ∧
    ("**" ∉ segments pattern → ∀ path,
      matchesWildcard pattern path = pathMatchesGlob path pattern ∧
        matchesPattern pattern path = pathMatchesGlob path pattern) := by
  refine ⟨fun path => pathMatchesGlob_iff path pattern, matchesPattern_iff pattern,
    matchers_agree_iff pattern, fun hp path => ⟨?_, ?_⟩⟩
  · rw [Bool.eq_iff_iff, matchesWildcard_iff hp, pathMatchesGlob_iff]
  · exact (matchers_agree_iff pattern).mpr (settled_of_plain hp) path

/-- A subscription to `a.**.b` is served with `a.x`. -/
theorem subscription_stops_early :
    ¬ ∀ pattern path,
      (matchesPattern pattern path = true ↔ Matches (globOf pattern) (segments path)) ∧
      (pathMatchesGlob path pattern = true ↔ Matches (globOf pattern) (segments path)) ∧
      ("**" ∉ segments pattern →
        (matchesWildcard pattern path = true ↔ Matches (globOf pattern) (segments path))) := by
  intro h
  obtain ⟨hpattern, hglob, -⟩ := h "a.**.b" "a.x"
  have hstops : matchesPattern "a.**.b" "a.x" = true := by decide +kernel
  have hrecorded : pathMatchesGlob "a.x" "a.**.b" = false := by decide +kernel
  exact absurd (hglob.mpr (hpattern.mp hstops)) (by simp [hrecorded])

end SignalK
