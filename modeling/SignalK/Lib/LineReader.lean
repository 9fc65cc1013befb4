import Mathlib.Logic.Nontrivial.Basic
import SignalK.Lib.Machine
import SignalK.Lib.Utf8

/-! A reader of bytes line by line. A line that is no text ends the reading: for good, or until
it is taken up again with nothing kept and after bytes that nobody has read. -/
namespace LineReader
variable {σ τ ω ε : Type*}

/-! The lines of a stream. -/

/-- What is left of a stream of which `line` has been read. -/
def splitFrom (line : List UInt8) : List UInt8 → List (List UInt8)
  | [] => if line = [] then [] else [line]
  | b :: bs => if b = 10 then line :: splitFrom [] bs else splitFrom (line ++ [b]) bs

def split : List UInt8 → List (List UInt8) :=
  splitFrom []

/-- Every line with its end. -/
def joined (ls : List (List UInt8)) : List UInt8 :=
  ls.flatMap fun l => l ++ [10]

theorem splitFrom_append {l : List UInt8} (h : 10 ∉ l) (line bs : List UInt8) :
    splitFrom line (l ++ bs) = splitFrom (line ++ l) bs := by
  induction l generalizing line with
  | nil => simp
  | cons b l ih =>
    have hb : b ≠ 10 := fun he => h (he ▸ List.mem_cons_self)
    rw [List.cons_append, splitFrom, if_neg hb, ih fun hm => h (List.mem_cons_of_mem b hm)]
    simp

theorem split_joined {ls : List (List UInt8)} (h : ∀ l ∈ ls, 10 ∉ l) : split (joined ls) = ls := by
  induction ls with
  | nil => rfl
  | cons l ls ih =>
    have hl : 10 ∉ l := h l List.mem_cons_self
    have hls := ih fun m hm => h m (List.mem_cons_of_mem l hm)
    have hjoin : joined (l :: ls) = l ++ 10 :: joined ls := by simp [joined]
    rw [hjoin, split, splitFrom_append hl, List.nil_append, splitFrom, if_pos rfl]
    exact congrArg (l :: ·) hls

/-! The reader. -/

/-- What is done with a line that is a text, at the time when it is read. -/
structure Handler (σ τ ω : Type*) where
  fresh : σ
  handle : τ → σ → List Char → σ × List ω

structure Reader (σ : Type*) where
  state : σ
  /-- bytes that are lost before the reading is taken up -/
  skipping : Nat
  /-- what will be lost after each of the next errors -/
  losses : List Nat
  closed : Bool

namespace Handler
variable (H : Handler σ τ ω)

/-- In the midst of the lines. -/
def reading (s : σ) (losses : List Nat) : Reader σ :=
  ⟨s, 0, losses, false⟩

/-- After an error: nobody reads on, or it is begun anew. -/
def reopen : List Nat → Reader σ
  | [] => ⟨H.fresh, 0, [], true⟩
  | n :: losses => ⟨H.fresh, n, losses, false⟩

def step (r : Reader σ) (l : τ × List UInt8) : Reader σ × List ω :=
  if r.closed then (r, [])
  else if l.2.length < r.skipping then
    ({ r with skipping := r.skipping - (l.2.length + 1) }, [])
  else
    match Utf8.decode (l.2.drop r.skipping) with
    | none => (H.reopen r.losses, [])
    | some line =>
      (reading (H.handle l.1 r.state line).1 r.losses, (H.handle l.1 r.state line).2)

/-- All that is handed on. -/
def out (r : Reader σ) (ls : List (τ × List UInt8)) : List ω :=
  (Machine.exec H.step r ls).2

@[simp] theorem out_nil (r : Reader σ) : H.out r [] = [] := rfl

@[simp] theorem out_cons (r : Reader σ) (l : τ × List UInt8) (ls : List (τ × List UInt8)) :
    H.out r (l :: ls) = (H.step r l).2 ++ H.out (H.step r l).1 ls := rfl

theorem out_closed {r : Reader σ} (h : r.closed = true) (ls : List (τ × List UInt8)) :
    H.out r ls = [] := by
  have hstep : ∀ l, H.step r l = (r, []) := by
    intro l
    rw [step, if_pos h]
  induction ls with
  | nil => rfl
  | cons l ls ih => rw [out_cons, hstep, ih, List.append_nil]

/-- Nothing is made of a line, as far as it is read. -/
def Mute (r : Reader σ) (l : τ × List UInt8) : Prop :=
  r.closed = false → r.skipping ≤ l.2.length →
    ∀ line, Utf8.decode (l.2.drop r.skipping) = some line → (H.handle l.1 r.state line).2 = []

/-- Nothing is made of any line when its turn comes. -/
def Silent (r : Reader σ) (ls : List (τ × List UInt8)) : Prop :=
  Machine.Meets H.step H.Mute r ls

theorem mute_iff (r : Reader σ) (l : τ × List UInt8) : (H.step r l).2 = [] ↔ H.Mute r l := by
  rw [step, Mute]
  split_ifs with hclosed hskip
  · simp [hclosed]
  · simp [hskip]
  · cases hd : Utf8.decode (l.2.drop r.skipping) with
    | none => simp
    | some line => simp [hclosed, Nat.le_of_not_lt hskip]

theorem out_eq_nil_iff (r : Reader σ) (ls : List (τ × List UInt8)) :
    H.out r ls = [] ↔ H.Silent r ls := by
  rw [out, Machine.exec_silent_iff]
  exact Machine.meets_congr H.mute_iff r ls

variable {H}

theorem step_text {t : τ} {bytes : List UInt8} {line : List Char}
    (h : Utf8.decode bytes = some line) (s : σ) (losses : List Nat) :
    H.step (reading s losses) (t, bytes) =
      (reading (H.handle t s line).1 losses, (H.handle t s line).2) := by
  simp [step, reading, h]

theorem step_noText {bytes : List UInt8} (h : Utf8.decode bytes = none) (t : τ) (s : σ)
    (losses : List Nat) : H.step (reading s losses) (t, bytes) = (H.reopen losses, []) := by
  simp [step, reading, h]

/-- Texts are read without errors. -/
theorem out_texts {ls : List (τ × List UInt8)} (h : ∀ l ∈ ls, Utf8.decode l.2 ≠ none) (s : σ)
    (losses losses' : List Nat) : H.out (reading s losses) ls = H.out (reading s losses') ls := by
  induction ls generalizing s with
  | nil => rfl
  | cons l ls ih =>
    obtain ⟨line, hline⟩ := Option.ne_none_iff_exists'.mp (h l List.mem_cons_self)
    rw [out_cons, out_cons, step_text hline, step_text hline]
    exact congrArg _ (ih (fun m hm => h m (List.mem_cons_of_mem l hm)) _)

/-! Lines that may be left out. -/

/-- The time of a line shows in what is handed on, and nowhere else. -/
structure Stamped (H : Handler σ τ ω) (time : ω → τ) : Prop where
  state : ∀ t t' s line, (H.handle t s line).1 = (H.handle t' s line).1
  silent : ∀ t t' s line, (H.handle t s line).2 = [] → (H.handle t' s line).2 = []
  time : ∀ t s line, ∀ o ∈ (H.handle t s line).2, time o = t

theorem Stamped.time_out {time : ω → τ} (hH : Stamped H time) {t : τ} {ls : List (τ × List UInt8)}
    (h : ∀ l ∈ ls, l.1 = t) (r : Reader σ) : ∀ o ∈ H.out r ls, time o = t := by
  induction ls generalizing r with
  | nil =>
    intro o ho
    cases ho
  | cons l ls ih =>
    have hstep : ∀ o ∈ (H.step r l).2, time o = t := by
      intro o ho
      rw [step] at ho
      split_ifs at ho
      · cases ho
      · cases ho
      · split at ho
        · cases ho
        · rw [hH.time _ _ _ o ho, h l List.mem_cons_self]
    intro o ho
    rw [out_cons] at ho
    cases List.mem_append.mp ho with
    | inl ho => exact hstep o ho
    | inr ho => exact ih (fun m hm => h m (List.mem_cons_of_mem l hm)) _ o ho

/-- The lines as they are read, and those among them that are wanted. -/
def lines (bytes : ε → List UInt8) (es : List (τ × ε)) : List (τ × List UInt8) :=
  es.map fun e => (e.1, bytes e.2)

def wanted (keep : ε → Bool) (es : List (τ × ε)) : List (τ × ε) :=
  es.filter fun e => keep e.2

section filter

variable {bytes : ε → List UInt8} {keep : ε → Bool}

/-- Nothing is made of the other lines, and when one of them is no text, then nothing is made of
what follows: neither of the wanted lines, had it not been there, nor of what is still read. -/
def Unharmed (H : Handler σ τ ω) (bytes : ε → List UInt8) (keep : ε → Bool)
    (ways : Set (List Nat)) : σ → List (τ × ε) → Prop
  | _, [] => True
  | s, e :: es =>
    match Utf8.decode (bytes e.2) with
    | none =>
      H.Silent (reading s []) (lines bytes (wanted keep es)) ∧
        ∀ losses ∈ ways, H.Silent (H.reopen losses) (lines bytes es)
    | some line =>
      (keep e.2 = false → (H.handle e.1 s line).2 = []) ∧
        Unharmed H bytes keep ways (H.handle e.1 s line).1 es

theorem unharmed_text {ways : Set (List Nat)} {s : σ} {e : τ × ε} {es : List (τ × ε)}
    {line : List Char} (h : Utf8.decode (bytes e.2) = some line) :
    Unharmed H bytes keep ways s (e :: es) ↔
      (keep e.2 = false → (H.handle e.1 s line).2 = []) ∧
        Unharmed H bytes keep ways (H.handle e.1 s line).1 es := by
  rw [Unharmed]
  simp only [h]

theorem unharmed_noText {ways : Set (List Nat)} {s : σ} {e : τ × ε} {es : List (τ × ε)}
    (h : Utf8.decode (bytes e.2) = none) :
    Unharmed H bytes keep ways s (e :: es) ↔
      H.out (reading s []) (lines bytes (wanted keep es)) = [] ∧
        ∀ losses ∈ ways, H.out (H.reopen losses) (lines bytes es) = [] := by
  rw [Unharmed]
  simp only [h, out_eq_nil_iff]

/-- What is wanted is a text, and what is not leaves the state as it is. -/
structure Separate (H : Handler σ τ ω) (bytes : ε → List UInt8) (keep : ε → Bool) : Prop where
  text : ∀ e, keep e = true → Utf8.decode (bytes e) ≠ none
  idle : ∀ e, keep e = false → ∀ line, Utf8.decode (bytes e) = some line →
    ∀ t s, (H.handle t s line).1 = s

theorem wanted_cons_of_keep {e : τ × ε} (h : keep e.2 = true) (es : List (τ × ε)) :
    wanted keep (e :: es) = e :: wanted keep es :=
  List.filter_cons_of_pos h

theorem wanted_cons_of_not_keep {e : τ × ε} (h : keep e.2 = false) (es : List (τ × ε)) :
    wanted keep (e :: es) = wanted keep es :=
  List.filter_cons_of_neg (by simp [h])

/-- The wanted lines are read in the same way, whatever is lost after errors. -/
theorem Separate.out_wanted (hs : Separate H bytes keep) (s : σ) (losses losses' : List Nat)
    (es : List (τ × ε)) :
    H.out (reading s losses) (lines bytes (wanted keep es)) =
      H.out (reading s losses') (lines bytes (wanted keep es)) := by
  apply out_texts
  intro l hl
  obtain ⟨e, he, rfl⟩ := List.mem_map.mp hl
  exact hs.text e.2 (List.mem_filter.mp he).2

theorem out_of_unharmed (hs : Separate H bytes keep) {ways : Set (List Nat)} {losses : List Nat}
    (hway : losses ∈ ways) {s : σ} {es : List (τ × ε)} (h : Unharmed H bytes keep ways s es) :
    H.out (reading s losses) (lines bytes es) =
      H.out (reading s losses) (lines bytes (wanted keep es)) := by
  induction es generalizing s with
  | nil => rfl
  | cons e es ih =>
    cases hd : Utf8.decode (bytes e.2) with
    | none =>
      have hkeep : keep e.2 = false := Bool.eq_false_iff.mpr fun hk => hs.text e.2 hk hd
      have hrest := (unharmed_noText hd).mp h
      rw [wanted_cons_of_not_keep hkeep, hs.out_wanted s losses [], hrest.1, lines, List.map_cons,
        out_cons, step_noText hd]
      exact hrest.2 losses hway
    | some line =>
      have hrest := (unharmed_text hd).mp h
      have htail := ih hrest.2
      cases hk : keep e.2 with
      | true =>
        rw [wanted_cons_of_keep hk, lines, lines, List.map_cons, List.map_cons, out_cons, out_cons,
          step_text hd]
        exact congrArg _ htail
      | false =>
        rw [hs.idle e.2 hk line hd] at htail
        rw [wanted_cons_of_not_keep hk, lines, List.map_cons, out_cons, step_text hd,
          hrest.1 hk, hs.idle e.2 hk line hd, List.nil_append]
        exact htail

/-- Whenever the lines are read, the same is handed on as if the others were left out: exactly
when they do no harm. Nobody may come back after an error. -/
theorem out_eq_iff [Nontrivial τ] {time : ω → τ} (hH : Stamped H time) (hs : Separate H bytes keep)
    {ways : Set (List Nat)} (hnil : [] ∈ ways) (s : σ) (es : List ε) :
    (∀ clock : Nat → τ, ∀ losses ∈ ways,
      H.out (reading s losses) (lines bytes (Machine.timed clock es)) =
        H.out (reading s losses) (lines bytes (wanted keep (Machine.timed clock es)))) ↔
    ∀ clock : Nat → τ, Unharmed H bytes keep ways s (Machine.timed clock es) := by
  refine ⟨fun h => ?_, fun h clock losses hway => out_of_unharmed hs hway (h clock)⟩
  induction es generalizing s with
  | nil => exact fun clock => trivial
  | cons e es ih =>
    -- the head and the tail may be read at any times
    have hcons : ∀ (t : τ) (clock : Nat → τ), ∀ losses ∈ ways,
        H.out (reading s losses) (lines bytes ((t, e) :: Machine.timed clock es)) =
          H.out (reading s losses)
            (lines bytes (wanted keep ((t, e) :: Machine.timed clock es))) := by
      intro t clock losses hway
      obtain ⟨clock', hclock⟩ := Machine.exists_timed_cons (ε := ε) t clock
      rw [← hclock]
      exact h clock' losses hway
    intro clock
    rw [Machine.timed]
    cases hd : Utf8.decode (bytes e) with
    | none =>
      have hkeep : keep e = false := Bool.eq_false_iff.mpr fun hk => hs.text e hk hd
      rw [unharmed_noText hd]
      have hlost : ∀ losses ∈ ways, H.out (H.reopen losses)
          (lines bytes (Machine.timed (fun n => clock (n + 1)) es)) =
          H.out (reading s []) (lines bytes (wanted keep
            (Machine.timed (fun n => clock (n + 1)) es))) := by
        intro losses hway
        have heq := hcons (clock 0) (fun n => clock (n + 1)) losses hway
        rw [wanted_cons_of_not_keep hkeep, hs.out_wanted s losses [], lines, List.map_cons,
          out_cons, step_noText hd] at heq
        exact heq
      have hnone := hlost [] hnil
      rw [out_closed H rfl] at hnone
      refine ⟨hnone.symm, fun losses hway => ?_⟩
      rw [hlost losses hway, ← hnone]
    | some line =>
      rw [unharmed_text hd]
      -- what a line that is not wanted is made into shows at what time it was read
      have hsilent : keep e = false → (H.handle (clock 0) s line).2 = [] := by
        intro hk
        obtain ⟨t, ht⟩ := exists_ne (clock 0)
        have heq := hcons (clock 0) (fun _ => t) [] hnil
        rw [wanted_cons_of_not_keep hk, lines, List.map_cons, out_cons, step_text hd] at heq
        have htime : ∀ l ∈ lines bytes (wanted keep (Machine.timed (fun _ => t) es)),
            l.1 = t := by
          intro l hl
          obtain ⟨e', he', rfl⟩ := List.mem_map.mp hl
          obtain ⟨n, hn⟩ := Machine.timed_fst _ es e' (List.mem_filter.mp he').1
          exact hn
        apply List.eq_nil_iff_forall_not_mem.mpr
        intro o ho
        have hlate := hH.time_out htime (reading s []) o
          (heq ▸ List.mem_append_left _ ho)
        exact ht (hlate.symm.trans (hH.time _ s line o ho))
      refine ⟨hsilent, ih _ (fun clock' losses hway => ?_) _⟩
      have heq := hcons (clock 0) clock' losses hway
      cases hk : keep e with
      | true =>
        rw [wanted_cons_of_keep hk, lines, lines, List.map_cons, List.map_cons, out_cons, out_cons,
          step_text hd] at heq
        exact List.append_cancel_left heq
      | false =>
        rw [wanted_cons_of_not_keep hk, lines, List.map_cons, out_cons, step_text hd, hsilent hk,
          List.nil_append] at heq
        rw [hs.idle e hk line hd] at heq ⊢
        exact heq

end filter

end Handler
end LineReader
