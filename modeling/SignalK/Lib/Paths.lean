import Mathlib.Algebra.Order.BigOperators.Group.List
import SignalK.Lib.Text

/-! File paths as texts: how they are joined, and where they lead from a directory when dots
are resolved by their names alone. -/
namespace Paths

def isAbsolute (p : String) : Bool :=
  Text.startsWith p "/"

/-- `base.join(p)`: an absolute path replaces what comes before it. -/
def join (base p : String) : String :=
  if isAbsolute p then p
  else if base = "" ∨ Text.endsWith base "/" then base ++ p
  else base ++ "/" ++ p

def segments (p : String) : List String :=
  Text.split '/' p

/-- One segment further; the root is its own parent. -/
def enter (dir : List String) (s : String) : List String :=
  if s = "" ∨ s = "." then dir
  else if s = ".." then dir.dropLast
  else dir ++ [s]

/-- Where segments lead from a directory. -/
def walk (dir : List String) (ss : List String) : List String :=
  ss.foldl enter dir

/-- Where a path leads, from the working directory or from the root. -/
def resolve (cwd : List String) (p : String) : List String :=
  walk (if isAbsolute p then [] else cwd) (segments p)

@[simp] theorem walk_nil (dir : List String) : walk dir [] = dir := rfl

theorem walk_cons (dir : List String) (s : String) (ss : List String) :
    walk dir (s :: ss) = walk (enter dir s) ss := rfl

theorem walk_append (dir : List String) (ss ts : List String) :
    walk dir (ss ++ ts) = walk (walk dir ss) ts :=
  List.foldl_append

@[simp] theorem enter_empty (dir : List String) : enter dir "" = dir := rfl

/-- A name that is none of the special ones. -/
theorem enter_name {s : String} (h : s ≠ "" ∧ s ≠ "." ∧ s ≠ "..") (dir : List String) :
    enter dir s = dir ++ [s] := by
  simp [enter, h.1, h.2.1, h.2.2]

theorem isAbsolute_append {base : String} (h : base ≠ "") (p : String) :
    isAbsolute (base ++ p) = isAbsolute base := by
  obtain ⟨c, cs, hbase⟩ := List.exists_cons_of_ne_nil (mt String.toList_eq_nil_iff.mp h)
  have hslash : "/".toList = ['/'] := rfl
  simp [isAbsolute, Text.startsWith, hbase, hslash, List.isPrefixOf]

theorem segments_slash (a b : String) : segments (a ++ "/" ++ b) = segments a ++ segments b :=
  Text.split_append_separator '/' a b

theorem segments_plain {s : String} (h : '/' ∉ s.toList) : segments s = [s] := by
  rw [segments, Text.split, List.splitOn_eq_singleton h, List.map_cons, List.map_nil,
    String.ofList_toList]

/-- Joining is walking on, or starting again at the root. -/
theorem resolve_join (cwd : List String) (base p : String) :
    resolve cwd (join base p) =
      walk (if isAbsolute p then [] else resolve cwd base) (segments p) := by
  rw [join]
  by_cases habs : isAbsolute p = true
  · simp [habs, resolve]
  · rw [if_neg habs, if_neg habs]
    by_cases hempty : base = ""
    · subst hempty
      have hnone : resolve cwd "" = cwd := rfl
      rw [if_pos (.inl rfl), String.empty_append, resolve, if_neg habs, hnone]
    · by_cases hslash : Text.endsWith base "/" = true
      · obtain ⟨b, rfl⟩ := (Text.endsWith_iff base "/").mp hslash
        have hb : segments (b ++ "/") = segments b ++ [""] := by
          have := segments_slash b ""
          rwa [String.append_empty] at this
        rw [if_pos (.inr hslash), resolve, isAbsolute_append hempty, segments_slash, walk_append,
          resolve, hb, walk_append, walk_cons, enter_empty, walk_nil]
      · rw [if_neg (by simp [hempty, hslash]), resolve, String.append_assoc,
          isAbsolute_append hempty, ← String.append_assoc, segments_slash, walk_append, resolve]

/-! Walks that do not leave the directory they start in. -/

/-- One segment further below a directory, unless it leads out. -/
def descend (sub : List String) (s : String) : Option (List String) :=
  if s = "" ∨ s = "." then some sub
  else if s = ".." then if sub = [] then none else some sub.dropLast
  else some (sub ++ [s])

/-- Where segments lead below a directory, if they never leave it. -/
def below (sub : List String) : List String → Option (List String)
  | [] => some sub
  | s :: ss => (descend sub s).bind fun sub => below sub ss

theorem walk_below {sub sub' ss : List String} (h : below sub ss = some sub')
    (dir : List String) : walk (dir ++ sub) ss = dir ++ sub' := by
  induction ss generalizing sub with
  | nil =>
    obtain rfl := Option.some.inj h
    rfl
  | cons s ss ih =>
    obtain ⟨next, hnext, h⟩ := Option.bind_eq_some_iff.mp h
    have hstep : enter (dir ++ sub) s = dir ++ next := by
      rw [descend] at hnext
      rw [enter]
      split_ifs at hnext ⊢ with hstay hup hroot
      · rw [Option.some.inj hnext]
      · rw [List.dropLast_append_of_ne_nil hroot, Option.some.inj hnext]
      · rw [← Option.some.inj hnext, List.append_assoc]
    rw [walk_cons, hstep, ih h]

/-- A name that no segment spells is not come back to. -/
theorem notMem_walk {name : String} {dir ss : List String} (hdir : name ∉ dir) (hss : name ∉ ss) :
    name ∉ walk dir ss := by
  induction ss generalizing dir with
  | nil => exact hdir
  | cons s ss ih =>
    rw [walk_cons]
    refine ih ?_ fun hm => hss (List.mem_cons_of_mem s hm)
    rw [enter]
    split_ifs
    · exact hdir
    · exact fun hm => hdir ((List.dropLast_sublist dir).subset hm)
    · intro hm
      obtain hm | hm := List.mem_append.mp hm
      · exact hdir hm
      · exact hss (List.mem_singleton.mp hm ▸ List.mem_cons_self)

/-- Segments that lead out of a directory do not find it again by another's name. -/
theorem notMem_walk_of_leaves {name : String} {sub ss : List String} (hsub : name ∉ sub)
    (hss : name ∉ ss) (h : below sub ss = none) : name ∉ walk (name :: sub) ss := by
  induction ss generalizing sub with
  | nil => cases h
  | cons s ss ih =>
    have hs : name ≠ s := fun he => hss (he ▸ List.mem_cons_self)
    have hss' : name ∉ ss := fun hm => hss (List.mem_cons_of_mem s hm)
    rw [walk_cons]
    rw [below, descend] at h
    rw [enter]
    split_ifs at h ⊢ with hstay hup hroot
    · exact ih hsub hss' h
    · subst hroot
      exact notMem_walk (by simp) hss'
    · have hlast : (name :: sub).dropLast = name :: sub.dropLast :=
        List.dropLast_cons_of_ne_nil hroot
      rw [hlast]
      exact ih (fun hm => hsub ((List.dropLast_sublist sub).subset hm)) hss' h
    · refine @ih (sub ++ [s]) ?_ hss' h
      intro hm
      obtain hm | hm := List.mem_append.mp hm
      · exact hsub hm
      · exact hs (List.mem_singleton.mp hm)

/-- Segments from a place below a directory lead to a place below a home of that directory, and
never out of the directory. -/
def Stays (home start ss : List String) : Prop :=
  ∃ sub, below start ss = some sub ∧ home <+: sub

theorem prefix_of_stays {home start ss : List String} (h : Stays home start ss)
    (dir : List String) : dir ++ home <+: walk (dir ++ start) ss := by
  obtain ⟨sub, hsub, hp⟩ := h
  rw [walk_below hsub]
  exact (List.prefix_append_right_inj dir).mpr hp

/-- A directory by a name of its own cannot be found again. -/
theorem stays_of_prefix {name : String} {home start ss : List String} (hstart : name ∉ start)
    (hss : name ∉ ss) (h : name :: home <+: walk (name :: start) ss) : Stays home start ss := by
  cases hb : below start ss with
  | none => exact absurd (h.subset List.mem_cons_self) (notMem_walk_of_leaves hstart hss hb)
  | some sub =>
    have hwalk : walk (name :: start) ss = name :: sub := walk_below hb [name]
    rw [hwalk] at h
    exact ⟨sub, hb, (List.cons_prefix_cons.mp h).2⟩

/-- A single segment that does not lead up. -/
def Plain (s : String) : Prop :=
  '/' ∉ s.toList ∧ s ≠ ".."

theorem Plain.relative {s : String} (h : Plain s) : isAbsolute s = false := by
  by_contra habs
  obtain ⟨r, rfl⟩ := (Text.startsWith_iff s "/").mp (Bool.not_eq_false _ ▸ habs)
  exact h.1 (by simp)

/-- Joining a plain name does not leave a directory. -/
theorem Plain.prefix_join {p : String} (h : Plain p) (cwd : List String) (base : String) :
    resolve cwd base <+: resolve cwd (join base p) := by
  have hrel : ¬isAbsolute p = true := by simp [h.relative]
  rw [resolve_join, if_neg hrel, segments_plain h.1, walk_cons, walk_nil, enter]
  split_ifs with hstay hup
  · exact List.prefix_rfl
  · exact absurd hup h.2
  · exact List.prefix_append _ _

/-- An entry of a directory. -/
theorem resolve_entry {name : String} (h : name ≠ "" ∧ name ≠ "." ∧ name ≠ "..")
    (hs : '/' ∉ name.toList) (cwd : List String) (base : String) :
    resolve cwd (join base name) = resolve cwd base ++ [name] := by
  have hrel : ¬isAbsolute name = true := by simp [Plain.relative ⟨hs, h.2.2⟩]
  rw [resolve_join, if_neg hrel, segments_plain hs, walk_cons, walk_nil, enter_name h]

/-- Some name is none of a list. -/
theorem exists_name (l : List String) :
    ∃ s, (s ≠ "" ∧ s ≠ "." ∧ s ≠ "..") ∧ '/' ∉ s.toList ∧ s ∉ l := by
  let n := (l.map String.length).sum + 3
  have hlen : (String.ofList (List.replicate n 'x')).length = n := by simp
  refine ⟨String.ofList (List.replicate n 'x'), ⟨?_, ?_, ?_⟩, ?_, fun hm => ?_⟩
  · intro h
    rw [h] at hlen
    simp [n] at hlen
  · intro h
    rw [h] at hlen
    have : 1 = n := hlen
    omega
  · intro h
    rw [h] at hlen
    have : 2 = n := hlen
    omega
  · simp [List.mem_replicate]
  · have hle := List.le_sum_of_mem (List.mem_map_of_mem hm (f := String.length))
    rw [hlen] at hle
    omega

/-- A directory of the root. -/
theorem resolve_root {s : String} (h : s ≠ "" ∧ s ≠ "." ∧ s ≠ "..") (hs : '/' ∉ s.toList)
    (cwd : List String) : resolve cwd ("/" ++ s) = [s] := by
  have habs : isAbsolute ("/" ++ s) = true := Text.startsWith_append "/" s
  have hsplit : segments ("/" ++ s) = ["", s] := by
    have := segments_slash "" s
    rwa [String.empty_append, segments_plain hs] at this
  rw [resolve, if_pos habs, hsplit, walk_cons, enter_empty, walk_cons, walk_nil, enter_name h,
    List.nil_append]

end Paths
