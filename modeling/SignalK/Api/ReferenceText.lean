import SignalK.Api.ConfigReference

/-! Exactly when the reference is read as what it is for: names and texts that need no
quoting, numbers that TOML has, and comments that stay comments. -/
namespace SignalK.ConfigReference

open Toml (Key Value)
open scoped Toml

/-! Lines and names. -/

theorem reads_lines (lines : List (List Char))
    (h : ∀ c ∈ lines, Toml.OnlyComments (c ++ ['\n'])) :
    Toml.Reads (lines.flatMap (· ++ ['\n'])) [] := by
  have hall := Toml.Reads.flatMap lines (fun c => c ++ ['\n']) (fun _ => [])
    fun c hc => (h c hc).reads c
  have hnil : lines.flatMap (fun _ => ([] : List Toml.Expr)) = [] := by
    simp [List.flatMap_eq_nil_iff]
  rwa [hnil] at hall

theorem reads_of_eq {cs ds : List Char} {es : List Toml.Expr} (h : Toml.Reads cs es)
    (hds : ds = cs) : Toml.Reads ds es :=
  hds ▸ h

theorem reads_newline : Toml.Reads ['\n'] [] := by
  have hline := Toml.OnlyComments.reads [] (by rw [Toml.onlyComments_iff]; decide)
  exact hline

theorem reads_written (lines : List String)
    (h : ∀ l ∈ lines.map String.toList, '\n' ∉ l ∧ Toml.Idle l) :
    Toml.Reads (written lines) [] := by
  have hall := Toml.Reads.ended h
  rwa [Toml.ended, List.flatMap_map] at hall

theorem map_fst_filterMap {β : Type} {f : String → Option (String × β)}
    (hf : ∀ k e, f k = some e → e.1 = k) (names : List String) :
    ((names.filterMap f).map Prod.fst).Sublist names := by
  induction names with
  | nil => simp
  | cons k names ih =>
    cases hk : f k with
    | none =>
      rw [List.filterMap_cons_none hk]
      exact ih.cons k
    | some e =>
      rw [List.filterMap_cons_some hk, List.map_cons, hf k e hk]
      exact ih.cons_cons k

theorem topLevel_subset {server : Json} {e : String × Json × Bool} (h : e ∈ topLevel server) :
    e ∈ shown server :=
  List.mem_append_left _ h

theorem shownIn_subset {server : Json} {s : String × Json} (hs : s ∈ sections server)
    {e : String × Json × Bool} (h : e ∈ shownIn s.2) : e ∈ shown server :=
  List.mem_append_right _ (List.mem_flatMap_of_mem hs h)

theorem topLevel_names (server : Json) :
    ((topLevel server).map Prod.fst).Sublist (sectionOrder.take 2) := by
  apply map_fst_filterMap
  intro k e he
  obtain ⟨prop, -, rfl⟩ := Option.map_eq_some_iff.mp he
  rfl

theorem sections_names (server : Json) :
    ((sections server).map Prod.fst).Sublist (sectionOrder.drop 2) := by
  apply map_fst_filterMap
  intro k e he
  obtain ⟨prop, -, he⟩ := Option.bind_eq_some_iff.mp he
  split_ifs at he
  obtain rfl := Option.some.inj he
  rfl

theorem bare_section {server : Json} {s : String × Json} (hs : s ∈ sections server) : Toml.Bare s.1.toList := by
  have hall : ∀ name ∈ sectionOrder.drop 2, Toml.Bare name.toList := by decide +kernel
  exact hall s.1 ((sections_names server).subset (List.mem_map_of_mem hs))

/-! Defaults. -/

theorem quoted_yields {s : String} (h : Plain s) :
    Toml.Yields (quoted s) (some (.string s.toList)) :=
  Toml.Yields.plain h

theorem placeholder_yields (prop : Json) : ∃ v, Toml.Yields (placeholder prop) (some v) := by
  rw [placeholder]
  split_ifs
  · exact ⟨.integer 0, Toml.Yields.scalar (t := "0".toList) (by decide) (by decide)⟩
  · exact ⟨.float "0.0".toList, Toml.Yields.scalar (t := "0.0".toList) (by decide) (by decide)⟩
  · exact ⟨.boolean false,
      Toml.Yields.scalar (t := "false".toList) (by decide) (by decide)⟩
  · exact ⟨.array [], Toml.Yields.array (w := []) (by simp) .nil⟩
  · exact ⟨.table [], Toml.Yields.emptyTable⟩
  · exact ⟨.string [], Toml.Yields.plain (s := []) (by simp)⟩

theorem mapM_id_some {α : Type*} (vs : List α) : (vs.map some).mapM id = some vs := by
  induction vs with
  | nil => rfl
  | cons v vs ih => simp [ih]

section defaults

variable [DoubleText] [FloatParse]

theorem items_yield {items : List Json} (hf : ∀ x ∈ Json.itemFloats items, DoubleText.Exact x)
    (h : ∀ j ∈ items, PlainItem j) : ∃ vs : List Value,
      List.Forall₂ Toml.Yields (items.map itemText) (vs.map some) ∧ Json.DenoteAll items vs := by
  induction items with
  | nil => exact ⟨[], .nil, by simp [Json.DenoteAll]⟩
  | cons j items ih =>
    obtain ⟨hj, hitems⟩ := List.forall_mem_cons.mp h
    obtain ⟨vs, hvs, hdenote⟩ :=
      ih (fun x hx => hf x (by simp [Json.itemFloats, hx])) hitems
    have hfirst : ∃ v, Toml.Yields (itemText j) (some v) ∧ Json.Denotes j v := by
      cases j with
      | string s => exact ⟨_, quoted_yields hj, by rw [Json.Denotes]⟩
      | null | bool _ | number _ | array _ | object _ =>
        have hx := fun x hx => hf x (by simp only [Json.itemFloats, List.mem_append]; exact .inl hx)
        obtain ⟨v, hv, hd⟩ := Json.exists_meaning _ hx hj
        exact ⟨v, hv ▸ Json.text_yields _ hx, hd⟩
    obtain ⟨v, hv, hd⟩ := hfirst
    exact ⟨v :: vs, .cons hv hvs, by rw [Json.DenoteAll]; exact ⟨hd, hdenote⟩⟩

/-- A default that needs no quoting and no escapes. -/
theorem default_yields {prop d : Json} (hd : defaultOf prop = some d)
    (hf : ∀ x ∈ d.floats, DoubleText.Exact x) (h : Writable d) :
    ∃ v, Toml.Yields (defaultToToml prop) (some v) ∧ Json.Denotes d v := by
  obtain ⟨hget, hnull⟩ := Option.filter_eq_some_iff.mp hd
  rw [defaultToToml, hget]
  cases d with
  | null => simp at hnull
  | string s => exact ⟨_, quoted_yields h, by rw [Json.Denotes]⟩
  | bool b =>
    obtain ⟨v, hv, hd⟩ := Json.exists_meaning (.bool b) hf h
    exact ⟨v, hv ▸ Json.text_yields _ hf, hd⟩
  | number n =>
    cases n with
    | posInt n =>
      obtain ⟨v, hv, hd⟩ := Json.exists_meaning (.number (.posInt n)) hf h
      exact ⟨v, hv ▸ Json.text_yields _ hf, hd⟩
    | negInt n =>
      obtain ⟨v, hv, hd⟩ := Json.exists_meaning (.number (.negInt n)) hf h
      exact ⟨v, hv ▸ Json.text_yields _ hf, hd⟩
    | float x =>
      obtain ⟨v, hv, hd⟩ := Json.exists_meaning (.number (.float x)) hf (by rw [Json.Portable]; trivial)
      refine ⟨v, ?_, hd⟩
      rw [Writable] at h
      dsimp only
      rw [if_pos h]
      exact hv ▸ Json.text_yields _ hf
  | array items =>
    obtain ⟨vs, hvs, hdenote⟩ := items_yield (fun x hx => hf x (by simpa [Json.floats] using hx)) h
    refine ⟨.array vs, ?_, by rwa [Json.Denotes]⟩
    have harray := Toml.Yields.array (w := [' ']) (by decide) hvs
    rwa [mapM_id_some] at harray
  | object fields =>
    have hempty : fields = [] := h
    dsimp only
    rw [if_pos hempty]
    exact ⟨.table [], Toml.Yields.emptyTable, by simp [hempty, Json.Denotes, Json.DenoteFields]⟩

theorem plainItem_of_value {j : Json} (hf : ∀ x ∈ j.floats, DoubleText.Exact x) {n : Nat}
    {rest r : List Char} {v : Value} (hrest : rest.head? = some ',' ∨ rest = [']'])
    (hn : (itemText j).length < n) (h : Toml.value n (itemText j ++ rest) = some (v, r))
    (hd : Json.Denotes j v) : PlainItem j ∧ r = rest := by
  have hother : ∀ j : Json, (∀ x ∈ j.floats, DoubleText.Exact x) → j.text.length < n →
      Toml.value n (j.text ++ rest) = some (v, r) → j.Portable ∧ r = rest := by
    intro j hf hn h
    have hends : Toml.Ends rest := by
      rcases hrest with hhead | rfl
      · cases rest with
        | nil => simp at hhead
        | cons c rest =>
          obtain rfl := Option.some.inj hhead
          exact Toml.ends_comma rest
      · exact Toml.ends_bracket []
    rw [(Json.text_yields j hf).value_eq n rest hn hends] at h
    obtain ⟨v', hv, hvr⟩ := Option.map_eq_some_iff.mp h
    exact ⟨Json.portable_of_meaning j hv, (Prod.mk.inj hvr).2.symm⟩
  cases j with
  | string s =>
    have hv : v = .string s.toList := by
      cases v with
      | string t =>
        rw [Json.Denotes] at hd
        rw [hd]
      | integer _ | float _ | boolean _ | dateTime _ | array _ | table _ => simp [Json.Denotes] at hd
    have htext : itemText (.string s) ++ rest = '"' :: (s.toList ++ '"' :: rest) := by
      simp [itemText, quoted]
    rw [htext, hv] at h
    refine Toml.plain_of_value ?_ h
    rcases hrest with hhead | rfl
    · exact .inl hhead
    · exact .inr ⟨by simp, by decide⟩
  | null | bool _ | number _ | array _ | object _ => exact hother _ hf hn h

theorem itemText_opens (j : Json) (hf : ∀ x ∈ j.floats, DoubleText.Exact x) :
    ∃ c cs, itemText j = c :: cs ∧ Toml.isOpening c = true := by
  cases j with
  | string s => exact ⟨'"', _, rfl, by decide⟩
  | null | bool _ | number _ | array _ | object _ => exact (Json.text_yields _ hf).opens

/-- Items that are read as what they are leave each other alone. -/
theorem plainItems_of_items {items : List Json}
    (hf : ∀ x ∈ Json.itemFloats items, DoubleText.Exact x) {n : Nat} {vs : List Value}
    (hn : ([',', ' '].intercalate (items.map itemText)).length + 1 < n)
    (h : Toml.items n ([',', ' '].intercalate (items.map itemText) ++ [']']) = some (vs, []))
    (hd : Json.DenoteAll items vs) : ∀ j ∈ items, PlainItem j := by
  induction items generalizing n vs with
  | nil => simp
  | cons j items ih =>
    obtain ⟨n, rfl⟩ : ∃ k, n = k + 1 := ⟨n - 1, by omega⟩
    have hj := fun x hx => hf x (by simp only [Json.itemFloats, List.mem_append]; exact .inl hx)
    obtain ⟨c, cs, htext, hc⟩ := itemText_opens j hj
    have htrivia : ∀ after, Toml.trivia false (itemText j ++ after) = some (itemText j ++ after) := by
      intro after
      rw [htext, List.cons_append, Toml.trivia_opening hc]
    have hbracket : ∀ after, (itemText j ++ after).head? ≠ some ']' := by
      intro after he
      rw [htext, List.cons_append, List.head?_cons] at he
      rw [Option.some.inj he] at hc
      exact absurd hc (by decide)
    cases vs with
    | nil => simp [Json.DenoteAll] at hd
    | cons v vs =>
      rw [Json.DenoteAll] at hd
      -- the first item read is the first item, whatever it has left
      have hfirst : ∀ {rest : List Char}, Toml.items (n + 1) (itemText j ++ rest) =
          some (v :: vs, []) → ∃ r, Toml.value n (itemText j ++ rest) = some (v, r) ∧
            (Toml.trivia false r).bind (fun after =>
              if after.head? = some ',' then
                (Toml.items n after.tail).map fun more => (v :: more.1, more.2)
              else if after.head? = some ']' then some ([v], after.tail)
              else none) = some (v :: vs, []) := by
        intro rest hitems
        rw [Toml.items, htrivia, Option.bind_some, if_neg (hbracket _)] at hitems
        obtain ⟨⟨v', r⟩, hval, hrest⟩ := Option.bind_eq_some_iff.mp hitems
        have hv : v' = v := by
          obtain ⟨after, -, hafter⟩ := Option.bind_eq_some_iff.mp hrest
          split_ifs at hafter
          · obtain ⟨more, -, hmore⟩ := Option.map_eq_some_iff.mp hafter
            exact (List.cons_eq_cons.mp (Prod.mk.inj hmore).1).1
          · exact (List.cons_eq_cons.mp (Prod.mk.inj (Option.some.inj hafter)).1).1
        subst hv
        exact ⟨r, hval, hrest⟩
      cases items with
      | nil =>
        simp only [List.map_cons, List.map_nil, List.intercalate_singleton] at h hn
        obtain ⟨r, hval, -⟩ := hfirst h
        obtain ⟨hplain, -⟩ := plainItem_of_value hj (.inr rfl) (by omega) hval hd.1
        simpa using hplain
      | cons j' items =>
        have hcons : [',', ' '].intercalate ((j :: j' :: items).map itemText) =
            itemText j ++ ([',', ' '] ++ [',', ' '].intercalate ((j' :: items).map itemText)) := by
          rw [List.map_cons, List.map_cons, List.intercalate_cons_cons, List.append_assoc]
        rw [hcons] at hn h
        simp only [List.length_append, List.length_cons, List.length_nil] at hn
        rw [List.append_assoc] at h
        obtain ⟨r, hval, hrest⟩ := hfirst h
        obtain ⟨hplain, rfl⟩ := plainItem_of_value hj (.inl rfl) (by omega) hval hd.1
        have hcomma : Toml.trivia false ([',', ' '] ++ [',', ' '].intercalate
            ((j' :: items).map itemText) ++ [']']) = some ([',', ' '] ++ [',', ' '].intercalate
            ((j' :: items).map itemText) ++ [']']) := by
          simp [Toml.trivia, Toml.isWs]
        rw [hcomma, Option.bind_some] at hrest
        obtain ⟨more, hmore, hvs⟩ := Option.map_eq_some_iff.mp hrest
        have hpair : more = (vs, []) :=
          Prod.ext (List.cons_eq_cons.mp (Prod.mk.inj hvs).1).2 (Prod.mk.inj hvs).2
        rw [hpair] at hmore
        have htail := Toml.items_ws (w := [' ']) (by decide) n
          ([',', ' '].intercalate ((j' :: items).map itemText) ++ [']'])
        have hitems : Toml.items n ([',', ' '].intercalate ((j' :: items).map itemText) ++ [']']) =
            some (vs, []) := by
          rw [← htail]
          exact hmore
        have hall := ih (fun x hx => hf x (by rw [Json.itemFloats]; exact List.mem_append_right _ hx))
          (by omega) hitems hd.2
        exact List.forall_mem_cons.mpr ⟨hplain, hall⟩

/-- A default whose text is read as what it is needs no quoting and no escapes. -/
theorem writable_of_value {prop d : Json} (hd : defaultOf prop = some d)
    (hf : ∀ x ∈ d.floats, DoubleText.Exact x) {v : Value}
    (hv : Toml.value ((defaultToToml prop).length + 1) (defaultToToml prop) = some (v, []))
    (hdenote : Json.Denotes d v) : Writable d := by
  have hother : (defaultToToml prop = d.text) → d.Portable := by
    intro htext
    rw [htext, (Json.text_yields d hf).alone] at hv
    obtain ⟨v', hv', -⟩ := Option.map_eq_some_iff.mp hv
    exact Json.portable_of_meaning d hv'
  obtain ⟨hget, hnull⟩ := Option.filter_eq_some_iff.mp hd
  rw [defaultToToml, hget] at hv hother
  cases d with
  | null => simp at hnull
  | string s =>
    have hs : v = .string s.toList := by
      cases v with
      | string t =>
        rw [Json.Denotes] at hdenote
        rw [hdenote]
      | integer _ | float _ | boolean _ | dateTime _ | array _ | table _ =>
        simp [Json.Denotes] at hdenote
    rw [hs] at hv
    exact (Toml.plain_of_value (.inr ⟨by simp, by simp⟩) hv).1
  | bool b => exact hother rfl
  | number n =>
    cases n with
    | posInt n => exact hother rfl
    | negInt n => exact hother rfl
    | float x =>
      rw [Writable]
      by_contra hpoint
      dsimp only at hv
      rw [if_neg hpoint] at hv
      obtain ⟨decimal, htext, -⟩ := hf x (by simp [Json.floats])
      rw [htext] at hv hpoint
      have hfraction : decimal.fraction = [] := by
        by_contra hne
        exact hpoint (by simp [Toml.Decimal.text, hne])
      have hzero : ∀ c ∈ ".0".toList, Toml.isTokenChar c = true := by decide
      have hyields := Toml.Yields.scalar (t := decimal.text ++ ".0".toList)
        (by simp) fun c hc => by
          rcases List.mem_append.mp hc with hc | hc
          · exact decimal.isTokenChar_of_mem hc
          · exact hzero c hc
      rw [hyields.alone] at hv
      obtain ⟨v', hclassify, hpair⟩ := Option.map_eq_some_iff.mp hv
      rw [(Prod.mk.inj hpair).1] at hclassify
      cases v with
      | float t => exact decimal.classify_append hfraction t hclassify
      | string _ | integer _ | boolean _ | dateTime _ | array _ | table _ =>
        simp [Json.Denotes] at hdenote
  | array items =>
    dsimp only at hv
    rw [Toml.value, if_neg (by decide), if_neg (by decide), if_pos rfl] at hv
    obtain ⟨⟨vs, rest⟩, hitems, hpair⟩ := Option.map_eq_some_iff.mp hv
    obtain ⟨rfl, rfl⟩ := Prod.mk.inj hpair
    rw [Json.Denotes] at hdenote
    exact plainItems_of_items (fun x hx => hf x (by simpa [Json.floats] using hx))
      (by simp) hitems hdenote
  | object fields =>
    change fields = []
    by_contra hne
    dsimp only at hv
    rw [if_neg hne] at hv
    have hempty : Toml.value ("\"\"".toList.length + 1) "\"\"".toList =
        some (.string [], []) :=
      (Toml.Yields.plain (s := []) (by simp)).alone
    rw [hempty] at hv
    obtain ⟨rfl, -⟩ := Prod.mk.inj (Option.some.inj hv)
    simp [Json.Denotes] at hdenote

end defaults

/-! The document. -/

section careful

variable [DoubleText]

/-- What the text of a property's default is read as. -/
def stated (prop : Json) : Value :=
  match Toml.value ((defaultToToml prop).length + 1) (defaultToToml prop) with
  | some r => r.1
  | none => .table []

def keys (props : List (String × Json × Bool)) : List (Key × Value) :=
  props.map fun e => (e.1.toList, stated e.2.1)

theorem stated_eq {prop : Json} {v : Value}
    (h : Toml.Yields (defaultToToml prop) (some v)) : stated prop = v := by
  rw [stated, h.alone]
  rfl

variable {server : Json} {plugins : List PluginSchema}

theorem Careful.onlyComments (h : Careful server plugins) {c : List Char}
    (hc : c ∈ allRemarks server plugins) : Toml.OnlyComments (c ++ ['\n']) :=
  (Toml.onlyComments_iff c).mpr (h.remarks c hc)

theorem reads_emitProperty {key : String} {prop : Json} {req : Bool}
    (hkey : Toml.Bare key.toList) (hvalue : Toml.Yields (defaultToToml prop) (some (stated prop)))
    (hremarks : ∀ c ∈ remarks prop req, Toml.OnlyComments (c ++ ['\n'])) :
    Toml.Reads (emitProperty key prop 0 req) [.keyval [key.toList] (stated prop)] := by
  have hlines := reads_lines _ hremarks
  have hkeyval := Toml.Reads.keyval hkey hvalue
  have hall := hlines.append hkeyval
  simpa [emitProperty, spaces] using hall

theorem reads_emitAll {props : List (String × Json × Bool)}
    (h : ∀ e ∈ props, Toml.Bare e.1.toList ∧
      Toml.Yields (defaultToToml e.2.1) (some (stated e.2.1)) ∧
      ∀ c ∈ remarks e.2.1 e.2.2, Toml.OnlyComments (c ++ ['\n'])) :
    Toml.Reads (emitAll props) (Toml.keyvals (keys props)) := by
  have hall := Toml.Reads.flatMap props (fun e : String × Json × Bool => emitProperty e.1 e.2.1 0 e.2.2)
    (fun e => [Toml.Expr.keyval [e.1.toList] (stated e.2.1)])
    fun e he => reads_emitProperty (h e he).1 (h e he).2.1 (h e he).2.2
  have hkeys : Toml.keyvals (keys props) =
      props.flatMap fun e => [Toml.Expr.keyval [e.1.toList] (stated e.2.1)] := by
    rw [Toml.keyvals, keys, List.map_map, List.map_eq_flatMap]
    rfl
  rwa [hkeys]

theorem reads_emitSection {name : String} {prop : Json} (hname : Toml.Bare name.toList)
    (hremarks : ∀ c ∈ sectionRemarks prop, Toml.OnlyComments (c ++ ['\n']))
    (hprops : ∀ e ∈ shownIn prop, Toml.Bare e.1.toList ∧
      Toml.Yields (defaultToToml e.2.1) (some (stated e.2.1)) ∧
      ∀ c ∈ remarks e.2.1 e.2.2, Toml.OnlyComments (c ++ ['\n'])) :
    Toml.Reads (emitSection name prop)
      (.table [name.toList] :: Toml.keyvals (keys (shownIn prop))) := by
  have hheader := Toml.Reads.header hname
  have hall := (((reads_lines _ hremarks).append hheader).append (reads_emitAll hprops)).append
    reads_newline
  simpa [emitSection] using hall

/-- The keys of a plugin's entry. -/
def entry (plugin : PluginSchema) : List (Key × Value) :=
  ("id".toList, .string plugin.1.toList) ::
    if pluginProperties plugin.2.2 ≠ [] then [] else [("config".toList, .table [])]

theorem reads_emitPlugin {plugin : PluginSchema} (hid : Plain plugin.1)
    (hname : Toml.OnlyComments (nameRemark plugin.2.1 ++ ['\n']))
    (hprops : ∀ e ∈ pluginProperties plugin.2.2,
      Toml.OnlyComments (pluginRemark e.1 e.2.1 1 e.2.2 ++ ['\n'])) :
    Toml.Reads (emitPlugin plugin) (.tables ["plugins".toList] :: Toml.keyvals (entry plugin)) := by
  have hheader : Toml.Reads "[[plugins]]\n".toList [.tables ["plugins".toList]] :=
    reads_of_eq (Toml.Reads.item (k := "plugins".toList) (by decide +kernel)) (by decide +kernel)
  have hkey : Toml.Reads ("id = ".toList ++ quoted plugin.1 ++ ['\n'])
      [.keyval ["id".toList] (.string plugin.1.toList)] := by
    have hid := Toml.Reads.keyval (k := "id".toList) (by decide +kernel) (quoted_yields hid)
    have htext : "id = ".toList = "id".toList ++ [' ', '=', ' '] := by decide +kernel
    rwa [htext]
  have henabled : Toml.Reads "# enabled = true\n".toList [] :=
    reads_of_eq (reads_written ["# enabled = true"] (by decide +kernel))
      (by decide +kernel)
  have hconfig : Toml.Reads (if pluginProperties plugin.2.2 ≠ [] then
      "# config = \x7b\n".toList ++
        (pluginProperties plugin.2.2).flatMap (fun e => emitPluginProperty e.1 e.2.1 1 e.2.2) ++
        "# \x7d\n".toList
      else "config = \x7b\x7d\n".toList)
      (if pluginProperties plugin.2.2 ≠ [] then []
        else [.keyval ["config".toList] (.table [])]) := by
    split_ifs
    · have hopen : Toml.Reads "# config = \x7b\n".toList [] :=
        reads_of_eq (reads_written ["# config = \x7b"] (by decide +kernel))
          (by decide +kernel)
      have hclose : Toml.Reads "# \x7d\n".toList [] :=
        reads_of_eq (reads_written ["# \x7d"] (by decide +kernel)) (by decide +kernel)
      have hentries := reads_lines ((pluginProperties plugin.2.2).map fun e =>
        pluginRemark e.1 e.2.1 1 e.2.2) fun c hc => by
          obtain ⟨e, he, rfl⟩ := List.mem_map.mp hc
          exact hprops e he
      rw [List.flatMap_map] at hentries
      exact (hopen.append hentries).append hclose
    · exact reads_of_eq (Toml.Reads.keyval (k := "config".toList) (by decide +kernel)
        Toml.Yields.emptyTable) (by decide +kernel)
  have hall := (((((hname.reads _).append hheader).append hkey).append henabled).append
    hconfig).append reads_newline
  have hkeyvals : Toml.keyvals (entry plugin) =
      .keyval ["id".toList] (.string plugin.1.toList) ::
        if pluginProperties plugin.2.2 ≠ [] then []
          else [.keyval ["config".toList] (.table [])] := by
    rw [entry]
    split_ifs <;> rfl
  rw [hkeyvals]
  simp only [List.nil_append, List.append_nil, List.singleton_append] at hall
  exact hall


/-- The names in the document, and the plugins after them. -/
theorem names_nodup (server : Json) :
    ((keys (topLevel server)).map Prod.fst ++
      ((sections server).map fun s => (s.1.toList, keys (shownIn s.2))).map Prod.fst ++
      ["plugins".toList]).Nodup := by
  have hsub := (topLevel_names server).append (sections_names server)
  rw [List.take_append_drop] at hsub
  have hall : (sectionOrder.map String.toList ++ ["plugins".toList]).Nodup := by decide +kernel
  have htop : (keys (topLevel server)).map Prod.fst =
      ((topLevel server).map Prod.fst).map String.toList := by
    simp [keys]
  have hsections : ((sections server).map fun s =>
      (s.1.toList, keys (shownIn s.2))).map Prod.fst =
      ((sections server).map Prod.fst).map String.toList := by
    simp
  rw [htop, hsections, ← List.map_append]
  exact hall.sublist ((hsub.map String.toList).append (List.Sublist.refl _))

theorem keys_nodup {prop : Json} (h : ((properties prop).getD []).Pairwise fun a b => a.1 < b.1) :
    ((keys (shownIn prop)).map Prod.fst).Nodup := by
  have hnames : ((properties prop).getD []).Pairwise fun a b => a.1.toList ≠ b.1.toList := by
    refine h.imp fun hlt he => ?_
    rw [String.toList_inj] at he
    rw [he] at hlt
    exact lt_irrefl _ hlt
  rw [keys, shownIn, List.map_map, List.map_map, List.Nodup, List.pairwise_map]
  exact hnames

variable [FloatParse]

/-- In careful inputs each property has a value, and a default means the same. -/
theorem stated_yields (hs : FromSerde server) (h : Careful server plugins)
    {e : String × Json × Bool} (he : e ∈ shown server) :
    Toml.Yields (defaultToToml e.2.1) (some (stated e.2.1)) ∧
      ∀ d, defaultOf e.2.1 = some d → Json.Denotes d (stated e.2.1) := by
  cases hd : defaultOf e.2.1 with
  | none =>
    obtain ⟨v, hv⟩ := placeholder_yields e.2.1
    have htext : defaultToToml e.2.1 = placeholder e.2.1 := by
      rw [defaultToToml]
      cases hget : e.2.1.get "default" with
      | none => rfl
      | some d =>
        rw [defaultOf, hget] at hd
        cases d with
        | null => rfl
        | bool _ | number _ | string _ | array _ | object _ => simp at hd
    have hyields : Toml.Yields (defaultToToml e.2.1) (some v) := by rwa [htext]
    rw [stated_eq hyields]
    exact ⟨hyields, by simp⟩
  | some d =>
    obtain ⟨v, hv, hdenote⟩ := default_yields hd (hs.exact e he d hd) (h.defaults e he d hd)
    rw [stated_eq hv]
    refine ⟨hv, fun d' hd' => ?_⟩
    rwa [← Option.some.inj hd']

/-- What a careful reference holds, line by line. -/
theorem reads_reference (hs : FromSerde server) (h : Careful server plugins) :
    Toml.Reads (generateFullReference server plugins)
      (Toml.keyvals (keys (topLevel server)) ++
        (((sections server).map fun s => (s.1.toList, keys (shownIn s.2))).flatMap fun s =>
          Toml.Expr.table [s.1] :: Toml.keyvals s.2) ++
        (plugins.map entry).flatMap fun kvs =>
          Toml.Expr.tables ["plugins".toList] :: Toml.keyvals kvs) := by
  have hprop : ∀ e ∈ shown server, Toml.Bare e.1.toList ∧
      Toml.Yields (defaultToToml e.2.1) (some (stated e.2.1)) ∧
      ∀ c ∈ remarks e.2.1 e.2.2, Toml.OnlyComments (c ++ ['\n']) := by
    intro e he
    refine ⟨h.names e he, (stated_yields hs h he).1, fun c hc => h.onlyComments ?_⟩
    exact List.mem_append_left _ (List.mem_append_left _ (List.mem_flatMap_of_mem he hc))
  have hbanner : Toml.Reads (written banner) [] := reads_written _ (by decide +kernel)
  have htop : Toml.Reads (emitAll (topLevel server)) (Toml.keyvals (keys (topLevel server))) :=
    reads_emitAll fun e he => hprop e (topLevel_subset he)
  have hsections := Toml.Reads.flatMap (sections server) (fun s : String × Json => emitSection s.1 s.2)
    (fun s => Toml.Expr.table [s.1.toList] :: Toml.keyvals (keys (shownIn s.2)))
    fun s hsec => reads_emitSection (bare_section hsec)
      (fun c hc => h.onlyComments (List.mem_append_left _ (List.mem_append_right _
        (List.mem_flatMap_of_mem hsec hc))))
      fun e he => hprop e (shownIn_subset hsec he)
  have hplugins := Toml.Reads.flatMap plugins emitPlugin
    (fun p => Toml.Expr.tables ["plugins".toList] :: Toml.keyvals (entry p))
    fun p hp => reads_emitPlugin (h.ids p hp)
      (h.onlyComments (List.mem_append_right _ (List.mem_flatMap_of_mem hp List.mem_cons_self)))
      fun e he => h.onlyComments (List.mem_append_right _ (List.mem_flatMap_of_mem hp
        (List.mem_cons_of_mem _ (List.mem_map_of_mem he))))
  have hserver : Toml.Reads (if (properties server).isSome then
      emitAll (topLevel server) ++ ['\n'] ++
        (sections server).flatMap (fun s => emitSection s.1 s.2) else [])
      (Toml.keyvals (keys (topLevel server)) ++ (sections server).flatMap fun s =>
        Toml.Expr.table [s.1.toList] :: Toml.keyvals (keys (shownIn s.2))) := by
    cases hp : properties server with
    | none =>
      have htop : topLevel server = [] := by simp [topLevel, hp]
      have hsec : sections server = [] := by simp [sections, hp]
      rw [htop, hsec]
      exact Toml.Reads.nil
    | some props =>
      have hall := (htop.append reads_newline).append hsections
      rw [List.append_nil] at hall
      exact hall
  have hrest : Toml.Reads (if plugins ≠ [] then written pluginBanner ++ plugins.flatMap emitPlugin
      else []) (plugins.flatMap fun p =>
        Toml.Expr.tables ["plugins".toList] :: Toml.keyvals (entry p)) := by
    split_ifs with hne
    · have hpluginBanner : Toml.Reads (written pluginBanner) [] :=
        reads_written _ (by decide +kernel)
      exact hpluginBanner.append hplugins
    · have hnil : plugins = [] := not_not.mp hne
      rw [hnil]
      exact Toml.Reads.nil
  rw [List.flatMap_map, List.flatMap_map]
  exact (hbanner.append hserver).append hrest

/-- The document of a careful reference. -/
def document (server : Json) (plugins : List PluginSchema) : List (Key × Value) :=
  keys (topLevel server) ++
    (sections server).map (fun s => (s.1.toList, .table (keys (shownIn s.2)))) ++
    if plugins = [] then [] else [("plugins".toList, .array (plugins.map fun p => .table (entry p)))]

theorem parse_reference (hs : FromSerde server) (h : Careful server plugins) :
    Toml.parse (generateFullReference server plugins) = some (document server plugins) := by
  have hentry : ∀ kvs ∈ plugins.map entry, (kvs.map Prod.fst).Nodup := by
    intro kvs hkvs
    obtain ⟨p, -, rfl⟩ := List.mem_map.mp hkvs
    rw [entry]
    split_ifs
    · simp
    · simp
  have hsections : ∀ s ∈ (sections server).map fun s => (s.1.toList, keys (shownIn s.2)),
      (s.2.map Prod.fst).Nodup := by
    intro s hsec
    obtain ⟨sec, hmem, rfl⟩ := List.mem_map.mp hsec
    exact keys_nodup (hs.ordered sec hmem)
  rw [(reads_reference hs h).parse, Toml.build_eq (names_nodup server) hsections hentry]
  simp [document, Function.comp_def]

/-! Exactly when. -/

theorem states_keys (hs : FromSerde server) (h : Careful server plugins)
    {props : List (String × Json × Bool)} (hprops : ∀ e ∈ props, e ∈ shown server)
    {table : List (Key × Value)} (hn : (table.map Prod.fst).Nodup)
    (hkeys : ∀ e ∈ keys props, e ∈ table) : StatesDefaults props table := by
  intro e he d hd
  have hmem : (e.1.toList, stated e.2.1) ∈ keys props := List.mem_map_of_mem he
  exact ⟨stated e.2.1, Toml.lookup_of_mem hn (hkeys _ hmem),
    (stated_yields hs h (hprops e he)).2 d hd⟩

omit [FloatParse] in
theorem document_nodup (server : Json) (plugins : List PluginSchema) :
    ((document server plugins).map Prod.fst).Nodup := by
  have hnames := names_nodup server
  have hsub : ((document server plugins).map Prod.fst).Sublist
      ((keys (topLevel server)).map Prod.fst ++
        ((sections server).map fun s => (s.1.toList, keys (shownIn s.2))).map Prod.fst ++
        ["plugins".toList]) := by
    rw [document, List.map_append, List.map_append, List.map_map, List.map_map]
    refine (List.Sublist.refl _).append ?_
    split_ifs
    · simp
    · exact List.Sublist.refl _
  exact hnames.sublist hsub

theorem document_states (hs : FromSerde server) (h : Careful server plugins) :
    States server plugins (document server plugins) where
  topLevel := states_keys hs h (fun e he => topLevel_subset he) (document_nodup server plugins)
    fun e he => List.mem_append_left _ (List.mem_append_left _ he)
  sections s hsec := by
    refine ⟨keys (shownIn s.2), Toml.lookup_of_mem (document_nodup server plugins) ?_, ?_⟩
    · exact List.mem_append_left _ (List.mem_append_right _
        (List.mem_map_of_mem (f := fun s => (s.1.toList, Value.table (keys (shownIn s.2)))) hsec))
    · exact states_keys hs h (fun e he => shownIn_subset hsec he)
        (keys_nodup (hs.ordered s hsec)) fun e he => he
  plugins := by
    refine ⟨plugins.map entry, ?_, ?_⟩
    · split_ifs with hnil
      · have hmem : "plugins".toList ∉ (document server plugins).map Prod.fst := by
          have hdisjoint := (List.nodup_append'.mp (names_nodup server)).2.2
          intro hm
          rw [document, if_pos hnil, List.append_nil, List.map_append, List.map_map] at hm
          refine hdisjoint ?_ (List.mem_singleton_self "plugins".toList)
          rw [List.map_map]
          exact hm
        rw [List.lookup_eq_none_iff]
        intro e he
        rw [bne_iff_ne]
        exact fun heq => hmem (heq ▸ List.mem_map_of_mem he)
      · apply Toml.lookup_of_mem (document_nodup server plugins)
        rw [document, if_neg hnil, List.map_map]
        exact List.mem_append_right _ List.mem_cons_self
    · rw [List.map_map]
      apply List.map_congr_left
      intro p _
      simp [entry]

end careful

section examples

/-- The texts of one double, and of one that has an exponent only. -/
local instance : DoubleText where
  text x := if x = 1 / 2 then "0.5".toList else "1e16".toList

local instance : FloatParse := FloatParse.grammar

/-- A path with the separators of Windows. -/
def windows : Json :=
  .object [("properties", .object [("data_dir", .object
    [("default", .string "C:\\signalk"), ("type", .string "string")])])]

def linux : Json :=
  .object [("properties", .object [
    ("data_dir", .object [("default", .string "/var/lib/signalk"), ("type", .string "string")]),
    ("server", .object [("description", .string "Where to listen\r\n"),
      ("properties", .object [
        ("port", .object [("default", .number (.posInt 3000)), ("type", .string "integer")]),
        ("ratio", .object [("default", .number (.float (1 / 2))), ("type", .string "number")])]),
      ("type", .string "object")])])]

def tracks : List PluginSchema :=
  [("tracks", "Vessel Tracks", some (.object [("properties", .object [
    ("age", .object [("default", .number (.posInt 24)), ("type", .string "integer")])])]))]

end examples

end SignalK.ConfigReference
