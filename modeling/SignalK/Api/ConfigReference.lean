import SignalK.Lib.Lines
import SignalK.Lib.TomlDocument
import SignalK.Types.FloatText
import SignalK.Types.JsonText

/-! The configuration reference: a TOML document with the defaults of the server's schema
and an entry for each plugin, and comments on them. -/
namespace SignalK.ConfigReference

open Toml (Key Value)
open scoped Toml

variable [DoubleText]

def quoted (s : String) : List Char := '"' :: (s.toList ++ ['"'])

/-- `prop.get("type").and_then(|t| t.as_str())` -/
def typeName (prop : Json) : Option String := (prop.get "type").bind Json.asStr

/-- A human-readable type of a property, or nothing. -/
def jsonType (prop : Json) : List Char :=
  match typeName prop with
  | none => []
  | some t =>
    if t = "object" then "object".toList
    else
      match (prop.get "enum").bind Json.asArray with
      | none => t.toList
      | some values =>
        let vals := values.filterMap fun v => v.asStr.map quoted
        if vals ≠ [] then " | ".toList.intercalate vals else t.toList

/-- The default for display. -/
def formatDefault (prop : Json) : List Char :=
  match prop.get "default" with
  | some (.string s) => quoted s
  -- the arms for numbers, booleans and what is empty write the text of the value as well
  | some v => v.text
  | none => []

/-- What stands for a default that is missing or null. -/
def placeholder (prop : Json) : List Char :=
  if typeName prop = some "integer" then "0".toList
  else if typeName prop = some "number" then "0.0".toList
  else if typeName prop = some "boolean" then "false".toList
  else if typeName prop = some "array" then "[]".toList
  else if typeName prop = some "object" then "\x7b\x7d".toList
  else "\"\"".toList

def itemText : Json → List Char
  | .string s => quoted s
  | other => other.text

/-- The text of the default as a TOML value. -/
def defaultToToml (prop : Json) : List Char :=
  match prop.get "default" with
  | some (.string s) => quoted s
  | some (.number (.float x)) =>
    -- TOML needs a decimal point for floats
    let s := DoubleText.text x
    if '.' ∈ s then s else s ++ ".0".toList
  | some (.number n) => Json.numberText n
  | some (.bool b) => Json.text (.bool b)
  | some (.array items) => '[' :: (", ".toList.intercalate (items.map itemText) ++ [']'])
  | some (.object fields) => if fields = [] then "\x7b\x7d".toList else "\"\"".toList
  | some .null => placeholder prop
  | none => placeholder prop

/-- `prop.get("description").and_then(|d| d.as_str())`, empty if there is none -/
def description (prop : Json) : List Char :=
  match (prop.get "description").bind Json.asStr with
  | some d => d.toList
  | none => []

def requiredTag (required : Bool) : List Char := if required then " [REQUIRED]".toList else []

/-- The line with the type and the default, unless there is neither. -/
def metaLines (prop : Json) (required : Bool) : List (List Char) :=
  if jsonType prop ≠ [] ∨ formatDefault prop ≠ [] then
    ["Type: ".toList ++ jsonType prop ++
      (if formatDefault prop ≠ [] then " | Default: ".toList ++ formatDefault prop else []) ++
      requiredTag required]
  else []

/-- A comment, without the end of its line. -/
def remark (line : List Char) : List Char := "# ".toList ++ line

def spaces (indent : Nat) : List Char := List.replicate (2 * indent) ' '

/-- The comments over a property. -/
def remarks (prop : Json) (required : Bool) : List (List Char) :=
  (Lines.lines (description prop) ++ metaLines prop required).map remark

def emitProperty (key : String) (prop : Json) (indent : Nat) (required : Bool) : List Char :=
  (remarks prop required).flatMap (fun line => spaces indent ++ line ++ ['\n']) ++
    (spaces indent ++ key.toList ++ " = ".toList ++ defaultToToml prop ++ ['\n'])

/-- A plugin's property, as a comment. -/
def pluginRemark (key : String) (prop : Json) (indent : Nat) (required : Bool) : List Char :=
  let typeStr := jsonType prop
  let desc := description prop
  let comment := desc ++
    (if typeStr ≠ [] then (if desc ≠ [] then " — ".toList else []) ++ typeStr else []) ++
    (if formatDefault prop ≠ [] then ", default: ".toList ++ formatDefault prop else []) ++
    requiredTag required
  "#   ".toList ++ spaces (indent - 1) ++ key.toList ++ " = ".toList ++ defaultToToml prop ++
    "  # ".toList ++ comment

def emitPluginProperty (key : String) (prop : Json) (indent : Nat) (required : Bool) :
    List Char :=
  pluginRemark key prop indent required ++ ['\n']

/-- `schema.get("properties").and_then(|p| p.as_object())` -/
def properties (schema : Json) : Option (List (String × Json)) :=
  (schema.get "properties").bind fun p =>
    match p with
    | .object fields => some fields
    | _ => none

def required (schema : Json) : List String :=
  match (schema.get "required").bind Json.asArray with
  | some values => values.filterMap Json.asStr
  | none => []

/-- The properties of a schema, and which of them are required. -/
def shownIn (schema : Json) : List (String × Json × Bool) :=
  ((properties schema).getD []).map fun e =>
    (e.1, e.2, decide (e.1 ∈ required schema))

def sectionOrder : List String :=
  ["data_dir", "modules_dir", "server", "vessel", "auth", "internal", "history",
    "source_priorities", "source_ttls"]

/-- The properties of the server that stand before its sections. -/
def topLevel (server : Json) : List (String × Json × Bool) :=
  ["data_dir", "modules_dir"].filterMap fun key =>
    (SortedMap.get key ((properties server).getD [])).map fun prop => (key, prop, false)

/-- The server's properties that are objects, each a section. -/
def sections (server : Json) : List (String × Json) :=
  (sectionOrder.drop 2).filterMap fun name =>
    (SortedMap.get name ((properties server).getD [])).bind fun prop =>
      if (typeName prop).getD "" = "object" then some (name, prop) else none

def sectionRemarks (prop : Json) : List (List Char) :=
  ((Lines.lines (description prop)).take 2).map remark

def emitAll (props : List (String × Json × Bool)) : List Char :=
  props.flatMap fun e => emitProperty e.1 e.2.1 0 e.2.2

def emitSection (name : String) (prop : Json) : List Char :=
  (sectionRemarks prop).flatMap (· ++ ['\n']) ++ ('[' :: (name.toList ++ "]\n".toList)) ++
    emitAll (shownIn prop) ++ ['\n']

abbrev PluginSchema := String × String × Option Json

/-- The properties of a plugin's schema; none if there is no schema. -/
def pluginProperties (schema : Option Json) : List (String × Json × Bool) :=
  match schema with
  | some s => shownIn s
  | none => []

def nameRemark (name : String) : List Char :=
  remark ("--- ".toList ++ name.toList ++ " ---".toList)

def emitPlugin (plugin : PluginSchema) : List Char :=
  nameRemark plugin.2.1 ++ ['\n'] ++ "[[plugins]]\n".toList ++
    ("id = ".toList ++ quoted plugin.1 ++ ['\n']) ++ "# enabled = true\n".toList ++
    (if pluginProperties plugin.2.2 ≠ [] then
      "# config = \x7b\n".toList ++
        (pluginProperties plugin.2.2).flatMap (fun e => emitPluginProperty e.1 e.2.1 1 e.2.2) ++
        "# \x7d\n".toList
    else "config = \x7b\x7d\n".toList) ++ ['\n']

def rule : String :=
  "# ============================================================================"

/-- The lines at the top. -/
def banner : List String :=
  [rule, "# signalk-rs — Auto-Generated Configuration Reference", rule, "#",
    "# Generated from plugin JSON Schemas at runtime.",
    "# All values shown are defaults unless marked [REQUIRED].", rule, ""]

def pluginBanner : List String := [rule, "# PLUGINS", rule, ""]

def written (lines : List String) : List Char := lines.flatMap fun line => line.toList ++ ['\n']

def generateFullReference (server : Json) (plugins : List PluginSchema) : List Char :=
  written banner ++
    (if (properties server).isSome then
      emitAll (topLevel server) ++ ['\n'] ++
        (sections server).flatMap fun s => emitSection s.1 s.2
    else []) ++
    if plugins ≠ [] then written pluginBanner ++ plugins.flatMap emitPlugin else []

/-! What the reference is for. -/

/-- All properties of the server that are shown. -/
def shown (server : Json) : List (String × Json × Bool) :=
  topLevel server ++ (sections server).flatMap fun s => shownIn s.2

/-- All comments with a text that is not fixed. -/
def allRemarks (server : Json) (plugins : List PluginSchema) : List (List Char) :=
  ((shown server).flatMap fun e => remarks e.2.1 e.2.2) ++
    ((sections server).flatMap fun s => sectionRemarks s.2) ++
    plugins.flatMap fun plugin => nameRemark plugin.2.1 ::
      (pluginProperties plugin.2.2).map fun e => pluginRemark e.1 e.2.1 1 e.2.2

/-- The defaults that there are to state. -/
def defaultOf (prop : Json) : Option Json :=
  (prop.get "default").filter (· ≠ .null)

variable [FloatParse]

/-- A table in which each property has the value of its default. -/
def StatesDefaults (props : List (String × Json × Bool)) (table : List (Key × Value)) : Prop :=
  ∀ e ∈ props, ∀ d, defaultOf e.2.1 = some d →
    ∃ v, table.lookup e.1.toList = some v ∧ Json.Denotes d v

/-- A document that states the defaults of the server, and has one entry for each plugin. -/
structure States (server : Json) (plugins : List PluginSchema) (doc : List (Key × Value)) :
    Prop where
  topLevel : StatesDefaults (topLevel server) doc
  sections : ∀ s ∈ sections server, ∃ table,
    doc.lookup s.1.toList = some (.table table) ∧ StatesDefaults (shownIn s.2) table
  plugins : ∃ entries : List (List (Key × Value)),
    (doc.lookup "plugins".toList =
      if plugins = [] then none else some (.array (entries.map .table))) ∧
    entries.map (·.lookup "id".toList) = plugins.map fun p => some (.string p.1.toList)

/-- The reference is such a document; and in it each name, each default and each id is read as
what it is from its own text, and each comment holds nothing but comments. -/
structure Faithful (server : Json) (plugins : List PluginSchema) : Prop where
  document : ∃ doc, Toml.parse (generateFullReference server plugins) = some doc ∧
    States server plugins doc
  names : ∀ e ∈ shown server,
    Toml.key (e.1.toList.length + 1) e.1.toList = some ([e.1.toList], [])
  defaults : ∀ e ∈ shown server, ∀ d, defaultOf e.2.1 = some d →
    ∃ v, Toml.value ((defaultToToml e.2.1).length + 1) (defaultToToml e.2.1) = some (v, []) ∧
      Json.Denotes d v
  ids : ∀ p ∈ plugins, Toml.value ((quoted p.1).length + 1) (quoted p.1) =
    some (.string p.1.toList, [])
  remarks : ∀ c ∈ allRemarks server plugins, Toml.OnlyComments (c ++ ['\n'])

/-! When it is. -/

/-- A string without characters that TOML wants escaped. -/
def Plain (s : String) : Prop := ∀ c ∈ s.toList, Toml.isPlain c = true

def PlainItem : Json → Prop
  | .string s => Plain s
  | other => other.Portable

/-- A default whose text is a TOML value. -/
def Writable : Json → Prop
  | .string s => Plain s
  | .number (.float x) => '.' ∈ DoubleText.text x
  | .array items => ∀ j ∈ items, PlainItem j
  | other => other.Portable

/-- The inputs for which the generator's texts need no quoting and no escapes. -/
structure Careful (server : Json) (plugins : List PluginSchema) : Prop where
  names : ∀ e ∈ shown server, Toml.Bare e.1.toList
  defaults : ∀ e ∈ shown server, ∀ d, defaultOf e.2.1 = some d → Writable d
  ids : ∀ p ∈ plugins, Plain p.1
  remarks : ∀ c ∈ allRemarks server plugins, ∀ line ∈ c.splitOn '\n', Toml.Idle line

/-- What a value of serde_json is: its maps are in ascending order, and its doubles are
written so that they read back. -/
structure FromSerde (server : Json) : Prop where
  ordered : ∀ s ∈ sections server, ((properties s.2).getD []).Pairwise fun a b => a.1 < b.1
  exact : ∀ e ∈ shown server, ∀ d, defaultOf e.2.1 = some d → ∀ x ∈ d.floats,
    DoubleText.Exact x

end SignalK.ConfigReference
