import Mathlib.Data.List.Basic
import SignalK.Lib.Calendar
import SignalK.Lib.Digits

/-! TOML 1.0: the grammar, as a reader of texts, and the document that a text denotes. -/
namespace Toml

section deciding

variable {α : Type*} {p : α → Prop} [DecidablePred p]

-- Ahead of the instances that go through every letter there is.
scoped instance (priority := 2000) forallMem (l : List α) : Decidable (∀ a ∈ l, p a) :=
  List.decidableBAll p l
scoped instance (priority := 2000) forallMem_option (o : Option α) : Decidable (∀ a ∈ o, p a) :=
  o.decidableForallMem

end deciding

abbrev Key := List Char

/-- A float is kept as its text without underscores, a date or time as its text. -/
inductive Value where
  | string (s : List Char)
  | integer (n : Int)
  | float (text : List Char)
  | boolean (b : Bool)
  | dateTime (text : List Char)
  | array (items : List Value)
  | table (entries : List (Key × Value))

/-! Tables under construction. -/

/-- How a table came to be: on the way to another one, by dotted keys, or by its header. -/
inductive Kind where
  | implicit
  | dotted
  | header
  deriving DecidableEq

inductive Entry where
  | leaf (v : Value)
  | table (kind : Kind) (entries : List (Key × Entry))
  | tables (items : List (List (Key × Entry)))

abbrev Entries := List (Key × Entry)

namespace Entries

def get (k : Key) : Entries → Option Entry
  | [] => none
  | e :: es => if e.1 = k then some e.2 else get k es

def set (k : Key) (v : Entry) : Entries → Entries
  | [] => [(k, v)]
  | e :: es => if e.1 = k then (k, v) :: es else e :: set k v es

/-- A change in the table that a header names; in an array of tables it is the last one. -/
def within (f : Entries → Option Entries) : List Key → Entries → Option Entries
  | [], es => f es
  | k :: path, es =>
    match get k es with
    | none => (within f path []).map fun sub => set k (.table .implicit sub) es
    | some (.table kind sub) => (within f path sub).map fun sub => set k (.table kind sub) es
    | some (.tables items) =>
      (within f path (items.getLastD [])).map fun sub =>
        set k (.tables (items.dropLast ++ [sub])) es
    | some (.leaf _) => none

/-- A value under a key, which may be dotted. -/
def assign (v : Value) : List Key → Entries → Option Entries
  | [], _ => none
  | k :: path, es =>
    match path with
    | [] => if (get k es).isNone then some (es ++ [(k, .leaf v)]) else none
    | k' :: path' =>
      match get k es with
      | none => (assign v (k' :: path') []).map fun sub => set k (.table .dotted sub) es
      | some (.table .dotted sub) =>
        (assign v (k' :: path') sub).map fun sub => set k (.table .dotted sub) es
      | _ => none

/-- A header may not name what is there, but for a table that is only on the way to others. -/
def openTable (k : Key) (es : Entries) : Option Entries :=
  match get k es with
  | none => some (es ++ [(k, .table .header [])])
  | some (.table .implicit sub) => some (set k (.table .header sub) es)
  | _ => none

def openItem (k : Key) (es : Entries) : Option Entries :=
  match get k es with
  | none => some (es ++ [(k, .tables [[]])])
  | some (.tables items) => some (set k (.tables (items ++ [[]])) es)
  | _ => none

end Entries

mutual
def Entry.toValue : Entry → Value
  | .leaf v => v
  | .table _ entries => .table (toValues entries)
  | .tables items => .array (toTables items)

def toValues : List (Key × Entry) → List (Key × Value)
  | [] => []
  | (k, e) :: es => (k, e.toValue) :: toValues es

def toTables : List (List (Key × Entry)) → List Value
  | [] => []
  | es :: items => .table (toValues es) :: toTables items
end

/-! Characters and lines. -/

def isWs (c : Char) : Bool := c = ' ' || c = '\t'

/-- The control characters, other than the tab. -/
def isControl (c : Char) : Bool := (c.toNat < 32 && c ≠ '\t') || c.toNat = 127

def isBare (c : Char) : Bool := c.isAlphanum || c = '-' || c = '_'

def skipWs (cs : List Char) : List Char := cs.dropWhile isWs

def newline : List Char → Option (List Char)
  | [] => none
  | c :: cs =>
    if c = '\n' then some cs
    else if c = '\r' ∧ cs.head? = some '\n' then some cs.tail
    else none

/-- The rest of a line, which may be a comment. -/
def comment : List Char → List Char
  | [] => []
  | c :: cs => if c = '#' then cs.dropWhile fun c => !isControl c else c :: cs

/-- What follows the line, if it is not the last. -/
def endOfLine (cs : List Char) : Option (Option (List Char)) :=
  let cs := comment (skipWs cs)
  if cs = [] then some none else (newline cs).map some

/-- Whitespace, line ends and comments between the items of an array. -/
def trivia : Bool → List Char → Option (List Char)
  | _, [] => some []
  | inComment, c :: cs =>
    if c = '\n' then trivia false cs
    else if c = '\r' then if cs.head? = some '\n' then trivia inComment cs else none
    else if inComment then if isControl c then none else trivia true cs
    else if isWs c then trivia false cs
    else if c = '#' then trivia true cs
    else some (c :: cs)

/-! Strings. -/

/-- One more character. -/
def push (c : Char) (r : List Char × List Char) : List Char × List Char := (c :: r.1, r.2)

def escaped (c : Char) : Option Char :=
  if c = 'b' then some '\x08'
  else if c = 't' then some '\t'
  else if c = 'n' then some '\n'
  else if c = 'f' then some '\x0c'
  else if c = 'r' then some '\r'
  else if c = '"' then some '"'
  else if c = '\\' then some '\\'
  else none

def hexDigit (c : Char) : Option Nat :=
  if c.isDigit then some (c.toNat - 48)
  else if 'a' ≤ c ∧ c ≤ 'f' then some (c.toNat - 87)
  else if 'A' ≤ c ∧ c ≤ 'F' then some (c.toNat - 55)
  else none

/-- The scalar value that hexadecimal digits write. -/
def unicode (ds : List Char) : Option Char :=
  (ds.mapM hexDigit).bind fun ds =>
    let n := ds.foldl (fun n d => 16 * n + d) 0
    if n.isValidChar then some (Char.ofNat n) else none

/-- A string after its quotation mark. -/
def basicString : List Char → Option (List Char × List Char)
  | [] => none
  | c :: cs =>
    if c = '"' then some ([], cs)
    else if c = '\\' then
      match cs with
      | [] => none
      | e :: cs =>
        if e = 'u' then
          match cs with
          | d₁ :: d₂ :: d₃ :: d₄ :: cs =>
            (unicode [d₁, d₂, d₃, d₄]).bind fun ch => (basicString cs).map (push ch)
          | _ => none
        else if e = 'U' then
          match cs with
          | d₁ :: d₂ :: d₃ :: d₄ :: d₅ :: d₆ :: d₇ :: d₈ :: cs =>
            (unicode [d₁, d₂, d₃, d₄, d₅, d₆, d₇, d₈]).bind fun ch =>
              (basicString cs).map (push ch)
          | _ => none
        else (escaped e).bind fun ch => (basicString cs).map (push ch)
    else if isControl c then none
    else (basicString cs).map (push c)

/-- After a backslash at the end of a line, what follows it is left out: first the rest of the
line, then whitespace and line ends. -/
inductive Fold where
  | none
  | line
  | all
  deriving DecidableEq

/-- A string of several lines, after its three marks; the last may follow two more. -/
def mlBasicString : Fold → List Char → Option (List Char × List Char)
  | _, [] => none
  | fold, c :: cs =>
    if fold = .line ∧ isWs c then mlBasicString .line cs
    else if fold = .line ∧ c = '\n' then mlBasicString .all cs
    else if fold = .line ∧ c = '\r' ∧ cs.head? = some '\n' then mlBasicString .line cs
    else if fold = .line then none
    else if fold = .all ∧ (isWs c || c = '\n') then mlBasicString .all cs
    else if fold = .all ∧ c = '\r' ∧ cs.head? = some '\n' then mlBasicString .all cs
    else if c = '"' then
      if cs.take 4 = ['"', '"', '"', '"'] then some (['"', '"'], cs.drop 4)
      else if cs.take 3 = ['"', '"', '"'] then some (['"'], cs.drop 3)
      else if cs.take 2 = ['"', '"'] then some ([], cs.drop 2)
      else (mlBasicString .none cs).map (push c)
    else if c = '\\' then
      match cs with
      | [] => none
      | e :: cs =>
        if e = 'u' then
          match cs with
          | d₁ :: d₂ :: d₃ :: d₄ :: cs =>
            (unicode [d₁, d₂, d₃, d₄]).bind fun ch => (mlBasicString .none cs).map (push ch)
          | _ => none
        else if e = 'U' then
          match cs with
          | d₁ :: d₂ :: d₃ :: d₄ :: d₅ :: d₆ :: d₇ :: d₈ :: cs =>
            (unicode [d₁, d₂, d₃, d₄, d₅, d₆, d₇, d₈]).bind fun ch =>
              (mlBasicString .none cs).map (push ch)
          | _ => none
        else if isWs e then mlBasicString .line cs
        else if e = '\n' then mlBasicString .all cs
        else if e = '\r' ∧ cs.head? = some '\n' then mlBasicString .line cs
        else (escaped e).bind fun ch => (mlBasicString .none cs).map (push ch)
    else if c = '\n' then (mlBasicString .none cs).map (push c)
    else if c = '\r' ∧ cs.head? = some '\n' then (mlBasicString .none cs).map (push c)
    else if isControl c then none
    else (mlBasicString .none cs).map (push c)

def literalString : List Char → Option (List Char × List Char)
  | [] => none
  | c :: cs =>
    if c = '\'' then some ([], cs)
    else if isControl c then none
    else (literalString cs).map (push c)

def mlLiteralString : List Char → Option (List Char × List Char)
  | [] => none
  | c :: cs =>
    if c = '\'' then
      if cs.take 4 = ['\'', '\'', '\'', '\''] then some (['\'', '\''], cs.drop 4)
      else if cs.take 3 = ['\'', '\'', '\''] then some (['\''], cs.drop 3)
      else if cs.take 2 = ['\'', '\''] then some ([], cs.drop 2)
      else (mlLiteralString cs).map (push c)
    else if c = '\n' then (mlLiteralString cs).map (push c)
    else if c = '\r' ∧ cs.head? = some '\n' then (mlLiteralString cs).map (push c)
    else if isControl c then none
    else (mlLiteralString cs).map (push c)

/-- A line end right after the three marks is left out. -/
def afterMarks (cs : List Char) : List Char := (newline cs).getD cs

/-! Numbers, dates and times. -/

/-- Digits with single underscores between them. -/
def groups (isDigit : Char → Bool) : List Char → Bool
  | [] => false
  | c :: cs =>
    isDigit c &&
      match cs with
      | [] => true
      | d :: ds => if d = '_' then groups isDigit ds else groups isDigit (d :: ds)

def isHex (c : Char) : Bool := (hexDigit c).isSome

def unsigned (cs : List Char) : List Char :=
  if cs.head? = some '+' ∨ cs.head? = some '-' then cs.tail else cs

/-- A decimal integer, without zeros before it. -/
def isDecInt (cs : List Char) : Bool :=
  let ds := unsigned cs
  groups (·.isDigit) ds && (ds.head? ≠ some '0' || ds.length = 1)

def numeral (base : Nat) (cs : List Char) : Nat :=
  (cs.filterMap hexDigit).foldl (fun n d => base * n + d) 0

def integer (cs : List Char) : Option Int :=
  if isDecInt cs then
    some (if cs.head? = some '-' then -(numeral 10 (unsigned cs) : Int)
      else numeral 10 (unsigned cs))
  else if cs.take 2 = ['0', 'x'] ∧ groups isHex (cs.drop 2) then some (numeral 16 (cs.drop 2))
  else if cs.take 2 = ['0', 'o'] ∧ groups (fun c => '0' ≤ c ∧ c ≤ '7') (cs.drop 2) then
    some (numeral 8 (cs.drop 2))
  else if cs.take 2 = ['0', 'b'] ∧ groups (fun c => c = '0' ∨ c = '1') (cs.drop 2) then
    some (numeral 2 (cs.drop 2))
  else none

def isE (c : Char) : Bool := c = 'e' || c = 'E'

/-- Nothing, or an exponent. -/
def isExponent : List Char → Bool
  | [] => true
  | c :: cs => isE c && groups (·.isDigit) (unsigned cs)

def isFloat (cs : List Char) : Bool :=
  let whole := cs.takeWhile fun c => c ≠ '.' && !isE c
  let rest := cs.dropWhile fun c => c ≠ '.' && !isE c
  (isDecInt whole &&
    match rest with
    | [] => false
    | c :: ds =>
      if c = '.' then
        groups (·.isDigit) (ds.takeWhile fun c => !isE c) &&
          isExponent (ds.dropWhile fun c => !isE c)
      else isExponent (c :: ds)) ||
  unsigned cs = ['i', 'n', 'f'] || unsigned cs = ['n', 'a', 'n']

/-- The number that a text of so many digits writes. -/
def fixed (width : Nat) (cs : List Char) : Option Nat :=
  if cs.length = width ∧ cs.all (·.isDigit) then some (numeral 10 cs) else none

def isDate (cs : List Char) : Bool :=
  cs.length = 10 && (cs.drop 4).head? = some '-' && (cs.drop 7).head? = some '-' &&
    match fixed 4 (cs.take 4), fixed 2 ((cs.drop 5).take 2), fixed 2 (cs.drop 8) with
    | some y, some m, some d => decide (Calendar.Date.Valid ⟨y, m, d⟩)
    | _, _, _ => false

def isClock (cs : List Char) : Bool :=
  cs.length = 5 && (cs.drop 2).head? = some ':' &&
    match fixed 2 (cs.take 2), fixed 2 (cs.drop 3) with
    | some h, some m => h < 24 && m < 60
    | _, _ => false

/-- Seconds, with a fraction or not. -/
def isSeconds (cs : List Char) : Bool :=
  (fixed 2 (cs.take 2)).any (· ≤ 60) &&
    (cs.length = 2 ||
      (cs.drop 2).head? = some '.' && (cs.drop 3) ≠ [] && (cs.drop 3).all (·.isDigit))

def isTime (cs : List Char) : Bool :=
  isClock (cs.take 5) && (cs.drop 5).head? = some ':' && isSeconds (cs.drop 6)

/-- A time with an offset. -/
def isOffsetTime (cs : List Char) : Bool :=
  let time := cs.takeWhile fun c => c.isDigit || c = ':' || c = '.'
  let offset := cs.dropWhile fun c => c.isDigit || c = ':' || c = '.'
  isTime time && (offset = ['Z'] || offset = ['z'] ||
    (offset.head? = some '+' || offset.head? = some '-') && isClock offset.tail)

def isDateTime (cs : List Char) : Bool :=
  isDate cs || isTime cs ||
    isDate (cs.take 10) && ((cs.drop 10).head?.any fun c => c = 'T' || c = 't' || c = ' ') &&
      (isTime (cs.drop 11) || isOffsetTime (cs.drop 11))

def isTokenChar (c : Char) : Bool := isBare c || c = '+' || c = '.' || c = ':'

/-- An integer is of 64 bits. -/
def classify (t : List Char) : Option Value :=
  if t = ['t', 'r', 'u', 'e'] then some (.boolean true)
  else if t = ['f', 'a', 'l', 's', 'e'] then some (.boolean false)
  else
    match integer t with
    | some n => if -2 ^ 63 ≤ n ∧ n < 2 ^ 63 then some (.integer n) else none
    | none =>
      if isFloat t then some (.float (t.filter (· ≠ '_')))
      else if isDateTime t then some (.dateTime t)
      else none

/-- A date may be followed by a space and a time. -/
def scalar (cs : List Char) : Option (Value × List Char) :=
  let t := cs.takeWhile isTokenChar
  let rest := cs.dropWhile isTokenChar
  if isDate t ∧ rest.head? = some ' ' ∧ rest.tail.head?.any (·.isDigit) then
    (classify (t ++ ' ' :: rest.tail.takeWhile isTokenChar)).map
      (·, rest.tail.dropWhile isTokenChar)
  else (classify t).map (·, rest)

/-! Keys, values and expressions. -/

def simpleKey : List Char → Option (Key × List Char)
  | [] => none
  | c :: cs =>
    if c = '"' then basicString cs
    else if c = '\'' then literalString cs
    else if isBare c then some ((c :: cs).takeWhile isBare, (c :: cs).dropWhile isBare)
    else none

/-- A key and the whitespace after it. -/
def key : Nat → List Char → Option (List Key × List Char)
  | 0, _ => none
  | n + 1, cs =>
    (simpleKey cs).bind fun r =>
      let rest := skipWs r.2
      if rest.head? = some '.' then
        (key n (skipWs rest.tail)).map fun path => (r.1 :: path.1, path.2)
      else some ([r.1], rest)

/-- The table of the entries between braces. -/
def inlineTable (entries : List (List Key × Value)) : Option Value :=
  (entries.foldlM (fun es e => Entries.assign e.2 e.1 es) []).map fun es => .table (toValues es)

mutual
def value : Nat → List Char → Option (Value × List Char)
  | 0, _ => none
  | n + 1, cs =>
    match cs with
    | [] => none
    | c :: cs =>
      if c = '"' then
        if cs.take 2 = ['"', '"'] then
          (mlBasicString .none (afterMarks (cs.drop 2))).map fun r => (.string r.1, r.2)
        else (basicString cs).map fun r => (.string r.1, r.2)
      else if c = '\'' then
        if cs.take 2 = ['\'', '\''] then
          (mlLiteralString (afterMarks (cs.drop 2))).map fun r => (.string r.1, r.2)
        else (literalString cs).map fun r => (.string r.1, r.2)
      else if c = '[' then (items n cs).map fun r => (.array r.1, r.2)
      else if c = '{' then
        if (skipWs cs).head? = some '}' then some (.table [], (skipWs cs).tail)
        else (fields n cs).bind fun r => (inlineTable r.1).map (·, r.2)
      else scalar (c :: cs)

/-- The items of an array, up to its end. -/
def items : Nat → List Char → Option (List Value × List Char)
  | 0, _ => none
  | n + 1, cs =>
    (trivia false cs).bind fun cs =>
      if cs.head? = some ']' then some ([], cs.tail)
      else
        (value n cs).bind fun r =>
          (trivia false r.2).bind fun rest =>
            if rest.head? = some ',' then
              (items n rest.tail).map fun more => (r.1 :: more.1, more.2)
            else if rest.head? = some ']' then some ([r.1], rest.tail)
            else none

/-- The entries of a table between braces, on one line. -/
def fields : Nat → List Char → Option (List (List Key × Value) × List Char)
  | 0, _ => none
  | n + 1, cs =>
    (key n (skipWs cs)).bind fun k =>
      if k.2.head? = some '=' then
        (value n (skipWs k.2.tail)).bind fun r =>
          let rest := skipWs r.2
          if rest.head? = some ',' then
            (fields n rest.tail).map fun more => ((k.1, r.1) :: more.1, more.2)
          else if rest.head? = some '}' then some ([(k.1, r.1)], rest.tail)
          else none
      else none
end

inductive Expr where
  | keyval (path : List Key) (v : Value)
  | table (path : List Key)
  | tables (path : List Key)

def keyval (cs : List Char) : Option (Expr × List Char) :=
  (key (cs.length + 1) cs).bind fun k =>
    if k.2.head? = some '=' then
      (value (cs.length + 1) (skipWs k.2.tail)).map fun r => (.keyval k.1 r.1, r.2)
    else none

/-- A header after its first bracket. -/
def header (cs : List Char) : Option (Expr × List Char) :=
  if cs.head? = some '[' then
    (key (cs.length + 1) (skipWs cs.tail)).bind fun k =>
      if k.2.take 2 = [']', ']'] then some (.tables k.1, k.2.drop 2) else none
  else
    (key (cs.length + 1) (skipWs cs)).bind fun k =>
      if k.2.head? = some ']' then some (.table k.1, k.2.tail) else none

/-- What stands on a line, apart from whitespace and a comment. -/
def expression : List Char → Option (Option Expr × List Char)
  | [] => some (none, [])
  | c :: cs =>
    if c = '#' ∨ c = '\n' ∨ c = '\r' then some (none, c :: cs)
    else if c = '[' then (header cs).map fun r => (some r.1, r.2)
    else (keyval (c :: cs)).map fun r => (some r.1, r.2)

/-- The expressions of so many lines at most. -/
def expressions : Nat → List Char → Option (List Expr)
  | 0, _ => none
  | n + 1, cs =>
    (expression (skipWs cs)).bind fun r =>
      (endOfLine r.2).bind fun rest =>
        match rest with
        | none => some r.1.toList
        | some rest => (expressions n rest).map (r.1.toList ++ ·)

/-! The document. -/

/-- The tables so far, and the header that stands last. -/
structure Draft where
  entries : Entries
  current : List Key

def Draft.apply (d : Draft) : Expr → Option Draft
  | .keyval path v =>
    (Entries.within (Entries.assign v path) d.current d.entries).map fun es =>
      { d with entries := es }
  | .table path =>
    (Entries.within (Entries.openTable (path.getLastD [])) path.dropLast d.entries).map fun es =>
      ⟨es, path⟩
  | .tables path =>
    (Entries.within (Entries.openItem (path.getLastD [])) path.dropLast d.entries).map fun es =>
      ⟨es, path⟩

def build (es : List Expr) : Option (List (Key × Value)) :=
  (es.foldlM Draft.apply ⟨[], []⟩).map fun d => toValues d.entries

/-- The document of a text, if it is one. -/
def parse (cs : List Char) : Option (List (Key × Value)) :=
  (expressions (cs.length + 1) cs).bind build

end Toml
