import SignalK.Lib.Digits
import SignalK.Lib.Lines
import SignalK.Lib.Utf8

/-! Messages of HTTP/1.1 as those who send them write them: the alphabet, header fields,
bodies in one piece or in chunks, requests and responses. -/
namespace Http
open Lines Utf8

abbrev Bytes := List UInt8

/-! The alphabet. -/

/-- A visible character. -/
def Graphic (b : UInt8) : Prop := 0x21 ≤ b.toNat ∧ b.toNat ≤ 0x7E

def Blank (b : UInt8) : Prop := b.toNat = 0x20 ∨ b.toNat = 0x09

/-- What a line may consist of. -/
def Printed (b : UInt8) : Prop := Graphic b ∨ Blank b ∨ 0x80 ≤ b.toNat

def delimiters : List Nat :=
  [0x22, 0x28, 0x29, 0x2C, 0x2F, 0x3A, 0x3B, 0x3C, 0x3D, 0x3E, 0x3F, 0x40, 0x5B, 0x5C, 0x5D,
    0x7B, 0x7D]

def TokenByte (b : UInt8) : Prop := Graphic b ∧ b.toNat ∉ delimiters

/-- A character of a segment of a path that stands for itself. -/
def Pchar (n : Nat) : Prop :=
  (0x30 ≤ n ∧ n ≤ 0x39) ∨ (0x41 ≤ n ∧ n ≤ 0x5A) ∨ (0x61 ≤ n ∧ n ≤ 0x7A) ∨
    n ∈ [0x21, 0x24, 0x26, 0x27, 0x28, 0x29, 0x2A, 0x2B, 0x2C, 0x2D, 0x2E, 0x3A, 0x3B, 0x3D,
      0x40, 0x5F, 0x7E]

variable {α : Type*} {p : α → Prop} [DecidablePred p]

-- Ahead of the instances that go through every letter there is.
scoped instance (priority := 2000) forallMem (l : List α) : Decidable (∀ a ∈ l, p a) :=
  List.decidableBAll p l
scoped instance (priority := 2000) forallMem_option (o : Option α) : Decidable (∀ a ∈ o, p a) :=
  o.decidableForallMem

instance (b : UInt8) : Decidable (Graphic b) := inferInstanceAs (Decidable (_ ∧ _))
instance (b : UInt8) : Decidable (Blank b) := inferInstanceAs (Decidable (_ ∨ _))
instance (b : UInt8) : Decidable (Printed b) := inferInstanceAs (Decidable (_ ∨ _))
instance (b : UInt8) : Decidable (TokenByte b) := inferInstanceAs (Decidable (_ ∧ _))
instance (n : Nat) : Decidable (Pchar n) := inferInstanceAs (Decidable (_ ∨ _))

def Token (bs : Bytes) : Prop := bs ≠ [] ∧ ∀ b ∈ bs, TokenByte b

instance (bs : Bytes) : Decidable (Token bs) := inferInstanceAs (Decidable (_ ∧ _))

def decimalValue (b : UInt8) : Option Nat :=
  if 0x30 ≤ b.toNat ∧ b.toNat ≤ 0x39 then some (b.toNat - 0x30) else none

def hexValue (b : UInt8) : Option Nat :=
  if 0x30 ≤ b.toNat ∧ b.toNat ≤ 0x39 then some (b.toNat - 0x30)
  else if 0x41 ≤ b.toNat ∧ b.toNat ≤ 0x46 then some (b.toNat - 0x37)
  else if 0x61 ≤ b.toNat ∧ b.toNat ≤ 0x66 then some (b.toNat - 0x57)
  else none

def numberFrom (base : Nat) (value : UInt8 → Option Nat) (n : Nat) : Bytes → Option Nat
  | [] => some n
  | b :: bs => (value b).bind fun d => numberFrom base value (base * n + d) bs

def decimal (bs : Bytes) : Option Nat :=
  if bs = [] then none else numberFrom 10 decimalValue 0 bs

def hexadecimal (bs : Bytes) : Option Nat :=
  if bs = [] then none else numberFrom 16 hexValue 0 bs

/-! The target of a request. -/

/-- What is written with `%` and two digits is one byte. -/
def pctDecode : Bytes → Option Bytes
  | [] => some []
  | b :: bs =>
    if b.toNat = 0x25 then
      match bs with
      | x :: y :: rest => do
        let hi ← hexValue x
        let lo ← hexValue y
        return UInt8.ofNat (16 * hi + lo) :: (← pctDecode rest)
      | _ => none
    else (pctDecode bs).map (b :: ·)

/-- An absolute path and a query, if there is one. -/
def Target (bs : Bytes) : Prop :=
  bs.head?.map UInt8.toNat = some 0x2F ∧
    (∀ b ∈ bs, Pchar b.toNat ∨ b.toNat = 0x2F ∨ b.toNat = 0x3F ∨ b.toNat = 0x25) ∧
    (pctDecode bs).isSome

instance (bs : Bytes) : Decidable (Target bs) := inferInstanceAs (Decidable (_ ∧ _))

def pathOf (target : Bytes) : Bytes :=
  target.takeWhile fun b => b.toNat ≠ 0x3F

/-- The path that a target stands for. -/
def decodedPath (target : Bytes) : Option Bytes :=
  pctDecode (pathOf target)

/-! Header fields. -/

structure Field where
  name : Bytes
  before : Bytes
  value : Bytes
  after : Bytes
  deriving DecidableEq

namespace Field

def bytes (f : Field) : Bytes :=
  f.name ++ 0x3A :: (f.before ++ f.value ++ f.after)

structure WellFormed (f : Field) : Prop where
  name : Token f.name
  before : ∀ b ∈ f.before, Blank b
  value : ∀ b ∈ f.value, Printed b
  first : ∀ b ∈ f.value.head?, ¬ Blank b
  last : ∀ b ∈ f.value.getLast?, ¬ Blank b
  after : ∀ b ∈ f.after, Blank b

/-- Names are compared without their case. -/
def Is (name : String) (f : Field) : Prop :=
  (lossy f.name).map Char.toLower = name.toList

instance (name : String) (f : Field) : Decidable (f.Is name) :=
  inferInstanceAs (Decidable (_ = _))

end Field

def named (name : String) (fields : List Field) : List Field :=
  fields.filter fun f => f.Is name

/-! Bodies. -/

structure Chunk where
  size : Bytes
  extension : Bytes
  data : Bytes

namespace Chunk

def bytes (c : Chunk) : Bytes :=
  c.size ++ (c.extension ++ 0x0D :: 0x0A :: (c.data ++ [0x0D, 0x0A]))

end Chunk

/-- Absent, or what follows a semicolon. -/
def Extension (bs : Bytes) : Prop :=
  bs = [] ∨ bs.head?.map UInt8.toNat = some 0x3B ∧ ∀ b ∈ bs, Printed b

structure Chunk.WellFormed (c : Chunk) : Prop where
  size : hexadecimal c.size = some c.data.length
  extension : Extension c.extension
  data : c.data ≠ []

inductive Body where
  | plain (data : Bytes)
  | chunked (chunks : List Chunk) (last extension : Bytes) (trailers : List Field)

namespace Body

/-- What follows the size of the last chunk. -/
def finish (extension : Bytes) (trailers : List Field) : Bytes :=
  extension ++ 0x0D :: 0x0A :: ((trailers.flatMap fun f => f.bytes ++ [0x0D, 0x0A]) ++ [0x0D, 0x0A])

def bytes : Body → Bytes
  | plain data => data
  | chunked chunks last extension trailers =>
    chunks.flatMap Chunk.bytes ++ (last ++ finish extension trailers)

/-- The body without its framing. -/
def payload : Body → Bytes
  | plain data => data
  | chunked chunks _ _ _ => chunks.flatMap Chunk.data

def WellFormed : Body → Prop
  | plain _ => True
  | chunked chunks last extension trailers =>
    (∀ c ∈ chunks, c.WellFormed) ∧ (last ≠ [] ∧ ∀ b ∈ last, b.toNat = 0x30) ∧
      Extension extension ∧ ∀ f ∈ trailers, f.WellFormed

/-- The header tells how the body is framed. -/
def Framed (fields : List Field) : Body → Prop
  | plain data =>
    named "transfer-encoding" fields = [] ∧ (named "content-length" fields).length ≤ 1 ∧
      ∀ f ∈ named "content-length" fields, decimal f.value = some data.length
  | chunked .. =>
    named "content-length" fields = [] ∧
      ∃ f, named "transfer-encoding" fields = [f] ∧
        (lossy f.value).map Char.toLower = "chunked".toList

end Body

/-- A line, header fields and an empty line. -/
def head (line : Bytes) (fields : List Field) : Bytes :=
  joined 0x0D 0x0A (line :: fields.map Field.bytes) ++ [0x0D, 0x0A, 0x0D, 0x0A]

def version : List Char := "HTTP/1.1".toList

/-! Requests. -/

structure Request where
  method : Bytes
  target : Bytes
  fields : List Field
  body : Body

namespace Request

def line (r : Request) : Bytes :=
  r.method ++ 0x20 :: (r.target ++ 0x20 :: encode version)

def bytes (r : Request) : Bytes :=
  head r.line r.fields ++ r.body.bytes

structure WellFormed (r : Request) : Prop where
  method : Token r.method
  target : Target r.target
  fields : ∀ f ∈ r.fields, f.WellFormed
  host : (named "host" r.fields).length = 1
  body : r.body.WellFormed
  framed : r.body.Framed r.fields
  -- a request ends with its header unless the header says otherwise
  ended : named "content-length" r.fields = [] → named "transfer-encoding" r.fields = [] →
    r.body.bytes = []

end Request

/-! Responses. -/

structure Response where
  status : Nat
  reason : Bytes
  fields : List Field
  body : Body

namespace Response

def line (r : Response) : Bytes :=
  encode (version ++ ' ' :: (Digits.digits 3 r.status ++ [' '])) ++ r.reason

def bytes (r : Response) : Bytes :=
  head r.line r.fields ++ r.body.bytes

/-- A response that has no body, whatever its header says. -/
def Silent (toHead : Bool) (status : Nat) : Prop :=
  toHead = true ∨ status / 100 = 1 ∨ status = 204 ∨ status = 304

instance (toHead : Bool) (status : Nat) : Decidable (Silent toHead status) :=
  inferInstanceAs (Decidable (_ ∨ _))

/-- `toHead` tells whether the method of the request was `HEAD`. -/
structure WellFormed (toHead : Bool) (r : Response) : Prop where
  status : r.status < 1000
  reason : ∀ b ∈ r.reason, Printed b
  fields : ∀ f ∈ r.fields, f.WellFormed
  body : r.body.WellFormed
  silent : Silent toHead r.status → r.body = .plain []
  framed : ¬ Silent toHead r.status → r.body.Framed r.fields
  lengthless : r.status / 100 = 1 ∨ r.status = 204 →
    named "content-length" r.fields = [] ∧ named "transfer-encoding" r.fields = []
  -- a media type begins with a letter and ends with a letter or a quote
  contentType : (named "content-type" r.fields).length ≤ 1 ∧
    ∀ f ∈ named "content-type" r.fields, f.value ≠ [] ∧
      (∀ b ∈ f.value.head?, Graphic b) ∧ ∀ b ∈ f.value.getLast?, Graphic b

def header (r : Response) : Bytes :=
  joined 0x0D 0x0A (r.line :: r.fields.map Field.bytes)

def contentType (r : Response) : Option Bytes :=
  (named "content-type" r.fields).head?.map Field.value

end Response

/-! Numbers. -/

theorem decimalValue_digitChar {d : Nat} (h : d < 10) :
    decimalValue (UInt8.ofNat d.digitChar.toNat) = some d := by
  have hall : ∀ k, k < 10 → decimalValue (UInt8.ofNat k.digitChar.toNat) = some k := by decide
  exact hall d h

theorem numberFrom_append (base : Nat) (value : UInt8 → Option Nat) (n : Nat) (as bs : Bytes) :
    numberFrom base value n (as ++ bs) =
      (numberFrom base value n as).bind fun m => numberFrom base value m bs := by
  induction as generalizing n with
  | nil => rfl
  | cons a as ih =>
    rw [List.cons_append, numberFrom, numberFrom]
    cases value a with
    | none => rfl
    | some d => exact ih _

theorem toDigits_ascii (n : Nat) : ∀ c ∈ Nat.toDigits 10 n, c.toNat < 0x80 := by
  intro c hc
  have hdigit := Nat.isDigit_of_mem_toDigits (by decide) (by decide) hc
  rw [Char.isDigit_iff_toNat] at hdigit
  have hnine : '9'.toNat = 57 := rfl
  omega

/-- The digits of a number are read back. -/
theorem decimal_toDigits (n : Nat) : decimal (encode (Nat.toDigits 10 n)) = some n := by
  have hfrom : numberFrom 10 decimalValue 0 (encode (Nat.toDigits 10 n)) = some n := by
    rw [encode_ascii (toDigits_ascii n)]
    induction n using Nat.strong_induction_on with
    | h n ih =>
      rcases Nat.lt_or_ge n 10 with hn | hn
      · rw [Nat.toDigits_of_lt_base hn, List.map_singleton, numberFrom,
          decimalValue_digitChar hn, Option.bind_some, numberFrom]
        simp
      · have hlast : n % 10 < 10 := Nat.mod_lt _ (by decide)
        rw [Nat.toDigits_of_base_le (by decide) hn, List.map_append, numberFrom_append,
          ih (n / 10) (by omega), Option.bind_some, List.map_singleton, numberFrom,
          decimalValue_digitChar hlast, Option.bind_some, numberFrom]
        congr 1
        omega
  have hne : encode (Nat.toDigits 10 n) ≠ [] := by
    rw [encode_ascii (toDigits_ascii n)]
    exact fun he => Nat.toDigits_ne_nil (List.map_eq_nil_iff.mp he)
  rw [decimal, if_neg hne, hfrom]

/-! Decoding. -/

theorem pctDecode_self {bs : Bytes} (h : ∀ b ∈ bs, b.toNat ≠ 0x25) : pctDecode bs = some bs := by
  induction bs with
  | nil => rfl
  | cons b bs ih =>
    have htail := ih fun c hc => h c (List.mem_cons_of_mem b hc)
    rw [pctDecode.eq_def]
    simp only [if_neg (h b List.mem_cons_self), htail, Option.map_some]

/-- Decoding shortens what it changes. -/
theorem length_pctDecode {bs ds : Bytes} (h : pctDecode bs = some ds) :
    ds.length ≤ bs.length ∧ (ds.length = bs.length → ∀ b ∈ bs, b.toNat ≠ 0x25) := by
  fun_induction pctDecode bs generalizing ds with
  | case1 =>
    rw [← Option.some.inj h]
    exact ⟨le_rfl, fun _ b hb => absurd hb List.not_mem_nil⟩
  | case2 b hb x y rest ih =>
    simp only [Option.bind_eq_bind, Option.bind_eq_some_iff, Option.pure_def,
      Option.some.injEq] at h
    obtain ⟨hi, -, lo, -, es, hes, hds⟩ := h
    have hlen := (ih hes).1
    rw [← hds]
    simp only [List.length_cons]
    exact ⟨by omega, fun heq => by omega⟩
  | case3 => cases h
  | case4 b bs hb ih =>
    obtain ⟨es, hes, hds⟩ := Option.map_eq_some_iff.mp h
    obtain ⟨hlen, heq⟩ := ih hes
    rw [← hds]
    simp only [List.length_cons]
    refine ⟨by omega, fun hlength c hc => ?_⟩
    rcases List.mem_cons.mp hc with rfl | hc
    · exact hb
    · exact heq (by omega) c hc

/-! Lines. -/

theorem Graphic.ascii {b : UInt8} (h : Graphic b) : b.toNat < 0x80 := by
  unfold Graphic at h
  omega

theorem Graphic.notBlank {b : UInt8} (h : Graphic b) : ¬ Blank b := by
  unfold Graphic at h
  unfold Blank
  omega

theorem Blank.ascii {b : UInt8} (h : Blank b) : b.toNat < 0x80 := by
  unfold Blank at h
  omega

theorem Printed.ne_end {b : UInt8} (h : Printed b) : b.toNat ≠ 0x0D ∧ b.toNat ≠ 0x0A := by
  unfold Printed Graphic Blank at h
  omega

/-- A line has no line end in it. -/
theorem notMem_of_printed {l : Bytes} (h : ∀ b ∈ l, Printed b) : 0x0D ∉ l ∧ 0x0A ∉ l := by
  constructor
  · intro hmem
    exact (h _ hmem).ne_end.1 rfl
  · intro hmem
    exact (h _ hmem).ne_end.2 rfl

/-- Nor has it one as a text. -/
theorem notMem_lossy_of_printed {l : Bytes} (h : ∀ b ∈ l, Printed b) :
    '\r' ∉ lossy l ∧ '\n' ∉ lossy l := by
  constructor
  · intro hmem
    obtain ⟨b, hb, heq⟩ := mem_of_mem_lossy (by decide) hmem
    exact (h b hb).ne_end.1 heq
  · intro hmem
    obtain ⟨b, hb, heq⟩ := mem_of_mem_lossy (by decide) hmem
    exact (h b hb).ne_end.2 heq

theorem lossy_ne_nil {bs : Bytes} (h : bs ≠ []) : lossy bs ≠ [] := by
  intro hnil
  have hlen := length_le_encode_lossy bs
  rw [hnil] at hlen
  exact h (List.length_eq_zero_iff.mp (Nat.le_zero.mp hlen))

namespace Field

variable {f : Field}

theorem WellFormed.printed (h : f.WellFormed) : ∀ b ∈ f.bytes, Printed b := by
  intro b hb
  simp only [bytes, List.mem_append, List.mem_cons] at hb
  rcases hb with hb | rfl | (hb | hb) | hb
  · exact .inl (h.name.2 b hb).1
  · exact .inl (by decide)
  · exact .inr (.inl (h.before b hb))
  · exact h.value b hb
  · exact .inr (.inl (h.after b hb))

theorem bytes_ne_nil (f : Field) : f.bytes ≠ [] := by
  unfold bytes
  exact List.append_ne_nil_of_right_ne_nil _ (List.cons_ne_nil _ _)

theorem lossy_bytes (f : Field) :
    lossy f.bytes = lossy f.name ++ ':' :: lossy (f.before ++ f.value ++ f.after) := by
  rw [bytes, lossy_append (by simp), lossy_one (by decide)]
  rfl

theorem WellFormed.notMem_name (h : f.WellFormed) : ':' ∉ lossy f.name := by
  intro hmem
  obtain ⟨b, hb, heq⟩ := mem_of_mem_lossy (by decide) hmem
  apply (h.name.2 b hb).2
  rw [heq]
  decide

end Field

theorem lossy_crlf (as bs : Bytes) :
    lossy (as ++ 0x0D :: 0x0A :: bs) = lossy as ++ '\r' :: '\n' :: lossy bs := by
  rw [lossy_append (by simp), lossy_one (by decide), lossy_one (by decide)]
  rfl

theorem lossy_joined (l : Bytes) (ls : List Bytes) :
    lossy (joined 0x0D 0x0A (l :: ls)) = joined '\r' '\n' (lossy l :: ls.map lossy) := by
  induction ls generalizing l with
  | nil => rw [joined_singleton, List.map_nil, joined_singleton]
  | cons m ls ih => rw [joined_cons_cons, lossy_crlf, ih, List.map_cons, joined_cons_cons]

theorem encode_joined (l : List Char) (ls : List (List Char)) :
    encode (joined '\r' '\n' (l :: ls)) = joined 0x0D 0x0A (encode l :: ls.map encode) := by
  induction ls generalizing l with
  | nil => rw [joined_singleton, List.map_nil, joined_singleton]
  | cons m ls ih =>
    rw [joined_cons_cons, encode_append, encode_cons, encode_cons, ih, List.map_cons,
      joined_cons_cons]
    rfl

/-- A header that is a text is one line by line. -/
theorem valid_of_valid_joined {l : Bytes} {ls : List Bytes}
    (h : Valid (joined 0x0D 0x0A (l :: ls))) : ∀ m ∈ l :: ls, Valid m := by
  induction ls generalizing l with
  | nil =>
    rw [joined_singleton] at h
    simpa using h
  | cons n ls ih =>
    rw [joined_cons_cons, valid_append (by simp)] at h
    have hrest : Valid (joined 0x0D 0x0A (n :: ls)) := by
      have hsplit := h.2
      rw [Valid, lossy_one (by decide), lossy_one (by decide), encode_cons, encode_cons] at hsplit
      exact (List.cons.inj (List.cons.inj hsplit).2).2
    intro m hm
    rcases List.mem_cons.mp hm with rfl | hm
    · exact h.1
    · exact ih hrest m hm

section message

variable {line : Bytes} {fields : List Field}

/-- The header of a message ends at the first empty line. -/
theorem find_head (hline : ∀ b ∈ line, Printed b) (hfields : ∀ f ∈ fields, f.WellFormed)
    (rest : Bytes) : find [0x0D, 0x0A, 0x0D, 0x0A] (head line fields ++ rest) =
      some (joined 0x0D 0x0A (line :: fields.map Field.bytes)).length := by
  have hcr : ∀ m ∈ line :: fields.map Field.bytes, (0x0D : UInt8) ∉ m := by
    intro m hm
    rcases List.mem_cons.mp hm with rfl | hm
    · exact (notMem_of_printed hline).1
    · obtain ⟨f, hf, rfl⟩ := List.mem_map.mp hm
      exact (notMem_of_printed (hfields f hf).printed).1
  have hempty : ∀ m ∈ fields.map Field.bytes, m ≠ [] := by
    intro m hm
    obtain ⟨f, -, rfl⟩ := List.mem_map.mp hm
    exact f.bytes_ne_nil
  have hfound := find_joined (by decide : (0x0D : UInt8) ≠ 0x0A) hcr hempty rest
  rwa [head, List.append_assoc]

/-- A message as a text. -/
theorem lossy_head (rest : Bytes) : lossy (head line fields ++ rest) =
    joined '\r' '\n' (lossy line :: fields.map fun f => lossy f.bytes) ++
      '\r' :: '\n' :: '\r' :: '\n' :: lossy rest := by
  have htwo := lossy_crlf [] rest
  rw [List.nil_append] at htwo
  rw [head, List.append_assoc]
  simp only [List.cons_append, List.nil_append]
  rw [lossy_crlf, htwo, lossy_joined, List.map_map, lossy, List.nil_append]
  rfl

theorem find_lossy_head (hline : ∀ b ∈ line, Printed b) (hfields : ∀ f ∈ fields, f.WellFormed)
    (rest : Bytes) : find ['\r', '\n', '\r', '\n'] (lossy (head line fields ++ rest)) =
      some (joined '\r' '\n' (lossy line :: fields.map fun f => lossy f.bytes)).length := by
  rw [lossy_head]
  apply find_joined (by decide)
  · intro m hm
    rcases List.mem_cons.mp hm with rfl | hm
    · exact (notMem_lossy_of_printed hline).1
    · obtain ⟨f, hf, rfl⟩ := List.mem_map.mp hm
      exact (notMem_lossy_of_printed (hfields f hf).printed).1
  · intro m hm
    obtain ⟨f, -, rfl⟩ := List.mem_map.mp hm
    exact lossy_ne_nil f.bytes_ne_nil

end message

/-! Chunks. -/

theorem hexadecimal_some {bs : Bytes} {n : Nat} (h : hexadecimal bs = some n) :
    bs ≠ [] ∧ ∀ b ∈ bs, (hexValue b).isSome := by
  have hfrom : ∀ {bs : Bytes} {m : Nat}, numberFrom 16 hexValue m bs = some n →
      ∀ b ∈ bs, (hexValue b).isSome := by
    intro bs
    induction bs with
    | nil => exact fun _ b hb => absurd hb List.not_mem_nil
    | cons b bs ih =>
      intro m hm c hc
      rw [numberFrom] at hm
      obtain ⟨d, hd, hrest⟩ := Option.bind_eq_some_iff.mp hm
      rcases List.mem_cons.mp hc with rfl | hc
      · rw [hd]
        rfl
      · exact ih hrest c hc
  rw [hexadecimal] at h
  split_ifs at h with hne
  exact ⟨hne, hfrom h⟩

/-- After the digits of a size comes a semicolon or the end of the line. -/
theorem Extension.next {ext : Bytes} (h : Extension ext) (t : Bytes) :
    ∃ x u, ext ++ 0x0D :: 0x0A :: t = x :: (u ++ t) ∧ (x.toNat = 0x0D ∨ x.toNat = 0x3B) := by
  rcases h with rfl | ⟨hhead, -⟩
  · exact ⟨0x0D, [0x0A], rfl, .inl rfl⟩
  · obtain ⟨b, hb, hsemi⟩ := Option.map_eq_some_iff.mp hhead
    obtain ⟨e, rfl⟩ := List.head?_eq_some_iff.mp hb
    exact ⟨b, e ++ [0x0D, 0x0A], by simp, .inr hsemi⟩

/-- What a body in chunks begins with; after a chunk there is another size. -/
theorem Body.exists_chunked {chunks : List Chunk} {last extension : Bytes}
    {trailers : List Field} (h : (Body.chunked chunks last extension trailers).WellFormed) :
    ∃ size x rest, (Body.chunked chunks last extension trailers).bytes = size ++ x :: rest ∧
      size ≠ [] ∧ (∀ b ∈ size, (hexValue b).isSome) ∧ (x.toNat = 0x0D ∨ x.toNat = 0x3B) ∧
      (chunks ≠ [] → ∃ p q, rest = p ++ 0x30 :: q) := by
  obtain ⟨hchunks, ⟨hlast, hzeros⟩, hext, -⟩ := h
  have hhex : ∀ b ∈ last, (hexValue b).isSome := by
    intro b hb
    rw [hexValue, if_pos (by have := hzeros b hb; omega)]
    rfl
  cases chunks with
  | nil =>
    obtain ⟨x, u, hx, hxs⟩ := hext.next
      ((trailers.flatMap fun f => f.bytes ++ [0x0D, 0x0A]) ++ [0x0D, 0x0A])
    refine ⟨last, x, u ++ ((trailers.flatMap fun f => f.bytes ++ [0x0D, 0x0A]) ++ [0x0D, 0x0A]),
      ?_, hlast, hhex, hxs, fun hne => absurd rfl hne⟩
    rw [Body.bytes, Body.finish, hx, List.flatMap_nil, List.nil_append]
  | cons c cs =>
    have hc := hchunks c List.mem_cons_self
    obtain ⟨hsize, hsizes⟩ := hexadecimal_some hc.size
    obtain ⟨z, zs, hz⟩ := List.exists_cons_of_ne_nil hlast
    have hzero : z = 0x30 := by
      apply UInt8.toNat_inj.mp
      exact hzeros z (by rw [hz]; exact List.mem_cons_self)
    obtain ⟨x, u, hx, hxs⟩ := hc.extension.next (c.data ++ [0x0D, 0x0A])
    refine ⟨c.size, x, u ++ (c.data ++ [0x0D, 0x0A]) ++ (cs.flatMap Chunk.bytes ++
      (last ++ Body.finish extension trailers)), ?_, hsize, hsizes, hxs, fun _ => ?_⟩
    · rw [Body.bytes, List.flatMap_cons, Chunk.bytes, hx]
      simp only [List.append_assoc, List.cons_append]
    · refine ⟨u ++ (c.data ++ [0x0D, 0x0A]) ++ cs.flatMap Chunk.bytes,
        zs ++ Body.finish extension trailers, ?_⟩
      rw [hz, hzero]
      simp only [List.append_assoc, List.cons_append]

theorem Body.payload_lt {chunks : List Chunk} {last extension : Bytes} {trailers : List Field} :
    (Body.chunked chunks last extension trailers).payload.length <
      (Body.chunked chunks last extension trailers).bytes.length := by
  have hle : (chunks.flatMap Chunk.data).length ≤ (chunks.flatMap Chunk.bytes).length := by
    induction chunks with
    | nil => exact le_rfl
    | cons c cs ih =>
      simp only [List.flatMap_cons, List.length_append, Chunk.bytes, List.length_cons]
      omega
  simp only [Body.payload, Body.bytes, Body.finish, List.length_append, List.length_cons,
    List.length_nil]
  omega

theorem Body.payload_eq_nil {chunks : List Chunk} {last extension : Bytes}
    {trailers : List Field} (h : (Body.chunked chunks last extension trailers).WellFormed) :
    (Body.chunked chunks last extension trailers).payload = [] ↔ chunks = [] := by
  constructor
  · intro hnil
    cases chunks with
    | nil => rfl
    | cons c cs =>
      rw [Body.payload, List.flatMap_cons, List.append_eq_nil_iff] at hnil
      exact absurd hnil.1 (h.1 c List.mem_cons_self).data
  · rintro rfl
    rfl

/-! Responses. -/

namespace Response

variable {toHead : Bool} {r : Response}

theorem WellFormed.printed (h : r.WellFormed toHead) : ∀ b ∈ r.line, Printed b := by
  have hversion : ∀ b ∈ encode version, Printed b := by decide
  have hdigits : ∀ b ∈ encode (Digits.digits 3 r.status), Printed b := by
    have hascii : ∀ c ∈ Digits.digits 3 r.status, c.toNat < 0x80 := by
      intro c hc
      obtain ⟨d, rfl⟩ := Digits.mem_digits hc
      rw [Digits.toNat_digit]
      omega
    intro b hb
    obtain ⟨c, hc, heq⟩ := exists_of_mem_encode hascii hb
    obtain ⟨d, rfl⟩ := Digits.mem_digits hc
    rw [Digits.toNat_digit] at heq
    left
    unfold Graphic
    omega
  have hspace : ∀ b ∈ String.utf8EncodeChar ' ', Printed b := by decide
  intro b hb
  simp only [line, encode_append, encode_cons, List.mem_append] at hb
  rcases hb with (hb | hb | hb | hb | hb) | hb
  · exact hversion b hb
  · exact hspace b hb
  · exact hdigits b hb
  · exact hspace b hb
  · exact absurd hb List.not_mem_nil
  · exact h.reason b hb

theorem lossy_line (r : Response) : lossy r.line =
    version ++ ' ' :: (Digits.digits 3 r.status ++ ' ' :: lossy r.reason) := by
  rw [line, lossy_encode_append]
  simp only [List.append_assoc, List.cons_append, List.nil_append]

theorem bytes_eq (r : Response) :
    r.bytes = r.header ++ 0x0D :: 0x0A :: 0x0D :: 0x0A :: r.body.bytes := by
  rw [bytes, head, header, List.append_assoc]
  rfl

end Response

/-- A request begins with its method and its target. -/
theorem Request.exists_bytes (r : Request) :
    ∃ rest, r.bytes = r.method ++ 0x20 :: (r.target ++ 0x20 :: rest) := by
  obtain ⟨t, ht⟩ := exists_joined (α := UInt8) r.line (r.fields.map Field.bytes)
  refine ⟨encode version ++ (t ++ ([0x0D, 0x0A, 0x0D, 0x0A] ++ r.body.bytes)), ?_⟩
  rw [Request.bytes, head, ht, Request.line]
  simp only [List.append_assoc, List.cons_append]

end Http
