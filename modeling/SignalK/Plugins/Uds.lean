import Mathlib.Data.List.Find
import Mathlib.Data.List.TakeWhile
import SignalK.Lib.Http
import SignalK.Lib.ReadBack
import SignalK.Types.Json

/-! HTTP over the socket of the bridge: requests as they are written, responses as they are
read. -/
namespace SignalK
namespace Uds
open Lines Text Utf8 Http

/-- The other end of the socket: it may be out of reach, and it may break off. -/
abbrev Peer := Except String (Bytes → Except String Bytes)

def postRequest [JsonText] (urlPath : List Char) (body : Json) : Bytes :=
  let bodyBytes := encode (JsonText.toText body).toList
  encode ("POST ".toList ++ urlPath ++ " HTTP/1.1\r\nHost: bridge\r\n".toList ++
    "Content-Type: application/json\r\nContent-Length: ".toList ++
    Nat.toDigits 10 bodyBytes.length ++ "\r\nConnection: close\r\n\r\n".toList) ++ bodyBytes

/-- `s.parse::<u16>().ok()` -/
def parseU16 (s : List Char) : Option Nat :=
  let digits := if s.head? = some '+' then s.tail else s
  if digits = [] then none
  else ((digits.mapM Digits.value).map Digits.ofList).filter (· < 65536)

def statusOf (fallback : Nat) (firstLine : List Char) : Nat :=
  ((splitWhitespace firstLine)[1]?.bind parseU16).getD fallback

/-- `serde_json::from_str` is outside of the repository. -/
abbrev FromStr := List Char → Except String Json

def postReply (fromStr : FromStr) (raw : Bytes) : Except String Json :=
  let text := lossy raw
  let status := statusOf 0 ((lines text).head?.getD [])
  if ¬ (200 ≤ status ∧ status < 300) then
    .error ("HTTP " ++ toString status ++ " from bridge")
  else
    match find ['\r', '\n', '\r', '\n'] text with
    | none => .error "No HTTP body delimiter in response"
    | some bodyStart => fromStr (text.drop (bodyStart + 4))

def udsPost [JsonText] (fromStr : FromStr) (peer : Peer) (urlPath : List Char) (body : Json) :
    Except String Json := do
  let serve ← peer
  let raw ← serve (postRequest urlPath body)
  postReply fromStr raw

def proxyRequest (method urlPath : List Char) (contentType : Option (List Char)) (body : Bytes) :
    Bytes :=
  let length := Nat.toDigits 10 body.length
  let ctHeader :=
    match contentType with
    | some ct =>
      "Content-Type: ".toList ++ ct ++ "\r\nContent-Length: ".toList ++ length ++ "\r\n".toList
    | none => if body ≠ [] then "Content-Length: ".toList ++ length ++ "\r\n".toList else []
  encode (method ++ " ".toList ++ urlPath ++ " HTTP/1.1\r\nHost: bridge\r\n".toList ++ ctHeader ++
    "Connection: close\r\n\r\n".toList) ++ body

/-- Outside of ASCII no letter has one of these as the first of its lower case. -/
def isContentType (line : List Char) : Bool :=
  decide ("content-type:".toList <+: line.map Char.toLower)

def proxyReply (raw : Bytes) : Except String (Nat × Bytes × Option (List Char)) :=
  match find [0x0D, 0x0A, 0x0D, 0x0A] raw with
  | none => .error "No header/body separator in HTTP response"
  | some headerEnd =>
    let bodyBytes := raw.drop (headerEnd + 4)
    match decode (raw.take headerEnd) with
    | none => .error "Non-UTF8 response headers"
    | some headerStr =>
      let headerLines := lines headerStr
      let status := statusOf 500 (headerLines.head?.getD [])
      let respContentType :=
        ((headerLines.tail.find? isContentType).bind (after ':')).map trim
      .ok (status, bodyBytes, respContentType)

def udsProxy (peer : Peer) (method urlPath : List Char) (contentType : Option (List Char))
    (body : Bytes) : Except String (Nat × Bytes × Option (List Char)) := do
  let serve ← peer
  let raw ← serve (proxyRequest method urlPath contentType body)
  proxyReply raw

/-! What a request should be. -/

/-- The bytes are one request, for this path and with this body. -/
def OneRequest [JsonText] (urlPath : List Char) (body : Json) : Prop :=
  ∃ r : Request, r.WellFormed ∧ r.bytes = postRequest urlPath body ∧
    r.method = encode "POST".toList ∧ decodedPath r.target = some (encode urlPath) ∧
    r.body.payload = encode (JsonText.toText body).toList

/-- A path of which every character stands for itself in a target. -/
def PlainPath (urlPath : List Char) : Prop :=
  urlPath.head? = some '/' ∧ ∀ c ∈ urlPath, c = '/' ∨ Pchar c.toNat

instance (urlPath : List Char) : Decidable (PlainPath urlPath) :=
  inferInstanceAs (Decidable (_ ∧ _))

/-- A header field as it is written here. -/
def writtenField (name value : List Char) : Field :=
  ⟨encode name, [0x20], encode value, []⟩

theorem writtenField_bytes (name value : List Char) :
    (writtenField name value).bytes = encode (name ++ ':' :: ' ' :: value) := by
  rw [encode_append, encode_cons, encode_cons]
  simp only [Field.bytes, writtenField, List.append_nil]
  rfl

def writtenFields (length : Nat) : List Field :=
  [writtenField "Host".toList "bridge".toList,
    writtenField "Content-Type".toList "application/json".toList,
    writtenField "Content-Length".toList (Nat.toDigits 10 length),
    writtenField "Connection".toList "close".toList]

def writtenRequest [JsonText] (urlPath : List Char) (body : Json) : Request where
  method := encode "POST".toList
  target := encode urlPath
  fields := writtenFields (encode (JsonText.toText body).toList).length
  body := .plain (encode (JsonText.toText body).toList)

theorem writtenRequest_bytes [JsonText] (urlPath : List Char) (body : Json) :
    (writtenRequest urlPath body).bytes = postRequest urlPath body := by
  have hline : (writtenRequest urlPath body).line =
      encode ("POST".toList ++ ' ' :: (urlPath ++ ' ' :: version)) := by
    rw [encode_append, encode_cons, encode_append, encode_cons]
    rfl
  have hend : ([0x0D, 0x0A, 0x0D, 0x0A] : Bytes) = encode ['\r', '\n', '\r', '\n'] := by decide
  have hfields : (writtenRequest urlPath body).fields.map Field.bytes =
      (["Host: bridge".toList, "Content-Type: application/json".toList,
        "Content-Length: ".toList ++
          Nat.toDigits 10 (encode (JsonText.toText body).toList).length,
        "Connection: close".toList]).map encode := by
    simp only [writtenRequest, writtenFields, List.map_cons, List.map_nil, writtenField_bytes]
    rfl
  rw [Request.bytes, head, hline, hfields, ← encode_joined, hend, ← encode_append]
  simp only [postRequest, joined_cons_cons, joined_singleton, List.append_assoc, List.cons_append]
  rfl

theorem Pchar.lt {n : Nat} (h : Pchar n) : n < 0x80 ∧ n ≠ 0x25 ∧ n ≠ 0x3F := by
  simp only [Pchar, List.mem_cons, List.not_mem_nil, or_false] at h
  omega

section written

variable {urlPath : List Char}

/-- The bytes of such a path are its characters. -/
theorem PlainPath.bytes (h : PlainPath urlPath) :
    ∀ b ∈ encode urlPath, b.toNat = 0x2F ∨ Pchar b.toNat := by
  have hascii : ∀ c ∈ urlPath, c.toNat < 0x80 := by
    intro c hc
    rcases h.2 c hc with rfl | hp
    · decide
    · exact (Pchar.lt hp).1
  intro b hb
  obtain ⟨c, hc, heq⟩ := exists_of_mem_encode hascii hb
  rw [← heq]
  rcases h.2 c hc with rfl | hp
  · exact .inl rfl
  · exact .inr hp

theorem PlainPath.decoded (h : PlainPath urlPath) :
    pctDecode (encode urlPath) = some (encode urlPath) := by
  apply pctDecode_self
  intro b hb
  rcases h.bytes b hb with hslash | hp
  · omega
  · exact (Pchar.lt hp).2.1

theorem PlainPath.pathOf (h : PlainPath urlPath) : pathOf (encode urlPath) = encode urlPath := by
  rw [Http.pathOf, List.takeWhile_eq_self_iff]
  intro b hb
  rw [decide_eq_true_iff]
  rcases h.bytes b hb with hslash | hp
  · omega
  · exact (Pchar.lt hp).2.2

theorem PlainPath.target (h : PlainPath urlPath) : Target (encode urlPath) := by
  refine ⟨?_, ?_, ?_⟩
  · cases urlPath with
    | nil => exact absurd h.1 (by decide)
    | cons c cs =>
      have hc : c = '/' := Option.some.inj h.1
      rw [hc, encode_cons]
      rfl
  · intro b hb
    rcases h.bytes b hb with hslash | hp
    · exact .inr (.inl hslash)
    · exact .inl hp
  · rw [h.decoded]
    rfl

theorem wellFormed_writtenField {name value : List Char} (hname : Token (encode name))
    (hvalue : ∀ b ∈ encode value, Graphic b) : (writtenField name value).WellFormed where
  name := hname
  before := (by decide : ∀ b ∈ ([0x20] : Bytes), Blank b)
  value := fun b hb => .inl (hvalue b hb)
  first := fun b hb => (hvalue b (List.mem_of_mem_head? hb)).notBlank
  last := fun b hb => (hvalue b (List.mem_of_mem_getLast? hb)).notBlank
  after := fun b hb => absurd hb List.not_mem_nil

theorem wellFormed_writtenFields (length : Nat) : ∀ f ∈ writtenFields length, f.WellFormed := by
  have hdigits : ∀ b ∈ encode (Nat.toDigits 10 length), Graphic b := by
    intro b hb
    obtain ⟨c, hc, heq⟩ := exists_of_mem_encode (toDigits_ascii length) hb
    have hdigit := Nat.isDigit_of_mem_toDigits (by decide) (by decide) hc
    rw [Char.isDigit_iff_toNat] at hdigit
    have hzero : '0'.toNat = 48 := rfl
    have hnine : '9'.toNat = 57 := rfl
    unfold Graphic
    omega
  intro f hf
  simp only [writtenFields, List.mem_cons, List.not_mem_nil, or_false] at hf
  rcases hf with rfl | rfl | rfl | rfl
  · exact wellFormed_writtenField (by decide) (by decide)
  · exact wellFormed_writtenField (by decide) (by decide)
  · exact wellFormed_writtenField (by decide) hdigits
  · exact wellFormed_writtenField (by decide) (by decide)

theorem is_writtenField (name : String) (n value : List Char) :
    (writtenField n value).Is name ↔ n.map Char.toLower = name.toList := by
  rw [Field.Is, writtenField, lossy_encode]

theorem named_cons (name : String) (n value : List Char) (fields : List Field) :
    named name (writtenField n value :: fields) =
      if n.map Char.toLower = name.toList then writtenField n value :: named name fields
      else named name fields := by
  by_cases h : n.map Char.toLower = name.toList
  · rw [if_pos h, named, List.filter_cons_of_pos (by simpa [is_writtenField] using h), named]
  · rw [if_neg h, named, List.filter_cons_of_neg (by simpa [is_writtenField] using h), named]

theorem named_host (length : Nat) :
    named "host" (writtenFields length) = [writtenField "Host".toList "bridge".toList] := by
  simp only [writtenFields, named_cons]
  rfl

theorem named_length (length : Nat) : named "content-length" (writtenFields length) =
    [writtenField "Content-Length".toList (Nat.toDigits 10 length)] := by
  simp only [writtenFields, named_cons]
  rfl

theorem named_coding (length : Nat) :
    named "transfer-encoding" (writtenFields length) = [] := by
  simp only [writtenFields, named_cons]
  rfl

theorem wellFormed_writtenRequest [JsonText] (h : PlainPath urlPath) (body : Json) :
    (writtenRequest urlPath body).WellFormed where
  method := (by decide : Token (encode "POST".toList))
  target := h.target
  fields := wellFormed_writtenFields _
  host := by rw [writtenRequest, named_host, List.length_singleton]
  body := trivial
  framed := by
    refine ⟨named_coding _, ?_, ?_⟩
    · rw [writtenRequest, named_length, List.length_singleton]
    · intro f hf
      rw [writtenRequest, named_length] at hf
      rw [List.mem_singleton.mp hf]
      exact decimal_toDigits _
  ended := by
    intro hnone
    rw [writtenRequest, named_length] at hnone
    cases hnone

/-- A target that stands for a path and is not longer than it is that path. -/
theorem plainPath_of_target {target : Bytes} (htarget : Target target)
    (hdecoded : decodedPath target = some (encode urlPath))
    (hpre : target <+: encode urlPath) : PlainPath urlPath := by
  have hpath : Http.pathOf target <+: target := List.takeWhile_prefix _
  obtain ⟨hle, hplain⟩ := length_pctDecode hdecoded
  have hlen : (encode urlPath).length = (Http.pathOf target).length := by
    have := hpre.length_le
    have := hpath.length_le
    omega
  have hpathEq : Http.pathOf target = target := by
    apply hpath.eq_of_length
    have := hpre.length_le
    have := hpath.length_le
    omega
  have htargetEq : target = encode urlPath := by
    apply hpre.eq_of_length
    rw [hlen, hpathEq]
  have hbyte : ∀ b ∈ target, b.toNat = 0x2F ∨ Pchar b.toNat := by
    intro b hb
    have hpct : b.toNat ≠ 0x25 := hplain hlen b (by rwa [hpathEq])
    have hquery : b.toNat ≠ 0x3F := by
      rw [Http.pathOf, List.takeWhile_eq_self_iff] at hpathEq
      simpa using hpathEq b hb
    rcases htarget.2.1 b hb with hp | hslash | hq | hc
    · exact .inr hp
    · exact .inl hslash
    · exact absurd hq hquery
    · exact absurd hc hpct
  have hascii : ∀ b ∈ target, b.toNat < 0x80 := by
    intro b hb
    rcases hbyte b hb with hslash | hp
    · omega
    · exact (Pchar.lt hp).1
  have hurl : urlPath = target.map fun b => Char.ofNat b.toNat := by
    rw [← lossy_ascii hascii, htargetEq, lossy_encode]
  constructor
  · rw [hurl, List.head?_map]
    obtain ⟨b, hb, hslash⟩ := Option.map_eq_some_iff.mp htarget.1
    rw [hb, Option.map_some, hslash]
  · intro c hc
    rw [hurl] at hc
    obtain ⟨b, hb, rfl⟩ := List.mem_map.mp hc
    have hnat := toNat_ofNat (n := b.toNat) (by have := hascii b hb; omega)
    rcases hbyte b hb with hslash | hp
    · left
      rw [hslash]
    · right
      rwa [hnat]

theorem oneRequest_iff [JsonText] (urlPath : List Char) (body : Json) :
    OneRequest urlPath body ↔ PlainPath urlPath := by
  constructor
  · rintro ⟨r, hr, hbytes, hmethod, hdecoded, -⟩
    obtain ⟨rest, hrest⟩ := r.exists_bytes
    obtain ⟨rest', hrest'⟩ := (writtenRequest urlPath body).exists_bytes
    have hpost : (writtenRequest urlPath body).method = encode "POST".toList := rfl
    have htarget : (writtenRequest urlPath body).target = encode urlPath := rfl
    rw [← writtenRequest_bytes, hrest, hrest', hmethod, hpost, htarget] at hbytes
    have hcut := (List.cons.inj (List.append_cancel_left hbytes)).2
    have hspace : (0x20 : UInt8) ∉ r.target := by
      intro hmem
      have hbyte := hr.target.2.1 _ hmem
      revert hbyte
      decide
    apply plainPath_of_target hr.target hdecoded
    rcases cut_eq_cut_iff.mp hcut with ⟨heq, -⟩ | ⟨mid, heq, -⟩ | ⟨mid, heq, -⟩
    · rw [heq]
    · exact ⟨_, heq.symm⟩
    · exact absurd (by rw [heq]; simp) hspace
  · intro h
    refine ⟨writtenRequest urlPath body, wellFormed_writtenRequest h body,
      writtenRequest_bytes urlPath body, rfl, ?_, rfl⟩
    change pctDecode (Http.pathOf (encode urlPath)) = some (encode urlPath)
    rw [h.pathOf, h.decoded]

end written

/-! Responses as they are read. -/

theorem mapM_value_digits (w n : Nat) :
    (Digits.digits w n).mapM Digits.value = some (Digits.values w n) := by
  induction w generalizing n with
  | zero => rfl
  | succ w ih =>
    rw [Digits.digits, List.mapM_append, ih]
    simp [Digits.value_digit, Digits.values]

theorem isWhitespace_digit (n : Nat) : isWhitespace (Digits.digit n) = false := by
  have hall : ∀ k, k < 10 → isWhitespace (Char.ofNat (48 + k)) = false := by decide
  exact hall (n % 10) (Nat.mod_lt n (by decide))

theorem parseU16_digits {n : Nat} (h : n < 1000) : parseU16 (Digits.digits 3 n) = some n := by
  have hsign : (Digits.digits 3 n).head? ≠ some '+' := by
    intro hplus
    obtain ⟨d, hd⟩ := Digits.mem_digits (List.mem_of_mem_head? hplus)
    have hnat := Digits.toNat_digit d
    rw [← hd] at hnat
    have hval : '+'.toNat = 43 := rfl
    omega
  have hne := Digits.digits_ne_nil (by decide : 0 < 3) n
  have hlt : n < 65536 := by omega
  simp only [parseU16, if_neg hsign, if_neg hne, mapM_value_digits, Option.map_some,
    Digits.ofList_values 3 n h]
  simp [hlt]

theorem statusOf_line {r : Response} (h : r.status < 1000) (fallback : Nat) :
    statusOf fallback (lossy r.line) = r.status := by
  have hversion : ∀ c ∈ version, isWhitespace c = false := by decide
  have hdigits : ∀ c ∈ Digits.digits 3 r.status, isWhitespace c = false := by
    intro c hc
    obtain ⟨d, rfl⟩ := Digits.mem_digits hc
    exact isWhitespace_digit d
  have hne := Digits.digits_ne_nil (by decide : 0 < 3) r.status
  rw [statusOf, Response.lossy_line, splitWhitespace_cons hversion (by decide) (by decide),
    splitWhitespace_cons hdigits hne (by decide)]
  simp [parseU16_digits h]

theorem line_ne_nil (r : Response) : r.line ≠ [] := by
  intro hnil
  have hline := r.lossy_line
  rw [hnil] at hline
  cases hline

/-- What is read of a response is the text after its header. -/
theorem postReply_bytes {toHead : Bool} {r : Response} (h : r.WellFormed toHead)
    (fromStr : FromStr) : postReply fromStr r.bytes =
      if ¬ (200 ≤ r.status ∧ r.status < 300) then
        .error ("HTTP " ++ toString r.status ++ " from bridge")
      else fromStr (lossy r.body.bytes) := by
  have hfirst : (lines (lossy r.bytes)).head? = some (lossy r.line) := by
    rw [Response.bytes, lossy_head]
    exact head_lines_joined (notMem_lossy_of_printed h.printed).2 _
  have hfind := find_lossy_head h.printed h.fields r.body.bytes
  have hdrop : (lossy r.bytes).drop ((joined '\r' '\n'
      (lossy r.line :: r.fields.map fun f => lossy f.bytes)).length + 4) =
      lossy r.body.bytes := by
    rw [Response.bytes, lossy_head, List.drop_append]
    simp
  rw [postReply]
  simp only [hfirst, Option.getD_some, statusOf_line h.status]
  rw [Response.bytes] at hdrop ⊢
  rw [hfind]
  simp only [hdrop]

/-- The line of a header field is that of the content type by its name alone. -/
theorem isContentType_bytes {f : Field} (h : f.WellFormed) :
    isContentType (lossy f.bytes) = decide (f.Is "content-type") := by
  have hascii : ∀ b ∈ f.name, b.toNat < 0x80 := fun b hb => (h.name.2 b hb).1.ascii
  have hlower : ∀ n, n < 0x80 → (Char.ofNat n).toLower = ':' → Char.ofNat n = ':' := by decide
  have hcolon : ':' ∉ (lossy f.name).map Char.toLower := by
    intro hmem
    obtain ⟨c, hc, hlow⟩ := List.mem_map.mp hmem
    apply h.notMem_name
    obtain ⟨b, hb, rfl⟩ := exists_of_mem_lossy hascii hc
    rw [lossy_ascii hascii, List.mem_map]
    exact ⟨b, hb, hlower _ (hascii b hb) hlow⟩
  have hname : "content-type:".toList = "content-type".toList ++ [':'] := by decide
  rw [isContentType, Field.lossy_bytes, List.map_append, List.map_cons, hname, decide_eq_decide]
  exact prefix_separator_iff (by decide) hcolon _

/-- The value of a field without the blanks around it. -/
theorem trim_value {f : Field} (h : f.WellFormed) (hne : f.value ≠ [])
    (hfirst : ∀ b ∈ f.value.head?, Graphic b) (hlast : ∀ b ∈ f.value.getLast?, Graphic b) :
    ((after ':' (lossy f.bytes)).map trim) = some (lossy f.value) := by
  have hblank : ∀ bs : Bytes, (∀ b ∈ bs, Blank b) → ∀ c ∈ lossy bs, isWhitespace c = true := by
    intro bs hbs c hc
    obtain ⟨b, hb, rfl⟩ := exists_of_mem_lossy (fun b hb => (hbs b hb).ascii) hc
    rcases hbs b hb with hsp | htab
    · rw [hsp]
      decide
    · rw [htab]
      decide
  have hgraphic : ∀ b : UInt8, Graphic b → isWhitespace (Char.ofNat b.toNat) = false := by
    intro b hb
    have hall : ∀ n, n < 0x7F → 0x21 ≤ n → isWhitespace (Char.ofNat n) = false := by decide
    unfold Graphic at hb
    exact hall _ (by omega) hb.1
  have hafter : ∀ b ∈ f.after.head?, b.toNat < 0x80 :=
    fun b hb => (h.after b (List.mem_of_mem_head? hb)).ascii
  have hsplit : lossy (f.before ++ f.value ++ f.after) =
      lossy f.before ++ lossy f.value ++ lossy f.after := by
    rw [lossy_append hafter, lossy_append fun b hb => (hfirst b hb).ascii]
  rw [Field.lossy_bytes, after_append h.notMem_name, Option.map_some, hsplit,
    trim_padded (hblank _ h.before) (hblank _ h.after) (lossy_ne_nil hne)]
  · intro c hc
    obtain ⟨b, bs, hb⟩ := List.exists_cons_of_ne_nil hne
    have hgb := hfirst b (by rw [hb]; rfl)
    rw [hb, lossy_one hgb.ascii] at hc
    rw [← Option.some.inj hc]
    exact hgraphic b hgb
  · intro c hc
    have hback := List.dropLast_append_getLast hne
    have hgb := hlast (f.value.getLast hne) (List.getLast?_eq_getLast_of_ne_nil hne)
    rw [← hback, lossy_append (by simpa using hgb.ascii), lossy_one hgb.ascii, lossy,
      List.getLast?_concat] at hc
    rw [← Option.some.inj hc]
    exact hgraphic _ hgb

/-- The content type is that of the first field with the name. -/
theorem contentType_lines {toHead : Bool} {r : Response} (h : r.WellFormed toHead) :
    (((r.fields.map fun f => lossy f.bytes).find? isContentType).bind (after ':')).map trim =
      r.contentType.map lossy := by
  have hfound : (r.fields.map fun f => lossy f.bytes).find? isContentType =
      (r.fields.find? fun f => f.Is "content-type").map fun f => lossy f.bytes := by
    rw [List.find?_map]
    congr 1
    exact List.find?_congr fun f hf => isContentType_bytes (h.fields f hf)
  rw [hfound, Response.contentType, named, List.head?_filter]
  cases hf : r.fields.find? fun f => f.Is "content-type" with
  | none => rfl
  | some f =>
    have hmem := List.mem_of_find?_eq_some hf
    have his := List.find?_some (p := fun g => decide (Field.Is "content-type" g)) hf
    have hnamed : f ∈ named "content-type" r.fields := List.mem_filter.mpr ⟨hmem, his⟩
    obtain ⟨hne, hfirst, hlast⟩ := h.contentType.2 f hnamed
    exact trim_value (h.fields f hmem) hne hfirst hlast

/-- What is read of a response is what it carries, the body as it stands there. -/
theorem proxyReply_bytes {toHead : Bool} {r : Response} (h : r.WellFormed toHead) :
    proxyReply r.bytes = if Valid r.header then
        .ok (r.status, r.body.bytes, r.contentType.map lossy)
      else .error "Non-UTF8 response headers" := by
  have hfind : find [0x0D, 0x0A, 0x0D, 0x0A] r.bytes = some r.header.length := by
    rw [Response.bytes, find_head h.printed h.fields, Response.header]
  have htake : r.bytes.take r.header.length = r.header := by
    rw [Response.bytes_eq, List.take_left]
  have hdrop : r.bytes.drop (r.header.length + 4) = r.body.bytes := by
    rw [Response.bytes_eq, List.drop_append]
    simp
  have hlines : lines (lossy r.header) =
      lossy r.line :: r.fields.map fun f => lossy f.bytes := by
    rw [Response.header, lossy_joined, List.map_map, lines_joined]
    · rfl
    · intro m hm
      rcases List.mem_cons.mp hm with heq | hm
      · rw [heq]
        exact (notMem_lossy_of_printed h.printed).2
      · obtain ⟨f, hf, rfl⟩ := List.mem_map.mp hm
        exact (notMem_lossy_of_printed (h.fields f hf).printed).2
    · intro m hm
      rcases List.mem_cons.mp hm with heq | hm
      · rw [heq]
        exact lossy_ne_nil (line_ne_nil r)
      · obtain ⟨f, -, rfl⟩ := List.mem_map.mp hm
        exact lossy_ne_nil f.bytes_ne_nil
  rw [proxyReply, hfind]
  simp only [htake, hdrop]
  by_cases hvalid : Valid r.header
  · rw [if_pos hvalid, decode_of_valid hvalid]
    simp only [hlines, List.head?_cons, Option.getD_some, statusOf_line h.status, List.tail_cons,
      contentType_lines h]
  · rw [if_neg hvalid, decode_of_not_valid hvalid]

/-! What the answers should be. -/

/-- The peer answers whatever it is sent. -/
def answering (raw : Bytes) : Peer :=
  .ok fun _ => .ok raw

/-- The document of a body: none is null. -/
def JsonBody (fromStr : FromStr) (payload : Bytes) (v : Json) : Prop :=
  payload = [] ∧ v = .null ∨ ∃ text, encode text = payload ∧ fromStr text = .ok v

def Success (status : Nat) : Prop := 200 ≤ status ∧ status < 300

/-- The document of the body is returned, and only with a status of success. -/
def PostFaithful [JsonText] (fromStr : FromStr) (urlPath : List Char) (body : Json)
    (r : Response) : Prop :=
  ∀ v, udsPost fromStr (answering r.bytes) urlPath body = .ok v ↔
    Success r.status ∧ JsonBody fromStr r.body.payload v

/-- The status, the body without its framing and the content type are returned. -/
def ProxyFaithful (method urlPath : List Char) (contentType : Option (List Char)) (body : Bytes)
    (r : Response) : Prop :=
  ∃ ct : Option (List Char), ct.map encode = r.contentType ∧
    udsProxy (answering r.bytes) method urlPath contentType body =
      .ok (r.status, r.body.payload, ct)

/-- With a status of success there is a body, and it is in one piece or no document. -/
def PostHolds (fromStr : FromStr) (r : Response) : Prop :=
  Success r.status → r.body.payload ≠ [] ∧
    match r.body with
    | .plain data => Valid data ∨ ∀ v, fromStr (lossy data) ≠ .ok v
    | .chunked chunks _ _ _ => ∀ v, ¬ JsonBody fromStr (chunks.flatMap Chunk.data) v

/-- The body is in one piece and the header is a text. -/
def ProxyHolds (r : Response) : Prop :=
  (∃ data, r.body = .plain data) ∧ Valid r.header

def HexDigit (c : Char) : Prop :=
  (0x30 ≤ c.toNat ∧ c.toNat ≤ 0x39) ∨ (0x41 ≤ c.toNat ∧ c.toNat ≤ 0x46) ∨
    (0x61 ≤ c.toNat ∧ c.toNat ≤ 0x66)

/-- The grammar of documents, as far as it matters here. -/
structure Grammar (fromStr : FromStr) : Prop where
  /-- There is no document without a character. -/
  empty : ∀ v, fromStr [] ≠ .ok v
  /-- What begins with such digits and ends there can only be a number, with nothing but
  whitespace after it. -/
  number : ∀ digits c rest v, digits ≠ [] → (∀ d ∈ digits, HexDigit d) → c = '\r' ∨ c = ';' →
    fromStr (digits ++ c :: rest) = .ok v →
      c = '\r' ∧ (∀ d ∈ rest, d = ' ' ∨ d = '\n' ∨ d = '\r' ∨ d = '\t') ∧ v ≠ .null

section faithful

variable {fromStr : FromStr} {toHead : Bool} {r : Response}

/-- Chunks are no document. -/
theorem chunked_not_read (hgrammar : Grammar fromStr) {chunks : List Chunk}
    {last extension : Bytes} {trailers : List Field}
    (h : (Body.chunked chunks last extension trailers).WellFormed) {v : Json}
    (hread : fromStr (lossy (Body.chunked chunks last extension trailers).bytes) = .ok v) :
    chunks = [] ∧ v ≠ .null := by
  obtain ⟨size, x, rest, hbytes, hne, hhex, hx, hmore⟩ := Body.exists_chunked h
  have hsize : ∀ b ∈ size, b.toNat < 0x80 ∧ HexDigit (Char.ofNat b.toNat) := by
    intro b hb
    have hsome := hhex b hb
    have hrange : (0x30 ≤ b.toNat ∧ b.toNat ≤ 0x39) ∨ (0x41 ≤ b.toNat ∧ b.toNat ≤ 0x46) ∨
        (0x61 ≤ b.toNat ∧ b.toNat ≤ 0x66) := by
      rw [hexValue] at hsome
      split_ifs at hsome with hdigit hupper hlower
      · exact .inl hdigit
      · exact .inr (.inl hupper)
      · exact .inr (.inr hlower)
      · cases hsome
    have hascii : b.toNat < 0x80 := by omega
    refine ⟨hascii, ?_⟩
    rwa [HexDigit, toNat_ofNat (by omega)]
  have hdigits : ∀ d ∈ lossy size, HexDigit d := by
    intro d hd
    obtain ⟨b, hb, rfl⟩ := exists_of_mem_lossy (fun b hb => (hsize b hb).1) hd
    exact (hsize b hb).2
  have hsep : Char.ofNat x.toNat = '\r' ∨ Char.ofNat x.toNat = ';' := by
    rcases hx with hcr | hsemi
    · left
      rw [hcr]
    · right
      rw [hsemi]
  have hascii : x.toNat < 0x80 := by omega
  rw [hbytes, lossy_append (by simpa using hascii), lossy_one hascii] at hread
  obtain ⟨-, hspace, hnull⟩ := hgrammar.number _ _ _ _ (lossy_ne_nil hne) hdigits hsep hread
  refine ⟨?_, hnull⟩
  by_contra hchunks
  obtain ⟨p, q, hrest⟩ := hmore hchunks
  have hzero : '0' ∈ lossy rest := by
    rw [hrest, lossy_append (by simp), lossy_one (by decide)]
    exact List.mem_append_right _ List.mem_cons_self
  revert hspace
  simp only [imp_false, not_forall]
  exact ⟨'0', hzero, by decide⟩

theorem plain_read_iff (hgrammar : Grammar fromStr) (data : Bytes) :
    (∀ v, fromStr (lossy data) = .ok v ↔ JsonBody fromStr data v) ↔
      data ≠ [] ∧ (Valid data ∨ ∀ v, fromStr (lossy data) ≠ .ok v) := by
  constructor
  · intro h
    have hne : data ≠ [] := by
      intro hnil
      have hread := (h .null).mpr (.inl ⟨hnil, rfl⟩)
      rw [hnil] at hread
      exact hgrammar.empty _ hread
    refine ⟨hne, ?_⟩
    by_cases hvalid : Valid data
    · exact .inl hvalid
    · right
      intro v hread
      rcases (h v).mp hread with ⟨hnil, -⟩ | ⟨text, htext, -⟩
      · exact hne hnil
      · exact hvalid (valid_iff.mpr ⟨text, htext⟩)
  · rintro ⟨hne, hread⟩ v
    constructor
    · intro hv
      rcases hread with hvalid | hnone
      · exact .inr ⟨lossy data, hvalid, hv⟩
      · exact absurd hv (hnone v)
    · rintro (⟨hnil, -⟩ | ⟨text, rfl, hv⟩)
      · exact absurd hnil hne
      · rwa [lossy_encode]

theorem chunked_read_iff (hgrammar : Grammar fromStr) {chunks : List Chunk}
    {last extension : Bytes} {trailers : List Field}
    (h : (Body.chunked chunks last extension trailers).WellFormed) :
    (∀ v, fromStr (lossy (Body.chunked chunks last extension trailers).bytes) = .ok v ↔
        JsonBody fromStr (chunks.flatMap Chunk.data) v) ↔
      chunks.flatMap Chunk.data ≠ [] ∧ ∀ v, ¬ JsonBody fromStr (chunks.flatMap Chunk.data) v := by
  have hnone : chunks.flatMap Chunk.data ≠ [] →
      ∀ v, fromStr (lossy (Body.chunked chunks last extension trailers).bytes) ≠ .ok v := by
    intro hne v hread
    obtain ⟨hnil, -⟩ := chunked_not_read hgrammar h hread
    exact hne ((Body.payload_eq_nil h).mpr hnil)
  constructor
  · intro hiff
    have hne : chunks.flatMap Chunk.data ≠ [] := by
      intro hnil
      have hread := (hiff .null).mpr (.inl ⟨hnil, rfl⟩)
      exact (chunked_not_read hgrammar h hread).2 rfl
    exact ⟨hne, fun v hv => hnone hne v ((hiff v).mpr hv)⟩
  · rintro ⟨hne, hno⟩ v
    exact ⟨fun hread => absurd hread (hnone hne v), fun hv => absurd hv (hno v)⟩

theorem postFaithful_iff [JsonText] (hgrammar : Grammar fromStr) (h : r.WellFormed toHead)
    (urlPath : List Char) (body : Json) :
    PostFaithful fromStr urlPath body r ↔ PostHolds fromStr r := by
  have hpost : ∀ v, udsPost fromStr (answering r.bytes) urlPath body = .ok v ↔
      Success r.status ∧ fromStr (lossy r.body.bytes) = .ok v := by
    intro v
    change postReply fromStr r.bytes = .ok v ↔ _
    rw [postReply_bytes h]
    by_cases hs : Success r.status
    · rw [Success] at hs
      rw [if_neg (not_not.mpr hs)]
      exact ⟨fun hv => ⟨hs, hv⟩, fun hv => hv.2⟩
    · rw [Success] at hs
      rw [if_pos hs]
      exact ⟨fun hv => (by cases hv), fun hv => absurd hv.1 hs⟩
  have hfaithful : PostFaithful fromStr urlPath body r ↔ (Success r.status →
      ∀ v, fromStr (lossy r.body.bytes) = .ok v ↔ JsonBody fromStr r.body.payload v) := by
    simp only [PostFaithful, hpost, and_congr_right_iff]
    exact ⟨fun hall hs v => hall v hs, fun hall v hs => hall hs v⟩
  rw [hfaithful, PostHolds]
  apply imp_congr_right
  intro _
  have hbody := h.body
  cases hb : r.body with
  | plain data => exact plain_read_iff hgrammar data
  | chunked chunks last extension trailers =>
    rw [hb] at hbody
    exact chunked_read_iff hgrammar hbody

/-- The value of a field of a header that is a text is one. -/
theorem valid_value {f : Field} (h : f.WellFormed) (hne : f.value ≠ [])
    (hfirst : ∀ b ∈ f.value.head?, Graphic b) (hvalid : Valid f.bytes) : Valid f.value := by
  have hbytes : f.bytes = (f.name ++ 0x3A :: f.before) ++ (f.value ++ f.after) := by
    simp [Field.bytes]
  have hascii : ∀ b ∈ (f.value ++ f.after).head?, b.toNat < 0x80 := by
    intro b hb
    rw [List.head?_append_of_ne_nil _ hne] at hb
    exact (hfirst b hb).ascii
  have hafter : ∀ b ∈ f.after.head?, b.toNat < 0x80 :=
    fun b hb => (h.after b (List.mem_of_mem_head? hb)).ascii
  rw [hbytes, valid_append hascii] at hvalid
  exact ((valid_append hafter _).mp hvalid.2).1

theorem proxyFaithful_iff (h : r.WellFormed toHead) (method urlPath : List Char)
    (contentType : Option (List Char)) (body : Bytes) :
    ProxyFaithful method urlPath contentType body r ↔ ProxyHolds r := by
  have hproxy : udsProxy (answering r.bytes) method urlPath contentType body =
      if Valid r.header then .ok (r.status, r.body.bytes, r.contentType.map lossy)
      else .error "Non-UTF8 response headers" := proxyReply_bytes h
  rw [ProxyFaithful, hproxy, ProxyHolds]
  constructor
  · rintro ⟨ct, -, hok⟩
    split_ifs at hok with hvalid
    refine ⟨?_, hvalid⟩
    have hbytes : r.body.bytes = r.body.payload := by
      simp only [Except.ok.injEq, Prod.mk.injEq] at hok
      exact hok.2.1
    cases hb : r.body with
    | plain data => exact ⟨data, rfl⟩
    | chunked chunks last extension trailers =>
      have hlt : (Body.chunked chunks last extension trailers).payload.length <
          (Body.chunked chunks last extension trailers).bytes.length := Body.payload_lt
      rw [hb] at hbytes
      rw [hbytes] at hlt
      exact absurd hlt (lt_irrefl _)
  · rintro ⟨⟨data, hb⟩, hvalid⟩
    refine ⟨r.contentType.map lossy, ?_, ?_⟩
    · have hall := valid_of_valid_joined hvalid
      rw [Response.contentType]
      cases hf : (named "content-type" r.fields).head? with
      | none => rfl
      | some f =>
        have hmem := List.mem_of_mem_head? hf
        obtain ⟨hne, hfirst, -⟩ := h.contentType.2 f hmem
        have hfield : f ∈ r.fields := (List.mem_filter.mp hmem).1
        have hbytes := hall f.bytes (List.mem_cons_of_mem _ (List.mem_map_of_mem hfield))
        exact congrArg some (valid_value (h.fields f hfield) hne hfirst hbytes)
    · rw [if_pos hvalid, hb]
      rfl

end faithful

/-- A request is one for its path if the path needs no encoding; a response is read as it is
meant if its body is there, where one is needed, and in one piece. -/
theorem exchange_iff [JsonText] {fromStr : FromStr} (hgrammar : Grammar fromStr) :
    (∀ urlPath body, OneRequest urlPath body ↔ PlainPath urlPath) ∧
    (∀ urlPath body, ∀ r : Response, r.WellFormed false →
      (PostFaithful fromStr urlPath body r ↔ PostHolds fromStr r)) ∧
    ∀ method urlPath contentType body, ∀ r : Response,
      r.WellFormed (decide (method = "HEAD".toList)) →
        (ProxyFaithful method urlPath contentType body r ↔ ProxyHolds r) :=
  ⟨oneRequest_iff, fun urlPath body _ h => postFaithful_iff hgrammar h urlPath body,
    fun method urlPath contentType body _ h =>
      proxyFaithful_iff h method urlPath contentType body⟩

/-! A peer that says yes, one that has nothing to say, and one that says yes in chunks. -/
section answers

/-- On these texts it reads what any reader does. -/
def onlyTrue : FromStr := fun text =>
  if text = "true".toList then .ok (.bool true) else .error "expected value"

local instance trueText : JsonText := ⟨fun _ => "true"⟩

theorem grammar_onlyTrue : Grammar onlyTrue where
  empty := by
    intro v hv
    cases hv
  number := by
    intro digits c rest v hne hhex _ hv
    obtain ⟨d, ds, rfl⟩ := List.exists_cons_of_ne_nil hne
    rw [onlyTrue] at hv
    split_ifs at hv with htrue
    have hd : d = 't' := (List.cons.inj htrue).1
    have hhexd := hhex d List.mem_cons_self
    have ht : ¬ HexDigit 't' := by
      unfold HexDigit
      decide
    rw [hd] at hhexd
    exact absurd hhexd ht

def answer (status : Nat) (reason : String) (fields : List Field) (body : Body) : Response :=
  ⟨status, encode reason.toList, fields, body⟩

def yes : Response :=
  answer 200 "OK" [writtenField "Content-Type".toList "application/json".toList,
    writtenField "Content-Length".toList "4".toList] (.plain (encode "true".toList))

def nothing : Response :=
  answer 204 "No Content" [writtenField "Connection".toList "close".toList] (.plain [])

def yesInChunks : Response :=
  answer 200 "OK" [writtenField "Transfer-Encoding".toList "chunked".toList]
    (.chunked [⟨encode "4".toList, [], encode "true".toList⟩] (encode "0".toList) [] [])

theorem wellFormed_yes : yes.WellFormed false where
  status := by decide
  reason := by decide
  fields := by
    intro f hf
    simp only [yes, answer, List.mem_cons, List.not_mem_nil, or_false] at hf
    rcases hf with rfl | rfl
    · exact wellFormed_writtenField (by decide) (by decide)
    · exact wellFormed_writtenField (by decide) (by decide)
  body := trivial
  silent := fun hs => absurd hs (by decide)
  framed := by
    have hlength : named "content-length" yes.fields =
        [writtenField "Content-Length".toList "4".toList] := by
      simp only [yes, answer, named_cons]
      rfl
    have hcoding : named "transfer-encoding" yes.fields = [] := by
      simp only [yes, answer, named_cons]
      rfl
    intro _
    refine ⟨hcoding, ?_, ?_⟩
    · rw [hlength, List.length_singleton]
    · rw [hlength]
      decide
  lengthless := by decide
  contentType := by
    have htype : named "content-type" yes.fields =
        [writtenField "Content-Type".toList "application/json".toList] := by
      simp only [yes, answer, named_cons]
      rfl
    rw [htype]
    decide

theorem wellFormed_nothing : nothing.WellFormed false where
  status := by decide
  reason := by decide
  fields := by
    intro f hf
    rw [List.mem_singleton.mp hf]
    exact wellFormed_writtenField (by decide) (by decide)
  body := trivial
  silent := fun _ => rfl
  framed := fun hs => absurd (by decide) hs
  lengthless := by
    intro _
    simp only [nothing, answer, named_cons]
    exact ⟨rfl, rfl⟩
  contentType := by
    have htype : named "content-type" nothing.fields = [] := by
      simp only [nothing, answer, named_cons]
      rfl
    rw [htype]
    decide

theorem wellFormed_yesInChunks : yesInChunks.WellFormed false where
  status := by decide
  reason := by decide
  fields := by
    intro f hf
    rw [List.mem_singleton.mp hf]
    exact wellFormed_writtenField (by decide) (by decide)
  body := by
    refine ⟨?_, by decide, .inl rfl, fun f hf => absurd hf List.not_mem_nil⟩
    intro c hc
    rw [List.mem_singleton.mp hc]
    exact ⟨by decide, .inl rfl, by decide⟩
  silent := fun hs => absurd hs (by decide)
  framed := by
    have hlength : named "content-length" yesInChunks.fields = [] := by
      simp only [yesInChunks, answer, named_cons]
      rfl
    have hcoding : named "transfer-encoding" yesInChunks.fields =
        [writtenField "Transfer-Encoding".toList "chunked".toList] := by
      simp only [yesInChunks, answer, named_cons]
      rfl
    intro _
    refine ⟨hlength, _, hcoding, ?_⟩
    rw [writtenField, lossy_encode]
    decide
  lengthless := by decide
  contentType := by
    have htype : named "content-type" yesInChunks.fields = [] := by
      simp only [yesInChunks, answer, named_cons]
      rfl
    rw [htype]
    decide

theorem exchange_yes :
    OneRequest "/put/anchoralarm/navigation/anchor/state".toList (.bool true) ∧
      PostFaithful onlyTrue "/lifecycle".toList (.bool true) yes ∧
      ProxyFaithful "GET".toList "/plugins/charts/".toList none [] yes := by
  have hheader : yes.header = encode (joined '\r' '\n' ["HTTP/1.1 200 OK".toList,
      "Content-Type: application/json".toList, "Content-Length: 4".toList]) := by
    rw [encode_joined, Response.header]
    simp only [yes, answer, List.map_cons, List.map_nil, writtenField_bytes]
    rfl
  obtain ⟨hrequest, hpost, hproxy⟩ := exchange_iff grammar_onlyTrue
  refine ⟨(hrequest _ _).mpr (by decide), (hpost _ _ yes wellFormed_yes).mpr ?_,
    (hproxy "GET".toList _ _ _ yes wellFormed_yes).mpr ⟨⟨_, rfl⟩, ?_⟩⟩
  · intro _
    exact ⟨by decide, .inl (valid_encode _)⟩
  · rw [hheader]
    exact valid_encode _

/-- A space in a path, a success without a body, a body in chunks. -/
theorem exchange_astray :
    ¬ OneRequest "/put/charts/my chart".toList (.bool true) ∧
      (nothing.WellFormed false ∧ ¬ PostFaithful onlyTrue "/lifecycle".toList (.bool true) nothing) ∧
      (yesInChunks.WellFormed false ∧
        ¬ ProxyFaithful "GET".toList "/plugins/charts/".toList none [] yesInChunks) := by
  refine ⟨?_, ⟨wellFormed_nothing, ?_⟩, wellFormed_yesInChunks, ?_⟩
  · rw [oneRequest_iff]
    decide
  · rw [postFaithful_iff grammar_onlyTrue wellFormed_nothing]
    intro holds
    exact (holds (by unfold Success; decide)).1 rfl
  · rw [proxyFaithful_iff wellFormed_yesInChunks]
    rintro ⟨⟨data, hdata⟩, -⟩
    cases hdata

end answers

end Uds
end SignalK
