import SignalK.Lib.ReadBack
import SignalK.Lib.Significand
import SignalK.Lib.Xml
import SignalK.Tracks.Query
import SignalK.Types.FloatText

/-! The tracks as GPX, and what a reader of the document finds in it. -/
namespace SignalK.Tracks
open Xml (Content Element Clean CleanValue leaf onLines)

/-- A track with the label that the exporters know. -/
structure LabelledTrack extends VesselTrack where
  label : Option String
  deriving DecidableEq

/-- `{:.N}`: ties go to the even digit. -/
def fixed (places : Nat) (x : ℚ) : List Char :=
  let n := (Significand.halfEven (|x| * 10 ^ places)).toNat
  (if x < 0 then ['-'] else []) ++ (Nat.toDigits 10 (n / 10 ^ places) ++
    '.' :: Digits.digits places n)

/-- `str::replace` of a character -/
def replaceChar (c : Char) (t s : List Char) : List Char :=
  s.flatMap fun d => if d = c then t else [d]

def xmlEscape (s : String) : List Char :=
  replaceChar (Char.ofNat 39) "&apos;".toList (replaceChar '"' "&quot;".toList
    (replaceChar '>' "&gt;".toList (replaceChar '<' "&lt;".toList
      (replaceChar '&' "&amp;".toList s.toList))))

def gpxHeader : List Char :=
  "<?xml version=\"1.0\" encoding=\"UTF-8\"?>\n".toList ++
    "<gpx version=\"1.1\" creator=\"signalk-rs\" ".toList ++
    "xmlns=\"http://www.topografix.com/GPX/1/1\">\n".toList

/-- One of the lines of the extensions. -/
def extensionLine (name : String) (places : Nat) (x : Option ℚ) : List Char :=
  match x with
  | none => []
  | some x => "          <".toList ++ name.toList ++ ">".toList ++ fixed places x ++
      "</".toList ++ name.toList ++ ">\n".toList

def gpxPoint (point : QueriedPoint) : List Char :=
  "      <trkpt lat=\"".toList ++ fixed 6 point.lat ++ "\" lon=\"".toList ++ fixed 6 point.lon ++
    "\">\n".toList ++ "        <time>".toList ++ (Rfc3339.utc point.timestamp).toList ++
    "</time>\n".toList ++
    (if point.sog.isSome ∨ point.cog.isSome ∨ point.depth.isSome then
      "        <extensions>\n".toList ++ extensionLine "sog" 2 point.sog ++
        extensionLine "cog" 4 point.cog ++ extensionLine "depth" 1 point.depth ++
        "        </extensions>\n".toList
    else []) ++
    "      </trkpt>\n".toList

def gpxSegment (points : List QueriedPoint) : List Char :=
  "    <trkseg>\n".toList ++ points.flatMap gpxPoint ++ "    </trkseg>\n".toList

def gpxTrack (track : LabelledTrack) : List Char :=
  "  <trk>\n".toList ++
    "    <name>".toList ++ xmlEscape (track.label.getD track.context) ++ "</name>\n".toList ++
    "    <desc>context=".toList ++ xmlEscape track.context ++ "</desc>\n".toList ++
    track.segments.flatMap gpxSegment ++ "  </trk>\n".toList

def tracksToGpx (tracks : List LabelledTrack) : List Char :=
  gpxHeader ++ tracks.flatMap gpxTrack ++ "</gpx>\n".toList

/-! A reader: elements by their names, numbers and times by their grammars. -/

structure GpxTrack where
  name : String
  desc : String
  segments : List (List QueriedPoint)
  deriving DecidableEq

def readNumber (t : List Char) : Option ℚ :=
  match FloatText.parse (String.ofList t) with
  | some (.finite x) => some x
  | _ => none

def elementsNamed (name : String) (c : Content) : List Element :=
  c.siblings.filter fun e => decide (e.name = name.toList)

def readTime (c : Content) : Option Int :=
  (elementsNamed "time" c).head?.bind fun e =>
    (Rfc3339.parse (String.ofList e.children.string)).map (·.instant)

/-- A number that may be missing, among those of an element that may be missing. -/
def readExtension (name : String) (c : Content) : Option (Option ℚ) :=
  match (elementsNamed "extensions" c).head?.bind fun e =>
    (elementsNamed name e.children).head? with
  | none => some none
  | some e => (readNumber e.children.string).map some

def readPoint (e : Element) : Option QueriedPoint := do
  let lat ← (e.attributes.lookup "lat".toList).bind readNumber
  let lon ← (e.attributes.lookup "lon".toList).bind readNumber
  let time ← readTime e.children
  let sog ← readExtension "sog" e.children
  let cog ← readExtension "cog" e.children
  let depth ← readExtension "depth" e.children
  some ⟨lat, lon, time, sog, cog, depth⟩

def readSegment (e : Element) : Option (List QueriedPoint) :=
  (elementsNamed "trkpt" e.children).mapM readPoint

def readTrack (e : Element) : Option GpxTrack := do
  let name ← (elementsNamed "name" e.children).head?
  let desc ← (elementsNamed "desc" e.children).head?
  let segments ← (elementsNamed "trkseg" e.children).mapM readSegment
  some ⟨String.ofList name.children.string, String.ofList desc.children.string, segments⟩

/-- The tracks of a document. -/
def readGpx (text : List Char) : Option (List GpxTrack) :=
  (Xml.document text).bind fun c =>
    c.siblings.head?.bind fun root =>
      if root.name = "gpx".toList then (elementsNamed "trk" root.children).mapM readTrack
      else none

/-! What is left of the numbers. -/

/-- The nearest number with so many places. -/
def toPlaces (places : Nat) (x : ℚ) : ℚ :=
  (Significand.halfEven (x * 10 ^ places) : ℚ) / 10 ^ places

theorem abs_toPlaces_sub_le (places : Nat) (x : ℚ) :
    |toPlaces places x - x| ≤ 1 / 2 / 10 ^ places := by
  have hpow : (0 : ℚ) < 10 ^ places := by positivity
  have hdist := (Significand.nearest_halfEven (x * 10 ^ places)).dist_le
  have heq : toPlaces places x - x =
      ((Significand.halfEven (x * 10 ^ places) : ℚ) - x * 10 ^ places) / 10 ^ places := by
    rw [toPlaces]
    field_simp
  rw [heq, abs_div, abs_of_pos hpow]
  exact div_le_div_of_nonneg_right hdist hpow.le

theorem halfEven_nonneg {x : ℚ} (h : 0 ≤ x) : 0 ≤ Significand.halfEven x := by
  by_contra hneg
  have hdist := (Significand.nearest_halfEven x).dist_le
  have hle : (Significand.halfEven x : ℚ) ≤ -1 := by
    exact_mod_cast Int.le_sub_one_of_lt (not_le.mp hneg)
  rw [abs_le] at hdist
  linarith

/-- The digits of the absolute value, with the sign, are those of the nearest number. -/
theorem toPlaces_eq (places : Nat) (x : ℚ) :
    toPlaces places x = (if x < 0 then -1 else 1) *
      (((Significand.halfEven (|x| * 10 ^ places)).toNat : ℚ) / 10 ^ places) := by
  have hnonneg : 0 ≤ Significand.halfEven (|x| * 10 ^ places) :=
    halfEven_nonneg (by positivity)
  have hcast : ((Significand.halfEven (|x| * 10 ^ places)).toNat : ℚ) =
      (Significand.halfEven (|x| * 10 ^ places) : ℚ) := by
    exact_mod_cast Int.toNat_of_nonneg hnonneg
  rw [hcast, toPlaces]
  split
  · rename_i hneg
    rw [abs_of_neg hneg, neg_mul x, Significand.halfEven_neg]
    push_cast
    ring
  · rename_i hpos
    rw [abs_of_nonneg (not_lt.mp hpos), one_mul]

/-! Numbers are read as they are written. -/

theorem isDigit_digit (n : Nat) : (Digits.digit n).isDigit = true := by
  have hlt : n % 10 < 10 := Nat.mod_lt n (by decide)
  unfold Digits.digit
  interval_cases n % 10 <;> decide

theorem value_of_isDigit {c : Char} (h : c.isDigit = true) :
    Digits.value c = some (c.toNat - 48) := by
  have hrange : 48 ≤ c.toNat ∧ c.toNat ≤ 57 := by
    simpa [Char.isDigit, UInt32.le_iff_toNat_le] using h
  rw [Digits.value, if_pos hrange]

theorem spanDigits_append {ds rest : List Char} (h : ∀ c ∈ ds, c.isDigit = true)
    (hrest : FloatText.spanDigits rest = ([], rest)) :
    FloatText.spanDigits (ds ++ rest) = (ds.map fun c => c.toNat - 48, rest) := by
  induction ds with
  | nil => exact hrest
  | cons c ds ih =>
    obtain ⟨hc, hds⟩ := List.forall_mem_cons.mp h
    rw [List.cons_append, FloatText.spanDigits, value_of_isDigit hc]
    simp only [ih hds, List.map_cons]

theorem ofList_toDigits (n : Nat) :
    Digits.ofList ((Nat.toDigits 10 n).map fun c => c.toNat - 48) = n := by
  have hread := Nat.ofDigitChars_ten_toDigits (n := n)
  rw [Nat.ofDigitChars_eq_foldl] at hread
  rw [Digits.ofList, List.foldl_map]
  exact hread

theorem map_digits (w n : Nat) :
    (Digits.digits w n).map (fun c => c.toNat - 48) = Digits.values w n := by
  induction w generalizing n with
  | zero => rfl
  | succ w ih => simp [Digits.digits, Digits.values, ih, Digits.toNat_digit]

theorem ofList_append_values (ds : List Nat) (w n : Nat) :
    Digits.ofList (ds ++ Digits.values w n) = Digits.ofList ds * 10 ^ w + n % 10 ^ w := by
  induction w generalizing n with
  | zero => simp [Digits.values, Nat.mod_one]
  | succ w ih =>
    have hmod : n % 10 ^ (w + 1) = 10 * (n / 10 % 10 ^ w) + n % 10 := by
      rw [Nat.pow_succ', Nat.mod_mul]
      omega
    rw [Digits.values, ← List.append_assoc, Digits.ofList_append_one, ih, hmod, Nat.pow_succ]
    ring

theorem sign_digits {ds : List Char} (hne : ds ≠ []) (h : ∀ c ∈ ds, c.isDigit = true)
    (rest : List Char) : FloatText.sign (ds ++ rest) = (false, ds ++ rest) := by
  obtain ⟨c, cs, rfl⟩ := List.exists_cons_of_ne_nil hne
  have hc := h c List.mem_cons_self
  have hminus : c ≠ '-' := fun he => absurd (he ▸ hc) (by decide)
  have hplus : c ≠ '+' := fun he => absurd (he ▸ hc) (by decide)
  rw [List.cons_append, FloatText.sign, if_neg hminus, if_neg hplus]

theorem number_fixed {places : Nat} (n : Nat) :
    FloatText.number (Nat.toDigits 10 (n / 10 ^ places) ++ '.' :: Digits.digits places n) =
      some ((n : ℚ) / 10 ^ places) := by
  have hwhole : FloatText.spanDigits
      (Nat.toDigits 10 (n / 10 ^ places) ++ '.' :: Digits.digits places n) =
      ((Nat.toDigits 10 (n / 10 ^ places)).map fun c => c.toNat - 48,
        '.' :: Digits.digits places n) :=
    spanDigits_append (fun _ hc => Nat.isDigit_of_mem_toDigits (by decide) (by decide) hc) rfl
  have hfraction : FloatText.spanDigits (Digits.digits places n ++ []) =
      ((Digits.digits places n).map fun c => c.toNat - 48, []) := by
    refine spanDigits_append (fun c hc => ?_) rfl
    obtain ⟨d, rfl⟩ := Digits.mem_digits hc
    exact isDigit_digit d
  rw [List.append_nil, map_digits] at hfraction
  have hvalue : Digits.ofList (((Nat.toDigits 10 (n / 10 ^ places)).map fun c => c.toNat - 48) ++
      Digits.values places n) = n := by
    rw [ofList_append_values, ofList_toDigits]
    exact Nat.div_add_mod' n (10 ^ places)
  have hne : (Nat.toDigits 10 (n / 10 ^ places)).map (fun c => c.toNat - 48) ≠ [] := fun hnil =>
    Nat.toDigits_ne_nil (List.map_eq_nil_iff.mp hnil)
  rw [FloatText.number, hwhole]
  simp [FloatText.fraction, hfraction, hne, FloatText.exponent, hvalue, div_eq_mul_inv]

theorem readNumber_fixed (places : Nat) (x : ℚ) :
    readNumber (fixed places x) = some (toPlaces places x) := by
  have hsign := sign_digits (Nat.toDigits_ne_nil (b := 10)
    (n := (Significand.halfEven (|x| * 10 ^ places)).toNat / 10 ^ places))
    (fun _ hc => Nat.isDigit_of_mem_toDigits (by decide) (by decide) hc)
    ('.' :: Digits.digits places (Significand.halfEven (|x| * 10 ^ places)).toNat)
  rw [toPlaces_eq, readNumber, FloatText.parse, String.toList_ofList, fixed]
  by_cases hneg : x < 0
  · simp [hneg, FloatText.sign, number_fixed]
  · simp [hneg, hsign, number_fixed]

/-! Numbers and times are texts without anything that XML reserves. -/

/-- Digits and the marks between them. -/
def isPlain (c : Char) : Bool :=
  c.isDigit || c = '-' || c = '.' || c = '+' || c = ':' || c = 'T'

theorem plain_digits {w n : Nat} {c : Char} (h : c ∈ Digits.digits w n) : isPlain c = true := by
  obtain ⟨d, rfl⟩ := Digits.mem_digits h
  simp [isPlain, isDigit_digit]

theorem plain_fixed {places : Nat} {x : ℚ} {c : Char} (h : c ∈ fixed places x) :
    isPlain c = true := by
  simp only [fixed, List.mem_append, List.mem_cons] at h
  rcases h with h | h | rfl | h
  · split at h
    · obtain rfl := List.mem_singleton.mp h
      decide
    · exact absurd h List.not_mem_nil
  · have hdigit : c.isDigit = true :=
      Nat.isDigit_of_mem_toDigits (by decide) (by decide) h
    simp [isPlain, hdigit]
  · decide
  · exact plain_digits h

theorem plain_utc {t : Int} {c : Char} (h : c ∈ (Rfc3339.utc t).toList) : isPlain c = true := by
  have hyear : ∀ y, c ∈ Rfc3339.yearText y → isPlain c = true := by
    intro y hy
    unfold Rfc3339.yearText at hy
    dsimp only at hy
    split_ifs at hy
    all_goals
      first
        | exact plain_digits hy
        | (rcases List.mem_cons.mp hy with rfl | hy
           · decide
           · exact plain_digits hy)
  have hfraction : ∀ n, c ∈ Rfc3339.fraction n → isPlain c = true := by
    intro n hn
    unfold Rfc3339.fraction at hn
    split_ifs at hn
    · exact absurd hn List.not_mem_nil
    all_goals
      rcases List.mem_cons.mp hn with rfl | hn
      · decide
      · exact plain_digits hn
  simp only [Rfc3339.utc, Rfc3339.toRfc3339, Rfc3339.text, String.toList_ofList,
    Rfc3339.dateText, Rfc3339.clockText, Rfc3339.offsetText, List.mem_append, List.mem_cons] at h
  grind [plain_digits, isPlain]

theorem ne_of_plain {c d : Char} (hc : isPlain c = true) (hd : isPlain d = false) : c ≠ d := by
  rintro rfl
  rw [hc] at hd
  exact Bool.noConfusion hd

theorem escapeChar_plain {c : Char} (h : isPlain c = true) : Xml.escapeChar c = [c] := by
  rw [Xml.escapeChar, if_neg (ne_of_plain h (by decide)), if_neg (ne_of_plain h (by decide)),
    if_neg (ne_of_plain h (by decide)), if_neg (ne_of_plain h (by decide)),
    if_neg (ne_of_plain h (by decide))]

theorem isChar_plain {c : Char} (h : isPlain c = true) :
    Xml.isChar c = true ∧ Xml.isSpace c = false := by
  have hspace : Xml.isSpace c = false := by
    simp [Xml.isSpace, ne_of_plain h (d := ' ') (by decide),
      ne_of_plain h (d := '\t') (by decide), ne_of_plain h (d := '\n') (by decide),
      ne_of_plain h (d := '\r') (by decide)]
  refine ⟨?_, hspace⟩
  simp only [isPlain, Bool.or_eq_true, decide_eq_true_eq] at h
  rcases h with ((((h | rfl) | rfl) | rfl) | rfl) | rfl
  · have hrange : 48 ≤ c.toNat ∧ c.toNat ≤ 57 := by
      simpa [Char.isDigit, UInt32.le_iff_toNat_le] using h
    simp only [Xml.isChar, Bool.or_eq_true, Bool.and_eq_true, decide_eq_true_eq]
    exact .inr (by omega)
  all_goals decide

/-! The document as elements. -/

/-- A line of the extensions, if there is a number. -/
def extensionElement (name : String) (places : Nat) (x : Option ℚ) : List Element :=
  (x.map fun x => ⟨name.toList, [], leaf (fixed places x)⟩).toList

def extensionElements (point : QueriedPoint) : List Element :=
  extensionElement "sog" 2 point.sog ++ extensionElement "cog" 4 point.cog ++
    extensionElement "depth" 1 point.depth

def pointElement (point : QueriedPoint) : Element where
  name := "trkpt".toList
  attributes := [("lat".toList, fixed 6 point.lat), ("lon".toList, fixed 6 point.lon)]
  children := onLines 6 (⟨"time".toList, [], leaf (Rfc3339.utc point.timestamp).toList⟩ ::
    if extensionElements point = [] then []
    else [⟨"extensions".toList, [], onLines 8 (extensionElements point)⟩])

def segmentElement (points : List QueriedPoint) : Element where
  name := "trkseg".toList
  attributes := []
  children := onLines 4 (points.map pointElement)

def trackElement (track : LabelledTrack) : Element where
  name := "trk".toList
  attributes := []
  children := onLines 2 (
    ⟨"name".toList, [], leaf (track.label.getD track.context).toList⟩ ::
      ⟨"desc".toList, [], leaf ("context=" ++ track.context).toList⟩ ::
      track.segments.map segmentElement)

def gpxAttributes : List (List Char × List Char) :=
  [("version".toList, "1.1".toList), ("creator".toList, "signalk-rs".toList),
    ("xmlns".toList, "http://www.topografix.com/GPX/1/1".toList)]

def gpxContent (tracks : List LabelledTrack) : Content :=
  .text ['\n'] (.element "gpx".toList gpxAttributes (onLines 0 (tracks.map trackElement))
    (.text ['\n'] .nil))

/-! The text is the one of these elements. -/

theorem replaceChar_append (c : Char) (t s u : List Char) :
    replaceChar c t (s ++ u) = replaceChar c t s ++ replaceChar c t u :=
  List.flatMap_append

/-- Replacing one character after the other is replacing each once. -/
theorem xmlEscape_eq (s : String) : xmlEscape s = Xml.escape s.toList := by
  rw [xmlEscape]
  generalize s.toList = cs
  induction cs with
  | nil => rfl
  | cons c cs ih =>
    have hcons : Xml.escape (c :: cs) = Xml.escapeChar c ++ Xml.escape cs := rfl
    rw [hcons, ← ih, ← List.singleton_append]
    simp only [replaceChar_append]
    congr 1
    unfold Xml.escapeChar
    split_ifs with hamp hlt hgt hquot hapos
    · subst hamp
      decide
    · subst hlt
      decide
    · subst hgt
      decide
    · subst hquot
      decide
    · subst hapos
      decide
    · simp [replaceChar, hamp, hlt, hgt, hquot, hapos]

theorem escape_fixed (places : Nat) (x : ℚ) : Xml.escape (fixed places x) = fixed places x :=
  Xml.escape_eq fun _ hc => escapeChar_plain (plain_fixed hc)

theorem escape_utc (t : Int) : Xml.escape (Rfc3339.utc t).toList = (Rfc3339.utc t).toList :=
  Xml.escape_eq fun _ hc => escapeChar_plain (plain_utc hc)

theorem line_extension (name : String) (places : Nat) (x : Option ℚ) :
    (extensionElement name places x).flatMap (Xml.line 10) = extensionLine name places x := by
  cases x with
  | none => rfl
  | some x =>
    have hsingle : (extensionElement name places (some x)).flatMap (Xml.line 10) =
        Xml.line 10 ⟨name.toList, [], leaf (fixed places x)⟩ := List.append_nil _
    unfold extensionLine
    rw [hsingle, Xml.line_plain, Xml.render_leaf, escape_fixed]
    simp [Xml.spaces]

theorem extensionElements_eq_nil (point : QueriedPoint) : extensionElements point = [] ↔
    ¬ (point.sog.isSome ∨ point.cog.isSome ∨ point.depth.isSome) := by
  obtain ⟨lat, lon, time, sog, cog, depth⟩ := point
  cases sog <;> cases cog <;> cases depth <;> simp [extensionElements, extensionElement]

theorem line_point (point : QueriedPoint) :
    Xml.line 6 (pointElement point) = gpxPoint point := by
  have hext : (extensionElements point).flatMap (Xml.line 10) =
      extensionLine "sog" 2 point.sog ++ extensionLine "cog" 4 point.cog ++
        extensionLine "depth" 1 point.depth := by
    simp only [extensionElements, List.flatMap_append, line_extension]
  have htime : Xml.line 8 ⟨"time".toList, [], leaf (Rfc3339.utc point.timestamp).toList⟩ =
      "        <time>".toList ++ (Rfc3339.utc point.timestamp).toList ++ "</time>\n".toList := by
    rw [Xml.line_plain, Xml.render_leaf, escape_utc]
    simp [Xml.spaces]
  have hattributes : Xml.renderAttributes (pointElement point).attributes =
      " lat=\"".toList ++ fixed 6 point.lat ++ "\" lon=\"".toList ++ fixed 6 point.lon ++
        "\"".toList := by
    have hcons := Xml.renderAttributes_cons ("lat".toList, fixed 6 point.lat)
      [("lon".toList, fixed 6 point.lon)] []
    have hlast := Xml.renderAttributes_cons ("lon".toList, fixed 6 point.lon) [] []
    rw [List.append_nil] at hcons hlast
    rw [pointElement, hcons, List.append_nil, hlast, escape_fixed, escape_fixed]
    simp [Xml.renderAttributes]
  unfold gpxPoint
  rw [Xml.line, hattributes]
  simp only [pointElement]
  by_cases hnil : extensionElements point = []
  · rw [if_pos hnil, if_neg ((extensionElements_eq_nil point).mp hnil), Xml.render_onLines,
      List.flatMap_singleton, htime]
    simp [Xml.spaces]
  · rw [if_neg hnil, if_pos (not_not.mp (mt (extensionElements_eq_nil point).mpr hnil)),
      Xml.render_onLines, List.flatMap_cons, htime, List.flatMap_singleton, Xml.line_plain,
      Xml.render_onLines, hext]
    simp [Xml.spaces]

theorem line_segment (points : List QueriedPoint) :
    Xml.line 4 (segmentElement points) = gpxSegment points := by
  unfold gpxSegment
  rw [segmentElement, Xml.line_plain, Xml.render_onLines, List.flatMap_map]
  simp [Xml.spaces, line_point]

theorem line_track (track : LabelledTrack) :
    Xml.line 2 (trackElement track) = gpxTrack track := by
  have hcontext : Xml.escape ("context=" ++ track.context).toList =
      "context=".toList ++ xmlEscape track.context := by
    rw [String.toList_append, Xml.escape, List.flatMap_append, xmlEscape_eq]
    rfl
  unfold gpxTrack
  rw [trackElement, Xml.line_plain, Xml.render_onLines, List.flatMap_cons, List.flatMap_cons,
    List.flatMap_map, Xml.line_plain, Xml.line_plain, Xml.render_leaf, Xml.render_leaf, hcontext,
    xmlEscape_eq (track.label.getD track.context)]
  simp [Xml.spaces, line_segment]

theorem tracksToGpx_eq (tracks : List LabelledTrack) :
    tracksToGpx tracks = ['<', '?', 'x', 'm', 'l', ' '] ++
      "version=\"1.0\" encoding=\"UTF-8\"".toList ++ ['?', '>'] ++
      Xml.render (gpxContent tracks) := by
  have hattributes : Xml.renderAttributes gpxAttributes =
      " version=\"1.1\" creator=\"signalk-rs\" ".toList ++
        "xmlns=\"http://www.topografix.com/GPX/1/1\"".toList := by
    decide
  have hescape : Xml.escape ['\n'] = ['\n'] := by decide
  unfold tracksToGpx gpxHeader
  rw [gpxContent, Xml.render, Xml.render, Xml.render, Xml.render_onLines, hattributes,
    List.flatMap_map, hescape, Xml.render]
  simp [Xml.spaces, line_track]

/-! It is well formed. -/

/-- Names of characters that XML keeps as they are, and times of years with four digits. -/
structure LabelledTrack.Printable (track : LabelledTrack) : Prop where
  context : Clean track.context.toList
  label : ∀ label ∈ track.label, Clean label.toList
  times : ∀ points ∈ track.segments, ∀ point ∈ points, Rfc3339.FourDigit point.timestamp

theorem LabelledTrack.Printable.name {track : LabelledTrack} (h : track.Printable) :
    Clean (track.label.getD track.context).toList := by
  cases hlabel : track.label with
  | none => exact h.context
  | some label => exact h.label label hlabel

theorem clean_plain {t : List Char} (h : ∀ c ∈ t, isPlain c = true) : Clean t := fun c hc =>
  ⟨(isChar_plain (h c hc)).1, ne_of_plain (h c hc) (by decide)⟩

theorem cleanValue_plain {t : List Char} (h : ∀ c ∈ t, isPlain c = true) : CleanValue t :=
  fun c hc => ⟨(isChar_plain (h c hc)).1, fun hspace => by
    rw [(isChar_plain (h c hc)).2] at hspace
    exact Bool.noConfusion hspace⟩

theorem valid_plain {name : List Char} (hname : Xml.isName name = true) {children : Content}
    (h : children.Valid) : Element.Valid ⟨name, [], children⟩ :=
  ⟨hname, fun _ ha => absurd ha List.not_mem_nil, List.nodup_nil, h⟩

theorem valid_extension {name : String} (hname : Xml.isName name.toList = true) (places : Nat)
    (x : Option ℚ) : ∀ e ∈ extensionElement name places x, e.Valid := by
  intro e he
  cases x with
  | none => exact absurd he List.not_mem_nil
  | some x =>
    obtain rfl := List.mem_singleton.mp he
    exact valid_plain hname (Xml.valid_leaf (clean_plain fun _ hc => plain_fixed hc))

theorem valid_point (point : QueriedPoint) : (pointElement point).Valid := by
  have hext : ∀ e ∈ extensionElements point, e.Valid := by
    intro e he
    simp only [extensionElements, List.mem_append] at he
    rcases he with (he | he) | he
    · exact valid_extension (by decide) 2 point.sog e he
    · exact valid_extension (by decide) 4 point.cog e he
    · exact valid_extension (by decide) 1 point.depth e he
  have hname : Xml.isName "trkpt".toList = true := by decide
  have hlat : Xml.isName "lat".toList = true := by decide
  have hlon : Xml.isName "lon".toList = true := by decide
  refine ⟨hname, ?_, ?_, Xml.valid_onLines 6 (List.forall_mem_cons.mpr ⟨?_, ?_⟩)⟩
  · refine List.forall_mem_cons.mpr ⟨⟨hlat, cleanValue_plain fun _ hc => plain_fixed hc⟩, ?_⟩
    exact List.forall_mem_cons.mpr ⟨⟨hlon, cleanValue_plain fun _ hc => plain_fixed hc⟩,
      fun _ ha => absurd ha List.not_mem_nil⟩
  · have hnames : ["lat".toList, "lon".toList].Nodup := by decide
    exact hnames
  · exact valid_plain (by decide) (Xml.valid_leaf (clean_plain fun _ hc => plain_utc hc))
  · intro e he
    split at he
    · exact absurd he List.not_mem_nil
    · obtain rfl := List.mem_singleton.mp he
      exact valid_plain (by decide) (Xml.valid_onLines 8 hext)

theorem valid_segment (points : List QueriedPoint) : (segmentElement points).Valid := by
  refine valid_plain (by decide) (Xml.valid_onLines 4 fun e he => ?_)
  obtain ⟨point, -, rfl⟩ := List.mem_map.mp he
  exact valid_point point

theorem valid_track {track : LabelledTrack} (h : track.Printable) :
    (trackElement track).Valid := by
  have hdesc : Clean ("context=" ++ track.context).toList := by
    rw [String.toList_append]
    intro c hc
    rcases List.mem_append.mp hc with hc | hc
    · exact Xml.clean_of_all (by decide) c hc
    · exact h.context c hc
  refine valid_plain (by decide) (Xml.valid_onLines 2 ?_)
  refine List.forall_mem_cons.mpr ⟨valid_plain (by decide) (Xml.valid_leaf h.name), ?_⟩
  refine List.forall_mem_cons.mpr ⟨valid_plain (by decide) (Xml.valid_leaf hdesc), fun e he => ?_⟩
  obtain ⟨points, -, rfl⟩ := List.mem_map.mp he
  exact valid_segment points

theorem valid_gpx {tracks : List LabelledTrack} (h : ∀ t ∈ tracks, t.Printable) :
    (gpxContent tracks).Valid := by
  have hline : Clean ['\n'] := Xml.clean_of_all (by decide)
  have hattributes : ∀ a ∈ gpxAttributes, Xml.isName a.1 = true ∧ CleanValue a.2 := by
    intro a ha
    have hall : gpxAttributes.all (fun a => Xml.isName a.1 && a.2.all fun c =>
        Xml.isChar c && (!Xml.isSpace c || decide (c = ' '))) = true := by
      decide
    have hchars := List.all_eq_true.mp hall a ha
    simp only [Bool.and_eq_true, List.all_eq_true] at hchars
    refine ⟨hchars.1, fun c hc => ⟨(hchars.2 c hc).1, fun hspace => ?_⟩⟩
    simpa [hspace] using (hchars.2 c hc).2
  refine ⟨List.cons_ne_nil _ _, hline, fun s rest htext => Content.noConfusion htext, by decide,
    hattributes, by decide, Xml.valid_onLines 0 fun e he => ?_, List.cons_ne_nil _ _, hline,
    fun s rest hnil => Content.noConfusion hnil, trivial⟩
  obtain ⟨track, htrack, rfl⟩ := List.mem_map.mp he
  exact valid_track (h track htrack)

/-! What is read. -/

/-- A point with the digits that are printed. -/
def QueriedPoint.printed (point : QueriedPoint) : QueriedPoint where
  lat := toPlaces 6 point.lat
  lon := toPlaces 6 point.lon
  timestamp := point.timestamp
  sog := point.sog.map (toPlaces 2)
  cog := point.cog.map (toPlaces 4)
  depth := point.depth.map (toPlaces 1)

/-- What the printed digits leave of a point. -/
structure QueriedPoint.Close (point other : QueriedPoint) : Prop where
  lat : |other.lat - point.lat| ≤ 1 / 2000000
  lon : |other.lon - point.lon| ≤ 1 / 2000000
  timestamp : other.timestamp = point.timestamp
  sog : Option.Rel (fun x y => |y - x| ≤ 1 / 200) point.sog other.sog
  cog : Option.Rel (fun x y => |y - x| ≤ 1 / 20000) point.cog other.cog
  depth : Option.Rel (fun x y => |y - x| ≤ 1 / 20) point.depth other.depth

theorem rel_toPlaces {places : Nat} {d : ℚ} (hd : 1 / 2 / 10 ^ places = d) (x : Option ℚ) :
    Option.Rel (fun x y => |y - x| ≤ d) x (x.map (toPlaces places)) := by
  cases x with
  | none => exact .none
  | some x => exact .some (hd ▸ abs_toPlaces_sub_le places x)

theorem close_printed (point : QueriedPoint) : point.Close point.printed where
  lat := (abs_toPlaces_sub_le 6 point.lat).trans_eq (by norm_num)
  lon := (abs_toPlaces_sub_le 6 point.lon).trans_eq (by norm_num)
  timestamp := rfl
  sog := rel_toPlaces (by norm_num) point.sog
  cog := rel_toPlaces (by norm_num) point.cog
  depth := rel_toPlaces (by norm_num) point.depth

/-- What a track is in GPX. -/
def LabelledTrack.gpx (track : LabelledTrack) : GpxTrack where
  name := track.label.getD track.context
  desc := "context=" ++ track.context
  segments := track.segments.map (·.map QueriedPoint.printed)

theorem elementsNamed_onLines (name : String) (indent : Nat) (es : List Element) :
    elementsNamed name (onLines indent es) = es.filter fun e => decide (e.name = name.toList) := by
  rw [elementsNamed, Xml.siblings_onLines]

theorem filter_extension (name other : String) (places : Nat) (x : Option ℚ) :
    (extensionElement other places x).filter (fun e => decide (e.name = name.toList)) =
      if other = name then extensionElement other places x else [] := by
  cases x with
  | none => simp [extensionElement]
  | some x =>
    by_cases hname : other = name
    · simp [extensionElement, hname]
    · simp [extensionElement, hname, String.toList_inj]

theorem filter_extensions (name : String) (point : QueriedPoint) :
    (extensionElements point).filter (fun e => decide (e.name = name.toList)) =
      (if "sog" = name then extensionElement "sog" 2 point.sog else []) ++
        (if "cog" = name then extensionElement "cog" 4 point.cog else []) ++
        (if "depth" = name then extensionElement "depth" 1 point.depth else []) := by
  rw [extensionElements, List.filter_append, List.filter_append, filter_extension,
    filter_extension, filter_extension]

theorem readExtension_point {name : String} {places : Nat} {x : Option ℚ} {point : QueriedPoint}
    (h : (extensionElements point).filter (fun e => decide (e.name = name.toList)) =
      extensionElement name places x) :
    readExtension name (pointElement point).children = some (x.map (toPlaces places)) := by
  by_cases hnil : extensionElements point = []
  · rw [hnil, List.filter_nil] at h
    cases x with
    | none =>
      simp [readExtension, pointElement, elementsNamed_onLines, hnil]
    | some x => exact absurd h (List.cons_ne_nil _ _).symm
  · have hmap : elementsNamed "extensions" (pointElement point).children =
        [⟨"extensions".toList, [], onLines 8 (extensionElements point)⟩] := by
      rw [pointElement, elementsNamed_onLines, if_neg hnil]
      simp
    rw [readExtension, hmap]
    simp only [List.head?_cons, Option.bind_some, elementsNamed_onLines, h]
    cases x with
    | none => rfl
    | some x => simp [extensionElement, readNumber_fixed]

theorem readPoint_element {point : QueriedPoint} (h : Rfc3339.FourDigit point.timestamp) :
    readPoint (pointElement point) = some point.printed := by
  have hsog : readExtension "sog" (pointElement point).children =
      some (point.sog.map (toPlaces 2)) :=
    readExtension_point (by rw [filter_extensions]; simp)
  have hcog : readExtension "cog" (pointElement point).children =
      some (point.cog.map (toPlaces 4)) :=
    readExtension_point (by rw [filter_extensions]; simp)
  have hdepth : readExtension "depth" (pointElement point).children =
      some (point.depth.map (toPlaces 1)) :=
    readExtension_point (by rw [filter_extensions]; simp)
  have htime : readTime (pointElement point).children = some point.timestamp := by
    rw [readTime, pointElement, elementsNamed_onLines, List.filter_cons_of_pos (by simp),
      List.head?_cons, Option.bind_some, Xml.string_leaf, String.ofList_toList,
      Rfc3339.parse_utc h]
    rfl
  have hlat : (pointElement point).attributes.lookup "lat".toList =
      some (fixed 6 point.lat) := rfl
  have hlon : (pointElement point).attributes.lookup "lon".toList =
      some (fixed 6 point.lon) := rfl
  rw [readPoint, hlat, hlon, htime, hsog, hcog, hdepth]
  simp only [Option.bind_some, readNumber_fixed]
  rfl

theorem elementsNamed_map {α : Type} {name : String} {f : α → Element}
    (h : ∀ a, (f a).name = name.toList) (indent : Nat) (front : List Element)
    (hfront : ∀ e ∈ front, e.name ≠ name.toList) (as : List α) :
    elementsNamed name (onLines indent (front ++ as.map f)) = as.map f := by
  have hnone : front.filter (fun e => decide (e.name = name.toList)) = [] :=
    List.filter_eq_nil_iff.mpr fun e he => by simpa using hfront e he
  have hall : (as.map f).filter (fun e => decide (e.name = name.toList)) = as.map f := by
    refine List.filter_eq_self.mpr fun e he => ?_
    obtain ⟨a, -, rfl⟩ := List.mem_map.mp he
    exact decide_eq_true (h a)
  rw [elementsNamed_onLines, List.filter_append, hnone, hall, List.nil_append]

theorem mapM_map {α β γ : Type} {as : List α} {f : α → β} {g : β → Option γ} {k : α → γ}
    (h : ∀ a ∈ as, g (f a) = some (k a)) : (as.map f).mapM g = some (as.map k) := by
  induction as with
  | nil => rfl
  | cons a as ih =>
    obtain ⟨ha, has⟩ := List.forall_mem_cons.mp h
    rw [List.map_cons, List.mapM_cons, ha, ih has]
    rfl

theorem readSegment_element {points : List QueriedPoint}
    (h : ∀ p ∈ points, Rfc3339.FourDigit p.timestamp) :
    readSegment (segmentElement points) = some (points.map QueriedPoint.printed) := by
  have hnamed : elementsNamed "trkpt" (segmentElement points).children =
      points.map pointElement :=
    elementsNamed_map (fun _ => rfl) 4 [] (fun _ he => absurd he List.not_mem_nil) points
  rw [readSegment, hnamed]
  exact mapM_map fun p hp => readPoint_element (h p hp)

theorem readTrack_element {track : LabelledTrack} (h : track.Printable) :
    readTrack (trackElement track) = some track.gpx := by
  have hsegments : elementsNamed "trkseg" (trackElement track).children =
      track.segments.map segmentElement := by
    refine elementsNamed_map (fun _ => rfl) 2 [⟨_, _, _⟩, ⟨_, _, _⟩] ?_ track.segments
    intro e he
    simp only [List.mem_cons, List.not_mem_nil, or_false] at he
    rcases he with rfl | rfl
    · have hne : "name".toList ≠ "trkseg".toList := by decide
      exact hne
    · have hne : "desc".toList ≠ "trkseg".toList := by decide
      exact hne
  have hname : (elementsNamed "name" (trackElement track).children).head? =
      some ⟨"name".toList, [], leaf (track.label.getD track.context).toList⟩ := by
    rw [trackElement, elementsNamed_onLines, List.filter_cons_of_pos (by simp), List.head?_cons]
  have hdesc : (elementsNamed "desc" (trackElement track).children).head? =
      some ⟨"desc".toList, [], leaf ("context=" ++ track.context).toList⟩ := by
    rw [trackElement, elementsNamed_onLines, List.filter_cons_of_neg (by simp),
      List.filter_cons_of_pos (by simp), List.head?_cons]
  have hread : (track.segments.map segmentElement).mapM readSegment =
      some (track.segments.map (·.map QueriedPoint.printed)) :=
    mapM_map fun points hpoints => readSegment_element (h.times points hpoints)
  rw [readTrack, hname, hdesc, hsegments, hread]
  simp only [Option.bind_eq_bind, Option.bind_some, Xml.string_leaf, String.ofList_toList]
  rfl

/-- What a reader finds in the file is what was asked for: all names, segments and times, and
every number to the places that are printed. -/
theorem gpx_read_back (tracks : List LabelledTrack) (h : ∀ t ∈ tracks, t.Printable) :
    readGpx (tracksToGpx tracks) = some (tracks.map LabelledTrack.gpx) ∧
      ∀ t ∈ tracks, ∀ points ∈ t.segments, ∀ point ∈ points, point.Close point.printed := by
  refine ⟨?_, fun _ _ _ _ point _ => close_printed point⟩
  have hheader : '?' ∉ "version=\"1.0\" encoding=\"UTF-8\"".toList ∧
      '\r' ∉ "version=\"1.0\" encoding=\"UTF-8\"".toList := by
    decide
  have helements : Xml.elements (gpxContent tracks) =
      some (.element "gpx".toList gpxAttributes (onLines 0 (tracks.map trackElement)) .nil) := rfl
  have hdocument := Xml.document_render hheader (valid_gpx h) helements
  have hnamed : elementsNamed "trk" (onLines 0 (tracks.map trackElement)) =
      tracks.map trackElement :=
    elementsNamed_map (fun _ => rfl) 0 [] (fun _ he => absurd he List.not_mem_nil) tracks
  rw [readGpx, tracksToGpx_eq, hdocument, Option.bind_some, Content.siblings, List.head?_cons,
    Option.bind_some, if_pos rfl, hnamed]
  exact mapM_map fun t ht => readTrack_element (h t ht)

/-- A name with reserved characters, and one point. -/
def friends : List LabelledTrack :=
  [{ context := "vessels.self"
     segments := [[⟨541234567 / 10000000, -1 / 3, epoch, some (5 / 2), none, some (1 / 8)⟩]]
     label := some "Boat & <Friends>" }]

theorem friends_read_back : readGpx (tracksToGpx friends) =
    some [⟨"Boat & <Friends>", "context=vessels.self",
      [[⟨54123457 / 1000000, -333333 / 1000000, epoch, some (5 / 2), none, some (1 / 10)⟩]]⟩] := by
  have hprintable : ∀ t ∈ friends, t.Printable := by
    refine List.forall_mem_singleton.mpr ⟨?_, ?_, ?_⟩
    · exact Xml.clean_of_all (by decide)
    · rintro label ⟨⟩
      exact Xml.clean_of_all (by decide)
    · decide +kernel
  rw [(gpx_read_back friends hprintable).1]
  decide +kernel

end SignalK.Tracks
