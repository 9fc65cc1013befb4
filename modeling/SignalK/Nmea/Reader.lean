import SignalK.Lib.LineReader
import SignalK.Lib.Lines
import SignalK.Nmea.Dispatch

/-! The readers of NMEA 0183 sentences from a TCP connection and from a serial port: noise on the
line, and which decoder a sentence goes to. -/
namespace SignalK
namespace Nmea0183

/-- The parser outside of the repository: nothing comes of what it cannot read. -/
class NmeaParse where
  parse : String → Option ParsedSentence

namespace Reader
open LineReader LineReader.Handler

/-- A line without the whitespace around it. -/
def sentenceOf (line : List Char) : String :=
  String.ofList (Text.trim (Lines.stripCr line))

/-! Streams of sentences and noise. -/

/-- The texts by which a sentence is given to the decoders of AIS and DSC. -/
def marks : List String := ["VDM", "VDO", "DSC"]

/-- A line without its end: a text that is meant as a sentence, or noise. -/
inductive StreamLine where
  | sentence (text : List Char) (hend : 10 ∉ Utf8.encode text)
  | noise (bytes : List UInt8) (hend : 10 ∉ bytes)
      (hmark : ∀ mark ∈ marks, ¬ Utf8.encode mark.toList <:+: bytes)

namespace StreamLine

def bytes : StreamLine → List UInt8
  | sentence text _ => Utf8.encode text
  | noise bytes _ _ => bytes

def isSentence : StreamLine → Bool
  | sentence _ _ => true
  | noise _ _ _ => false

theorem end_notMem (l : StreamLine) : 10 ∉ l.bytes := by
  cases l with
  | sentence text hend => exact hend
  | noise bytes hend hmark => exact hend

end StreamLine

/-- The bytes of a stream and its lines; the last of them may have no end. -/
structure NmeaStream where
  bytes : List UInt8
  lines : List StreamLine
  split_bytes : split bytes = lines.map (·.bytes)

namespace NmeaStream

/-- Every line with its end. -/
def ofLines (ls : List StreamLine) : NmeaStream where
  bytes := joined (ls.map (·.bytes))
  lines := ls
  split_bytes := by
    apply split_joined
    intro l hl
    obtain ⟨line, -, rfl⟩ := List.mem_map.mp hl
    exact line.end_notMem

/-- The same stream with the noise lines removed. -/
def cleaned (s : NmeaStream) : NmeaStream :=
  ofLines (s.lines.filter (·.isSentence))

/-- The times when the lines come. -/
def times (s : NmeaStream) (clock : Nat → DateTime) : List DateTime :=
  (Machine.timed clock s.lines).map (·.1)

/-- The times of the sentences among them. -/
def sentenceTimes (s : NmeaStream) (clock : Nat → DateTime) : List DateTime :=
  (wanted StreamLine.isSentence (Machine.timed clock s.lines)).map (·.1)

theorem zip_lines (es : List (DateTime × StreamLine)) :
    (es.map (·.1)).zip ((es.map (·.2)).map (·.bytes)) = Handler.lines StreamLine.bytes es := by
  induction es with
  | nil => rfl
  | cons e es ih => exact congrArg _ ih

theorem zip_times (s : NmeaStream) (clock : Nat → DateTime) :
    (s.times clock).zip (split s.bytes) =
      Handler.lines StreamLine.bytes (Machine.timed clock s.lines) := by
  have hz := zip_lines (Machine.timed clock s.lines)
  rw [Machine.timed_snd] at hz
  rw [s.split_bytes]
  exact hz

theorem zip_sentenceTimes (s : NmeaStream) (clock : Nat → DateTime) :
    (s.sentenceTimes clock).zip (split s.cleaned.bytes) =
      Handler.lines StreamLine.bytes
        (wanted StreamLine.isSentence (Machine.timed clock s.lines)) := by
  have hz := zip_lines (wanted StreamLine.isSentence (Machine.timed clock s.lines))
  have hkept : (wanted StreamLine.isSentence (Machine.timed clock s.lines)).map (·.2) =
      s.lines.filter (·.isSentence) := by
    have hfilter := List.filter_map (f := fun e : DateTime × StreamLine => e.2)
      (p := StreamLine.isSentence) (l := Machine.timed clock s.lines)
    have hsnd : (Machine.timed clock s.lines).map (·.2) = s.lines := Machine.timed_snd clock _
    rw [hsnd] at hfilter
    exact hfilter.symm
  rw [hkept] at hz
  rw [s.cleaned.split_bytes]
  exact hz

end NmeaStream

/-- A mark in a sentence is one in its bytes. -/
theorem infix_of_containsText {bytes : List UInt8} {line : List Char}
    (hd : Utf8.decode bytes = some line) {mark : String}
    (h : containsText (sentenceOf line) mark = true) : Utf8.encode mark.toList <:+: bytes := by
  have hmark : mark.toList <:+: Text.trim (Lines.stripCr line) := by
    simpa [containsText, sentenceOf] using h
  have hline := (hmark.trans (Text.trim_infix _)).trans (Lines.stripCr_prefix line).isInfix
  rw [← Utf8.encode_of_decode hd]
  exact Utf8.encode_infix hline

/-! The time in what is handed on. -/

/-- What the time does to a delta: it is written on its only update. -/
structure Dated (f : DateTime → Option Delta) : Prop where
  silent : ∀ t t', f t = none → f t' = none
  time : ∀ t delta, f t = some delta → delta.updates.map (·.timestamp) = [t]

/-- The time of a delta. -/
def timeOf (delta : Delta) : DateTime :=
  (delta.updates.map (·.timestamp)).headD 0

theorem Dated.timeOf {f : DateTime → Option Delta} (hf : Dated f) {t : DateTime} {delta : Delta}
    (h : f t = some delta) : timeOf delta = t := by
  rw [Reader.timeOf, hf.time t delta h]
  rfl

/-- The delta of a call. -/
theorem toDeltas_eq (dsc : DscData) (label : String) :
    ∃ f, Dated f ∧ ∀ t, dsc.toDeltas label t = (f t).map ([·]) := by
  refine ⟨fun t => dsc.senderMmsi.bind fun mmsi =>
    if dsc.values mmsi = [] then none
    else some (Delta.withContext ("vessels.urn:mrn:imo:mmsi:" ++ mmsiText mmsi)
      [⟨Source.nmea0183 label "DS", t, dsc.values mmsi⟩]), ⟨?_, ?_⟩, ?_⟩
  · intro t t' h
    cases hm : dsc.senderMmsi with
    | none => rfl
    | some mmsi =>
      simp only [hm, Option.bind_some] at h ⊢
      split_ifs at h with hvalues
      rw [if_pos hvalues]
  · intro t delta h
    obtain ⟨mmsi, -, h⟩ := Option.bind_eq_some_iff.mp h
    split_ifs at h
    obtain rfl := Option.some.inj h
    rfl
  · intro t
    rw [DscData.toDeltas]
    cases dsc.senderMmsi with
    | none => rfl
    | some mmsi =>
      simp only [Option.bind_some]
      split_ifs <;> rfl

/-- The first of three decoders that makes something. -/
theorem first_of_three {α : Type} (a b c : Option α) :
    (a.map ([·])).getD ((b.map ([·])).getD c.toList) = ((a.or b).or c).toList := by
  cases a with
  | some x => rfl
  | none =>
    cases b with
    | some x => rfl
    | none => rfl

/-! The decoders and the loop of a reader. -/
section readers

variable [AisParse] [NmeaParse]

def sentenceToDelta (raw sourceLabel : String) (now : DateTime) : Option Delta :=
  (NmeaParse.parse raw).bind fun parsed => parsed.toDelta raw sourceLabel now

def tryDecodeDsc (raw sourceLabel : String) (now : DateTime) : Option (List Delta) :=
  if !containsText raw "DSC" then none
  else
    match NmeaParse.parse raw with
    | some (.dsc dsc) => dsc.toDeltas sourceLabel now
    | _ => none

/-- One line in the loop of a reader. -/
def handleLine (label : String) (now : DateTime) (decoder : AisDecoder) (line : List Char) :
    AisDecoder × List Delta :=
  let sentence := sentenceOf line
  if sentence = "" then (decoder, [])
  else
    -- AIS first, then DSC, then the sentences of the own vessel
    let ais := decoder.tryDecode sentence now
    match ais.2 with
    | some delta => (ais.1, [delta])
    | none =>
      match tryDecodeDsc sentence label now with
      | some deltas => (ais.1, deltas)
      | none => (ais.1, (sentenceToDelta sentence label now).toList)

def handler (label : String) : Handler AisDecoder DateTime Delta :=
  ⟨AisDecoder.new label, handleLine label⟩

/-- The deltas of a connection, from the lines of its bytes and the times when they come. A line
that is no UTF-8 ends the connection. -/
def handleTcpConnection (label : String) (times : List DateTime) (bytes : List UInt8) :
    List Delta :=
  (handler label).out (reading (handler label).fresh []) (times.zip (split bytes))

/-- The deltas of a serial port. After a line that is no UTF-8 the port is opened anew, and the
bytes that come in the pause or that the old reader had taken are lost: `losses` says how many
after each of these lines, as far as the port can be opened again. -/
def runSerialReader (label : String) (losses : List Nat) (times : List DateTime)
    (bytes : List UInt8) : List Delta :=
  (handler label).out (reading (handler label).fresh losses) (times.zip (split bytes))

/-! What one line is made into. -/

theorem handleLine_blank {line : List Char} (h : sentenceOf line = "") (label : String)
    (now : DateTime) (d : AisDecoder) : handleLine label now d line = (d, []) :=
  if_pos h

theorem handleLine_eq {line : List Char} (h : sentenceOf line ≠ "") (label : String)
    (now : DateTime) (d : AisDecoder) :
    handleLine label now d line =
      ((d.tryDecode (sentenceOf line) now).1,
        ((d.tryDecode (sentenceOf line) now).2.map ([·])).getD
          ((tryDecodeDsc (sentenceOf line) label now).getD
            (sentenceToDelta (sentenceOf line) label now).toList)) := by
  rw [handleLine]
  simp only [if_neg h]
  cases (d.tryDecode (sentenceOf line) now).2 with
  | some delta => rfl
  | none =>
    cases tryDecodeDsc (sentenceOf line) label now with
    | some deltas => rfl
    | none => rfl

omit [NmeaParse] in
theorem dated_tryDecode (d : AisDecoder) (s : String) : Dated fun t => (d.tryDecode s t).2 where
  silent t t' h := by
    simp only [AisDecoder.tryDecode] at h ⊢
    split_ifs at h ⊢
    · rfl
    · simpa using h
  time t delta h := by
    simp only [AisDecoder.tryDecode] at h
    split_ifs at h
    obtain ⟨contact, -, rfl⟩ := Option.map_eq_some_iff.mp h
    rfl

omit [NmeaParse] in
theorem tryDecode_state (d : AisDecoder) (s : String) (t t' : DateTime) :
    (d.tryDecode s t).1 = (d.tryDecode s t').1 := by
  simp only [AisDecoder.tryDecode]
  split_ifs <;> rfl

omit [AisParse] in
theorem dated_sentenceToDelta (raw label : String) : Dated (sentenceToDelta raw label) where
  silent t t' h := by
    rw [sentenceToDelta] at h ⊢
    cases hp : NmeaParse.parse raw with
    | none => rfl
    | some parsed =>
      rw [hp, Option.bind_some, ParsedSentence.toDelta] at h
      split_ifs at h with hvalues
      rw [Option.bind_some, ParsedSentence.toDelta, if_pos hvalues]
  time t delta h := by
    obtain ⟨parsed, -, h⟩ := Option.bind_eq_some_iff.mp h
    rw [ParsedSentence.toDelta] at h
    split_ifs at h
    obtain rfl := Option.some.inj h
    rfl

omit [AisParse] in
theorem tryDecodeDsc_eq (raw label : String) :
    ∃ f, Dated f ∧ ∀ t, tryDecodeDsc raw label t = (f t).map ([·]) := by
  have hnone : Dated fun _ : DateTime => (none : Option Delta) :=
    ⟨fun _ _ _ => rfl, fun t delta h => by cases h⟩
  by_cases hdsc : containsText raw "DSC" = true
  · cases hp : NmeaParse.parse raw with
    | none => exact ⟨_, hnone, fun t => by simp [tryDecodeDsc, hdsc, hp]⟩
    | some parsed =>
      cases parsed with
      | dsc dsc =>
        obtain ⟨f, hf, heq⟩ := toDeltas_eq dsc label
        exact ⟨f, hf, fun t => by simp [tryDecodeDsc, hdsc, hp, heq t]⟩
      | _ => exact ⟨_, hnone, fun t => by simp [tryDecodeDsc, hdsc, hp]⟩
  · exact ⟨_, hnone, fun t => by simp [tryDecodeDsc, hdsc]⟩

/-- One delta at most is made of a line, and its time is that of the line. -/
theorem handleLine_dated (label : String) (d : AisDecoder) (line : List Char) :
    ∃ f, Dated f ∧ ∀ t, (handleLine label t d line).2 = (f t).toList := by
  by_cases hblank : sentenceOf line = ""
  · refine ⟨fun _ => none, ⟨fun _ _ _ => rfl, fun t delta h => by cases h⟩, fun t => ?_⟩
    rw [handleLine_blank hblank]
    rfl
  · obtain ⟨dsc, hdsc, heq⟩ := tryDecodeDsc_eq (sentenceOf line) label
    have hais := dated_tryDecode d (sentenceOf line)
    have hstd := dated_sentenceToDelta (sentenceOf line) label
    refine ⟨fun t => ((d.tryDecode (sentenceOf line) t).2.or (dsc t)).or
      (sentenceToDelta (sentenceOf line) label t), ⟨?_, ?_⟩, ?_⟩
    · intro t t' h
      simp only [Option.or_eq_none_iff] at h ⊢
      exact ⟨⟨hais.silent t t' h.1.1, hdsc.silent t t' h.1.2⟩, hstd.silent t t' h.2⟩
    · intro t delta h
      rcases Option.or_eq_some_iff.mp h with h | ⟨-, h⟩
      · rcases Option.or_eq_some_iff.mp h with h | ⟨-, h⟩
        · exact hais.time t delta h
        · exact hdsc.time t delta h
      · exact hstd.time t delta h
    · intro t
      rw [handleLine_eq hblank, heq t]
      exact first_of_three _ _ _

theorem stamped_handler (label : String) : Stamped (handler label) timeOf where
  state t t' d line := by
    by_cases hblank : sentenceOf line = ""
    · simp only [handler, handleLine_blank hblank]
    · simp only [handler, handleLine_eq hblank]
      exact tryDecode_state d _ t t'
  silent t t' d line h := by
    obtain ⟨f, hf, heq⟩ := handleLine_dated label d line
    simp only [handler, heq, Option.toList_eq_nil_iff] at h ⊢
    exact hf.silent t t' h
  time t d line delta h := by
    obtain ⟨f, hf, heq⟩ := handleLine_dated label d line
    simp only [handler, heq] at h
    exact hf.timeOf (Option.mem_toList.mp h)

theorem separate_handler (label : String) :
    Separate (handler label) StreamLine.bytes StreamLine.isSentence where
  text l hl := by
    cases l with
    | sentence text hend =>
      simp [StreamLine.bytes, Utf8.decode_of_valid (Utf8.valid_encode text)]
    | noise bytes hend hmark => cases hl
  idle l hl line hd t d := by
    cases l with
    | sentence text hend => cases hl
    | noise bytes hend hmark =>
      have hmarks : ∀ mark ∈ marks, containsText (sentenceOf line) mark = false := by
        intro mark hm
        exact Bool.eq_false_iff.mpr fun hc => hmark mark hm (infix_of_containsText hd hc)
      have hais : (d.tryDecode (sentenceOf line) t).1 = d := by
        simp [AisDecoder.tryDecode, hmarks "VDM" (by decide), hmarks "VDO" (by decide)]
      by_cases hblank : sentenceOf line = ""
      · exact congrArg Prod.fst (handleLine_blank hblank label t d)
      · exact (congrArg Prod.fst (handleLine_eq hblank label t d)).trans hais

/-! Which decoder a sentence goes to. -/

inductive Decoder where
  | ais
  | dsc
  | standard
  deriving DecidableEq

namespace Decoder

/-- The decoder's parser makes a message or a sentence of its kind out of the text. -/
def Reads (d : AisDecoder) (s : String) : Decoder → Prop
  | ais => (AisParse.parse d.parser s).2 ≠ none
  | dsc => ∃ data, NmeaParse.parse s = some (.dsc data)
  | standard => ∃ parsed, NmeaParse.parse s = some parsed ∧ ∀ data, parsed ≠ .dsc data

/-- What each of them makes of it, whatever the text contains. -/
def deltas (label : String) (now : DateTime) (d : AisDecoder) (s : String) :
    Decoder → List Delta
  | ais => ((d.contact s).map fun c => c.toDelta (Source.nmea0183 d.sourceLabel "AI") now).toList
  | dsc =>
    match NmeaParse.parse s with
    | some (.dsc data) => (data.toDeltas label now).getD []
    | _ => []
  | standard => (sentenceToDelta s label now).toList

end Decoder

/-- The two parsers are of two languages. The one of AIS keeps its fragments across a sentence
that it rejects. -/
structure ParsersApart [AisParse] [NmeaParse] : Prop where
  keeps : ∀ parser s, (AisParse.parse parser s).2 = none → (AisParse.parse parser s).1 = parser
  ais : ∀ parser s, (AisParse.parse parser s).2 ≠ none →
    containsText s "VDM" = true ∨ containsText s "VDO" = true
  dsc : ∀ s data, NmeaParse.parse s = some (.dsc data) → containsText s "DSC" = true
  apart : ∀ parser s, NmeaParse.parse s ≠ none → (AisParse.parse parser s).2 = none

/-- What the parser of AIS does not read changes nothing. -/
theorem ParsersApart.tryDecode_none (hp : ParsersApart) {d : AisDecoder} {s : String}
    (h : (AisParse.parse d.parser s).2 = none) (now : DateTime) :
    d.tryDecode s now = (d, none) := by
  rw [AisDecoder.tryDecode]
  split_ifs
  · rfl
  · simp [hp.keeps d.parser s h, AisDecoder.contact, h]

/-- What it reads is given to it. -/
theorem ParsersApart.tryDecode_some (hp : ParsersApart) {d : AisDecoder} {s : String}
    (h : (AisParse.parse d.parser s).2 ≠ none) (now : DateTime) :
    (d.tryDecode s now).2 =
      (d.contact s).map fun c => c.toDelta (Source.nmea0183 d.sourceLabel "AI") now := by
  have hmark : ¬ (!containsText s "VDM" && !containsText s "VDO") = true := by
    rcases hp.ais d.parser s h with hm | hm <;> simp [hm]
  rw [AisDecoder.tryDecode, if_neg hmark]

omit [AisParse] in
/-- What is no sentence is neither a call nor for the own vessel. -/
theorem unread {s : String} (h : NmeaParse.parse s = none) (label : String) (now : DateTime) :
    tryDecodeDsc s label now = none ∧ sentenceToDelta s label now = none := by
  constructor
  · simp [tryDecodeDsc, h]
  · simp [sentenceToDelta, h]

variable {label : String} {now : DateTime} {d : AisDecoder} {line : List Char}

theorem handleLine_ais (hp : ParsersApart) (hs : sentenceOf line ≠ "")
    (h : (AisParse.parse d.parser (sentenceOf line)).2 ≠ none) :
    (handleLine label now d line).2 = Decoder.ais.deltas label now d (sentenceOf line) := by
  have hnmea : NmeaParse.parse (sentenceOf line) = none := by
    by_contra hc
    exact h (hp.apart d.parser _ hc)
  rw [handleLine_eq hs, (unread hnmea label now).1, (unread hnmea label now).2,
    hp.tryDecode_some h now, Decoder.deltas]
  cases d.contact (sentenceOf line) with
  | none => rfl
  | some c => rfl

theorem handleLine_dsc (hp : ParsersApart) (hs : sentenceOf line ≠ "") {data : DscData}
    (h : NmeaParse.parse (sentenceOf line) = some (.dsc data)) :
    handleLine label now d line = (d, Decoder.dsc.deltas label now d (sentenceOf line)) := by
  have hais := hp.apart d.parser (sentenceOf line) (by simp [h])
  have hown : sentenceToDelta (sentenceOf line) label now = none := by
    rw [sentenceToDelta, h]
    exact ParsedSentence.toDelta_dsc data _ _ _
  have hdsc : tryDecodeDsc (sentenceOf line) label now = data.toDeltas label now := by
    simp [tryDecodeDsc, h, hp.dsc _ data h]
  rw [handleLine_eq hs, hp.tryDecode_none hais now, hown, hdsc]
  simp [Decoder.deltas, h]

theorem handleLine_standard (hp : ParsersApart) (hs : sentenceOf line ≠ "")
    {parsed : ParsedSentence} (h : NmeaParse.parse (sentenceOf line) = some parsed)
    (hne : ∀ data, parsed ≠ .dsc data) :
    handleLine label now d line = (d, Decoder.standard.deltas label now d (sentenceOf line)) := by
  have hais := hp.apart d.parser (sentenceOf line) (by simp [h])
  have hdsc : tryDecodeDsc (sentenceOf line) label now = none := by
    rw [tryDecodeDsc]
    split_ifs
    · rfl
    · rw [h]
      cases parsed with
      | dsc data => exact absurd rfl (hne data)
      | _ => rfl
  rw [handleLine_eq hs, hp.tryDecode_none hais now, hdsc]
  rfl

/-- A text that no parser reads is passed over. -/
theorem handleLine_unread (hp : ParsersApart) (hs : sentenceOf line ≠ "")
    (h : ∀ k, ¬ Decoder.Reads d (sentenceOf line) k) : handleLine label now d line = (d, []) := by
  have hais : (AisParse.parse d.parser (sentenceOf line)).2 = none := not_not.mp (h .ais)
  have hnmea : NmeaParse.parse (sentenceOf line) = none := by
    cases hparse : NmeaParse.parse (sentenceOf line) with
    | none => rfl
    | some parsed =>
      refine absurd ⟨parsed, hparse, fun data heq => ?_⟩ (h .standard)
      exact h .dsc ⟨data, heq ▸ hparse⟩
  rw [handleLine_eq hs, hp.tryDecode_none hais now, (unread hnmea label now).1,
    (unread hnmea label now).2]
  rfl

/-- No two decoders read the same sentence. -/
theorem ParsersApart.unique (hp : ParsersApart) {s : String} {k k' : Decoder}
    (h : Decoder.Reads d s k) (h' : Decoder.Reads d s k') : k = k' := by
  have hais : ∀ {k : Decoder}, Decoder.Reads d s .ais → Decoder.Reads d s k → k = .ais := by
    intro k ha hk
    by_contra hne
    have hread : NmeaParse.parse s ≠ none := by
      cases k with
      | ais => exact absurd rfl hne
      | dsc =>
        obtain ⟨data, hdata⟩ := hk
        simp [hdata]
      | standard =>
        obtain ⟨parsed, hparsed, -⟩ := hk
        simp [hparsed]
    exact ha (hp.apart d.parser s hread)
  cases k with
  | ais => exact (hais h h').symm
  | dsc =>
    cases k' with
    | ais => exact hais h' h
    | dsc => rfl
    | standard =>
      obtain ⟨data, hdata⟩ := h
      obtain ⟨parsed, hparsed, hne⟩ := h'
      exact absurd (Option.some.inj (hparsed.symm.trans hdata)) (hne data)
  | standard =>
    cases k' with
    | ais => exact hais h' h
    | dsc =>
      obtain ⟨data, hdata⟩ := h'
      obtain ⟨parsed, hparsed, hne⟩ := h
      exact absurd (Option.some.inj (hparsed.symm.trans hdata)) (hne data)
    | standard => rfl

/-- The decoder that reads a sentence is the one that handles it. -/
theorem handleLine_reads (hp : ParsersApart) (hs : sentenceOf line ≠ "") {k : Decoder}
    (h : Decoder.Reads d (sentenceOf line) k) :
    (handleLine label now d line).2 = k.deltas label now d (sentenceOf line) ∧
      (k ≠ .ais → (handleLine label now d line).1 = d) := by
  cases k with
  | ais => exact ⟨handleLine_ais hp hs h, fun hne => absurd rfl hne⟩
  | dsc =>
    obtain ⟨data, hdata⟩ := h
    rw [handleLine_dsc hp hs hdata]
    exact ⟨rfl, fun _ => rfl⟩
  | standard =>
    obtain ⟨parsed, hparsed, hne⟩ := h
    rw [handleLine_standard hp hs hparsed hne]
    exact ⟨rfl, fun _ => rfl⟩

/-- Nothing is made of the noise of a stream, and when it has ended the reading, then nothing
would have been made of the sentences that follow, nor is of what is read again; `ways` are the
ways in which bytes may be lost. -/
def NmeaStream.Unharmed (label : String) (ways : Set (List Nat)) (s : NmeaStream) : Prop :=
  ∀ clock : Nat → DateTime,
    Handler.Unharmed (handler label) StreamLine.bytes StreamLine.isSentence ways
      (AisDecoder.new label) (Machine.timed clock s.lines)

theorem tcp_eq_iff (label : String) (s : NmeaStream) :
    (∀ clock, handleTcpConnection label (s.times clock) s.bytes =
      handleTcpConnection label (s.sentenceTimes clock) s.cleaned.bytes) ↔
    s.Unharmed label {[]} := by
  have hiff := out_eq_iff (stamped_handler label) (separate_handler label)
    (Set.mem_singleton []) (AisDecoder.new label) s.lines
  rw [NmeaStream.Unharmed, ← hiff]
  simp only [handleTcpConnection, NmeaStream.zip_times, NmeaStream.zip_sentenceTimes,
    Set.mem_singleton_iff, forall_eq]
  exact Iff.rfl

theorem serial_eq_iff (label : String) (s : NmeaStream) :
    (∀ clock losses, runSerialReader label losses (s.times clock) s.bytes =
      runSerialReader label losses (s.sentenceTimes clock) s.cleaned.bytes) ↔
    s.Unharmed label Set.univ := by
  have hiff := out_eq_iff (stamped_handler label) (separate_handler label)
    (Set.mem_univ []) (AisDecoder.new label) s.lines
  rw [NmeaStream.Unharmed, ← hiff]
  simp only [runSerialReader, NmeaStream.zip_times, NmeaStream.zip_sentenceTimes,
    Set.mem_univ, forall_true_left]
  exact Iff.rfl

/-- Noise costs no other sentence exactly when it is text that nothing is made of, or nothing
would be made of what follows it. Every sentence goes to the one decoder that reads it, whatever
else its text contains. -/
theorem noise_costs_nothing_iff (hp : ParsersApart) (label : String) :
    (∀ s : NmeaStream,
      ((∀ clock, handleTcpConnection label (s.times clock) s.bytes =
          handleTcpConnection label (s.sentenceTimes clock) s.cleaned.bytes) ↔
        s.Unharmed label {[]}) ∧
      ((∀ clock losses, runSerialReader label losses (s.times clock) s.bytes =
          runSerialReader label losses (s.sentenceTimes clock) s.cleaned.bytes) ↔
        s.Unharmed label Set.univ)) ∧
    ∀ now d line, sentenceOf line ≠ "" →
      (∀ k, Decoder.Reads d (sentenceOf line) k →
        (∀ k', Decoder.Reads d (sentenceOf line) k' → k' = k) ∧
        (handleLine label now d line).2 = k.deltas label now d (sentenceOf line) ∧
        (k ≠ .ais → (handleLine label now d line).1 = d)) ∧
      ((∀ k, ¬ Decoder.Reads d (sentenceOf line) k) → handleLine label now d line = (d, [])) := by
  refine ⟨fun s => ⟨tcp_eq_iff label s, serial_eq_iff label s⟩, fun now d line hs => ⟨?_, ?_⟩⟩
  · intro k hk
    exact ⟨fun k' hk' => hp.unique hk' hk, handleLine_reads hp hs hk⟩
  · exact handleLine_unread hp hs

end readers

/-! A byte that is no UTF-8, and then an engine. -/
section engine

def engineSentence : String := "$IIRPM,E,1,1800,,A*5F"

local instance engineAis : AisParse where
  Parser := Unit
  new := ()
  parse _ _ := ((), none)

local instance engineNmea : NmeaParse where
  parse s := if s = engineSentence then some (.rpm ⟨some .engine, some 1, some 1800, none, true⟩)
    else none

theorem engine_apart : ParsersApart where
  keeps _ _ _ := rfl
  ais _ _ h := absurd rfl h
  dsc s data h := by
    simp only [NmeaParse.parse] at h
    split_ifs at h
    cases h
  apart _ _ _ := rfl

def engineStream : NmeaStream :=
  .ofLines [.noise [0xFF] (by decide) (by decide),
    .sentence engineSentence.toList (by decide +kernel)]

theorem sentenceOf_engine : sentenceOf engineSentence.toList = engineSentence := by
  decide +kernel

theorem handleLine_engine (label : String) (now : DateTime) (d : AisDecoder) :
    (handleLine label now d engineSentence.toList).2 ≠ [] := by
  have hparse : NmeaParse.parse (sentenceOf engineSentence.toList) =
      some (.rpm ⟨some .engine, some 1, some 1800, none, true⟩) := by
    rw [sentenceOf_engine]
    exact if_pos rfl
  have hs : sentenceOf engineSentence.toList ≠ "" := by
    rw [sentenceOf_engine]
    decide
  rw [handleLine_standard engine_apart hs hparse fun data h => by cases h]
  simp [Decoder.deltas, sentenceToDelta, hparse, ParsedSentence.toDelta,
    ParsedSentence.pathValues, fromRpm, PathValue.ofNumber]

/-- The connection ends with the byte. -/
theorem engine_harmed (ways : Set (List Nat)) : ¬ engineStream.Unharmed "gps" ways := by
  intro h
  have hnoise : Utf8.decode [0xFF] = none := by decide
  have htext := Utf8.decode_of_valid (Utf8.valid_encode engineSentence.toList)
  rw [Utf8.lossy_encode] at htext
  have hsilent := ((unharmed_noText hnoise).mp (h fun _ => 0)).1
  rw [out_eq_nil_iff] at hsilent
  exact handleLine_engine "gps" 0 _ (hsilent.1 rfl (Nat.zero_le _) _ htext)

theorem noise_costs_engine :
    ¬ ∀ (s : NmeaStream) (clock : Nat → DateTime),
      handleTcpConnection "gps" (s.times clock) s.bytes =
        handleTcpConnection "gps" (s.sentenceTimes clock) s.cleaned.bytes := fun h =>
  engine_harmed _ ((tcp_eq_iff "gps" engineStream).mp (h engineStream))

theorem noise_costs_nothing_iff_engine :
    ¬ ∀ clock, handleTcpConnection "gps" (engineStream.times clock) engineStream.bytes =
      handleTcpConnection "gps" (engineStream.sentenceTimes clock) engineStream.cleaned.bytes :=
  fun h => engine_harmed _
    (((noise_costs_nothing_iff engine_apart "gps").1 engineStream).1.mp h)

end engine

end Reader
end Nmea0183
end SignalK
