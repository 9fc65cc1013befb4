import SignalK.Nmea.Sentences

/-! AIS sentences: the contact that a message tells of, as a delta. The messages come from a
parser outside of the repository, which also puts their fragments together. -/
namespace SignalK

structure AisContact where
  mmsi : UInt32
  position : Option (ℚ × ℚ) := none
  sogMs : Option ℚ := none
  cogRad : Option ℚ := none
  headingRad : Option ℚ := none
  rotRads : Option ℚ := none
  navStatus : Option UInt8 := none
  name : Option String := none
  callsign : Option String := none
  imo : Option UInt32 := none
  shipType : Option UInt8 := none
  destination : Option String := none
  draught : Option ℚ := none
  length : Option ℚ := none
  beam : Option ℚ := none

/-- `{:09}` -/
def mmsiText (mmsi : UInt32) : String :=
  let digits := Nat.toDigits 10 mmsi.toNat
  String.ofList (List.replicate (9 - digits.length) '0' ++ digits)

def navStatusToStr (code : UInt8) : Option String :=
  match code.toNat with
  | 0 => some "motoring"
  | 1 => some "anchored"
  | 2 => some "not under command"
  | 3 => some "restricted maneuverability"
  | 4 => some "constrained by draft"
  | 5 => some "moored"
  | 6 => some "aground"
  | 7 => some "fishing"
  | 8 => some "sailing"
  | 14 => some "ais-sart"
  | _ => none

def shipTypeName (code : UInt8) : String :=
  let n := code.toNat
  if n = 0 then "Not available"
  else if n ≤ 19 then "Reserved"
  else if n ≤ 29 then "Wing in ground"
  else if n = 30 then "Fishing"
  else if n = 31 then "Towing"
  else if n = 32 then "Towing (large)"
  else if n = 33 then "Dredging"
  else if n = 34 then "Diving ops"
  else if n = 35 then "Military ops"
  else if n = 36 then "Sailing"
  else if n = 37 then "Pleasure craft"
  else if n ≤ 39 then "Reserved"
  else if n ≤ 49 then "High speed craft"
  else if n = 50 then "Pilot vessel"
  else if n = 51 then "Search and rescue"
  else if n = 52 then "Tug"
  else if n = 53 then "Port tender"
  else if n = 54 then "Anti-pollution"
  else if n = 55 then "Law enforcement"
  else if n ≤ 57 then "Spare"
  else if n = 58 then "Medical transport"
  else if n = 59 then "Non-combatant ship"
  else if n = 60 then "Passenger"
  else if n ≤ 69 then "Passenger"
  else if n = 70 then "Cargo"
  else if n ≤ 79 then "Cargo"
  else if n = 80 then "Tanker"
  else if n ≤ 89 then "Tanker"
  else if n ≤ 99 then "Other"
  else "Unknown"

/-- The value for a path, when the text is not blank. -/
def PathValue.ofText (path : String) (value : Option String) : List PathValue :=
  let text := value.map fun s => String.ofList (Text.trim s.toList)
  ((text.filter (· ≠ "")).map fun s => ⟨path, .string s⟩).toList

namespace AisContact

def positionValue (position : ℚ × ℚ) : PathValue :=
  ⟨"navigation.position",
    Json.ofFields [("latitude", .ofF64 position.1), ("longitude", .ofF64 position.2)]⟩

def context (c : AisContact) : String :=
  "vessels.urn:mrn:imo:mmsi:" ++ mmsiText c.mmsi

/-- What a contact tells, apart from its position. -/
def otherValues (c : AisContact) : List PathValue :=
  PathValue.ofNumber "navigation.speedOverGround" c.sogMs ++
  PathValue.ofNumber "navigation.courseOverGroundTrue" c.cogRad ++
  PathValue.ofNumber "navigation.headingTrue" c.headingRad ++
  PathValue.ofNumber "navigation.rateOfTurn" c.rotRads ++
  ((c.navStatus.bind navStatusToStr).map fun s => ⟨"navigation.state", .string s⟩).toList ++
  PathValue.ofText "name" c.name ++
  PathValue.ofText "communication.callsignVhf" c.callsign ++
  ((c.imo.filter (0 < ·)).map fun imo =>
    ⟨"registrations.imo", .string ("IMO " ++ toString imo.toNat)⟩).toList ++
  (c.shipType.map fun st => ⟨"design.aisShipType",
    Json.ofFields [("id", .number (.posInt st.toUInt64)),
      ("name", .string (shipTypeName st))]⟩).toList ++
  PathValue.ofNumber "design.length.overall.value" (c.length.filter (0 < ·)) ++
  PathValue.ofNumber "design.beam.value" (c.beam.filter (0 < ·)) ++
  PathValue.ofNumber "design.draft.value.maximum" (c.draught.filter (0 < ·)) ++
  PathValue.ofText "navigation.destination.commonName" c.destination

def toDelta (c : AisContact) (source : Source) (timestamp : DateTime) : Delta :=
  Delta.withContext c.context
    [⟨source, timestamp, (c.position.map positionValue).toList ++ c.otherValues⟩]

end AisContact

/-! The messages of the parser. -/

inductive NavigationStatus where
  | underWayUsingEngine
  | atAnchor
  | notUnderCommand
  | restrictedManouverability
  | constrainedByDraught
  | moored
  | aground
  | engagedInFishing
  | underWaySailing
  | reservedForHSC
  | reservedForWIG
  | reserved01
  | reserved02
  | reserved03
  | aisSartIsActive
  | unknown (code : UInt8)

def navStatusToCode : NavigationStatus → UInt8
  | .underWayUsingEngine => 0
  | .atAnchor => 1
  | .notUnderCommand => 2
  | .restrictedManouverability => 3
  | .constrainedByDraught => 4
  | .moored => 5
  | .aground => 6
  | .engagedInFishing => 7
  | .underWaySailing => 8
  | .reservedForHSC => 9
  | .reservedForWIG => 10
  | .reserved01 => 11
  | .reserved02 => 12
  | .reserved03 => 13
  | .aisSartIsActive => 14
  | .unknown code => code

inductive TurnDirection where
  | port
  | starboard

/-- In degrees for each minute, without a sign. -/
structure RateOfTurn where
  rate : Option ℚ
  direction : Option TurnDirection

/-- Where a vessel is and how it moves, of class A or B. -/
structure AisMotion where
  latitude : Option ℚ
  longitude : Option ℚ
  speedOverGround : Option ℚ
  courseOverGround : Option ℚ
  trueHeading : Option UInt16

structure AisDimensions where
  toBow : UInt16
  toStern : UInt16
  toPort : UInt16
  toStarboard : UInt16

inductive MessagePart where
  | partA (vesselName : String)
  | partB (shipType : Option UInt8) (callsign : String) (dimensions : AisDimensions)
  | unknown

inductive AisMessage where
  | positionReport (mmsi : UInt32) (motion : AisMotion) (status : Option NavigationStatus)
      (rateOfTurn : Option RateOfTurn)
  | staticAndVoyageRelatedData (mmsi : UInt32) (vesselName callsign : String) (imoNumber : UInt32)
      (shipType : Option UInt8) (destination : String) (draught : ℚ) (dimensions : AisDimensions)
  | standardClassBPositionReport (mmsi : UInt32) (motion : AisMotion)
  | extendedClassBPositionReport (mmsi : UInt32) (motion : AisMotion) (name : String)
      (shipType : Option UInt8) (dimensions : AisDimensions)
  | aidToNavigationReport (mmsi : UInt32) (latitude longitude : Option ℚ) (name : String)
  | staticDataReport (mmsi : UInt32) (messagePart : MessagePart)
  /-- any other message, which is not converted -/
  | other

/-- A position needs both of its coordinates. -/
def positionOf (latitude longitude : Option ℚ) : Option (ℚ × ℚ) :=
  match latitude, longitude with
  | some lat, some lon => some (lat, lon)
  | _, _ => none

namespace AisDimensions

def length (d : AisDimensions) : Option ℚ :=
  let length : ℚ := d.toBow.toNat + d.toStern.toNat
  if 0 < length then some length else none

def beam (d : AisDimensions) : Option ℚ :=
  let beam : ℚ := d.toPort.toNat + d.toStarboard.toNat
  if 0 < beam then some beam else none

end AisDimensions

open Nmea0183 in
def fromMotion (mmsi : UInt32) (pos : AisMotion) : AisContact where
  mmsi := mmsi
  position := positionOf pos.latitude pos.longitude
  sogMs := pos.speedOverGround.map (· * knotsToMs)
  cogRad := pos.courseOverGround.map (· * degToRad)
  headingRad := pos.trueHeading.map fun h => h.toNat * degToRad

def messageToContact : AisMessage → Option AisContact
  | .positionReport mmsi motion status rateOfTurn =>
    let sign (rot : RateOfTurn) : ℚ :=
      match rot.direction with
      | some .port => -1
      | _ => 1
    some { fromMotion mmsi motion with
      navStatus := status.map navStatusToCode
      rotRads := rateOfTurn.bind fun rot => rot.rate.map fun rate =>
        sign rot * rate * Nmea0183.degToRad / 60 }
  | .staticAndVoyageRelatedData mmsi vesselName callsign imoNumber shipType destination draught
      dimensions =>
    some { mmsi := mmsi, name := some vesselName, callsign := some callsign, imo := some imoNumber,
           shipType := shipType, destination := some destination, draught := some draught,
           length := dimensions.length, beam := dimensions.beam }
  | .standardClassBPositionReport mmsi motion => some (fromMotion mmsi motion)
  | .extendedClassBPositionReport mmsi motion name shipType dimensions =>
    some { fromMotion mmsi motion with
      name := some name, shipType := shipType, length := dimensions.length
      beam := dimensions.beam }
  | .aidToNavigationReport mmsi latitude longitude name =>
    some { mmsi := mmsi, position := positionOf latitude longitude, name := some name }
  | .staticDataReport mmsi messagePart =>
    match messagePart with
    | .partA vesselName => some { mmsi := mmsi, name := some vesselName }
    | .partB shipType callsign dimensions =>
      some { mmsi := mmsi, callsign := some callsign, shipType := shipType,
             length := dimensions.length, beam := dimensions.beam }
    | .unknown => some { mmsi := mmsi }
  | .other => none

/-! The decoder. -/

inductive AisFragments where
  | complete (message : Option AisMessage)
  | incomplete

/-- The parser: it keeps the fragments that it has seen. Nothing comes of a sentence that it
cannot read. -/
class AisParse where
  Parser : Type
  new : Parser
  parse : Parser → String → Parser × Option AisFragments

structure AisDecoder [AisParse] where
  parser : AisParse.Parser
  sourceLabel : String

def containsText (s pattern : String) : Bool :=
  decide (pattern.toList <:+: s.toList)

namespace AisDecoder
variable [AisParse]

def new (sourceLabel : String) : AisDecoder :=
  ⟨AisParse.new, sourceLabel⟩

/-- What a sentence completes. -/
def contact (d : AisDecoder) (sentence : String) : Option AisContact :=
  match (AisParse.parse d.parser sentence).2 with
  | some (.complete (some message)) => messageToContact message
  | _ => none

def tryDecode (d : AisDecoder) (sentence : String) (timestamp : DateTime) :
    AisDecoder × Option Delta :=
  if !containsText sentence "VDM" && !containsText sentence "VDO" then (d, none)
  else
    ({ d with parser := (AisParse.parse d.parser sentence).1 },
      (d.contact sentence).map fun contact =>
        contact.toDelta (Source.nmea0183 d.sourceLabel "AI") timestamp)

/-- What is decoded is told of the vessel that the contact names. -/
theorem tryDecode_some {d : AisDecoder} {sentence : String} {timestamp : DateTime} {delta : Delta}
    (h : (d.tryDecode sentence timestamp).2 = some delta) :
    ∃ contact, d.contact sentence = some contact ∧ delta.context = some contact.context ∧
      delta.pathValues = (contact.position.map AisContact.positionValue).toList ++ contact.otherValues := by
  unfold tryDecode at h
  split_ifs at h with hais
  obtain ⟨contact, hcontact, rfl⟩ := Option.map_eq_some_iff.mp h
  refine ⟨contact, hcontact, rfl, ?_⟩
  simp [AisContact.toDelta, Delta.withContext, Delta.pathValues]

end AisDecoder

theorem PathValue.path_of_mem {α : Type} {path : String} {value : α → Json} {o : Option α}
    {pv : PathValue} (h : pv ∈ (o.map fun x => (⟨path, value x⟩ : PathValue)).toList) :
    pv.path = path := by
  obtain ⟨x, -, rfl⟩ := Option.map_eq_some_iff.mp (Option.mem_toList.mp h)
  rfl

/-- A contact without a position tells of none. -/
theorem AisContact.path_otherValues {c : AisContact} {pv : PathValue} (h : pv ∈ c.otherValues) :
    pv.path ≠ "navigation.position" := by
  have hne : ∀ {path : String}, path ≠ "navigation.position" → pv.path = path →
      pv.path ≠ "navigation.position" := fun hpath heq => by rwa [heq]
  simp only [AisContact.otherValues, List.mem_append] at h
  rcases h with (((((((((((h | h) | h) | h) | h) | h) | h) | h) | h) | h) | h) | h) | h
  all_goals exact hne (by decide) (PathValue.path_of_mem h)

end SignalK
