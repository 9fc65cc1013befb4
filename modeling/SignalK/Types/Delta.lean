import SignalK.Lib.HashMap
import SignalK.Lib.Text
import SignalK.Types.Json

/-! Deltas, their updates and the sources that produce them. -/
namespace SignalK

/-- An instant in nanoseconds since the epoch. -/
abbrev DateTime := Int

/-- `a.signed_duration_since(b).num_seconds()`, truncated towards zero. -/
def secondsSince (a b : DateTime) : Int :=
  (a - b).tdiv 1000000000

structure Source where
  label : String
  type : String
  extra : HashMap String Json
  deriving DecidableEq

namespace Source

def nmea0183 (label talker : String) : Source where
  label := label
  type := "NMEA0183"
  extra := HashMap.collect [("talker", .string talker)]

def nmea2000 (label : String) (src : UInt8) (pgn : UInt32) : Source where
  label := label
  type := "NMEA2000"
  extra := HashMap.collect
    [("src", .number (.posInt src.toUInt64)), ("pgn", .number (.posInt pgn.toUInt64))]

def plugin (pluginId : String) : Source where
  label := pluginId
  type := "Plugin"
  extra := ∅

def internal : Source where
  label := "signalk-rs"
  type := "Internal"
  extra := ∅

end Source

/-- The registry key of a source, the `$source` of a value. -/
abbrev SourceRef := String

structure PathValue where
  path : String
  value : Json
  deriving DecidableEq

structure Update where
  source : Source
  timestamp : DateTime
  values : List PathValue
  deriving DecidableEq

structure Delta where
  context : Option String
  updates : List Update
  deriving DecidableEq

namespace Delta

def selfVessel (updates : List Update) : Delta where
  context := some "vessels.self"
  updates := updates

def withContext (context : String) (updates : List Update) : Delta where
  context := some context
  updates := updates

/-- All values of a delta: updates, then values, in order. -/
def pathValues (delta : Delta) : List PathValue :=
  delta.updates.flatMap (·.values)

end Delta

/-- `{label}.{talker or pgn}` for the two NMEA types, the label alone otherwise. -/
def makeSourceRef [JsonText] (source : Source) : SourceRef :=
  let suffix :=
    if source.type = "NMEA0183" then
      (((source.extra.lookup "talker").bind Json.asStr).map fun t => "." ++ t).getD ""
    else if source.type = "NMEA2000" then
      ((source.extra.lookup "pgn").map fun v => "." ++ JsonText.toText v).getD ""
    else ""
  source.label ++ suffix

end SignalK
