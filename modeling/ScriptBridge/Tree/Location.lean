import ScriptBridge.Json.Record

/-!
# Source locations

A location is where a piece of source text starts and stops.  Lines count from
one, columns from zero; a location that is not known is all zeros.
-/

namespace ScriptBridge

/-- A place in a source text. -/
structure Position where
  line : Nat := 0
  column : Nat := 0
  deriving DecidableEq, Repr

/-- Where a piece of source text starts and stops. -/
structure Location where
  start : Position := {}
  stop : Position := {}
  deriving DecidableEq, Repr

namespace Position

/-- The fields of a written place. -/
def record : Record Json Position :=
  Position.mk <$> .required "line" Json.toCount <*> .required "column" Json.toCount

/-- Read a place. -/
def ofJson : Json → Except DataError Position :=
  record.ofJson "struct Position"

/-- Write a place. -/
def toJson (position : Position) : Json :=
  .object [("line", .ofNat position.line), ("column", .ofNat position.column)]

end Position

namespace Location

/-- The fields of a written location. -/
def record : Record Json Location :=
  Location.mk <$> .withDefault "start" {} Position.ofJson <*>
    .withDefault "end" {} Position.ofJson

/-- Read a location. -/
def ofJson : Json → Except DataError Location :=
  record.ofJson "struct SourceLocation"

/-- Write a location. -/
def toJson (location : Location) : Json :=
  .object [("start", location.start.toJson), ("end", location.stop.toJson)]

end Location

end ScriptBridge
