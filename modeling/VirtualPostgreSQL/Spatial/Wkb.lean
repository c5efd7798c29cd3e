import VirtualPostgreSQL.Machinery.Wire
import VirtualPostgreSQL.Spatial.Wkt

/-!
# Spatial/Wkb — the validator of geometries in bytes

`vps_spatial_validate_binary` reads well-known binary.  Every geometry, the members of a collection
included, has a byte order, a type with its dimensions, and a count; `vps_wkb_geometry` calls itself
for the members.  The rest of the bytes stands for the offset.
-/

namespace Vps

open Machinery

/-- `VpsWkbParser` -/
structure WkbParser where
  rest : List UInt8
  limits : SpatialLimits
  result : SpatialValidation := {}
  limitFailure : Bool := false

namespace WkbParser

/-- Bytes are taken. -/
def drop (parser : WkbParser) (k : ℕ) : WkbParser := { parser with rest := parser.rest.drop k }

/-- A limit is reached. -/
def exceeded (parser : WkbParser) : WkbParser := { parser with limitFailure := true }

/-- A point is counted. -/
def count (parser : WkbParser) : WkbParser :=
  { parser with result := { parser.result with pointCount := parser.result.pointCount + 1 } }

/-- How many points may still come. -/
def room (parser : WkbParser) : ℕ := parser.limits.maxPoints - parser.result.pointCount

end WkbParser

/-- A number in either byte order. -/
def wkbValue (little : Bool) (bytes : List UInt8) : ℕ :=
  if little then leValue bytes else beValue bytes

/-- `vps_wkb_uint32` -/
def wkbUint32 (little : Bool) (parser : WkbParser) : Except WkbParser (ℕ × WkbParser) :=
  if parser.rest.length < 4 then .error parser
  else .ok (wkbValue little (parser.rest.take 4), parser.drop 4)

/-- `vps_wkb_double` -/
def wkbDouble (little : Bool) (parser : WkbParser) : Except WkbParser (UInt64 × WkbParser) :=
  if parser.rest.length < 8 then .error parser
  else .ok ((wkbValue little (parser.rest.take 8)).toUInt64, parser.drop 8)

/-- The loop of `vps_wkb_point`; it counts the numbers that are none. -/
def wkbOrdinates (little : Bool) : ℕ → ℕ → WkbParser → Except WkbParser (ℕ × WkbParser)
  | 0, nans, parser => .ok (nans, parser)
  | dimensions + 1, nans, parser => do
    let (bits, parser) ← wkbDouble little parser
    if isNanDouble bits then wkbOrdinates little dimensions (nans + 1) parser
    else if !isFiniteDouble bits then .error parser
    else wkbOrdinates little dimensions nans parser

/-- `vps_wkb_point`; it says whether the point is empty. -/
def wkbPoint (little : Bool) (dimensions : ℕ) (parser : WkbParser) :
    Except WkbParser (Bool × WkbParser) := do
  let (nans, parser) ← wkbOrdinates little dimensions 0 parser
  if nans ≠ 0 ∧ nans ≠ dimensions then .error parser
  else if nans = dimensions then .ok (true, parser)
  else if parser.result.pointCount = parser.limits.maxPoints then .error parser.exceeded
  else .ok (false, parser.count)

/-- A point that must not be empty. -/
def wkbPosition (little : Bool) (dimensions : ℕ) (parser : WkbParser) :
    Except WkbParser WkbParser := do
  let (empty, parser) ← wkbPoint little dimensions parser
  if empty then .error parser else .ok parser

/-- A loop of `count` items. -/
def wkbLoop (item : WkbParser → Except WkbParser WkbParser) :
    ℕ → WkbParser → Except WkbParser WkbParser
  | 0, parser => .ok parser
  | count + 1, parser => item parser >>= wkbLoop item count

/-- A ring of a polygon. -/
def wkbRing (little : Bool) (dimensions : ℕ) (parser : WkbParser) : Except WkbParser WkbParser := do
  let (points, parser) ← wkbUint32 little parser
  if (points ≠ 0 ∧ points < 4) ∨ points > parser.room then .error parser
  else wkbLoop (wkbPosition little dimensions) points parser

/-- The numbers of the types. -/
def wkbTypeOf : ℕ → Option SpatialGeometryType
  | 1 => some .point
  | 2 => some .lineString
  | 3 => some .polygon
  | 4 => some .multiPoint
  | 5 => some .multiLineString
  | 6 => some .multiPolygon
  | 7 => some .geometryCollection
  | _ => none

/-- A bit of the raw type. -/
def wkbFlag (raw bit : ℕ) : Bool := raw / 2 ^ bit % 2 == 1

/-- The type, the dimensions and the SRID flag that a raw type stands for: the dimensions are flags
of its own or thousands of the number. -/
def wkbHeader (raw : ℕ) : Option (SpatialGeometryType × ℕ × Bool) :=
  let number := raw % 2 ^ 28
  let dimensions := 2 + (if wkbFlag raw 31 then 1 else 0) + (if wkbFlag raw 30 then 1 else 0)
  if !wkbFlag raw 31 && !wkbFlag raw 30 && !wkbFlag raw 29 && decide (number ≥ 1000) then
    if number / 1000 > 3 then none
    else (wkbTypeOf (number % 1000)).map (·, if number / 1000 = 3 then 4 else 3, false)
  else (wkbTypeOf number).map (·, dimensions, wkbFlag raw 29)

/-- The type of the members of a collection. -/
def wkbMemberType : SpatialGeometryType → SpatialGeometryType
  | .multiPoint => .point
  | .multiLineString => .lineString
  | .multiPolygon => .polygon
  | _ => .any

/-- The outermost geometry reports its header. -/
def WkbParser.report (parser : WkbParser) (top : Bool) (type : SpatialGeometryType)
    (dimensions : ℕ) (hasSrid : Bool) (srid : ℕ) : WkbParser :=
  if top then
    { parser with
      result :=
        { parser.result with
          type := type
          dimensions := dimensions
          hasSrid := hasSrid
          srid := srid.toUInt32 } }
  else parser

/-- The outermost geometry reports that it is empty. -/
def WkbParser.reportEmpty (parser : WkbParser) (top empty : Bool) : WkbParser :=
  if top && empty then { parser with result := { parser.result with empty := true } } else parser

/-- The rest of `vps_wkb_geometry` behind the header; `member` reads a geometry one level deeper. -/
def wkbBody (little top : Bool) (type : SpatialGeometryType) (dimensions : ℕ)
    (member : SpatialGeometryType → ℕ → WkbParser → Except WkbParser WkbParser)
    (parser : WkbParser) : Except WkbParser WkbParser :=
  if type = .point then do
    let (empty, parser) ← wkbPoint little dimensions parser
    .ok (parser.reportEmpty top empty)
  else do
    let (count, parser) ← wkbUint32 little parser
    if count > parser.room ∧ (type = .lineString ∨ type = .multiPoint) then .error parser.exceeded
    else
      let parser := parser.reportEmpty top (count == 0)
      match type with
      | .lineString =>
        if count ≠ 0 ∧ count < 2 then .error parser
        else wkbLoop (wkbPosition little dimensions) count parser
      | .polygon => wkbLoop (wkbRing little dimensions) count parser
      | type => wkbLoop (member (wkbMemberType type) dimensions) count parser

/-- The SRID behind the raw type, where there is one. -/
def wkbSrid (little hasSrid : Bool) (parser : WkbParser) : Except WkbParser (ℕ × WkbParser) :=
  if hasSrid then wkbUint32 little parser else .ok (0, parser)

/-- **`vps_wkb_geometry`**, with the levels that are left below the limit. -/
def wkbGeometry :
    ℕ → Bool → SpatialGeometryType → ℕ → WkbParser → Except WkbParser WkbParser
  | 0, _, _, _, parser => .error parser.exceeded
  | levels + 1, top, expected, inherited, parser =>
    match parser.rest with
    | [] => .error { parser with limitFailure := false }
    | order :: _ =>
      let parser := parser.drop 1
      if order ≠ 0 ∧ order ≠ 1 then .error parser
      else do
        let little := order == 1
        let (raw, parser) ← wkbUint32 little parser
        match wkbHeader raw with
        | none => .error parser
        | some (type, dimensions, hasSrid) =>
          if (expected ≠ .any ∧ expected ≠ type) ∨ (inherited ≠ 0 ∧ inherited ≠ dimensions) then
            .error parser
          else
            let (srid, parser) ← wkbSrid little hasSrid parser
            wkbBody little top type dimensions (wkbGeometry levels false)
              (parser.report top type dimensions hasSrid srid)

/-- The SRID that the caller expects. -/
def binarySrid (expectedSrid : UInt32) (result : SpatialValidation) :
    SpatialResult × Option SpatialValidation :=
  if expectedSrid = 0 then (.ok, some result)
  else if !result.hasSrid then (.ok, some { result with hasSrid := true, srid := expectedSrid })
  else if result.srid ≠ expectedSrid then (.sridMismatch, some result)
  else (.ok, some result)

/-- The tail of `vps_spatial_validate_binary` that reports malformed bytes. -/
def wkbMalformed (length : ℕ) (parser : WkbParser) : SpatialResult × Option SpatialValidation :=
  (if parser.limitFailure then .limitExceeded else .malformed,
    some { parser.result with errorOffset := length - parser.rest.length })

/-- **`vps_spatial_validate_binary`** -/
def validateBinary (bytes : List UInt8) (format : SpatialFormat)
    (expectedType : SpatialGeometryType) (expectedSrid : UInt32) (limits : Option SpatialLimits) :
    SpatialResult × Option SpatialValidation :=
  let limits := spatialLimits limits
  if format ≠ .wkb ∧ format ≠ .ewkb then (.invalidArgument, none)
  else if bytes.length = 0 ∨ bytes.length > limits.maxBytes then
    (if bytes.length > limits.maxBytes then .limitExceeded else .malformed, none)
  else match wkbGeometry limits.maxDepth true expectedType 0 { rest := bytes, limits } with
  | .error parser => wkbMalformed bytes.length parser
  | .ok parser =>
    if parser.rest ≠ [] then wkbMalformed bytes.length parser
    else if format = .ewkb ∧ !parser.result.hasSrid then (.malformed, none)
    else binarySrid expectedSrid parser.result

end Vps
