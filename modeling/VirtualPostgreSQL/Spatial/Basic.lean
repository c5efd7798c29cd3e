import Mathlib.Data.UInt

/-!
# Spatial/Basic — what the validators of geometries share

The formats in which a geometry is written, the limits within which it is read and what is found out
about it.
-/

namespace Vps

/-- `VpsSpatialResult` -/
inductive SpatialResult
  | ok | invalidArgument | invalidResult | notAvailable | unsupported | malformed | limitExceeded
  | sridMismatch | outOfMemory
  deriving DecidableEq, Repr

/-- `VpsSpatialFormat` -/
inductive SpatialFormat
  | wkt | wkb | ewkt | ewkb | none | spatialite
  deriving DecidableEq, Repr

/-- `VpsSpatialGeometryType` -/
inductive SpatialGeometryType
  | any | point | lineString | polygon | multiPoint | multiLineString | multiPolygon
  | geometryCollection
  deriving DecidableEq, Repr

/-- `VpsSpatialLimits`; a zero stands for the default. -/
structure SpatialLimits where
  maxBytes : ℕ
  maxPoints : ℕ
  maxDepth : ℕ
  deriving DecidableEq, Repr

/-- `VpsSpatialValidation` -/
structure SpatialValidation where
  type : SpatialGeometryType := .any
  dimensions : ℕ := 0
  srid : UInt32 := 0
  pointCount : ℕ := 0
  errorOffset : ℕ := 0
  hasSrid : Bool := false
  empty : Bool := false
  deriving DecidableEq, Repr

/-- `vps_spatial_limits` -/
def spatialLimits (limits : Option SpatialLimits) : SpatialLimits :=
  let given := limits.getD ⟨0, 0, 0⟩
  { maxBytes := if given.maxBytes ≠ 0 then given.maxBytes else 16 * 1024 * 1024
    maxPoints := if given.maxPoints ≠ 0 then given.maxPoints else 1000000
    maxDepth := if given.maxDepth ≠ 0 then given.maxDepth else 64 }

theorem spatialLimits_pos (limits : Option SpatialLimits) :
    (spatialLimits limits).maxPoints ≠ 0 ∧ (spatialLimits limits).maxDepth ≠ 0 := by
  constructor
  · simp only [spatialLimits]
    split <;> omega
  · simp only [spatialLimits]
    split <;> omega

/-- The exponent of a double, by its bits. -/
def doubleExponent (bits : UInt64) : ℕ := bits.toNat / 2 ^ 52 % 2048

/-- `isfinite` -/
def isFiniteDouble (bits : UInt64) : Bool := doubleExponent bits != 2047

/-- `isnan` -/
def isNanDouble (bits : UInt64) : Bool :=
  doubleExponent bits == 2047 && bits.toNat % 2 ^ 52 != 0

end Vps
