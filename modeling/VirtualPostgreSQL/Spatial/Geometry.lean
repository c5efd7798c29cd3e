import VirtualPostgreSQL.Spatial.Wkb

/-!
# Spatial/Geometry — geometries, their text and their bytes

A geometry is a finite tree: points, lines and polygons at the leaves, collections above them, any
of them possibly empty.  It has one text, up to the spaces between its tokens (`Spells`), and one
encoding in bytes for each choice of a byte order and a way to write the dimensions at each of its
levels; that choice is carried by the tree, and read by the bytes alone.
-/

namespace Vps

open Machinery

/-! ## Geometries -/

/-- The axes beside the first two. -/
inductive SpatialAxes
  | xy | xyz | xym | xyzm
  deriving DecidableEq, Repr

namespace SpatialAxes

/-- The numbers of a coordinate. -/
def dimensions : SpatialAxes → ℕ
  | xy => 2
  | xyz | xym => 3
  | xyzm => 4

/-- The word behind the type. -/
def tokens : SpatialAxes → List WktToken
  | xy => []
  | xyz => [.word (ascii "Z")]
  | xym => [.word (ascii "M")]
  | xyzm => [.word (ascii "ZM")]

/-- The thousands of the type. -/
def thousands : SpatialAxes → ℕ
  | xy => 0
  | xyz => 1
  | xym => 2
  | xyzm => 3

/-- The flags of the type. -/
def flags : SpatialAxes → ℕ
  | xy => 0
  | xyz => 2 ^ 31
  | xym => 2 ^ 30
  | xyzm => 2 ^ 31 + 2 ^ 30

end SpatialAxes

/-- The geometries with members. -/
inductive CollectionKind
  | multiPoint | multiLineString | multiPolygon | geometryCollection
  deriving DecidableEq, Repr

/-- The type of a collection. -/
def CollectionKind.type : CollectionKind → SpatialGeometryType
  | multiPoint => .multiPoint
  | multiLineString => .multiLineString
  | multiPolygon => .multiPolygon
  | geometryCollection => .geometryCollection

/-- How a level is written in bytes. -/
structure WkbForm where
  little : Bool := true
  flagged : Bool := false
  deriving DecidableEq, Repr

/-- **A geometry**, with the form in which each of its levels is written in bytes.  A coordinate is
the list of the bits of its numbers. -/
inductive Geometry
  | point (form : WkbForm) (position : Option (List UInt64))
  | lineString (form : WkbForm) (positions : List (List UInt64))
  | polygon (form : WkbForm) (rings : List (List (List UInt64)))
  | collection (form : WkbForm) (kind : CollectionKind) (members : List Geometry)

namespace Geometry

/-- The type. -/
def type : Geometry → SpatialGeometryType
  | point .. => .point
  | lineString .. => .lineString
  | polygon .. => .polygon
  | collection _ kind _ => kind.type

theorem type_ne_any (geometry : Geometry) : geometry.type ≠ .any := by
  cases geometry with
  | collection form kind members => cases kind <;> simp [type, CollectionKind.type]
  | _ => simp [type]

/-- A geometry without components. -/
def isEmpty : Geometry → Bool
  | point _ position => position.isNone
  | lineString _ positions => positions.isEmpty
  | polygon _ rings => rings.isEmpty
  | collection _ _ members => members.isEmpty

mutual

/-- How many coordinates a geometry has. -/
def positions : Geometry → ℕ
  | point _ position => position.toList.length
  | lineString _ positions => positions.length
  | polygon _ rings => (rings.map List.length).sum
  | collection _ _ members => positionsOf members

/-- The coordinates of the members. -/
def positionsOf : List Geometry → ℕ
  | [] => 0
  | member :: members => positions member + positionsOf members

end

mutual

/-- The levels of a geometry. -/
def depth : Geometry → ℕ
  | collection _ _ members => depthOf members + 1
  | _ => 1

/-- The levels of the members. -/
def depthOf : List Geometry → ℕ
  | [] => 0
  | member :: members => max (depth member) (depthOf members)

end

mutual

/-- A property of a geometry and of all its components. -/
def All (P : Geometry → Prop) : Geometry → Prop
  | point form position => P (point form position)
  | lineString form positions => P (lineString form positions)
  | polygon form rings => P (polygon form rings)
  | collection form kind members => P (collection form kind members) ∧ AllOf P members

/-- A property of the members and of all their components. -/
def AllOf (P : Geometry → Prop) : List Geometry → Prop
  | [] => True
  | member :: members => All P member ∧ AllOf P members

end

/-- A tree that holds of the members holds of the collection: the induction on geometries. -/
theorem induction {P : Geometry → Prop} (point : ∀ form position, P (point form position))
    (lineString : ∀ form positions, P (lineString form positions))
    (polygon : ∀ form rings, P (polygon form rings))
    (collection : ∀ form kind members, (∀ member ∈ members, P member) →
      P (collection form kind members)) : ∀ geometry, P geometry
  | .point form position => point form position
  | .lineString form positions => lineString form positions
  | .polygon form rings => polygon form rings
  | .collection form kind members => collection form kind members fun member hmember => by
      have := List.sizeOf_lt_of_mem hmember
      exact induction point lineString polygon collection member
termination_by geometry => sizeOf geometry

/-- A list of members has the positions of its members, added up. -/
theorem positionsOf_eq (members : List Geometry) :
    positionsOf members = (members.map positions).sum := by
  induction members with
  | nil => rfl
  | cons member members ih => rw [positionsOf, ih, List.map_cons, List.sum_cons]

/-- No member is deeper than the list it is in. -/
theorem depth_le_depthOf {members : List Geometry} {member : Geometry} (h : member ∈ members) :
    member.depth ≤ depthOf members := by
  induction members with
  | nil => cases h
  | cons first members ih =>
    rw [depthOf]
    rcases List.mem_cons.mp h with rfl | h
    · exact le_max_left _ _
    · exact (ih h).trans (le_max_right _ _)

/-- What holds all through a list of members holds all through each of them. -/
theorem allOf_iff {P : Geometry → Prop} {members : List Geometry} :
    AllOf P members ↔ ∀ member ∈ members, All P member := by
  induction members with
  | nil => simp [AllOf]
  | cons member members ih => rw [AllOf, ih, List.forall_mem_cons]

/-- What holds all through a collection holds of it and all through each member. -/
theorem all_collection {P : Geometry → Prop} {form : WkbForm} {kind : CollectionKind}
    {members : List Geometry} : All P (collection form kind members) ↔
      P (collection form kind members) ∧ ∀ member ∈ members, All P member := by
  rw [All, allOf_iff]

/-! ### Well-formed geometries -/

/-- A coordinate: as many finite numbers as there are dimensions. -/
def IsPosition (axes : SpatialAxes) (position : List UInt64) : Prop :=
  position.length = axes.dimensions ∧ ∀ bits ∈ position, isFiniteDouble bits

/-- The components of a geometry fit it, and their number fits a count in bytes. -/
def Fits (axes : SpatialAxes) : Geometry → Prop
  | point _ position => ∀ p ∈ position, IsPosition axes p
  | lineString _ positions => positions.length < 2 ^ 32 ∧ ∀ p ∈ positions, IsPosition axes p
  | polygon _ rings => rings.length < 2 ^ 32 ∧
    ∀ ring ∈ rings, ring.length < 2 ^ 32 ∧ ∀ p ∈ ring, IsPosition axes p
  | collection _ kind members => members.length < 2 ^ 32 ∧
    ∀ member ∈ members, kind = .geometryCollection ∨ member.type = wkbMemberType kind.type

/-- **A geometry over the axes.** -/
def WellFormed (axes : SpatialAxes) : Geometry → Prop := All (Fits axes)

/-- A line that is not empty has two coordinates, a ring that is not empty four. -/
def LongEnough : Geometry → Prop
  | lineString _ positions => positions = [] ∨ 2 ≤ positions.length
  | polygon _ rings => ∀ ring ∈ rings, ring = [] ∨ 4 ≤ ring.length
  | _ => True

/-- No component is empty. -/
def Full : Geometry → Prop
  | polygon _ rings => ∀ ring ∈ rings, ring ≠ []
  | collection _ _ members => ∀ member ∈ members, ¬member.isEmpty
  | _ => True

/-- No component is empty, except that a `GEOMETRYCOLLECTION` may have empty members. -/
def Solid : Geometry → Prop
  | polygon _ rings => ∀ ring ∈ rings, ring ≠ []
  | collection _ kind members =>
    kind = .geometryCollection ∨ ∀ member ∈ members, ¬member.isEmpty
  | _ => True

/-! ### Text -/

/-- Items with commas between them. -/
def commaSeparated : List (List WktToken) → List WktToken
  | [] => []
  | [item] => item
  | item :: items => item ++ .comma :: commaSeparated items

/-- A list of items in parentheses, or the word for none. -/
def listTokens (items : List (List WktToken)) : List WktToken :=
  if items = [] then [.word (ascii "EMPTY")] else .left :: (commaSeparated items ++ [.right])

/-- The word of a type. -/
def typeWord : SpatialGeometryType → List UInt8
  | .point => ascii "POINT"
  | .lineString => ascii "LINESTRING"
  | .polygon => ascii "POLYGON"
  | .multiPoint => ascii "MULTIPOINT"
  | .multiLineString => ascii "MULTILINESTRING"
  | .multiPolygon => ascii "MULTIPOLYGON"
  | .geometryCollection => ascii "GEOMETRYCOLLECTION"
  | .any => []

section Text

variable (write : UInt64 → List UInt8) (axes : SpatialAxes)

/-- The numbers of a coordinate. -/
def positionTokens (position : List UInt64) : List WktToken :=
  position.map fun bits => .number (write bits)

/-- The coordinates of a line or a ring. -/
def positionsTokens (positions : List (List UInt64)) : List WktToken :=
  listTokens (positions.map (positionTokens write))

/-- The type and the axes in front of a geometry. -/
def headTokens (type : SpatialGeometryType) : List WktToken := .word (typeWord type) :: axes.tokens

mutual

/-- What stands behind the type of a geometry. -/
def bodyTokens : Geometry → List WktToken
  | point _ position => listTokens (position.toList.map (positionTokens write))
  | lineString _ positions => positionsTokens write positions
  | polygon _ rings => listTokens (rings.map (positionsTokens write))
  | collection _ kind members => listTokens (memberTokens kind members)

/-- The members of a collection; those of a `GEOMETRYCOLLECTION` name their types. -/
def memberTokens (kind : CollectionKind) : List Geometry → List (List WktToken)
  | [] => []
  | member :: members =>
    (if kind = .geometryCollection then headTokens axes member.type ++ bodyTokens member
      else bodyTokens member) :: memberTokens kind members

end

/-- **The tokens of a geometry.** -/
def tokens (geometry : Geometry) : List WktToken :=
  headTokens axes geometry.type ++ bodyTokens write axes geometry

/-- Members are written one by one; only those of a GEOMETRYCOLLECTION bring their keyword. -/
theorem memberTokens_eq (kind : CollectionKind) (members : List Geometry) :
    memberTokens write axes kind members = members.map fun member =>
      if kind = .geometryCollection then tokens write axes member
      else bodyTokens write axes member := by
  induction members with
  | nil => rw [memberTokens, List.map_nil]
  | cons member members ih => rw [memberTokens, ih, List.map_cons, tokens]

end Text

/-! ### Bytes -/

/-- A number in either byte order. -/
def wkbBytes (little : Bool) (k n : ℕ) : List UInt8 := if little then leBytes k n else beBytes k n

/-- The number of a type. -/
def typeNumber : SpatialGeometryType → ℕ
  | .any => 0
  | .point => 1
  | .lineString => 2
  | .polygon => 3
  | .multiPoint => 4
  | .multiLineString => 5
  | .multiPolygon => 6
  | .geometryCollection => 7

section Bytes

variable (axes : SpatialAxes)

/-- The raw type: the dimensions are flags, or thousands. -/
def rawType (form : WkbForm) (type : SpatialGeometryType) : ℕ :=
  typeNumber type + if form.flagged then axes.flags else 1000 * axes.thousands

/-- The byte order and the type. -/
def headBytes (form : WkbForm) (type : SpatialGeometryType) : List UInt8 :=
  (if form.little then 1 else 0) :: wkbBytes form.little 4 (rawType axes form type)

/-- The numbers of a coordinate. -/
def positionBytes (form : WkbForm) (position : List UInt64) : List UInt8 :=
  position.flatMap fun bits => wkbBytes form.little 8 bits.toNat

/-- The bits of a number that is none. -/
def nanBits : UInt64 := 0x7ff8000000000000

/-- A ring. -/
def ringBytes (form : WkbForm) (ring : List (List UInt64)) : List UInt8 :=
  wkbBytes form.little 4 ring.length ++ ring.flatMap (positionBytes form)

mutual

/-- **The bytes of a geometry.**  An empty point has no numbers for its coordinate. -/
def wkb : Geometry → List UInt8
  | point form position => headBytes axes form .point ++
    positionBytes form (position.getD (List.replicate axes.dimensions nanBits))
  | lineString form positions => headBytes axes form .lineString ++
    (wkbBytes form.little 4 positions.length ++ positions.flatMap (positionBytes form))
  | polygon form rings => headBytes axes form .polygon ++
    (wkbBytes form.little 4 rings.length ++ rings.flatMap (ringBytes form))
  | collection form kind members => headBytes axes form kind.type ++
    (wkbBytes form.little 4 members.length ++ wkbOf members)

/-- The bytes of the members. -/
def wkbOf : List Geometry → List UInt8
  | [] => []
  | member :: members => wkb member ++ wkbOf members

end

/-- The members of a collection are written one behind the other. -/
theorem wkbOf_eq (members : List Geometry) : wkbOf axes members = members.flatMap (wkb axes) := by
  induction members with
  | nil => rw [wkbOf, List.flatMap_nil]
  | cons member members ih => rw [wkbOf, ih, List.flatMap_cons]

end Bytes

end Geometry

end Vps
