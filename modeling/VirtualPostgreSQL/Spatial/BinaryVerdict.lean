import VirtualPostgreSQL.Spatial.Geometry

/-!
# Spatial/BinaryVerdict — which geometries the binary validator accepts

The bytes of a geometry are read back piece by piece; whether an item of a loop has a flaw may
depend on how many points are counted before it (`Decodes`).  The induction on the geometry gives
the verdict on the whole: `bodyDecoded`.
-/

namespace Vps

open Machinery

namespace WkbParser

/-- The parser behind an item with `n` points. -/
def read (parser : WkbParser) (follow : List UInt8) (n : ℕ) : WkbParser :=
  { parser with
    rest := follow
    result := { parser.result with pointCount := parser.result.pointCount + n } }

theorem read_read (parser : WkbParser) (follow follow' : List UInt8) (n n' : ℕ) :
    (parser.read follow n).read follow' n' = parser.read follow' (n + n') := by
  simp only [read, Nat.add_assoc]

/-- The bytes in front are taken. -/
theorem drop_append {parser : WkbParser} {bytes follow : List UInt8}
    (h : parser.rest = bytes ++ follow) : parser.drop bytes.length = parser.read follow 0 := by
  rw [drop, h, List.drop_left]
  rfl

end WkbParser

/-! ## Numbers -/

section Numbers

open Vps.Geometry

variable {parser : WkbParser} {follow : List UInt8}

@[simp] theorem length_wkbBytes (little : Bool) (k n : ℕ) : (wkbBytes little k n).length = k := by
  cases little
  · exact length_beBytes k n
  · exact length_leBytes k n

theorem wkbValue_wkbBytes (little : Bool) {k n : ℕ} (h : n < 256 ^ k) :
    wkbValue little (wkbBytes little k n) = n := by
  cases little
  · exact beValue_beBytes h
  · exact leValue_leBytes h

/-- Bytes that stand in front are there, are taken, and are passed over. -/
theorem takes_wkbBytes {little : Bool} {k n : ℕ}
    (hrest : parser.rest = wkbBytes little k n ++ follow) :
    ¬parser.rest.length < k ∧ parser.rest.take k = wkbBytes little k n ∧
      parser.drop k = parser.read follow 0 := by
  have hdrop := WkbParser.drop_append hrest
  rw [length_wkbBytes] at hdrop
  refine ⟨?_, ?_, hdrop⟩
  · rw [hrest, List.length_append, length_wkbBytes]
    omega
  · rw [hrest, List.take_left' (length_wkbBytes little k n)]

/-- **A word is read from its bytes.** -/
theorem wkbUint32_append {little : Bool} {n : ℕ} (hn : n < 2 ^ 32)
    (hrest : parser.rest = wkbBytes little 4 n ++ follow) :
    wkbUint32 little parser = .ok (n, parser.read follow 0) := by
  obtain ⟨hlength, htake, hdrop⟩ := takes_wkbBytes hrest
  rw [wkbUint32, if_neg hlength, htake, hdrop, wkbValue_wkbBytes little (by simpa using hn)]

/-- **A double is read from its bytes.** -/
theorem wkbDouble_append {little : Bool} {bits : UInt64}
    (hrest : parser.rest = wkbBytes little 8 bits.toNat ++ follow) :
    wkbDouble little parser = .ok (bits, parser.read follow 0) := by
  obtain ⟨hlength, htake, hdrop⟩ := takes_wkbBytes hrest
  have hbits : bits.toNat.toUInt64 = bits := UInt64.ofNat_toNat
  rw [wkbDouble, if_neg hlength, htake, hdrop,
    wkbValue_wkbBytes little (by simpa using bits.toNat_lt), hbits]

theorem not_isNanDouble {bits : UInt64} (h : isFiniteDouble bits) : isNanDouble bits = false := by
  have hexponent : doubleExponent bits ≠ 2047 := by simpa [isFiniteDouble] using h
  simp [isNanDouble, hexponent]

/-- Finite numbers are all taken, and none of them is counted. -/
theorem wkbOrdinates_finite {form : WkbForm} {position : List UInt64}
    (hfinite : ∀ bits ∈ position, isFiniteDouble bits) (nans : ℕ)
    (hrest : parser.rest = positionBytes form position ++ follow) :
    wkbOrdinates form.little position.length nans parser = .ok (nans, parser.read follow 0) := by
  induction position generalizing parser with
  | nil =>
    obtain ⟨rest, limits, result, limitFailure⟩ := parser
    obtain rfl : rest = follow := hrest
    rfl
  | cons bits position ih =>
    have hbits := hfinite bits List.mem_cons_self
    rw [positionBytes, List.flatMap_cons, List.append_assoc] at hrest
    rw [List.length_cons, wkbOrdinates, wkbDouble_append hrest, ok_bind]
    dsimp only
    rw [if_neg (by simp [not_isNanDouble hbits]), if_neg (by simp [hbits]),
      ih (fun b hb => hfinite b (List.mem_cons_of_mem _ hb)) rfl]
    rfl

/-- Numbers that are none are counted. -/
theorem wkbOrdinates_nan {form : WkbForm} (dimensions nans : ℕ)
    (hrest : parser.rest = positionBytes form (List.replicate dimensions nanBits) ++ follow) :
    wkbOrdinates form.little dimensions nans parser =
      .ok (nans + dimensions, parser.read follow 0) := by
  induction dimensions generalizing parser nans with
  | zero =>
    obtain ⟨rest, limits, result, limitFailure⟩ := parser
    obtain rfl : rest = follow := hrest
    rfl
  | succ dimensions ih =>
    have hnan : isNanDouble nanBits = true := by decide
    rw [positionBytes, List.replicate_succ, List.flatMap_cons, List.append_assoc] at hrest
    rw [wkbOrdinates, wkbDouble_append hrest, ok_bind]
    dsimp only
    rw [if_pos hnan, ih (nans + 1) rfl, Nat.add_right_comm]
    rfl

end Numbers

/-! ## Loops -/

/-- Why bytes are refused: something has too few coordinates, or too many members for the points
that are left. -/
inductive BinaryFlaw
  | short | crowded
  deriving DecidableEq, Repr

/-- The parser has stopped at a flaw. -/
def StopsFor (parser : WkbParser) (flaw : BinaryFlaw) : Prop :=
  parser.limitFailure = decide (flaw = .crowded)

/-- **An item is read from its bytes**: the parser stands behind it, or has stopped at its flaw. -/
def Decodes {α : Type} (limits : SpatialLimits) (item : WkbParser → Except WkbParser WkbParser)
    (bytes : α → List UInt8) (points : α → ℕ) (flaw : ℕ → α → Option BinaryFlaw) (x : α) : Prop :=
  ∀ (parser : WkbParser) (follow : List UInt8), parser.limits = limits →
    parser.limitFailure = false → parser.rest = bytes x ++ follow →
    parser.result.pointCount + points x ≤ limits.maxPoints →
    Judged StopsFor (flaw parser.result.pointCount x) (item parser) (parser.read follow (points x))

section Loops

variable {α : Type} {points : α → ℕ} {flaw : ℕ → α → Option BinaryFlaw}

/-- **The loop reads its items**, each behind the points of those before it. -/
theorem wkbLoop_judged {limits : SpatialLimits} {item : WkbParser → Except WkbParser WkbParser}
    {bytes : α → List UInt8} {xs : List α}
    (hitems : ∀ x ∈ xs, Decodes limits item bytes points flaw x) (parser : WkbParser)
    {follow : List UInt8} (hlimits : parser.limits = limits)
    (hfailure : parser.limitFailure = false) (hrest : parser.rest = xs.flatMap bytes ++ follow)
    (hpoints : parser.result.pointCount + (xs.map points).sum ≤ limits.maxPoints) :
    Judged StopsFor (firstFrom points flaw parser.result.pointCount xs)
      (wkbLoop item xs.length parser) (parser.read follow (xs.map points).sum) := by
  induction xs generalizing parser with
  | nil =>
    obtain ⟨rest, limits, result, limitFailure⟩ := parser
    obtain rfl : rest = follow := hrest
    exact Judged.ok
  | cons x xs ih =>
    rw [List.flatMap_cons, List.append_assoc] at hrest
    rw [List.map_cons, List.sum_cons] at hpoints ⊢
    have hx := hitems x List.mem_cons_self parser _ hlimits hfailure hrest (by omega)
    have hxs := ih (fun y hy => hitems y (List.mem_cons_of_mem _ hy))
      (parser.read (xs.flatMap bytes ++ follow) (points x)) hlimits hfailure rfl
      (by simp only [WkbParser.read]; omega)
    rw [WkbParser.read_read] at hxs
    exact hx.bind fun _ => hxs

end Loops

/-! ## Coordinates and rings -/

section Parts

open Vps.Geometry

variable {axes : SpatialAxes} {limits : SpatialLimits} (form : WkbForm)

theorem dimensions_ne_zero (axes : SpatialAxes) : axes.dimensions ≠ 0 := by
  cases axes <;> decide

/-- **A point** with or without a coordinate is read as what it is. -/
theorem wkbPoint_append (position : Option (List UInt64))
    (hposition : ∀ p ∈ position, IsPosition axes p) {parser : WkbParser} {follow : List UInt8}
    (hrest : parser.rest = positionBytes form
      (position.getD (List.replicate axes.dimensions nanBits)) ++ follow)
    (hpoints : parser.result.pointCount + position.toList.length ≤ parser.limits.maxPoints) :
    wkbPoint form.little axes.dimensions parser =
      .ok (position.isNone, parser.read follow position.toList.length) := by
  have hdimensions := dimensions_ne_zero axes
  unfold wkbPoint
  cases position with
  | none =>
    rw [wkbOrdinates_nan axes.dimensions 0 hrest, ok_bind]
    simp
  | some p =>
    obtain ⟨hlength, hfinite⟩ := hposition p rfl
    have hread := wkbOrdinates_finite hfinite 0 hrest
    rw [hlength] at hread
    have hroom : ¬parser.result.pointCount = parser.limits.maxPoints := Nat.ne_of_lt hpoints
    rw [hread, ok_bind]
    simp [hdimensions.symm, hroom, WkbParser.count, WkbParser.read]

/-- A coordinate is read. -/
theorem decodes_position {position : List UInt64} (hposition : IsPosition axes position) :
    Decodes limits (wkbPosition form.little axes.dimensions) (positionBytes form) (fun _ => 1)
      (fun _ _ => none) position := by
  intro parser follow hlimits _ hrest hpoints
  have hpoint := wkbPoint_append form (some position)
    (fun p hp => by cases hp; exact hposition) hrest (by rw [hlimits]; exact hpoints)
  unfold wkbPosition
  rw [hpoint, ok_bind]
  exact Judged.ok

/-- Coordinates are read. -/
theorem wkbPositions_append {positions : List (List UInt64)}
    (hpositions : ∀ position ∈ positions, IsPosition axes position) (parser : WkbParser)
    {follow : List UInt8} (hfailure : parser.limitFailure = false)
    (hrest : parser.rest = positions.flatMap (positionBytes form) ++ follow)
    (hpoints : parser.result.pointCount + positions.length ≤ parser.limits.maxPoints) :
    wkbLoop (wkbPosition form.little axes.dimensions) positions.length parser =
      .ok (parser.read follow positions.length) := by
  have hsum : (positions.map fun _ => 1).sum = positions.length := by simp
  have hloop := wkbLoop_judged (fun position hmem => decodes_position form
    (hpositions position hmem)) parser rfl hfailure hrest (by rw [hsum]; exact hpoints)
  rw [hsum] at hloop
  exact hloop.1 (firstFrom_eq_none (fun _ _ _ => rfl) _)

/-- The flaw of a line or a ring: it is neither empty nor long enough. -/
def shortFlaw (minimum : ℕ) (positions : List (List UInt64)) : Option BinaryFlaw :=
  if positions.length ≠ 0 ∧ positions.length < minimum then some .short else none

/-- **A ring** is read if it is empty or has four coordinates. -/
theorem decodes_ring {ring : List (List UInt64)} (hcount : ring.length < 2 ^ 32)
    (hring : ∀ position ∈ ring, IsPosition axes position) :
    Decodes limits (wkbRing form.little axes.dimensions) (ringBytes form) List.length
      (fun _ => shortFlaw 4) ring := by
  intro parser follow hlimits hfailure hrest hpoints
  rw [ringBytes, List.append_assoc] at hrest
  have hroom :
    ¬ring.length > (parser.read (ring.flatMap (positionBytes form) ++ follow) 0).room := by
    simp only [WkbParser.room, WkbParser.read, hlimits]
    omega
  have hpositions := wkbPositions_append form hring
    (parser.read (ring.flatMap (positionBytes form) ++ follow) 0) hfailure rfl
    (by rw [WkbParser.read, hlimits]; exact hpoints)
  rw [WkbParser.read_read, Nat.zero_add] at hpositions
  unfold wkbRing shortFlaw
  rw [wkbUint32_append hcount hrest, ok_bind]
  dsimp only
  by_cases hshort : ring.length ≠ 0 ∧ ring.length < 4
  · rw [if_pos hshort, if_pos (.inl hshort)]
    exact Judged.error hfailure
  · rw [if_neg hshort, if_neg (not_or.mpr ⟨hshort, hroom⟩), hpositions]
    exact Judged.ok

end Parts

/-! ## Geometries -/

namespace Geometry

mutual

/-- **Why the bytes of a geometry are refused**, behind some points: a line or a ring is too short,
or a `MULTIPOINT` has more members than points are left for it, empty ones among them. -/
def binaryFlaw (maxPoints : ℕ) : ℕ → Geometry → Option BinaryFlaw
  | _, point .. => none
  | _, lineString _ positions => shortFlaw 2 positions
  | used, polygon _ rings => firstFrom List.length (fun _ => shortFlaw 4) used rings
  | used, collection _ kind members =>
    if members.length > maxPoints - used ∧ kind = .multiPoint then some .crowded
    else binaryFlawOf maxPoints used members

/-- Why the bytes of the members are refused. -/
def binaryFlawOf (maxPoints : ℕ) : ℕ → List Geometry → Option BinaryFlaw
  | _, [] => none
  | used, member :: members =>
    (binaryFlaw maxPoints used member).or (binaryFlawOf maxPoints (used + positions member) members)

end

theorem binaryFlawOf_eq {maxPoints used : ℕ} {members : List Geometry} :
    binaryFlawOf maxPoints used members =
      firstFrom positions (binaryFlaw maxPoints) used members := by
  induction members generalizing used with
  | nil => rw [binaryFlawOf, firstFrom]
  | cons member members ih => rw [binaryFlawOf, ih, firstFrom]

/-- The form of the outermost level. -/
def form : Geometry → WkbForm
  | point form _ => form
  | lineString form _ => form
  | polygon form _ => form
  | collection form _ _ => form

/-- The bytes behind the header. -/
def bodyBytes (axes : SpatialAxes) : Geometry → List UInt8
  | point form position =>
    positionBytes form (position.getD (List.replicate axes.dimensions nanBits))
  | lineString form positions =>
    wkbBytes form.little 4 positions.length ++ positions.flatMap (positionBytes form)
  | polygon form rings => wkbBytes form.little 4 rings.length ++ rings.flatMap (ringBytes form)
  | collection form _ members => wkbBytes form.little 4 members.length ++ members.flatMap (wkb axes)

theorem wkb_eq (axes : SpatialAxes) (geometry : Geometry) :
    wkb axes geometry = headBytes axes geometry.form geometry.type ++ bodyBytes axes geometry := by
  cases geometry with
  | collection form kind members =>
    rw [wkb, wkbOf_eq]
    rfl
  | _ => rw [wkb]; rfl

end Geometry

section Geometries

open Vps.Geometry

variable {axes : SpatialAxes} {limits : SpatialLimits}

theorem wkbHeader_rawType (form : WkbForm) {type : SpatialGeometryType} (htype : type ≠ .any) :
    wkbHeader (rawType axes form type) = some (type, axes.dimensions, false) := by
  obtain ⟨little, flagged⟩ := form
  cases type with
  | any => exact absurd rfl htype
  | _ => cases little <;> cases flagged <;> cases axes <;> decide

theorem rawType_lt (form : WkbForm) (type : SpatialGeometryType) :
    rawType axes form type < 2 ^ 32 := by
  obtain ⟨little, flagged⟩ := form
  cases little <;> cases flagged <;> cases axes <;> cases type <;> decide

/-- **The header is read**: the type has to be the expected one. -/
theorem wkbGeometry_head {form : WkbForm} {type expected : SpatialGeometryType}
    (htype : type ≠ .any) {inherited : ℕ} (hinherited : inherited = 0 ∨ inherited = axes.dimensions)
    (levels : ℕ) (top : Bool) {parser : WkbParser} {rest : List UInt8}
    (hfailure : parser.limitFailure = false)
    (hrest : parser.rest = headBytes axes form type ++ rest) {fault : Option BinaryFlaw}
    {after : WkbParser}
    (hbody : Judged StopsFor fault (wkbBody form.little top type axes.dimensions
      (wkbGeometry levels false) ((parser.read rest 0).report top type axes.dimensions false 0))
        after) :
    Judged StopsFor (if expected = .any ∨ expected = type then fault else some .short)
      (wkbGeometry (levels + 1) top expected inherited parser) after := by
  rw [headBytes, List.cons_append] at hrest
  have horder : ¬((if form.little then (1 : UInt8) else 0) ≠ 0 ∧
      (if form.little then (1 : UInt8) else 0) ≠ 1) := by
    cases form.little <;> decide
  have hlittle : ((if form.little then (1 : UInt8) else 0) == 1) = form.little := by
    cases form.little <;> rfl
  have htail : (parser.drop 1).rest = wkbBytes form.little 4 (rawType axes form type) ++ rest := by
    rw [WkbParser.drop, hrest]
    rfl
  have hraw := wkbUint32_append (rawType_lt form type) htail
  have hread : (parser.drop 1).read rest 0 = parser.read rest 0 := rfl
  unfold wkbGeometry
  simp only [hrest, horder, if_false, hlittle, hraw, ok_bind, wkbHeader_rawType form htype, hread]
  by_cases hexpected : expected = .any ∨ expected = type
  · have haccept : ¬((expected ≠ .any ∧ expected ≠ type) ∨
        (inherited ≠ 0 ∧ inherited ≠ axes.dimensions)) := by tauto
    rw [if_pos hexpected, if_neg haccept]
    exact hbody
  · rw [if_neg hexpected, if_pos (.inl (not_or.mp hexpected))]
    exact Judged.error hfailure

/-- **The body of a geometry is judged**, at any depth that has room for it. -/
def BodyDecoded (axes : SpatialAxes) (limits : SpatialLimits) (geometry : Geometry) : Prop :=
  ∀ (levels : ℕ) (top : Bool) (parser : WkbParser) (follow : List UInt8),
    geometry.depth ≤ levels + 1 → parser.limits = limits → parser.limitFailure = false →
    parser.rest = bodyBytes axes geometry ++ follow →
    parser.result.pointCount + geometry.positions ≤ limits.maxPoints →
    Judged StopsFor (geometry.binaryFlaw limits.maxPoints parser.result.pointCount)
      (wkbBody geometry.form.little top geometry.type axes.dimensions (wkbGeometry levels false)
        parser)
      ((parser.reportEmpty top geometry.isEmpty).read follow geometry.positions)

/-- **A geometry is judged** by its type and its body. -/
theorem wkbGeometry_of_body {geometry : Geometry} (hbody : BodyDecoded axes limits geometry)
    {levels : ℕ} (hdepth : geometry.depth ≤ levels) (top : Bool) (expected : SpatialGeometryType)
    {inherited : ℕ} (hinherited : inherited = 0 ∨ inherited = axes.dimensions) (parser : WkbParser)
    {follow : List UInt8} (hlimits : parser.limits = limits)
    (hfailure : parser.limitFailure = false) (hrest : parser.rest = wkb axes geometry ++ follow)
    (hpoints : parser.result.pointCount + geometry.positions ≤ limits.maxPoints) :
    Judged StopsFor
      (if expected = .any ∨ expected = geometry.type then
        geometry.binaryFlaw limits.maxPoints parser.result.pointCount else some .short)
      (wkbGeometry levels top expected inherited parser)
      (((parser.report top geometry.type axes.dimensions false 0).reportEmpty top
        geometry.isEmpty).read follow geometry.positions) := by
  obtain ⟨levels, rfl⟩ : ∃ k, levels = k + 1 := Nat.exists_eq_succ_of_ne_zero (by
    rintro rfl
    cases geometry <;> simp [depth] at hdepth)
  rw [wkb_eq, List.append_assoc] at hrest
  refine wkbGeometry_head geometry.type_ne_any hinherited levels top hfailure hrest ?_
  have hjudged := hbody levels top ((parser.read (bodyBytes axes geometry ++ follow) 0).report top
    geometry.type axes.dimensions false 0) follow hdepth (by cases top <;> exact hlimits)
    (by cases top <;> exact hfailure) (by cases top <;> rfl) (by cases top <;> exact hpoints)
  have hcount : ((parser.read (bodyBytes axes geometry ++ follow) 0).report top geometry.type
      axes.dimensions false 0).result.pointCount = parser.result.pointCount := by
    cases top <;> rfl
  have hafter : ((((parser.read (bodyBytes axes geometry ++ follow) 0).report top geometry.type
      axes.dimensions false 0).reportEmpty top geometry.isEmpty).read follow geometry.positions) =
      (((parser.report top geometry.type axes.dimensions false 0).reportEmpty top
        geometry.isEmpty).read follow geometry.positions) := by
    cases top <;> cases geometry.isEmpty <;> rfl
  rwa [hcount, hafter] at hjudged

theorem reportEmpty_read (parser : WkbParser) (top empty : Bool)
    (rest follow : List UInt8) (n : ℕ) :
    ((parser.read rest 0).reportEmpty top empty).read follow n =
      (parser.reportEmpty top empty).read follow n := by
  cases top <;> cases empty <;> rfl

/-- The parser in front of the components: the count is read. -/
theorem reportEmpty_fields (parser : WkbParser) (top empty : Bool) (rest : List UInt8) :
    ((parser.read rest 0).reportEmpty top empty).rest = rest ∧
      ((parser.read rest 0).reportEmpty top empty).limits = parser.limits ∧
      ((parser.read rest 0).reportEmpty top empty).limitFailure = parser.limitFailure ∧
      ((parser.read rest 0).reportEmpty top empty).result.pointCount =
        parser.result.pointCount := by
  cases top <;> cases empty <;> exact ⟨rfl, rfl, rfl, rfl⟩

/-- A point is read. -/
theorem bodyDecoded_point (form : WkbForm) {position : Option (List UInt64)}
    (hwell : WellFormed axes (point form position)) :
    BodyDecoded axes limits (point form position) := by
  intro levels top parser follow _ hlimits _ hrest hpoints
  have hpoint := wkbPoint_append form position hwell hrest (by rw [hlimits]; exact hpoints)
  have hafter : (parser.read follow position.toList.length).reportEmpty top position.isNone =
      (parser.reportEmpty top position.isNone).read follow position.toList.length := by
    cases top <;> cases position <;> rfl
  have hbody : wkbBody form.little top .point axes.dimensions (wkbGeometry levels false) parser =
      .ok ((parser.reportEmpty top position.isNone).read follow position.toList.length) := by
    unfold wkbBody
    rw [if_pos rfl, hpoint, ok_bind, ← hafter]
  exact ⟨fun _ => hbody, nofun⟩

/-- A line is read if it is empty or has two coordinates. -/
theorem bodyDecoded_lineString (form : WkbForm) {positions : List (List UInt64)}
    (hwell : WellFormed axes (lineString form positions)) :
    BodyDecoded axes limits (lineString form positions) := by
  intro levels top parser follow _ hlimits hfailure hrest hpoints
  obtain ⟨hcount, hpositions⟩ : positions.length < 2 ^ 32 ∧ _ := hwell
  change parser.result.pointCount + positions.length ≤ limits.maxPoints at hpoints
  change Judged StopsFor (shortFlaw 2 positions)
    (wkbBody form.little top .lineString axes.dimensions (wkbGeometry levels false) parser)
    ((parser.reportEmpty top positions.isEmpty).read follow positions.length)
  rw [bodyBytes, List.append_assoc] at hrest
  have hroom : ¬(positions.length > (parser.read
      (positions.flatMap (positionBytes form) ++ follow) 0).room ∧
        ((.lineString : SpatialGeometryType) = .lineString ∨
          (.lineString : SpatialGeometryType) = .multiPoint)) := by
    simp only [WkbParser.room, WkbParser.read, hlimits]
    omega
  have hempty : (positions.length == 0) = positions.isEmpty := by cases positions <;> rfl
  obtain ⟨hrest', hlimits', hfailure', hcount'⟩ := reportEmpty_fields parser top positions.isEmpty
    (positions.flatMap (positionBytes form) ++ follow)
  have hloop := wkbPositions_append form hpositions _ (hfailure'.trans hfailure) hrest'
    (by rw [hcount', hlimits', hlimits]; exact hpoints)
  rw [reportEmpty_read] at hloop
  unfold wkbBody
  rw [if_neg (by decide), wkbUint32_append hcount hrest, ok_bind]
  dsimp only
  rw [if_neg hroom, hempty, shortFlaw]
  by_cases hshort : positions.length ≠ 0 ∧ positions.length < 2
  · rw [if_pos hshort, if_pos hshort]
    exact Judged.error (hfailure'.trans hfailure)
  · rw [if_neg hshort, if_neg hshort, hloop]
    exact Judged.ok

/-- A polygon is read if its rings are. -/
theorem bodyDecoded_polygon (form : WkbForm) {rings : List (List (List UInt64))}
    (hwell : WellFormed axes (polygon form rings)) :
    BodyDecoded axes limits (polygon form rings) := by
  intro levels top parser follow _ hlimits hfailure hrest hpoints
  obtain ⟨hcount, hrings⟩ : rings.length < 2 ^ 32 ∧ _ := hwell
  change parser.result.pointCount + (rings.map List.length).sum ≤ limits.maxPoints at hpoints
  change Judged StopsFor
    (firstFrom List.length (fun _ => shortFlaw 4) parser.result.pointCount rings)
    (wkbBody form.little top .polygon axes.dimensions (wkbGeometry levels false) parser)
    ((parser.reportEmpty top rings.isEmpty).read follow (rings.map List.length).sum)
  rw [bodyBytes, List.append_assoc] at hrest
  have hempty : (rings.length == 0) = rings.isEmpty := by cases rings <;> rfl
  obtain ⟨hrest', hlimits', hfailure', hcount'⟩ := reportEmpty_fields parser top rings.isEmpty
    (rings.flatMap (ringBytes form) ++ follow)
  have hloop := wkbLoop_judged (fun ring hmem => decodes_ring form (hrings ring hmem).1
    (hrings ring hmem).2) _ (hlimits'.trans hlimits) (hfailure'.trans hfailure) hrest'
    (by rw [hcount']; exact hpoints)
  rw [reportEmpty_read, hcount'] at hloop
  unfold wkbBody
  rw [if_neg (by decide), wkbUint32_append hcount hrest, ok_bind]
  dsimp only
  rw [if_neg (by simp), hempty]
  exact hloop

/-- What a collection does behind its count. -/
theorem wkbBody_collection (kind : CollectionKind) {little top : Bool} {dimensions count : ℕ}
    {member : SpatialGeometryType → ℕ → WkbParser → Except WkbParser WkbParser}
    (hcount : count < 2 ^ 32) {parser : WkbParser} {rest : List UInt8}
    (hrest : parser.rest = wkbBytes little 4 count ++ rest) :
    wkbBody little top kind.type dimensions member parser =
      if count > parser.room ∧ kind = .multiPoint then .error (parser.read rest 0).exceeded
      else wkbLoop (member (wkbMemberType kind.type) dimensions) count
        ((parser.read rest 0).reportEmpty top (count == 0)) := by
  have hroom : (parser.read rest 0).room = parser.room := rfl
  cases kind <;>
    simp [wkbBody, CollectionKind.type, wkbUint32_append hcount hrest, hroom, ok_bind]

/-- **Every geometry is judged**: by induction, the members at one level less. -/
theorem bodyDecoded (geometry : Geometry) (hwell : WellFormed axes geometry) :
    BodyDecoded axes limits geometry := by
  induction geometry using Geometry.induction with
  | point form position => exact bodyDecoded_point form hwell
  | lineString form positions => exact bodyDecoded_lineString form hwell
  | polygon form rings => exact bodyDecoded_polygon form hwell
  | collection form kind members ih =>
    intro levels top parser follow hdepth hlimits hfailure hrest hpoints
    obtain ⟨⟨hcount, hfits⟩, hmembers⟩ := all_collection.mp hwell
    change parser.result.pointCount + positionsOf members ≤ limits.maxPoints at hpoints
    change Judged StopsFor
      ((collection form kind members).binaryFlaw limits.maxPoints parser.result.pointCount)
      (wkbBody form.little top kind.type axes.dimensions (wkbGeometry levels false) parser)
      ((parser.reportEmpty top members.isEmpty).read follow (positionsOf members))
    rw [bodyBytes, List.append_assoc] at hrest
    rw [positionsOf_eq] at hpoints ⊢
    have hempty : (members.length == 0) = members.isEmpty := by cases members <;> rfl
    obtain ⟨hrest', hlimits', hfailure', hcount'⟩ := reportEmpty_fields parser top members.isEmpty
      (members.flatMap (wkb axes) ++ follow)
    have hitem : ∀ member ∈ members, Decodes limits
        (wkbGeometry levels false (wkbMemberType kind.type) axes.dimensions) (wkb axes) positions
        (binaryFlaw limits.maxPoints) member := by
      intro member hmem parser follow hlimits hfailure hrest hpoints
      have hlevels := (depth_le_depthOf hmem).trans (Nat.le_of_succ_le_succ hdepth)
      have hexpected : wkbMemberType kind.type = .any ∨ wkbMemberType kind.type = member.type := by
        obtain rfl | htype := hfits member hmem
        · exact .inl rfl
        · exact .inr htype.symm
      exact (wkbGeometry_of_body (ih member hmem (hmembers member hmem)) hlevels false _ (.inr rfl)
        parser hlimits hfailure hrest hpoints).congr (if_pos hexpected)
    have hloop := wkbLoop_judged hitem _ (hlimits'.trans hlimits) (hfailure'.trans hfailure) hrest'
      (by rw [hcount']; exact hpoints)
    rw [reportEmpty_read, hcount'] at hloop
    rw [wkbBody_collection kind hcount hrest, hempty, binaryFlaw, binaryFlawOf_eq]
    have hsame : parser.room = limits.maxPoints - parser.result.pointCount := by
      rw [WkbParser.room, hlimits]
    rw [hsame]
    by_cases hroom : members.length > limits.maxPoints - parser.result.pointCount ∧
      kind = .multiPoint
    · rw [if_pos hroom, if_pos hroom]
      exact Judged.error rfl
    · rw [if_neg hroom, if_neg hroom]
      exact hloop

end Geometries

end Vps
