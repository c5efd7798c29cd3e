import VirtualPostgreSQL.Machinery.Decimal
import VirtualPostgreSQL.Spatial.BinaryVerdict
import VirtualPostgreSQL.Spatial.TextVerdict

/-!
# Spatial/Agreement — the two validators on one geometry

Text and bytes of one geometry are judged by separate code.  The two verdicts differ where a
component is empty: the text validator refuses an empty ring and an empty member of a `MULTIPOINT`,
a `MULTILINESTRING` or a `MULTIPOLYGON`, and takes an empty member of a `GEOMETRYCOLLECTION` for the
whole.  They differ as well in how they call what both refuse: the text validator says that a limit
is exceeded wherever it stops behind as many coordinates as are allowed, the binary validator where
a `MULTIPOINT` has more members than that.  `verdicts_agree` says that nothing else separates them.
-/

namespace Vps

open Machinery Vps.Geometry

/-- What a validator says about a geometry that it accepts. -/
structure SpatialReport where
  type : SpatialGeometryType
  dimensions : ℕ
  pointCount : ℕ
  empty : Bool
  deriving DecidableEq, Repr

/-- **The verdict in an answer**: the result, and what is reported of a geometry that is
accepted. -/
def verdict : SpatialResult × Option SpatialValidation → SpatialResult × Option SpatialReport
  | (.ok, some result) =>
    (.ok, some ⟨result.type, result.dimensions, result.pointCount, result.empty⟩)
  | (result, _) => (result, none)

/-- A refusal is the result alone. -/
theorem verdict_of_ne_ok {result : SpatialResult} {found : Option SpatialValidation}
    (h : result ≠ .ok) : verdict (result, found) = (result, none) := by
  cases result with
  | ok => exact absurd rfl h
  | _ => rfl

/-- How the text validator calls a text that it refuses behind so many coordinates. -/
def textRefusal (maxPoints points : ℕ) : SpatialResult :=
  if points ≥ maxPoints then .limitExceeded else .malformed

/-- How the binary validator calls bytes with a flaw. -/
def binaryRefusal : BinaryFlaw → SpatialResult
  | .crowded => .limitExceeded
  | .short => .malformed

/-! ## Limits -/

/-- **A geometry, its text and its bytes are within the limits.** -/
structure Within (limits : SpatialLimits) (axes : SpatialAxes) (geometry : Geometry)
    (text : List UInt8) : Prop where
  text : text.length ≤ limits.maxBytes
  bytes : (wkb axes geometry).length ≤ limits.maxBytes
  points : geometry.positions ≤ limits.maxPoints
  depth : geometry.depth ≤ limits.maxDepth

/-! ## The two verdicts -/

section Verdicts

variable {axes : SpatialAxes} {geometry : Geometry} (hwell : WellFormed axes geometry)
  {text : List UInt8} {limits : Option SpatialLimits}
  (hwithin : Within (spatialLimits limits) axes geometry text) (expected : SpatialGeometryType)
  (srid : UInt32)

include hwell hwithin

/-- **The verdict on the text.** -/
theorem verdict_text {strtod : List UInt8 → Option UInt64} {write : UInt64 → List UInt8}
    (hformat : NumberFormat strtod write) (htext : Spells text (tokens write axes geometry)) :
    verdict (validateText strtod text .wkt expected srid limits) =
      (if expected = .any ∨ expected = geometry.type then geometry.textFlaw 0 else some 0).elim
        (.ok, some ⟨geometry.type, axes.dimensions, geometry.positions, geometry.textEmpty⟩)
        fun points => (textRefusal (spatialLimits limits).maxPoints points, none) := by
  have hempty : text.length ≠ 0 := fun h => htext.ne_nil (List.eq_nil_of_length_eq_zero h)
  have hlimits := spatialLimits_pos limits
  have hready : ¬(text.length = 0 ∨ text.length > (spatialLimits limits).maxBytes ∨
      (spatialLimits limits).maxPoints = 0 ∨ (spatialLimits limits).maxDepth = 0) := by
    rintro (h | h | h | h)
    · exact hempty h
    · exact absurd hwithin.text (Nat.not_le_of_lt h)
    · exact hlimits.1 h
    · exact hlimits.2 h
  -- the SRID that is expected changes neither the points nor the flag
  obtain ⟨result, hresult, hcount, hflag⟩ : ∃ result : SpatialValidation,
      (if srid ≠ 0 then { srid := srid, hasSrid := true } else {} : SpatialValidation) = result ∧
        result.pointCount = 0 ∧ result.empty = false := by
    by_cases hsrid : srid = 0
    · exact ⟨_, if_neg (not_not.mpr hsrid), rfl, rfl⟩
    · exact ⟨_, if_pos hsrid, rfl, rfl⟩
  have hstart : validateText strtod text .wkt expected srid limits =
      validateTextGeometry strtod text expected
        ⟨tokens write axes geometry, spatialLimits limits, result⟩ := by
    unfold validateText
    rw [if_neg (by decide)]
    simp only [hready, if_false, hresult, wktTokens_of_spells htext]
    rfl
  have hjudged :=
    wktGeometry_of_body (bodyJudged hformat geometry hwell) hwithin.depth true expected
    (.inl rfl) ⟨tokens write axes geometry, spatialLimits limits, result⟩ rfl
      (List.append_nil _).symm (by
        rw [hcount, Nat.zero_add]
        exact hwithin.points)
  rw [hcount] at hjudged
  rw [hstart]
  unfold validateTextGeometry
  generalize (if expected = .any ∨ expected = geometry.type then geometry.textFlaw 0 else some 0) =
    fault at hjudged ⊢
  cases fault with
  | none =>
    dsimp only
    rw [hjudged.1 rfl]
    simp [verdict, WktParser.read, WktParser.report, hcount, hflag]
  | some points =>
    obtain ⟨parser, hparser, hstopped, hpoints⟩ := hjudged.2 points rfl
    dsimp only
    rw [hparser]
    simp only [wktMalformed, hstopped, hpoints]
    rw [verdict_of_ne_ok (by split <;> exact SpatialResult.noConfusion)]
    rfl

/-- **The verdict on the bytes.** -/
theorem verdict_binary :
    verdict (validateBinary (wkb axes geometry) .wkb expected srid limits) =
      (if expected = .any ∨ expected = geometry.type then
        geometry.binaryFlaw (spatialLimits limits).maxPoints 0 else some .short).elim
        (.ok, some ⟨geometry.type, axes.dimensions, geometry.positions, geometry.isEmpty⟩)
        fun flaw => (binaryRefusal flaw, none) := by
  have hready : ¬((wkb axes geometry).length = 0 ∨
      (wkb axes geometry).length > (spatialLimits limits).maxBytes) := by
    rintro (h | h)
    · rw [wkb_eq, headBytes] at h
      simp at h
    · exact absurd hwithin.bytes (Nat.not_le_of_lt h)
  have hjudged := wkbGeometry_of_body (bodyDecoded geometry hwell) hwithin.depth true expected
    (.inl rfl) { rest := wkb axes geometry, limits := spatialLimits limits } rfl rfl
    (List.append_nil _).symm (by
      rw [Nat.zero_add]
      exact hwithin.points)
  unfold validateBinary
  rw [if_neg (by decide), if_neg hready]
  dsimp only at hjudged ⊢
  generalize (if expected = .any ∨ expected = geometry.type then
    geometry.binaryFlaw (spatialLimits limits).maxPoints 0 else some .short) = fault at hjudged ⊢
  cases fault with
  | none =>
    rw [hjudged.1 rfl]
    have hverdict : ∀ result : SpatialValidation, result.hasSrid = false →
        verdict (binarySrid srid result) =
          (.ok, some ⟨result.type, result.dimensions, result.pointCount, result.empty⟩) := by
      intro result hsrid
      unfold binarySrid
      by_cases hzero : srid = 0
      · rw [if_pos hzero]
        rfl
      · rw [if_neg hzero, hsrid]
        rfl
    cases hempty : geometry.isEmpty <;>
      simp [hverdict, WkbParser.read, WkbParser.report, WkbParser.reportEmpty]
  | some flaw =>
    obtain ⟨parser, hparser, hstopped⟩ := hjudged.2 flaw rfl
    rw [hparser]
    dsimp only [wkbMalformed]
    rw [verdict_of_ne_ok (by split <;> exact SpatialResult.noConfusion), hstopped]
    cases flaw <;> rfl

end Verdicts

/-! ## Empty components -/

/-- Members that have positions are no more than their positions. -/
theorem length_le_positionsOf {members : List Geometry}
    (h : ∀ member ∈ members, 1 ≤ positions member) :
    members.length ≤ positionsOf members := by
  induction members with
  | nil => exact Nat.zero_le _
  | cons member members ih =>
    have hmember := h member List.mem_cons_self
    have hmembers := ih fun m hm => h m (List.mem_cons_of_mem _ hm)
    rw [positionsOf, List.length_cons]
    omega

/-- Members without a flaw have none together, as long as there is room for them. -/
theorem binaryFlawOf_of {maxPoints used : ℕ} {members : List Geometry}
    (h : ∀ member ∈ members, ∀ used, used + positions member ≤ maxPoints →
      binaryFlaw maxPoints used member = none) (hpoints : used + positionsOf members ≤ maxPoints) :
    binaryFlawOf maxPoints used members = none := by
  induction members generalizing used with
  | nil => rw [binaryFlawOf]
  | cons member members ih =>
    rw [positionsOf] at hpoints
    rw [binaryFlawOf, h member List.mem_cons_self used (by omega), Option.none_or]
    exact ih (fun m hm => h m (List.mem_cons_of_mem _ hm)) (by omega)

/-- A line that is empty or long enough is not short. -/
theorem shortFlaw_eq_none {minimum : ℕ} {positions : List (List UInt64)}
    (h : positions = [] ∨ minimum ≤ positions.length) : shortFlaw minimum positions = none := by
  refine if_neg fun hshort => ?_
  obtain rfl | hlong := h
  · exact hshort.1 rfl
  · omega

/-- **What is accepted as text is accepted in bytes**: without an empty member, no `MULTIPOINT` runs
out of points. -/
theorem binaryFlaw_of_solid {axes : SpatialAxes} {maxPoints : ℕ} {geometry : Geometry}
    (hwell : WellFormed axes geometry) (hlong : All LongEnough geometry)
    (hsolid : All Solid geometry) {used : ℕ} (hpoints : used + geometry.positions ≤ maxPoints) :
    binaryFlaw maxPoints used geometry = none := by
  induction geometry using Geometry.induction generalizing used with
  | point form position => rfl
  | lineString form positions => exact shortFlaw_eq_none hlong
  | polygon form rings =>
    exact firstFrom_eq_none (fun ring hmem _ => shortFlaw_eq_none (hlong ring hmem)) used
  | collection form kind members ih =>
    obtain ⟨⟨-, hfits⟩, hwells⟩ := all_collection.mp hwell
    obtain ⟨-, hlongs⟩ := all_collection.mp hlong
    obtain ⟨hkind, hsolids⟩ := all_collection.mp hsolid
    rw [positions] at hpoints
    rw [binaryFlaw, if_neg, binaryFlawOf_of (fun member hmem used => ih member hmem
      (hwells member hmem) (hlongs member hmem) (hsolids member hmem)) hpoints]
    rintro ⟨hcrowded, rfl⟩
    -- each member is a point with a coordinate
    have hone : ∀ member ∈ members, 1 ≤ positions member := by
      intro member hmem
      have htype := (hfits member hmem).resolve_left (by decide)
      have hempty := hkind.resolve_left (by decide) member hmem
      obtain ⟨form, position, rfl⟩ := eq_point htype
      cases position with
      | none => exact absurd rfl hempty
      | some p => exact le_refl 1
    have hlength := length_le_positionsOf hone
    omega

/-- **No component is empty** iff the text is accepted for it and reports what the bytes report. -/
theorem full_iff {axes : SpatialAxes} {geometry : Geometry} (hwell : WellFormed axes geometry) :
    All Full geometry ↔ All Solid geometry ∧ geometry.textEmpty = geometry.isEmpty := by
  induction geometry using Geometry.induction with
  | point form position => simp [All, Full, Solid, textEmpty, isEmpty]
  | lineString form positions => simp [All, Full, Solid, textEmpty, isEmpty]
  | polygon form rings => simp [All, Full, Solid, textEmpty, isEmpty]
  | collection form kind members ih =>
    obtain ⟨⟨-, hfits⟩, hwells⟩ := all_collection.mp hwell
    have hmembers := fun member hmem => ih member hmem (hwells member hmem)
    rw [all_collection, all_collection]
    by_cases hkind : kind = .geometryCollection
    · subst hkind
      have htext : (collection form .geometryCollection members).textEmpty =
          (collection form .geometryCollection members).isEmpty ↔
            ∀ member ∈ members, member.textEmpty = false := by
        cases members with
        | nil => simp [textEmpty, isEmpty]
        | cons member members => simp [textEmpty, isEmpty, textEmptyOf_eq]
      have hleaf : ∀ member ∈ members, member.textEmpty = false → member.isEmpty = false := by
        intro member _ hmember
        refine Bool.eq_false_iff.mpr fun hempty => ?_
        rw [(textFlaw_of_isEmpty hempty 0).2.2] at hmember
        cases hmember
      rw [htext]
      constructor
      · rintro ⟨hfull, hfulls⟩
        have hboth := fun member hmem => (hmembers member hmem).mp (hfulls member hmem)
        refine ⟨⟨.inl rfl, fun member hmem => (hboth member hmem).1⟩, fun member hmem => ?_⟩
        rw [(hboth member hmem).2]
        exact Bool.eq_false_iff.mpr (hfull member hmem)
      · rintro ⟨⟨-, hsolids⟩, htexts⟩
        have hempty := fun member hmem => hleaf member hmem (htexts member hmem)
        refine ⟨fun member hmem => Bool.eq_false_iff.mp (hempty member hmem), fun member hmem => ?_⟩
        refine (hmembers member hmem).mpr ⟨hsolids member hmem, ?_⟩
        rw [htexts member hmem, hempty member hmem]
    · have htext : (collection form kind members).textEmpty =
          (collection form kind members).isEmpty := by
        have hmulti : (kind == .geometryCollection) = false := beq_false_of_ne hkind
        rw [textEmpty, isEmpty, hmulti, Bool.false_and, Bool.or_false]
      have hleaf : ∀ member ∈ members, member.textEmpty = member.isEmpty := by
        intro member hmem
        have htype := (hfits member hmem).resolve_left hkind
        cases kind with
        | multiPoint =>
          obtain ⟨form, position, rfl⟩ := eq_point htype
          rfl
        | multiLineString =>
          obtain ⟨form, positions, rfl⟩ := eq_lineString htype
          rfl
        | multiPolygon =>
          obtain ⟨form, rings, rfl⟩ := eq_polygon htype
          rfl
        | geometryCollection => exact absurd rfl hkind
      have hsame : ∀ member ∈ members, (All Full member ↔ All Solid member) := fun member hmem =>
        (hmembers member hmem).trans (and_iff_left (hleaf member hmem))
      rw [and_iff_left htext]
      refine and_congr ?_ (forall₂_congr hsame)
      simp only [Full, Solid, hkind, false_or]

/-! ## Agreement -/

/-- **The two refusals are the same** just when both say LIMIT_EXCEEDED or both say MALFORMED. -/
theorem textRefusal_eq_binaryRefusal_iff {maxPoints points : ℕ} {flaw : BinaryFlaw} :
    textRefusal maxPoints points = binaryRefusal flaw ↔ (maxPoints ≤ points ↔ flaw = .crowded) := by
  unfold textRefusal
  cases flaw <;> split <;> simp_all [binaryRefusal]

/-- **The two validators agree on a geometry** exactly if its type is not the expected one, which
both call malformed; or nothing in it is too short and no component of it is empty; or both refuse
it and call it alike: the text stops with all the coordinates read that are allowed, and the bytes
at a `MULTIPOINT` with too many members, or neither. -/
theorem verdicts_agree {strtod : List UInt8 → Option UInt64} {write : UInt64 → List UInt8}
    (hformat : NumberFormat strtod write) {axes : SpatialAxes} {geometry : Geometry}
    (hwell : WellFormed axes geometry) {text : List UInt8}
    (htext : Spells text (tokens write axes geometry)) {limits : Option SpatialLimits}
    (hwithin : Within (spatialLimits limits) axes geometry text) (expected : SpatialGeometryType)
    (srid : UInt32) :
    verdict (validateText strtod text .wkt expected srid limits) =
        verdict (validateBinary (wkb axes geometry) .wkb expected srid limits) ↔
      ¬(expected = .any ∨ expected = geometry.type) ∨
        (All LongEnough geometry ∧ All Full geometry) ∨
        ∃ points flaw, geometry.textFlaw 0 = some points ∧
          geometry.binaryFlaw (spatialLimits limits).maxPoints 0 = some flaw ∧
          ((spatialLimits limits).maxPoints ≤ points ↔ flaw = .crowded) := by
  rw [verdict_text hwell hwithin expected srid hformat htext,
    verdict_binary hwell hwithin expected srid]
  by_cases hexpected : expected = .any ∨ expected = geometry.type
  swap
  · rw [if_neg hexpected, if_neg hexpected]
    have hpositive : ¬0 ≥ (spatialLimits limits).maxPoints := fun h =>
      (spatialLimits_pos limits).1 (Nat.le_zero.mp h)
    refine iff_of_true ?_ (.inl hexpected)
    simp only [Option.elim, textRefusal, if_neg hpositive, binaryRefusal]
  rw [if_pos hexpected, if_pos hexpected, or_iff_right (not_not.mpr hexpected)]
  cases hstops : geometry.textFlaw 0 with
  | none =>
    obtain ⟨hlong, hsolid⟩ := textFlaw_eq_none.mp hstops
    rw [binaryFlaw_of_solid hwell hlong hsolid (by rw [Nat.zero_add]; exact hwithin.points)]
    simp [full_iff hwell, hlong, hsolid]
  | some points =>
    have hflawed : ¬(All LongEnough geometry ∧ All Full geometry) := fun h => by
      have hnone : geometry.textFlaw 0 = none :=
        textFlaw_eq_none.mpr ⟨h.1, ((full_iff hwell).mp h.2).1⟩
      cases hstops.symm.trans hnone
    rw [or_iff_right hflawed]
    cases hrefused : geometry.binaryFlaw (spatialLimits limits).maxPoints 0 with
    | none => simp
    | some flaw => simp [textRefusal_eq_binaryRefusal_iff]

/-! ## Two geometries -/

/-- A number is written as the number that its bits are. -/
def writeBits (bits : UInt64) : List UInt8 := decimal bits.toNat

/-- A number is read as the one with these bits. -/
def readBits (text : List UInt8) : Option UInt64 := (parseDecimal text).map Nat.toUInt64

theorem numberFormat_bits : NumberFormat readBits writeBits where
  shape bits _ := ⟨[], decimal bits.toNat, [], [], by simp [writeBits], .inl rfl,
    fun _ => isDigit_of_mem_decimal, .inl rfl, .inl (decimal_ne_nil _), .inl rfl⟩
  short bits _ := by
    have hbits : bits.toNat < 10 ^ 20 := bits.toNat_lt.trans (by decide)
    have hlength := length_decimal_le (by decide) hbits
    unfold writeBits
    omega
  exact bits _ := by
    rw [readBits, writeBits, parseDecimal_decimal, Option.map_some]
    exact congrArg some UInt64.ofNat_toNat

/-- The point at the origin. -/
def origin : Geometry := .point {} (some [0, 0])

theorem wellFormed_origin : WellFormed .xy origin := by
  intro p hp
  obtain rfl : [0, 0] = p := by simpa using hp
  have hzero : isFiniteDouble 0 = true := by decide
  exact ⟨rfl, by simp [hzero]⟩

theorem spells_origin {rest : List UInt8} {tokens : List WktToken} (hrest : Spells rest tokens) :
    Spells (ascii "(0 0)" ++ rest) (bodyTokens writeBits .xy origin ++ tokens) := by
  have hdigits : writeBits 0 = [48] := by decide
  have hzero : TokenText (.number [48]) [48] := by
    have := TokenText.number _ (numberFormat_bits.shape 0 (by decide))
    rwa [hdigits] at this
  have hright : Spells ([41] ++ rest) (.right :: tokens) :=
    spells_cons (.punctuation 41 _ rfl) (.inl ⟨41, rfl⟩) hrest
  have hsecond : Spells ([32] ++ [48] ++ ([41] ++ rest)) (.number [48] :: .right :: tokens) := by
    refine .cons (by decide +kernel) hzero (.inr fun byte hbyte => ?_) hright
    obtain rfl : 41 = byte := by simpa using hbyte
    decide
  have hfirst : Spells ([48] ++ ([32] ++ [48] ++ ([41] ++ rest)))
      (.number [48] :: .number [48] :: .right :: tokens) := by
    refine spells_cons hzero (.inr fun byte hbyte => ?_) hsecond
    obtain rfl : 32 = byte := by simpa using hbyte
    decide
  have htokens : bodyTokens writeBits .xy origin ++ tokens =
      .left :: .number [48] :: .number [48] :: .right :: tokens := by
    simp [origin, bodyTokens, listTokens, commaSeparated, positionTokens, hdigits]
  have htext : ascii "(0 0)" = [40, 48, 32, 48, 41] := by decide
  have hall := spells_cons (.punctuation 40 _ rfl) (.inl ⟨40, rfl⟩) hfirst
  rw [htokens, htext]
  exact hall

/-- The collection with the origin alone. -/
def originCollection : Geometry := .collection {} .geometryCollection [origin]

theorem wellFormed_originCollection : WellFormed .xy originCollection :=
  all_collection.mpr
    ⟨⟨by decide, fun _ _ => .inl rfl⟩, by simpa [WellFormed] using wellFormed_origin⟩

theorem spells_originCollection :
    Spells (ascii "GEOMETRYCOLLECTION(POINT(0 0))") (tokens writeBits .xy originCollection) := by
  have hitem : ∀ rest tokens, EndsToken rest → Spells rest tokens →
      Spells (ascii "POINT(0 0)" ++ rest) (Geometry.tokens writeBits .xy origin ++ tokens) := by
    intro rest tokens _ hrest
    have htext : ascii "POINT(0 0)" = ascii "POINT" ++ ascii "(0 0)" := by decide
    rw [htext, List.append_assoc]
    refine spells_cons (.word (ascii "POINT") (by decide) (by decide +kernel))
      (.inr fun byte hbyte => ?_) (spells_origin hrest)
    obtain rfl : 40 = byte := by simpa [ascii] using hbyte
    decide
  have htext : ascii "GEOMETRYCOLLECTION(POINT(0 0))" =
      ascii "GEOMETRYCOLLECTION" ++ ([40] ++ (ascii "POINT(0 0)" ++ ([41] ++ []))) := by decide
  rw [htext]
  exact spells_list (by decide) (by decide +kernel) hitem

/-- Both validators accept the collection with the origin, and report the same. -/
theorem verdicts_agree_originCollection :
    verdict (validateText readBits (ascii "GEOMETRYCOLLECTION(POINT(0 0))") .wkt .any 0 none) =
      verdict (validateBinary (wkb .xy originCollection) .wkb .any 0 none) :=
  (verdicts_agree numberFormat_bits wellFormed_originCollection spells_originCollection
    ⟨by decide, by decide, by decide, by decide⟩ .any 0).mpr (.inr (.inl
      ⟨all_collection.mpr ⟨trivial, by simp [origin, All, LongEnough]⟩,
        all_collection.mpr ⟨by simp [Full, origin, isEmpty], by simp [origin, All, Full]⟩⟩))

/-- A `MULTIPOINT` whose only member is empty. -/
def emptyMember : Geometry := .collection {} .multiPoint [.point {} none]

theorem wellFormed_emptyMember : WellFormed .xy emptyMember :=
  all_collection.mpr ⟨⟨by decide, by simp [type, wkbMemberType, CollectionKind.type]⟩,
    by simp [All, Fits]⟩

theorem spells_emptyMember :
    Spells (ascii "MULTIPOINT(EMPTY)") (tokens writeBits .xy emptyMember) := by
  have hitem : ∀ rest tokens, EndsToken rest → Spells rest tokens →
      Spells (ascii "EMPTY" ++ rest) ([WktToken.word (ascii "EMPTY")] ++ tokens) :=
    fun rest tokens hends hrest =>
      spells_cons (.word _ (by decide) (by decide +kernel)) (.inr hends) hrest
  have htext : ascii "MULTIPOINT(EMPTY)" =
      ascii "MULTIPOINT" ++ ([40] ++ (ascii "EMPTY" ++ ([41] ++ []))) := by decide
  rw [htext]
  exact spells_list (by decide) (by decide +kernel) hitem

theorem within_emptyMember :
    Within (spatialLimits none) .xy emptyMember (ascii "MULTIPOINT(EMPTY)") :=
  ⟨by decide, by decide, by decide, by decide⟩

/-- **The text of a `MULTIPOINT` with an empty member is refused, its bytes are accepted.** -/
theorem emptyMember_separates :
    (NumberFormat readBits writeBits ∧ WellFormed .xy emptyMember ∧
        Spells (ascii "MULTIPOINT(EMPTY)") (tokens writeBits .xy emptyMember) ∧
        Within (spatialLimits none) .xy emptyMember (ascii "MULTIPOINT(EMPTY)")) ∧
      verdict (validateText readBits (ascii "MULTIPOINT(EMPTY)") .wkt .any 0 none) =
        (.malformed, none) ∧
      verdict (validateBinary (wkb .xy emptyMember) .wkb .any 0 none) =
        (.ok, some ⟨.multiPoint, 2, 0, false⟩) :=
  ⟨⟨numberFormat_bits, wellFormed_emptyMember, spells_emptyMember, within_emptyMember⟩,
    verdict_text wellFormed_emptyMember within_emptyMember .any 0 numberFormat_bits
      spells_emptyMember,
    verdict_binary wellFormed_emptyMember within_emptyMember .any 0⟩

/-- The origin alone in a line. -/
def shortLine : Geometry := .lineString {} [[0, 0]]

/-- Two members, both of them empty. -/
def emptyMembers : Geometry := .collection {} .multiPoint [.point {} none, .point {} none]

/-- **Two geometries that both validators refuse**, where one coordinate is allowed: the line stops
as text behind it, and the `MULTIPOINT` has two members. -/
theorem refusals_separate :
    verdict (validateText readBits (ascii "LINESTRING(0 0)") .wkt .any 0 (some ⟨100, 1, 2⟩)) =
        (.limitExceeded, none) ∧
      verdict (validateBinary (wkb .xy shortLine) .wkb .any 0 (some ⟨100, 1, 2⟩)) =
        (.malformed, none) ∧
      verdict (validateText readBits (ascii "MULTIPOINT(EMPTY,EMPTY)") .wkt .any 0
        (some ⟨100, 1, 2⟩)) = (.malformed, none) ∧
      verdict (validateBinary (wkb .xy emptyMembers) .wkb .any 0 (some ⟨100, 1, 2⟩)) =
        (.limitExceeded, none) := by
  decide +kernel

end Vps
