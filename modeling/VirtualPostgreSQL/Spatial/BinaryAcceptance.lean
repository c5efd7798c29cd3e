import VirtualPostgreSQL.Spatial.WkbGrammar

/-!
# Spatial/BinaryAcceptance — the bytes that are accepted

Bytes without an expected type or SRID are accepted if they are the encoding of a geometry within
the limits, and only if they are one but for a bit of the type words that the validator does not
look at: `wkb_acceptance`.  The parser never reads behind the end.
-/

namespace Vps

open Machinery
open Vps.Geometry (wkbBytes typeNumber)

/-! ## Type words -/

/-- **A type word**: the number of a type, with the thousands of its axes, or with flags for its
axes and an SRID. -/
def IsTypeWord (type : SpatialGeometryType) (dimensions : ℕ) (hasSrid : Bool) (raw : ℕ) : Prop :=
  type ≠ .any ∧ ∃ axes : SpatialAxes, dimensions = axes.dimensions ∧
    ((raw = typeNumber type + 1000 * axes.thousands ∧ hasSrid = false) ∨
      raw = typeNumber type + axes.flags + if hasSrid then 2 ^ 29 else 0)

/-- A word without the bit between the flags and the number. -/
def withoutSpareBit (raw : ℕ) : ℕ := raw - 2 ^ 28 * (raw / 2 ^ 28 % 2)

/-- A type word, whatever the bit between the flags and the number. -/
def IsMaskedTypeWord (type : SpatialGeometryType) (dimensions : ℕ) (hasSrid : Bool)
    (raw : ℕ) : Prop :=
  IsTypeWord type dimensions hasSrid (withoutSpareBit raw)

/-- A number that is read as a type is the number of that type. -/
theorem typeNumber_of_wkbTypeOf {n : ℕ} {type : SpatialGeometryType} (h : wkbTypeOf n = some type) :
    type ≠ .any ∧ n = typeNumber type := by
  rw [wkbTypeOf.eq_def] at h
  split at h
  all_goals first
    | cases h
      exact ⟨by decide, rfl⟩
    | cases h

/-- The header of a type word is what the word says. -/
theorem wkbHeader_of_isTypeWord {type : SpatialGeometryType} {dimensions raw : ℕ} {hasSrid : Bool}
    (h : IsTypeWord type dimensions hasSrid raw) :
    wkbHeader raw = some (type, dimensions, hasSrid) := by
  obtain ⟨htype, axes, rfl, ⟨rfl, rfl⟩ | rfl⟩ := h
  · cases type with
    | any => exact absurd rfl htype
    | _ => cases axes <;> decide
  · cases type with
    | any => exact absurd rfl htype
    | _ => cases axes <;> cases hasSrid <;> decide

/-- A type word has the spare bit clear. -/
theorem withoutSpareBit_of_isTypeWord {type : SpatialGeometryType} {dimensions raw : ℕ}
    {hasSrid : Bool} (h : IsTypeWord type dimensions hasSrid raw) : withoutSpareBit raw = raw := by
  obtain ⟨htype, axes, rfl, ⟨rfl, rfl⟩ | rfl⟩ := h
  · cases type with
    | any => exact absurd rfl htype
    | _ => cases axes <;> decide
  · cases type with
    | any => exact absurd rfl htype
    | _ => cases axes <;> cases hasSrid <;> decide

/-- The bit is not looked at. -/
theorem wkbHeader_withoutSpareBit {raw : ℕ} (h : raw < 2 ^ 32) :
    wkbHeader (withoutSpareBit raw) = wkbHeader raw := by
  have hnumber : withoutSpareBit raw % 2 ^ 28 = raw % 2 ^ 28 := by
    rw [withoutSpareBit]
    omega
  have hflag : ∀ bit, (bit = 29 ∨ bit = 30 ∨ bit = 31) →
      wkbFlag (withoutSpareBit raw) bit = wkbFlag raw bit := by
    rintro bit (rfl | rfl | rfl)
    all_goals
      rw [wkbFlag, wkbFlag, withoutSpareBit]
      congr 1
      omega
  rw [wkbHeader, wkbHeader, hnumber, hflag 29 (by simp), hflag 30 (by simp), hflag 31 (by simp)]

/-- A flag is set where its bit is one. -/
theorem wkbFlag_eq_true {raw bit : ℕ} : wkbFlag raw bit = true ↔ raw / 2 ^ bit % 2 = 1 := beq_iff_eq

theorem wkbFlag_eq_false {raw bit : ℕ} : wkbFlag raw bit = false ↔ raw / 2 ^ bit % 2 = 0 := by
  rw [← Bool.not_eq_true, wkbFlag_eq_true]
  omega

/-- Without that bit, a header is read from type words only. -/
theorem isTypeWord_of_wkbHeader {type : SpatialGeometryType} {dimensions raw : ℕ} {hasSrid : Bool}
    (hraw : raw < 2 ^ 32) (hspare : raw / 2 ^ 28 % 2 = 0)
    (h : wkbHeader raw = some (type, dimensions, hasSrid)) :
    IsTypeWord type dimensions hasSrid raw := by
  rw [wkbHeader] at h
  split at h
  next hiso =>
    simp only [Bool.and_eq_true, Bool.not_eq_true', decide_eq_true_eq, wkbFlag_eq_false] at hiso
    split at h
    next => cases h
    next hfamily =>
      obtain ⟨found, hfound, heq⟩ := Option.map_eq_some_iff.mp h
      obtain ⟨htype, hnumber⟩ := typeNumber_of_wkbTypeOf hfound
      cases heq
      refine ⟨htype, ?_⟩
      have hcases : raw % 2 ^ 28 / 1000 = 1 ∨ raw % 2 ^ 28 / 1000 = 2 ∨
        raw % 2 ^ 28 / 1000 = 3 := by
        omega
      rcases hcases with hone | htwo | hthree
      · refine ⟨.xyz, by rw [if_neg (by omega)]; rfl, .inl ⟨?_, rfl⟩⟩
        rw [← hnumber, SpatialAxes.thousands]
        omega
      · refine ⟨.xym, by rw [if_neg (by omega)]; rfl, .inl ⟨?_, rfl⟩⟩
        rw [← hnumber, SpatialAxes.thousands]
        omega
      · refine ⟨.xyzm, by rw [if_pos hthree]; rfl, .inl ⟨?_, rfl⟩⟩
        rw [← hnumber, SpatialAxes.thousands]
        omega
  next =>
    obtain ⟨found, hfound, heq⟩ := Option.map_eq_some_iff.mp h
    obtain ⟨htype, hnumber⟩ := typeNumber_of_wkbTypeOf hfound
    cases heq
    refine ⟨htype, ?_⟩
    rw [← hnumber]
    have hsrid : (if wkbFlag raw 29 = true then 2 ^ 29 else 0) = 2 ^ 29 * (raw / 2 ^ 29 % 2) := by
      cases hflag : wkbFlag raw 29 with
      | true => rw [if_pos rfl, wkbFlag_eq_true.mp hflag, Nat.mul_one]
      | false => rw [if_neg Bool.false_ne_true, wkbFlag_eq_false.mp hflag, Nat.mul_zero]
    cases hz : wkbFlag raw 31 with
    | true =>
      have hz' := wkbFlag_eq_true.mp hz
      cases hm : wkbFlag raw 30 with
      | true =>
        have hm' := wkbFlag_eq_true.mp hm
        refine ⟨.xyzm, rfl, .inr ?_⟩
        rw [hsrid, SpatialAxes.flags]
        omega
      | false =>
        have hm' := wkbFlag_eq_false.mp hm
        refine ⟨.xyz, rfl, .inr ?_⟩
        rw [hsrid, SpatialAxes.flags]
        omega
    | false =>
      have hz' := wkbFlag_eq_false.mp hz
      cases hm : wkbFlag raw 30 with
      | true =>
        have hm' := wkbFlag_eq_true.mp hm
        refine ⟨.xym, rfl, .inr ?_⟩
        rw [hsrid, SpatialAxes.flags]
        omega
      | false =>
        have hm' := wkbFlag_eq_false.mp hm
        refine ⟨.xy, rfl, .inr ?_⟩
        rw [hsrid, SpatialAxes.flags]
        omega

/-- **The headers that are read** are those of type words, whatever the bit. -/
theorem wkbHeader_eq_some_iff (type : SpatialGeometryType) (dimensions : ℕ)
    (hasSrid : Bool) (raw : ℕ)
    (hraw : raw < 2 ^ 32) : wkbHeader raw = some (type, dimensions, hasSrid) ↔
      IsMaskedTypeWord type dimensions hasSrid raw := by
  rw [← wkbHeader_withoutSpareBit hraw]
  have hlt : withoutSpareBit raw < 2 ^ 32 := (Nat.sub_le _ _).trans_lt hraw
  have hspare : withoutSpareBit raw / 2 ^ 28 % 2 = 0 := by
    rw [withoutSpareBit]
    omega
  exact ⟨isTypeWord_of_wkbHeader hlt hspare, wkbHeader_of_isTypeWord⟩

/-- A masked type word has a type and dimensions. -/
theorem isMaskedTypeWord_valid (type : SpatialGeometryType) (dimensions : ℕ)
    (hasSrid : Bool) (raw : ℕ)
    (h : IsMaskedTypeWord type dimensions hasSrid raw) : type ≠ .any ∧ dimensions ≠ 0 := by
  obtain ⟨htype, axes, rfl, -⟩ := h
  exact ⟨htype, dimensions_ne_zero axes⟩

/-! ## More type words, more geometries -/

/-- A wider language of items gives a wider one of lists… -/
theorem WkbItems.mono {item item' : WkbLanguage}
    (h : ∀ used points bytes, item used points bytes → item' used points bytes)
    {count used points : ℕ} {bytes : List UInt8} (hitems : WkbItems item count used points bytes) :
    WkbItems item' count used points bytes := by
  induction count generalizing used points bytes with
  | zero => exact hitems
  | succ count ih =>
    obtain ⟨first, others, head, tail, hfirst, hothers, hsum⟩ := hitems
    exact ⟨first, others, head, tail, h _ _ _ hfirst, ih hothers, hsum⟩

/-- …and of bodies. -/
theorem WkbBody.mono {maxPoints dimensions : ℕ} {little : Bool} {member member' : WkbLanguage}
    (h : ∀ used points bytes, member used points bytes → member' used points bytes)
    {type : SpatialGeometryType} {used points : ℕ} {bytes : List UInt8}
    (hbody : WkbBody maxPoints little dimensions member type used points bytes) :
    WkbBody maxPoints little dimensions member' type used points bytes := by
  have hcounted : WkbCounted little 0 member used points bytes →
      WkbCounted little 0 member' used points bytes := by
    rintro ⟨count, items, hlt, hlong, hitems, hbytes⟩
    exact ⟨count, items, hlt, hlong, hitems.mono h, hbytes⟩
  cases type with
  | any => exact hbody
  | point => exact hbody
  | lineString => exact hbody
  | polygon => exact hbody
  | multiPoint =>
    obtain ⟨count, items, hlt, hlimited, hitems, hbytes⟩ := hbody
    exact ⟨count, items, hlt, hlimited, hitems.mono h, hbytes⟩
  | multiLineString => exact hcounted hbody
  | multiPolygon => exact hcounted hbody
  | geometryCollection => exact hcounted hbody

/-- With more type words there are more geometries. -/
theorem IsWkb.mono {word word' : SpatialGeometryType → ℕ → Bool → ℕ → Prop}
    (h : ∀ type dimensions hasSrid raw, word type dimensions hasSrid raw →
      word' type dimensions hasSrid raw) {maxPoints levels inherited : ℕ}
    {expected : SpatialGeometryType} {hasSrid : Bool} {used points : ℕ} {bytes : List UInt8}
    (hgeometry : IsWkb word maxPoints levels expected inherited hasSrid used points bytes) :
    IsWkb word' maxPoints levels expected inherited hasSrid used points bytes := by
  induction levels generalizing expected inherited hasSrid used points bytes with
  | zero => exact hgeometry
  | succ levels ih =>
    obtain ⟨little, type, dimensions, raw, srid, body, hraw, hword, hexpected,
      hinherited, hsrid, hbody, hbytes⟩ := hgeometry
    refine ⟨little, type, dimensions, raw, srid, body, hraw, h _ _ _ _ hword, hexpected, hinherited,
      hsrid, hbody.mono ?_, hbytes⟩
    rintro used points bytes ⟨flag, hmember⟩
    exact ⟨flag, ih hmember⟩

/-- **What is WKB is so with the spare bit masked.** -/
theorem isWkb_masked {maxPoints levels inherited : ℕ} {expected : SpatialGeometryType}
    {hasSrid : Bool} {used points : ℕ} {bytes : List UInt8}
    (h : IsWkb IsTypeWord maxPoints levels expected inherited hasSrid used points bytes) :
    IsWkb IsMaskedTypeWord maxPoints levels expected inherited hasSrid used points bytes := by
  refine h.mono fun type dimensions flag raw hword => ?_
  rw [IsMaskedTypeWord, withoutSpareBit_of_isTypeWord hword]
  exact hword

/-! ## Where the parser stands -/

/-- Wherever a function of the parser ends, it stands at a place of what was left before. -/
def StaysIn {α : Type} (place : α → WkbParser) (parser : WkbParser) :
    Except WkbParser α → Prop :=
  Settles (fun after => after.rest.IsSuffix parser.rest)
    fun a => (place a).rest.IsSuffix parser.rest

section StaysIn

variable {α β : Type} {place : α → WkbParser} {place' : β → WkbParser}

/-- Two readings in a row stay in the input if each does. -/
theorem StaysIn.bind {parser : WkbParser} {x : Except WkbParser α} {f : α → Except WkbParser β}
    (h : StaysIn place parser x) (hf : ∀ a, StaysIn place' (place a) (f a)) :
    StaysIn place' parser (x >>= f) := by
  cases x with
  | error e => exact h
  | ok a =>
    have ha : (place a).rest.IsSuffix parser.rest := h
    have hfa := hf a
    rw [ok_bind]
    cases hresult : f a with
    | error e =>
      rw [hresult] at hfa
      exact List.IsSuffix.trans hfa ha
    | ok b =>
      rw [hresult] at hfa
      exact List.IsSuffix.trans hfa ha

/-- Reading a word stays in the input. -/
theorem staysIn_wkbUint32 (little : Bool) (parser : WkbParser) :
    StaysIn (·.2) parser (wkbUint32 little parser) := by
  rw [wkbUint32]
  split
  next => exact List.suffix_refl _
  next => exact List.drop_suffix 4 _

theorem staysIn_wkbDouble (little : Bool) (parser : WkbParser) :
    StaysIn (·.2) parser (wkbDouble little parser) := by
  rw [wkbDouble]
  split
  next => exact List.suffix_refl _
  next => exact List.drop_suffix 8 _

theorem staysIn_wkbOrdinates (little : Bool) (dimensions nans : ℕ) (parser : WkbParser) :
    StaysIn (·.2) parser (wkbOrdinates little dimensions nans parser) := by
  induction dimensions generalizing nans parser with
  | zero => exact List.suffix_refl _
  | succ dimensions ih =>
    refine (staysIn_wkbDouble little parser).bind fun a => ?_
    dsimp only
    split
    next => exact ih _ _
    next =>
      split
      next => exact List.suffix_refl _
      next => exact ih _ _

/-- So does reading a point. -/
theorem staysIn_wkbPoint (little : Bool) (dimensions : ℕ) (parser : WkbParser) :
    StaysIn (·.2) parser (wkbPoint little dimensions parser) := by
  refine (staysIn_wkbOrdinates little dimensions 0 parser).bind fun a => ?_
  dsimp only
  split
  next => exact List.suffix_refl _
  next =>
    split
    next => exact List.suffix_refl _
    next =>
      split
      all_goals exact List.suffix_refl _

theorem staysIn_wkbPosition (little : Bool) (dimensions : ℕ) (parser : WkbParser) :
    StaysIn id parser (wkbPosition little dimensions parser) := by
  refine (staysIn_wkbPoint little dimensions parser).bind fun a => ?_
  dsimp only
  split
  all_goals exact List.suffix_refl _

/-- Reading any number of items stays in the input if each does. -/
theorem staysIn_wkbLoop {item : WkbParser → Except WkbParser WkbParser}
    (hitem : ∀ parser, StaysIn id parser (item parser)) (count : ℕ) (parser : WkbParser) :
    StaysIn id parser (wkbLoop item count parser) := by
  induction count generalizing parser with
  | zero => exact List.suffix_refl _
  | succ count ih => exact (hitem parser).bind ih

/-- Reading a ring stays in it. -/
theorem staysIn_wkbRing (little : Bool) (dimensions : ℕ) (parser : WkbParser) :
    StaysIn id parser (wkbRing little dimensions parser) := by
  refine (staysIn_wkbUint32 little parser).bind fun a => ?_
  dsimp only
  split
  next => exact List.suffix_refl _
  next => exact staysIn_wkbLoop (staysIn_wkbPosition little dimensions) _ _

theorem rest_reportEmpty (parser : WkbParser) (top empty : Bool) :
    (parser.reportEmpty top empty).rest = parser.rest := by
  cases top <;> cases empty <;> rfl

theorem staysIn_wkbListBody (little top limited : Bool) (minimum : ℕ)
    {item : WkbParser → Except WkbParser WkbParser}
    (hitem : ∀ parser, StaysIn id parser (item parser)) (parser : WkbParser) :
    StaysIn id parser (wkbListBody little top limited minimum item parser) := by
  refine (staysIn_wkbUint32 little parser).bind fun a => ?_
  have hreport := rest_reportEmpty a.2 top (a.1 == 0)
  dsimp only
  split
  next => exact List.suffix_refl _
  next =>
    split
    next =>
      change (a.2.reportEmpty top (a.1 == 0)).rest.IsSuffix a.2.rest
      rw [hreport]
    next =>
      have := staysIn_wkbLoop hitem a.1 (a.2.reportEmpty top (a.1 == 0))
      rwa [StaysIn, hreport] at this

/-- Reading a body stays in it, if the geometries in it do. -/
theorem staysIn_wkbBody (little top : Bool) (type : SpatialGeometryType) (dimensions : ℕ)
    {member : SpatialGeometryType → ℕ → WkbParser → Except WkbParser WkbParser}
    (hmember : ∀ type dimensions parser, StaysIn id parser (member type dimensions parser))
    (parser : WkbParser) :
    StaysIn id parser (wkbBody little top type dimensions member parser) := by
  by_cases hpoint : type = .point
  · rw [wkbBody, if_pos hpoint]
    refine (staysIn_wkbPoint little dimensions parser).bind fun a => ?_
    change (a.2.reportEmpty top a.1).rest.IsSuffix a.2.rest
    rw [rest_reportEmpty]
  · rw [wkbBody_eq hpoint]
    refine staysIn_wkbListBody little top _ _ (fun parser => ?_) parser
    split
    next => exact staysIn_wkbPosition little dimensions parser
    next =>
      split
      next => exact staysIn_wkbRing little dimensions parser
      next => exact hmember _ _ parser

/-- **Reading a geometry of any depth stays in the input.** -/
theorem staysIn_wkbGeometry (levels : ℕ) (top : Bool) (expected : SpatialGeometryType)
    (inherited : ℕ) (parser : WkbParser) :
    StaysIn id parser (wkbGeometry levels top expected inherited parser) := by
  induction levels generalizing top expected inherited parser with
  | zero => exact List.suffix_refl _
  | succ levels ih =>
    rw [wkbGeometry]
    split
    next => exact List.suffix_refl _
    next order tail hrest =>
      have hdrop : (parser.drop 1).rest.IsSuffix parser.rest := List.drop_suffix 1 _
      split
      next => exact hdrop
      next =>
        have hread : StaysIn (·.2) parser (wkbUint32 (order == 1) (parser.drop 1)) := by
          have := staysIn_wkbUint32 (order == 1) (parser.drop 1)
          cases hresult : wkbUint32 (order == 1) (parser.drop 1) with
          | error e =>
            rw [hresult] at this
            exact List.IsSuffix.trans this hdrop
          | ok a =>
            rw [hresult] at this
            exact List.IsSuffix.trans this hdrop
        refine hread.bind fun a => ?_
        dsimp only
        split
        next => exact List.suffix_refl _
        next type dimensions hasSrid _ =>
          split
          next => exact List.suffix_refl _
          next =>
            have hsrid : StaysIn (·.2) a.2 (wkbSrid (order == 1) hasSrid a.2) := by
              cases hasSrid with
              | true => exact staysIn_wkbUint32 _ _
              | false => exact List.suffix_refl _
            refine hsrid.bind fun b => ?_
            have hreport : (b.2.report top type dimensions hasSrid b.1).rest = b.2.rest := by
              cases top <;> rfl
            have hbody := staysIn_wkbBody (order == 1) top type dimensions
              (fun type dimensions => ih false type dimensions)
              (b.2.report top type dimensions hasSrid b.1)
            rwa [StaysIn, hreport] at hbody

end StaysIn

/-! ## Acceptance -/

/-- What is malformed is not valid. -/
theorem wkbMalformed_ne_ok {length : ℕ} {parser : WkbParser} {validation : SpatialValidation} :
    wkbMalformed length parser ≠ (.ok, some validation) := by
  intro h
  have hresult := (Prod.mk.inj h).1
  split at hresult
  all_goals cases hresult

/-- Bytes are accepted when the geometry is read and nothing is left. -/
theorem validateBinary_ok_iff {bytes : List UInt8} {extended : Bool} {limits : Option SpatialLimits}
    {validation : SpatialValidation} :
    validateBinary bytes (if extended then .ewkb else .wkb) .any 0 limits = (.ok, some validation) ↔
      bytes.length ≠ 0 ∧ bytes.length ≤ (spatialLimits limits).maxBytes ∧
        ∃ after, wkbGeometry (spatialLimits limits).maxDepth true .any 0
            { rest := bytes, limits := spatialLimits limits } = .ok after ∧
          after.rest = [] ∧ (extended → after.result.hasSrid) ∧ validation = after.result := by
  rw [validateBinary, if_neg (by cases extended <;> decide)]
  split
  next hsize =>
    refine iff_of_false ?_ (by omega)
    intro h
    cases (Prod.mk.inj h).2
  next hsize =>
    rw [not_or, not_lt] at hsize
    simp only [hsize.1, ne_eq, not_false_eq_true, hsize.2, true_and]
    cases wkbGeometry (spatialLimits limits).maxDepth true .any 0
        { rest := bytes, limits := spatialLimits limits } with
    | error after =>
      refine iff_of_false wkbMalformed_ne_ok ?_
      rintro ⟨middle, h, -⟩
      cases h
    | ok after =>
      have hformat : ((if extended = true then SpatialFormat.ewkb else .wkb) = .ewkb) ↔
          extended = true := by cases extended <;> decide
      dsimp only
      constructor
      · intro h
        split at h
        next => exact absurd h wkbMalformed_ne_ok
        next hrest =>
          by_cases hnone : (if extended = true then SpatialFormat.ewkb else .wkb) = .ewkb ∧
              (!after.result.hasSrid) = true
          · rw [if_pos hnone] at h
            cases (Prod.mk.inj h).2
          · rw [if_neg hnone, binarySrid, if_pos rfl] at h
            refine ⟨after, rfl, not_not.mp hrest, fun hext => ?_,
              (Option.some.inj (Prod.mk.inj h).2).symm⟩
            by_contra hsrid
            exact hnone ⟨hformat.mpr hext, by simpa using hsrid⟩
      · rintro ⟨middle, h, hrest, hsrid, rfl⟩
        obtain rfl := Except.ok.inj h
        have hextended : ¬((if extended = true then SpatialFormat.ewkb else .wkb) = .ewkb ∧
            (!after.result.hasSrid) = true) := by
          rintro ⟨hewkb, hnone⟩
          rw [hsrid (hformat.mp hewkb)] at hnone
          cases hnone
        rw [if_neg (not_not.mpr hrest), if_neg hextended, binarySrid, if_pos rfl]

/-- There is no empty WKB. -/
theorem IsWkb.ne_nil {word : SpatialGeometryType → ℕ → Bool → ℕ → Prop}
    {maxPoints levels inherited : ℕ} {expected : SpatialGeometryType} {hasSrid : Bool}
    {used points : ℕ} {bytes : List UInt8}
    (h : IsWkb word maxPoints levels expected inherited hasSrid used points bytes) :
    bytes.length ≠ 0 := by
  cases levels with
  | zero => exact absurd h id
  | succ levels =>
    obtain ⟨_, _, _, _, _, _, _, _, _, _, _, _, rfl⟩ := h
    exact Nat.succ_ne_zero _

/-- **The bytes that are accepted**, each with its points.  The parser stays within them; what it
accepts is a geometry but for a bit of the type words, and it accepts every geometry. -/
theorem wkb_acceptance (bytes : List UInt8) (extended : Bool) (limits : Option SpatialLimits)
    (points : ℕ) :
    Settles (fun after => after.rest.IsSuffix bytes) (fun after => after.rest.IsSuffix bytes)
        (wkbGeometry (spatialLimits limits).maxDepth true .any 0
          { rest := bytes, limits := spatialLimits limits }) ∧
      ((∃ validation, validateBinary bytes (if extended then .ewkb else .wkb) .any 0 limits =
          (.ok, some validation) ∧ validation.pointCount = points) →
        bytes.length ≤ (spatialLimits limits).maxBytes ∧
          points ≤ (spatialLimits limits).maxPoints ∧ ∃ hasSrid : Bool, (extended → hasSrid) ∧
            IsWkb IsMaskedTypeWord (spatialLimits limits).maxPoints (spatialLimits limits).maxDepth
              .any 0 hasSrid 0 points bytes) ∧
      (bytes.length ≤ (spatialLimits limits).maxBytes →
        points ≤ (spatialLimits limits).maxPoints → (∃ hasSrid : Bool, (extended → hasSrid) ∧
            IsWkb IsTypeWord (spatialLimits limits).maxPoints (spatialLimits limits).maxDepth
              .any 0 hasSrid 0 points bytes) →
        ∃ validation, validateBinary bytes (if extended then .ewkb else .wkb) .any 0 limits =
          (.ok, some validation) ∧ validation.pointCount = points) := by
  obtain ⟨hsound, hcomplete⟩ := parsesWkb_geometry wkbHeader_eq_some_iff isMaskedTypeWord_valid
    (spatialLimits limits) (spatialLimits limits).maxDepth true .any 0
  refine ⟨staysIn_wkbGeometry _ true .any 0 { rest := bytes, limits := spatialLimits limits }, ?_,
    ?_⟩
  · rintro ⟨validation, hok, rfl⟩
    obtain ⟨-, hbytes, after, hafter, hrest, hsrid, rfl⟩ := validateBinary_ok_iff.mp hok
    obtain ⟨flag, points, read, hlanguage, hread, hmoved⟩ :=
      hsound _ after rfl (Nat.zero_le _) hafter
    have hcount : after.result.pointCount = points := hmoved.count.trans (Nat.zero_add points)
    have hroom := hmoved.room
    have hflag : after.result.hasSrid = flag := hmoved.srid
    have hall : bytes = read := by
      have : bytes = read ++ after.rest := hread
      rw [this, hrest, List.append_nil]
    rw [hmoved.limits] at hroom
    refine ⟨hbytes, hroom, flag, fun hext => hflag ▸ hsrid hext, ?_⟩
    rw [hcount, hall]
    exact hlanguage
  · rintro hbytes hroom ⟨flag, hflag, hgeometry⟩
    obtain ⟨after, hafter, hfollow, hmoved⟩ := hcomplete
      { rest := bytes, limits := spatialLimits limits } flag points bytes [] rfl
      (isWkb_masked hgeometry) (List.append_nil bytes).symm ((Nat.zero_add points).trans_le hroom)
    refine ⟨after.result,
      validateBinary_ok_iff.mpr ⟨hgeometry.ne_nil, hbytes, after, hafter, hfollow,
      fun hext => hmoved.srid.trans (hflag hext), rfl⟩, hmoved.count.trans (Nat.zero_add points)⟩

/-- A line with the one coordinate that its count states is refused: the format has lines of one
coordinate, the validator has not. -/
theorem line_of_one_refused :
    (validateBinary (1 :: (wkbBytes true 4 2 ++ (wkbBytes true 4 1 ++
      ([0, 0] : List UInt64).flatMap fun bits => wkbBytes true 8 bits.toNat))) .wkb .any 0 none).1 =
      .malformed ∧
    WkbItems (WkbCoordinate true 2) 1 0 1
      (([0, 0] : List UInt64).flatMap fun bits => wkbBytes true 8 bits.toNat) := by
  refine ⟨by decide +kernel, 1, 0, _, [],
    ⟨rfl, [0, 0], rfl, by simp [isFiniteDouble, doubleExponent], rfl⟩, ⟨rfl, rfl⟩, rfl, ?_⟩
  rw [List.append_nil]

end Vps
