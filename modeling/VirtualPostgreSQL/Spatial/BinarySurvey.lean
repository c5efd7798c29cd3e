import VirtualPostgreSQL.Spatial.Survey
import VirtualPostgreSQL.Spatial.Wkb

/-!
# Spatial/BinarySurvey — the survey of bytes

The reading of a geometry in bytes without limits, with the tests noted down.  The counts of lines,
of `MULTIPOINT`s and of rings are tested before their points are read; the one of a ring is the only
test whose failure is not marked as a limit.
-/

namespace Vps

open Machinery Reading

/-- A reading of bytes. -/
abbrev WkbReading (α : Type) := Reading (SpatialTest × WkbParser) WkbParser α

/-! ## The readings without limits -/

/-- A point; it says whether it is empty. -/
def surveyWkbPoint (little : Bool) (dimensions : ℕ) (parser : WkbParser) :
    WkbReading (Bool × WkbParser) := do
  let (nans, parser) ← lift (wkbOrdinates little dimensions 0 parser)
  if nans ≠ 0 ∧ nans ≠ dimensions then Reading.error parser
  else if nans = dimensions then pure (true, parser)
  else do
    let parser ← visit (.point, parser) parser
    pure (false, parser.count)

/-- A point that must not be empty. -/
def surveyPosition (little : Bool) (dimensions : ℕ) (parser : WkbParser) :
    WkbReading WkbParser := do
  let (empty, parser) ← surveyWkbPoint little dimensions parser
  if empty then Reading.error parser else pure parser

/-- So many items. -/
def surveyTurns (item : WkbParser → WkbReading WkbParser) : ℕ → WkbParser → WkbReading WkbParser
  | 0, parser => pure parser
  | count + 1, parser => do
    let parser ← item parser
    surveyTurns item count parser

/-- A ring of a polygon. -/
def surveyRing (little : Bool) (dimensions : ℕ) (parser : WkbParser) : WkbReading WkbParser := do
  let (points, parser) ← lift (wkbUint32 little parser)
  if points ≠ 0 ∧ points < 4 then Reading.error parser
  else do
    let parser ← visit (.ring points, parser) parser
    surveyTurns (surveyPosition little dimensions) points parser

/-- What is tested at a count. -/
def countTest (type : SpatialGeometryType) (count : ℕ) (parser : WkbParser) :
    WkbReading WkbParser :=
  if type = .lineString ∨ type = .multiPoint then visit (.announced count, parser) parser
  else pure parser

/-- The items behind a count. -/
def surveyCounted (little : Bool) (type : SpatialGeometryType) (dimensions count : ℕ)
    (member : SpatialGeometryType → ℕ → WkbParser → WkbReading WkbParser) (parser : WkbParser) :
    WkbReading WkbParser :=
  match type with
  | .lineString =>
    if count ≠ 0 ∧ count < 2 then Reading.error parser
    else surveyTurns (surveyPosition little dimensions) count parser
  | .polygon => surveyTurns (surveyRing little dimensions) count parser
  | type => surveyTurns (member (wkbMemberType type) dimensions) count parser

/-- What is behind the header. -/
def surveyWkbBody (little top : Bool) (type : SpatialGeometryType) (dimensions : ℕ)
    (member : SpatialGeometryType → ℕ → WkbParser → WkbReading WkbParser) (parser : WkbParser) :
    WkbReading WkbParser :=
  if type = .point then do
    let (empty, parser) ← surveyWkbPoint little dimensions parser
    pure (parser.reportEmpty top empty)
  else do
    let (count, parser) ← lift (wkbUint32 little parser)
    let parser ← countTest type count parser
    surveyCounted little type dimensions count member (parser.reportEmpty top (count == 0))

/-- The header, up to the SRID. -/
def wkbHead (top : Bool) (expected : SpatialGeometryType) (inherited : ℕ) (parser : WkbParser) :
    Except WkbParser ((Bool × SpatialGeometryType × ℕ) × WkbParser) :=
  match parser.rest with
  | [] => .error { parser with limitFailure := false }
  | order :: _ =>
    let parser := parser.drop 1
    if order ≠ 0 ∧ order ≠ 1 then .error parser
    else do
      let little := order == 1
      let (raw, parser) ← wkbUint32 little parser
      match wkbHeader raw with
      | none => .error parser
      | some (type, dimensions, hasSrid) =>
        if (expected ≠ .any ∧ expected ≠ type) ∨ (inherited ≠ 0 ∧ inherited ≠ dimensions) then
          .error parser
        else
          let (srid, parser) ← wkbSrid little hasSrid parser
          .ok ((little, type, dimensions), parser.report top type dimensions hasSrid srid)

/-- **A geometry at a depth**; the first number bounds how much deeper it may go. -/
def surveyWkbGeometry : ℕ → ℕ → SpatialGeometryType → ℕ → WkbParser → WkbReading WkbParser
  | 0, _, _, _, parser => Reading.error parser
  | deeper + 1, depth, expected, inherited, parser => do
    let parser ← visit (.nesting depth, parser) parser
    let ((little, type, dimensions), parser) ← lift (wkbHead (depth == 1) expected inherited parser)
    surveyWkbBody little (depth == 1) type dimensions (surveyWkbGeometry deeper (depth + 1)) parser

/-- The geometry begins with its header. -/
theorem wkbGeometry_succ (levels : ℕ) (top : Bool) (expected : SpatialGeometryType) (inherited : ℕ)
    (parser : WkbParser) : wkbGeometry (levels + 1) top expected inherited parser =
      wkbHead top expected inherited parser >>= fun head =>
        wkbBody head.1.1 top head.1.2.1 head.1.2.2 (wkbGeometry levels false) head.2 := by
  unfold wkbGeometry wkbHead
  rcases parser.rest with _ | ⟨order, rest⟩
  · rfl
  by_cases horder : order ≠ 0 ∧ order ≠ 1
  · simp only [if_pos horder]
    rfl
  simp only [if_neg horder]
  cases wkbUint32 (order == 1) (parser.drop 1) with
  | error e => rfl
  | ok raw =>
    simp only [ok_bind]
    cases wkbHeader raw.1 with
    | none => rfl
    | some header =>
      by_cases hwrong : (expected ≠ .any ∧ expected ≠ header.1) ∨
          (inherited ≠ 0 ∧ inherited ≠ header.2.1)
      · simp only [if_pos hwrong]
        rfl
      · simp only [if_neg hwrong]
        cases wkbSrid (order == 1) header.2.2 raw.2 <;> rfl

/-! ## Until a test fails -/

/-- The parser under limits. -/
def WkbParser.under (limits : SpatialLimits) (parser : WkbParser) : WkbParser :=
  { parser with limits }

/-- What is left where a test fails: a ring does not mark the limit. -/
def wkbLeft (limits : SpatialLimits) (mark : SpatialTest × WkbParser) : WkbParser :=
  match mark.1 with
  | .ring _ => mark.2.under limits
  | _ => (mark.2.under limits).exceeded

/-- Where a test fails, the parser is left. -/
def wkbStop (limits : SpatialLimits) (mark : SpatialTest × WkbParser) : Option WkbParser :=
  if mark.1.Exceeds limits mark.2.result.pointCount then some (wkbLeft limits mark) else none

section Tracks

variable (limits : SpatialLimits)

/-- There is room for the points, and there are at most so many bytes. -/
def Holding (bytes : ℕ) (parser : WkbParser) : Prop :=
  parser.result.pointCount ≤ limits.maxPoints ∧ parser.rest.length ≤ bytes

/-- **The production runs as its survey does**, until a test fails, and takes no bytes back. -/
def TracksBytes (bytes : ℕ) (production : WkbParser → Except WkbParser WkbParser)
    (survey : WkbParser → WkbReading WkbParser) : Prop :=
  ∀ parser, Holding limits bytes parser →
    Tracks (wkbStop limits) (WkbParser.under limits) (WkbParser.under limits)
      (Holding limits parser.rest.length) (production (parser.under limits)) (survey parser)

/-- The same of a production with a value. -/
def TracksValue {α : Type} (bytes : ℕ) (production : WkbParser → Except WkbParser (α × WkbParser))
    (survey : WkbParser → WkbReading (α × WkbParser)) : Prop :=
  ∀ parser, Holding limits bytes parser →
    Tracks (wkbStop limits) (WkbParser.under limits) (Prod.map id (WkbParser.under limits))
      (fun r => Holding limits parser.rest.length r.2) (production (parser.under limits))
      (survey parser)

variable {limits} {bytes : ℕ}

/-- Behind some bytes there are fewer. -/
theorem Holding.drop {parser : WkbParser} (h : Holding limits bytes parser) (k : ℕ) :
    Holding limits bytes (parser.drop k) := by
  refine ⟨h.1, le_trans ?_ h.2⟩
  rw [WkbParser.drop, List.length_drop]
  exact Nat.sub_le _ _

/-- A word is read alike with limits and without. -/
theorem tracks_uint32 (little : Bool) :
    TracksValue limits bytes (wkbUint32 little) fun parser => lift (wkbUint32 little parser) := by
  intro parser hfits
  have hhold : Holding limits parser.rest.length (parser.drop 4) :=
    Holding.drop ⟨hfits.1, le_rfl⟩ 4
  refine Tracks.lift ?_ fun r hr => ?_
  · have hrest : (parser.under limits).rest = parser.rest := rfl
    unfold wkbUint32
    rw [hrest]
    split_ifs <;> rfl
  · unfold wkbUint32 at hr
    split_ifs at hr
    cases hr
    exact hhold

/-- So is a double. -/
theorem tracks_double (little : Bool) :
    TracksValue limits bytes (wkbDouble little) fun parser => lift (wkbDouble little parser) := by
  intro parser hfits
  have hhold : Holding limits parser.rest.length (parser.drop 8) :=
    Holding.drop ⟨hfits.1, le_rfl⟩ 8
  refine Tracks.lift ?_ fun r hr => ?_
  · have hrest : (parser.under limits).rest = parser.rest := rfl
    unfold wkbDouble
    rw [hrest]
    split_ifs <;> rfl
  · unfold wkbDouble at hr
    split_ifs at hr
    cases hr
    exact hhold

theorem lift_bind {α β : Type} (x : Except WkbParser α) (f : α → Except WkbParser β) :
    (lift (x >>= f) : WkbReading β) = lift x >>= fun a => lift (f a) := by
  cases x <;> rfl

/-- So are the ordinates of a point. -/
theorem tracks_ordinates (little : Bool) (dimensions nans : ℕ) :
    TracksValue limits bytes (wkbOrdinates little dimensions nans)
      fun parser => lift (wkbOrdinates little dimensions nans parser) := by
  induction dimensions generalizing nans bytes with
  | zero =>
    intro parser hfits
    exact Tracks.lift rfl fun r hr => Except.ok.inj hr ▸ ⟨hfits.1, le_rfl⟩
  | succ dimensions ih =>
    intro parser hfits
    dsimp only
    rw [wkbOrdinates, wkbOrdinates, lift_bind]
    refine (tracks_double little parser hfits).bind fun r hr => ?_
    have hrest := fun nans => (ih nans r.2 hr).mono
      (J := fun a => Holding limits parser.rest.length a.2) fun _ h => ⟨h.1, h.2.trans hr.2⟩
    simp only [apply_ite lift]
    refine Tracks.ite (c := isNanDouble r.1 = true) (fun _ => hrest (nans + 1)) fun _ => ?_
    exact Tracks.ite (c := (!isFiniteDouble r.1) = true) (fun _ => Tracks.error) fun _ => hrest nans

/-- **A point is read alike**, up to the one that is too many. -/
theorem tracks_wkbPoint (little : Bool) (dimensions : ℕ) :
    TracksValue limits bytes (wkbPoint little dimensions) (surveyWkbPoint little dimensions) := by
  intro parser hfits
  refine (tracks_ordinates little dimensions 0 parser hfits).bind fun r hr => ?_
  refine Tracks.ite (c := r.1 ≠ 0 ∧ r.1 ≠ dimensions) (fun _ => Tracks.error) fun _ => ?_
  refine Tracks.ite (c := r.1 = dimensions) (fun _ => ?_) fun _ => ?_
  · exact Tracks.pure (p := Prod.map id (WkbParser.under limits)) (a := (true, r.2))
      (I := fun a => Holding limits parser.rest.length a.2) hr
  -- the point is counted while there is room
  by_cases hfull : r.2.result.pointCount = limits.maxPoints
  · have hstop : wkbStop limits (.point, r.2) = some (r.2.under limits).exceeded :=
      if_pos hfull.ge
    show Tracks _ _ _ _ (if r.2.result.pointCount = limits.maxPoints then
      .error (r.2.under limits).exceeded else .ok (false, (r.2.under limits).count)) _
    rw [if_pos hfull]
    exact Tracks.refused_bind hstop r.2
  · have hlt : r.2.result.pointCount < limits.maxPoints := Nat.lt_of_le_of_ne hr.1 hfull
    refine Tracks.visit_bind (if_neg hlt.not_ge) ?_
    show Tracks _ _ _ _ (if r.2.result.pointCount = limits.maxPoints then
      .error (r.2.under limits).exceeded else .ok (false, (r.2.under limits).count)) _
    rw [if_neg hfull]
    exact Tracks.pure (p := Prod.map id (WkbParser.under limits)) (a := (false, r.2.count))
      (I := fun a => Holding limits parser.rest.length a.2) ⟨hlt, hr.2⟩

/-- A position is a point that is not empty, and read alike as well. -/
theorem tracks_position (little : Bool) (dimensions : ℕ) :
    TracksBytes limits bytes (wkbPosition little dimensions)
      (surveyPosition little dimensions) := by
  intro parser hfits
  refine (tracks_wkbPoint little dimensions parser hfits).bind fun r hr => ?_
  exact Tracks.ite (c := r.1 = true) (fun _ => Tracks.error) fun _ => Tracks.pure hr

/-- **The loop rule.** -/
theorem tracks_turns {item : WkbParser → Except WkbParser WkbParser}
    {survey : WkbParser → WkbReading WkbParser} (hitem : TracksBytes limits bytes item survey)
    (count : ℕ) : TracksBytes limits bytes (wkbLoop item count) (surveyTurns survey count) := by
  induction count with
  | zero => exact fun parser hfits => Tracks.pure ⟨hfits.1, le_rfl⟩
  | succ count ih =>
    intro parser hfits
    refine (hitem parser hfits).bind fun after hafter => ?_
    exact (ih after ⟨hafter.1, hafter.2.trans hfits.2⟩).mono fun _ h => ⟨h.1, h.2.trans hafter.2⟩

/-- A ring is read alike, up to where its count is too high. -/
theorem tracks_ring (little : Bool) (dimensions : ℕ) :
    TracksBytes limits bytes (wkbRing little dimensions) (surveyRing little dimensions) := by
  intro parser hfits
  refine (tracks_uint32 little parser hfits).bind fun r hr => ?_
  show Tracks _ _ _ _ (if (r.1 ≠ 0 ∧ r.1 < 4) ∨ limits.maxPoints - r.2.result.pointCount < r.1 then
    .error (r.2.under limits) else wkbLoop (wkbPosition little dimensions) r.1 (r.2.under limits))
    (if r.1 ≠ 0 ∧ r.1 < 4 then Reading.error r.2 else _)
  by_cases hshort : r.1 ≠ 0 ∧ r.1 < 4
  · rw [if_pos (Or.inl hshort), if_pos hshort]
    exact Tracks.error
  rw [if_neg hshort]
  by_cases hroom : limits.maxPoints - r.2.result.pointCount < r.1
  · rw [if_pos (Or.inr hroom)]
    have hstop : wkbStop limits (.ring r.1, r.2) = some (r.2.under limits) := if_pos hroom
    exact Tracks.refused_bind hstop r.2
  · rw [if_neg (not_or.mpr ⟨hshort, hroom⟩)]
    refine Tracks.visit_bind (if_neg hroom) ?_
    exact (tracks_turns (tracks_position little dimensions) r.1 r.2
      ⟨hr.1, hr.2.trans hfits.2⟩).mono fun _ h => ⟨h.1, h.2.trans hr.2⟩

/-! ### The header -/

/-- Limits change nothing in the reading of a word. -/
theorem wkbUint32_under (little : Bool) (parser : WkbParser) :
    wkbUint32 little (parser.under limits) =
      ((wkbUint32 little parser).mapError (WkbParser.under limits)).map
        (Prod.map id (WkbParser.under limits)) := by
  have hrest : (parser.under limits).rest = parser.rest := rfl
  unfold wkbUint32
  rw [hrest]
  split_ifs <;> rfl

/-- They change nothing in the reading of the SRID. -/
theorem wkbSrid_under (little hasSrid : Bool) (parser : WkbParser) :
    wkbSrid little hasSrid (parser.under limits) =
      ((wkbSrid little hasSrid parser).mapError (WkbParser.under limits)).map
        (Prod.map id (WkbParser.under limits)) := by
  cases hasSrid with
  | true => exact wkbUint32_under little parser
  | false => rfl

/-- They change nothing in what is noted of a geometry. -/
theorem report_under (parser : WkbParser) (top : Bool) (type : SpatialGeometryType)
    (dimensions : ℕ) (hasSrid : Bool) (srid : ℕ) :
    (parser.under limits).report top type dimensions hasSrid srid =
      (parser.report top type dimensions hasSrid srid).under limits := by
  unfold WkbParser.report
  split <;> rfl

theorem reportEmpty_under (parser : WkbParser) (top empty : Bool) :
    (parser.under limits).reportEmpty top empty = (parser.reportEmpty top empty).under limits := by
  unfold WkbParser.reportEmpty
  split <;> rfl

/-- The header does not depend on the limits. -/
theorem wkbHead_under (top : Bool) (expected : SpatialGeometryType) (inherited : ℕ)
    (parser : WkbParser) : wkbHead top expected inherited (parser.under limits) =
      ((wkbHead top expected inherited parser).mapError (WkbParser.under limits)).map
        (Prod.map id (WkbParser.under limits)) := by
  have hrest : (parser.under limits).rest = parser.rest := rfl
  have hdrop : (parser.under limits).drop 1 = (parser.drop 1).under limits := rfl
  unfold wkbHead
  rw [hrest, hdrop]
  rcases parser.rest with _ | ⟨order, rest⟩
  · rfl
  by_cases horder : order ≠ 0 ∧ order ≠ 1
  · simp only [if_pos horder]
    rfl
  simp only [if_neg horder, wkbUint32_under]
  cases wkbUint32 (order == 1) (parser.drop 1) with
  | error e => rfl
  | ok raw =>
    simp only [Except.mapError, Except.map, ok_bind, Prod.map_fst, Prod.map_snd, id]
    cases wkbHeader raw.1 with
    | none => rfl
    | some header =>
      by_cases hwrong : (expected ≠ .any ∧ expected ≠ header.1) ∨
          (inherited ≠ 0 ∧ inherited ≠ header.2.1)
      · simp only [if_pos hwrong]
      · simp only [if_neg hwrong, wkbSrid_under]
        cases wkbSrid (order == 1) header.2.2 raw.2 with
        | error e => rfl
        | ok srid =>
          simp only [Except.mapError, Except.map, ok_bind, Prod.map_fst, Prod.map_snd, id,
            report_under]
          rfl

/-- Bytes are taken, and nothing is counted. -/
def Takes (parser after : WkbParser) : Prop :=
  after.result.pointCount = parser.result.pointCount ∧ after.rest.length ≤ parser.rest.length

/-- Reading a word takes bytes. -/
theorem takes_wkbUint32 {little : Bool} {parser : WkbParser} {r : ℕ × WkbParser}
    (h : wkbUint32 little parser = .ok r) : Takes parser r.2 := by
  unfold wkbUint32 at h
  split_ifs at h
  cases h
  refine ⟨rfl, ?_⟩
  rw [WkbParser.drop, List.length_drop]
  exact Nat.sub_le _ _

theorem takes_wkbSrid {little hasSrid : Bool} {parser : WkbParser} {r : ℕ × WkbParser}
    (h : wkbSrid little hasSrid parser = .ok r) : Takes parser r.2 := by
  cases hasSrid with
  | true => exact takes_wkbUint32 h
  | false =>
    cases h
    exact ⟨rfl, le_rfl⟩

/-- What is noted of a geometry takes none. -/
theorem takes_report (parser : WkbParser) (top : Bool) (type : SpatialGeometryType)
    (dimensions : ℕ) (hasSrid : Bool) (srid : ℕ) :
    Takes parser (parser.report top type dimensions hasSrid srid) := by
  unfold WkbParser.report
  split <;> exact ⟨rfl, le_rfl⟩

theorem takes_reportEmpty (parser : WkbParser) (top empty : Bool) :
    Takes parser (parser.reportEmpty top empty) := by
  unfold WkbParser.reportEmpty
  split <;> exact ⟨rfl, le_rfl⟩

/-- The header takes a byte at least. -/
theorem wkbHead_ok {top : Bool} {expected : SpatialGeometryType} {inherited : ℕ}
    {parser : WkbParser} {r : (Bool × SpatialGeometryType × ℕ) × WkbParser}
    (h : wkbHead top expected inherited parser = .ok r) :
    r.2.result.pointCount = parser.result.pointCount ∧ r.2.rest.length < parser.rest.length := by
  unfold wkbHead at h
  cases hrest : parser.rest with
  | nil =>
    rw [hrest] at h
    cases h
  | cons order rest =>
    rw [hrest] at h
    dsimp only at h
    split_ifs at h
    obtain ⟨raw, hraw, h⟩ := ok_of_bind h
    have htaken := takes_wkbUint32 hraw
    split at h
    · cases h
    · split_ifs at h
      obtain ⟨srid, hsrid, h⟩ := ok_of_bind h
      cases h
      have hsrid := takes_wkbSrid hsrid
      have hreport := fun type dimensions hasSrid =>
        takes_report srid.2 top type dimensions hasSrid srid.1
      have hdrop : (parser.drop 1).rest.length < parser.rest.length := by
        rw [WkbParser.drop, hrest]
        exact Nat.lt_succ_self _
      refine ⟨((hreport _ _ _).1.trans (hsrid.1.trans htaken.1)), ?_⟩
      rw [hrest] at hdrop
      exact (((hreport _ _ _).2.trans hsrid.2).trans htaken.2).trans_lt hdrop

/-! ### Geometries -/

/-- A parser that took bytes has no more left than it had. -/
theorem Holding.takes {parser after : WkbParser} (h : Holding limits bytes parser)
    (htakes : Takes parser after) : Holding limits bytes after :=
  ⟨htakes.1.trans_le h.1, htakes.2.trans h.2⟩

/-- The items behind a count, with the points that they count. -/
def wkbCounted (little : Bool) (type : SpatialGeometryType) (dimensions count : ℕ)
    (member : SpatialGeometryType → ℕ → WkbParser → Except WkbParser WkbParser)
    (parser : WkbParser) : Except WkbParser WkbParser :=
  match type with
  | .lineString =>
    if count ≠ 0 ∧ count < 2 then .error parser
    else wkbLoop (wkbPosition little dimensions) count parser
  | .polygon => wkbLoop (wkbRing little dimensions) count parser
  | type => wkbLoop (member (wkbMemberType type) dimensions) count parser

/-- A geometry that is no point has a count. -/
theorem wkbBody_of_ne_point {type : SpatialGeometryType} (htype : type ≠ .point) (little top : Bool)
    (dimensions : ℕ) (member : SpatialGeometryType → ℕ → WkbParser → Except WkbParser WkbParser)
    (parser : WkbParser) : wkbBody little top type dimensions member parser =
      wkbUint32 little parser >>= fun r =>
        if r.1 > r.2.room ∧ (type = .lineString ∨ type = .multiPoint) then .error r.2.exceeded
        else wkbCounted little type dimensions r.1 member (r.2.reportEmpty top (r.1 == 0)) := by
  unfold wkbBody wkbCounted
  exact (if_neg htype).trans rfl

section Member

variable {member : SpatialGeometryType → ℕ → WkbParser → Except WkbParser WkbParser}
  {survey : SpatialGeometryType → ℕ → WkbParser → WkbReading WkbParser}
  (hmember : ∀ expected inherited,
    TracksBytes limits bytes (member expected inherited) (survey expected inherited))

include hmember

/-- A counted body is read alike, if its members are. -/
theorem tracks_counted (little : Bool) (type : SpatialGeometryType) (dimensions count : ℕ) :
    TracksBytes limits bytes (wkbCounted little type dimensions count member)
      (surveyCounted little type dimensions count survey) := by
  intro parser hfits
  unfold wkbCounted surveyCounted
  cases type with
  | lineString =>
    exact Tracks.ite (c := count ≠ 0 ∧ count < 2) (fun _ => Tracks.error) fun _ =>
      tracks_turns (tracks_position little dimensions) count parser hfits
  | polygon => exact tracks_turns (tracks_ring little dimensions) count parser hfits
  | _ => exact tracks_turns (hmember _ dimensions) count parser hfits

/-- **Every body is read alike** if the geometries in it are. -/
theorem tracks_wkbBody (little top : Bool) (type : SpatialGeometryType) (dimensions : ℕ) :
    TracksBytes limits bytes (wkbBody little top type dimensions member)
      (surveyWkbBody little top type dimensions survey) := by
  intro parser hfits
  unfold surveyWkbBody
  by_cases htype : type = .point
  · unfold wkbBody
    rw [if_pos htype, if_pos htype]
    refine (tracks_wkbPoint little dimensions parser hfits).bind fun r hr => ?_
    have hempty := hr.takes (takes_reportEmpty r.2 top r.1)
    show Tracks _ _ _ _ (.ok ((r.2.under limits).reportEmpty top r.1)) _
    rw [reportEmpty_under]
    exact Tracks.pure hempty
  rw [wkbBody_of_ne_point htype, if_neg htype]
  refine (tracks_uint32 little parser hfits).bind fun r hr => ?_
  have hempty := hr.takes (takes_reportEmpty r.2 top (r.1 == 0))
  have hrest := (tracks_counted hmember little type dimensions r.1
    (r.2.reportEmpty top (r.1 == 0)) ⟨hempty.1, hempty.2.trans hfits.2⟩).mono
    (J := Holding limits parser.rest.length) fun _ h => ⟨h.1, h.2.trans hempty.2⟩
  show Tracks _ _ _ _ (if limits.maxPoints - r.2.result.pointCount < r.1 ∧
      (type = .lineString ∨ type = .multiPoint) then .error (r.2.under limits).exceeded
    else wkbCounted little type dimensions r.1 member
      ((r.2.under limits).reportEmpty top (r.1 == 0))) _
  rw [reportEmpty_under]
  unfold countTest
  -- the count of a line or of a `MULTIPOINT` is tested, the others are not
  by_cases hcounted : type = .lineString ∨ type = .multiPoint
  · simp only [if_pos hcounted]
    by_cases hroom : limits.maxPoints - r.2.result.pointCount < r.1
    · rw [if_pos ⟨hroom, hcounted⟩]
      have hstop : wkbStop limits (.announced r.1, r.2) = some (r.2.under limits).exceeded :=
        if_pos hroom
      exact Tracks.refused_bind hstop r.2
    · rw [if_neg fun h => hroom h.1]
      exact Tracks.visit_bind (if_neg hroom) hrest
  · rw [if_neg fun h => hcounted h.2]
    simp only [if_neg hcounted]
    exact hrest

end Member

/-- **A geometry runs as its survey does**, at every depth that the bytes allow. -/
theorem tracks_wkbGeometry {deeper depth levels : ℕ} (hdepth : depth + levels = limits.maxDepth + 1)
    (htop : 0 < depth) (hbytes : bytes < deeper) (expected : SpatialGeometryType) (inherited : ℕ) :
    TracksBytes limits bytes (wkbGeometry levels (depth == 1) expected inherited)
      (surveyWkbGeometry deeper depth expected inherited) := by
  induction deeper generalizing depth levels bytes expected inherited with
  | zero => exact absurd hbytes (Nat.not_lt_zero _)
  | succ deeper ih =>
    intro parser hfits
    unfold surveyWkbGeometry
    cases levels with
    | zero =>
      have hdeep : (SpatialTest.nesting depth).Exceeds limits parser.result.pointCount := by
        show limits.maxDepth < depth
        omega
      have hstop : wkbStop limits (.nesting depth, parser) = some (parser.under limits).exceeded :=
        if_pos hdeep
      exact Tracks.refused_bind hstop parser
    | succ levels =>
      have hshallow : ¬(SpatialTest.nesting depth).Exceeds limits parser.result.pointCount := by
        show ¬limits.maxDepth < depth
        omega
      rw [wkbGeometry_succ]
      refine Tracks.visit_bind (if_neg hshallow) ?_
      refine Tracks.bind (p := Prod.map id (WkbParser.under limits))
        (I := fun r => r.2.result.pointCount ≤ limits.maxPoints ∧
          r.2.rest.length < parser.rest.length)
        (Tracks.lift (wkbHead_under _ _ _ _) fun r hr => ?_) fun r hr => ?_
      · exact ⟨(wkbHead_ok hr).1.trans_le hfits.1, (wkbHead_ok hr).2⟩
      have hle := hfits.2
      have hmember : ∀ expected inherited, TracksBytes limits (bytes - 1)
          (wkbGeometry levels false expected inherited)
          (surveyWkbGeometry deeper (depth + 1) expected inherited) := by
        have hlower : (depth + 1 == 1) = false := by simp [htop.ne']
        rw [← hlower]
        exact ih (by omega) (Nat.succ_pos _) (by omega)
      exact (tracks_wkbBody hmember r.1.1 (depth == 1) r.1.2.1 r.1.2.2 r.2 ⟨hr.1, by omega⟩).mono
        fun _ h => ⟨h.1, h.2.trans hr.2.le⟩

end Tracks

/-! ## Points -/

section Climbs

/-- The points of a parser. -/
def wkbPoints (parser : WkbParser) : ℕ := parser.result.pointCount

/-- No limit is marked. -/
def Unmarked (parser : WkbParser) : Prop := parser.limitFailure = false

/-- **Every point is counted, and no limit marked.** -/
def ClimbsTo {α : Type} (q : α → WkbParser) (parser : WkbParser) (x : WkbReading α) : Prop :=
  Climbs wkbPoints (fun mark => Unmarked mark.2) Unmarked q (wkbPoints parser) x

/-- Every point that the production tests is counted. -/
def ClimbsBytes (survey : WkbParser → WkbReading WkbParser) : Prop :=
  ∀ parser, Unmarked parser → ClimbsTo id parser (survey parser)

/-- What is left has as many points, and no limit marked. -/
def SameMarks (parser after : WkbParser) : Prop :=
  wkbPoints after = wkbPoints parser ∧ after.limitFailure = parser.limitFailure

theorem SameMarks.trans {parser after last : WkbParser} (h : SameMarks parser after)
    (h' : SameMarks after last) : SameMarks parser last :=
  ⟨h'.1.trans h.1, h'.2.trans h.2⟩

theorem sameMarks_reportEmpty (parser : WkbParser) (top empty : Bool) :
    SameMarks parser (parser.reportEmpty top empty) := by
  unfold WkbParser.reportEmpty
  split <;> exact ⟨rfl, rfl⟩

/-- A word counts nothing, read or not. -/
theorem sameMarks_uint32 (little : Bool) (parser : WkbParser) :
    SameMarks parser (ended Prod.snd (wkbUint32 little parser)) := by
  unfold wkbUint32
  split_ifs <;> exact ⟨rfl, rfl⟩

/-- Neither does an SRID. -/
theorem sameMarks_srid (little hasSrid : Bool) (parser : WkbParser) :
    SameMarks parser (ended Prod.snd (wkbSrid little hasSrid parser)) := by
  cases hasSrid with
  | true => exact sameMarks_uint32 little parser
  | false => exact ⟨rfl, rfl⟩

/-- Neither do ordinates, until the point is complete. -/
theorem sameMarks_ordinates (little : Bool) (dimensions nans : ℕ) (parser : WkbParser) :
    SameMarks parser (ended Prod.snd (wkbOrdinates little dimensions nans parser)) := by
  induction dimensions generalizing nans parser with
  | zero => exact ⟨rfl, rfl⟩
  | succ dimensions ih =>
    rw [wkbOrdinates]
    unfold wkbDouble
    split_ifs
    · exact ⟨rfl, rfl⟩
    · rw [ok_bind]
      dsimp only
      split_ifs
      · exact ih (nans + 1) (parser.drop 8)
      · exact ⟨rfl, rfl⟩
      · exact ih nans (parser.drop 8)

/-- A header counts no point. -/
theorem sameMarks_head {top : Bool} {expected : SpatialGeometryType} {inherited : ℕ}
    {parser : WkbParser} (h : Unmarked parser) :
    SameMarks parser (ended Prod.snd (wkbHead top expected inherited parser)) := by
  unfold wkbHead
  rcases parser.rest with _ | ⟨order, rest⟩
  · exact ⟨rfl, h.symm⟩
  dsimp only
  split_ifs
  · exact ⟨rfl, rfl⟩
  have hraw := sameMarks_uint32 (order == 1) (parser.drop 1)
  cases hread : wkbUint32 (order == 1) (parser.drop 1) with
  | error e =>
    rw [hread] at hraw
    exact hraw
  | ok raw =>
    rw [hread] at hraw
    have hraw : SameMarks parser raw.2 := hraw
    rw [ok_bind]
    split
    · exact hraw
    · split_ifs
      · exact hraw
      · rename_i type dimensions hasSrid _ _
        have hsrid := hraw.trans (sameMarks_srid (order == 1) hasSrid raw.2)
        cases hread : wkbSrid (order == 1) hasSrid raw.2 with
        | error e =>
          rw [hread] at hsrid
          exact hsrid
        | ok srid =>
          rw [hread] at hsrid
          refine hsrid.trans ?_
          show SameMarks srid.2 (srid.2.report top type dimensions hasSrid srid.1)
          unfold WkbParser.report
          split <;> exact ⟨rfl, rfl⟩

/-- What reads no point climbs. -/
theorem climbs_lift {α : Type} {q : α → WkbParser} {parser : WkbParser} {x : Except WkbParser α}
    (h : SameMarks parser (ended q x)) (hparser : Unmarked parser) :
    ClimbsTo q parser (lift x : WkbReading α) :=
  Climbs.lift h.1.ge (h.2.trans hparser)

/-- A point that is read counts one, and is tested. -/
theorem climbs_wkbPoint (little : Bool) (dimensions : ℕ) {parser : WkbParser}
    (h : Unmarked parser) : ClimbsTo Prod.snd parser (surveyWkbPoint little dimensions parser) := by
  refine (climbs_lift (sameMarks_ordinates little dimensions 0 parser) h).bind fun r _ hr => ?_
  dsimp only
  split_ifs
  · exact Climbs.error le_rfl hr
  · exact Climbs.pure le_rfl hr
  · exact Climbs.visit_point hr (Climbs.pure le_rfl hr)

/-- So does a position. -/
theorem climbs_position (little : Bool) (dimensions : ℕ) :
    ClimbsBytes (surveyPosition little dimensions) := by
  intro parser h
  refine (climbs_wkbPoint little dimensions h).bind fun r _ hr => ?_
  dsimp only
  split_ifs
  · exact Climbs.error le_rfl hr
  · exact Climbs.pure le_rfl hr

/-- **The loop rule.** -/
theorem climbs_turns {survey : WkbParser → WkbReading WkbParser} (hitem : ClimbsBytes survey)
    (count : ℕ) : ClimbsBytes (surveyTurns survey count) := by
  induction count with
  | zero => exact fun parser h => Climbs.pure le_rfl h
  | succ count ih =>
    exact fun parser h => (hitem parser h).bind fun after _ hafter => ih after hafter

/-- A ring counts what its positions count. -/
theorem climbs_ring (little : Bool) (dimensions : ℕ) :
    ClimbsBytes (surveyRing little dimensions) := by
  intro parser h
  refine (climbs_lift (sameMarks_uint32 little parser) h).bind fun r _ hr => ?_
  dsimp only
  split_ifs
  · exact Climbs.error le_rfl hr
  · exact Climbs.visit hr nofun (climbs_turns (climbs_position little dimensions) r.1 r.2 hr)

/-- **Every body counts each point that it tests**, if the geometries in it do. -/
theorem climbs_wkbBody {survey : SpatialGeometryType → ℕ → WkbParser → WkbReading WkbParser}
    (hmember : ∀ expected inherited, ClimbsBytes (survey expected inherited)) (little top : Bool)
    (type : SpatialGeometryType) (dimensions : ℕ) :
    ClimbsBytes (surveyWkbBody little top type dimensions survey) := by
  have hcounted : ∀ count, ClimbsBytes (surveyCounted little type dimensions count survey) := by
    intro count parser h
    unfold surveyCounted
    split
    · split_ifs
      · exact Climbs.error le_rfl h
      · exact climbs_turns (climbs_position little dimensions) count parser h
    · exact climbs_turns (climbs_ring little dimensions) count parser h
    · exact climbs_turns (hmember _ dimensions) count parser h
  intro parser h
  unfold surveyWkbBody
  split_ifs
  · refine (climbs_wkbPoint little dimensions h).bind fun r _ hr => ?_
    have hempty := sameMarks_reportEmpty r.2 top r.1
    exact Climbs.pure (q := id) hempty.1.ge (hempty.2.trans hr)
  · refine (climbs_lift (sameMarks_uint32 little parser) h).bind fun r _ hr => ?_
    have hempty := sameMarks_reportEmpty r.2 top (r.1 == 0)
    have hrest :=
      (hcounted r.1 (r.2.reportEmpty top (r.1 == 0)) (hempty.2.trans hr)).mono hempty.1.ge
    unfold countTest
    dsimp only
    split_ifs
    · exact Climbs.visit hr nofun hrest
    · exact hrest

/-- **Every point that a geometry tests is counted.** -/
theorem climbs_wkbGeometry (deeper depth : ℕ) (expected : SpatialGeometryType) (inherited : ℕ) :
    ClimbsBytes (surveyWkbGeometry deeper depth expected inherited) := by
  induction deeper generalizing depth expected inherited with
  | zero => exact fun parser h => Climbs.error le_rfl h
  | succ deeper ih =>
    intro parser h
    unfold surveyWkbGeometry
    exact Climbs.visit h nofun ((climbs_lift (sameMarks_head h) h).bind fun r _ hr =>
      climbs_wkbBody (ih (depth + 1)) _ _ _ _ r.2 hr)

end Climbs

/-! ## The survey of bytes -/

/-- How a reading of bytes ends. -/
def bytesSurvey (length : ℕ) (format : SpatialFormat) (expectedSrid : UInt32)
    (reading : WkbReading WkbParser) : SpatialSurvey where
  length
  marks := reading.reads.map fun mark => (mark.1, wkbPoints mark.2)
  points := wkbPoints (ended id reading.outcome)
  result :=
    match reading.outcome with
    | .error _ => .malformed
    | .ok parser =>
      if parser.rest ≠ [] ∨ (format = .ewkb ∧ !parser.result.hasSrid) then .malformed
      else (binarySrid expectedSrid parser.result).1
  validation :=
    match reading.outcome with
    | .error _ => none
    | .ok parser => (binarySrid expectedSrid parser.result).2

/-- **The survey of bytes.** -/
def binarySurvey (bytes : List UInt8) (format : SpatialFormat) (expectedType : SpatialGeometryType)
    (expectedSrid : UInt32) : SpatialSurvey :=
  if format ≠ .wkb ∧ format ≠ .ewkb then ⟨0, [], 0, .invalidArgument, none⟩
  else if bytes.length = 0 then ⟨0, [], 0, .malformed, none⟩
  else bytesSurvey bytes.length format expectedSrid (surveyWkbGeometry (bytes.length + 1) 1
    expectedType 0 { rest := bytes, limits := ⟨0, 0, 0⟩ })

end Vps
