import VirtualPostgreSQL.Spatial.Survey
import VirtualPostgreSQL.Spatial.Wkt

/-!
# Spatial/TextSurvey — the survey of a text

The productions of the text once more, without limits and with the tests noted down; `tracks_*` says
that the parser runs as its production does until a test fails, and `climbs_*` that every point that
is tested is counted.  A geometry in a geometry takes tokens, so that there is a bound for the
depth.
-/

namespace Vps

open Machinery Reading

/-- A reading of a text. -/
abbrev WktReading (α : Type) := Reading (SpatialTest × WktParser) WktParser α

/-! ## The productions without limits -/

section Productions

variable (strtod : List UInt8 → Option UInt64)

/-- A point is tested and counted. -/
def surveyPoint (parser : WktParser) : WktReading WktParser := do
  let parser ← visit (.point, parser) parser
  match parser.tokens with
  | .comma :: _ | .right :: _ => pure parser.count
  | _ => Reading.error parser.count

/-- A coordinate. -/
def surveyCoordinate (dimensions : ℕ) (parser : WktParser) : WktReading WktParser := do
  let parser ← lift (wktNumbers strtod dimensions parser)
  surveyPoint parser

/-- The items of a list. -/
def surveyLoop (item : WktParser → WktReading WktParser) :
    ℕ → ℕ → WktParser → WktReading (WktParser × ℕ)
  | 0, _, parser => Reading.error parser
  | turns + 1, done, parser => do
    let parser ← item parser
    match parser.tokens with
    | .right :: _ => pure (parser.next, done + 1)
    | .comma :: _ => surveyLoop item turns (done + 1) parser.next
    | _ => Reading.error parser

/-- A list in parentheses. -/
def surveyList (item : WktParser → WktReading WktParser) (parser : WktParser) :
    WktReading (WktParser × ℕ) :=
  match parser.tokens with
  | .left :: rest => surveyLoop item (rest.length + 1) 0 parser.next
  | _ => Reading.error parser

/-- A list of coordinates. -/
def surveyCoordinateList (dimensions minimum : ℕ) (parser : WktParser) : WktReading WktParser := do
  let (parser, count) ← surveyList (surveyCoordinate strtod dimensions) parser
  if count ≥ minimum then pure parser else Reading.error parser

/-- A list of anything. -/
def surveyItems (item : WktParser → WktReading WktParser) (parser : WktParser) :
    WktReading WktParser := do
  let (parser, _) ← surveyList item parser
  pure parser

/-- The rings of a polygon. -/
def surveyPolygonBody (dimensions : ℕ) : WktParser → WktReading WktParser :=
  surveyItems (surveyCoordinateList strtod dimensions 4)

/-- One coordinate in parentheses. -/
def surveyPointBody (dimensions : ℕ) (parser : WktParser) : WktReading WktParser := do
  let after ← surveyCoordinateList strtod dimensions 1 parser
  if after.result.pointCount - parser.result.pointCount = 1 then pure after else Reading.error after

/-- An item of a `MULTIPOINT`. -/
def surveyMultiPointItem (dimensions : ℕ) (parser : WktParser) : WktReading WktParser :=
  match parser.tokens with
  | .left :: _ => surveyPointBody strtod dimensions parser
  | _ => surveyCoordinate strtod dimensions parser

/-- The body of a geometry. -/
def surveyBody (type : SpatialGeometryType) (dimensions : ℕ)
    (member : WktParser → WktReading WktParser) (parser : WktParser) : WktReading WktParser :=
  if wktWord parser "EMPTY" then
    pure { parser.next with result := { parser.result with empty := true } }
  else match type with
  | .point => surveyPointBody strtod dimensions parser
  | .lineString => surveyCoordinateList strtod dimensions 2 parser
  | .polygon => surveyPolygonBody strtod dimensions parser
  | .multiPoint => surveyItems (surveyMultiPointItem strtod dimensions) parser
  | .multiLineString => surveyItems (surveyCoordinateList strtod dimensions 2) parser
  | .multiPolygon => surveyItems (surveyPolygonBody strtod dimensions) parser
  | _ => surveyItems member parser

/-- **A geometry at a depth**; the first number bounds how much deeper it may go. -/
def surveyGeometry : ℕ → ℕ → SpatialGeometryType → ℕ → WktParser → WktReading WktParser
  | 0, _, _, _, parser => Reading.error parser
  | deeper + 1, depth, expected, inherited, parser => do
    let parser ← visit (.nesting depth, parser) parser
    let type := wktType parser
    if type = .any ∨ (expected ≠ .any ∧ expected ≠ type) then Reading.error parser
    else
      let (dimensions, parser) := wktDimensions inherited parser.next
      surveyBody strtod type dimensions (surveyGeometry deeper (depth + 1) .any dimensions)
        (parser.report (depth == 1) type dimensions)

end Productions

/-! ## Until a test fails -/

/-- The parser under limits. -/
def WktParser.under (limits : SpatialLimits) (parser : WktParser) : WktParser :=
  { parser with limits }

@[simp] theorem WktParser.under_tokens (limits : SpatialLimits) (parser : WktParser) :
    (parser.under limits).tokens = parser.tokens := rfl

@[simp] theorem WktParser.under_limits (limits : SpatialLimits) (parser : WktParser) :
    (parser.under limits).limits = limits := rfl

@[simp] theorem WktParser.under_result (limits : SpatialLimits) (parser : WktParser) :
    (parser.under limits).result = parser.result := rfl

/-- Where a test fails, the parser is left as it is. -/
def wktStop (limits : SpatialLimits) (mark : SpatialTest × WktParser) : Option WktParser :=
  if mark.1.Exceeds limits mark.2.result.pointCount then some (mark.2.under limits) else none

section Tracks

variable {strtod : List UInt8 → Option UInt64} (limits : SpatialLimits)

/-- There is room for the points, and there are at most so many tokens. -/
def Fitting (tokens : ℕ) (parser : WktParser) : Prop :=
  parser.result.pointCount ≤ limits.maxPoints ∧ parser.tokens.length ≤ tokens

/-- **The production runs as its survey does**, until a test fails, and takes no tokens back. -/
def TracksText (tokens : ℕ) (production : WktParser → Except WktParser WktParser)
    (survey : WktParser → WktReading WktParser) : Prop :=
  ∀ parser, Fitting limits tokens parser →
    Tracks (wktStop limits) (WktParser.under limits) (WktParser.under limits)
      (Fitting limits parser.tokens.length) (production (parser.under limits)) (survey parser)

variable {limits} {tokens : ℕ}

/-- Counting a point is counted under limits, and tested after. -/
theorem tracks_point : TracksText limits tokens wktPoint surveyPoint := by
  rintro parser ⟨hroom, -⟩
  unfold wktPoint surveyPoint
  split_ifs with hfull
  · have hfull : parser.result.pointCount = limits.maxPoints := hfull
    exact Tracks.refused_bind (by simp [wktStop, SpatialTest.Exceeds, hfull]) parser
  · have hlt : parser.result.pointCount < limits.maxPoints := Nat.lt_of_le_of_ne hroom hfull
    have hcount : Fitting limits parser.tokens.length parser.count := ⟨hlt, le_rfl⟩
    refine Tracks.visit_bind (if_neg (Nat.not_le.mpr hlt)) ?_
    have herror : Tracks (wktStop limits) (WktParser.under limits) (WktParser.under limits)
        (Fitting limits parser.tokens.length) (.error (parser.count.under limits))
        (Reading.error parser.count : WktReading WktParser) := Tracks.error
    simp only [WktParser.under_tokens]
    generalize parser.tokens = tokens at *
    rcases tokens with _ | ⟨token, rest⟩
    · exact herror
    · cases token with
      | comma | right => exact Tracks.pure hcount
      | _ => exact herror

/-- What does not test limits runs as it is. -/
theorem tracks_numbers (dimensions : ℕ) : TracksText limits tokens (wktNumbers strtod dimensions)
    fun parser => lift (wktNumbers strtod dimensions parser) := by
  intro parser hfits
  have hnumber : ∀ parser : WktParser, Fitting limits tokens parser →
      Tracks (wktStop limits) (WktParser.under limits) (WktParser.under limits)
        (Fitting limits parser.tokens.length) (wktNumber strtod (parser.under limits))
        (lift (wktNumber strtod parser)) := by
    intro parser hfits
    unfold wktNumber
    simp only [WktParser.under_tokens]
    split
    · split_ifs
      · exact Tracks.error
      · split
        · split_ifs
          · exact Tracks.pure (a := parser.next) ⟨hfits.1, by simp [WktParser.next]⟩
          · exact Tracks.error
        · exact Tracks.error
    · exact Tracks.error
  induction dimensions generalizing parser with
  | zero => exact Tracks.pure ⟨hfits.1, le_rfl⟩
  | succ dimensions ih =>
    have hbind : (lift (wktNumbers strtod (dimensions + 1) parser) : WktReading WktParser) =
        lift (wktNumber strtod parser) >>= fun parser =>
          lift (wktNumbers strtod dimensions parser) := by
      rw [wktNumbers]
      cases wktNumber strtod parser <;> rfl
    dsimp only
    rw [hbind, wktNumbers]
    refine (hnumber parser hfits).bind fun after hafter => ?_
    exact (ih after ⟨hafter.1, hafter.2.trans hfits.2⟩).mono fun _ h => ⟨h.1, h.2.trans hafter.2⟩

/-- A coordinate is read alike with limits and without, up to the point that is too many. -/
theorem tracks_coordinate (dimensions : ℕ) : TracksText limits tokens
    (wktCoordinate strtod dimensions) (surveyCoordinate strtod dimensions) := by
  intro parser hfits
  refine (tracks_numbers dimensions parser hfits).bind fun after hafter => ?_
  exact (tracks_point after hafter).mono fun _ h => ⟨h.1, h.2.trans hafter.2⟩

section Loop

variable {item : WktParser → Except WktParser WktParser} {survey : WktParser → WktReading WktParser}
  (hitem : TracksText limits tokens item survey)

include hitem

/-- **The loop rule.** -/
theorem tracks_loop (turns done : ℕ) {parser : WktParser} (hfits : Fitting limits tokens parser) :
    Tracks (wktStop limits) (WktParser.under limits) (Prod.map (WktParser.under limits) id)
      (fun r => Fitting limits parser.tokens.length r.1)
      (wktLoop item turns done (parser.under limits)) (surveyLoop survey turns done parser) := by
  induction turns generalizing done parser with
  | zero => exact Tracks.error
  | succ turns ih =>
    refine (hitem parser hfits).bind fun after hafter => ?_
    have hnext : Fitting limits parser.tokens.length after.next := by
      refine ⟨hafter.1, le_trans ?_ hafter.2⟩
      simp [WktParser.next]
    simp only [WktParser.under_tokens]
    rcases htokens : after.tokens with _ | ⟨token, rest⟩
    · exact Tracks.error
    · cases token with
      | right =>
        exact Tracks.pure (p := Prod.map (WktParser.under limits) id) (a := (after.next, done + 1))
          (I := fun r => Fitting limits parser.tokens.length r.1) hnext
      | comma =>
        refine (ih (done + 1) ⟨hnext.1, hnext.2.trans hfits.2⟩).mono ?_
        exact fun _ h => ⟨h.1, h.2.trans hnext.2⟩
      | _ => exact Tracks.error

/-- **A list is read alike** as long as its items are. -/
theorem tracks_list {parser : WktParser} (hfits : Fitting limits tokens parser) :
    Tracks (wktStop limits) (WktParser.under limits) (Prod.map (WktParser.under limits) id)
      (fun r => Fitting limits parser.tokens.length r.1) (wktList item (parser.under limits))
      (surveyList survey parser) := by
  unfold wktList surveyList
  simp only [WktParser.under_tokens]
  have hle : parser.next.tokens.length ≤ parser.tokens.length := by simp [WktParser.next]
  have hloop := fun turns => tracks_loop hitem turns 0
    (show Fitting limits tokens parser.next from ⟨hfits.1, hle.trans hfits.2⟩)
  rcases htokens : parser.tokens with _ | ⟨token, rest⟩
  · exact Tracks.error
  · cases token with
    | left => exact (hloop _).mono fun _ h => ⟨h.1, h.2.trans (htokens ▸ hle)⟩
    | _ => exact Tracks.error

/-- …and so is a list whose count nobody asks for. -/
theorem tracks_items : TracksText limits tokens (fun parser => (·.1) <$> wktList item parser)
    (surveyItems survey) := by
  intro parser hfits
  have hmap : ∀ x : Except WktParser (WktParser × ℕ), (·.1) <$> x = x >>= fun r => .ok r.1 := by
    intro x
    cases x <;> rfl
  dsimp only
  rw [hmap]
  exact (tracks_list hitem hfits).bind fun r hr => Tracks.pure hr

end Loop

/-- A list of coordinates is read alike, however many it needs at least. -/
theorem tracks_coordinateList (dimensions minimum : ℕ) : TracksText limits tokens
    (wktCoordinateList strtod dimensions minimum)
      (surveyCoordinateList strtod dimensions minimum) := by
  intro parser hfits
  refine (tracks_list (tracks_coordinate dimensions) hfits).bind fun r hr => ?_
  exact Tracks.ite (c := r.2 ≥ minimum) (fun _ => Tracks.pure hr) fun _ => Tracks.error

/-- The rings of a polygon are read alike. -/
theorem tracks_polygonBody (dimensions : ℕ) : TracksText limits tokens
    (wktPolygonBody strtod dimensions) (surveyPolygonBody strtod dimensions) :=
  tracks_items (tracks_coordinateList dimensions 4)

theorem tracks_pointBody (dimensions : ℕ) : TracksText limits tokens
    (wktPointBody strtod dimensions) (surveyPointBody strtod dimensions) := by
  intro parser hfits
  refine (tracks_coordinateList dimensions 1 parser hfits).bind fun after hafter => ?_
  exact Tracks.ite (c := after.result.pointCount - parser.result.pointCount = 1)
    (fun _ => Tracks.pure hafter) fun _ => Tracks.error

/-- A point of a MULTIPOINT is read alike, with brackets and without. -/
theorem tracks_multiPointItem (dimensions : ℕ) : TracksText limits tokens
    (wktMultiPointItem strtod dimensions) (surveyMultiPointItem strtod dimensions) := by
  intro parser hfits
  have hpoint := @tracks_pointBody strtod _ _ dimensions parser hfits
  have hcoordinate := @tracks_coordinate strtod _ _ dimensions parser hfits
  unfold wktMultiPointItem surveyMultiPointItem
  simp only [WktParser.under_tokens]
  generalize parser.tokens = tokens at *
  rcases tokens with _ | ⟨token, rest⟩
  · exact hcoordinate
  · cases token with
    | left => exact hpoint
    | _ => exact hcoordinate

/-- **Every body is read alike** if the geometries in it are. -/
theorem tracks_body (type : SpatialGeometryType) (dimensions : ℕ)
    {member : WktParser → Except WktParser WktParser} {survey : WktParser → WktReading WktParser}
    (hmember : TracksText limits tokens member survey) : TracksText limits tokens
      (wktBody strtod type dimensions member) (surveyBody strtod type dimensions survey) := by
  intro parser hfits
  unfold wktBody surveyBody
  have hword : wktWord (parser.under limits) "EMPTY" = wktWord parser "EMPTY" := rfl
  rw [hword]
  refine Tracks.ite (fun _ => ?_) fun _ => ?_
  · refine Tracks.pure (g := WktParser.under limits) (p := WktParser.under limits)
      (a := { parser.next with result := { parser.result with empty := true } }) ⟨hfits.1, ?_⟩
    simp [WktParser.next]
  · cases type with
    | point => exact tracks_pointBody dimensions parser hfits
    | lineString => exact tracks_coordinateList dimensions 2 parser hfits
    | polygon => exact tracks_polygonBody dimensions parser hfits
    | multiPoint => exact tracks_items (tracks_multiPointItem dimensions) parser hfits
    | multiLineString => exact tracks_items (tracks_coordinateList dimensions 2) parser hfits
    | multiPolygon => exact tracks_items (tracks_polygonBody dimensions) parser hfits
    | any => exact tracks_items hmember parser hfits
    | geometryCollection => exact tracks_items hmember parser hfits

/-- Reading the dimensions counts nothing. -/
theorem wktDimensions_result (inherited : ℕ) (parser : WktParser) :
    (wktDimensions inherited parser).2.result = parser.result := by
  unfold wktDimensions
  split_ifs <;> rfl

theorem WktParser.report_tokens (parser : WktParser) (top : Bool) (type : SpatialGeometryType)
    (dimensions : ℕ) : (parser.report top type dimensions).tokens = parser.tokens := by
  unfold WktParser.report
  split <;> rfl

theorem WktParser.report_pointCount (parser : WktParser) (top : Bool) (type : SpatialGeometryType)
    (dimensions : ℕ) :
    (parser.report top type dimensions).result.pointCount = parser.result.pointCount := by
  unfold WktParser.report
  split <;> rfl

/-- **A geometry runs as its survey does**, at every depth that the tokens allow. -/
theorem tracks_geometry {deeper depth levels : ℕ} (hdepth : depth + levels = limits.maxDepth + 1)
    (htop : 0 < depth) (htokens : tokens < deeper) (expected : SpatialGeometryType)
    (inherited : ℕ) :
    TracksText limits tokens (wktGeometry strtod levels (depth == 1) expected inherited)
      (surveyGeometry strtod deeper depth expected inherited) := by
  induction deeper generalizing depth levels tokens expected inherited with
  | zero => exact absurd htokens (Nat.not_lt_zero _)
  | succ deeper ih =>
    intro parser hfits
    unfold surveyGeometry
    cases levels with
    | zero =>
      have hdeep : (SpatialTest.nesting depth).Exceeds limits parser.result.pointCount := by
        show limits.maxDepth < depth
        omega
      have hstop :
        wktStop limits (.nesting depth, parser) = some (parser.under limits) := if_pos hdeep
      exact Tracks.refused_bind hstop parser
    | succ levels =>
      unfold wktGeometry
      have hshallow : ¬(SpatialTest.nesting depth).Exceeds limits parser.result.pointCount := by
        show ¬limits.maxDepth < depth
        omega
      refine Tracks.visit_bind (if_neg hshallow) ?_
      refine Tracks.ite (c := wktType parser = .any ∨ (expected ≠ .any ∧ expected ≠ wktType parser))
        (fun _ => Tracks.error) fun htype => ?_
      -- the word of the type is taken, so that what is left allows for the members
      have htaken : parser.next.tokens.length < parser.tokens.length := by
        cases hnone : parser.tokens with
        | nil => exact absurd (.inl (by simp [wktType, wktWord, hnone])) htype
        | cons token rest =>
          rw [WktParser.next, hnone]
          exact Nat.lt_succ_self _
      have hdimensions := wktDimensions_length inherited parser.next
      have hunder : wktDimensions inherited (parser.under limits).next =
          ((wktDimensions inherited parser.next).1,
            (wktDimensions inherited parser.next).2.under limits) := by
        unfold wktDimensions
        have hword : ∀ word, wktWord (parser.under limits).next word = wktWord parser.next word :=
          fun _ => rfl
        simp only [hword]
        split_ifs <;> rfl
      have hreport :
        ∀ (parser : WktParser) (top : Bool) (type : SpatialGeometryType) (dimensions : ℕ),
          (parser.under limits).report top type dimensions =
            (parser.report top type dimensions).under limits := by
        intro parser top type dimensions
        unfold WktParser.report
        split <;> rfl
      have hfits' : Fitting limits (tokens - 1) ((wktDimensions inherited parser.next).2.report
          (depth == 1) (wktType parser) (wktDimensions inherited parser.next).1) := by
        refine ⟨?_, ?_⟩
        · rw [WktParser.report_pointCount, wktDimensions_result]
          exact hfits.1
        · rw [WktParser.report_tokens]
          have := hfits.2
          omega
      have hmember : TracksText limits (tokens - 1)
          (wktGeometry strtod levels false .any (wktDimensions inherited parser.next).1)
          (surveyGeometry strtod deeper (depth + 1) .any
            (wktDimensions inherited parser.next).1) := by
        have hlower : (depth + 1 == 1) = false := by simp [htop.ne']
        rw [← hlower]
        have := hfits.2
        exact ih (by omega) (Nat.succ_pos _) (by omega) .any _
      simp only [hunder, hreport]
      exact (tracks_body (wktType parser) _ hmember _ hfits').mono fun _ h => ⟨h.1, h.2.trans (by
        rw [WktParser.report_tokens]
        omega)⟩

end Tracks

/-! ## Points -/

section Climbs

variable {strtod : List UInt8 → Option UInt64}

/-- The points of a parser. -/
def wktPoints (parser : WktParser) : ℕ := parser.result.pointCount

/-- The tests of a text. -/
def textTest : SpatialTest → Prop
  | .nesting _ | .point => True
  | .announced _ | .ring _ => False

/-- Every point that the production tests is counted. -/
def ClimbsText (survey : WktParser → WktReading WktParser) : Prop :=
  ∀ parser, Climbs wktPoints (fun mark => textTest mark.1) (fun _ => True) id (wktPoints parser)
    (survey parser)

theorem climbs_numbers (dimensions : ℕ) :
    ClimbsText fun parser => lift (wktNumbers strtod dimensions parser) := by
  intro parser
  refine Climbs.lift ?_ trivial
  induction dimensions generalizing parser with
  | zero => exact le_rfl
  | succ dimensions ih =>
    rw [wktNumbers]
    unfold wktNumber
    split
    · split_ifs
      · exact le_rfl
      · split
        · split_ifs
          · exact ih parser.next
          · exact le_rfl
        · exact le_rfl
    · exact le_rfl

/-- A coordinate that is read counts one point. -/
theorem climbs_coordinate (dimensions : ℕ) : ClimbsText (surveyCoordinate strtod dimensions) := by
  intro parser
  refine (climbs_numbers dimensions parser).bind fun after _ _ => ?_
  refine Climbs.visit_point trivial ?_
  split
  · exact Climbs.pure (q := id) le_rfl trivial
  · exact Climbs.pure (q := id) le_rfl trivial
  · exact Climbs.error le_rfl trivial

section Loop

variable {survey : WktParser → WktReading WktParser} (hitem : ClimbsText survey)

include hitem

/-- **The loop rule.** -/
theorem climbs_loop (turns done : ℕ) (parser : WktParser) :
    Climbs wktPoints (fun mark => textTest mark.1) (fun _ => True) Prod.fst (wktPoints parser)
      (surveyLoop survey turns done parser) := by
  induction turns generalizing done parser with
  | zero => exact Climbs.error le_rfl trivial
  | succ turns ih =>
    refine (hitem parser).bind fun after _ _ => ?_
    split
    · exact Climbs.pure le_rfl trivial
    · exact ih (done + 1) after.next
    · exact Climbs.error le_rfl trivial

/-- A list counts what its items count. -/
theorem climbs_list (parser : WktParser) :
    Climbs wktPoints (fun mark => textTest mark.1) (fun _ => True) Prod.fst (wktPoints parser)
      (surveyList survey parser) := by
  unfold surveyList
  split
  · exact climbs_loop hitem _ 0 parser.next
  · exact Climbs.error le_rfl trivial

theorem climbs_items : ClimbsText (surveyItems survey) := fun parser =>
  (climbs_list hitem parser).bind fun _ _ _ => Climbs.pure le_rfl trivial

end Loop

theorem climbs_coordinateList (dimensions minimum : ℕ) :
    ClimbsText (surveyCoordinateList strtod dimensions minimum) := by
  intro parser
  refine (climbs_list (climbs_coordinate dimensions) parser).bind fun r _ _ => ?_
  dsimp only
  split
  · exact Climbs.pure le_rfl trivial
  · exact Climbs.error le_rfl trivial

theorem climbs_pointBody (dimensions : ℕ) : ClimbsText (surveyPointBody strtod dimensions) := by
  intro parser
  refine (climbs_coordinateList dimensions 1 parser).bind fun after _ _ => ?_
  split
  · exact Climbs.pure le_rfl trivial
  · exact Climbs.error le_rfl trivial

/-- **Every body counts each point that it tests**, if the geometries in it do. -/
theorem climbs_body (type : SpatialGeometryType) (dimensions : ℕ)
    {member : WktParser → WktReading WktParser} (hmember : ClimbsText member) :
    ClimbsText (surveyBody strtod type dimensions member) := by
  have hmulti : ClimbsText (surveyMultiPointItem strtod dimensions) := by
    intro parser
    unfold surveyMultiPointItem
    split
    · exact climbs_pointBody dimensions parser
    · exact climbs_coordinate dimensions parser
  have hrings : ClimbsText (surveyPolygonBody strtod dimensions) :=
    climbs_items (climbs_coordinateList dimensions 4)
  intro parser
  unfold surveyBody
  split
  · exact Climbs.pure le_rfl trivial
  · cases type with
    | point => exact climbs_pointBody dimensions parser
    | lineString => exact climbs_coordinateList dimensions 2 parser
    | polygon => exact hrings parser
    | multiPoint => exact climbs_items hmulti parser
    | multiLineString => exact climbs_items (climbs_coordinateList dimensions 2) parser
    | multiPolygon => exact climbs_items hrings parser
    | any => exact climbs_items hmember parser
    | geometryCollection => exact climbs_items hmember parser

/-- **Every point that a geometry tests is counted.** -/
theorem climbs_geometry (deeper depth : ℕ) (expected : SpatialGeometryType) (inherited : ℕ) :
    ClimbsText (surveyGeometry strtod deeper depth expected inherited) := by
  induction deeper generalizing depth expected inherited with
  | zero => exact fun parser => Climbs.error le_rfl trivial
  | succ deeper ih =>
    intro parser
    unfold surveyGeometry
    refine Climbs.visit trivial nofun ?_
    dsimp only
    split
    · exact Climbs.error le_rfl trivial
    · refine (climbs_body _ _ (ih (depth + 1) .any _) _).mono ?_
      unfold wktPoints
      rw [WktParser.report_pointCount, wktDimensions_result]
      exact le_rfl

end Climbs

/-! ## The survey of a text -/

/-- How a reading of a geometry ends. -/
def geometrySurvey (length : ℕ) (reading : WktReading WktParser) : SpatialSurvey where
  length
  marks := reading.reads.map fun mark => (mark.1, wktPoints mark.2)
  points := wktPoints (ended id reading.outcome)
  result :=
    match reading.outcome with
    | .error _ => .malformed
    | .ok parser => if parser.tokens ≠ [] then .malformed else .ok
  validation := reading.outcome.toOption.map (·.result)

/-- The survey of what stands behind the SRID. -/
def textGeometrySurvey (strtod : List UInt8 → Option UInt64) (length : ℕ)
    (expectedType : SpatialGeometryType) (tokens : List WktToken) (result : SpatialValidation) :
    SpatialSurvey :=
  geometrySurvey length (surveyGeometry strtod (tokens.length + 1) 1 expectedType 0
    { tokens, limits := ⟨0, 0, 0⟩, result })

/-- A survey that ends before a geometry. -/
def shortSurvey (length points : ℕ) (result : SpatialResult) : SpatialSurvey :=
  ⟨length, [], points, result, none⟩

/-- **The survey of a text.** -/
def textSurvey (strtod : List UInt8 → Option UInt64) (text : List UInt8) (format : SpatialFormat)
    (expectedType : SpatialGeometryType) (expectedSrid : UInt32) : SpatialSurvey :=
  let tokens := (wktTokens text).map (·.1)
  if format ≠ .wkt ∧ format ≠ .ewkt then shortSurvey 0 0 .invalidArgument
  else if text.length = 0 then shortSurvey 0 0 .malformed
  else if format = .ewkt then
    match ewktSrid tokens with
    | .error failure => shortSurvey text.length failure.result.pointCount .malformed
    | .ok (result, tokens) =>
      if expectedSrid ≠ 0 ∧ expectedSrid ≠ result.srid then shortSurvey text.length 0 .sridMismatch
      else textGeometrySurvey strtod text.length expectedType tokens result
  else
    let result : SpatialValidation :=
      if expectedSrid ≠ 0 then { srid := expectedSrid, hasSrid := true } else {}
    textGeometrySurvey strtod text.length expectedType tokens result

end Vps
