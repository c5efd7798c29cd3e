import VirtualPostgreSQL.Spatial.TextSurvey

/-!
# Spatial/TextLimits — the verdicts on a text under all limits

`validateText` breaks off where its survey exceeds the limits, and takes the points that were read
by then for the reason: `textTold_iff` says when that is told right.
-/

namespace Vps

open Machinery Reading

/-- The verdict where `points` are read. -/
def textVerdict (limits : SpatialLimits) (points : ℕ) : SpatialResult :=
  if limits.maxPoints ≤ points then .limitExceeded else .malformed

section Follows

variable {strtod : List UInt8 → Option UInt64} {text : List UInt8} {limits : SpatialLimits}

/-- A geometry is answered as its survey goes. -/
theorem follows_geometry (hlength : text.length ≤ limits.maxBytes) (tokens : List WktToken)
    {result : SpatialValidation} (hresult : result.pointCount = 0)
    (expectedType : SpatialGeometryType) :
    Follows (textGeometrySurvey strtod text.length expectedType tokens result) limits
      (fun mark => textVerdict limits mark.2)
      (textVerdict limits (textGeometrySurvey strtod text.length expectedType tokens result).points)
      (validateTextGeometry strtod text expectedType { tokens, limits, result }) := by
  set reading := surveyGeometry strtod (tokens.length + 1) 1 expectedType 0
    { tokens, limits := ⟨0, 0, 0⟩, result } with hreading
  have htracks := @tracks_geometry strtod limits tokens.length (tokens.length + 1) 1 limits.maxDepth
    (Nat.add_comm _ _) Nat.one_pos (Nat.lt_succ_self _) expectedType 0
    { tokens, limits := ⟨0, 0, 0⟩, result } ⟨by simp [hresult], le_rfl⟩
  have hsurvey : textGeometrySurvey strtod text.length expectedType tokens result =
      geometrySurvey text.length reading := rfl
  rw [hsurvey]
  unfold validateTextGeometry
  rcases @broken_or_ended _ _ wktPoints (geometrySurvey text.length reading) _ limits rfl
    (fun mark => mark.2.under limits) _ _ _ _ htracks with ⟨mark, -, hfirst, hx⟩ | ⟨hnone, hx⟩
  · have hx : wktGeometry strtod limits.maxDepth true expectedType 0 { tokens, limits, result } =
        .error (mark.2.under limits) := hx
    rw [hx]
    exact Follows.of_stopped hlength hfirst rfl
  · have hx : wktGeometry strtod limits.maxDepth true expectedType 0 { tokens, limits, result } =
        (reading.outcome.mapError (WktParser.under limits)).map (WktParser.under limits) := hx
    rw [hx]
    cases houtcome : reading.outcome with
    | error parser =>
      refine Follows.of_defect hlength hnone ?_ ?_
      · simp only [geometrySurvey, houtcome]
      · simp only [geometrySurvey, houtcome]
        rfl
    | ok parser =>
      by_cases htokens : parser.tokens = []
      · refine Follows.of_accepted hlength hnone ?_ ?_
        · simp [geometrySurvey, houtcome, htokens]
        · simp [geometrySurvey, houtcome, htokens, Except.mapError, Except.map, Except.toOption]
      · refine Follows.of_defect hlength hnone ?_ ?_
        · simp [geometrySurvey, houtcome, htokens]
        · simp [geometrySurvey, houtcome, htokens, Except.mapError, Except.map, wktMalformed,
            textVerdict, ended, wktPoints]

end Follows

/-! ## The validator -/

/-- No point is read in front of a geometry. -/
theorem ewktSrid_pointCount {tokens rest : List WktToken} {result : SpatialValidation}
    (h : ewktSrid tokens = .ok (result, rest)) : result.pointCount = 0 := by
  unfold ewktSrid at h
  split at h
  · split_ifs at h
    split at h
    · split_ifs at h
      split at h
      · cases h
      · dsimp only at h
        split at h
        · cases h
          rfl
        · cases h
    · cases h
    · cases h
  · cases h

section Told

variable (strtod : List UInt8 → Option UInt64) (text : List UInt8) (format : SpatialFormat)
  (expectedType : SpatialGeometryType) (expectedSrid : UInt32)

/-- The length of a survey is that of the text. -/
theorem textSurvey_length (hformat : ¬(format ≠ .wkt ∧ format ≠ .ewkt)) :
    (textSurvey strtod text format expectedType expectedSrid).length = text.length := by
  unfold textSurvey
  dsimp only
  rw [if_neg hformat]
  split
  · rename_i hempty
    exact hempty.symm
  · split
    · split
      · rfl
      · split <;> rfl
    · rfl

/-- The text is answered as its survey goes. -/
theorem follows_text (limits : Option SpatialLimits) :
    Follows (textSurvey strtod text format expectedType expectedSrid) (spatialLimits limits)
      (fun mark => textVerdict (spatialLimits limits) mark.2)
      (textVerdict (spatialLimits limits)
        (textSurvey strtod text format expectedType expectedSrid).points)
      (validateText strtod text format expectedType expectedSrid limits) := by
  obtain ⟨hpoints, hdepth⟩ := spatialLimits_pos limits
  have hlengthOf := textSurvey_length strtod text format expectedType expectedSrid
  unfold validateText
  dsimp only
  generalize spatialLimits limits = limits at *
  by_cases hformat : format ≠ .wkt ∧ format ≠ .ewkt
  · rw [if_pos hformat, textSurvey, if_pos hformat]
    exact Follows.of_other (Nat.zero_le _) rfl nofun nofun rfl
  rw [if_neg hformat]
  by_cases hlong : limits.maxBytes < text.length
  · rw [if_pos (Or.inr (Or.inl hlong)), if_pos hlong]
    exact Follows.of_long (by rwa [hlengthOf hformat]) rfl
  by_cases hempty : text.length = 0
  · rw [if_pos (Or.inl hempty), if_neg hlong, textSurvey, if_neg hformat, if_pos hempty]
    refine Follows.of_defect (Nat.zero_le _) rfl rfl ?_
    show _ = textVerdict limits 0
    rw [textVerdict, if_neg (by omega)]
  have hlength := not_lt.mp hlong
  rw [if_neg (by omega), textSurvey, if_neg hformat, if_neg hempty]
  by_cases hextended : format = .ewkt
  · rw [if_pos hextended, if_pos hextended]
    cases hsrid : ewktSrid ((wktTokens text).map (·.1)) with
    | error failure => exact Follows.of_defect hlength rfl rfl rfl
    | ok found =>
      by_cases hmismatch : expectedSrid ≠ 0 ∧ expectedSrid ≠ found.1.srid
      · simp only [if_pos hmismatch]
        exact Follows.of_other hlength rfl nofun nofun rfl
      · simp only [if_neg hmismatch]
        exact follows_geometry hlength _ (ewktSrid_pointCount hsrid) _
  · rw [if_neg hextended, if_neg hextended]
    exact follows_geometry hlength _ (by split <;> rfl) _

/-- A text is tested for its nesting and its points, and every point that is tested is counted. -/
theorem textSurvey_marks : ∀ mark ∈ (textSurvey strtod text format expectedType expectedSrid).marks,
    textTest mark.1 ∧ (mark.1 = .point →
      mark.2 < (textSurvey strtod text format expectedType expectedSrid).points) := by
  have hgeometry : ∀ (tokens : List WktToken) (result : SpatialValidation),
      ∀ mark ∈ (textGeometrySurvey strtod text.length expectedType tokens result).marks,
        textTest mark.1 ∧ (mark.1 = .point →
          mark.2 < (textGeometrySurvey strtod text.length expectedType tokens result).points) := by
    intro tokens result mark hmark
    obtain ⟨mark, hread, rfl⟩ := List.mem_map.mp hmark
    exact (climbs_geometry (tokens.length + 1) 1 expectedType 0 _).marks mark hread
  unfold textSurvey
  dsimp only
  split
  · exact fun _ h => nomatch h
  · split
    · exact fun _ h => nomatch h
    · split
      · split
        · exact fun _ h => nomatch h
        · split
          · exact fun _ h => nomatch h
          · exact hgeometry _ _
      · exact hgeometry _ _

/-- A survey never ends at a limit. -/
theorem textSurvey_result :
    (textSurvey strtod text format expectedType expectedSrid).result ≠ .limitExceeded := by
  have hgeometry : ∀ (tokens : List WktToken) (result : SpatialValidation),
      (textGeometrySurvey strtod text.length expectedType tokens result).result ≠
        .limitExceeded := by
    intro tokens result
    unfold textGeometrySurvey geometrySurvey
    dsimp only
    split
    · exact nofun
    · split <;> exact nofun
  unfold textSurvey
  dsimp only
  split
  · exact nofun
  · split
    · exact nofun
    · split
      · split
        · exact nofun
        · split
          · exact nofun
          · exact hgeometry _ _
      · exact hgeometry _ _

theorem textVerdict_eq_limitExceeded_iff {limits : SpatialLimits} {points : ℕ} :
    textVerdict limits points = .limitExceeded ↔ limits.maxPoints ≤ points := by
  unfold textVerdict
  split <;> simp_all

theorem textVerdict_ne_ok (limits : SpatialLimits) (points : ℕ) :
    textVerdict limits points ≠ .ok := by
  unfold textVerdict
  split <;> exact nofun

/-- A text breaks off at the first test that fails. -/
theorem breaksOff_text : BreaksOff (validateText strtod text format expectedType expectedSrid)
    (textSurvey strtod text format expectedType expectedSrid)
    (fun limits mark => textVerdict limits mark.2)
    (fun limits => textVerdict limits
      (textSurvey strtod text format expectedType expectedSrid).points) where
  follows := follows_text strtod text format expectedType expectedSrid
  stopped_ne limits mark := textVerdict_ne_ok limits mark.2
  defect_ne limits := textVerdict_ne_ok limits _
  defect_eq _ h := if_neg (Nat.not_le.mpr h)
  result_ne := textSurvey_result strtod text format expectedType expectedSrid

end Told

/-- A well-formed text is too deep only where it has points enough already, and a malformed one
within the limits has not just as many points as they allow. -/
def SpatialSurvey.TextTold (survey : SpatialSurvey) (limits : SpatialLimits) : Prop :=
  limits.maxBytes < survey.length ∨
    (survey.result = .ok → ∀ depth points,
      survey.firstExceeded limits = some (.nesting depth, points) → limits.maxPoints ≤ points) ∧
    (survey.result = .malformed → survey.firstExceeded limits = none →
      survey.points ≠ limits.maxPoints)

/-- **The verdicts on a text fit together** exactly under that condition. -/
theorem textTold_iff (strtod : List UInt8 → Option UInt64) (text : List UInt8)
    (format : SpatialFormat)
    (expectedType : SpatialGeometryType) (expectedSrid : UInt32) (limits : Option SpatialLimits) :
    LimitsTold (validateText strtod text format expectedType expectedSrid)
        (textSurvey strtod text format expectedType expectedSrid) limits ↔
      (textSurvey strtod text format expectedType expectedSrid).TextTold
        (spatialLimits limits) := by
  have hbreaks := breaksOff_text strtod text format expectedType expectedSrid
  have hmarks := textSurvey_marks strtod text format expectedType expectedSrid
  have hfollows := hbreaks.follows limits
  rw [hbreaks.limitsTold_iff, SpatialSurvey.TextTold]
  generalize textSurvey strtod text format expectedType expectedSrid = survey at *
  generalize spatialLimits limits = limits' at *
  refine or_congr_right' fun hlong => and_congr ?_ ?_
  · refine imp_congr_right fun _ => ⟨fun h depth points hfirst => ?_, fun h mark hfirst => ?_⟩
    · exact textVerdict_eq_limitExceeded_iff.mp (h _ hfirst)
    · refine textVerdict_eq_limitExceeded_iff.mpr ?_
      obtain ⟨hmem, hexceeds⟩ := SpatialSurvey.mem_of_firstExceeded hfirst
      obtain ⟨test, points⟩ := mark
      cases test with
      | nesting depth => exact h depth points hfirst
      | point => exact hexceeds
      | announced count => exact (hmarks _ hmem).1.elim
      | ring count => exact (hmarks _ hmem).1.elim
  · have hlength := not_lt.mp hlong
    refine imp_congr_right fun hmalformed => ⟨fun h hnone hpoints => ?_, fun h hlimit => ?_⟩
    · have hexceeds := h (((hfollows.defect hlength hnone hmalformed)).trans
        (textVerdict_eq_limitExceeded_iff.mpr hpoints.ge))
      rcases hexceeds with hbytes | hmore | ⟨depth, points, hmem, hdeep⟩
      · exact hlong hbytes
      · exact hmore.ne hpoints.symm
      · exact SpatialSurvey.firstExceeded_eq_none_iff.mp hnone _ hmem hdeep
    · cases hfirst : survey.firstExceeded limits' with
      | none =>
        have hle := textVerdict_eq_limitExceeded_iff.mp
          ((hfollows.defect hlength hfirst hmalformed).symm.trans hlimit)
        exact .inr (.inl (lt_of_le_of_ne hle (h hfirst).symm))
      | some mark =>
        have hle := textVerdict_eq_limitExceeded_iff.mp
          ((hfollows.stopped hlength mark hfirst).symm.trans hlimit)
        obtain ⟨hmem, -⟩ := SpatialSurvey.mem_of_firstExceeded hfirst
        obtain ⟨test, points⟩ := mark
        cases test with
        | nesting depth => exact SpatialSurvey.Exceeds.of_nesting hfirst
        | point => exact .inr (.inl (hle.trans_lt ((hmarks _ hmem).2 rfl)))
        | announced count => exact (hmarks _ hmem).1.elim
        | ring count => exact (hmarks _ hmem).1.elim

end Vps
