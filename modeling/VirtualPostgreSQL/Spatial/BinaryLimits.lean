import VirtualPostgreSQL.Spatial.Agreement
import VirtualPostgreSQL.Spatial.BinarySurvey
import VirtualPostgreSQL.Spatial.TextLimits

/-!
# Spatial/BinaryLimits — the verdicts on bytes under all limits

`validateBinary` marks the limits that it tests, but for the count of a ring, and it tests the
counts of lines and of `MULTIPOINT`s before their points are there: `binaryTold_iff` says when the
verdicts fit together, and `limits_told_iff` says it of both validators.
-/

namespace Vps

open Machinery Reading

/-- The verdict at a test that fails. -/
def binaryVerdict (mark : SpatialTest × ℕ) : SpatialResult :=
  match mark.1 with
  | .ring _ => .malformed
  | _ => .limitExceeded

section Told

variable (bytes : List UInt8) (format : SpatialFormat) (expectedType : SpatialGeometryType)
  (expectedSrid : UInt32)

/-- A geometry is answered as its survey goes. -/
theorem follows_wkbGeometry {limits : SpatialLimits} (hlength : bytes.length ≤ limits.maxBytes) :
    Follows (bytesSurvey bytes.length format expectedSrid (surveyWkbGeometry (bytes.length + 1) 1
        expectedType 0 { rest := bytes, limits := ⟨0, 0, 0⟩ })) limits binaryVerdict .malformed
      (match wkbGeometry limits.maxDepth true expectedType 0 { rest := bytes, limits } with
      | .error parser => wkbMalformed bytes.length parser
      | .ok parser =>
        if parser.rest ≠ [] then wkbMalformed bytes.length parser
        else if format = .ewkb ∧ !parser.result.hasSrid then (.malformed, none)
        else binarySrid expectedSrid parser.result) := by
  set reading := surveyWkbGeometry (bytes.length + 1) 1 expectedType 0
    { rest := bytes, limits := ⟨0, 0, 0⟩ } with hreading
  have htracks := @tracks_wkbGeometry limits bytes.length (bytes.length + 1) 1 limits.maxDepth
    (Nat.add_comm _ _) Nat.one_pos (Nat.lt_succ_self _) expectedType 0
    { rest := bytes, limits := ⟨0, 0, 0⟩ } ⟨Nat.zero_le _, le_rfl⟩
  have hclimbs := climbs_wkbGeometry (bytes.length + 1) 1 expectedType 0
    { rest := bytes, limits := ⟨0, 0, 0⟩ } rfl
  rw [← hreading] at htracks hclimbs
  rcases @broken_or_ended _ _ wkbPoints (bytesSurvey bytes.length format expectedSrid reading) _
    limits rfl (wkbLeft limits) _ _ _ _ htracks with ⟨mark, hmark, hfirst, hx⟩ | ⟨hnone, hx⟩
  · have hx : wkbGeometry limits.maxDepth true expectedType 0 { rest := bytes, limits } =
        .error (wkbLeft limits mark) := hx
    have hunmarked : (mark.2.under limits).limitFailure = false := (hclimbs.marks mark hmark).1
    rw [hx]
    refine Follows.of_stopped hlength hfirst ?_
    obtain ⟨test, parser⟩ := mark
    cases test with
    | ring count =>
      show (if (parser.under limits).limitFailure then SpatialResult.limitExceeded
        else .malformed) = _
      rw [hunmarked]
      rfl
    | _ => rfl
  · have hx : wkbGeometry limits.maxDepth true expectedType 0 { rest := bytes, limits } =
        (reading.outcome.mapError (WkbParser.under limits)).map (WkbParser.under limits) := hx
    have hsettled := hclimbs.settled
    have hmalformed : ∀ parser : WkbParser, parser.limitFailure = false →
        (wkbMalformed bytes.length (parser.under limits)).1 = .malformed := by
      intro parser hparser
      show (if (parser.under limits).limitFailure then SpatialResult.limitExceeded
        else .malformed) = _
      rw [show (parser.under limits).limitFailure = false from hparser]
      rfl
    rw [hx]
    cases houtcome : reading.outcome with
    | error parser =>
      rw [houtcome] at hsettled
      refine Follows.of_defect hlength hnone ?_ (hmalformed parser hsettled)
      simp only [bytesSurvey, houtcome]
    | ok parser =>
      rw [houtcome] at hsettled
      show Follows _ _ _ _ (if parser.rest ≠ [] then wkbMalformed bytes.length (parser.under limits)
        else if format = .ewkb ∧ !parser.result.hasSrid then (.malformed, none)
        else binarySrid expectedSrid parser.result)
      by_cases hrest : parser.rest ≠ []
      · rw [if_pos hrest]
        refine Follows.of_defect hlength hnone ?_ (hmalformed parser hsettled)
        simp only [bytesSurvey, houtcome, if_pos (Or.inl hrest)]
      rw [if_neg hrest]
      by_cases hsrid : format = .ewkb ∧ !parser.result.hasSrid
      · rw [if_pos hsrid]
        refine Follows.of_defect hlength hnone ?_ rfl
        simp only [bytesSurvey, houtcome, if_pos (Or.inr hsrid)]
      rw [if_neg hsrid]
      have hresult : (bytesSurvey bytes.length format expectedSrid reading).result =
          (binarySrid expectedSrid parser.result).1 := by
        simp only [bytesSurvey, houtcome, if_neg (not_or.mpr ⟨hrest, hsrid⟩)]
      have hvalidation : (bytesSurvey bytes.length format expectedSrid reading).validation =
          (binarySrid expectedSrid parser.result).2 := by
        simp only [bytesSurvey, houtcome]
      have hcases : (binarySrid expectedSrid parser.result).1 = .ok ∨
          (binarySrid expectedSrid parser.result).1 = .sridMismatch := by
        unfold binarySrid
        split_ifs <;> simp
      rcases hcases with hok | hmismatch
      · refine Follows.of_accepted hlength hnone (hresult.trans hok) ?_
        rw [hvalidation, ← hok]
      · rw [hmismatch] at hresult
        exact Follows.of_other hlength hnone (hresult ▸ nofun) (hresult ▸ nofun)
          (hmismatch.trans hresult.symm)

/-- The bytes are answered as their survey goes. -/
theorem follows_binary (limits : Option SpatialLimits) :
    Follows (binarySurvey bytes format expectedType expectedSrid) (spatialLimits limits)
      binaryVerdict .malformed (validateBinary bytes format expectedType expectedSrid limits) := by
  unfold validateBinary
  dsimp only
  generalize spatialLimits limits = limits
  by_cases hformat : format ≠ .wkb ∧ format ≠ .ewkb
  · rw [if_pos hformat, binarySurvey, if_pos hformat]
    exact Follows.of_other (Nat.zero_le _) rfl nofun nofun rfl
  rw [if_neg hformat, binarySurvey, if_neg hformat]
  by_cases hempty : bytes.length = 0
  · have hshort : ¬bytes.length > limits.maxBytes := by omega
    simp only [if_pos (Or.inl hempty), if_neg hshort, if_pos hempty]
    exact Follows.of_defect (Nat.zero_le _) rfl rfl rfl
  by_cases hlong : bytes.length > limits.maxBytes
  · simp only [if_neg hempty, if_pos (Or.inr hlong), if_pos hlong]
    exact Follows.of_long hlong rfl
  · simp only [if_neg hempty, if_neg (not_or.mpr ⟨hempty, hlong⟩)]
    exact follows_wkbGeometry bytes format expectedType expectedSrid (not_lt.mp hlong)

/-- Every point of bytes that is tested is counted. -/
theorem binarySurvey_marks : ∀ mark ∈ (binarySurvey bytes format expectedType expectedSrid).marks,
    mark.1 = .point → mark.2 < (binarySurvey bytes format expectedType expectedSrid).points := by
  unfold binarySurvey
  split
  · exact fun _ h => nomatch h
  · split
    · exact fun _ h => nomatch h
    · intro mark hmark
      obtain ⟨mark, hread, rfl⟩ := List.mem_map.mp hmark
      have hclimbs := climbs_wkbGeometry (bytes.length + 1) 1 expectedType 0
        { rest := bytes, limits := ⟨0, 0, 0⟩ } rfl
      exact (hclimbs.marks mark hread).2

/-- A survey never ends at a limit. -/
theorem binarySurvey_result :
    (binarySurvey bytes format expectedType expectedSrid).result ≠ .limitExceeded := by
  unfold binarySurvey bytesSurvey binarySrid
  split
  · exact nofun
  · split
    · exact nofun
    · dsimp only
      split
      · exact nofun
      · split_ifs <;> exact nofun

/-- Bytes break off at the first test that fails. -/
theorem breaksOff_binary : BreaksOff (validateBinary bytes format expectedType expectedSrid)
    (binarySurvey bytes format expectedType expectedSrid) (fun _ => binaryVerdict)
    (fun _ => .malformed) where
  follows := follows_binary bytes format expectedType expectedSrid
  stopped_ne _ mark := by
    unfold binaryVerdict
    split <;> exact nofun
  defect_ne _ := nofun
  defect_eq _ _ := rfl
  result_ne := binarySurvey_result bytes format expectedType expectedSrid

end Told

/-- Well-formed bytes do not exceed the limits at a ring first, and malformed ones do not at a count
that their points and their nesting do not bear out. -/
def SpatialSurvey.BinaryTold (survey : SpatialSurvey) (limits : SpatialLimits) : Prop :=
  limits.maxBytes < survey.length ∨
    (survey.result = .ok → ∀ count points,
      survey.firstExceeded limits ≠ some (.ring count, points)) ∧
    (survey.result = .malformed → ∀ count points,
      survey.firstExceeded limits = some (.announced count, points) → survey.Exceeds limits)

/-- **The verdicts on bytes fit together** exactly under that condition. -/
theorem binaryTold_iff (bytes : List UInt8) (format : SpatialFormat)
    (expectedType : SpatialGeometryType) (expectedSrid : UInt32) (limits : Option SpatialLimits) :
    LimitsTold (validateBinary bytes format expectedType expectedSrid)
        (binarySurvey bytes format expectedType expectedSrid) limits ↔
      (binarySurvey bytes format expectedType expectedSrid).BinaryTold (spatialLimits limits) := by
  have hbreaks := breaksOff_binary bytes format expectedType expectedSrid
  have hmarks := binarySurvey_marks bytes format expectedType expectedSrid
  have hfollows := hbreaks.follows limits
  rw [hbreaks.limitsTold_iff, SpatialSurvey.BinaryTold]
  generalize binarySurvey bytes format expectedType expectedSrid = survey at *
  generalize spatialLimits limits = limits' at *
  refine or_congr_right' fun hlong => and_congr ?_ ?_
  · refine imp_congr_right fun _ => ⟨fun h count points hfirst => ?_, fun h mark hfirst => ?_⟩
    · exact nomatch h _ hfirst
    · obtain ⟨test, points⟩ := mark
      cases test with
      | ring count => exact absurd hfirst (h count points)
      | _ => rfl
  · have hlength := not_lt.mp hlong
    refine imp_congr_right fun hmalformed => ⟨fun h count points hfirst => ?_, fun h hlimit => ?_⟩
    · exact h (hfollows.stopped hlength _ hfirst)
    · cases hfirst : survey.firstExceeded limits' with
      | none => exact nomatch (hfollows.defect hlength hfirst hmalformed).symm.trans hlimit
      | some mark =>
        have hstopped := (hfollows.stopped hlength mark hfirst).symm.trans hlimit
        obtain ⟨hmem, hexceeds⟩ := SpatialSurvey.mem_of_firstExceeded hfirst
        obtain ⟨test, points⟩ := mark
        cases test with
        | nesting depth => exact SpatialSurvey.Exceeds.of_nesting hfirst
        | point =>
          have hle : limits'.maxPoints ≤ points := hexceeds
          exact .inr (.inl (hle.trans_lt (hmarks _ hmem rfl)))
        | announced count => exact h count points hfirst
        | ring count => exact nomatch hstopped

/-- **The verdicts of both validators under all limits.** -/
theorem limits_told_iff (strtod : List UInt8 → Option UInt64) (text bytes : List UInt8)
    (format : SpatialFormat) (expectedType : SpatialGeometryType) (expectedSrid : UInt32)
    (limits : Option SpatialLimits) :
    (LimitsTold (validateText strtod text format expectedType expectedSrid)
        (textSurvey strtod text format expectedType expectedSrid) limits ↔
      (textSurvey strtod text format expectedType expectedSrid).TextTold (spatialLimits limits)) ∧
    (LimitsTold (validateBinary bytes format expectedType expectedSrid)
        (binarySurvey bytes format expectedType expectedSrid) limits ↔
      (binarySurvey bytes format expectedType expectedSrid).BinaryTold (spatialLimits limits)) :=
  ⟨textTold_iff strtod text format expectedType expectedSrid limits,
    binaryTold_iff bytes format expectedType expectedSrid limits⟩

/-- A polygon of one ring of four points. -/
def fourPointBytes : List UInt8 := [1, 3, 0, 0, 0, 1, 0, 0, 0, 4, 0, 0, 0] ++ List.replicate 64 0

/-- A collection that is too deep and a ring that is too long are well-formed, and called malformed;
a text that breaks off behind as many points as are allowed is malformed, and called too long. -/
theorem limits_untold :
    ¬LimitsTold (validateText readBits (ascii "GEOMETRYCOLLECTION(POINT(0 0))") .wkt .any 0)
      (textSurvey readBits (ascii "GEOMETRYCOLLECTION(POINT(0 0))") .wkt .any 0)
      (some ⟨100, 10, 1⟩) ∧
    ¬LimitsTold (validateText readBits (ascii "LINESTRING(0 0,1 1") .wkt .any 0)
      (textSurvey readBits (ascii "LINESTRING(0 0,1 1") .wkt .any 0) (some ⟨100, 2, 1⟩) ∧
    ¬LimitsTold (validateBinary fourPointBytes .wkb .any 0)
      (binarySurvey fourPointBytes .wkb .any 0) (some ⟨100, 3, 1⟩) := by
  refine ⟨fun h => ?_, fun h => ?_, fun h => ?_⟩
  · have hrefused := h.refused (some ⟨100, 10, 2⟩) ⟨by decide, by decide, by decide⟩
      (by decide +kernel) (by decide +kernel)
    exact absurd hrefused (by decide +kernel)
  · have hmalformed :=
      (breaksOff_text readBits (ascii "LINESTRING(0 0,1 1") .wkt .any 0).malformed_iff
    have hexceeds := h.malformed (hmalformed.mpr (by decide +kernel)) (by decide +kernel)
    have hmarks : ∀ mark ∈ (textSurvey readBits (ascii "LINESTRING(0 0,1 1") .wkt .any 0).marks,
        mark.1 = .nesting 1 ∨ mark.1 = .point := by decide +kernel
    rcases hexceeds with hlong | hmore | ⟨depth, points, hmem, hdeep⟩
    · exact absurd hlong (by decide +kernel)
    · exact absurd hmore (by decide +kernel)
    · rcases hmarks _ hmem with hnesting | hpoint
      · cases hnesting
        exact absurd hdeep (by decide)
      · cases hpoint
  · have hrefused := h.refused (some ⟨100, 4, 1⟩) ⟨by decide, by decide, by decide⟩
      (by decide +kernel) (by decide +kernel)
    exact absurd hrefused (by decide +kernel)

end Vps
