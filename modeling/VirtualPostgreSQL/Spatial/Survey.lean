import Mathlib.Algebra.Order.BigOperators.Group.List
import Mathlib.Algebra.Order.Group.Nat
import VirtualPostgreSQL.Machinery.Reading
import VirtualPostgreSQL.Spatial.Basic

/-!
# Spatial/Survey — an input without limits, and where a limit would be tested

The survey of an input is what a reading without limits finds: the places where a limit is tested,
each behind so many points, and how the input ends.  Under limits the reading breaks off at the
first test that fails (`Follows`); `limitsTold_iff` says when the verdicts under all limits fit
together, in terms of what is answered there.
-/

namespace Vps

open Machinery

/-! ## Tests -/

/-- Where a limit is tested: at a geometry, at a point, at the number of points that a line or a
`MULTIPOINT` announces, at that of a ring. -/
inductive SpatialTest
  | nesting (depth : ℕ)
  | point
  | announced (count : ℕ)
  | ring (count : ℕ)
  deriving DecidableEq, Repr

/-- The test fails, behind so many points. -/
def SpatialTest.Exceeds (limits : SpatialLimits) (points : ℕ) : SpatialTest → Prop
  | .nesting depth => limits.maxDepth < depth
  | .point => limits.maxPoints ≤ points
  | .announced count | .ring count => limits.maxPoints - points < count

instance (limits : SpatialLimits) (points : ℕ) : DecidablePred (SpatialTest.Exceeds limits points)
  | .nesting _ => inferInstanceAs (Decidable (_ < _))
  | .point => inferInstanceAs (Decidable (_ ≤ _))
  | .announced _ => inferInstanceAs (Decidable (_ < _))
  | .ring _ => inferInstanceAs (Decidable (_ < _))

/-- Every limit is at least the other one. -/
structure SpatialLimits.Le (limits limits' : SpatialLimits) : Prop where
  maxBytes : limits.maxBytes ≤ limits'.maxBytes
  maxPoints : limits.maxPoints ≤ limits'.maxPoints
  maxDepth : limits.maxDepth ≤ limits'.maxDepth

/-- Limits are ordered by each of their numbers. -/
instance : LE SpatialLimits := ⟨SpatialLimits.Le⟩

/-- A test that fails under the greater limits fails under the smaller ones. -/
theorem SpatialTest.Exceeds.anti {limits limits' : SpatialLimits}
    (h : limits ≤ limits') {points : ℕ}
    {test : SpatialTest} (htest : test.Exceeds limits' points) : test.Exceeds limits points := by
  obtain ⟨-, hpoints, hdepth⟩ := h
  cases test with
  | nesting depth => exact hdepth.trans_lt htest
  | point => exact hpoints.trans htest
  | announced count => exact (Nat.sub_le_sub_right hpoints points).trans_lt htest
  | ring count => exact (Nat.sub_le_sub_right hpoints points).trans_lt htest

/-! ## Surveys -/

/-- What a reading without limits finds. -/
structure SpatialSurvey where
  length : ℕ
  /-- The tests, and the points that were read before them. -/
  marks : List (SpatialTest × ℕ)
  /-- The points that were read before the end, or before the defect. -/
  points : ℕ
  result : SpatialResult
  validation : Option SpatialValidation
  deriving DecidableEq

namespace SpatialSurvey

/-- The first test that fails. -/
def firstExceeded (survey : SpatialSurvey) (limits : SpatialLimits) : Option (SpatialTest × ℕ) :=
  survey.marks.find? fun mark => mark.1.Exceeds limits mark.2

/-- The length, the points that are read or the nesting that is reached exceed the limits. -/
def Exceeds (survey : SpatialSurvey) (limits : SpatialLimits) : Prop :=
  limits.maxBytes < survey.length ∨ limits.maxPoints < survey.points ∨
    ∃ depth points, (SpatialTest.nesting depth, points) ∈ survey.marks ∧ limits.maxDepth < depth

variable {survey : SpatialSurvey} {limits limits' : SpatialLimits}

theorem firstExceeded_eq_none_iff : survey.firstExceeded limits = none ↔
    ∀ mark ∈ survey.marks, ¬mark.1.Exceeds limits mark.2 := by
  rw [firstExceeded, List.find?_eq_none]
  simp

theorem mem_of_firstExceeded {mark : SpatialTest × ℕ}
    (h : survey.firstExceeded limits = some mark) :
    mark ∈ survey.marks ∧ mark.1.Exceeds limits mark.2 :=
  ⟨List.mem_of_find?_eq_some h, by simpa using List.find?_some h⟩

/-- What is within the limits is within greater ones. -/
theorem firstExceeded_mono (h : limits ≤ limits') (hnone : survey.firstExceeded limits = none) :
    survey.firstExceeded limits' = none :=
  firstExceeded_eq_none_iff.mpr fun mark hmark hexceeds =>
    firstExceeded_eq_none_iff.mp hnone mark hmark (hexceeds.anti h)

/-- A test that fails, by what it is about. -/
theorem Exceeds.of_nesting {depth points : ℕ}
    (h : survey.firstExceeded limits = some (.nesting depth, points)) : survey.Exceeds limits :=
  .inr (.inr ⟨depth, points, mem_of_firstExceeded h⟩)

end SpatialSurvey

/-! ## Counting -/

section Climbs

variable {σ α β : Type} (points : σ → ℕ) (M : SpatialTest × σ → Prop) (S : σ → Prop)

/-- What a reading is left with. -/
def ended (q : α → σ) : Except σ α → σ
  | .error state => state
  | .ok a => q a

/-- **The points grow**: there are at least `n` at the end, and every point that is tested is among
them; `M` holds of the tests, and `S` of what is left. -/
structure Climbs (q : α → σ) (n : ℕ) (x : Reading (SpatialTest × σ) σ α) : Prop where
  le : n ≤ points (ended q x.outcome)
  settled : S (ended q x.outcome)
  marks : ∀ mark ∈ x.reads, M mark ∧
    (mark.1 = .point → points mark.2 < points (ended q x.outcome))

variable {points M S} {q : α → σ} {q' : β → σ} {n : ℕ} {x : Reading (SpatialTest × σ) σ α}

theorem Climbs.pure {a : α} (h : n ≤ points (q a)) (hS : S (q a)) :
    Climbs points M S q n (Pure.pure a : Reading (SpatialTest × σ) σ α) :=
  ⟨h, hS, fun _ h => nomatch h⟩

theorem Climbs.error {state : σ} (h : n ≤ points state) (hS : S state) :
    Climbs points M S q n (Reading.error state : Reading (SpatialTest × σ) σ α) :=
  ⟨h, hS, fun _ h => nomatch h⟩

theorem Climbs.lift {x : Except σ α} (h : n ≤ points (ended q x)) (hS : S (ended q x)) :
    Climbs points M S q n (Reading.lift x : Reading (SpatialTest × σ) σ α) :=
  ⟨h, hS, fun _ h => nomatch h⟩

/-- **The sequence rule.** -/
theorem Climbs.bind {f : α → Reading (SpatialTest × σ) σ β} (h : Climbs points M S q n x)
    (hf : ∀ a, n ≤ points (q a) → S (q a) → Climbs points M S q' (points (q a)) (f a)) :
    Climbs points M S q' n (x >>= f) := by
  obtain ⟨hn, hS, hmarks⟩ := h
  cases houtcome : x.outcome with
  | error state =>
    rw [houtcome] at hn hS hmarks
    have hended : ended q' (x >>= f).outcome = state := by
      rw [Reading.outcome_bind, houtcome]
      rfl
    refine ⟨hended ▸ hn, hended ▸ hS, ?_⟩
    rw [hended, Reading.reads_bind_of_error houtcome]
    exact hmarks
  | ok a =>
    rw [houtcome] at hn hS hmarks
    obtain ⟨hle, hS', hrest⟩ := hf a hn hS
    have hended : (x >>= f).outcome = (f a).outcome := by
      rw [Reading.outcome_bind, houtcome, ok_bind]
    refine ⟨hended ▸ hn.trans hle, hended ▸ hS', ?_⟩
    rw [hended, Reading.reads_bind_of_ok houtcome]
    refine fun mark hmark => (List.mem_append.mp hmark).elim (fun hmark => ?_) (hrest mark)
    exact ⟨(hmarks mark hmark).1, fun hpoint => ((hmarks mark hmark).2 hpoint).trans_le hle⟩

/-- A test that is no point. -/
theorem Climbs.visit {test : SpatialTest} {state : σ}
    {f : α → Reading (SpatialTest × σ) σ β} {a : α}
    (hM : M (test, state)) (hpoint : test ≠ .point) (hf : Climbs points M S q' n (f a)) :
    Climbs points M S q' n ((Reading.visit (test, state) a : Reading _ σ α) >>= f) := by
  refine ⟨hf.le, hf.settled, fun mark hmark => (List.mem_append.mp hmark).elim (fun hmark => ?_)
    (hf.marks mark)⟩
  rw [List.mem_singleton.mp hmark]
  exact ⟨hM, fun h => absurd h hpoint⟩

/-- A point that is tested, and counted. -/
theorem Climbs.visit_point {state : σ} {f : α → Reading (SpatialTest × σ) σ β} {a : α}
    (hM : M (.point, state)) (hf : Climbs points M S q' (points state + 1) (f a)) :
    Climbs points M S q' (points state)
      ((Reading.visit (SpatialTest.point, state) a : Reading _ σ α) >>= f) := by
  refine ⟨(Nat.le_succ _).trans hf.le, hf.settled, fun mark hmark =>
    (List.mem_append.mp hmark).elim (fun hmark => ?_) (hf.marks mark)⟩
  rw [List.mem_singleton.mp hmark]
  exact ⟨hM, fun _ => hf.le⟩

theorem Climbs.mono {m : ℕ} (h : Climbs points M S q n x) (hm : m ≤ n) : Climbs points M S q m x :=
  ⟨hm.trans h.le, h.settled, h.marks⟩

end Climbs

/-- The limits as they are given, where none of them is zero. -/
theorem spatialLimits_some {limits : SpatialLimits} (hbytes : 0 < limits.maxBytes)
    (hpoints : 0 < limits.maxPoints) (hdepth : 0 < limits.maxDepth) :
    spatialLimits (some limits) = limits := by
  obtain ⟨maxBytes, maxPoints, maxDepth⟩ := limits
  simp only [spatialLimits, Option.getD_some]
  rw [if_pos hbytes.ne', if_pos hpoints.ne', if_pos hdepth.ne']

/-- Limits beyond others that a survey stays within. -/
theorem exists_wide (survey : SpatialSurvey) (limits : SpatialLimits) : ∃ wide : SpatialLimits,
    spatialLimits (some wide) = wide ∧ limits ≤ wide ∧ survey.length ≤ wide.maxBytes ∧
      survey.points < wide.maxPoints ∧ survey.firstExceeded wide = none := by
  -- every mark has a bound of its own, and the sum of them is beyond them all
  let bound : SpatialTest × ℕ → ℕ := fun mark =>
    match mark.1 with
    | .nesting depth => depth
    | .point => mark.2 + 1
    | .announced count | .ring count => count + mark.2
  let total := (survey.marks.map bound).sum
  refine ⟨⟨limits.maxBytes + survey.length + 1, limits.maxPoints + survey.points + 1 + total,
    limits.maxDepth + 1 + total⟩, spatialLimits_some ?_ ?_ ?_, ⟨?_, ?_, ?_⟩, ?_, ?_, ?_⟩
  any_goals dsimp only
  · omega
  · omega
  · omega
  · omega
  · omega
  · omega
  · omega
  · omega
  · refine SpatialSurvey.firstExceeded_eq_none_iff.mpr fun mark hmark hexceeds => ?_
    have hle : bound mark ≤ total := List.le_sum_of_mem (List.mem_map_of_mem hmark)
    obtain ⟨test, points⟩ := mark
    cases test with
    | nesting depth =>
      have hlt : limits.maxDepth + 1 + total < depth := hexceeds
      have hle : depth ≤ total := hle
      omega
    | point =>
      have hlt : limits.maxPoints + survey.points + 1 + total ≤ points := hexceeds
      have hle : points + 1 ≤ total := hle
      omega
    | announced count =>
      have hlt : limits.maxPoints + survey.points + 1 + total - points < count := hexceeds
      have hle : count + points ≤ total := hle
      omega
    | ring count =>
      have hlt : limits.maxPoints + survey.points + 1 + total - points < count := hexceeds
      have hle : count + points ≤ total := hle
      omega

theorem findSome?_ite {α β : Type} (P : α → Prop) [DecidablePred P] (g : α → β) (l : List α) :
    l.findSome? (fun a => if P a then some (g a) else none) = (l.find? fun a => P a).map g := by
  induction l with
  | nil => rfl
  | cons a l ih =>
    rw [List.findSome?_cons, List.find?_cons]
    by_cases ha : P a
    · simp [ha]
    · simpa [ha] using ih

/-- **A run that tracks a reading** breaks off at the first test that fails, or ends as the reading
does. -/
theorem broken_or_ended {σ ρ : Type} {points : σ → ℕ} {survey : SpatialSurvey}
    {reading : Reading (SpatialTest × σ) σ σ} {limits : SpatialLimits}
    (hmarks : survey.marks = reading.reads.map fun mark => (mark.1, points mark.2))
    (leave : SpatialTest × σ → ρ) {g p : σ → ρ} {I : σ → Prop} {x : Except ρ ρ}
    (h : Reading.Tracks
      (fun mark => if mark.1.Exceeds limits (points mark.2) then some (leave mark) else none)
      g p I x reading) :
    (∃ mark ∈ reading.reads, survey.firstExceeded limits = some (mark.1, points mark.2) ∧
      x = .error (leave mark)) ∨
      (survey.firstExceeded limits = none ∧ x = (reading.outcome.mapError g).map p) := by
  have hx := h.eq_map
  have hfirst : survey.firstExceeded limits = (reading.reads.find? fun mark =>
      mark.1.Exceeds limits (points mark.2)).map fun mark => (mark.1, points mark.2) := by
    rw [SpatialSurvey.firstExceeded, hmarks, List.find?_map]
    rfl
  rw [Reading.guarded, findSome?_ite (fun mark : SpatialTest × σ =>
    mark.1.Exceeds limits (points mark.2))] at hx
  rw [hfirst]
  cases hfind : reading.reads.find? fun mark => mark.1.Exceeds limits (points mark.2) with
  | none =>
    rw [hfind] at hx
    exact .inr ⟨rfl, hx⟩
  | some mark =>
    rw [hfind] at hx
    exact .inl ⟨mark, List.mem_of_find?_eq_some hfind, rfl, hx⟩

/-! ## Verdicts -/

/-- The answer under limits is the one of the survey, as long as the reading goes: `stopped` is the
verdict at the first test that fails, `defect` the one at the defect. -/
structure Follows (survey : SpatialSurvey) (limits : SpatialLimits)
    (stopped : SpatialTest × ℕ → SpatialResult) (defect : SpatialResult)
    (answer : SpatialResult × Option SpatialValidation) : Prop where
  long : limits.maxBytes < survey.length → answer.1 = .limitExceeded
  stopped : survey.length ≤ limits.maxBytes → ∀ mark, survey.firstExceeded limits = some mark →
    answer.1 = stopped mark
  accepted : survey.length ≤ limits.maxBytes → survey.firstExceeded limits = none →
    survey.result = .ok → answer = (.ok, survey.validation)
  defect : survey.length ≤ limits.maxBytes → survey.firstExceeded limits = none →
    survey.result = .malformed → answer.1 = defect
  other : survey.length ≤ limits.maxBytes → survey.firstExceeded limits = none →
    survey.result ≠ .ok → survey.result ≠ .malformed → answer.1 = survey.result

namespace Follows

variable {survey : SpatialSurvey} {limits : SpatialLimits}
    {stopped : SpatialTest × ℕ → SpatialResult}
  {defect : SpatialResult} {answer : SpatialResult × Option SpatialValidation}

theorem of_long (hlong : limits.maxBytes < survey.length) (h : answer.1 = .limitExceeded) :
    Follows survey limits stopped defect answer :=
  ⟨fun _ => h, fun hlength => absurd hlong hlength.not_gt,
    fun hlength => absurd hlong hlength.not_gt,
    fun hlength => absurd hlong hlength.not_gt, fun hlength => absurd hlong hlength.not_gt⟩

theorem of_stopped (hlength : survey.length ≤ limits.maxBytes) {mark : SpatialTest × ℕ}
    (hfirst : survey.firstExceeded limits = some mark) (h : answer.1 = stopped mark) :
    Follows survey limits stopped defect answer := by
  have hsome : survey.firstExceeded limits ≠ none := by
    rw [hfirst]
    exact nofun
  refine ⟨fun hlong => absurd hlong hlength.not_gt, fun _ mark' hfirst' => ?_,
    fun _ hnone => absurd hnone hsome, fun _ hnone => absurd hnone hsome,
    fun _ hnone => absurd hnone hsome⟩
  rw [h, Option.some_inj.mp (hfirst.symm.trans hfirst')]

theorem of_accepted (hlength : survey.length ≤ limits.maxBytes)
    (hnone : survey.firstExceeded limits = none) (hok : survey.result = .ok)
    (h : answer = (.ok, survey.validation)) : Follows survey limits stopped defect answer := by
  refine ⟨fun hlong => absurd hlong hlength.not_gt, fun _ mark hmark => ?_, fun _ _ _ => h,
    fun _ _ hmalformed => ?_, fun _ _ hne _ => absurd hok hne⟩
  · exact nomatch hnone.symm.trans hmark
  · exact nomatch hok.symm.trans hmalformed

theorem of_defect (hlength : survey.length ≤ limits.maxBytes)
    (hnone : survey.firstExceeded limits = none) (hmalformed : survey.result = .malformed)
    (h : answer.1 = defect) : Follows survey limits stopped defect answer := by
  refine ⟨fun hlong => absurd hlong hlength.not_gt, fun _ mark hmark => ?_, fun _ _ hok => ?_,
    fun _ _ _ => h, fun _ _ _ hne => absurd hmalformed hne⟩
  · exact nomatch hnone.symm.trans hmark
  · exact nomatch hok.symm.trans hmalformed

theorem of_other (hlength : survey.length ≤ limits.maxBytes)
    (hnone : survey.firstExceeded limits = none) (hok : survey.result ≠ .ok)
    (hmalformed : survey.result ≠ .malformed) (h : answer.1 = survey.result) :
    Follows survey limits stopped defect answer := by
  refine ⟨fun hlong => absurd hlong hlength.not_gt, fun _ mark hmark => ?_,
    fun _ _ h => absurd h hok, fun _ _ h => absurd h hmalformed, fun _ _ _ _ => h⟩
  exact nomatch hnone.symm.trans hmark

end Follows

/-- **The verdicts under all limits fit together**, seen from one of them. -/
structure LimitsTold (answer : Option SpatialLimits → SpatialResult × Option SpatialValidation)
    (survey : SpatialSurvey) (limits : Option SpatialLimits) : Prop where
  accepted : ∀ limits', spatialLimits limits ≤ spatialLimits limits' → (answer limits).1 = .ok →
    answer limits' = answer limits
  refused : ∀ limits', spatialLimits limits ≤ spatialLimits limits' → (answer limits').1 = .ok →
    (answer limits).1 ≠ .ok → (answer limits).1 = .limitExceeded
  malformed : (∃ large, ∀ limits', spatialLimits large ≤ spatialLimits limits' →
    (answer limits').1 = .malformed) → (answer limits).1 = .limitExceeded →
      survey.Exceeds (spatialLimits limits)

section Told

variable {answer : Option SpatialLimits → SpatialResult × Option SpatialValidation}
  {survey : SpatialSurvey} {stopped : SpatialLimits → SpatialTest × ℕ → SpatialResult}
  {defect : SpatialLimits → SpatialResult}

/-- A validator that breaks off at the first test that fails, and never takes it for well-formed; a
defect is malformed where there is room for the points before it. -/
structure BreaksOff (answer : Option SpatialLimits → SpatialResult × Option SpatialValidation)
    (survey : SpatialSurvey) (stopped : SpatialLimits → SpatialTest × ℕ → SpatialResult)
    (defect : SpatialLimits → SpatialResult) : Prop where
  follows : ∀ limits, Follows survey (spatialLimits limits) (stopped (spatialLimits limits))
    (defect (spatialLimits limits)) (answer limits)
  stopped_ne : ∀ limits mark, stopped limits mark ≠ .ok
  defect_ne : ∀ limits, defect limits ≠ .ok
  defect_eq : ∀ limits : SpatialLimits, survey.points < limits.maxPoints →
    defect limits = .malformed
  result_ne : survey.result ≠ .limitExceeded

namespace BreaksOff

variable (h : BreaksOff answer survey stopped defect) {limits : Option SpatialLimits}

include h

/-- What is accepted is within the limits, and well-formed. -/
theorem accepted_iff : (answer limits).1 = .ok ↔ survey.length ≤ (spatialLimits limits).maxBytes ∧
    survey.firstExceeded (spatialLimits limits) = none ∧ survey.result = .ok := by
  have hfollows := h.follows limits
  constructor
  · intro hok
    have hlength : survey.length ≤ (spatialLimits limits).maxBytes := by
      refine not_lt.mp fun hlong => ?_
      exact nomatch (hfollows.long hlong).symm.trans hok
    have hnone : survey.firstExceeded (spatialLimits limits) = none := by
      refine Option.eq_none_iff_forall_not_mem.mpr fun mark hmark => ?_
      exact h.stopped_ne _ mark ((hfollows.stopped hlength mark hmark).symm.trans hok)
    refine ⟨hlength, hnone, ?_⟩
    by_contra hresult
    by_cases hmalformed : survey.result = .malformed
    · exact h.defect_ne _ ((hfollows.defect hlength hnone hmalformed).symm.trans hok)
    · exact hresult ((hfollows.other hlength hnone hresult hmalformed).symm.trans hok)
  · rintro ⟨hlength, hnone, hresult⟩
    rw [hfollows.accepted hlength hnone hresult]

/-- Under all large limits malformed is what has a defect. -/
theorem malformed_iff : (∃ large, ∀ limits', spatialLimits large ≤ spatialLimits limits' →
    (answer limits').1 = .malformed) ↔ survey.result = .malformed := by
  constructor
  · rintro ⟨large, hall⟩
    obtain ⟨wide, hwide, hle, hlength, -, hnone⟩ := exists_wide survey (spatialLimits large)
    have hmalformed := hall (some wide) (hwide.symm ▸ hle)
    by_contra hresult
    rw [← hwide] at hlength hnone
    by_cases hok : survey.result = .ok
    · exact nomatch ((h.accepted_iff.mpr ⟨hlength, hnone, hok⟩).symm.trans hmalformed)
    · exact hresult (((h.follows _).other hlength hnone hok hresult).symm.trans hmalformed)
  · intro hresult
    obtain ⟨wide, hwide, -, hlength, hpoints, hnone⟩ := exists_wide survey ⟨0, 0, 0⟩
    refine ⟨some wide, fun limits' hle => ?_⟩
    rw [hwide] at hle
    rw [(h.follows limits').defect (hlength.trans hle.maxBytes)
      (SpatialSurvey.firstExceeded_mono hle hnone) hresult]
    exact h.defect_eq _ (hpoints.trans_le hle.maxPoints)

/-- **When the verdicts under all limits fit together.** -/
theorem limitsTold_iff : LimitsTold answer survey limits ↔
    ((spatialLimits limits).maxBytes < survey.length ∨
      (survey.result = .ok → ∀ mark, survey.firstExceeded (spatialLimits limits) = some mark →
        stopped (spatialLimits limits) mark = .limitExceeded) ∧
      (survey.result = .malformed → (answer limits).1 = .limitExceeded →
        survey.Exceeds (spatialLimits limits))) := by
  have hfollows := h.follows limits
  constructor
  · intro htold
    refine or_iff_not_imp_left.mpr fun hlong => ⟨fun hok mark hmark => ?_, fun hmalformed =>
      htold.malformed (h.malformed_iff.mpr hmalformed)⟩
    have hlength := not_lt.mp hlong
    obtain ⟨wide, hwide, hle, hwideLength, -, hnone⟩ := exists_wide survey (spatialLimits limits)
    have hwideOk : (answer (some wide)).1 = .ok := by
      refine h.accepted_iff.mpr ?_
      rw [hwide]
      exact ⟨hwideLength, hnone, hok⟩
    have hrefused : (answer limits).1 ≠ .ok := fun haccepted => by
      rw [(h.accepted_iff.mp haccepted).2.1] at hmark
      exact nomatch hmark
    rw [← hfollows.stopped hlength mark hmark]
    exact htold.refused (some wide) (hwide.symm ▸ hle) hwideOk hrefused
  · intro hcondition
    refine ⟨fun limits' hle haccepted => ?_, fun limits' hle hok' hrefused => ?_,
      fun hmalformed hlimit => ?_⟩
    · obtain ⟨hlength, hnone, hok⟩ := h.accepted_iff.mp haccepted
      rw [hfollows.accepted hlength hnone hok, (h.follows limits').accepted
        (hlength.trans hle.maxBytes) (SpatialSurvey.firstExceeded_mono hle hnone) hok]
    · obtain ⟨-, -, hok⟩ := h.accepted_iff.mp hok'
      rcases hcondition with hlong | ⟨hstopped, -⟩
      · exact hfollows.long hlong
      · have hlength : ¬(spatialLimits limits).maxBytes < survey.length → (answer limits).1 =
            .limitExceeded := fun hlong => by
          cases hfirst : survey.firstExceeded (spatialLimits limits) with
          | none => exact absurd (h.accepted_iff.mpr ⟨not_lt.mp hlong, hfirst, hok⟩) hrefused
          | some mark =>
            rw [hfollows.stopped (not_lt.mp hlong) mark hfirst]
            exact hstopped hok mark hfirst
        exact (Decidable.em _).elim hfollows.long hlength
    · rcases hcondition with hlong | ⟨-, hdefect⟩
      · exact .inl hlong
      · exact hdefect (h.malformed_iff.mp hmalformed) hlimit

end BreaksOff

end Told

end Vps
