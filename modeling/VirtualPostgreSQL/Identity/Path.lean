import Mathlib.Algebra.Order.BigOperators.Group.List
import VirtualPostgreSQL.Identity.Sound
import VirtualPostgreSQL.Machinery.Resolve

/-!
# Identity/Path — the location a path denotes, and its normal form

A path has a root and, below it, names.  `pathLocation` reads them off the text: empty names and `.`
go, and each `..` takes the name before it away.  `identityNormalizePath` edits its output in place,
with a stack of offsets; what it writes is the location's text (`identityNormalizePath_eq_some`).
Read again, that text denotes the same location unless it looks like a drive, or the location is
below a drive of which only the current directory is meant.
-/

namespace Vps

open Machinery

/-! ## Locations -/

inductive PathRootKind
  | relative
  | rooted
  | network
  | driveRelative (letter : UInt8)
  | driveAbsolute (letter : UInt8)
  deriving DecidableEq

/-- Whether no way leads up from a root. -/
def PathRootKind.isAbsolute : PathRootKind → Bool
  | relative | driveRelative _ => false
  | rooted | network | driveAbsolute _ => true

/-- How a root is written. -/
def PathRootKind.text : PathRootKind → List UInt8
  | relative => []
  | rooted => [47]
  | network => [47, 47]
  | driveRelative letter => [letter, 58]
  | driveAbsolute letter => [letter, 58, 47]

/-- A root, and the names below it. -/
structure PathLocation where
  root : PathRootKind
  names : List (List UInt8)
  deriving DecidableEq

/-- A letter and a colon. -/
def isDrivePath : List UInt8 → Bool
  | letter :: colon :: _ => isAlpha letter && colon == 58
  | _ => false

/-- Neither empty nor `.`. -/
def isPathName (segment : List UInt8) : Bool := decide (segment ≠ [] ∧ segment ≠ [46])

/-- The root of a path; the letter of a drive has no case. -/
def pathRootKind (value : List UInt8) : PathRootKind :=
  if isDrivePath value then
    if (value.drop 2).head?.any isSeparator then .driveAbsolute (toLower (value.headD 0))
    else .driveRelative (toLower (value.headD 0))
  else if value.head?.any isSeparator then
    if value.tail.head?.any isSeparator then .network else .rooted
  else .relative

/-- The names of a path, in their order. -/
def pathNames (value : List UInt8) : List (List UInt8) :=
  ((if isDrivePath value then value.drop 2 else value).splitOnP isSeparator).filter isPathName

/-- **The location a path denotes.** -/
def pathLocation (value : List UInt8) : PathLocation :=
  ⟨pathRootKind value, resolve [46, 46] (pathRootKind value).isAbsolute (pathNames value)⟩

/-! ## What the normaliser writes -/

/-- The bytes of the output that the loop touches, with the terminator. -/
def pathReachFrom (absolute : Bool) (outputSize : ℕ) : PathState → List (List UInt8) → ℕ
  | s, [] => s.output.length + 1
  | s, segment :: segments =>
    max s.output.length (match pathSegment absolute outputSize s segment with
      | some s' => pathReachFrom absolute outputSize s' segments
      | none => (pathSeparated s.output).length)

/-- The bytes of the output that `identityNormalizePath` touches. -/
def pathReach (outputSize : ℕ) (value : List UInt8) : ℕ :=
  let (root, absolute, rest) := pathRoot value
  if outputSize = 0 ∨ (root.head?.any isAlpha ∧ outputSize < 3) then 0
  else pathReachFrom absolute outputSize ⟨root, []⟩ (rest.splitOnP isSeparator)

theorem pathSeparated_cases (output : List UInt8) :
    pathSeparated output = output ∨ pathSeparated output = output ++ [47] := by
  rw [pathSeparated]
  split
  next => exact .inr rfl
  next => exact .inl rfl

theorem le_length_pathSeparated (output : List UInt8) :
    output.length ≤ (pathSeparated output).length ∧
      (pathSeparated output).length ≤ output.length + 1 := by
  rcases pathSeparated_cases output with h | h
  all_goals
    rw [h]
    simp

/-- A segment keeps the output below its size. -/
theorem length_pathSegment_lt {absolute : Bool} {outputSize : ℕ} {s s' : PathState}
    {segment : List UInt8} (h : pathSegment absolute outputSize s segment = some s')
    (hs : s.output.length < outputSize) : s'.output.length < outputSize := by
  rw [pathSegment] at h
  split at h
  next => exact Option.some.inj h ▸ hs
  next =>
    split at h
    next =>
      split at h
      next offset _ _ =>
        obtain rfl := Option.some.inj h
        exact (List.length_take_le' offset s.output).trans_lt hs
      next =>
        split at h
        next => exact Option.some.inj h ▸ hs
        next =>
          dsimp only at h
          split at h
          next => cases h
          next hroom =>
            obtain rfl := Option.some.inj h
            simp only [List.length_append, List.length_cons, List.length_nil]
            omega
    next =>
      dsimp only at h
      split at h
      next => cases h
      next hroom =>
        obtain rfl := Option.some.inj h
        rw [List.length_append]
        omega

theorem length_foldlM_pathSegment_lt {absolute : Bool} {outputSize : ℕ} {s s' : PathState}
    {segments : List (List UInt8)}
    (h : segments.foldlM (pathSegment absolute outputSize) s = some s')
    (hs : s.output.length < outputSize) : s'.output.length < outputSize := by
  induction segments generalizing s with
  | nil => exact Option.some.inj h ▸ hs
  | cons segment segments ih =>
    rw [List.foldlM_cons] at h
    obtain ⟨next, hstep, h⟩ := Option.bind_eq_some_iff.mp h
    exact ih h (length_pathSegment_lt hstep hs)

/-- **The loop stays within its output**, once the root does. -/
theorem pathReachFrom_le {absolute : Bool} {outputSize : ℕ} {s : PathState}
    {segments : List (List UInt8)} (hs : s.output.length < outputSize) :
    pathReachFrom absolute outputSize s segments ≤ outputSize := by
  induction segments generalizing s with
  | nil => exact hs
  | cons segment segments ih =>
    rw [pathReachFrom]
    refine max_le hs.le ?_
    cases hstep : pathSegment absolute outputSize s segment with
    | some s' => exact ih (length_pathSegment_lt hstep hs)
    | none => exact (le_length_pathSeparated s.output).2.trans hs

/-! ## The loop resolves -/

/-- What is written of a stack of names, the deepest first. -/
def pathWrite (root : List UInt8) : List (List UInt8) → List UInt8
  | [] => root
  | name :: stack => pathSeparated (pathWrite root stack) ++ name

/-- Where the names start: an ordinary one with the separator before it, a way up behind it. -/
def pathOffsets (root : List UInt8) : List (List UInt8) → List (ℕ × Bool)
  | [] => []
  | name :: stack =>
    (if name = [46, 46] then ((pathSeparated (pathWrite root stack)).length, true)
      else ((pathWrite root stack).length, false)) :: pathOffsets root stack

/-- The state of the loop with these names. -/
def pathStateOf (root : List UInt8) (stack : List (List UInt8)) : PathState :=
  ⟨pathWrite root stack, pathOffsets root stack⟩

/-- The text of a location. -/
def PathLocation.write (location : PathLocation) : List UInt8 :=
  pathWrite location.root.text location.names.reverse

theorem length_pathOffsets (root : List UInt8) (stack : List (List UInt8)) :
    (pathOffsets root stack).length = stack.length := by
  induction stack with
  | nil => rfl
  | cons name stack ih => rw [pathOffsets, List.length_cons, List.length_cons, ih]

/-- The output goes back to where it was. -/
theorem take_pathSeparated_append (output name : List UInt8) :
    (pathSeparated output ++ name).take output.length = output := by
  rcases pathSeparated_cases output with h | h
  all_goals
    rw [h]
    simp

section Loop

variable {root : List UInt8} {absolute : Bool} {outputSize : ℕ} {stack : List (List UInt8)}
  {segment : List UInt8}

theorem pathSegment_skip (hname : isPathName segment = false) (s : PathState) :
    pathSegment absolute outputSize s segment = some s := by
  rw [isPathName, decide_eq_false_iff_not, ne_eq, ne_eq, ← not_or, not_not] at hname
  rw [pathSegment, if_pos hname]

/-- A way up from an ordinary name takes it away. -/
theorem pathSegment_pop {name : List UInt8} (hname : name ≠ [46, 46]) :
    pathSegment absolute outputSize (pathStateOf root (name :: stack)) [46, 46] =
      some (pathStateOf root stack) := by
  rw [pathSegment, if_neg (by decide), if_pos rfl, pathStateOf, pathOffsets, if_neg hname]
  dsimp only
  rw [pathWrite, take_pathSeparated_append]
  rfl

/-- Where there is no ordinary name on top, a way up is written, or nothing happens at the root. -/
theorem pathSegment_up (htop : stack.head?.any (· ≠ [46, 46]) = false) :
    pathSegment absolute outputSize (pathStateOf root stack) [46, 46] =
      if absolute then some (pathStateOf root stack)
      else if outputSize ≤ (pathSeparated (pathWrite root stack)).length + 2 ∨
        0xffff < (pathSeparated (pathWrite root stack)).length then none
      else some (pathStateOf root ([46, 46] :: stack)) := by
  rw [pathSegment, if_neg (by decide), if_pos rfl]
  cases stack with
  | nil => rfl
  | cons name stack =>
    obtain rfl : name = [46, 46] := by simpa using htop
    simp [pathStateOf, pathOffsets, pathWrite]

theorem pathSegment_push (hname : isPathName segment = true) (hup : segment ≠ [46, 46]) :
    pathSegment absolute outputSize (pathStateOf root stack) segment =
      if outputSize ≤ (pathSeparated (pathWrite root stack)).length + segment.length ∨
        credentialValueMaxLength / 2 + 2 ≤ stack.length ∨ 0xffff < (pathWrite root stack).length
      then none else some (pathStateOf root (segment :: stack)) := by
  rw [isPathName, decide_eq_true_eq, ne_eq, ne_eq, ← not_or] at hname
  rw [pathSegment, if_neg hname, if_neg hup]
  simp [pathStateOf, pathOffsets, pathWrite, hup, length_pathOffsets]

/-- **A segment resolves**: what the loop holds afterwards is the stack with the name on it. -/
theorem pathSegment_some (hname : isPathName segment = true) {s : PathState}
    (h : pathSegment absolute outputSize (pathStateOf root stack) segment = some s) :
    s = pathStateOf root (resolveStep [46, 46] absolute stack segment) := by
  rw [resolveStep]
  split
  next hup =>
    subst hup
    split
    next htop =>
      cases stack with
      | nil => cases htop
      | cons name stack =>
        rw [pathSegment_pop (by simpa using htop)] at h
        exact (Option.some.inj h).symm
    next htop =>
      rw [pathSegment_up (by simpa using htop)] at h
      split
      next habsolute =>
        rw [if_pos habsolute] at h
        exact (Option.some.inj h).symm
      next habsolute =>
        rw [if_neg habsolute] at h
        split at h
        next => cases h
        next => exact (Option.some.inj h).symm
  next hup =>
    rw [pathSegment_push hname hup] at h
    split at h
    next => cases h
    next => exact (Option.some.inj h).symm

/-- With room for one more name a segment is taken. -/
theorem pathSegment_room (hname : isPathName segment = true)
    (hroom : (pathSeparated (pathWrite root stack)).length + segment.length < outputSize ∨
      (pathWrite root (resolveStep [46, 46] absolute stack segment)).length < outputSize)
    (hstack : stack.length < credentialValueMaxLength / 2 + 2)
    (hshort : (pathSeparated (pathWrite root stack)).length ≤ 0xffff) :
    pathSegment absolute outputSize (pathStateOf root stack) segment =
      some (pathStateOf root (resolveStep [46, 46] absolute stack segment)) := by
  have hwrite := (le_length_pathSeparated (pathWrite root stack)).1
  rw [resolveStep] at hroom ⊢
  split
  next hup =>
    subst hup
    rw [if_pos rfl] at hroom
    split
    next htop =>
      cases stack with
      | nil => cases htop
      | cons name stack => exact pathSegment_pop (by simpa using htop)
    next htop =>
      rw [pathSegment_up (by simpa using htop)]
      rw [if_neg htop] at hroom
      split
      next => rfl
      next habsolute =>
        rw [if_neg habsolute, pathWrite, List.length_append] at hroom
        rw [if_neg]
        rw [not_or]
        exact ⟨by have : ([46, 46] : List UInt8).length = 2 := rfl
                  omega, by omega⟩
  next hup =>
    rw [if_neg hup, pathWrite, List.length_append] at hroom
    rw [pathSegment_push hname hup, if_neg]
    rw [not_or, not_or]
    exact ⟨by omega, by omega, by omega⟩

/-- **The loop resolves the names.** -/
theorem foldlM_pathSegment_some {segments : List (List UInt8)} {s : PathState}
    (h : segments.foldlM (pathSegment absolute outputSize) (pathStateOf root stack) = some s) :
    s = pathStateOf root
      ((segments.filter isPathName).foldl (resolveStep [46, 46] absolute) stack) := by
  induction segments generalizing stack with
  | nil => exact (Option.some.inj h).symm
  | cons segment segments ih =>
    rw [List.foldlM_cons] at h
    obtain ⟨next, hstep, h⟩ := Option.bind_eq_some_iff.mp h
    cases hname : isPathName segment with
    | false =>
      rw [pathSegment_skip hname] at hstep
      obtain rfl := Option.some.inj hstep
      rw [List.filter_cons_of_neg (by simp [hname])]
      exact ih h
    | true =>
      obtain rfl := pathSegment_some hname hstep
      rw [List.filter_cons_of_pos hname, List.foldl_cons]
      exact ih h

/-- The bytes of segments, each with a separator. -/
def pathSpan (segments : List (List UInt8)) : ℕ := (segments.map (·.length + 1)).sum

@[simp]
theorem pathSpan_cons (segment : List UInt8) (segments : List (List UInt8)) :
    pathSpan (segment :: segments) = segment.length + 1 + pathSpan segments := by
  rw [pathSpan, List.map_cons, List.sum_cons, pathSpan]

/-- A name makes the output, with a separator behind it, longer by no more than itself. -/
theorem length_pathSeparated_resolveStep :
    (pathSeparated (pathWrite root (resolveStep [46, 46] absolute stack segment))).length ≤
      (pathSeparated (pathWrite root stack)).length + segment.length + 1 := by
  have hpush : ∀ name, (pathSeparated (pathWrite root (name :: stack))).length ≤
      (pathSeparated (pathWrite root stack)).length + name.length + 1 := fun name => by
    have := (le_length_pathSeparated (pathWrite root (name :: stack))).2
    rwa [pathWrite, List.length_append] at this
  rw [resolveStep]
  split
  next hup =>
    split
    next htop =>
      cases stack with
      | nil => cases htop
      | cons name stack =>
        have := (le_length_pathSeparated (pathSeparated (pathWrite root stack) ++ name)).1
        rw [List.length_append] at this
        rw [List.tail_cons, pathWrite]
        omega
    next =>
      split
      next => omega
      next => exact hup ▸ hpush _
  next => exact hpush _

/-- **The loop goes through** when the texts are short and what it writes in the end fits. -/
theorem foldlM_pathSegment_room (houtput : credentialValueMaxLength < outputSize)
    {segments : List (List UInt8)}
    (hspan : (pathSeparated (pathWrite root stack)).length + pathSpan segments ≤
      credentialValueMaxLength + 2)
    (hstack : 2 * stack.length + pathSpan segments ≤ credentialValueMaxLength + 1)
    (hfits : (pathWrite root
      ((segments.filter isPathName).foldl (resolveStep [46, 46] absolute) stack)).length <
        outputSize) :
    segments.foldlM (pathSegment absolute outputSize) (pathStateOf root stack) =
      some (pathStateOf root
        ((segments.filter isPathName).foldl (resolveStep [46, 46] absolute) stack)) := by
  induction segments generalizing stack with
  | nil => rfl
  | cons segment segments ih =>
    rw [pathSpan_cons] at hspan hstack
    rw [List.foldlM_cons]
    cases hname : isPathName segment with
    | false =>
      rw [List.filter_cons_of_neg (by simp [hname])] at hfits ⊢
      rw [pathSegment_skip hname]
      exact ih (by omega) (by omega) hfits
    | true =>
      rw [List.filter_cons_of_pos hname, List.foldl_cons] at hfits ⊢
      have hsegment : 1 ≤ segment.length := by
        rw [isPathName, decide_eq_true_eq] at hname
        exact List.length_pos_iff.mpr hname.1
      have hnext := @length_pathSeparated_resolveStep root absolute stack segment
      have hlength : (resolveStep [46, 46] absolute stack segment).length ≤ stack.length + 1 :=
        (resolveStep_sublist stack segment).length_le
      have hroom : (pathSeparated (pathWrite root stack)).length + segment.length < outputSize ∨
          (pathWrite root (resolveStep [46, 46] absolute stack segment)).length < outputSize := by
        -- Only the last segment can be too long, and then the result is.
        cases segments with
        | nil => exact .inr hfits
        | cons last segments =>
          rw [pathSpan_cons] at hspan
          exact .inl (by omega)
      rw [credentialValueMaxLength] at hspan hstack houtput
      rw [pathSegment_room hname hroom (by rw [credentialValueMaxLength]; omega) (by omega)]
      exact ih (by rw [credentialValueMaxLength]; omega) (by rw [credentialValueMaxLength]; omega)
        hfits

end Loop

/-! ## The root and the names of a text -/

/-- Splitting loses no byte but the separators. -/
theorem pathSpan_splitOnP (p : UInt8 → Bool) (text : List UInt8) :
    pathSpan (text.splitOnP p) = text.length + 1 := by
  induction text with
  | nil => rfl
  | cons byte text ih =>
    rw [List.splitOnP_cons_eq_if_modifyHead]
    split
    · rw [pathSpan_cons, ih, List.length_nil, List.length_cons]
      omega
    · cases hparts : text.splitOnP p with
      | nil => exact absurd hparts (List.splitOnP_ne_nil p text)
      | cons part parts =>
        rw [hparts, pathSpan_cons] at ih
        rw [List.modifyHead_cons, pathSpan_cons, List.length_cons, List.length_cons]
        omega

/-- A separator in front of a text adds an empty segment, which is no name. -/
theorem filter_splitOnP_cons {byte : UInt8} (hbyte : isSeparator byte = true) (text : List UInt8) :
    ((byte :: text).splitOnP isSeparator).filter isPathName =
      (text.splitOnP isSeparator).filter isPathName := by
  rw [List.splitOnP_cons_eq_if_modifyHead, if_pos hbyte]
  rfl

theorem filter_splitOnP_dropWhile (text : List UInt8) :
    ((text.dropWhile isSeparator).splitOnP isSeparator).filter isPathName =
      (text.splitOnP isSeparator).filter isPathName := by
  induction text with
  | nil => rfl
  | cons byte text ih =>
    rw [List.dropWhile_cons]
    split
    next hbyte => rw [ih, filter_splitOnP_cons hbyte]
    next => rfl

theorem not_isSeparator_of_isAlpha {byte : UInt8} (h : isAlpha byte = true) :
    isSeparator byte = false := by
  revert h
  refine byte_induction (P := fun byte => isAlpha byte = true → isSeparator byte = false) 256
    (by decide +kernel) byte byte.toNat_lt

/-- The loop starts with the root of the location, and its names. -/
theorem pathRoot_eq (value : List UInt8) :
    ∃ rest, pathRoot value = ((pathRootKind value).text, (pathRootKind value).isAbsolute, rest) ∧
      (rest.splitOnP isSeparator).filter isPathName = pathNames value ∧
      (pathRootKind value).text.length + rest.length ≤ value.length := by
  rcases value with _ | ⟨first, _ | ⟨second, rest⟩⟩
  · exact ⟨[], rfl, rfl, Nat.le_refl _⟩
  · cases hfirst : isSeparator first with
    | false =>
      refine ⟨[first], ?_, ?_, ?_⟩
      · simp [pathRoot, pathRootKind, isDrivePath, hfirst, PathRootKind.text,
          PathRootKind.isAbsolute]
      · simp [pathNames, isDrivePath]
      · simp [pathRootKind, isDrivePath, hfirst, PathRootKind.text]
    | true =>
      refine ⟨[], ?_, ?_, ?_⟩
      · simp [pathRoot, pathRootKind, isDrivePath, hfirst, PathRootKind.text,
          PathRootKind.isAbsolute]
      · simp [pathNames, isDrivePath, filter_splitOnP_cons hfirst]
      · simp [pathRootKind, isDrivePath, hfirst, PathRootKind.text]
  · cases hdrive : isDrivePath (first :: second :: rest) with
    | true =>
      have hparts : isAlpha first = true ∧ second = 58 := by simpa [isDrivePath] using hdrive
      obtain ⟨halpha, rfl⟩ := hparts
      cases hrest : rest.head?.any isSeparator with
      | false =>
        refine ⟨rest, ?_, ?_, ?_⟩
        · simp [pathRoot, pathRootKind, hdrive, halpha, hrest, PathRootKind.text,
            PathRootKind.isAbsolute]
        · simp [pathNames, hdrive]
        · simp [pathRootKind, hdrive, hrest, PathRootKind.text]
          omega
      | true =>
        cases rest with
        | nil => cases hrest
        | cons third rest =>
          have hthird : isSeparator third = true := hrest
          refine ⟨rest, ?_, ?_, ?_⟩
          · simp [pathRoot, pathRootKind, hdrive, halpha, hthird, PathRootKind.text,
              PathRootKind.isAbsolute]
          · simp [pathNames, hdrive, filter_splitOnP_cons hthird]
          · simp [pathRootKind, hdrive, hthird, PathRootKind.text]
            omega
    | false =>
      have hplain : ¬(isAlpha first = true ∧ second = 58) := by
        simpa [isDrivePath] using hdrive
      cases hfirst : isSeparator first with
      | false =>
        refine ⟨first :: second :: rest, ?_, ?_, ?_⟩
        · simp [pathRoot, pathRootKind, hdrive, hplain, hfirst, PathRootKind.text,
            PathRootKind.isAbsolute]
        · simp [pathNames, hdrive]
        · simp [pathRootKind, hdrive, hfirst, PathRootKind.text]
      | true =>
        have hdrop : (rest.dropWhile isSeparator).length ≤ rest.length :=
          (List.dropWhile_suffix isSeparator).length_le
        cases hsecond : isSeparator second with
        | false =>
          refine ⟨second :: rest, ?_, ?_, ?_⟩
          · simp [pathRoot, pathRootKind, hdrive, hplain, hfirst, hsecond, PathRootKind.text,
              PathRootKind.isAbsolute]
          · simp [pathNames, hdrive, filter_splitOnP_cons hfirst]
          · simp [pathRootKind, hdrive, hfirst, hsecond, PathRootKind.text]
            omega
        | true =>
          refine ⟨rest.dropWhile isSeparator, ?_, ?_, ?_⟩
          · simp [pathRoot, pathRootKind, hdrive, hplain, hfirst, hsecond, PathRootKind.text,
              PathRootKind.isAbsolute]
          · simp [pathNames, hdrive, filter_splitOnP_cons hfirst, filter_splitOnP_cons hsecond,
              filter_splitOnP_dropWhile]
          · simp [pathRootKind, hdrive, hfirst, hsecond, PathRootKind.text]
            omega

/-- The letter of a drive is small. -/
theorem isAlpha_toLower {byte : UInt8} (h : isAlpha byte = true) :
    isAlpha (toLower byte) = true := by
  revert h
  refine byte_induction (P := fun byte => isAlpha byte = true → isAlpha (toLower byte) = true) 256
    (by decide +kernel) byte byte.toNat_lt

/-- The buffer is large enough for every root. -/
theorem pathRoot_fits {outputSize : ℕ} (h : credentialValueMaxLength < outputSize)
    (root : PathRootKind) :
    ¬(outputSize = 0 ∨ (root.text.head?.any isAlpha ∧ outputSize < 3)) ∧
      root.text.length < outputSize := by
  rw [credentialValueMaxLength] at h
  have : root.text.length ≤ 3 := by cases root <;> simp [PathRootKind.text]
  omega

/-- **The normal form of a path is the text of its location**, if that fits. -/
theorem identityNormalizePath_eq_some {outputSize : ℕ}
    (houtput : credentialValueMaxLength < outputSize) {value normal : List UInt8}
    (hvalue : value.length ≤ credentialValueMaxLength) :
    identityNormalizePath outputSize value = some normal ↔
      normal = (pathLocation value).write ∧ normal.length < outputSize := by
  obtain ⟨rest, hroot, hnames, hlength⟩ := pathRoot_eq value
  obtain ⟨hguard, hfits⟩ := pathRoot_fits houtput (pathRootKind value)
  have hwrite : (pathLocation value).write = pathWrite (pathRootKind value).text
      (((rest.splitOnP isSeparator).filter isPathName).foldl
        (resolveStep [46, 46] (pathRootKind value).isAbsolute) []) := by
    rw [hnames]
    exact congrArg (pathWrite _) (List.reverse_reverse _)
  rw [identityNormalizePath, hroot]
  dsimp only
  rw [if_neg hguard, Option.map_eq_some_iff, hwrite]
  constructor
  · rintro ⟨s, hs, rfl⟩
    refine ⟨congrArg PathState.output (@foldlM_pathSegment_some _ _ _ [] _ _ hs), ?_⟩
    exact length_foldlM_pathSegment_lt hs hfits
  · rintro ⟨rfl, hshort⟩
    have hsep : (pathSeparated (pathWrite (pathRootKind value).text [])).length ≤
        (pathRootKind value).text.length + 1 := (le_length_pathSeparated _).2
    refine ⟨_, @foldlM_pathSegment_room (pathRootKind value).text _ _
      [] houtput _ ?_ ?_ hshort, rfl⟩
    · rw [pathSpan_splitOnP]
      omega
    · rw [pathSpan_splitOnP, List.length_nil]
      omega

/-! ## Reading the text of a location -/

/-- The letter of a drive. -/
def PathRootKind.letter : PathRootKind → Option UInt8
  | relative | rooted | network => none
  | driveRelative letter | driveAbsolute letter => some letter

/-- The locations that texts denote. -/
structure PathLocation.WellFormed (location : PathLocation) : Prop where
  letter : ∀ letter ∈ location.root.letter, isAlpha letter = true ∧ toLower letter = letter
  isName : ∀ name ∈ location.names, isPathName name = true
  plain : ∀ name ∈ location.names, ∀ byte ∈ name, isSeparator byte = false
  resolved : IsResolved [46, 46] location.root.isAbsolute location.names.reverse

theorem wellFormed_pathLocation (value : List UInt8) : (pathLocation value).WellFormed := by
  have hmem : ∀ name ∈ (pathLocation value).names, name ∈ pathNames value :=
    fun _ h => (resolve_sublist (pathNames value)).subset h
  refine ⟨?_, fun name h => List.of_mem_filter (hmem name h), ?_, ?_⟩
  · intro letter hletter
    change letter ∈ (pathRootKind value).letter at hletter
    have hdrive : isDrivePath value = true ∧ letter = toLower (value.headD 0) := by
      rw [pathRootKind] at hletter
      split at hletter
      next hdrive =>
        split at hletter
        all_goals exact ⟨hdrive, (Option.some.inj hletter).symm⟩
      next =>
        split at hletter
        next =>
          split at hletter
          all_goals cases hletter
        next => cases hletter
    obtain ⟨hdrive, rfl⟩ := hdrive
    rcases value with _ | ⟨first, _ | ⟨second, rest⟩⟩
    · cases hdrive
    · cases hdrive
    · have hparts : isAlpha first = true ∧ second = 58 := by simpa [isDrivePath] using hdrive
      exact ⟨isAlpha_toLower hparts.1, toLower_toLower first⟩
  · exact fun name h => not_of_mem_splitOnP (List.mem_of_mem_filter (hmem name h))
  · rw [show (pathLocation value).names = resolve [46, 46] _ _ from rfl, resolve,
      List.reverse_reverse]
    exact isResolved_resolveStack _

theorem PathLocation.WellFormed.resolve_names {location : PathLocation} (h : location.WellFormed) :
    resolve [46, 46] location.root.isAbsolute location.names = location.names :=
  resolve_of_isResolved h.resolved

/-- Names that stand below an absolute root stand anywhere. -/
theorem isResolved_of_rooted {stack : List (List UInt8)} {rooted : Bool}
    (h : IsResolved [46, 46] true stack) : IsResolved [46, 46] rooted stack := by
  induction h with
  | nil => exact .nil
  | up hrooted _ => cases hrooted
  | name hname _ ih => exact .name hname ih

section Plain

variable {root : List UInt8} {stack : List (List UInt8)}

/-- A separator goes behind a name. -/
theorem pathSeparated_append_plain {output name : List UInt8} (hname : isPathName name = true)
    (hplain : ∀ byte ∈ name, isSeparator byte = false) :
    pathSeparated (output ++ name) = output ++ name ++ [47] := by
  rw [isPathName, decide_eq_true_eq] at hname
  rw [pathSeparated, if_pos]
  refine ⟨by simp [hname.1], fun hlast => ?_⟩
  rw [List.getLast?_append_of_ne_nil _ hname.1] at hlast
  exact absurd (hplain 47 (List.mem_of_getLast? hlast)) (by decide)

theorem pathWrite_cons_cons {name next : List UInt8} (hname : isPathName next = true)
    (hplain : ∀ byte ∈ next, isSeparator byte = false) :
    pathWrite root (name :: next :: stack) = pathWrite root (next :: stack) ++ [47] ++ name :=
  congrArg (· ++ name) (pathSeparated_append_plain hname hplain)

theorem pathWrite_append (hne : stack ≠ []) (hname : ∀ name ∈ stack, isPathName name = true)
    (hplain : ∀ name ∈ stack, ∀ byte ∈ name, isSeparator byte = false) :
    pathWrite root stack = pathSeparated root ++ pathWrite [] stack := by
  induction stack with
  | nil => exact absurd rfl hne
  | cons name stack ih =>
    cases stack with
    | nil => rfl
    | cons next stack =>
      have hnext := List.forall_mem_cons.mp (List.forall_mem_cons.mp hname).2
      have hbytes := List.forall_mem_cons.mp (List.forall_mem_cons.mp hplain).2
      rw [pathWrite_cons_cons hnext.1 hbytes.1, pathWrite_cons_cons hnext.1 hbytes.1,
        ih (List.cons_ne_nil _ _) (List.forall_mem_cons.mpr hnext)
          (List.forall_mem_cons.mpr hbytes)]
      simp only [List.append_assoc]

theorem splitOnP_pathWrite (hne : stack ≠ []) (hname : ∀ name ∈ stack, isPathName name = true)
    (hplain : ∀ name ∈ stack, ∀ byte ∈ name, isSeparator byte = false) :
    (pathWrite [] stack).splitOnP isSeparator = stack.reverse := by
  induction stack with
  | nil => exact absurd rfl hne
  | cons name stack ih =>
    obtain ⟨hfirst, hothers⟩ := List.forall_mem_cons.mp hplain
    cases stack with
    | nil => exact List.splitOnP_eq_singleton hfirst
    | cons next stack =>
      have hnext := List.forall_mem_cons.mp (List.forall_mem_cons.mp hname).2
      have hbytes := List.forall_mem_cons.mp hothers
      rw [pathWrite_cons_cons hnext.1 hbytes.1, List.append_assoc, List.singleton_append,
        List.splitOnP_append_cons _ _ (by decide), List.splitOnP_eq_singleton hfirst,
        ih (List.cons_ne_nil _ _) (List.forall_mem_cons.mpr hnext) hothers,
        @List.reverse_cons _ name]

end Plain

/-- The text of names, the first of which is not empty, starts as that name does. -/
theorem starts_of_splitOnP {text first : List UInt8} {names : List (List UInt8)}
    (h : text.splitOnP isSeparator = first :: names) (hfirst : first ≠ []) :
    text.head?.any isSeparator = false ∧ isDrivePath text = isDrivePath first := by
  rcases text with _ | ⟨letter, _ | ⟨colon, rest⟩⟩
  · cases h
    exact absurd rfl hfirst
  · cases hletter : isSeparator letter with
    | true =>
      rw [List.splitOnP_cons_eq_if_modifyHead, if_pos hletter] at h
      exact absurd (List.cons.inj h).1.symm hfirst
    | false =>
      rw [List.splitOnP_eq_singleton (by simpa using hletter)] at h
      obtain rfl := (List.cons.inj h).1
      exact ⟨hletter, rfl⟩
  · cases hletter : isSeparator letter with
    | true =>
      rw [List.splitOnP_cons_eq_if_modifyHead, if_pos hletter] at h
      exact absurd (List.cons.inj h).1.symm hfirst
    | false =>
      refine ⟨hletter, ?_⟩
      rw [List.splitOnP_cons_eq_if_modifyHead, if_neg (by simp [hletter]),
        List.splitOnP_cons_eq_if_modifyHead] at h
      split at h
      next hcolon =>
        obtain rfl := (List.cons.inj h).1
        have : colon ≠ 58 := by
          rintro rfl
          cases hcolon
        simp [isDrivePath, this]
      next =>
        cases hrest : rest.splitOnP isSeparator with
        | nil => exact absurd hrest (List.splitOnP_ne_nil _ _)
        | cons part parts =>
          rw [hrest] at h
          obtain rfl := (List.cons.inj h).1
          rfl

/-! ### The location of a root and names -/

section Rest

variable {text : List UInt8} {names : List (List UInt8)}
    (hsplit : text.splitOnP isSeparator = names)
  (hname : ∀ name ∈ names, isPathName name = true)
include hsplit hname

theorem pathLocation_of_drive {letter : UInt8} (hletter : isAlpha letter = true) :
    pathLocation (letter :: 58 :: 47 :: text) =
      ⟨.driveAbsolute (toLower letter), resolve [46, 46] true names⟩ := by
  have hnames : pathNames (letter :: 58 :: 47 :: text) = names := by
    rw [pathNames, if_pos (by simpa [isDrivePath] using hletter), List.drop_succ_cons,
      List.drop_succ_cons, List.drop_zero, filter_splitOnP_cons rfl, hsplit]
    exact List.filter_eq_self.mpr hname
  have hroot : pathRootKind (letter :: 58 :: 47 :: text) = .driveAbsolute (toLower letter) := by
    simp [pathRootKind, isDrivePath, hletter, isSeparator]
  rw [pathLocation, hnames, hroot]
  rfl

theorem pathLocation_of_network :
    pathLocation (47 :: 47 :: text) = ⟨.network, resolve [46, 46] true names⟩ := by
  have hnames : pathNames (47 :: 47 :: text) = names := by
    rw [pathNames, if_neg (by simp [isDrivePath, isAlpha]), filter_splitOnP_cons rfl,
      filter_splitOnP_cons rfl, hsplit]
    exact List.filter_eq_self.mpr hname
  have hroot : pathRootKind (47 :: 47 :: text) = .network := by
    simp [pathRootKind, isDrivePath, isAlpha, isSeparator]
  rw [pathLocation, hnames, hroot]
  rfl

theorem pathLocation_of_rooted (hhead : text.head?.any isSeparator = false) :
    pathLocation (47 :: text) = ⟨.rooted, resolve [46, 46] true names⟩ := by
  have hdrive : isDrivePath (47 :: text) = false := by cases text <;> simp [isDrivePath, isAlpha]
  have hnames : pathNames (47 :: text) = names := by
    rw [pathNames, if_neg (by simp [hdrive]), filter_splitOnP_cons rfl, hsplit]
    exact List.filter_eq_self.mpr hname
  have hroot : pathRootKind (47 :: text) = .rooted := by
    simp [pathRootKind, hdrive, hhead, isSeparator]
  rw [pathLocation, hnames, hroot]
  rfl

theorem pathLocation_of_driveRelative {letter : UInt8} (hletter : isAlpha letter = true)
    (hhead : text.head?.any isSeparator = false) :
    pathLocation (letter :: 58 :: text) =
      ⟨.driveRelative (toLower letter), resolve [46, 46] false names⟩ := by
  have hnames : pathNames (letter :: 58 :: text) = names := by
    rw [pathNames, if_pos (by simpa [isDrivePath] using hletter), List.drop_succ_cons,
      List.drop_succ_cons, List.drop_zero, hsplit]
    exact List.filter_eq_self.mpr hname
  have hroot : pathRootKind (letter :: 58 :: text) = .driveRelative (toLower letter) := by
    simp [pathRootKind, isDrivePath, hletter, hhead]
  rw [pathLocation, hnames, hroot]
  rfl

theorem pathLocation_of_relative (hhead : text.head?.any isSeparator = false)
    (hdrive : isDrivePath text = false) :
    pathLocation text = ⟨.relative, resolve [46, 46] false names⟩ := by
  have hnames : pathNames text = names := by
    rw [pathNames, if_neg (by simp [hdrive]), hsplit]
    exact List.filter_eq_self.mpr hname
  have hroot : pathRootKind text = .relative := by simp [pathRootKind, hdrive, hhead]
  rw [pathLocation, hnames, hroot]
  rfl

end Rest

/-! ### What is read back -/

/-- Whether the text of a location denotes it. -/
def PathLocation.readsBack : PathLocation → Bool
  | ⟨.relative, names⟩ => !isDrivePath (names.headD [])
  | ⟨.driveRelative _, names⟩ => names.isEmpty
  | _ => true

/-- Whether the text of a location denotes it, and is the text of no other. -/
def PathLocation.isDistinct : PathLocation → Bool
  | ⟨.relative, names⟩ => !isDrivePath (names.headD [])
  | ⟨.rooted, _⟩ | ⟨.network, _⟩ => true
  | ⟨.driveRelative _, _⟩ => false
  | ⟨.driveAbsolute _, names⟩ => names.isEmpty

/-- Whether a location below the current directory of a drive is too long once a separator follows
the drive. -/
def PathLocation.overflows : PathLocation → Bool
  | ⟨.driveRelative _, names⟩ => decide (credentialValueMaxLength < 2 + pathSpan names)
  | _ => false

theorem PathLocation.WellFormed.write_eq {location : PathLocation} (h : location.WellFormed)
    (hne : location.names ≠ []) :
    ∃ text, location.write = pathSeparated location.root.text ++ text ∧
      text.splitOnP isSeparator = location.names ∧ text.head?.any isSeparator = false ∧
      isDrivePath text = isDrivePath (location.names.headD []) := by
  have hname : ∀ name ∈ location.names.reverse, isPathName name = true := fun name hmem =>
    h.isName name (List.mem_reverse.mp hmem)
  have hplain : ∀ name ∈ location.names.reverse, ∀ byte ∈ name, isSeparator byte = false :=
    fun name hmem => h.plain name (List.mem_reverse.mp hmem)
  have hne' : location.names.reverse ≠ [] := fun h => hne (List.reverse_eq_nil_iff.mp h)
  have hsplit := splitOnP_pathWrite hne' hname hplain
  rw [List.reverse_reverse] at hsplit
  refine ⟨_, pathWrite_append hne' hname hplain, hsplit, ?_⟩
  obtain ⟨first, names, hnames⟩ := List.exists_cons_of_ne_nil hne
  have hfirst := h.isName first (hnames ▸ List.mem_cons_self)
  rw [isPathName, decide_eq_true_eq] at hfirst
  have hstarts := starts_of_splitOnP (hsplit.trans hnames) hfirst.1
  rwa [show location.names.headD [] = first by rw [hnames]; rfl]

/-- **The text of a location denotes it** unless it looks like a drive's. -/
theorem PathLocation.WellFormed.pathLocation_write_iff {location : PathLocation}
    (h : location.WellFormed) : pathLocation location.write = location ↔ location.readsBack := by
  obtain ⟨root, names⟩ := location
  have hresolve := h.resolve_names
  have hletter := h.letter
  dsimp only at hresolve
  by_cases hne : names = []
  · subst hne
    cases root with
    | relative => exact iff_of_true rfl rfl
    | rooted => exact iff_of_true rfl rfl
    | network => exact iff_of_true rfl rfl
    | driveRelative letter =>
      obtain ⟨halpha, hlower⟩ := hletter letter rfl
      refine iff_of_true ?_ rfl
      simp [PathLocation.write, pathWrite, PathRootKind.text, pathLocation, pathRootKind,
        pathNames, isDrivePath, halpha, hlower, isPathName, resolve, resolveStack]
    | driveAbsolute letter =>
      obtain ⟨halpha, hlower⟩ := hletter letter rfl
      refine iff_of_true ?_ rfl
      have hsplit : ([47] : List UInt8).splitOnP isSeparator = [[], []] := rfl
      simp [PathLocation.write, pathWrite, PathRootKind.text, pathLocation, pathRootKind,
        pathNames, isDrivePath, halpha, hlower, isPathName, resolve, resolveStack, hsplit,
        isSeparator]
  · obtain ⟨text, hwrite, hsplit, hhead, hdrive⟩ := h.write_eq hne
    dsimp only at hwrite hsplit hdrive
    rw [hwrite]
    cases root with
    | relative =>
      change pathLocation text = _ ↔ _
      rw [PathLocation.readsBack, ← hdrive]
      cases hdrive : isDrivePath text with
      | false =>
        refine iff_of_true ?_ rfl
        rw [pathLocation_of_relative hsplit h.isName hhead hdrive]
        exact congrArg (PathLocation.mk _) hresolve
      | true =>
        refine iff_of_false (fun h => ?_) (by simp)
        have hroot : pathRootKind text = .relative := congrArg PathLocation.root h
        rw [pathRootKind, if_pos hdrive] at hroot
        split at hroot
        all_goals cases hroot
    | rooted =>
      refine iff_of_true ?_ rfl
      exact (pathLocation_of_rooted hsplit h.isName hhead).trans
        (congrArg (PathLocation.mk _) hresolve)
    | network =>
      refine iff_of_true ?_ rfl
      exact (pathLocation_of_network hsplit h.isName).trans (congrArg (PathLocation.mk _) hresolve)
    | driveRelative letter =>
      obtain ⟨halpha, hlower⟩ := hletter letter rfl
      refine iff_of_false (fun heq => ?_) (by simp [PathLocation.readsBack, hne])
      have := (pathLocation_of_drive hsplit h.isName halpha).symm.trans heq
      cases congrArg PathLocation.root this
    | driveAbsolute letter =>
      obtain ⟨halpha, hlower⟩ := hletter letter rfl
      refine iff_of_true ?_ rfl
      have := pathLocation_of_drive hsplit h.isName halpha
      rw [hlower] at this
      exact this.trans (congrArg (PathLocation.mk _) hresolve)

/-! ## How long the normal form is -/

theorem pathSpan_le_of_sublist {names names' : List (List UInt8)} (h : names.Sublist names') :
    pathSpan names ≤ pathSpan names' :=
  (h.map _).sum_le_sum fun _ _ => Nat.zero_le _

/-- **A normal form is no longer than its text**, or the separator behind a drive is too much. -/
theorem length_write_pathLocation {value : List UInt8}
    (hvalue : value.length ≤ credentialValueMaxLength) :
    (pathLocation value).write.length < credentialValueMaxLength + 1 ↔
      (pathLocation value).overflows = false := by
  obtain ⟨rest, -, hnames, hlength⟩ := pathRoot_eq value
  have hspan : pathSpan (pathLocation value).names ≤ rest.length + 1 := by
    have hsub :=
      (@resolve_sublist _ [46, 46] (pathRootKind value).isAbsolute _ (pathNames value)).trans
       (hnames ▸ List.filter_sublist)
    exact (pathSpan_le_of_sublist hsub).trans_eq (pathSpan_splitOnP _ _)
  have hwf := wellFormed_pathLocation value
  have hroot : (pathLocation value).root.text.length + rest.length ≤ value.length := hlength
  generalize pathLocation value = location at hspan hwf hroot ⊢
  obtain ⟨root, names⟩ := location
  by_cases hne : names = []
  · subst hne
    have hshort : (PathLocation.write ⟨root, []⟩).length < credentialValueMaxLength + 1 := by
      change root.text.length < _
      dsimp only at hroot
      omega
    refine iff_of_true hshort ?_
    cases root with
    | driveRelative letter => simp [PathLocation.overflows, pathSpan, credentialValueMaxLength]
    | _ => rfl
  · obtain ⟨text, hwrite, hsplit, -⟩ := hwf.write_eq hne
    dsimp only at hwrite hsplit hspan hroot
    have hcount := pathSpan_splitOnP isSeparator text
    rw [hsplit] at hcount
    rw [hwrite, List.length_append]
    cases root with
    | driveRelative letter =>
      have : (pathSeparated (PathRootKind.driveRelative letter).text).length = 3 := rfl
      rw [this, PathLocation.overflows, decide_eq_false_iff_not]
      omega
    | relative =>
      have : (pathSeparated PathRootKind.relative.text).length = 0 := rfl
      exact iff_of_true (by omega) rfl
    | rooted =>
      have : (pathSeparated PathRootKind.rooted.text).length =
        PathRootKind.rooted.text.length := rfl
      exact iff_of_true (by omega) rfl
    | network =>
      have : (pathSeparated PathRootKind.network.text).length = PathRootKind.network.text.length :=
        rfl
      exact iff_of_true (by omega) rfl
    | driveAbsolute letter =>
      have : (pathSeparated (PathRootKind.driveAbsolute letter).text).length =
        (PathRootKind.driveAbsolute letter).text.length := rfl
      exact iff_of_true (by omega) rfl

/-! ## When normal forms are names of locations -/

/-- **The normaliser stays within its output.** -/
theorem pathReach_le {outputSize : ℕ} (houtput : credentialValueMaxLength < outputSize)
    (value : List UInt8) : pathReach outputSize value ≤ outputSize := by
  obtain ⟨rest, hroot, -⟩ := pathRoot_eq value
  obtain ⟨hguard, hfits⟩ := pathRoot_fits houtput (pathRootKind value)
  rw [pathReach, hroot]
  dsimp only
  rw [if_neg hguard]
  exact pathReachFrom_le hfits

theorem PathLocation.readsBack_of_isDistinct {location : PathLocation}
    (h : location.isDistinct = true) : location.readsBack = true := by
  obtain ⟨root, names⟩ := location
  cases root with
  | driveRelative letter => cases h
  | relative => exact h
  | _ => rfl

/-- **A distinct location shares its text with no other.** -/
theorem PathLocation.WellFormed.eq_of_write_eq {location other : PathLocation}
    (h : location.WellFormed) (hother : other.WellFormed) (hdistinct : location.isDistinct = true)
    (hwrite : other.write = location.write) : other = location := by
  have hback : pathLocation location.write = location :=
    h.pathLocation_write_iff.mpr (readsBack_of_isDistinct hdistinct)
  cases hother' : other.readsBack with
  | true =>
    have hback' := hother.pathLocation_write_iff.mpr hother'
    rw [hwrite, hback] at hback'
    exact hback'.symm
  | false =>
    -- The other text starts with a drive, so the location is the top of one; names end otherwise.
    have hne : other.names ≠ [] := by
      rintro hnil
      obtain ⟨root, names⟩ := other
      subst hnil
      cases root with
      | _ => cases hother'
    have hdrive : isDrivePath location.write = true := by
      obtain ⟨text, htext, hsplit, hhead, hstarts⟩ := hother.write_eq hne
      rw [← hwrite, htext]
      obtain ⟨root, names⟩ := other
      cases root with
      | relative =>
        have : isDrivePath (names.headD []) = true := by simpa [readsBack] using hother'
        exact hstarts.trans this
      | driveRelative letter =>
        have := (hother.letter letter rfl).1
        simpa [PathRootKind.text, pathSeparated, isDrivePath] using this
      | rooted => cases hother'
      | network => cases hother'
      | driveAbsolute letter => cases hother'
    have hletter : location.root.letter ≠ none := by
      have hroot : pathRootKind location.write = location.root := congrArg PathLocation.root hback
      rw [pathRootKind, if_pos hdrive] at hroot
      rw [← hroot]
      split
      all_goals exact Option.some_ne_none _
    obtain ⟨root, names⟩ := location
    cases root with
    | relative => exact absurd rfl hletter
    | rooted => exact absurd rfl hletter
    | network => exact absurd rfl hletter
    | driveRelative letter => cases hdistinct
    | driveAbsolute letter =>
      obtain rfl : names = [] := List.isEmpty_iff.mp hdistinct
      have hlast : other.write.getLast? = some 47 := by rw [hwrite]; rfl
      obtain ⟨name, stack, hstack⟩ :=
        List.exists_cons_of_ne_nil fun h => hne (List.reverse_eq_nil_iff.mp h)
      have hmem : name ∈ other.names := List.mem_reverse.mp (hstack ▸ List.mem_cons_self)
      have hname := hother.isName name hmem
      rw [isPathName, decide_eq_true_eq] at hname
      rw [write, hstack, pathWrite, List.getLast?_append_of_ne_nil _ hname.1] at hlast
      exact absurd (hother.plain name hmem 47 (List.mem_of_getLast? hlast)) (by decide)

/-- Behind `./` a drive is the name of a file. -/
theorem pathLocation_dot_drive {letter : UInt8} (hletter : isAlpha letter = true) :
    pathLocation [46, 47, letter, 58] = ⟨.relative, [[letter, 58]]⟩ := by
  have hsplit : [46, 47, letter, 58].splitOnP isSeparator = [[46], [letter, 58]] := by
    rw [show [46, 47, letter, 58] = [46] ++ 47 :: [letter, 58] from rfl,
      List.splitOnP_append_cons _ _ (by decide)]
    rw [List.splitOnP_eq_singleton (by simp [isSeparator]), List.splitOnP_eq_singleton]
    · rfl
    · exact List.forall_mem_cons.mpr ⟨not_isSeparator_of_isAlpha hletter, by simp [isSeparator]⟩
  have hnames : pathNames [46, 47, letter, 58] = [[letter, 58]] := by
    rw [pathNames, if_neg (by simp [isDrivePath, isAlpha]), hsplit]
    simp [isPathName]
  have hroot : pathRootKind [46, 47, letter, 58] = .relative := rfl
  rw [pathLocation, hnames, hroot]
  simp [resolve, resolveStack, resolveStep]

/-- A location that shares its text with no other is distinct: the directory of a drive shares it
with a file, and what is below the root of a drive with what is below its directory. -/
theorem PathLocation.WellFormed.isDistinct_of_unique {location : PathLocation}
    (h : location.WellFormed) (hback : location.readsBack = true)
    (hshort : location.write.length ≤ credentialValueMaxLength)
    (hunique : ∀ other, other.length ≤ credentialValueMaxLength →
      (pathLocation other).write = location.write → pathLocation other = location) :
    location.isDistinct = true := by
  obtain ⟨root, names⟩ := location
  cases root with
  | relative => exact hback
  | rooted => rfl
  | network => rfl
  | driveRelative letter =>
    obtain ⟨halpha, -⟩ := h.letter letter rfl
    obtain rfl : names = [] := List.isEmpty_iff.mp hback
    have hother := pathLocation_dot_drive halpha
    have := hunique [46, 47, letter, 58] (by simp [credentialValueMaxLength]) (by rw [hother]; rfl)
    rw [hother] at this
    cases congrArg PathLocation.root this
  | driveAbsolute letter =>
    obtain ⟨halpha, hlower⟩ := h.letter letter rfl
    by_cases hne : names = []
    · exact List.isEmpty_iff.mpr hne
    · obtain ⟨text, hwrite, hsplit, hhead, -⟩ := h.write_eq hne
      have hother := pathLocation_of_driveRelative hsplit h.isName halpha hhead
      have hresolve : resolve [46, 46] false names = names :=
        resolve_of_isResolved (isResolved_of_rooted h.resolved)
      dsimp only at hother
      rw [hlower, hresolve] at hother
      have hrelative : (pathLocation (letter :: 58 :: text)).WellFormed := wellFormed_pathLocation _
      rw [hother] at hrelative
      have hsame : (PathLocation.mk (.driveRelative letter) names).write =
          (PathLocation.mk (.driveAbsolute letter) names).write := by
        have hne' : names.reverse ≠ [] := fun h => hne (List.reverse_eq_nil_iff.mp h)
        have hname : ∀ name ∈ names.reverse, isPathName name = true := fun name hmem =>
          h.isName name (List.mem_reverse.mp hmem)
        have hplain : ∀ name ∈ names.reverse, ∀ byte ∈ name, isSeparator byte = false :=
          fun name hmem => h.plain name (List.mem_reverse.mp hmem)
        exact (@pathWrite_append [letter, 58] _ hne' hname hplain).trans
          (@pathWrite_append [letter, 58, 47] _ hne' hname hplain).symm
      have hlength : (letter :: 58 :: text).length ≤ credentialValueMaxLength := by
        refine le_trans ?_ hshort
        rw [hwrite, List.length_append]
        simp [PathRootKind.text, pathSeparated]
        omega
      have := hunique _ hlength (by rw [hother]; exact hsame)
      rw [hother] at this
      cases congrArg PathLocation.root this

/-- **Normal forms name locations** in distinct locations only: the text of one is its own normal
form and only its texts have it.  Elsewhere the text is a drive's, or the top of a drive's
directory. -/
theorem path_normal_form_iff {value : List UInt8}
    (hvalue : value.length ≤ credentialValueMaxLength) :
    (pathReach (credentialValueMaxLength + 1) value ≤ credentialValueMaxLength + 1 ∧
      ∀ normal, identityNormalizePath (credentialValueMaxLength + 1) value = some normal →
        identityNormalizePath (credentialValueMaxLength + 1) normal = some normal ∧
        ∀ other, other.length ≤ credentialValueMaxLength →
          identityNormalizePath (credentialValueMaxLength + 1) other = some normal →
            pathLocation other = pathLocation value) ↔
      (pathLocation value).isDistinct ∨ (pathLocation value).overflows := by
  have hsize := Nat.lt_succ_self credentialValueMaxLength
  have hwf := wellFormed_pathLocation value
  constructor
  · rintro ⟨-, h⟩
    cases hfits : (pathLocation value).overflows with
    | true => exact .inr rfl
    | false =>
      have hshort := (length_write_pathLocation hvalue).mpr hfits
      obtain ⟨hagain, hunique⟩ :=
        h _ ((identityNormalizePath_eq_some hsize hvalue).mpr ⟨rfl, hshort⟩)
      have hback := hunique _ (Nat.lt_succ_iff.mp hshort) hagain
      rw [hwf.pathLocation_write_iff] at hback
      refine .inl (hwf.isDistinct_of_unique hback (Nat.lt_succ_iff.mp hshort) ?_)
      intro other hother hsame
      exact hunique other hother
        ((identityNormalizePath_eq_some hsize hother).mpr ⟨hsame.symm, hshort⟩)
  · rintro (hdistinct | hover)
    · refine ⟨pathReach_le hsize value, fun normal hnormal => ?_⟩
      obtain ⟨rfl, hshort⟩ := (identityNormalizePath_eq_some hsize hvalue).mp hnormal
      have hback := hwf.pathLocation_write_iff.mpr (PathLocation.readsBack_of_isDistinct hdistinct)
      refine ⟨?_, fun other hother hsame => ?_⟩
      · rw [identityNormalizePath_eq_some hsize (Nat.lt_succ_iff.mp hshort), hback]
        exact ⟨rfl, hshort⟩
      · obtain ⟨hwrite, -⟩ := (identityNormalizePath_eq_some hsize hother).mp hsame
        exact hwf.eq_of_write_eq (wellFormed_pathLocation other) hdistinct hwrite.symm
    · refine ⟨pathReach_le hsize value, fun normal hnormal => ?_⟩
      obtain ⟨rfl, hshort⟩ := (identityNormalizePath_eq_some hsize hvalue).mp hnormal
      rw [length_write_pathLocation hvalue, hover] at hshort
      cases hshort

/-- What is above the root of a rooted path is the root. -/
theorem path_normal_form_iff_rooted :
    pathReach (credentialValueMaxLength + 1) (ascii "/../ssl//ca") ≤ credentialValueMaxLength + 1 ∧
      ∀ normal, identityNormalizePath (credentialValueMaxLength + 1) (ascii "/../ssl//ca") =
          some normal →
        identityNormalizePath (credentialValueMaxLength + 1) normal = some normal ∧
        ∀ other, other.length ≤ credentialValueMaxLength →
          identityNormalizePath (credentialValueMaxLength + 1) other = some normal →
            pathLocation other = pathLocation (ascii "/../ssl//ca") :=
  (path_normal_form_iff (by decide)).mpr (.inl (by decide +kernel))

/-- The directory of a drive and its root have one normal form, and above the directory the normal
form is not its own. -/
theorem drive_directory_merged :
    identityNormalizePath (credentialValueMaxLength + 1) (ascii "c:ca") = some (ascii "c:/ca") ∧
      identityNormalizePath (credentialValueMaxLength + 1) (ascii "C:/ca") = some (ascii "c:/ca") ∧
      pathLocation (ascii "c:ca") = ⟨.driveRelative 99, [ascii "ca"]⟩ ∧
      pathLocation (ascii "C:/ca") = ⟨.driveAbsolute 99, [ascii "ca"]⟩ ∧
      identityNormalizePath (credentialValueMaxLength + 1) (ascii "c:..") = some (ascii "c:/..") ∧
      identityNormalizePath (credentialValueMaxLength + 1) (ascii "c:/..") =
        some (ascii "c:/") := by
  decide +kernel

end Vps
