import Mathlib.Data.List.Basic
import VirtualPostgreSQL.Machinery.Ascii
import VirtualPostgreSQL.Machinery.Decimal
import VirtualPostgreSQL.Machinery.Lists
import VirtualPostgreSQL.Machinery.Trim

/-!
# Identity/Normalize — the normalisers of a connection identity

The values of a connection are text.  Before they are framed, outer blanks go, lists are split at
every comma and put together again, host names are folded to lower case, ports and timeouts are read
and written back as numbers, and paths are folded.  `none` is the failure of a normaliser.
-/

namespace Vps

open Machinery

/-- `VPS_CREDENTIAL_VALUE_MAX_LENGTH`. -/
def credentialValueMaxLength : ℕ := 4096

/-- A space or a tab. -/
def isBlank (byte : UInt8) : Bool := byte == 32 || byte == 9

/-- A control character. -/
def isControl (byte : UInt8) : Bool := byte < 0x20 || byte == 0x7f

/-- `vps_identity_bounded_length`. -/
def identityBoundedLength (value : List UInt8) : Bool :=
  decide (value.length ≤ credentialValueMaxLength) && !value.any isControl

/-! ## Text -/

/-- `vps_identity_copy_normalized`. -/
def identityCopyNormalized (lowerAscii : Bool) (outputSize : ℕ) (value : List UInt8) :
    Option (List UInt8) :=
  let content := trim isBlank value
  if outputSize ≤ content.length then none
  else if content.any isControl then none
  else some (if lowerAscii then content.map toLower else content)

/-! ## Lists -/

/-- The loop that `vps_identity_normalize_list` and `vps_identity_normalize_ports` share: each item
is normalised and written after a comma, as long as there is room. -/
def normalizeItems (normalize : List UInt8 → Option (List UInt8)) (outputSize : ℕ) :
    ℕ → List UInt8 → List (List UInt8) → Option (List UInt8)
  | _, output, [] => some output
  | index, output, item :: items => do
    let item ← normalize item
    let separator := if index = 0 then [] else [44]
    if outputSize ≤ output.length + item.length + separator.length then none
    else normalizeItems normalize outputSize (index + 1) (output ++ separator ++ item) items

/-- Whether a list item is folded to lower case: not if it is a path. -/
def foldsCase (lowerAscii : Bool) (item : List UInt8) : Bool :=
  let content := item.dropWhile isBlank
  lowerAscii && content.head?.any fun first => first != 47 && first != 92

/-- An item of `vps_identity_normalize_list`. -/
def identityNormalizeItem (lowerAscii : Bool) (item : List UInt8) : Option (List UInt8) :=
  identityCopyNormalized (foldsCase lowerAscii item) (credentialValueMaxLength + 1) item

/-- `vps_identity_normalize_list`. -/
def identityNormalizeList (lowerAscii : Bool) (outputSize : ℕ) (value : List UInt8) :
    Option (List UInt8) :=
  normalizeItems (identityNormalizeItem lowerAscii) outputSize 0 [] (value.splitOn 44)

/-! ## Numbers -/

/-- The loop over the digits of a `uint32_t`. -/
def parseUint32Digits : List UInt8 → ℕ → Option ℕ
  | [], parsed => some parsed
  | byte :: rest, parsed =>
    if !isDigit byte then none
    else if parsed > (0xffffffff - (byte.toNat - 48)) / 10 then none
    else parseUint32Digits rest (parsed * 10 + (byte.toNat - 48))

/-- `vps_identity_parse_port`. -/
def identityParsePort (value : List UInt8) : Option ℕ :=
  if value = [] then some 5432
  else (parseUint32Digits value 0).filter fun port => port != 0 && decide (port ≤ 65535)

/-- An item of `vps_identity_normalize_ports`. -/
def identityNormalizePort (item : List UInt8) : Option (List UInt8) :=
  (identityParsePort (trim isBlank item)).map decimal

/-- `vps_identity_normalize_ports`. -/
def identityNormalizePorts (outputSize : ℕ) (value : List UInt8) : Option (List UInt8) :=
  normalizeItems identityNormalizePort outputSize 0 [] (value.splitOn 44)

/-- The number `vps_identity_normalize_timeout` writes: the argument's, or the configured text's. -/
def identityTimeout (argument : Option UInt32) (configValue : Option (List UInt8)) : Option ℕ :=
  match argument, configValue with
  | some value, _ => some value.toNat
  | none, none => some 0
  | none, some text =>
    if !identityBoundedLength text then none
    else
      let content := trim isBlank text
      if content = [] then none else parseUint32Digits content 0

/-- `vps_identity_normalize_timeout`. -/
def identityNormalizeTimeout (argument : Option UInt32) (configValue : Option (List UInt8)) :
    Option (List UInt8) :=
  (identityTimeout argument configValue).map decimal

/-! ## Paths -/

/-- A slash or a backslash. -/
def isSeparator (byte : UInt8) : Bool := byte == 47 || byte == 92

/-- What is written of a path, and where its segments start, the newest first, with whether each
is `..`. -/
structure PathState where
  output : List UInt8
  segments : List (ℕ × Bool)
  deriving DecidableEq

/-- The root of a path, whether it is absolute, and what is left of it. -/
def pathRoot (value : List UInt8) : List UInt8 × Bool × List UInt8 :=
  let absolute := value.head?.any isSeparator
  let network := absolute && value.tail.head?.any isSeparator
  let drive := value.head?.any isAlpha && value.tail.head? == some 58
  if drive then
    let root := [toLower (value.headD 0), 58]
    let rest := value.drop 2
    if rest.head?.any isSeparator then (root ++ [47], true, rest.tail) else (root, false, rest)
  else if absolute then (if network then [47, 47] else [47], true, value.dropWhile isSeparator)
  else ([], false, value)

/-- The output with a separator before the next segment, where one is missing. -/
def pathSeparated (output : List UInt8) : List UInt8 :=
  if output ≠ [] ∧ output.getLast? ≠ some 47 then output ++ [47] else output

/-- One segment of `vps_identity_normalize_path`. -/
def pathSegment (absolute : Bool) (outputSize : ℕ) (s : PathState) (segment : List UInt8) :
    Option PathState :=
  if segment = [] ∨ segment = [46] then some s
  else if segment = [46, 46] then
    match s.segments with
    | (offset, false) :: segments => some ⟨s.output.take offset, segments⟩
    | _ =>
      if absolute then some s
      else
        let output := pathSeparated s.output
        if outputSize ≤ output.length + 2 ∨ 0xffff < output.length then none
        else some ⟨output ++ [46, 46], (output.length, true) :: s.segments⟩
  else
    let output := pathSeparated s.output
    if outputSize ≤ output.length + segment.length ∨
        credentialValueMaxLength / 2 + 2 ≤ s.segments.length ∨ 0xffff < s.output.length then none
    else some ⟨output ++ segment, (s.output.length, false) :: s.segments⟩

/-- `vps_identity_normalize_path`. -/
def identityNormalizePath (outputSize : ℕ) (value : List UInt8) : Option (List UInt8) :=
  let (root, absolute, rest) := pathRoot value
  if outputSize = 0 ∨ (root.head?.any isAlpha ∧ outputSize < 3) then none
  else
    ((rest.splitOnP isSeparator).foldlM (pathSegment absolute outputSize) ⟨root, []⟩).map (·.output)

/-! ## What the normalisers keep -/

/-- **What is copied**: the text without its margins, if it fits and has no control characters. -/
theorem identityCopyNormalized_eq_some_iff {lowerAscii : Bool} {outputSize : ℕ}
    {value output : List UInt8} :
    identityCopyNormalized lowerAscii outputSize value = some output ↔
      (trim isBlank value).length < outputSize ∧
        (∀ byte ∈ trim isBlank value, isControl byte = false) ∧
        output = if lowerAscii then (trim isBlank value).map toLower else trim isBlank value := by
  unfold identityCopyNormalized
  dsimp only
  split
  · rename_i hroom
    exact iff_of_false (by simp) fun h => absurd h.1 (Nat.not_lt.mpr hroom)
  rename_i hroom
  split
  · rename_i hcontrol
    refine iff_of_false (by simp) fun h => ?_
    obtain ⟨byte, hbyte, hbad⟩ := List.any_eq_true.mp hcontrol
    rw [h.2.1 byte hbyte] at hbad
    cases hbad
  · rename_i hcontrol
    rw [Option.some.injEq]
    refine ⟨fun h => ⟨Nat.not_le.mp hroom, ?_, h.symm⟩, fun h => h.2.2.symm⟩
    simpa using hcontrol

theorem identityCopyNormalized_some {lowerAscii : Bool} {outputSize : ℕ}
    {value output : List UInt8}
    (h : identityCopyNormalized lowerAscii outputSize value = some output) :
    output = if lowerAscii then (trim isBlank value).map toLower else trim isBlank value :=
  (identityCopyNormalized_eq_some_iff.mp h).2.2

section Items

variable {normalize : List UInt8 → Option (List UInt8)} {outputSize : ℕ} {value result : List UInt8}

/-- The items behind the first one, each with its comma. -/
theorem normalizeItems_succ_iff {index : ℕ} {output : List UInt8} {items : List (List UInt8)} :
    normalizeItems normalize outputSize (index + 1) output items = some result ↔
      ∃ parts, List.Forall₂ (fun item part => normalize item = some part) items parts ∧
        result = output ++ parts.flatMap (44 :: ·) ∧ (items = [] ∨ result.length < outputSize) := by
  induction items generalizing index output with
  | nil =>
    constructor
    · intro h
      cases h
      exact ⟨[], .nil, by simp, .inl rfl⟩
    · rintro ⟨parts, hparts, rfl, -⟩
      cases hparts
      simp [normalizeItems]
  | cons item items ih =>
    rw [normalizeItems, Option.bind_eq_bind, Option.bind_eq_some_iff]
    constructor
    · rintro ⟨part, hpart, h⟩
      simp only [Nat.add_eq_zero_iff, one_ne_zero, and_false, if_false] at h
      split at h
      · cases h
      · rename_i hroom
        obtain ⟨parts, hparts, rfl, hlength⟩ := ih.mp h
        refine ⟨part :: parts, .cons hpart hparts, by simp, .inr ?_⟩
        obtain rfl | hlength := hlength
        · cases hparts
          simp only [List.length_append, List.length_cons, List.length_nil, List.flatMap_nil]
            at hroom ⊢
          omega
        · exact hlength
    · rintro ⟨_, hparts, rfl, hlength⟩
      obtain _ | @⟨_, part, _, parts, hpart, hparts⟩ := hparts
      have hlength := hlength.resolve_left (List.cons_ne_nil _ _)
      refine ⟨part, hpart, ?_⟩
      simp only [Nat.add_eq_zero_iff, one_ne_zero, and_false, if_false]
      rw [if_neg]
      · exact ih.mpr ⟨parts, hparts, by simp, .inr hlength⟩
      · simp only [List.flatMap_cons, List.length_append, List.length_cons, List.length_nil]
          at hlength ⊢
        omega

/-- **A list is normalised item by item**, where there is room for all of it. -/
theorem normalizeItems_splitOn_iff :
    normalizeItems normalize outputSize 0 [] (value.splitOn 44) = some result ↔
      ∃ parts, List.Forall₂ (fun item part => normalize item = some part) (value.splitOn 44) parts ∧
        result = [44].intercalate parts ∧ result.length < outputSize := by
  cases hitems : value.splitOn 44 with
  | nil => exact absurd hitems (List.splitOn_ne_nil 44 value)
  | cons item items =>
    rw [normalizeItems, Option.bind_eq_bind, Option.bind_eq_some_iff]
    constructor
    · rintro ⟨part, hpart, h⟩
      simp only [if_true] at h
      split at h
      · cases h
      · rename_i hroom
        obtain ⟨parts, hparts, rfl, hlength⟩ := normalizeItems_succ_iff.mp h
        refine ⟨part :: parts, .cons hpart hparts, by rw [intercalate_cons_flatMap]; simp, ?_⟩
        obtain rfl | hlength := hlength
        · cases hparts
          simpa using hroom
        · exact hlength
    · rintro ⟨_, hparts, rfl, hlength⟩
      obtain _ | @⟨_, part, _, parts, hpart, hparts⟩ := hparts
      rw [intercalate_cons_flatMap] at hlength ⊢
      refine ⟨part, hpart, ?_⟩
      simp only [if_true, List.append_nil, List.nil_append]
      rw [if_neg]
      · exact normalizeItems_succ_iff.mpr ⟨parts, hparts, rfl, .inr hlength⟩
      · simp only [List.length_append, List.length_nil] at hlength ⊢
        omega

theorem not_mem_of_normalizeItems (hcomma : ∀ item part, 44 ∉ item → normalize item = some part →
    44 ∉ part) {parts : List (List UInt8)}
    (hparts : List.Forall₂ (fun item part => normalize item = some part) (value.splitOn 44) parts) :
    parts ≠ [] ∧ ∀ part ∈ parts, 44 ∉ part := by
  refine ⟨?_, fun part hpart => ?_⟩
  · rintro rfl
    cases hitems : value.splitOn 44 with
    | nil => exact List.splitOn_ne_nil 44 value hitems
    | cons item items =>
      rw [hitems] at hparts
      cases hparts
  · obtain ⟨item, hitem, hnorm⟩ := forall₂_exists_left hparts hpart
    exact hcomma item part (not_mem_of_mem_splitOn hitem) hnorm

/-- **A normalised list has its items normalised, in order, and stays as it is.** -/
theorem normalizeItems_idempotent
    (hcomma : ∀ item part, 44 ∉ item → normalize item = some part → 44 ∉ part)
    (hsame : ∀ item part, normalize item = some part → normalize part = some part)
    (h : normalizeItems normalize outputSize 0 [] (value.splitOn 44) = some result) :
    normalizeItems normalize outputSize 0 [] (result.splitOn 44) = some result ∧
      List.Forall₂ (fun item part => normalize item = some part) (value.splitOn 44)
        (result.splitOn 44) := by
  obtain ⟨parts, hparts, rfl, hlength⟩ := normalizeItems_splitOn_iff.mp h
  obtain ⟨hne, hnone⟩ := not_mem_of_normalizeItems hcomma hparts
  have hsplit := List.splitOn_intercalate 44 hnone hne
  refine ⟨normalizeItems_splitOn_iff.mpr ⟨parts, ?_, rfl, hlength⟩, by rwa [hsplit]⟩
  rw [hsplit, List.forall₂_same]
  intro part hpart
  obtain ⟨item, -, hnorm⟩ := forall₂_exists_left hparts hpart
  exact hsame item part hnorm

/-- **Lists that are normalised alike have items that are normalised alike.** -/
theorem normalizeItems_inj {value' : List UInt8}
    (hcomma : ∀ item part, 44 ∉ item → normalize item = some part → 44 ∉ part)
    (h : normalizeItems normalize outputSize 0 [] (value.splitOn 44) = some result)
    (h' : normalizeItems normalize outputSize 0 [] (value'.splitOn 44) = some result) :
    List.Forall₂
      (fun item item' => ∃ part, normalize item = some part ∧ normalize item' = some part)
      (value.splitOn 44) (value'.splitOn 44) := by
  obtain ⟨parts, hparts, rfl, -⟩ := normalizeItems_splitOn_iff.mp h
  obtain ⟨parts', hparts', heq, -⟩ := normalizeItems_splitOn_iff.mp h'
  obtain ⟨hne, hnone⟩ := not_mem_of_normalizeItems hcomma hparts
  obtain ⟨hne', hnone'⟩ := not_mem_of_normalizeItems hcomma hparts'
  obtain rfl := intercalate_inj hnone hnone' hne hne' heq
  exact forall₂_meet hparts hparts'

end Items

/-- Only letters have a lower case. -/
theorem eq_of_toLower_eq {byte lower : UInt8} (h : toLower byte = lower) (hlower : lower < 97) :
    byte = lower := by
  unfold toLower at h
  split at h
  · rename_i hupper
    simp only [Bool.and_eq_true, decide_eq_true_eq, UInt8.le_iff_toNat_le] at hupper
    have hsum := congrArg UInt8.toNat h
    rw [UInt8.toNat_add] at hsum
    rw [UInt8.lt_iff_toNat_lt] at hlower
    simp at hupper hsum hlower
    omega
  · exact h

theorem comma_notMem_identityNormalizeItem {lowerAscii : Bool} {item part : List UInt8}
    (hitem : 44 ∉ item) (h : identityNormalizeItem lowerAscii item = some part) : 44 ∉ part := by
  have htrim : 44 ∉ trim isBlank item := fun hmem => hitem (mem_of_mem_trim isBlank hmem)
  rw [identityCopyNormalized_some h]
  split
  · intro hmem
    obtain ⟨byte, hbyte, hlower⟩ := List.mem_map.1 hmem
    exact htrim (eq_of_toLower_eq hlower (by decide) ▸ hbyte)
  · exact htrim

theorem comma_notMem_identityNormalizePort {item part : List UInt8}
    (h : identityNormalizePort item = some part) : 44 ∉ part := by
  obtain ⟨port, -, rfl⟩ := Option.map_eq_some_iff.1 h
  intro hmem
  exact absurd (isDigit_of_mem_decimal hmem) (by decide)

end Vps
