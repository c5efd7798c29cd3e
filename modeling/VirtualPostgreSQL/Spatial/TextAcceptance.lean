import VirtualPostgreSQL.Spatial.Grammar

/-!
# Spatial/TextAcceptance — the texts that are accepted

A text without an expected type or SRID is accepted exactly if it is read as the tokens of a
geometry within the limits: `wkt_acceptance_exact`.  Numbers need nothing between them where the
second cannot go on with the first, so that not every text that is accepted has spaces between its
coordinates: `point_without_space_accepted`.
-/

namespace Vps

open Machinery

/-! ## No token of a geometry is invalid -/

/-- A language without the invalid token. -/
def WktLanguage.Valid (language : WktLanguage) : Prop :=
  ∀ points tokens, language points tokens → ∀ token ∈ tokens, token ≠ .invalid

/-- A token of a list with commas is a comma, or of an item. -/
theorem mem_commaSeparated {items : List (List WktToken)} {token : WktToken}
    (h : token ∈ Geometry.commaSeparated items) :
    token = .comma ∨ ∃ item ∈ items, token ∈ item := by
  induction items with
  | nil => cases h
  | cons item items ih =>
    by_cases hne : items = []
    · subst hne
      exact .inr ⟨item, List.mem_cons_self, h⟩
    · rw [commaSeparated_cons hne, List.mem_append, List.mem_cons] at h
      obtain h | rfl | h := h
      · exact .inr ⟨item, List.mem_cons_self, h⟩
      · exact .inl rfl
      · refine (ih h).imp_right ?_
        rintro ⟨other, hmem, h⟩
        exact ⟨other, List.mem_cons_of_mem _ hmem, h⟩

/-- A list of valid items is made of valid tokens. -/
theorem valid_list {item : WktLanguage} (hitem : item.Valid) (minimum : ℕ) :
    WktLanguage.Valid (IsList item minimum) := by
  rintro points tokens ⟨items, -, -, hitems, -, rfl⟩ token htoken
  rw [parenthesised, List.mem_cons, List.mem_append, List.mem_singleton] at htoken
  rcases htoken with rfl | htoken | rfl
  · exact WktToken.noConfusion
  · obtain rfl | ⟨tokens, htokens, htoken⟩ := mem_commaSeparated htoken
    · exact WktToken.noConfusion
    · obtain ⟨i, hi, rfl⟩ := List.mem_map.mp htokens
      exact hitem _ _ (hitems i hi) token htoken
  · exact WktToken.noConfusion

section Valid

variable {strtod : List UInt8 → Option UInt64}

theorem valid_coordinate (dimensions : ℕ) : WktLanguage.Valid (IsCoordinate strtod dimensions) := by
  rintro points tokens ⟨-, numbers, -, -, rfl⟩ token htoken
  obtain ⟨text, -, rfl⟩ := List.mem_map.mp htoken
  exact WktToken.noConfusion

/-- So is any body. -/
theorem valid_body {dimensions : ℕ} {member : WktLanguage} (hmember : member.Valid)
    (type : SpatialGeometryType) : WktLanguage.Valid (IsBody strtod dimensions member type) := by
  have hcoordinate : WktLanguage.Valid (IsCoordinate strtod dimensions) :=
    valid_coordinate dimensions
  have hpoint : WktLanguage.Valid (IsPoint strtod dimensions) := fun points tokens h =>
    valid_list hcoordinate 1 points tokens h.2
  cases type with
  | any => exact fun _ _ h => absurd h id
  | point => exact hpoint
  | lineString => exact valid_list hcoordinate 2
  | polygon => exact valid_list (valid_list hcoordinate 4) 1
  | multiPoint =>
    exact valid_list (fun points tokens h => h.elim (hpoint points tokens)
      (hcoordinate points tokens)) 1
  | multiLineString => exact valid_list (valid_list hcoordinate 2) 1
  | multiPolygon => exact valid_list (valid_list (valid_list hcoordinate 4) 1) 1
  | geometryCollection => exact valid_list hmember 1

/-- **So is any geometry.** -/
theorem valid_geometry (levels inherited : ℕ) :
    WktLanguage.Valid (IsGeometryText strtod levels inherited) := by
  induction levels generalizing inherited with
  | zero => exact fun _ _ h => absurd h id
  | succ levels ih =>
    rintro points tokens
      ⟨type, letters, dimensions, marks, body, -, -, hmarks, hbody, rfl⟩ token htoken
    rw [List.mem_cons, List.mem_append] at htoken
    rcases htoken with rfl | htoken | htoken
    · exact WktToken.noConfusion
    · obtain ⟨rfl, -⟩ | ⟨mark, rfl, -⟩ := hmarks
      · cases htoken
      · rw [List.mem_singleton.mp htoken]
        exact WktToken.noConfusion
    · obtain ⟨-, word, rfl, -⟩ | hbody := hbody
      · rw [List.mem_singleton.mp htoken]
        exact WktToken.noConfusion
      · exact valid_body (ih dimensions) type points body hbody token htoken

end Valid

/-! ## Acceptance -/

/-- What is malformed is not valid. -/
theorem wktMalformed_ne_ok {limits : SpatialLimits} {result validation : SpatialValidation}
    {offset : ℕ} : wktMalformed limits result offset ≠ (.ok, some validation) := by
  intro h
  have hresult := (Prod.mk.inj h).1
  split at hresult
  all_goals cases hresult

/-- A text is accepted when its geometry is read and nothing is left. -/
theorem validateTextGeometry_ok_iff {strtod : List UInt8 → Option UInt64} {text : List UInt8}
    {expectedType : SpatialGeometryType} {parser : WktParser} {validation : SpatialValidation} :
    validateTextGeometry strtod text expectedType parser = (.ok, some validation) ↔
      ∃ after, wktGeometry strtod parser.limits.maxDepth true expectedType 0 parser = .ok after ∧
        after.tokens = [] ∧ validation = after.result := by
  rw [validateTextGeometry]
  cases wktGeometry strtod parser.limits.maxDepth true expectedType 0 parser with
  | error after =>
    refine iff_of_false wktMalformed_ne_ok ?_
    rintro ⟨middle, h, -⟩
    cases h
  | ok after =>
    dsimp only
    constructor
    · intro h
      split at h
      next => exact absurd h wktMalformed_ne_ok
      next hnil => exact ⟨after, rfl, not_not.mp hnil, (Option.some.inj (Prod.mk.inj h).2).symm⟩
    · rintro ⟨middle, h, hnil, rfl⟩
      obtain rfl := Except.ok.inj h
      rw [if_neg (not_not.mpr hnil)]

theorem IsGeometryText.ne_nil {strtod : List UInt8 → Option UInt64} {levels inherited points : ℕ}
    {tokens : List WktToken} (h : IsGeometryText strtod levels inherited points tokens) :
    tokens ≠ [] := by
  cases levels with
  | zero => exact absurd h id
  | succ levels =>
    obtain ⟨_, _, _, _, _, _, _, _, _, rfl⟩ := h
    exact List.cons_ne_nil _ _

/-- **The texts that are accepted**, each with its points: those that are read as the tokens of a
geometry, within the limits. -/
theorem wkt_acceptance_exact (strtod : List UInt8 → Option UInt64) (text : List UInt8)
    (limits : Option SpatialLimits) (points : ℕ) :
    (∃ validation, validateText strtod text .wkt .any 0 limits = (.ok, some validation) ∧
      validation.pointCount = points) ↔
    text.length ≤ (spatialLimits limits).maxBytes ∧ points ≤ (spatialLimits limits).maxPoints ∧
      ∃ tokens, Lexes text tokens ∧
        IsGeometryText strtod (spatialLimits limits).maxDepth 0 points tokens := by
  obtain ⟨hpoints, hdepth⟩ := spatialLimits_pos limits
  have hparses := @parses_geometry strtod (spatialLimits limits).maxDepth true 0
  let parser : WktParser :=
    { tokens := (wktTokens text).map (·.1), limits := spatialLimits limits, result := {} }
  have hvalidate : text.length ≠ 0 → text.length ≤ (spatialLimits limits).maxBytes →
      validateText strtod text .wkt .any 0 limits =
        validateTextGeometry strtod text .any parser := by
    intro hne hbytes
    rw [validateText]
    dsimp only
    rw [if_neg (by simp), if_neg (by omega), if_neg (by simp), if_neg (by simp)]
  constructor
  · rintro ⟨validation, hok, rfl⟩
    have hsize : text.length ≠ 0 ∧ text.length ≤ (spatialLimits limits).maxBytes := by
      rw [← not_lt, ne_eq, ← not_or]
      intro hsize
      rw [validateText] at hok
      dsimp only at hok
      rw [if_neg (by simp), if_pos (by omega)] at hok
      cases (Prod.mk.inj hok).2
    rw [hvalidate hsize.1 hsize.2, validateTextGeometry_ok_iff] at hok
    obtain ⟨after, hafter, hnil, rfl⟩ := hok
    obtain ⟨points, tokens, hlanguage, htokens, hmoved⟩ :=
      hparses.sound parser after (Nat.zero_le _) hafter
    rw [hnil, List.append_nil] at htokens
    have hcount : after.result.pointCount = points := hmoved.count.trans (Nat.zero_add points)
    have hroom := hmoved.room
    rw [hmoved.limits] at hroom
    refine ⟨hsize.2, hroom, tokens,
      (wktTokens_eq_iff (valid_geometry _ _ points tokens hlanguage)).mp htokens, ?_⟩
    rwa [hcount]
  · rintro ⟨hbytes, hroom, tokens, hlexes, hgeometry⟩
    have htokens := wktTokens_of_lexes hlexes
    have hne : text.length ≠ 0 := by
      intro hnil
      obtain rfl := List.length_eq_zero_iff.mp hnil
      have hempty : (wktTokens []).map (·.1) = [] := by simp [wktTokens]
      exact hgeometry.ne_nil (htokens.symm.trans hempty)
    obtain ⟨after, hafter, hfollow, hmoved⟩ := hparses.complete parser points tokens [] hgeometry
      (by rw [List.append_nil]; exact htokens) trivial ((Nat.zero_add points).trans_le hroom)
    refine ⟨after.result, ?_, hmoved.count.trans (Nat.zero_add points)⟩
    rw [hvalidate hne hbytes, validateTextGeometry_ok_iff]
    exact ⟨after, hafter, hfollow, rfl⟩

/-! ## Coordinates without a space -/

/-- Two numbers with a break behind each have a space between them. -/
theorem Spells.space_between {text first second : List UInt8} {before tokens : List WktToken}
    (h : Spells text (before ++ .number first :: .number second :: tokens)) :
    ∃ byte ∈ text, isSpace byte := by
  induction before generalizing text with
  | nil =>
    cases h with
    | @cons spaces number rest _ _ hspaces htext hends hrest =>
      have hbreak : EndsToken rest := by
        exact hends.resolve_left (not_exists.mpr fun byte => (wktPunctuation_ne byte).2 first)
      cases hrest with
      | @cons between other others _ _ hbetween hother hends' hrest' =>
        cases between with
        | cons byte between =>
          exact ⟨byte, by simp, hbetween byte List.mem_cons_self⟩
        | nil =>
          cases hother with
          | number _ hnumeral =>
            obtain ⟨byte, tail, rfl, hnone, -, hspace⟩ := head_numeral hnumeral
            have := hbreak byte rfl
            rw [isBreak, hnone] at this
            simp [hspace] at this
          | punctuation byte _ hbyte => exact absurd hbyte ((wktPunctuation_ne byte).2 second)
  | cons token before ih =>
    cases h with
    | cons hspaces htext hends hrest =>
      obtain ⟨byte, hmem, hbyte⟩ := ih hrest
      exact ⟨byte, List.mem_append_right _ hmem, hbyte⟩

/-- `strtod` on the numbers of the example. -/
def strtodSample (text : List UInt8) : Option UInt64 :=
  if text = ascii "1" then some 0x3ff0000000000000
  else if text = ascii "-2" then some 0xc000000000000000
  else none

/-- A point whose coordinates have nothing between them is accepted; with a space between the
coordinates of a point there is no such text. -/
theorem point_without_space_accepted :
    (validateText strtodSample (ascii "POINT(1-2)") .wkt .any 0 none).1 = .ok ∧
      ¬∃ tokens, Spells (ascii "POINT(1-2)") tokens := by
  have htokens : (wktTokens (ascii "POINT(1-2)")).map (·.1) =
      [.word (ascii "POINT"), .left] ++ .number (ascii "1") :: .number
        (ascii "-2") :: [.right] := by
    decide +kernel
  constructor
  · rw [validateText]
    dsimp only
    rw [htokens]
    rfl
  · rintro ⟨tokens, htext⟩
    obtain rfl := (wktTokens_of_spells htext).symm.trans htokens
    obtain ⟨byte, hmem, hbyte⟩ := htext.space_between
    have hnone : ∀ byte ∈ ascii "POINT(1-2)", isSpace byte = false := by decide +kernel
    rw [hnone byte hmem] at hbyte
    cases hbyte

end Vps
