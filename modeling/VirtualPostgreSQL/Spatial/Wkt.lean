import VirtualPostgreSQL.Machinery.Ascii
import VirtualPostgreSQL.Machinery.Outcome
import VirtualPostgreSQL.Spatial.Basic

/-!
# Spatial/Wkt — the validator of geometries in text

`vps_spatial_validate_text` reads well-known text by recursive descent: `vps_wkt_next` cuts the next
token off, and a function for each production moves the parser over what it stands for and counts
the points.  The tokens of a text do not depend on the parser, so they are cut all at once here; a
function that returns 0 is an error that carries the parser as it was left.

`strtod` is the conversion of the C library: the bits of the number that a text is in full.
-/

namespace Vps

open Machinery

/-! ## Tokens -/

/-- `VpsWktTokenKind` with the bytes of the token; the end is the end of the list. -/
inductive WktToken
  | word (letters : List UInt8)
  | number (text : List UInt8)
  | left | right | comma | semicolon | equal | invalid
  deriving DecidableEq, Repr

/-- A sign, if there is one. -/
def wktSign : List UInt8 → List UInt8 × List UInt8
  | [] => ([], [])
  | byte :: rest => if byte = 43 ∨ byte = 45 then ([byte], rest) else ([], byte :: rest)

/-- A decimal point and the digits behind it, if there is one. -/
def wktFraction : List UInt8 → List UInt8 × List UInt8
  | [] => ([], [])
  | byte :: rest =>
    if byte = 46 then (byte :: rest.takeWhile isDigit, rest.dropWhile isDigit)
      else ([], byte :: rest)

/-- An exponent, if there is one with a digit. -/
def wktExponent : List UInt8 → List UInt8 × List UInt8
  | [] => ([], [])
  | byte :: rest =>
    if (byte = 101 ∨ byte = 69) ∧ (wktSign rest).2.takeWhile isDigit ≠ [] then
      (byte :: ((wktSign rest).1 ++ (wktSign rest).2.takeWhile isDigit),
        (wktSign rest).2.dropWhile isDigit)
    else ([], byte :: rest)

/-- The number at the front of a text, unless it has no digit. -/
def wktNumeral (text : List UInt8) : Option (List UInt8 × List UInt8) :=
  let sign := wktSign text
  let whole := sign.2.takeWhile isDigit
  let fraction := wktFraction (sign.2.dropWhile isDigit)
  if whole = [] ∧ fraction.1.tail = [] then none
  else
    let exponent := wktExponent fraction.2
    some (sign.1 ++ whole ++ fraction.1 ++ exponent.1, exponent.2)

/-- The tokens of one byte. -/
def wktPunctuation (byte : UInt8) : Option WktToken :=
  if byte = 40 then some .left
  else if byte = 41 then some .right
  else if byte = 44 then some .comma
  else if byte = 59 then some .semicolon
  else if byte = 61 then some .equal
  else none

/-- `vps_wkt_next`, at a byte that is no space. -/
def wktNext (byte : UInt8) (rest : List UInt8) : WktToken × List UInt8 :=
  match wktPunctuation byte with
  | some token => (token, rest)
  | none =>
    if isAlpha byte then (.word (byte :: rest.takeWhile isAlpha), rest.dropWhile isAlpha)
    else match wktNumeral (byte :: rest) with
    | some (text, rest) => (.number text, rest)
    | none => (.invalid, rest)

theorem length_dropWhile_le {α : Type*} (p : α → Bool) (l : List α) :
    (l.dropWhile p).length ≤ l.length :=
  (List.dropWhile_suffix p).length_le

/-- A sign takes no more than there is. -/
theorem wktSign_length (text : List UInt8) : (wktSign text).2.length ≤ text.length := by
  unfold wktSign
  split
  · exact le_rfl
  · split
    · exact Nat.le_succ _
    · exact le_rfl

/-- A fraction and what is behind it are as long as the text. -/
theorem wktFraction_length (text : List UInt8) :
    (wktFraction text).1.length + (wktFraction text).2.length = text.length := by
  unfold wktFraction
  split
  · rfl
  · split
    · rename_i byte rest _
      have hsplit :=
        congrArg List.length (List.takeWhile_append_dropWhile (p := isDigit) (l := rest))
      simp only [List.length_append] at hsplit
      simp only [List.length_cons]
      omega
    · simp

/-- An exponent takes no more than there is, either. -/
theorem wktExponent_length (text : List UInt8) : (wktExponent text).2.length ≤ text.length := by
  unfold wktExponent
  split
  · exact le_rfl
  · split
    · have := length_dropWhile_le isDigit (wktSign ‹List UInt8›).2
      have := wktSign_length ‹List UInt8›
      simp only [List.length_cons]
      omega
    · exact le_rfl

/-- A number has a digit, so that the text gets shorter. -/
theorem wktNumeral_length {text number rest : List UInt8}
    (h : wktNumeral text = some (number, rest)) :
    rest.length < text.length := by
  unfold wktNumeral at h
  dsimp only at h
  split at h
  · cases h
  rename_i hdigit
  cases h
  have hsign := wktSign_length text
  have hsplit := congrArg List.length
    (List.takeWhile_append_dropWhile (p := isDigit) (l := (wktSign text).2))
  have hfraction := wktFraction_length ((wktSign text).2.dropWhile isDigit)
  have hexponent := wktExponent_length (wktFraction ((wktSign text).2.dropWhile isDigit)).2
  simp only [List.length_append] at hsplit
  rw [not_and_or] at hdigit
  obtain hwhole | hpoint := hdigit
  · have := List.length_pos_of_ne_nil hwhole
    omega
  · have := List.length_pos_of_ne_nil hpoint
    rw [List.length_tail] at this
    omega

/-- **Every token takes a byte**, so the tokens of a text come to an end. -/
theorem wktNext_length (byte : UInt8) (rest : List UInt8) :
    (wktNext byte rest).2.length < (byte :: rest).length := by
  unfold wktNext
  split
  · exact Nat.lt_succ_self _
  · split
    · exact Nat.lt_succ_of_le (length_dropWhile_le isAlpha rest)
    · split
      · exact wktNumeral_length ‹_›
      · exact Nat.lt_succ_self _

/-- The tokens of a text, each with the length of the text from it on. -/
def wktTokens (text : List UInt8) : List (WktToken × ℕ) :=
  match _hstart : text.dropWhile isSpace with
  | [] => []
  | byte :: rest =>
    ((wktNext byte rest).1, (byte :: rest).length) :: wktTokens (wktNext byte rest).2
termination_by text.length
decreasing_by
  have hnext := wktNext_length byte rest
  have hspace := length_dropWhile_le isSpace text
  rw [_hstart] at hspace
  exact hnext.trans_le hspace

/-! ## The parser -/

/-- `VpsWktParser`; the token it stands at is the first one. -/
structure WktParser where
  tokens : List WktToken
  limits : SpatialLimits
  result : SpatialValidation := {}

namespace WktParser

/-- `vps_wkt_next` -/
def next (parser : WktParser) : WktParser := { parser with tokens := parser.tokens.tail }

/-- A point is counted. -/
def count (parser : WktParser) : WktParser :=
  { parser with result := { parser.result with pointCount := parser.result.pointCount + 1 } }

end WktParser

/-- `vps_ascii_equal` -/
def asciiEqual (text : List UInt8) (word : String) : Bool :=
  text.map toLower == (ascii word).map toLower

/-- `vps_wkt_word` -/
def wktWord (parser : WktParser) (word : String) : Bool :=
  match parser.tokens with
  | .word letters :: _ => asciiEqual letters word
  | _ => false

section Parser

variable (strtod : List UInt8 → Option UInt64)

/-- `vps_wkt_number` -/
def wktNumber (parser : WktParser) : Except WktParser WktParser :=
  match parser.tokens with
  | .number text :: _ =>
    if text.length ≥ 96 then .error parser
    else match strtod text with
    | some bits => if isFiniteDouble bits then .ok parser.next else .error parser
    | none => .error parser
  | _ => .error parser

/-- The numbers of a coordinate. -/
def wktNumbers : ℕ → WktParser → Except WktParser WktParser
  | 0, parser => .ok parser
  | dimensions + 1, parser => wktNumber strtod parser >>= wktNumbers dimensions

/-- `vps_wkt_coordinate` behind its numbers. -/
def wktPoint (parser : WktParser) : Except WktParser WktParser :=
  if parser.result.pointCount = parser.limits.maxPoints then .error parser
  else match parser.tokens with
  | .comma :: _ | .right :: _ => .ok parser.count
  | _ => .error parser.count

/-- `vps_wkt_coordinate` -/
def wktCoordinate (dimensions : ℕ) (parser : WktParser) : Except WktParser WktParser :=
  wktNumbers strtod dimensions parser >>= wktPoint

/-- The loop over the items between two parentheses, at most `turns` of them; it counts them. -/
def wktLoop (item : WktParser → Except WktParser WktParser) :
    ℕ → ℕ → WktParser → Except WktParser (WktParser × ℕ)
  | 0, _, parser => .error parser
  | turns + 1, done, parser => do
    let parser ← item parser
    match parser.tokens with
    | .right :: _ => .ok (parser.next, done + 1)
    | .comma :: _ => wktLoop item turns (done + 1) parser.next
    | _ => .error parser

/-- A list in parentheses.  Each turn takes a comma or the end, so that the bound is never met:
`wktLoop_turns`. -/
def wktList (item : WktParser → Except WktParser WktParser) (parser : WktParser) :
    Except WktParser (WktParser × ℕ) :=
  match parser.tokens with
  | .left :: rest => wktLoop item (rest.length + 1) 0 parser.next
  | _ => .error parser

/-- `vps_wkt_coordinate_list` -/
def wktCoordinateList (dimensions minimum : ℕ) (parser : WktParser) :
    Except WktParser WktParser := do
  let (parser, count) ← wktList (wktCoordinate strtod dimensions) parser
  if count ≥ minimum then .ok parser else .error parser

/-- `vps_wkt_polygon_body` -/
def wktPolygonBody (dimensions : ℕ) (parser : WktParser) : Except WktParser WktParser :=
  (·.1) <$> wktList (wktCoordinateList strtod dimensions 4) parser

/-- `vps_wkt_point_body` -/
def wktPointBody (dimensions : ℕ) (parser : WktParser) : Except WktParser WktParser := do
  let after ← wktCoordinateList strtod dimensions 1 parser
  if after.result.pointCount - parser.result.pointCount = 1 then .ok after else .error after

/-- An item of a `MULTIPOINT`, with parentheses of its own or without. -/
def wktMultiPointItem (dimensions : ℕ) (parser : WktParser) : Except WktParser WktParser :=
  match parser.tokens with
  | .left :: _ => wktPointBody strtod dimensions parser
  | _ => wktCoordinate strtod dimensions parser

/-- `vps_wkt_type` -/
def wktType (parser : WktParser) : SpatialGeometryType :=
  if wktWord parser "POINT" then .point
  else if wktWord parser "LINESTRING" then .lineString
  else if wktWord parser "POLYGON" then .polygon
  else if wktWord parser "MULTIPOINT" then .multiPoint
  else if wktWord parser "MULTILINESTRING" then .multiLineString
  else if wktWord parser "MULTIPOLYGON" then .multiPolygon
  else if wktWord parser "GEOMETRYCOLLECTION" then .geometryCollection
  else .any

/-- The dimensions that a geometry declares, with the parser behind them. -/
def wktDimensions (inherited : ℕ) (parser : WktParser) : ℕ × WktParser :=
  if wktWord parser "Z" then (3, parser.next)
  else if wktWord parser "M" then (3, parser.next)
  else if wktWord parser "ZM" then (4, parser.next)
  else (if inherited = 0 then 2 else inherited, parser)

/-- The type of the outermost geometry is reported. -/
def WktParser.report (parser : WktParser) (top : Bool) (type : SpatialGeometryType)
    (dimensions : ℕ) : WktParser :=
  if top then
    { parser with result := { parser.result with type := type, dimensions := dimensions } }
  else parser

/-- The body of a geometry; `member` reads a geometry one level deeper. -/
def wktBody (type : SpatialGeometryType) (dimensions : ℕ)
    (member : WktParser → Except WktParser WktParser) (parser : WktParser) :
    Except WktParser WktParser :=
  if wktWord parser "EMPTY" then
    .ok { parser.next with result := { parser.result with empty := true } }
  else match type with
  | .point => wktPointBody strtod dimensions parser
  | .lineString => wktCoordinateList strtod dimensions 2 parser
  | .polygon => wktPolygonBody strtod dimensions parser
  | .multiPoint => (·.1) <$> wktList (wktMultiPointItem strtod dimensions) parser
  | .multiLineString => (·.1) <$> wktList (wktCoordinateList strtod dimensions 2) parser
  | .multiPolygon => (·.1) <$> wktList (wktPolygonBody strtod dimensions) parser
  | _ => (·.1) <$> wktList member parser

/-- **`vps_wkt_geometry`**, with the levels that are left below the limit. -/
def wktGeometry : ℕ → Bool → SpatialGeometryType → ℕ → WktParser → Except WktParser WktParser
  | 0, _, _, _, parser => .error parser
  | levels + 1, top, expected, inherited, parser =>
    let type := wktType parser
    if type = .any ∨ (expected ≠ .any ∧ expected ≠ type) then .error parser
    else
      let (dimensions, parser) := wktDimensions inherited parser.next
      wktBody strtod type dimensions (wktGeometry levels false .any dimensions)
        (parser.report top type dimensions)

/-! ### The bound on the turns -/

/-- A production never gives tokens back. -/
def Consumes (production : WktParser → Except WktParser WktParser) : Prop :=
  ∀ parser after, production parser = .ok after → after.tokens.length ≤ parser.tokens.length

variable {strtod}

/-- Going on to the next token leaves fewer. -/
theorem next_length {parser : WktParser} {token : WktToken} {rest : List WktToken}
    (h : parser.tokens = token :: rest) : parser.next.tokens.length < parser.tokens.length := by
  rw [WktParser.next, h]
  exact Nat.lt_succ_self _

/-- Two productions in a row give none back if neither does. -/
theorem consumes_bind {first second : WktParser → Except WktParser WktParser}
    (hfirst : Consumes first) (hsecond : Consumes second) :
    Consumes fun parser => first parser >>= second := by
  intro parser after h
  obtain ⟨middle, hmiddle, h⟩ := ok_of_bind h
  exact (hsecond middle after h).trans (hfirst parser middle hmiddle)

/-- A number gives none back… -/
theorem consumes_wktNumber : Consumes (wktNumber strtod) := by
  intro parser after h
  unfold wktNumber at h
  split at h
  · split_ifs at h
    split at h
    · split_ifs at h
      cases h
      rw [WktParser.next, List.length_tail]
      exact Nat.sub_le _ _
    · cases h
  · cases h

theorem consumes_wktNumbers (dimensions : ℕ) : Consumes (wktNumbers strtod dimensions) := by
  induction dimensions with
  | zero =>
    intro parser after h
    cases h
    exact le_rfl
  | succ dimensions ih => exact consumes_bind consumes_wktNumber ih

/-- …and so a coordinate gives none. -/
theorem consumes_wktCoordinate (dimensions : ℕ) : Consumes (wktCoordinate strtod dimensions) := by
  refine consumes_bind (consumes_wktNumbers dimensions) ?_
  intro parser after h
  unfold wktPoint at h
  split_ifs at h
  split at h <;> cases h <;> exact le_rfl

section Loop

variable {item : WktParser → Except WktParser WktParser} (hitem : Consumes item)

include hitem

/-- A loop takes a token for each of its turns. -/
theorem wktLoop_length {turns done : ℕ} {parser : WktParser} {r : WktParser × ℕ}
    (h : wktLoop item turns done parser = .ok r) : r.1.tokens.length < parser.tokens.length := by
  induction turns generalizing done parser with
  | zero => cases h
  | succ turns ih =>
    obtain ⟨after, hafter, h⟩ := ok_of_bind h
    have hle := hitem parser after hafter
    split at h
    · rename_i rest htokens
      cases h
      exact (next_length htokens).trans_le hle
    · rename_i rest htokens
      exact (ih h).trans ((next_length htokens).trans_le hle)
    · cases h

/-- **The turns suffice**: with more turns than tokens, one more makes no difference. -/
theorem wktLoop_turns {turns done : ℕ} {parser : WktParser} (h : parser.tokens.length < turns) :
    wktLoop item (turns + 1) done parser = wktLoop item turns done parser := by
  induction turns generalizing done parser with
  | zero => cases h
  | succ turns ih =>
    rw [wktLoop, wktLoop]
    cases hafter : item parser with
    | error after => rfl
    | ok after =>
      have hle := hitem parser after hafter
      rw [ok_bind, ok_bind]
      split
      · rfl
      · rename_i rest htokens
        have hnext := next_length htokens
        exact ih (by omega)
      · rfl

/-- A list leaves no more tokens than it found. -/
theorem wktList_length {parser : WktParser} {r : WktParser × ℕ} (h : wktList item parser = .ok r) :
    r.1.tokens.length ≤ parser.tokens.length := by
  unfold wktList at h
  split at h
  · have hlength := wktLoop_length hitem h
    rw [WktParser.next, List.length_tail] at hlength
    omega
  · cases h

/-- Nor does one whose count nobody asks for. -/
theorem consumes_wktList : Consumes fun parser => (·.1) <$> wktList item parser := by
  intro parser after h
  dsimp only at h
  cases hlist : wktList item parser with
  | error e =>
    rw [hlist] at h
    cases h
  | ok r =>
    rw [hlist] at h
    cases h
    exact wktList_length hitem hlist

end Loop

theorem consumes_wktCoordinateList (dimensions minimum : ℕ) :
    Consumes (wktCoordinateList strtod dimensions minimum) := by
  intro parser after h
  obtain ⟨r, hlist, h⟩ := ok_of_bind h
  dsimp only at h
  split_ifs at h
  cases h
  exact wktList_length (consumes_wktCoordinate dimensions) hlist

/-- A polygon gives none back. -/
theorem consumes_wktPolygonBody (dimensions : ℕ) : Consumes (wktPolygonBody strtod dimensions) :=
  consumes_wktList (consumes_wktCoordinateList dimensions 4)

theorem consumes_wktPointBody (dimensions : ℕ) : Consumes (wktPointBody strtod dimensions) := by
  intro parser after h
  obtain ⟨middle, hmiddle, h⟩ := ok_of_bind h
  split_ifs at h
  cases h
  exact consumes_wktCoordinateList dimensions 1 parser _ hmiddle

theorem consumes_wktMultiPointItem (dimensions : ℕ) :
    Consumes (wktMultiPointItem strtod dimensions) := by
  intro parser after h
  unfold wktMultiPointItem at h
  split at h
  · exact consumes_wktPointBody dimensions parser after h
  · exact consumes_wktCoordinate dimensions parser after h

/-- Reading the dimensions never backs up. -/
theorem wktDimensions_length (inherited : ℕ) (parser : WktParser) :
    (wktDimensions inherited parser).2.tokens.length ≤ parser.tokens.length := by
  unfold wktDimensions
  split_ifs <;> simp [WktParser.next]

/-- **A body gives none back** if the geometries in it do not. -/
theorem consumes_wktBody (type : SpatialGeometryType) (dimensions : ℕ)
    {member : WktParser → Except WktParser WktParser} (hmember : Consumes member) :
    Consumes (wktBody strtod type dimensions member) := by
  intro parser after h
  unfold wktBody at h
  split at h
  · cases h
    simp [WktParser.next]
  · cases type with
    | point => exact consumes_wktPointBody dimensions parser after h
    | lineString => exact consumes_wktCoordinateList dimensions 2 parser after h
    | polygon => exact consumes_wktPolygonBody dimensions parser after h
    | multiPoint => exact consumes_wktList (consumes_wktMultiPointItem dimensions) parser after h
    | multiLineString =>
      exact consumes_wktList (consumes_wktCoordinateList dimensions 2) parser after h
    | multiPolygon => exact consumes_wktList (consumes_wktPolygonBody dimensions) parser after h
    | any => exact consumes_wktList hmember parser after h
    | geometryCollection => exact consumes_wktList hmember parser after h

/-- Every item of a loop consumes, a geometry at any depth too. -/
theorem consumes_wktGeometry (levels : ℕ) (top : Bool) (expected : SpatialGeometryType)
    (inherited : ℕ) : Consumes (wktGeometry strtod levels top expected inherited) := by
  induction levels generalizing top expected inherited with
  | zero =>
    intro parser after h
    cases h
  | succ levels ih =>
    intro parser after h
    rw [wktGeometry] at h
    dsimp only at h
    split_ifs at h
    have hbody := consumes_wktBody _ _ (ih false .any _) _ after h
    have hreport : ∀ (parser : WktParser) (type : SpatialGeometryType) (dimensions : ℕ),
        (parser.report top type dimensions).tokens = parser.tokens := by
      intro parser type dimensions
      unfold WktParser.report
      split <;> rfl
    rw [hreport] at hbody
    have hdimensions := wktDimensions_length inherited parser.next
    rw [WktParser.next, List.length_tail] at hdimensions
    exact hbody.trans (hdimensions.trans (Nat.sub_le _ _))

end Parser

/-! ## The validator -/

/-- The offset of the token in front of which `left` tokens are left. -/
def wktOffset (text : List UInt8) (left : ℕ) : ℕ :=
  match (wktTokens text).drop ((wktTokens text).length - left) with
  | [] => text.length
  | (_, suffix) :: _ => text.length - suffix

/-- The digits of an SRID; the error counts the digits that were read. -/
def ewktDigits : List UInt8 → ℕ → ℕ → Except ℕ ℕ
  | [], _, srid => .ok srid
  | digit :: rest, done, srid =>
    if !isDigit digit then .error (done + 1)
    else if srid * 10 + (digit.toNat - 48) > 4294967295 then .error (done + 1)
    else ewktDigits rest (done + 1) (srid * 10 + (digit.toNat - 48))

/-- Where extended text broke off: what was found, the tokens that are left and the bytes read of
the first of them. -/
structure EwktFailure where
  result : SpatialValidation
  left : ℕ
  read : ℕ := 0

/-- The `SRID=` in front of extended text. -/
def ewktSrid : List WktToken → Except EwktFailure (SpatialValidation × List WktToken)
  | .word letters :: rest =>
    if !asciiEqual letters "SRID" then .error ⟨{}, rest.length + 1, 0⟩
    else match rest with
    | .equal :: .number text :: rest =>
      if text.head? = some 45 ∨ text.length > 10 then .error ⟨{}, rest.length + 1, 0⟩
      else match ewktDigits text 0 0 with
      | .error read => .error ⟨{}, rest.length + 1, read⟩
      | .ok srid =>
        let result : SpatialValidation := { srid := srid.toUInt32, hasSrid := true }
        match rest with
        | .semicolon :: rest => .ok (result, rest)
        | rest => .error ⟨result, rest.length, 0⟩
    | .equal :: rest => .error ⟨{}, rest.length, 0⟩
    | rest => .error ⟨{}, rest.length, 0⟩
  | tokens => .error ⟨{}, tokens.length, 0⟩

/-- The tail of `vps_spatial_validate_text` that reports a malformed text. -/
def wktMalformed (limits : SpatialLimits) (result : SpatialValidation) (offset : ℕ) :
    SpatialResult × Option SpatialValidation :=
  (if result.pointCount ≥ limits.maxPoints then .limitExceeded else .malformed,
    some { result with errorOffset := offset })

/-- The geometry of `vps_spatial_validate_text`, behind the SRID. -/
def validateTextGeometry (strtod : List UInt8 → Option UInt64) (text : List UInt8)
    (expectedType : SpatialGeometryType) (parser : WktParser) :
    SpatialResult × Option SpatialValidation :=
  match wktGeometry strtod parser.limits.maxDepth true expectedType 0 parser with
  | .error parser => wktMalformed parser.limits parser.result (wktOffset text parser.tokens.length)
  | .ok parser =>
    if parser.tokens ≠ [] then
      wktMalformed parser.limits parser.result (wktOffset text parser.tokens.length)
    else (.ok, some parser.result)

/-- **`vps_spatial_validate_text`** -/
def validateText (strtod : List UInt8 → Option UInt64) (text : List UInt8) (format : SpatialFormat)
    (expectedType : SpatialGeometryType) (expectedSrid : UInt32) (limits : Option SpatialLimits) :
    SpatialResult × Option SpatialValidation :=
  let limits := spatialLimits limits
  let tokens := (wktTokens text).map (·.1)
  if format ≠ .wkt ∧ format ≠ .ewkt then (.invalidArgument, none)
  else if text.length = 0 ∨ text.length > limits.maxBytes ∨ limits.maxPoints = 0 ∨
      limits.maxDepth = 0 then
    (if text.length > limits.maxBytes then .limitExceeded else .malformed, none)
  else if format = .ewkt then
    match ewktSrid tokens with
    | .error failure =>
      wktMalformed limits failure.result (wktOffset text failure.left + failure.read)
    | .ok (result, tokens) =>
      if expectedSrid ≠ 0 ∧ expectedSrid ≠ result.srid then (.sridMismatch, some result)
      else validateTextGeometry strtod text expectedType { tokens, limits, result }
  else
    let result : SpatialValidation :=
      if expectedSrid ≠ 0 then { srid := expectedSrid, hasSrid := true } else {}
    validateTextGeometry strtod text expectedType { tokens, limits, result }

end Vps
