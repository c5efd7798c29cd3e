import VirtualPostgreSQL.Query.LexAppend

/-!
# Query/Wrapper — the query as a subquery

The texts that are sent for a query source: its statement between a prefix that opens a parenthesis
and a suffix that closes it.  The suffix is bland, so PostgreSQL reads the three parts as they were
meant exactly when the statement ends closed (`wrapper_intact_iff`).  The scanner does not see to
that: it drops a line comment at the end of the text, and the wrapper does not.
-/

namespace Vps

open Machinery

/-! ## The wrappers -/

/-- `VPS_CLIENT_MAX_QUERY_BYTES` -/
def clientMaxQueryBytes : ℕ := 1024 * 1024 + 128

/-- `VPS_CLIENT_MAX_STATEMENT_TIMEOUT_MS` -/
def clientMaxStatementTimeoutMs : ℕ := 86400000

/-- `VPS_VTAB_QUERY_LIMIT` -/
def vtabQueryLimit : ℕ := 1024 * 1024

/-- `vps_query_wrapper_prefix` -/
def queryWrapperPrefix : List UInt8 := ascii "SELECT * FROM ("

/-- `vps_query_wrapper_suffix` -/
def queryWrapperSuffix : List UInt8 := ascii ") AS vps_validation LIMIT 0"

/-- What `vps_build_query_source` writes after the statement. -/
def scanQuerySuffix : List UInt8 := ascii ") AS vps_scan"

/-- `VpsQueryValidationResult` -/
inductive QueryValidationError
  | invalidArgument
  | scanRejected
  | limitExceeded
  deriving DecidableEq, Repr

/-- **`vps_query_validation_init`**: the text of `statement_spec.query`.  The lengths are counted
with the terminators that `sizeof` counts. -/
def queryValidationInit (query : List UInt8) (timeoutMs : ℕ) :
    Except QueryValidationError (List UInt8) :=
  if query = [] ∨ timeoutMs = 0 ∨ clientMaxStatementTimeoutMs < timeoutMs then
    .error .invalidArgument
  else match querySourceScan query with
  | .error _ => .error .scanRejected
  | .ok analysis =>
    let wrapperLimit :=
      queryWrapperPrefix.length + analysis.statementLength + (queryWrapperSuffix.length + 1)
    if wrapperLimit >
        clientMaxQueryBytes + (queryWrapperPrefix.length + 1) + (queryWrapperSuffix.length + 1) then
      .error .limitExceeded
    else .ok (queryWrapperPrefix ++ query.take analysis.statementLength ++ queryWrapperSuffix)

/-- **`vps_build_query_source`** on the text of the argument or of the resolved profile: the scan
query, whose buffer holds its terminator too. -/
def buildQuerySource (query : List UInt8) : Option (List UInt8) :=
  match querySourceScan query with
  | .error _ => none
  | .ok analysis =>
    let text := queryWrapperPrefix ++ query.take analysis.statementLength ++ scanQuerySuffix
    if text.length + 1 ≤ vtabQueryLimit then some text else none

/-- The wrapper texts of a query, each with its suffix. -/
def IsWrapper (query wrapper suffix : List UInt8) : Prop :=
  (∃ timeoutMs, queryValidationInit query timeoutMs = .ok wrapper ∧ suffix = queryWrapperSuffix) ∨
    (buildQuerySource query = some wrapper ∧ suffix = scanQuerySuffix)

theorem bland_queryWrapperSuffix : Bland queryWrapperSuffix := ⟨⟨_, rfl⟩, by decide +kernel⟩

theorem bland_scanQuerySuffix : Bland scanQuerySuffix := ⟨⟨_, rfl⟩, by decide +kernel⟩

/-- A wrapper is the statement between the prefix and its suffix, and its suffix is bland. -/
theorem IsWrapper.eq {query wrapper suffix : List UInt8} {analysis : ScanState}
    (h : IsWrapper query wrapper suffix) (hscan : querySourceScan query = .ok analysis) :
    wrapper = queryWrapperPrefix ++ (query.take analysis.statementLength ++ suffix) ∧
      Bland suffix := by
  obtain ⟨timeoutMs, h, rfl⟩ | ⟨h, rfl⟩ := h
  · unfold queryValidationInit at h
    rw [hscan] at h
    split_ifs at h
    simp only at h
    split_ifs at h
    exact ⟨by simpa using h.symm, bland_queryWrapperSuffix⟩
  · simp only [buildQuerySource, hscan] at h
    split_ifs at h
    exact ⟨by simpa using h.symm, bland_scanQuerySuffix⟩

/-- The prefix ends with a token of its own. -/
theorem pgLex_prefix_append (text : List UInt8) :
    pgLex (queryWrapperPrefix ++ text) = pgLex queryWrapperPrefix ++ pgLex text := by
  rfl

/-! ## Integrity -/

/-- **A wrapper is read as its prefix, the statement and its suffix exactly when the statement ends
neither in a line comment nor inside an unclosed construct.** -/
theorem wrapper_intact_iff {query wrapper suffix : List UInt8} {analysis : ScanState}
    (hscan : querySourceScan query = .ok analysis) (h : IsWrapper query wrapper suffix) :
    pgLex wrapper = pgLex queryWrapperPrefix ++ pgLex (query.take analysis.statementLength) ++
      pgLex suffix ↔ ¬ endsOpen (query.take analysis.statementLength) := by
  obtain ⟨rfl, hsuffix⟩ := h.eq hscan
  rw [pgLex_prefix_append, List.append_assoc, List.append_cancel_left_eq,
    pgLex_append_iff hsuffix]

/-- A query with a comment behind its semicolon. -/
theorem wrapper_intact_terminal :
    ∃ analysis wrapper, querySourceScan (ascii "SELECT 1 AS id; -- terminal") = .ok analysis ∧
      queryValidationInit (ascii "SELECT 1 AS id; -- terminal") 1000 = .ok wrapper ∧
      pgLex wrapper = pgLex queryWrapperPrefix ++
        pgLex ((ascii "SELECT 1 AS id; -- terminal").take analysis.statementLength) ++
        pgLex queryWrapperSuffix := by
  refine ⟨_, _, rfl, rfl, (wrapper_intact_iff rfl (.inl ⟨1000, rfl, rfl⟩)).2 ?_⟩
  decide

/-- **The comment swallows the suffix**: the scanner takes the whole text for the statement, and the
parenthesis of either wrapper is never closed. -/
theorem wrapper_not_intact :
    ∃ analysis validation scan, querySourceScan (ascii "SELECT 1 -- all") = .ok analysis ∧
      queryValidationInit (ascii "SELECT 1 -- all") 1000 = .ok validation ∧
      buildQuerySource (ascii "SELECT 1 -- all") = some scan ∧
      .other 41 ∉ pgLex validation ∧ .other 41 ∉ pgLex scan ∧
      pgLex validation ≠ pgLex queryWrapperPrefix ++
        pgLex ((ascii "SELECT 1 -- all").take analysis.statementLength) ++
        pgLex queryWrapperSuffix ∧
      pgLex scan ≠ pgLex queryWrapperPrefix ++
        pgLex ((ascii "SELECT 1 -- all").take analysis.statementLength) ++
        pgLex scanQuerySuffix := by
  refine ⟨_, _, _, rfl, rfl, rfl, ?_, ?_, ?_, ?_⟩ <;> decide

end Vps
