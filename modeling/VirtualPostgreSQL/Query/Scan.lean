import Mathlib.Data.List.Basic
import VirtualPostgreSQL.Machinery.Ascii
import VirtualPostgreSQL.Query.Lexer

/-!
# Query/Scan — the scanner of query sources

`vps_query_source_scan` decides whether a query text may be wrapped into a scan.  Each round of its
loop finds the lexeme at the current offset — which does not depend on the state — and then acts on
it: `queryLexeme` and `scanLexeme`, in the order of the source's tests.

The loop is a recursion over the text with the number of bytes that the last lexeme still covers.
-/

namespace Vps

open Machinery

/-! ## The data model -/

/-- `VPS_QUERY_SOURCE_MAX_BYTES`. -/
def querySourceMaxBytes : ℕ := 1024 * 1024

/-- `VPS_QUERY_SOURCE_MAX_NESTING`. -/
def querySourceMaxNesting : ℕ := 256

/-- `VPS_QUERY_SOURCE_MAX_TOKENS`. -/
def querySourceMaxTokens : ℕ := 262144

/-- `VpsQuerySourceResult` (failures). -/
inductive QuerySourceError
  | invalidArgument | limitExceeded | invalidUtf8 | containsNul | unterminated | multipleStatements
  | unsupportedRoot | forbiddenCommand | dataModifyingCte | unresolvedParameter | lockingSelect
  | selectInto | unbalanced
  deriving DecidableEq, Repr

/-- `VpsQuerySourceRoot`. -/
inductive QuerySourceRoot
  | none | select | withSelect
  deriving DecidableEq, Repr

/-- `VpsQueryWord`, with the bytes it spans. -/
structure QueryWord where
  offset : ℕ
  text : List UInt8
  deriving DecidableEq

/-- The variables of the loop, with the fields of `VpsQuerySourceAnalysis` it fills. -/
structure ScanState where
  offset : ℕ
  depth : ℕ
  previous : QueryWord
  previousPrevious : QueryWord
  sawWord : Bool
  sawSelect : Bool
  terminal : Bool
  root : QuerySourceRoot
  tokenCount : ℕ
  maximumNesting : ℕ
  statementLength : ℕ
  normalizedHash : UInt64
  deriving DecidableEq

/-! ## Lexemes -/

/-- What stands at an offset, with the number of bytes it covers. -/
inductive QueryLexeme
  | nul
  | invalidUtf8
  /-- A character outside ASCII. -/
  | wide (length : ℕ)
  | space
  | comment (length : ℕ)
  /-- A comment nested too deep, found that many bytes on. -/
  | deepComment (distance : ℕ)
  /-- A comment that runs to the end of the text. -/
  | openComment (length : ℕ)
  | semicolon
  | quoted (length : ℕ)
  | openQuoted
  | parameter
  | dollarQuoted (delimiter length : ℕ)
  | openDollar
  | word (length : ℕ)
  | other
  deriving DecidableEq, Repr

/-- The number of bytes a lexeme covers. -/
def QueryLexeme.length : QueryLexeme → ℕ
  | .wide n | .comment n | .openComment n | .quoted n | .dollarQuoted _ n | .word n => n
  | _ => 1

/-- `vps_query_is_identifier_start`. -/
def queryIsIdentifierStart (byte : UInt8) : Bool := byte == 95 || 128 ≤ byte || isAlpha byte

/-- `vps_query_is_identifier_continue`. -/
def queryIsIdentifierContinue (byte : UInt8) : Bool :=
  byte == 95 || byte == 36 || 128 ≤ byte || isAlnum byte

/-- `vps_query_utf8_sequence_length`. -/
def queryUtf8SequenceLength (bytes : List UInt8) : Option ℕ :=
  match bytes with
  | [] => none
  | first :: rest =>
    if first < 0x80 then some 1
    else
      let shape : Option (ℕ × ℕ) :=
        if 0xc2 ≤ first && first ≤ 0xdf then some (2, (first &&& 0x1f).toNat)
        else if 0xe0 ≤ first && first ≤ 0xef then some (3, (first &&& 0x0f).toNat)
        else if 0xf0 ≤ first && first ≤ 0xf4 then some (4, (first &&& 0x07).toNat)
        else none
      shape.bind fun (length, high) =>
        let tail := rest.take (length - 1)
        if tail.length < length - 1 || !tail.all isUtf8Tail then none
        else
          let codepoint := tail.foldl (fun code byte => code * 64 + (byte &&& 0x3f).toNat) high
          if (length = 3 && codepoint < 0x800) || (length = 4 && codepoint < 0x10000) ||
              codepoint > 0x10ffff || (0xd800 ≤ codepoint && codepoint ≤ 0xdfff) then none
          else some length

/-- The loop over a block comment, with the bytes read so far. -/
def scanComment : ℕ → ℕ → List UInt8 → QueryLexeme
  | 0, consumed, _ => .comment consumed
  | _ + 1, consumed, [] => .openComment consumed
  | _ + 1, consumed, [_] => .openComment (consumed + 1)
  | depth + 1, consumed, byte :: next :: rest =>
    if byte = 47 ∧ next = 42 then
      if depth + 2 > querySourceMaxNesting then .deepComment consumed
      else scanComment (depth + 2) (consumed + 2) rest
    else if byte = 42 ∧ next = 47 then scanComment depth (consumed + 2) rest
    else scanComment (depth + 1) (consumed + 1) (next :: rest)

/-- The loop over a quoted lexeme: how many bytes after the opening quote it reads. -/
def scanQuotedLength (quote : UInt8) : List UInt8 → ℕ
  | [] => 0
  | [_] => 1
  | byte :: next :: rest =>
    if byte = quote then
      if next = quote then scanQuotedLength quote rest + 2 else 1
    else if quote == 39 && byte == 92 then scanQuotedLength quote rest + 2
    else scanQuotedLength quote (next :: rest) + 1

/-- A quoted lexeme; it counts as terminated if the last byte read is the quote. -/
def scanQuoted (quote : UInt8) (rest : List UInt8) : QueryLexeme :=
  let length := scanQuotedLength quote rest + 1
  if (quote :: rest)[length - 1]? = some quote then .quoted length else .openQuoted

/-- `vps_query_dollar_delimiter`: the bytes a tag may have. -/
def queryIsTagByte (byte : UInt8) : Bool := byte == 95 || isAlnum byte

/-- The branch of the dollar sign; `none` where it falls through. -/
def scanDollar (rest : List UInt8) : Option QueryLexeme :=
  if rest.head?.any isDigit then some .parameter
  else (dollarDelimiter queryIsTagByte rest).map fun delimiter =>
    match findDelimiter delimiter (rest.drop (delimiter.length - 1)) with
    | none => .openDollar
    | some n => .dollarQuoted delimiter.length (2 * delimiter.length + n)

/-- **The lexeme at an offset.** -/
def queryLexeme (byte : UInt8) (rest : List UInt8) : QueryLexeme :=
  if byte = 0 then .nul
  else match queryUtf8SequenceLength (byte :: rest) with
  | none => .invalidUtf8
  | some sequenceLength =>
    if 128 ≤ byte then .wide sequenceLength
    else if isSpace byte then .space
    else if byte = 45 ∧ rest.head? = some 45 then
      .comment ((rest.tail.takeWhile (!isNewline ·)).length + 2)
    else if byte = 47 ∧ rest.head? = some 42 then scanComment 1 2 rest.tail
    else if byte = 59 then .semicolon
    else if byte = 39 ∨ byte = 34 then scanQuoted byte rest
    else match if byte = 36 then scanDollar rest else none with
    | some lexeme => lexeme
    | none =>
      if queryIsIdentifierStart byte then
        .word ((rest.takeWhile queryIsIdentifierContinue).length + 1)
      else .other

/-! ## Words -/

/-- `vps_query_word_equal`. -/
def queryWordEqual (word : List UInt8) (expected : List UInt8) : Bool :=
  word.map toLower == expected

/-- The words `vps_query_forbidden_word` looks for. -/
def queryForbiddenWords : List (List UInt8) :=
  ["insert", "update", "delete", "merge", "copy", "call", "do", "alter", "create", "drop",
    "truncate", "grant", "revoke", "vacuum", "cluster", "reindex", "refresh", "lock", "listen",
    "unlisten", "notify", "set", "reset", "discard", "prepare", "execute", "deallocate", "begin",
    "start", "commit", "rollback", "savepoint", "release"].map ascii

/-- `vps_query_forbidden_word`. -/
def queryForbiddenWord (word : List UInt8) : Bool :=
  queryForbiddenWords.any (queryWordEqual word)

/-! ## The hash -/

/-- `vps_query_hash_byte`. -/
def queryHashByte (hash : UInt64) (byte : UInt8) : UInt64 :=
  (hash ^^^ byte.toUInt64) * 1099511628211

/-- A run of bytes. -/
def queryHashBytes (hash : UInt64) (bytes : List UInt8) : UInt64 := bytes.foldl queryHashByte hash

/-- The bytes of a quoted lexeme that the hash takes in, after the opening quote. -/
def quotedHashed (quote : UInt8) : List UInt8 → List UInt8
  | [] => []
  | [byte] => if byte = quote then [] else [byte]
  | byte :: next :: rest =>
    if byte = quote then if next = quote then quote :: quotedHashed quote rest else []
    else if quote == 39 && byte == 92 then next :: quotedHashed quote rest
    else byte :: quotedHashed quote (next :: rest)

/-! ## Acting on a lexeme -/

/-- A failure with its offset. -/
abbrev ScanResult := Except (QuerySourceError × ℕ)

/-- The first word decides the root; a later SELECT is remembered. -/
def scanRoot (s : ScanState) (word : QueryWord) : ScanResult ScanState :=
  let isSelect := queryWordEqual word.text (ascii "select")
  if !s.sawWord then
    if isSelect then .ok { s with sawWord := true, root := .select, sawSelect := true }
    else if queryWordEqual word.text (ascii "with") then
      .ok { s with sawWord := true, root := .withSelect }
    else .error (.unsupportedRoot, word.offset)
  else if isSelect then .ok { s with sawSelect := true }
  else .ok s

/-- `FOR UPDATE`, `FOR SHARE`, `FOR KEY UPDATE`, `FOR KEY SHARE`. -/
def scanLocking (s : ScanState) (word : List UInt8) : Bool :=
  let locks := queryWordEqual word (ascii "update") || queryWordEqual word (ascii "share")
  (queryWordEqual s.previous.text (ascii "for") && locks) ||
    (queryWordEqual s.previousPrevious.text (ascii "for") &&
      queryWordEqual s.previous.text (ascii "key") && locks)

/-- `FOR NO KEY`. -/
def scanLockingNoKey (s : ScanState) (word : List UInt8) : Bool :=
  queryWordEqual s.previousPrevious.text (ascii "for") &&
    queryWordEqual s.previous.text (ascii "no") && queryWordEqual word (ascii "key")

/-- What a word must not be where it stands. -/
def scanWordAllowed (s : ScanState) (word : QueryWord) : ScanResult ScanState :=
  if scanLocking s word.text then .error (.lockingSelect, s.previous.offset)
  else if queryForbiddenWord word.text then
    .error (if s.root = .withSelect && !s.sawSelect then .dataModifyingCte else .forbiddenCommand,
      word.offset)
  else if s.sawSelect && queryWordEqual word.text (ascii "into") then
    .error (.selectInto, word.offset)
  else if scanLockingNoKey s word.text then .error (.lockingSelect, s.previousPrevious.offset)
  else .ok { s with previousPrevious := s.previous, previous := word }

/-- A word. -/
def scanWord (s : ScanState) (text : List UInt8) : ScanResult ScanState :=
  let word : QueryWord := ⟨s.offset, text⟩
  if s.tokenCount + 1 > querySourceMaxTokens then .error (.limitExceeded, s.offset)
  else do
    let s ← scanRoot { s with
      offset := s.offset + text.length
      tokenCount := s.tokenCount + 1
      normalizedHash := queryHashByte (queryHashBytes s.normalizedHash (text.map toLower)) 0 } word
    scanWordAllowed s word

/-- Parentheses. -/
def scanNesting (s : ScanState) (byte : UInt8) : ScanResult ScanState :=
  if byte = 40 then
    if s.depth + 1 > querySourceMaxNesting then .error (.limitExceeded, s.offset)
    else .ok { s with
      depth := s.depth + 1
      maximumNesting := max s.maximumNesting (s.depth + 1) }
  else if byte = 41 then
    if s.depth = 0 then .error (.unbalanced, s.offset) else .ok { s with depth := s.depth - 1 }
  else .ok s

/-- Any other byte. -/
def scanOther (s : ScanState) (byte : UInt8) : ScanResult ScanState := do
  let s ← scanNesting s byte
  if s.tokenCount + 1 > querySourceMaxTokens then throw (.limitExceeded, s.offset)
  return { s with
    offset := s.offset + 1
    tokenCount := s.tokenCount + 1
    normalizedHash := queryHashByte s.normalizedHash byte }

/-- The lexemes that count: after the terminal semicolon there may be none. -/
def scanToken (total : ℕ) (s : ScanState) (lexeme : QueryLexeme) (chunk : List UInt8) :
    ScanResult ScanState :=
  match lexeme with
  | .semicolon =>
    .ok { s with statementLength := s.offset, terminal := true, offset := s.offset + 1 }
  | .quoted n =>
    let quote := chunk.headD 0
    .ok { s with
      offset := s.offset + n
      tokenCount := s.tokenCount + 1
      normalizedHash := queryHashBytes s.normalizedHash (quote :: quotedHashed quote chunk.tail) }
  | .openQuoted => .error (.unterminated, total)
  | .parameter => .error (.unresolvedParameter, s.offset)
  | .dollarQuoted delimiter n =>
    .ok { s with
      offset := s.offset + n
      tokenCount := s.tokenCount + 1
      normalizedHash := queryHashBytes s.normalizedHash
        (36 :: (chunk.drop delimiter).take (n - 2 * delimiter)) }
  | .openDollar => .error (.unterminated, s.offset)
  | .word _ => scanWord s chunk
  | _ => scanOther s (chunk.headD 0)

/-- **One round of the loop**: the lexeme and the bytes it covers. -/
def scanLexeme (total : ℕ) (s : ScanState) (lexeme : QueryLexeme) (chunk : List UInt8) :
    ScanResult ScanState :=
  match lexeme with
  | .nul => .error (.containsNul, s.offset)
  | .invalidUtf8 => .error (.invalidUtf8, s.offset)
  | .wide n =>
    .ok { s with offset := s.offset + n, normalizedHash := queryHashBytes s.normalizedHash chunk }
  | .space => .ok { s with offset := s.offset + 1 }
  | .comment n => .ok { s with offset := s.offset + n }
  | .deepComment distance => .error (.limitExceeded, s.offset + distance)
  | .openComment n => .error (.unterminated, s.offset + n)
  | lexeme =>
    if s.terminal then .error (.multipleStatements, s.offset) else scanToken total s lexeme chunk

/-! ## The scan -/

/-- The tests after the loop. -/
def scanFinish (total : ℕ) (s : ScanState) : ScanResult ScanState :=
  if !s.sawWord || !s.sawSelect then .error (.unsupportedRoot, total)
  else if s.depth ≠ 0 then .error (.unbalanced, total)
  else .ok s

/-- The loop, after the given number of bytes that the last lexeme still covers. -/
def scanFrom (total : ℕ) : List UInt8 → ℕ → ScanState → ScanResult ScanState
  | [], _, s => scanFinish total s
  | _ :: rest, skip + 1, s => scanFrom total rest skip s
  | byte :: rest, 0, s =>
    let lexeme := queryLexeme byte rest
    match scanLexeme total s lexeme ((byte :: rest).take lexeme.length) with
    | .error failure => .error failure
    | .ok s => scanFrom total rest (lexeme.length - 1) s

/-- The state before the loop. -/
def scanInit (total : ℕ) : ScanState where
  offset := 0
  depth := 0
  previous := ⟨0, []⟩
  previousPrevious := ⟨0, []⟩
  sawWord := false
  sawSelect := false
  terminal := false
  root := .none
  tokenCount := 0
  maximumNesting := 0
  statementLength := total
  normalizedHash := 1469598103934665603

/-- **`vps_query_source_scan`**: the final state, whose fields are those of the analysis
(`has_terminal_semicolon` is `terminal`). -/
def querySourceScan (query : List UInt8) : ScanResult ScanState :=
  if query.length = 0 then .error (.invalidArgument, 0)
  else if query.length > querySourceMaxBytes then .error (.limitExceeded, query.length)
  else scanFrom query.length query 0 (scanInit query.length)

end Vps
