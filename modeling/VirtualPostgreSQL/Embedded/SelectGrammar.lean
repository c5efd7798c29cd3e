import VirtualPostgreSQL.Machinery.Decimal

/-!
# Embedded/SelectGrammar — SQLite's reading of a plain SELECT

The part of SQLite's grammar that a scan of one table is written in: a list of columns, an index
hint, a conjunction of comparisons with parameters and NULL tests, an ORDER BY, LIMIT and OFFSET.
The tokenizer is a machine that goes byte by byte and keeps the token it is in; the parser goes down
the list of tokens.  Keywords are of any case.
-/

namespace Vps

open Machinery

/-! ## Tokens -/

/-- The comparisons. -/
inductive SelectComparison
  | eq | ne | lt | le | gt | ge
  deriving DecidableEq, Repr

/-- The tokens; a word is a keyword or an identifier. -/
inductive SelectToken
  | word (bytes : List UInt8)
  | integer (digits : List UInt8)
  | comparison (comparison : SelectComparison)
  | comma
  | minus
  /-- `?` -/
  | parameter
  deriving DecidableEq, Repr

/-- The token that the tokenizer is in. -/
inductive SelectPending
  | none
  | word (bytes : List UInt8)
  | digits (bytes : List UInt8)
  /-- `=`, `<`, `>`, `-` or `?`, which the next byte may prolong. -/
  | symbol (byte : UInt8)
  deriving DecidableEq, Repr

/-- `IdChar` -/
def isIdChar (byte : UInt8) : Bool := isAlnum byte || byte == 95 || byte == 36 || 128 ≤ byte

/-- A byte that begins a word. -/
def isIdStart (byte : UInt8) : Bool := isAlpha byte || byte == 95 || 128 ≤ byte

/-- The token of a symbol that is not prolonged. -/
def symbolToken (byte : UInt8) : Option SelectToken :=
  match byte with
  | 61 => some (.comparison .eq)
  | 60 => some (.comparison .lt)
  | 62 => some (.comparison .gt)
  | 45 => some .minus
  | 63 => some .parameter
  | _ => none

/-- The token of two symbols. -/
def symbolPair (first second : UInt8) : Option SelectToken :=
  match first, second with
  | 61, 61 => some (.comparison .eq)
  | 60, 62 => some (.comparison .ne)
  | 60, 61 => some (.comparison .le)
  | 62, 61 => some (.comparison .ge)
  | _, _ => none

/-- A symbol that may not have the byte behind it: a comment, a shift, a numbered parameter. -/
def symbolBarred (first second : UInt8) : Bool :=
  match first with
  | 45 => second == 45 || second == 62
  | 60 => second == 60
  | 62 => second == 62
  | 63 => isDigit second
  | _ => false

/-- The end of the token that the tokenizer is in. -/
def SelectPending.finish : SelectPending → Option (List SelectToken)
  | .none => some []
  | .word bytes => some [.word bytes]
  | .digits bytes => some [.integer bytes]
  | .symbol byte => (symbolToken byte).map ([·])

/-- A byte that begins a token, or stands between two. -/
def selectBegin (byte : UInt8) : Option (List SelectToken × SelectPending) :=
  if isSpace byte then some ([], .none)
  else if isIdStart byte then some ([], .word [byte])
  else if isDigit byte then some ([], .digits [byte])
  else if byte = 44 then some ([.comma], .none)
  else if (symbolToken byte).isSome then some ([], .symbol byte)
  else none

/-- The token that the tokenizer is in ends before the byte. -/
def selectBreak (pending : SelectPending) (byte : UInt8) :
    Option (List SelectToken × SelectPending) := do
  let ended ← pending.finish
  let (begun, next) ← selectBegin byte
  return (ended ++ begun, next)

/-- **One byte**: the tokens that it completes, and the token that it leaves. -/
def selectStep (pending : SelectPending) (byte : UInt8) :
    Option (List SelectToken × SelectPending) :=
  match pending with
  | .none => selectBegin byte
  | .word bytes =>
    if isIdChar byte then some ([], .word (bytes ++ [byte])) else selectBreak pending byte
  | .digits bytes =>
    if isDigit byte then some ([], .digits (bytes ++ [byte]))
    else if isIdChar byte || byte == 46 then none
    else selectBreak pending byte
  | .symbol first =>
    if symbolBarred first byte then none
    else match symbolPair first byte with
    | some token => some ([token], .none)
    | none => selectBreak pending byte

/-- A run over a text: the tokens that are completed, and the one that it ends in. -/
def selectRun : SelectPending → List UInt8 → Option (List SelectToken × SelectPending)
  | pending, [] => some ([], pending)
  | pending, byte :: rest => do
    let (completed, next) ← selectStep pending byte
    let (tokens, last) ← selectRun next rest
    return (completed ++ tokens, last)

/-- **The tokens of a text.** -/
def selectTokens (text : List UInt8) : Option (List SelectToken) := do
  let (tokens, last) ← selectRun .none text
  return tokens ++ (← last.finish)

/-! ## Texts one behind the other -/

section Run

variable {pending next last : SelectPending} {text text' : List UInt8}
  {tokens tokens' : List SelectToken} {byte : UInt8}

theorem selectRun_cons (pending : SelectPending) (byte : UInt8) (rest : List UInt8) :
    selectRun pending (byte :: rest) =
      (selectStep pending byte).bind fun step => (selectRun step.2 rest).bind fun run =>
        some (step.1 ++ run.1, run.2) := rfl

theorem selectRun_append (h : selectRun pending text = some (tokens, next))
    (h' : selectRun next text' = some (tokens', last)) :
    selectRun pending (text ++ text') = some (tokens ++ tokens', last) := by
  induction text generalizing pending tokens with
  | nil =>
    obtain ⟨rfl, rfl⟩ := Prod.mk.inj (Option.some_inj.mp h)
    exact h'
  | cons byte rest ih =>
    rw [selectRun_cons] at h
    obtain ⟨step, hstep, h⟩ := Option.bind_eq_some_iff.mp h
    obtain ⟨run, hrun, h⟩ := Option.bind_eq_some_iff.mp h
    obtain ⟨rfl, rfl⟩ := Prod.mk.inj (Option.some_inj.mp h)
    rw [List.cons_append, selectRun_cons, hstep, Option.bind_some, ih hrun, Option.bind_some,
      List.append_assoc]

/-- A word goes on while its bytes do. -/
theorem selectRun_word {word : List UInt8} (h : ∀ byte ∈ word, isIdChar byte = true)
    (begun : List UInt8) : selectRun (.word begun) word = some ([], .word (begun ++ word)) := by
  induction word generalizing begun with
  | nil => rw [List.append_nil]; rfl
  | cons byte rest ih =>
    obtain ⟨hbyte, hrest⟩ := List.forall_mem_cons.mp h
    rw [selectRun_cons, selectStep, if_pos hbyte, Option.bind_some, ih hrest, List.append_assoc]
    rfl

/-- A number goes on while its digits do. -/
theorem selectRun_digits {digits : List UInt8} (h : ∀ byte ∈ digits, isDigit byte = true)
    (begun : List UInt8) :
    selectRun (.digits begun) digits = some ([], .digits (begun ++ digits)) := by
  induction digits generalizing begun with
  | nil => rw [List.append_nil]; rfl
  | cons byte rest ih =>
    obtain ⟨hbyte, hrest⟩ := List.forall_mem_cons.mp h
    rw [selectRun_cons, selectStep, if_pos hbyte, Option.bind_some, ih hrest, List.append_assoc]
    rfl

/-- A blank or a comma ends every token. -/
theorem selectStep_eq_break (hbyte : byte = 32 ∨ byte = 44) (pending : SelectPending) :
    selectStep pending byte = selectBreak pending byte := by
  cases pending with
  | none => rcases hbyte with rfl | rfl <;> rfl
  | word bytes => rcases hbyte with rfl | rfl <;> rfl
  | digits bytes => rcases hbyte with rfl | rfl <;> rfl
  | symbol first =>
    have hbarred : symbolBarred first byte = false := by
      rcases hbyte with rfl | rfl <;> unfold symbolBarred <;> split <;> rfl
    have hpair : symbolPair first byte = none := by
      unfold symbolPair
      rcases hbyte with rfl | rfl <;> split <;> simp_all
    rw [selectStep, hbarred, if_neg Bool.false_ne_true, hpair]

/-- **Texts are read one behind the other** where the second one begins with a blank or a comma. -/
theorem selectTokens_append (h : selectTokens text = some tokens)
    (h' : selectTokens text' = some tokens')
    (hbreak : ∀ byte ∈ text'.head?, byte = 32 ∨ byte = 44) :
    selectTokens (text ++ text') = some (tokens ++ tokens') := by
  simp only [selectTokens, Option.bind_eq_bind, Option.bind_eq_some_iff] at h h' ⊢
  obtain ⟨⟨completed, next⟩, hrun, ended, hended, h⟩ := h
  obtain ⟨⟨completed', last⟩, hrun', ended', hended', h'⟩ := h'
  cases h
  cases h'
  cases text' with
  | nil =>
    obtain ⟨rfl, rfl⟩ := Prod.mk.inj (Option.some_inj.mp hrun')
    obtain rfl := Option.some_inj.mp hended'
    exact ⟨(completed, next), by rwa [List.append_nil], ended, hended, by simp⟩
  | cons byte rest =>
    have hbreaks : selectRun next (byte :: rest) = some (ended ++ completed', last) := by
      rw [selectRun_cons] at hrun' ⊢
      rw [selectStep_eq_break (hbreak byte rfl)]
      obtain ⟨step, hstep, hrun'⟩ := Option.bind_eq_some_iff.mp hrun'
      obtain ⟨run, hrest, hrun'⟩ := Option.bind_eq_some_iff.mp hrun'
      obtain ⟨rfl, rfl⟩ := Prod.mk.inj (Option.some_inj.mp hrun')
      have hbegin : selectBegin byte = some step := hstep
      simp only [selectBreak, Option.bind_eq_bind, hended, hbegin, Option.bind_some]
      rw [Option.pure_def, Option.bind_some, hrest, Option.bind_some, List.append_assoc]
    exact ⟨_, selectRun_append hrun hbreaks, ended', hended', by simp⟩

/-- A list of texts that begin with a blank or a comma. -/
theorem selectTokens_append_flatMap {γ : Type} (chunk : γ → List UInt8)
    (read : γ → List SelectToken) {l : List γ} (h : selectTokens text = some tokens)
    (hread : ∀ c ∈ l, selectTokens (chunk c) = some (read c))
    (hbreak : ∀ c ∈ l, ∀ byte ∈ (chunk c).head?, byte = 32 ∨ byte = 44) :
    selectTokens (text ++ l.flatMap chunk) = some (tokens ++ l.flatMap read) := by
  induction l generalizing text tokens with
  | nil => simpa using h
  | cons c l ih =>
    rw [List.flatMap_cons, List.flatMap_cons, ← List.append_assoc, ← List.append_assoc]
    exact ih (selectTokens_append h (hread c List.mem_cons_self) (hbreak c List.mem_cons_self))
      (fun c' hc' => hread c' (List.mem_cons_of_mem _ hc'))
      (fun c' hc' => hbreak c' (List.mem_cons_of_mem _ hc'))

end Run

/-! ## Statements -/

/-- A condition; a parameter is its number. -/
inductive SelectCondition
  | compare (column : List UInt8) (comparison : SelectComparison) (parameter : ℕ)
  | isNull (column : List UInt8)
  | isNotNull (column : List UInt8)
  deriving DecidableEq, Repr

/-- The parameter of a condition. -/
def SelectCondition.parameter : SelectCondition → Option ℕ
  | .compare _ _ parameter => some parameter
  | .isNull _ | .isNotNull _ => none

/-- A SELECT of one table. -/
structure SelectStatement where
  /-- `EXPLAIN QUERY PLAN` -/
  explain : Bool
  columns : List (List UInt8)
  table : List UInt8
  indexedBy : Option (List UInt8)
  conditions : List SelectCondition
  /-- The order terms, and whether they descend. -/
  orderBy : List (List UInt8 × Bool)
  limit : Option ℤ
  offset : Option ℤ
  deriving DecidableEq, Repr

/-- How many rows at most: a negative LIMIT is none. -/
def SelectStatement.rowLimit (statement : SelectStatement) : Option ℕ :=
  statement.limit.bind fun limit => if limit < 0 then none else some limit.toNat

/-- How many rows are left out: a negative OFFSET is zero. -/
def SelectStatement.rowOffset (statement : SelectStatement) : ℕ :=
  (statement.offset.getD 0).toNat

/-! ## The parser -/

/-- The keywords of the fragment. -/
inductive SelectKeyword
  | explain | query | plan | select | «from» | indexed | «by» | «where» | and | is | not | null
  | order | asc | desc | limit | offset
  deriving DecidableEq, Repr

/-- The lower-case spelling of a keyword. -/
def SelectKeyword.text : SelectKeyword → List UInt8
  | .explain => ascii "explain"
  | .query => ascii "query"
  | .plan => ascii "plan"
  | .select => ascii "select"
  | .from => ascii "from"
  | .indexed => ascii "indexed"
  | .by => ascii "by"
  | .where => ascii "where"
  | .and => ascii "and"
  | .is => ascii "is"
  | .not => ascii "not"
  | .null => ascii "null"
  | .order => ascii "order"
  | .asc => ascii "asc"
  | .desc => ascii "desc"
  | .limit => ascii "limit"
  | .offset => ascii "offset"

/-- All keywords of the fragment. -/
def selectKeywords : List SelectKeyword :=
  [.explain, .query, .plan, .select, .from, .indexed, .by, .where, .and, .is, .not, .null, .order,
    .asc, .desc, .limit, .offset]

/-- The keyword that a word is. -/
def keywordOf (word : List UInt8) : Option SelectKeyword :=
  selectKeywords.find? fun keyword => keyword.text == word.map toLower

/-- The next token, if it is the keyword, is taken away. -/
def takeKeyword (keyword : SelectKeyword) : List SelectToken → Option (List SelectToken)
  | .word word :: rest => if keywordOf word = some keyword then some rest else none
  | _ => none

/-- An identifier. -/
def takeName : List SelectToken → Option (List UInt8 × List SelectToken)
  | .word word :: rest => if keywordOf word = none then some (word, rest) else none
  | _ => none

/-- Identifiers with commas between them. -/
def takeNames : ℕ → List SelectToken → Option (List (List UInt8) × List SelectToken)
  | 0, _ => none
  | fuel + 1, tokens => do
    let (name, rest) ← takeName tokens
    match rest with
    | .comma :: rest =>
      let (names, rest) ← takeNames fuel rest
      return (name :: names, rest)
    | _ => return ([name], rest)

/-- A comparison with a parameter or a NULL test; `count` parameters stand before it. -/
def takeCondition (count : ℕ) (tokens : List SelectToken) :
    Option (SelectCondition × List SelectToken) := do
  let (name, rest) ← takeName tokens
  match rest with
  | .comparison comparison :: .parameter :: rest =>
    return (.compare name comparison (count + 1), rest)
  | _ =>
    let rest ← takeKeyword .is rest
    match takeKeyword .not rest with
    | none => return (.isNull name, ← takeKeyword .null rest)
    | some rest => return (.isNotNull name, ← takeKeyword .null rest)

/-- Conditions with AND between them. -/
def takeConditions : ℕ → ℕ → List SelectToken → Option (List SelectCondition × List SelectToken)
  | 0, _, _ => none
  | fuel + 1, count, tokens => do
    let (condition, rest) ← takeCondition count tokens
    match takeKeyword .and rest with
    | none => return ([condition], rest)
    | some rest =>
      let (conditions, rest) ← takeConditions fuel (count + condition.parameter.toList.length) rest
      return (condition :: conditions, rest)

/-- A column of the order, with its direction. -/
def takeOrderTerm (tokens : List SelectToken) :
    Option ((List UInt8 × Bool) × List SelectToken) := do
  let (name, rest) ← takeName tokens
  match takeKeyword .asc rest with
  | some rest => return ((name, false), rest)
  | none =>
    match takeKeyword .desc rest with
    | some rest => return ((name, true), rest)
    | none => return ((name, false), rest)

/-- Order terms with commas between them. -/
def takeOrderTerms : ℕ → List SelectToken → Option (List (List UInt8 × Bool) × List SelectToken)
  | 0, _ => none
  | fuel + 1, tokens => do
    let (term, rest) ← takeOrderTerm tokens
    match rest with
    | .comma :: rest =>
      let (terms, rest) ← takeOrderTerms fuel rest
      return (term :: terms, rest)
    | _ => return ([term], rest)

/-- A number, with a sign or without, as an integer of 64 bits.  A literal beyond them is a REAL,
and a REAL of that size is no number of rows: at a LIMIT or an OFFSET it is a datatype mismatch. -/
def takeNumber : List SelectToken → Option (ℤ × List SelectToken)
  | .integer digits :: rest => (parseDecimal digits).bind fun n =>
    if n < 2 ^ 63 then some ((n : ℤ), rest) else none
  | .minus :: .integer digits :: rest => (parseDecimal digits).bind fun n =>
    if n ≤ 2 ^ 63 then some (-(n : ℤ), rest) else none
  | _ => none

/-- `EXPLAIN QUERY PLAN`, or nothing. -/
def takeExplain (tokens : List SelectToken) : Option (Bool × List SelectToken) :=
  match takeKeyword .explain tokens with
  | none => some (false, tokens)
  | some rest => do return (true, ← takeKeyword .plan (← takeKeyword .query rest))

/-- `INDEXED BY` and a name, or nothing. -/
def takeIndexedBy (tokens : List SelectToken) : Option (Option (List UInt8) × List SelectToken) :=
  match takeKeyword .indexed tokens with
  | none => some (none, tokens)
  | some rest => do
    let (name, rest) ← takeName (← takeKeyword .by rest)
    return (some name, rest)

/-- `WHERE` and conditions, or nothing. -/
def takeWhere (tokens : List SelectToken) : Option (List SelectCondition × List SelectToken) :=
  match takeKeyword .where tokens with
  | none => some ([], tokens)
  | some rest => takeConditions rest.length 0 rest

/-- `ORDER BY` and terms, or nothing. -/
def takeOrderBy (tokens : List SelectToken) :
    Option (List (List UInt8 × Bool) × List SelectToken) :=
  match takeKeyword .order tokens with
  | none => some ([], tokens)
  | some rest => do
    let rest ← takeKeyword .by rest
    takeOrderTerms rest.length rest

/-- A keyword and a number, or nothing. -/
def takeClause (keyword : SelectKeyword) (tokens : List SelectToken) :
    Option (Option ℤ × List SelectToken) :=
  match takeKeyword keyword tokens with
  | none => some (none, tokens)
  | some rest => do
    let (number, rest) ← takeNumber rest
    return (some number, rest)

/-- `LIMIT`, and behind it `OFFSET`. -/
def takeLimit (tokens : List SelectToken) : Option ((Option ℤ × Option ℤ) × List SelectToken) := do
  let (limit, rest) ← takeClause .limit tokens
  if limit.isNone then return ((none, none), rest)
  else
    let (offset, rest) ← takeClause .offset rest
    return ((limit, offset), rest)

/-- **The statement of a list of tokens.** -/
def parseSelect (tokens : List SelectToken) : Option SelectStatement := do
  let (explain, tokens) ← takeExplain tokens
  let tokens ← takeKeyword .select tokens
  let (columns, tokens) ← takeNames tokens.length tokens
  let tokens ← takeKeyword .from tokens
  let (table, tokens) ← takeName tokens
  let (indexedBy, tokens) ← takeIndexedBy tokens
  let (conditions, tokens) ← takeWhere tokens
  let (orderBy, tokens) ← takeOrderBy tokens
  let ((limit, offset), tokens) ← takeLimit tokens
  if tokens = [] then
    return { explain, columns, table, indexedBy, conditions, orderBy, limit, offset }
  else none

/-- **The statement of a text.** -/
def readSelect (text : List UInt8) : Option SelectStatement := (selectTokens text).bind parseSelect

example : readSelect
    (ascii "SELECT c0 FROM t WHERE c0>=? AND c1 IS NULL ORDER BY c1 desc LIMIT -1") =
    some ⟨false, [ascii "c0"], ascii "t", none, [.compare (ascii "c0") .ge 1, .isNull (ascii "c1")],
      [(ascii "c1", true)], some (-1), none⟩ := by decide +kernel

end Vps
