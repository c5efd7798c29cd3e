import VirtualPostgreSQL.Dml.Statement
import VirtualPostgreSQL.Query.Lexer

/-!
# Dml/Legible — the server reads the statement as it was meant

PostgreSQL's lexer, run over the text of a statement, finds its names between their quotation marks
and its placeholders, in the order of its pieces.  A piece is read as it is meant before any text
that ends it (`Legible`), and in a statement every piece is ended by the fixed text after it.
-/

namespace Vps

open Machinery

/-! ## Reading a text -/

/-- A quotation mark for each doubled one. -/
def undouble : List UInt8 → List UInt8
  | [] => []
  | [byte] => [byte]
  | byte :: next :: rest =>
    if byte = 34 ∧ next = 34 then 34 :: undouble rest else byte :: undouble (next :: rest)

/-- The name that a quoted identifier spells. -/
def unquoteIdentifier (text : List UInt8) : List UInt8 := undouble text.tail.dropLast

/-- What the server finds in a statement that is not fixed text. -/
inductive LexMark
  | name (bytes : List UInt8)
  | placeholder (number : Option ℕ)
  deriving DecidableEq, Repr

/-- The mark of a token; `rest` is the text after its first byte. -/
def PgToken.mark? (rest : List UInt8) : PgToken → Option LexMark
  | .identifier text => some (.name (unquoteIdentifier text))
  | .parameter => some (.placeholder (parseDecimal (rest.takeWhile isDigit)))
  | _ => none

/-- The marks from a place on, as `lexFrom` reads the text. -/
def lexMarksFrom : List UInt8 → ℕ → LexMode → List LexMark
  | [], _, _ => []
  | _ :: rest, skip + 1, mode => lexMarksFrom rest skip mode
  | byte :: rest, 0, mode =>
    let step := lexStep mode byte rest
    step.tokens.filterMap (PgToken.mark? rest) ++ lexMarksFrom rest (step.length - 1) step.mode

/-- **The names and placeholders of a text**, as the server reads it. -/
def lexMarks (text : List UInt8) : List LexMark := lexMarksFrom text 0 .plain

/-- Bytes that are skipped leave no mark. -/
theorem lexMarksFrom_skip (text rest : List UInt8) (mode : LexMode) :
    lexMarksFrom (text ++ rest) text.length mode = lexMarksFrom rest 0 mode := by
  induction text with
  | nil => rfl
  | cons byte text ih => exact ih

/-- A step that reads the whole of a piece. -/
theorem lexMarks_step {byte : UInt8} {text rest : List UInt8} {tokens : List PgToken}
    (h : lexStep .plain byte (text ++ rest) = ⟨tokens, text.length + 1, .plain⟩) :
    lexMarks (byte :: text ++ rest) =
      tokens.filterMap (PgToken.mark? (text ++ rest)) ++ lexMarks rest := by
  rw [lexMarks, List.cons_append, lexMarksFrom, h]
  exact congrArg _ (lexMarksFrom_skip text rest .plain)

/-! ## Names -/

/-- A name with its quotation marks doubled. -/
def doubled (name : List UInt8) : List UInt8 :=
  name.flatMap fun byte => if byte = 34 then [34, 34] else [byte]

/-- Doubling the quotes of a name and undoing it gives the name back. -/
theorem undouble_doubled (name : List UInt8) : undouble (doubled name) = name := by
  induction name with
  | nil => rfl
  | cons byte name ih =>
    by_cases hbyte : byte = 34
    · subst hbyte
      exact congrArg (34 :: ·) ih
    · have hcons : doubled (byte :: name) = byte :: doubled name := by simp [doubled, hbyte]
      rw [hcons]
      cases hname : doubled name with
      | nil => rw [undouble, ← ih, hname, undouble]
      | cons next rest => rw [undouble, if_neg (fun h => hbyte h.1), ← hname, ih]

/-- **A quoted name un-quotes to its bytes.** -/
theorem unquoteIdentifier_quoteIdentifier (name : List UInt8) :
    unquoteIdentifier (quoteIdentifier name) = name := by
  have : (quoteIdentifier name).tail.dropLast = doubled name := by
    simp [quoteIdentifier, doubled]
  rw [unquoteIdentifier, this, undouble_doubled]

/-- **A doubled name is closed by the quote behind it** and by none in it. -/
theorem quotedLength_doubled (name : List UInt8) {rest : List UInt8}
    (hrest : rest.head? ≠ some 34) :
    quotedLength false 34 (doubled name ++ 34 :: rest) = some ((doubled name).length + 1) := by
  induction name with
  | nil =>
    cases rest with
    | nil => rfl
    | cons next rest =>
      have hnext : next ≠ 34 := fun h => hrest (congrArg some h)
      simp [doubled, quotedLength, hnext]
  | cons byte name ih =>
    by_cases hbyte : byte = 34
    · have hcons : doubled (byte :: name) = 34 :: 34 :: doubled name := by simp [doubled, hbyte]
      rw [hcons, List.cons_append, List.cons_append, quotedLength, if_pos rfl, if_pos rfl, ih]
      rfl
    · have hcons : doubled (byte :: name) = byte :: doubled name := by simp [doubled, hbyte]
      rw [hcons, List.cons_append]
      cases hname : doubled name ++ 34 :: rest with
      | nil => simp at hname
      | cons next tail =>
        rw [quotedLength, if_neg hbyte, ← hname, ih]
        rfl

/-! ## Pieces one after the other -/

/-- The marks that the pieces are meant to be; `number` is that of the next place. -/
def marks : ℕ → List DmlPiece → List LexMark
  | _, [] => []
  | number, .text _ :: pieces => marks number pieces
  | number, .name bytes :: pieces => .name bytes :: marks number pieces
  | number, .place _ :: pieces => .placeholder (some number) :: marks (number + 1) pieces

/-- The marks of two lists of pieces are numbered as their text is. -/
theorem marks_append (number : ℕ) (pieces pieces' : List DmlPiece) :
    marks number (pieces ++ pieces') =
      marks number pieces ++ marks (number + (slots pieces).length) pieces' := by
  induction pieces generalizing number with
  | nil => rfl
  | cons piece pieces ih =>
    cases piece with
    | text bytes => exact ih number
    | name bytes => exact congrArg _ (ih number)
    | place slot =>
      have hnumber : number + (slots (.place slot :: pieces)).length =
          number + 1 + (slots pieces).length := by
        rw [slots_place, List.length_cons]
        omega
      rw [hnumber]
      exact congrArg _ (ih (number + 1))

/-- A blank, or one of the marks `),.:=`. -/
def isSoft (byte : UInt8) : Bool := [32, 41, 44, 46, 58, 61].contains byte

/-- A text that ends the word, name or placeholder before it. -/
def SoftText (rest : List UInt8) : Prop := ∀ byte ∈ rest.head?, isSoft byte

/-- **The server reads the pieces as they are meant**, before any text that ends the last of
them. -/
def Legible (pieces : List DmlPiece) : Prop :=
  ∀ number rest, SoftText rest →
    lexMarks (render number pieces ++ rest) = marks number pieces ++ lexMarks rest

/-- Legible pieces that end what is before them. -/
structure Segment (pieces : List DmlPiece) : Prop where
  legible : Legible pieces
  soft : ∀ number rest, SoftText rest → SoftText (render number pieces ++ rest)

/-- A fixed text that says nothing to the server but words and marks, whatever follows. -/
def Fixed (text : List UInt8) : Prop := ∀ rest, lexMarks (text ++ rest) = lexMarks rest

/-- The empty list of pieces is legible. -/
theorem Legible.nil : Legible [] := fun _ _ _ => rfl

/-- The empty list of pieces may go behind any piece. -/
theorem Segment.nil : Segment [] := ⟨.nil, fun _ _ h => h⟩

/-- What is legible stays so with a segment behind it. -/
theorem Legible.append {pieces pieces' : List DmlPiece} (h : Legible pieces)
    (h' : Segment pieces') :
    Legible (pieces ++ pieces') := by
  intro number rest hrest
  rw [render_append, List.append_assoc, h _ _ (h'.soft _ _ hrest),
    h'.legible _ _ hrest, marks_append, List.append_assoc]

/-- Two segments are one. -/
theorem Segment.append {pieces pieces' : List DmlPiece} (h : Segment pieces)
    (h' : Segment pieces') :
    Segment (pieces ++ pieces') where
  legible := h.legible.append h'
  soft number rest hrest := by
    rw [render_append, List.append_assoc]
    exact h.soft _ _ (h'.soft _ _ hrest)

/-- Fixed text is legible, and what comes behind it as well. -/
theorem Legible.cons {text : List UInt8} (htext : Fixed text) {pieces : List DmlPiece}
    (h : Legible pieces) : Legible (.text text :: pieces) := by
  intro number rest hrest
  rw [render_text, List.append_assoc, htext]
  exact h number rest hrest

/-- Only the first byte decides whether a text ends the piece before it. -/
theorem SoftText.of_head? {text : List UInt8} (h : text.head?.any isSoft) (rest : List UInt8) :
    SoftText (text ++ rest) := by
  obtain ⟨byte, hbyte, hsoft⟩ := (Option.any_eq_true _ _).1 h
  intro first hfirst
  rw [List.head?_append, hbyte] at hfirst
  exact Option.some.inj hfirst ▸ hsoft

/-- Fixed text that begins softly may go behind any piece. -/
theorem Segment.cons {text : List UInt8} (hsoft : text.head?.any isSoft) (htext : Fixed text)
    {pieces : List DmlPiece} (h : Legible pieces) : Segment (.text text :: pieces) where
  legible := h.cons htext
  soft number rest _ := by
    rw [render_text, List.append_assoc]
    exact .of_head? hsoft _

/-- Segments in a row are one. -/
theorem Segment.flatMap {ι : Type*} {pieces : ι → List DmlPiece} {entries : List ι}
    (h : ∀ entry ∈ entries, Segment (pieces entry)) : Segment (entries.flatMap pieces) := by
  induction entries with
  | nil => exact .nil
  | cons entry entries ih =>
    rw [List.flatMap_cons]
    exact (h entry List.mem_cons_self).append (ih fun e he => h e (List.mem_cons_of_mem _ he))

/-- **A list of legible entries is legible**: its separator ends each of them. -/
theorem Legible.separated {separator : List UInt8} (hsoft : separator.head?.any isSoft)
    (hseparator : Fixed separator) {entries : List (List DmlPiece)}
    (h : ∀ entry ∈ entries, Legible entry) : Legible (separated separator entries) := by
  cases entries with
  | nil => exact .nil
  | cons entry entries =>
    refine (h entry List.mem_cons_self).append (.flatMap fun e he => ?_)
    exact .cons hsoft hseparator (h e (List.mem_cons_of_mem _ he))

/-! ## Each piece -/

/-- What ends a piece does not begin with a byte that would go on with it… -/
theorem SoftText.head?_ne {rest : List UInt8} (h : SoftText rest) {byte : UInt8}
    (hbyte : isSoft byte = false) : rest.head? ≠ some byte :=
  fun heq => absurd (h byte heq) (by simp [hbyte])

/-- …so it adds nothing to a run of such bytes. -/
theorem SoftText.takeWhile {rest : List UInt8} (h : SoftText rest) {p : UInt8 → Bool}
    (hp : [32, 41, 44, 46, 58, 61].all (!p ·)) : rest.takeWhile p = [] := by
  cases rest with
  | nil => rfl
  | cons byte rest =>
    have hbyte := List.all_eq_true.1 hp byte (List.contains_iff_mem.1 (h byte rfl))
    rw [List.takeWhile_cons_of_neg (by simpa using hbyte)]

/-- **A name is read back as the name it was.** -/
theorem Legible.name (bytes : List UInt8) : Legible [.name bytes] := by
  intro number rest hrest
  have h34 : rest.head? ≠ some 34 := hrest.head?_ne (by decide)
  have hquoted := quotedLength_doubled bytes h34
  have htext : quoteIdentifier bytes = 34 :: (doubled bytes ++ [34]) := rfl
  have hstep : lexStep .plain 34 (doubled bytes ++ [34] ++ rest) =
      ⟨[.identifier (quoteIdentifier bytes)], (doubled bytes ++ [34]).length + 1, .plain⟩ := by
    rw [List.append_assoc, List.singleton_append]
    have htake : (doubled bytes ++ 34 :: rest).take ((doubled bytes).length + 1) =
        doubled bytes ++ [34] := by simp [List.take_append]
    simp [lexStep, stepQuoted, LexMode.escapes, hquoted, htake, htext, isSpace]
  rw [render_name, render_nil, List.append_nil, htext, lexMarks_step hstep]
  simp [PgToken.mark?, unquoteIdentifier_quoteIdentifier, marks]

/-- **A place is read back as a placeholder of its number.** -/
theorem Legible.place (slot : DmlParameterSlot) : Legible [.place slot] := by
  intro number rest hrest
  have hdigits : (decimal number ++ rest).takeWhile isDigit = decimal number := by
    rw [List.takeWhile_append_of_pos fun byte hbyte => isDigit_of_mem_decimal hbyte,
      hrest.takeWhile rfl, List.append_nil]
  have hhead : (decimal number ++ rest).head?.any isDigit := by
    obtain ⟨byte, digits, hcons⟩ := List.exists_cons_of_ne_nil (decimal_ne_nil number)
    have hbyte : isDigit byte := isDigit_of_mem_decimal (hcons ▸ List.mem_cons_self)
    simp [hcons, hbyte]
  have hstep : lexStep .plain 36 (decimal number ++ rest) =
      ⟨[.parameter], (decimal number).length + 1, .plain⟩ := by
    have hdollar (text : List UInt8) : lexStep .plain 36 text = stepDollar text := rfl
    rw [hdollar, stepDollar, if_pos hhead, hdigits]
  rw [render_place, render_nil, List.append_nil, lexMarks_step hstep]
  simp [PgToken.mark?, hdigits, parseDecimal_decimal, marks]

theorem markerMode_eq_none {byte : UInt8} {text : List UInt8} (h39 : text.head? ≠ some 39)
    (h38 : text.head? ≠ some 38) : markerMode byte text = none := by
  unfold markerMode
  split
  · exact absurd rfl h39
  · exact absurd rfl h38
  · rfl

/-- A byte that begins an identifier begins a word, whatever the mode. -/
theorem lexStep_of_isIdentStart {mode : LexMode} {byte : UInt8} (h : isIdentStart byte)
    (rest : List UInt8) : lexStep mode byte rest = stepWord byte rest := by
  have hne {stop : UInt8} (hstop : isIdentStart stop = false) : byte ≠ stop := by
    rintro rfl
    simp [hstop] at h
  have hspace : isSpace byte = false := by
    exact byte_induction (P := fun byte => isIdentStart byte → isSpace byte = false) 256
      (by decide +kernel) byte byte.toNat_lt h
  simp [lexStep, hspace, h, @hne 45 (by decide), @hne 47 (by decide),
    @hne 59 (by decide), @hne 39 (by decide), @hne 34 (by decide),
    @hne 36 (by decide)]

/-- A fixed text that ends in a word is legible: what follows ends the word. -/
theorem Legible.word {text : List UInt8} (htext : Fixed text) {byte : UInt8} {word : List UInt8}
    (hstart : isIdentStart byte) (hall : word.all isIdentCont) :
    Legible [.text (text ++ byte :: word)] := by
  intro number rest hrest
  have hword : ∀ next ∈ word, isIdentCont next := List.all_eq_true.1 hall
  have hhead {stop : UInt8} (hcont : isIdentCont stop = false) (hstop : isSoft stop = false) :
      (word ++ rest).head? ≠ some stop := by
    cases word with
    | nil => exact hrest.head?_ne hstop
    | cons next word =>
      rintro ⟨⟩
      exact absurd (hword stop List.mem_cons_self) (by simp [hcont])
  have hmarker : markerMode byte (word ++ rest) = none :=
    markerMode_eq_none (hhead (by decide) (by decide)) (hhead (by decide) (by decide))
  have htail : (word ++ rest).takeWhile isIdentCont = word := by
    rw [List.takeWhile_append_of_pos hword, hrest.takeWhile rfl, List.append_nil]
  have hstep : lexStep .plain byte (word ++ rest) =
      ⟨[.word (byte :: word)], word.length + 1, .plain⟩ := by
    rw [lexStep_of_isIdentStart hstart, stepWord, hmarker, htail]
  rw [render_text, render_nil, List.append_nil, List.append_assoc, htext, lexMarks_step hstep]
  rfl

/-! ## The statement is legible -/

/-- A name is legible in front of a segment. -/
theorem Legible.named {pieces : List DmlPiece} (bytes : List UInt8) (h : Segment pieces) :
    Legible (.name bytes :: pieces) := (Legible.name bytes).append h

/-- A place is legible in front of a segment. -/
theorem Legible.placed {pieces : List DmlPiece} (slot : DmlParameterSlot) (h : Segment pieces) :
    Legible (.place slot :: pieces) := (Legible.place slot).append h

/-- A fixed text with nothing after it. -/
theorem Segment.text {text : List UInt8} (hsoft : text.head?.any isSoft) (htext : Fixed text) :
    Segment [.text text] := .cons hsoft htext .nil

/-- Legible text that begins softly may go behind any piece. -/
theorem Segment.of_text {text : List UInt8} (hsoft : text.head?.any isSoft)
    (h : Legible [.text text]) : Segment [.text text] where
  legible := h
  soft number rest _ := by
    rw [render_text, List.append_assoc]
    exact .of_head? hsoft _

section Statement

variable (policy : DmlPolicy)

/-- The target is read as its two names. -/
theorem legible_target : Legible (dmlTargetPieces policy) :=
  .named _ (.cons rfl (fun _ => rfl) (.name _))

/-- The function that reads a spatial value is read as fixed text. -/
theorem segment_reader (format : SpatialFormat) (geography : Bool) {pieces : List DmlPiece}
    (h : Legible pieces) : Segment (.text (format.reader geography) :: pieces) := by
  cases format <;> cases geography <;> exact .cons rfl (fun _ => rfl) h

theorem segment_cast (format : SpatialFormat) {pieces : List DmlPiece} (h : Legible pieces) :
    Segment (.text format.cast :: pieces) := by
  cases format <;> exact .cons rfl (fun _ => rfl) h

/-- A spatial value is read as its slots, and its schema as a name. -/
theorem legible_spatial (schema : List UInt8) (geography : Bool) (format : SpatialFormat)
    (visible : ℕ) : Legible (spatialPieces schema geography format visible) := by
  have hvalue {pieces : List DmlPiece} (h : Legible pieces) :
      Legible (.name schema :: .text (format.reader geography) ::
        .place ⟨.newValue, visible, format.valueOid⟩ :: .text format.cast :: pieces) :=
    .named _ (segment_reader format geography (.placed _ (segment_cast format h)))
  have hsrid {pieces : List DmlPiece} (h : Segment pieces) :
      Legible (.place ⟨.spatialSrid, visible, 23⟩ :: .text
        (ascii "::pg_catalog.int4)") :: pieces) :=
    .placed _ (.cons rfl (fun _ => rfl) h.legible)
  unfold spatialPieces
  simp only
  split_ifs
  · refine .cons (fun _ => rfl) (hvalue (hsrid (.cons rfl (fun _ => rfl) (.named _ ?_))))
    exact .cons rfl (fun _ => rfl) (.named _ (.text rfl fun _ => rfl))
  · exact hvalue (hsrid .nil)
  · exact hvalue .nil

/-- A value is read as the slots it has. -/
theorem legible_value (visible : ℕ) : Legible (dmlValuePieces policy visible) := by
  unfold dmlValuePieces
  split
  · exact .nil
  · split_ifs
    · exact legible_spatial _ _ _ _
    · exact .place _

/-- A comparison is read as its column and its slot. -/
theorem legible_same (visible : ℕ) (slot : DmlParameterSlot) :
    Legible (dmlSame policy visible slot) :=
  .named _ (.cons rfl (fun _ => rfl) (.place slot))

/-- The optimistic conjunct is legible in every mode. -/
theorem legible_optimistic : ∀ conjunct ∈ dmlOptimistic policy, Legible conjunct := by
  unfold dmlOptimistic
  cases policy.optimisticMode with
  | off => simp
  | column => simpa using legible_same policy _ _
  | xmin =>
    have hcast : Segment [.text (ascii "::pg_catalog." ++ ascii "xid")] :=
      .of_text rfl (.word (fun _ => rfl) rfl rfl)
    have h : Legible [.text (ascii "xmin="), .place ⟨.oldOptimistic, 0, 28⟩,
        .text (ascii "::pg_catalog.xid")] := .cons (fun _ => rfl) (.placed _ hcast)
    simpa using h

/-- The conjuncts of a WHERE are read one by one. -/
theorem segment_where : Segment (dmlWhere policy) := by
  refine .cons rfl (fun _ => rfl) (.separated rfl (fun _ => rfl) ?_)
  intro conjunct hconjunct
  rcases List.mem_append.1 hconjunct with hkey | hoptimistic
  · obtain ⟨key, -, rfl⟩ := List.mem_map.1 hkey
    exact legible_same policy _ _
  · exact legible_optimistic policy conjunct hoptimistic

/-- The names of columns, separated by commas. -/
theorem legible_names (visibles : List ℕ) :
    Legible (separated (ascii ",")
      (visibles.map fun visible => [.name (policy.columnName visible)])) := by
  refine .separated rfl (fun _ => rfl) fun entry hentry => ?_
  obtain ⟨visible, -, rfl⟩ := List.mem_map.1 hentry
  exact .name _

/-- So are the columns of RETURNING. -/
theorem segment_returning : Segment (dmlReturningPieces policy) := by
  refine Segment.append (.cons rfl (fun _ => rfl) (legible_names policy _)) ?_
  cases policy.optimisticMode with
  | off => exact .nil
  | column => exact .cons rfl (fun _ => rfl) (.name _)
  | xmin =>
    have h : Legible [.text (ascii ",xmin::pg_catalog." ++ ascii "text")] :=
      .word (fun _ => rfl) rfl rfl
    exact .of_text rfl h

/-- The columns of an INSERT are read one by one, and its values. -/
theorem segment_insert (written : List ℕ) : Segment (dmlInsertPieces policy written) := by
  unfold dmlInsertPieces
  split_ifs
  · have h : Legible [.text (ascii " DEFAULT " ++ ascii "VALUES")] :=
      .word (fun _ => rfl) rfl rfl
    exact .of_text rfl h
  · have hvalues : Legible (separated (ascii ",") (written.map (dmlValuePieces policy))) := by
      refine .separated rfl (fun _ => rfl) fun entry hentry => ?_
      obtain ⟨visible, -, rfl⟩ := List.mem_map.1 hentry
      exact legible_value policy visible
    exact ((Segment.cons rfl (fun _ => rfl) (legible_names policy written)).append
      (.cons rfl (fun _ => rfl) hvalues)).append (.text rfl fun _ => rfl)

/-- So are the assignments of an UPDATE. -/
theorem segment_set (written : List ℕ) :
    Segment (.text (ascii " SET ") ::
      separated (ascii ",") (written.map (dmlAssignmentPieces policy))) := by
  refine .cons rfl (fun _ => rfl) (.separated rfl (fun _ => rfl) ?_)
  intro entry hentry
  obtain ⟨visible, -, rfl⟩ := List.mem_map.1 hentry
  exact .named _ (.cons rfl (fun _ => rfl) (legible_value policy visible))

/-- **The server reads the statement as it is meant.** -/
theorem legible_statement (operation : DmlOperation) (included : List Bool) :
    Legible (dmlStatement policy operation included) := by
  cases operation with
  | insert =>
    exact ((Legible.cons (fun _ => rfl) (legible_target policy)).append
      (segment_insert policy _)).append (segment_returning policy)
  | update =>
    exact (((Legible.cons (fun _ => rfl) (legible_target policy)).append
      (segment_set policy _)).append (segment_where policy)).append (segment_returning policy)
  | delete =>
    exact ((Legible.cons (fun _ => rfl) (legible_target policy)).append
      (segment_where policy)).append (segment_returning policy)

end Statement

end Vps
