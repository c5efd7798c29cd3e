import VirtualPostgreSQL.Spatial.TextVerdict

/-!
# Spatial/Grammar — the grammar of well-known text

A production of the grammar says how many points some tokens have.  A function of the parser parses
a language if it moves over its tokens, and over nothing else, and counts their points: `Parses`.
Lists in parentheses carry that from their items to the whole, and the levels of nested geometries
to `wktGeometry`.
-/

namespace Vps

open Machinery

/-! ## The grammar -/

/-- Which tokens belong, and how many points they have. -/
abbrev WktLanguage := ℕ → List WktToken → Prop

/-- Items between parentheses, with commas. -/
def parenthesised (items : List (List WktToken)) : List WktToken :=
  .left :: (Geometry.commaSeparated items ++ [.right])

/-- **A list in parentheses** has an item, and as many as there must be. -/
def IsList (item : WktLanguage) (minimum : ℕ) : WktLanguage := fun points tokens =>
  ∃ items : List (ℕ × List WktToken), items ≠ [] ∧ minimum ≤ items.length ∧
    (∀ i ∈ items, item i.1 i.2) ∧ points = (items.map (·.1)).sum ∧
    tokens = parenthesised (items.map (·.2))

section Grammar

variable (strtod : List UInt8 → Option UInt64)

/-- A number that is not too long, and finite. -/
def IsWktNumber (text : List UInt8) : Prop :=
  text.length < 96 ∧ ∃ bits, strtod text = some bits ∧ isFiniteDouble bits

/-- A coordinate is a number for each dimension. -/
def IsCoordinate (dimensions : ℕ) : WktLanguage := fun points tokens =>
  points = 1 ∧ ∃ numbers : List (List UInt8), numbers.length = dimensions ∧
    (∀ text ∈ numbers, IsWktNumber strtod text) ∧ tokens = numbers.map .number

/-- Coordinates of a line, or of a ring. -/
def IsLine (dimensions minimum : ℕ) : WktLanguage := IsList (IsCoordinate strtod dimensions) minimum

/-- A polygon has rings of at least four coordinates. -/
def IsPolygon (dimensions : ℕ) : WktLanguage := IsList (IsLine strtod dimensions 4) 1

/-- One coordinate in parentheses. -/
def IsPoint (dimensions : ℕ) : WktLanguage := fun points tokens =>
  points = 1 ∧ IsLine strtod dimensions 1 points tokens

/-- A point of several, with parentheses or without. -/
def IsMultiPointItem (dimensions : ℕ) : WktLanguage := fun points tokens =>
  IsPoint strtod dimensions points tokens ∨ IsCoordinate strtod dimensions points tokens

/-- The parenthesised body of a type. -/
def IsBody (dimensions : ℕ) (member : WktLanguage) : SpatialGeometryType → WktLanguage
  | .any => fun _ _ => False
  | .point => IsPoint strtod dimensions
  | .lineString => IsLine strtod dimensions 2
  | .polygon => IsPolygon strtod dimensions
  | .multiPoint => IsList (IsMultiPointItem strtod dimensions) 1
  | .multiLineString => IsList (IsLine strtod dimensions 2) 1
  | .multiPolygon => IsList (IsPolygon strtod dimensions) 1
  | .geometryCollection => IsList member 1

/-- A word in any letter case. -/
def SpellsWord (word letters : List UInt8) : Prop := letters.map toLower = word.map toLower

/-- The dimensions that the words behind a type give; without a word they are the inherited ones. -/
def IsDimensions (inherited dimensions : ℕ) (tokens : List WktToken) : Prop :=
  (tokens = [] ∧ dimensions = if inherited = 0 then 2 else inherited) ∨
    ∃ letters, tokens = [.word letters] ∧
      ((dimensions = 3 ∧ (SpellsWord (ascii "Z") letters ∨ SpellsWord (ascii "M") letters)) ∨
        (dimensions = 4 ∧ SpellsWord (ascii "ZM") letters))

/-- The word for a geometry without points. -/
def IsEmptyBody : WktLanguage := fun points tokens =>
  points = 0 ∧ ∃ letters, tokens = [.word letters] ∧ SpellsWord (ascii "EMPTY") letters

/-- **A geometry** of at most so many levels: the word of its type, its dimensions, and `EMPTY` or
the body of the type. -/
def IsGeometryText : ℕ → ℕ → WktLanguage
  | 0, _ => fun _ _ => False
  | levels + 1, inherited => fun points tokens =>
    ∃ type letters dimensions marks body, SpellsWord (Geometry.typeWord type) letters ∧
      type ≠ .any ∧ IsDimensions inherited dimensions marks ∧
      (IsEmptyBody points body ∨
        IsBody strtod dimensions (IsGeometryText levels dimensions) type points body) ∧
      tokens = .word letters :: (marks ++ body)

end Grammar

/-! ## Parsing a language -/

/-- The parser has moved over tokens with so many points. -/
structure Moved (parser : WktParser) (points : ℕ) (after : WktParser) : Prop where
  limits : after.limits = parser.limits
  count : after.result.pointCount = parser.result.pointCount + points
  room : after.result.pointCount ≤ after.limits.maxPoints

/-- **A function of the parser parses a language**: it takes nothing else, and all of it that
something ends. -/
structure Parses (production : WktParser → Except WktParser WktParser) (language : WktLanguage)
    (ends : List WktToken → Prop) : Prop where
  sound : ∀ parser after, parser.result.pointCount ≤ parser.limits.maxPoints →
    production parser = .ok after → ∃ points tokens, language points tokens ∧
      parser.tokens = tokens ++ after.tokens ∧ Moved parser points after
  complete : ∀ parser points tokens follow, language points tokens →
    parser.tokens = tokens ++ follow → ends follow →
    parser.result.pointCount + points ≤ parser.limits.maxPoints →
    ∃ after, production parser = .ok after ∧ after.tokens = follow ∧ Moved parser points after

/-- Two moves are one, over the points of both. -/
theorem Moved.trans {parser middle after : WktParser} {points points' : ℕ}
    (h : Moved parser points middle) (h' : Moved middle points' after) :
    Moved parser (points + points') after :=
  ⟨h'.limits.trans h.limits, by rw [h'.count, h.count, Nat.add_assoc], h'.room⟩

/-- Going on to the next token counts no point. -/
theorem Moved.next {parser after : WktParser} {points : ℕ} (h : Moved parser points after) :
    Moved parser points after.next :=
  ⟨h.limits, h.count, h.room⟩

/-! ### Coordinates -/

section Coordinates

variable {strtod : List UInt8 → Option UInt64}

/-- **A number is read just when there is one.** -/
theorem wktNumber_ok_iff {parser after : WktParser} :
    wktNumber strtod parser = .ok after ↔ ∃ text follow, IsWktNumber strtod text ∧
      parser.tokens = .number text :: follow ∧ after = { parser with tokens := follow } := by
  constructor
  · intro h
    rw [wktNumber] at h
    split at h
    next text follow htokens =>
      split at h
      next => cases h
      next hshort =>
        cases hbits : strtod text with
        | none =>
          rw [hbits] at h
          cases h
        | some bits =>
          rw [hbits] at h
          dsimp only at h
          split at h
          next hfinite =>
            refine ⟨text, follow, ⟨not_le.mp hshort, bits, hbits, hfinite⟩, htokens, ?_⟩
            rw [← Except.ok.inj h, WktParser.next, htokens, List.tail_cons]
          next => cases h
    next => cases h
  · rintro ⟨text, follow, ⟨hshort, bits, hbits, hfinite⟩, htokens, rfl⟩
    rw [wktNumber, htokens]
    dsimp only
    rw [if_neg (not_le.mpr hshort), hbits]
    dsimp only
    rw [if_pos hfinite, WktParser.next, htokens, List.tail_cons]

/-- So are as many numbers as a coordinate has. -/
theorem wktNumbers_ok_iff {dimensions : ℕ} {parser after : WktParser} :
    wktNumbers strtod dimensions parser = .ok after ↔
      ∃ (numbers : List (List UInt8)) (follow : List WktToken), numbers.length = dimensions ∧
        (∀ text ∈ numbers, IsWktNumber strtod text) ∧
        parser.tokens = numbers.map .number ++ follow ∧
          after = { parser with tokens := follow } := by
  induction dimensions generalizing parser with
  | zero =>
    rw [wktNumbers]
    constructor
    · intro h
      obtain rfl := Except.ok.inj h
      exact ⟨[], parser.tokens, rfl, fun _ h => absurd h List.not_mem_nil, rfl, rfl⟩
    · rintro ⟨numbers, follow, hlength, -, htokens, rfl⟩
      obtain rfl := List.length_eq_zero_iff.mp hlength
      rw [← List.nil_append follow, ← List.map_nil, ← htokens]
  | succ dimensions ih =>
    rw [wktNumbers, bind_eq_ok_iff]
    constructor
    · rintro ⟨middle, hnumber, hrest⟩
      obtain ⟨text, others, htext, htokens, rfl⟩ := wktNumber_ok_iff.mp hnumber
      obtain ⟨numbers, follow, rfl, hnumbers, hfollow, rfl⟩ := ih.mp hrest
      refine ⟨text :: numbers, follow, rfl, List.forall_mem_cons.mpr ⟨htext, hnumbers⟩, ?_, rfl⟩
      rw [htokens, List.map_cons, List.cons_append]
      exact congrArg _ hfollow
    · rintro ⟨numbers, follow, hlength, hnumbers, htokens, rfl⟩
      cases numbers with
      | nil => cases hlength
      | cons text numbers =>
        obtain ⟨htext, hnumbers⟩ := List.forall_mem_cons.mp hnumbers
        exact ⟨_, wktNumber_ok_iff.mpr ⟨text, _, htext, htokens, rfl⟩,
          ih.mpr ⟨numbers, follow, Nat.succ.inj hlength, hnumbers, rfl, rfl⟩⟩

/-- **A coordinate is parsed by its grammar**, both ways. -/
theorem parses_coordinate (dimensions : ℕ) :
    Parses (wktCoordinate strtod dimensions) (IsCoordinate strtod dimensions) EndsItem where
  sound := by
    intro parser after hroom h
    obtain ⟨middle, hmiddle, h⟩ := ok_of_bind h
    obtain ⟨numbers, follow, hlength, hnumbers, htokens, rfl⟩ := wktNumbers_ok_iff.mp hmiddle
    rw [wktPoint] at h
    split at h
    next => cases h
    next hmore =>
      dsimp only at hmore h
      obtain rfl : { parser with tokens := follow }.count = after := by
        split at h
        next => exact Except.ok.inj h
        next => exact Except.ok.inj h
        next => cases h
      exact ⟨1, numbers.map .number, ⟨rfl, numbers, hlength, hnumbers, rfl⟩, htokens, rfl, rfl,
        Nat.lt_of_le_of_ne hroom hmore⟩
  complete := by
    rintro parser points tokens follow ⟨rfl, numbers, hlength, hnumbers, rfl⟩ htokens hends hroom
    have hmiddle := wktNumbers_ok_iff.mpr ⟨numbers, follow, hlength, hnumbers, htokens, rfl⟩
    refine ⟨{ parser with tokens := follow }.count, ?_, rfl, rfl, rfl, hroom⟩
    rw [wktCoordinate, hmiddle, ok_bind, wktPoint, if_neg (by dsimp only; omega)]
    obtain ⟨rest, rfl | rfl⟩ := hends
    all_goals rfl

end Coordinates

/-! ### Lists -/

section Lists

open Vps.Geometry

variable {item : WktParser → Except WktParser WktParser} {language : WktLanguage}
  {ends : List WktToken → Prop}

theorem commaSeparated_cons {item : List WktToken} {items : List (List WktToken)}
    (hne : items ≠ []) :
    commaSeparated (item :: items) = item ++ .comma :: commaSeparated items := by
  cases items with
  | nil => exact absurd rfl hne
  | cons next items => rfl

/-- **A loop takes items of the language only**, and all that there are. -/
theorem wktLoop_sound (hitem : Parses item language ends) {turns done : ℕ} {parser : WktParser}
    {r : WktParser × ℕ} (hroom : parser.result.pointCount ≤ parser.limits.maxPoints)
    (h : wktLoop item turns done parser = .ok r) :
    ∃ items : List (ℕ × List WktToken), items ≠ [] ∧ (∀ i ∈ items, language i.1 i.2) ∧
      parser.tokens = commaSeparated (items.map (·.2)) ++ .right :: r.1.tokens ∧
      r.2 = done + items.length ∧ Moved parser (items.map (·.1)).sum r.1 := by
  induction turns generalizing done parser with
  | zero => cases h
  | succ turns ih =>
    obtain ⟨middle, hmiddle, h⟩ := ok_of_bind h
    obtain ⟨points, tokens, hlanguage, htokens, hmoved⟩ := hitem.sound _ _ hroom hmiddle
    split at h
    next rest hright =>
      obtain rfl := Except.ok.inj h
      refine ⟨[(points, tokens)], List.cons_ne_nil _ _, by simpa using hlanguage, ?_, rfl, ?_⟩
      · rw [htokens, hright, WktParser.next, hright]
        rfl
      · simpa using hmoved.next
    next rest hcomma =>
      obtain ⟨items, hne, hitems, hrest, hcount, hmoves⟩ := ih hmoved.next.room h
      refine ⟨(points, tokens) :: items, List.cons_ne_nil _ _,
        List.forall_mem_cons.mpr ⟨hlanguage, hitems⟩, ?_, ?_, ?_⟩
      · rw [WktParser.next, hcomma] at hrest
        rw [htokens, hcomma, List.map_cons, commaSeparated_cons (by simpa using hne),
          List.append_assoc, List.cons_append]
        exact congrArg (tokens ++ .comma :: ·) hrest
      · rw [hcount, List.length_cons]
        omega
      · rw [List.map_cons, List.sum_cons]
        exact hmoved.next.trans hmoves
    next => cases h

/-- **A loop takes all items of the language** that there are turns for. -/
theorem wktLoop_complete (hitem : Parses item language ends)
    (hends : ∀ follow, EndsItem follow → ends follow) {items : List (ℕ × List WktToken)}
    (hne : items ≠ []) (hitems : ∀ i ∈ items, language i.1 i.2) {turns done : ℕ}
    (hturns : items.length ≤ turns) {parser : WktParser} {follow : List WktToken}
    (htokens : parser.tokens = commaSeparated (items.map (·.2)) ++ .right :: follow)
    (hroom : parser.result.pointCount + (items.map (·.1)).sum ≤ parser.limits.maxPoints) :
    ∃ after, wktLoop item turns done parser = .ok (after, done + items.length) ∧
      after.tokens = follow ∧ Moved parser (items.map (·.1)).sum after := by
  induction items generalizing turns done parser with
  | nil => exact absurd rfl hne
  | cons i items ih =>
    obtain ⟨turns, rfl⟩ := Nat.exists_eq_add_of_lt hturns
    obtain ⟨hfirst, hothers⟩ := List.forall_mem_cons.mp hitems
    rw [List.map_cons, List.sum_cons] at hroom
    have hturns' : i :: items ≠ [] := List.cons_ne_nil _ _
    by_cases hlast : items = []
    · subst hlast
      obtain ⟨after, hafter, hfollow, hmoved⟩ :=
        hitem.complete parser i.1 i.2 (.right :: follow) hfirst
        htokens (hends _ ⟨follow, .inr rfl⟩) (by omega)
      refine ⟨after.next, ?_, by rw [WktParser.next, hfollow]; rfl, by simpa using hmoved.next⟩
      rw [wktLoop, hafter, ok_bind, hfollow]
      rfl
    · rw [List.map_cons, commaSeparated_cons (by simpa using hlast), List.append_assoc,
        List.cons_append] at htokens
      obtain ⟨middle, hmiddle, hfollow, hmoved⟩ := hitem.complete parser i.1 i.2 _ hfirst htokens
        (hends _ ⟨_, .inl rfl⟩) (by omega)
      have hcount := hmoved.count
      have hlimits := hmoved.limits
      obtain ⟨after, hafter, hrest, hmoves⟩ := @ih hlast hothers (items.length + turns) (done + 1)
        (Nat.le_add_right _ _) middle.next (by rw [WktParser.next, hfollow]; rfl)
        (by rw [WktParser.next]
            dsimp only
            rw [hcount, hlimits]
            omega)
      refine ⟨after, ?_, hrest, ?_⟩
      · rw [wktLoop, hmiddle, ok_bind, hfollow]
        dsimp only
        have hsum : done + 1 + items.length = done + (items.length + 1) := by omega
        rw [hafter, List.length_cons, hsum]
      · rw [List.map_cons, List.sum_cons]
        exact hmoved.next.trans hmoves

/-- What the loop accepts is a list of items. -/
theorem wktList_sound (hitem : Parses item language ends) {parser : WktParser} {r : WktParser × ℕ}
    (hroom : parser.result.pointCount ≤ parser.limits.maxPoints)
    (h : wktList item parser = .ok r) :
    ∃ points tokens, IsList language r.2 points tokens ∧ parser.tokens = tokens ++ r.1.tokens ∧
      Moved parser points r.1 := by
  rw [wktList] at h
  split at h
  next rest hleft =>
    obtain ⟨items, hne, hitems, htokens, hcount, hmoved⟩ :=
      @wktLoop_sound _ _ _ hitem _ _ parser.next _ hroom h
    rw [Nat.zero_add] at hcount
    refine ⟨_, _, ⟨items, hne, hcount.le, hitems, rfl, rfl⟩, ?_, hmoved.limits, hmoved.count,
      hmoved.room⟩
    rw [WktParser.next, hleft] at htokens
    rw [hleft, parenthesised, List.cons_append, List.append_assoc]
    exact congrArg _ htokens
  next => cases h

/-- Every list of items is accepted, as long as there is room for its points. -/
theorem wktList_complete (hitem : Parses item language ends)
    (hends : ∀ follow, EndsItem follow → ends follow) {minimum points : ℕ} {parser : WktParser}
    {tokens follow : List WktToken} (hlist : IsList language minimum points tokens)
    (htokens : parser.tokens = tokens ++ follow)
    (hroom : parser.result.pointCount + points ≤ parser.limits.maxPoints) :
    ∃ after count, wktList item parser = .ok (after, count) ∧ minimum ≤ count ∧
      after.tokens = follow ∧ Moved parser points after := by
  obtain ⟨items, hne, hminimum, hitems, rfl, rfl⟩ := hlist
  rw [parenthesised, List.cons_append, List.append_assoc] at htokens
  have hturns := length_le_commaSeparated (items.map (·.2))
  rw [List.length_map] at hturns
  have hlength : items.length ≤
      (commaSeparated (items.map (·.2)) ++ ([WktToken.right] ++ follow)).length + 1 := by
    rw [List.length_append]
    omega
  have hnext : parser.next.tokens = commaSeparated (items.map (·.2)) ++ .right :: follow := by
    rw [WktParser.next, htokens]
    rfl
  obtain ⟨after, hafter, hfollow, hmoved⟩ :=
    @wktLoop_complete _ _ _ hitem hends items hne hitems _ 0 hlength parser.next follow hnext hroom
  rw [Nat.zero_add] at hafter
  refine ⟨after, items.length, ?_, hminimum, hfollow, hmoved.limits, hmoved.count, hmoved.room⟩
  rw [wktList, htokens]
  exact hafter

/-- **A list is parsed** when its items are. -/
theorem Parses.list (hitem : Parses item language ends)
    (hends : ∀ follow, EndsItem follow → ends follow) :
    Parses (fun parser => (·.1) <$> wktList item parser) (IsList language 1) fun _ => True where
  sound := by
    intro parser after hroom h
    cases hlist : wktList item parser with
    | error e =>
      rw [hlist] at h
      cases h
    | ok r =>
      rw [hlist] at h
      obtain rfl := Except.ok.inj h
      obtain ⟨points, tokens, hlanguage, htokens, hmoved⟩ := wktList_sound hitem hroom hlist
      obtain ⟨items, hne, -, hrest⟩ := hlanguage
      exact ⟨points, tokens, ⟨items, hne, List.length_pos_iff.mpr hne, hrest⟩, htokens, hmoved⟩
  complete := by
    rintro parser points tokens follow hlanguage htokens - hroom
    obtain ⟨after, count, hafter, -, hfollow, hmoved⟩ :=
      wktList_complete hitem hends hlanguage htokens hroom
    exact ⟨after, by rw [hafter]; rfl, hfollow, hmoved⟩

/-- Items are parsed as those of another language that has the same. -/
theorem Parses.congr {other : WktLanguage} (hitem : Parses item language ends)
    (h : ∀ points tokens, language points tokens ↔ other points tokens) :
    Parses item other ends where
  sound := by
    intro parser after hroom hafter
    obtain ⟨points, tokens, hlanguage, hrest⟩ := hitem.sound parser after hroom hafter
    exact ⟨points, tokens, (h points tokens).mp hlanguage, hrest⟩
  complete := fun parser points tokens follow hlanguage =>
    hitem.complete parser points tokens follow ((h points tokens).mpr hlanguage)

end Lists

/-! ### Lines, points and polygons -/

section Parts

variable {strtod : List UInt8 → Option UInt64}

/-- A line is parsed by its grammar. -/
theorem parses_line (dimensions minimum : ℕ) :
    Parses (wktCoordinateList strtod dimensions minimum) (IsLine strtod dimensions minimum)
      fun _ => True where
  sound := by
    intro parser after hroom h
    obtain ⟨r, hlist, h⟩ := ok_of_bind h
    obtain ⟨points, tokens, ⟨items, hne, hcount, hrest⟩, htokens, hmoved⟩ :=
      wktList_sound (parses_coordinate dimensions) hroom hlist
    dsimp only at h
    split at h
    next hminimum =>
      obtain rfl := Except.ok.inj h
      exact ⟨points, tokens, ⟨items, hne, hminimum.trans hcount, hrest⟩, htokens, hmoved⟩
    next => cases h
  complete := by
    rintro parser points tokens follow hlanguage htokens - hroom
    obtain ⟨after, count, hafter, hminimum, hfollow, hmoved⟩ :=
      wktList_complete (parses_coordinate dimensions) (fun _ h => h) hlanguage htokens hroom
    refine ⟨after, ?_, hfollow, hmoved⟩
    rw [wktCoordinateList, hafter, ok_bind]
    dsimp only
    rw [if_pos hminimum]

/-- A polygon is parsed by its grammar. -/
theorem parses_polygon (dimensions : ℕ) :
    Parses (wktPolygonBody strtod dimensions) (IsPolygon strtod dimensions) fun _ => True :=
  (parses_line dimensions 4).list fun _ _ => trivial

/-- A point is parsed by its grammar. -/
theorem parses_point (dimensions : ℕ) :
    Parses (wktPointBody strtod dimensions) (IsPoint strtod dimensions) fun _ => True where
  sound := by
    intro parser after hroom h
    obtain ⟨middle, hmiddle, h⟩ := ok_of_bind h
    obtain ⟨points, tokens, hlanguage, htokens, hmoved⟩ :=
      (parses_line dimensions 1).sound parser middle hroom hmiddle
    split at h
    next hone =>
      obtain rfl := Except.ok.inj h
      have := hmoved.count
      exact ⟨points, tokens, ⟨by omega, hlanguage⟩, htokens, hmoved⟩
    next => cases h
  complete := by
    rintro parser points tokens follow ⟨rfl, hlanguage⟩ htokens hends hroom
    obtain ⟨after, hafter, hfollow, hmoved⟩ :=
      (parses_line dimensions 1).complete parser 1 tokens follow hlanguage htokens hends hroom
    refine ⟨after, ?_, hfollow, hmoved⟩
    rw [wktPointBody, hafter, ok_bind, hmoved.count, if_pos (Nat.add_sub_cancel_left _ _)]

theorem IsPoint.left {dimensions points : ℕ} {tokens : List WktToken}
    (h : IsPoint strtod dimensions points tokens) : ∃ rest, tokens = .left :: rest := by
  obtain ⟨-, items, -, -, -, -, rfl⟩ := h
  exact ⟨_, rfl⟩

/-- The tokens of a coordinate do not start with a parenthesis, whatever ends it. -/
theorem IsCoordinate.not_left {dimensions points : ℕ} {tokens follow rest : List WktToken}
    (h : IsCoordinate strtod dimensions points tokens) (hends : EndsItem follow) :
    tokens ++ follow ≠ .left :: rest := by
  obtain ⟨-, numbers, -, -, rfl⟩ := h
  intro heq
  cases numbers with
  | nil =>
    obtain ⟨others, rfl | rfl⟩ := hends
    all_goals cases heq
  | cons text numbers => cases heq

/-- The point of a MULTIPOINT is, with its brackets or without. -/
theorem parses_multiPointItem (dimensions : ℕ) :
    Parses (wktMultiPointItem strtod dimensions) (IsMultiPointItem strtod dimensions) EndsItem where
  sound := by
    intro parser after hroom h
    rw [wktMultiPointItem] at h
    split at h
    next =>
      obtain ⟨points, tokens, hlanguage, hrest⟩ :=
        (parses_point dimensions).sound parser after hroom h
      exact ⟨points, tokens, .inl hlanguage, hrest⟩
    next =>
      obtain ⟨points, tokens, hlanguage, hrest⟩ :=
        (parses_coordinate dimensions).sound parser after hroom h
      exact ⟨points, tokens, .inr hlanguage, hrest⟩
  complete := by
    rintro parser points tokens follow (hlanguage | hlanguage) htokens hends hroom
    · obtain ⟨rest, hleft⟩ := hlanguage.left
      obtain ⟨after, hafter, hrest⟩ :=
        (parses_point dimensions).complete parser points tokens follow hlanguage
          htokens trivial hroom
      refine ⟨after, ?_, hrest⟩
      rw [wktMultiPointItem, htokens, hleft]
      exact hafter
    · obtain ⟨after, hafter, hrest⟩ :=
        (parses_coordinate dimensions).complete parser points tokens follow hlanguage
          htokens hends hroom
      refine ⟨after, ?_, hrest⟩
      rw [wktMultiPointItem]
      split
      next others hleft => exact absurd (htokens.symm.trans hleft) (hlanguage.not_left hends)
      next => exact hafter

end Parts

/-! ### Words -/

/-- Words are compared without regard to case. -/
theorem asciiEqual_iff {letters : List UInt8} {word : String} :
    asciiEqual letters word = true ↔ SpellsWord (ascii word) letters := beq_iff_eq

theorem wktWord_iff {parser : WktParser} {word : String} :
    wktWord parser word = true ↔ ∃ letters follow, parser.tokens = .word letters :: follow ∧
      SpellsWord (ascii word) letters := by
  rw [wktWord]
  split
  next letters follow htokens =>
    rw [asciiEqual_iff]
    refine ⟨fun h => ⟨letters, follow, htokens, h⟩, ?_⟩
    rintro ⟨letters', follow', htokens', h⟩
    cases htokens.symm.trans htokens'
    exact h
  next hnone =>
    refine iff_of_false Bool.false_ne_true ?_
    rintro ⟨letters, follow, htokens, -⟩
    exact hnone letters follow htokens

/-- A word that spells one word spells another only if those are the same but for case. -/
theorem wktWord_eq {parser : WktParser} {letters word : List UInt8} {follow : List WktToken}
    (htokens : parser.tokens = .word letters :: follow) (h : SpellsWord word letters)
    (other : String) :
    wktWord parser other = (word.map toLower == (ascii other).map toLower) := by
  rw [wktWord, htokens]
  dsimp only
  rw [asciiEqual, h]

/-- A type is read where its word stands. -/
theorem wktType_eq_iff {parser : WktParser} {type : SpatialGeometryType} (htype : type ≠ .any) :
    wktType parser = type ↔ ∃ letters follow, parser.tokens = .word letters :: follow ∧
      SpellsWord (Geometry.typeWord type) letters := by
  constructor
  · intro h
    rw [wktType] at h
    split at h
    next hword =>
      subst h
      exact wktWord_iff.mp hword
    next =>
    split at h
    next hword =>
      subst h
      exact wktWord_iff.mp hword
    next =>
    split at h
    next hword =>
      subst h
      exact wktWord_iff.mp hword
    next =>
    split at h
    next hword =>
      subst h
      exact wktWord_iff.mp hword
    next =>
    split at h
    next hword =>
      subst h
      exact wktWord_iff.mp hword
    next =>
    split at h
    next hword =>
      subst h
      exact wktWord_iff.mp hword
    next =>
    split at h
    next hword =>
      subst h
      exact wktWord_iff.mp hword
    next => exact absurd h.symm htype
  · rintro ⟨letters, follow, htokens, hword⟩
    simp only [wktType, wktWord_eq htokens hword]
    cases type with
    | any => exact absurd rfl htype
    | _ => decide

/-- What the body of a geometry starts with. -/
def StartsBody (body : List WktToken) : Prop :=
  (∃ rest, body = .left :: rest) ∨
    ∃ letters rest, body = .word letters :: rest ∧ SpellsWord (ascii "EMPTY") letters

/-- What is read as dimensions is one of the marks, or none. -/
theorem wktDimensions_sound (inherited : ℕ) (parser : WktParser) :
    ∃ marks follow, IsDimensions inherited (wktDimensions inherited parser).1 marks ∧
      parser.tokens = marks ++ follow ∧
      (wktDimensions inherited parser).2 = { parser with tokens := follow } := by
  have hnext : ∀ letters follow, parser.tokens = .word letters :: follow →
      parser.next = { parser with tokens := follow } := by
    intro letters follow htokens
    rw [WktParser.next, htokens, List.tail_cons]
  rw [wktDimensions]
  split
  next hz =>
    obtain ⟨letters, follow, htokens, hword⟩ := wktWord_iff.mp hz
    exact ⟨[.word letters], follow, .inr ⟨letters, rfl, .inl ⟨rfl, .inl hword⟩⟩, htokens,
      hnext letters follow htokens⟩
  next =>
    split
    next hm =>
      obtain ⟨letters, follow, htokens, hword⟩ := wktWord_iff.mp hm
      exact ⟨[.word letters], follow, .inr ⟨letters, rfl, .inl ⟨rfl, .inr hword⟩⟩, htokens,
        hnext letters follow htokens⟩
    next =>
      split
      next hzm =>
        obtain ⟨letters, follow, htokens, hword⟩ := wktWord_iff.mp hzm
        exact ⟨[.word letters], follow, .inr ⟨letters, rfl, .inr ⟨rfl, hword⟩⟩, htokens,
          hnext letters follow htokens⟩
      next => exact ⟨[], parser.tokens, .inl ⟨rfl, rfl⟩, rfl, rfl⟩

/-- Every mark is read, and a body begins behind it. -/
theorem wktDimensions_complete {inherited dimensions : ℕ} {parser : WktParser}
    {marks body : List WktToken} (h : IsDimensions inherited dimensions marks)
    (htokens : parser.tokens = marks ++ body) (hbody : StartsBody body) :
    wktDimensions inherited parser = (dimensions, { parser with tokens := body }) := by
  obtain ⟨rfl, rfl⟩ | ⟨letters, rfl, hword⟩ := h
  · -- neither a parenthesis nor the word for an empty geometry is a mark
    have hnone : wktWord parser "Z" = false ∧ wktWord parser "M" = false ∧
        wktWord parser "ZM" = false := by
      obtain ⟨rest, rfl⟩ | ⟨letters, rest, rfl, hempty⟩ := hbody
      · simp [wktWord, htokens]
      · rw [wktWord_eq htokens hempty, wktWord_eq htokens hempty, wktWord_eq htokens hempty]
        decide
    have hself : { parser with tokens := body } = parser := by
      rw [← List.nil_append body, ← htokens]
    rw [wktDimensions, hnone.1, hnone.2.1, hnone.2.2, hself]
    rfl
  · have hnext : parser.next = { parser with tokens := body } := by
      rw [WktParser.next, htokens]
      rfl
    obtain ⟨rfl, hword | hword⟩ | ⟨rfl, hword⟩ := hword
    all_goals
      simp only [wktDimensions, wktWord_eq htokens hword, hnext]
      rfl

/-! ### Geometries -/

section Geometries

variable {strtod : List UInt8 → Option UInt64}

theorem IsBody.left {dimensions points : ℕ} {member : WktLanguage} {type : SpatialGeometryType}
    {tokens : List WktToken} (h : IsBody strtod dimensions member type points tokens) :
    ∃ rest, tokens = .left :: rest := by
  have hlist : ∀ {item : WktLanguage} {minimum}, IsList item minimum points tokens →
      ∃ rest, tokens = .left :: rest := by
    rintro item minimum ⟨items, -, -, -, -, rfl⟩
    exact ⟨_, rfl⟩
  cases type with
  | any => exact absurd h id
  | point => exact IsPoint.left h
  | _ => exact hlist h

/-- **Every body is parsed by its grammar** if the geometries in it are. -/
theorem parses_body {type : SpatialGeometryType} (htype : type ≠ .any) (dimensions : ℕ)
    {member : WktParser → Except WktParser WktParser} {language : WktLanguage}
    (hmember : Parses member language fun _ => True) :
    Parses (wktBody strtod type dimensions member) (fun points tokens =>
      IsEmptyBody points tokens ∨ IsBody strtod dimensions language type points tokens)
      fun _ => True := by
  -- behind a word that is not `EMPTY`, the body is read by the function of its type
  have hparses : ∃ production, Parses production (IsBody strtod dimensions language type)
      (fun _ => True) ∧ ∀ parser, wktWord parser "EMPTY" = false →
        wktBody strtod type dimensions member parser = production parser := by
    have hbody : ∀ parser, wktWord parser "EMPTY" = false →
        ¬wktWord parser "EMPTY" = true := fun _ h => by simp [h]
    cases type with
    | any => exact absurd rfl htype
    | point => exact ⟨_, parses_point dimensions, fun parser h => if_neg (hbody parser h)⟩
    | lineString => exact ⟨_, parses_line dimensions 2, fun parser h => if_neg (hbody parser h)⟩
    | polygon => exact ⟨_, parses_polygon dimensions, fun parser h => if_neg (hbody parser h)⟩
    | multiPoint =>
      exact ⟨_, (parses_multiPointItem dimensions).list fun _ h => h,
        fun parser h => if_neg (hbody parser h)⟩
    | multiLineString =>
      exact ⟨_, (parses_line dimensions 2).list fun _ _ => trivial,
        fun parser h => if_neg (hbody parser h)⟩
    | multiPolygon =>
      exact ⟨_, (parses_polygon dimensions).list fun _ _ => trivial,
        fun parser h => if_neg (hbody parser h)⟩
    | geometryCollection =>
      exact ⟨_, hmember.list fun _ _ => trivial, fun parser h => if_neg (hbody parser h)⟩
  obtain ⟨production, hproduction, heq⟩ := hparses
  constructor
  · intro parser after hroom h
    cases hempty : wktWord parser "EMPTY" with
    | true =>
      have hafter : wktBody strtod type dimensions member parser =
          .ok { parser.next with result := { parser.result with empty := true } } := if_pos hempty
      rw [hafter] at h
      obtain rfl := Except.ok.inj h
      obtain ⟨letters, follow, htokens, hword⟩ := wktWord_iff.mp hempty
      refine ⟨0, [.word letters], .inl ⟨rfl, letters, rfl, hword⟩, ?_, rfl, rfl, hroom⟩
      rw [WktParser.next, htokens]
      rfl
    | false =>
      rw [heq parser hempty] at h
      obtain ⟨points, tokens, hlanguage, hrest⟩ := hproduction.sound parser after hroom h
      exact ⟨points, tokens, .inr hlanguage, hrest⟩
  · rintro parser points tokens follow (⟨rfl, letters, rfl, hword⟩ | hlanguage) htokens - hroom
    · have hempty := wktWord_iff.mpr ⟨letters, follow, htokens, hword⟩
      refine ⟨_, if_pos hempty, ?_, rfl, rfl, hroom⟩
      rw [WktParser.next, htokens]
      rfl
    · obtain ⟨rest, hleft⟩ := hlanguage.left
      have hempty : wktWord parser "EMPTY" = false := by rw [wktWord, htokens, hleft]; rfl
      rw [heq parser hempty]
      exact hproduction.complete parser points tokens follow hlanguage htokens trivial hroom

theorem report_eq (parser : WktParser) (top : Bool) (type : SpatialGeometryType) (dimensions : ℕ) :
    (parser.report top type dimensions).tokens = parser.tokens ∧
      (parser.report top type dimensions).limits = parser.limits ∧
      (parser.report top type dimensions).result.pointCount = parser.result.pointCount := by
  cases top with
  | true => exact ⟨rfl, rfl, rfl⟩
  | false => exact ⟨rfl, rfl, rfl⟩

/-- **`vps_wkt_geometry` parses the grammar**, at every level. -/
theorem parses_geometry (levels : ℕ) (top : Bool) (inherited : ℕ) :
    Parses (wktGeometry strtod levels top .any inherited) (IsGeometryText strtod levels inherited)
      fun _ => True := by
  induction levels generalizing top inherited with
  | zero =>
    refine ⟨fun _ _ _ h => ?_, fun _ _ _ _ h => ?_⟩
    · cases h
    · exact absurd h id
  | succ levels ih =>
    constructor
    · intro parser after hroom h
      rw [wktGeometry] at h
      dsimp only at h
      split at h
      next => cases h
      next htype =>
        have hany : wktType parser ≠ .any := fun hany => htype (.inl hany)
        obtain ⟨letters, others, htokens, hword⟩ := (wktType_eq_iff hany).mp rfl
        obtain ⟨marks, follow, hmarks, hfollow, hparser⟩ :=
          wktDimensions_sound inherited parser.next
        generalize wktDimensions inherited parser.next = marked at h hmarks hparser
        obtain ⟨dimensions, middle⟩ := marked
        dsimp only at h hmarks hparser
        subst hparser
        have hreport :=
          report_eq { parser.next with tokens := follow } top (wktType parser) dimensions
        obtain ⟨points, body, hlanguage, hbody, hmoved⟩ :=
          (parses_body hany dimensions (ih false dimensions)).sound _ after
            (by rw [hreport.2.1, hreport.2.2]; exact hroom) h
        rw [hreport.1] at hbody
        rw [WktParser.next, htokens, List.tail_cons] at hfollow
        refine ⟨points, _, ⟨wktType parser, letters, dimensions, marks, body, hword, hany, hmarks,
          hlanguage, rfl⟩, ?_, hmoved.limits.trans hreport.2.1,
            hmoved.count.trans (by rw [hreport.2.2]; rfl),
          hmoved.room⟩
        rw [htokens, List.cons_append, List.append_assoc]
        exact congrArg _ (hfollow.trans (congrArg _ hbody))
    · rintro parser points tokens follow
        ⟨type, letters, dimensions, marks, body, hword, hany, hmarks,
        hlanguage, rfl⟩ htokens - hroom
      rw [List.cons_append, List.append_assoc] at htokens
      have htype : wktType parser = type := (wktType_eq_iff hany).mpr ⟨letters, _, htokens, hword⟩
      have hnext : parser.next.tokens = marks ++ (body ++ follow) := by
        rw [WktParser.next, htokens]
        rfl
      have hstarts : StartsBody (body ++ follow) := by
        obtain ⟨-, letters, rfl, hempty⟩ | hbody := hlanguage
        · exact .inr ⟨letters, follow, rfl, hempty⟩
        · obtain ⟨rest, rfl⟩ := hbody.left
          exact .inl ⟨rest ++ follow, rfl⟩
      have hreport := report_eq { parser.next with tokens := body ++ follow } top type dimensions
      obtain ⟨after, hafter, hfollow, hmoved⟩ :=
        (parses_body hany dimensions (ih false dimensions)).complete _ points body follow hlanguage
          hreport.1 trivial (by rw [hreport.2.1, hreport.2.2]; exact hroom)
      refine ⟨after, ?_, hfollow, hmoved.limits.trans hreport.2.1,
        hmoved.count.trans (by rw [hreport.2.2]; rfl), hmoved.room⟩
      rw [wktGeometry]
      dsimp only
      rw [htype, if_neg (by simp [hany]), wktDimensions_complete hmarks hnext hstarts]
      exact hafter

end Geometries

end Vps
