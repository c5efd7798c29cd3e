import VirtualPostgreSQL.Spatial.Spelling

/-!
# Spatial/TextVerdict — which geometries the text validator accepts

The parser is followed over the tokens of a geometry.  `Reads` says of a production how far it moves
on an item, or at which flaw of it it stops, and how many coordinates it has read by then;
`wktLoop_judged` carries it over a list, and the induction on the geometry over the whole of it:
`bodyJudged`.
-/

namespace Vps

open Machinery

/-- How the numbers of a text are written, and that they are read as what they are. -/
structure NumberFormat (strtod : List UInt8 → Option UInt64) (write : UInt64 → List UInt8) :
    Prop where
  shape : ∀ bits, isFiniteDouble bits → IsNumeral (write bits)
  short : ∀ bits, isFiniteDouble bits → (write bits).length < 96
  exact : ∀ bits, isFiniteDouble bits → strtod (write bits) = some bits

namespace WktParser

/-- The parser behind an item with `n` points, and with an empty geometry or not. -/
def read (parser : WktParser) (follow : List WktToken) (n : ℕ) (empty : Bool) : WktParser :=
  { parser with
    tokens := follow
    result :=
      { parser.result with
        pointCount := parser.result.pointCount + n
        empty := parser.result.empty || empty } }

theorem read_read (parser : WktParser) (follow follow' : List WktToken) (n n' : ℕ)
    (empty empty' : Bool) :
    (parser.read follow n empty).read follow' n' empty' =
      parser.read follow' (n + n') (empty || empty') := by
  simp only [read, Nat.add_assoc, Bool.or_assoc]

theorem next_read (parser : WktParser) (token : WktToken) (follow : List WktToken) (n : ℕ)
    (empty : Bool) : (parser.read (token :: follow) n empty).next = parser.read follow n empty :=
  rfl

end WktParser

/-- What follows an item of a list. -/
def EndsItem (follow : List WktToken) : Prop :=
  ∃ rest, follow = .comma :: rest ∨ follow = .right :: rest

/-- The parser has stopped behind so many coordinates. -/
def StopsAt (limits : SpatialLimits) (parser : WktParser) (points : ℕ) : Prop :=
  parser.limits = limits ∧ parser.result.pointCount = points

/-- **A production reads an item**: it stands behind it, or has stopped at its flaw. -/
def Reads {α : Type} (limits : SpatialLimits) (item : WktParser → Except WktParser WktParser)
    (tokens : α → List WktToken) (points : α → ℕ) (empty : α → Bool) (flaw : ℕ → α → Option ℕ)
    (x : α) : Prop :=
  ∀ (parser : WktParser) (follow : List WktToken), EndsItem follow → parser.limits = limits →
    parser.tokens = tokens x ++ follow → parser.result.pointCount + points x ≤ limits.maxPoints →
    Judged (StopsAt limits) (flaw parser.result.pointCount x) (item parser)
      (parser.read follow (points x) (empty x))

/-! ## Lists -/

section Lists

open Vps.Geometry

variable {α : Type} {limits : SpatialLimits} {item : WktParser → Except WktParser WktParser}
  {tokens : α → List WktToken} {points : α → ℕ} {empty : α → Bool} {flaw : ℕ → α → Option ℕ}

theorem length_le_commaSeparated (items : List (List WktToken)) :
    items.length ≤ (commaSeparated items).length + 1 := by
  induction items with
  | nil => exact Nat.zero_le _
  | cons item items ih =>
    cases items with
    | nil => exact Nat.succ_le_succ (Nat.zero_le _)
    | cons next items =>
      rw [commaSeparated]
      simp only [List.length_append, List.length_cons] at ih ⊢
      omega
      exact List.cons_ne_nil _ _

theorem wktLoop_comma {fault fault' : Option ℕ} (turns done : ℕ) {parser after : WktParser}
    {follow : List WktToken} {r : WktParser × ℕ}
    (h : Judged (StopsAt limits) fault (item parser) after)
    (htokens : after.tokens = .comma :: follow)
    (hnext : Judged (StopsAt limits) fault' (wktLoop item turns (done + 1) after.next) r) :
    Judged (StopsAt limits) (fault.or fault') (wktLoop item (turns + 1) done parser) r := by
  refine h.bind fun _ => ?_
  simp only [htokens]
  exact hnext

theorem wktLoop_right {fault : Option ℕ} (turns done : ℕ) {parser after : WktParser}
    {follow : List WktToken} (h : Judged (StopsAt limits) fault (item parser) after)
    (htokens : after.tokens = .right :: follow) :
    Judged (StopsAt limits) fault (wktLoop item (turns + 1) done parser)
      (after.next, done + 1) := by
  have hend : Judged (StopsAt limits) (fault.or none) (wktLoop item (turns + 1) done parser)
      (after.next, done + 1) := by
    refine h.bind fun _ => ?_
    simp only [htokens]
    exact Judged.ok
  exact hend.congr (Option.or_none ..)

/-- **The loop reads a list** that has an item, if there are turns for all of them. -/
theorem wktLoop_judged {xs : List α}
    (hitems : ∀ x ∈ xs, Reads limits item tokens points empty flaw x) (hne : xs ≠ []) :
    ∀ {turns done : ℕ} {parser : WktParser} {follow : List WktToken}, xs.length ≤ turns →
      parser.limits = limits →
      parser.tokens = commaSeparated (xs.map tokens) ++ .right :: follow →
      parser.result.pointCount + (xs.map points).sum ≤ limits.maxPoints →
      Judged (StopsAt limits) (firstFrom points flaw parser.result.pointCount xs)
        (wktLoop item turns done parser)
        (parser.read follow (xs.map points).sum (xs.any empty), done + xs.length) := by
  induction xs with
  | nil => exact absurd rfl hne
  | cons x xs ih =>
    intro turns done parser follow hturns hlimits htokens hpoints
    obtain ⟨turns, rfl⟩ : ∃ k, turns = k + 1 := Nat.exists_eq_succ_of_ne_zero (by
      rintro rfl
      simp at hturns)
    have hx := hitems x List.mem_cons_self
    simp only [List.map_cons, List.sum_cons] at hpoints
    cases xs with
    | nil =>
      have hread := hx parser (.right :: follow) ⟨follow, .inr rfl⟩ hlimits htokens (by omega)
      have hloop := wktLoop_right turns done hread rfl
      rw [firstFrom, firstFrom, Option.or_none]
      simpa [WktParser.next_read] using hloop
    | cons y ys =>
      have hcomma : parser.tokens = tokens x ++ (.comma ::
          (commaSeparated ((y :: ys).map tokens) ++ .right :: follow)) := by
        rw [htokens]
        simp [commaSeparated]
      have hread := hx parser _ ⟨_, .inl rfl⟩ hlimits hcomma (by omega)
      have hrest := @ih (fun z hz => hitems z (List.mem_cons_of_mem _ hz)) (List.cons_ne_nil _ _)
        turns (done + 1) (parser.read (commaSeparated ((y :: ys).map tokens) ++ .right :: follow)
          (points x) (empty x)) follow (by simpa using hturns) hlimits rfl (by
            simp only [WktParser.read]
            omega)
      have hloop := wktLoop_comma turns done hread rfl hrest
      rw [WktParser.read_read] at hloop
      have hdone : done + 1 + (y :: ys).length = done + (x :: y :: ys).length := by
        simp only [List.length_cons]
        omega
      rw [hdone] at hloop
      exact hloop

/-- The flaw of a list that has to have an item. -/
def listFlaw {α : Type} (points : α → ℕ) (flaw : ℕ → α → Option ℕ) (used : ℕ) (xs : List α) :
    Option ℕ :=
  if xs = [] then some used else firstFrom points flaw used xs

/-- **A list in parentheses** is read if it has an item and none of its items has a flaw. -/
theorem wktList_judged {xs : List α}
    (hitems : ∀ x ∈ xs, Reads limits item tokens points empty flaw x)
    {parser : WktParser} {follow : List WktToken} (hlimits : parser.limits = limits)
    (htokens : parser.tokens = listTokens (xs.map tokens) ++ follow)
    (hpoints : parser.result.pointCount + (xs.map points).sum ≤ limits.maxPoints) :
    Judged (StopsAt limits) (listFlaw points flaw parser.result.pointCount xs) (wktList item parser)
      (parser.read follow (xs.map points).sum (xs.any empty), xs.length) := by
  by_cases hne : xs = []
  · subst hne
    rw [listTokens, List.map_nil, if_pos rfl] at htokens
    unfold wktList
    simp only [htokens, List.singleton_append]
    exact Judged.error ⟨hlimits, rfl⟩
  · rw [listTokens, if_neg (by simpa using hne), List.cons_append, List.append_assoc] at htokens
    have hturns := length_le_commaSeparated (xs.map tokens)
    rw [List.length_map] at hturns
    have hloop := @wktLoop_judged _ _ _ _ _ _ _ xs hitems hne
      ((commaSeparated (xs.map tokens) ++ ([WktToken.right] ++ follow)).length + 1) 0
      parser.next follow (by simp only [List.length_append, List.length_cons]; omega) hlimits
      (by rw [WktParser.next, htokens]; rfl) hpoints
    rw [Nat.zero_add] at hloop
    unfold wktList
    simp only [htokens]
    exact hloop.congr (if_neg hne).symm

end Lists

/-! ## Coordinates, lines, rings and polygons -/

/-- The flaw of a line or a ring: it is too short, which is told when it has been read. -/
def positionsFlaw (minimum used : ℕ) (positions : List (List UInt64)) : Option ℕ :=
  if positions.length < minimum then some (used + positions.length) else none

section Parts

open Vps.Geometry

variable {strtod : List UInt8 → Option UInt64} {write : UInt64 → List UInt8}
  (hformat : NumberFormat strtod write) {axes : SpatialAxes} {limits : SpatialLimits}

include hformat

theorem wktNumbers_read {position : List UInt64} (hfinite : ∀ bits ∈ position, isFiniteDouble bits)
    {parser : WktParser} {follow : List WktToken}
    (htokens : parser.tokens = positionTokens write position ++ follow) :
    wktNumbers strtod position.length parser = .ok { parser with tokens := follow } := by
  induction position generalizing parser with
  | nil =>
    rw [positionTokens, List.map_nil, List.nil_append] at htokens
    rw [List.length_nil, wktNumbers, ← htokens]
  | cons bits position ih =>
    have hbits := hfinite bits List.mem_cons_self
    rw [positionTokens, List.map_cons, List.cons_append] at htokens
    have hnumber : wktNumber strtod parser = .ok parser.next := by
      unfold wktNumber
      simp only [htokens, not_le.mpr (hformat.short bits hbits), if_false,
        hformat.exact bits hbits, hbits, if_true]
    rw [List.length_cons, wktNumbers, hnumber, ok_bind]
    exact ih (fun b hb => hfinite b (List.mem_cons_of_mem _ hb))
      (by rw [WktParser.next, htokens]; rfl)

/-- A coordinate is read. -/
theorem reads_position (limits : SpatialLimits) (position : List UInt64)
    (hposition : IsPosition axes position) :
    Reads limits (wktCoordinate strtod axes.dimensions) (positionTokens write) (fun _ => 1)
      (fun _ => false) (fun _ _ => none) position := by
  intro parser follow hends hlimits htokens hpoints
  have hnumbers := wktNumbers_read hformat hposition.2 htokens
  rw [hposition.1] at hnumbers
  have hroom : ¬parser.result.pointCount = parser.limits.maxPoints := by
    rw [hlimits]
    exact Nat.ne_of_lt (Nat.lt_of_succ_le hpoints)
  have hpoint : wktPoint { parser with tokens := follow } = .ok (parser.read follow 1 false) := by
    unfold wktPoint
    rw [if_neg hroom]
    obtain ⟨rest, rfl | rfl⟩ := hends <;> simp [WktParser.count, WktParser.read]
  unfold wktCoordinate
  rw [hnumbers, ok_bind, hpoint]
  exact Judged.ok

omit hformat in
/-- Coordinates that are too few are read to their end. -/
theorem listFlaw_positions {minimum : ℕ} (hminimum : 0 < minimum) (used : ℕ)
    (positions : List (List UInt64)) :
    (listFlaw (fun _ => 1) (fun _ _ => none) used positions).or
        (if minimum ≤ positions.length then none else some (used + positions.length)) =
      positionsFlaw minimum used positions := by
  cases positions with
  | nil =>
    have hshort : ([] : List (List UInt64)).length < minimum := hminimum
    rw [positionsFlaw, if_pos hshort, if_neg (Nat.not_le.mpr hshort)]
    rfl
  | cons position positions =>
    rw [listFlaw, if_neg (List.cons_ne_nil _ _), firstFrom_eq_none fun _ _ _ => rfl, Option.none_or,
      positionsFlaw]
    by_cases hlong : minimum ≤ (position :: positions).length
    · rw [if_pos hlong, if_neg (Nat.not_lt.mpr hlong)]
    · rw [if_neg hlong, if_pos (Nat.lt_of_not_le hlong)]

/-- **A line or a ring** is read if it has `minimum` coordinates. -/
theorem reads_positions {minimum : ℕ} (hminimum : 0 < minimum) (positions : List (List UInt64))
    (hpositions : ∀ position ∈ positions, IsPosition axes position)
    {parser : WktParser} {follow : List WktToken} (hlimits : parser.limits = limits)
    (htokens : parser.tokens = positionsTokens write positions ++ follow)
    (hpoints : parser.result.pointCount + positions.length ≤ limits.maxPoints) :
    Judged (StopsAt limits) (positionsFlaw minimum parser.result.pointCount positions)
      (wktCoordinateList strtod axes.dimensions minimum parser)
      (parser.read follow positions.length false) := by
  have hsum : (positions.map fun _ => 1).sum = positions.length := by simp
  have hlist := wktList_judged (fun position hmem =>
    reads_position hformat limits position (hpositions position hmem)) hlimits htokens
    (by rw [hsum]; exact hpoints)
  rw [← listFlaw_positions hminimum]
  refine hlist.bind fun _ => ?_
  dsimp only
  rw [hsum]
  split
  · rename_i hlong
    have hempty : (positions.any fun _ => false) = false := by simp
    rw [hempty]
    exact Judged.ok
  · exact Judged.error ⟨hlimits, rfl⟩

/-- **A polygon** is read if it is not empty and no ring of it is too short. -/
theorem reads_polygon (rings : List (List (List UInt64)))
    (hrings : ∀ ring ∈ rings, ∀ position ∈ ring, IsPosition axes position)
    {parser : WktParser} {follow : List WktToken} (hlimits : parser.limits = limits)
    (htokens : parser.tokens = listTokens (rings.map (positionsTokens write)) ++ follow)
    (hpoints : parser.result.pointCount + (rings.map List.length).sum ≤ limits.maxPoints) :
    Judged (StopsAt limits)
      (listFlaw List.length (positionsFlaw 4) parser.result.pointCount rings)
      (wktPolygonBody strtod axes.dimensions parser)
      (parser.read follow (rings.map List.length).sum false) := by
  have hring : ∀ ring ∈ rings, Reads limits (wktCoordinateList strtod axes.dimensions 4)
      (positionsTokens write) List.length (fun _ => false) (positionsFlaw 4) ring := by
    intro ring hmem parser follow _ hlimits htokens hpoints
    exact reads_positions hformat (by decide) ring (hrings ring hmem) hlimits htokens hpoints
  have hlist := wktList_judged hring hlimits htokens hpoints
  have hempty : (rings.any fun _ => false) = false := by simp
  rw [hempty] at hlist
  exact hlist.map (·.1)

/-- A point is read if it is not empty. -/
theorem reads_point (position : Option (List UInt64))
    (hposition : ∀ p ∈ position, IsPosition axes p) {parser : WktParser}
    {follow : List WktToken} (hlimits : parser.limits = limits)
    (htokens : parser.tokens = listTokens (position.toList.map (positionTokens write)) ++ follow)
    (hpoints : parser.result.pointCount + position.toList.length ≤ limits.maxPoints) :
    Judged (StopsAt limits) (positionsFlaw 1 parser.result.pointCount position.toList)
      (wktPointBody strtod axes.dimensions parser)
      (parser.read follow position.toList.length false) := by
  have hlist := reads_positions hformat Nat.one_pos position.toList
    (fun p hp => hposition p (Option.mem_toList.mp hp)) hlimits htokens hpoints
  unfold wktPointBody
  refine (hlist.bind fun hone => (?_ : Judged (StopsAt limits) none _ _)).congr (Option.or_none ..)
  have hcount : position.toList.length = 1 := by
    cases position with
    | none => cases hone
    | some p => rfl
  have hafter : (parser.read follow position.toList.length false).result.pointCount -
      parser.result.pointCount = 1 := by
    simp [WktParser.read, hcount]
  rw [if_pos hafter]
  exact Judged.ok

/-- A member of a `MULTIPOINT`. -/
theorem reads_multiPointItem (position : Option (List UInt64))
    (hposition : ∀ p ∈ position, IsPosition axes p) {parser : WktParser}
    {follow : List WktToken} (hlimits : parser.limits = limits)
    (htokens : parser.tokens = listTokens (position.toList.map (positionTokens write)) ++ follow)
    (hpoints : parser.result.pointCount + position.toList.length ≤ limits.maxPoints) :
    Judged (StopsAt limits) (positionsFlaw 1 parser.result.pointCount position.toList)
      (wktMultiPointItem strtod axes.dimensions parser)
      (parser.read follow position.toList.length false) := by
  cases position with
  | none =>
    -- the word for an empty point is no number
    have hword : parser.tokens = .word (ascii "EMPTY") :: follow := htokens
    obtain ⟨dimensions, hdimensions⟩ : ∃ k, axes.dimensions = k + 1 := by
      cases axes <;> exact ⟨_, rfl⟩
    have herror : wktMultiPointItem strtod axes.dimensions parser = .error parser := by
      unfold wktMultiPointItem
      simp only [hword]
      unfold wktCoordinate
      rw [hdimensions, wktNumbers]
      unfold wktNumber
      simp only [hword]
      rfl
    rw [herror]
    exact Judged.error ⟨hlimits, rfl⟩
  | some p =>
    have hleft : ∃ rest, parser.tokens = .left :: rest := ⟨_, htokens⟩
    obtain ⟨rest, hleft⟩ := hleft
    have hbody := reads_point hformat (some p) hposition hlimits htokens hpoints
    unfold wktMultiPointItem
    simp only [hleft]
    exact hbody

end Parts

/-! ## Geometries -/

namespace Geometry

mutual

/-- Whether the text of a geometry has an empty geometry in it. -/
def textEmpty : Geometry → Bool
  | point _ position => position.isNone
  | lineString _ positions => positions.isEmpty
  | polygon _ rings => rings.isEmpty
  | collection _ kind members =>
    members.isEmpty || (kind == .geometryCollection && textEmptyOf members)

/-- Whether one of the members has. -/
def textEmptyOf : List Geometry → Bool
  | [] => false
  | member :: members => textEmpty member || textEmptyOf members

end

theorem textEmptyOf_eq (members : List Geometry) : textEmptyOf members = members.any textEmpty := by
  induction members with
  | nil => rfl
  | cons member members ih => rw [textEmptyOf, ih, List.any_cons]

mutual

/-- **Where the text of a geometry is refused**: how many coordinates have been read by then, behind
those of what stands before the geometry.  A line and a ring that are too short are refused when
they have been read, an empty member where its coordinates would begin. -/
def textFlaw : ℕ → Geometry → Option ℕ
  | _, point .. => none
  | used, lineString _ positions => if positions = [] then none else positionsFlaw 2 used positions
  | used, polygon _ rings => firstFrom List.length (positionsFlaw 4) used rings
  | used, collection _ kind members => textFlawOf kind used members

/-- Where the text of the members is refused. -/
def textFlawOf (kind : CollectionKind) : ℕ → List Geometry → Option ℕ
  | _, [] => none
  | used, member :: members =>
    (if kind ≠ .geometryCollection ∧ member.isEmpty then some used else textFlaw used member).or
      (textFlawOf kind (used + positions member) members)

end

/-- Where the text of a member is refused. -/
def memberFlaw (kind : CollectionKind) (used : ℕ) (member : Geometry) : Option ℕ :=
  if kind ≠ .geometryCollection ∧ member.isEmpty then some used else textFlaw used member

theorem textFlawOf_eq {kind : CollectionKind} {used : ℕ} {members : List Geometry} :
    textFlawOf kind used members = firstFrom positions (memberFlaw kind) used members := by
  induction members generalizing used with
  | nil => rw [textFlawOf, firstFrom]
  | cons member members ih => rw [textFlawOf, ih, firstFrom, memberFlaw]

theorem positionsFlaw_eq_none {minimum used : ℕ} {positions : List (List UInt64)} :
    positionsFlaw minimum used positions = none ↔ minimum ≤ positions.length := by
  simp [positionsFlaw]

/-- **The geometries whose text is accepted** are those with nothing too short and no empty member
but in a `GEOMETRYCOLLECTION`, wherever they stand. -/
theorem textFlaw_eq_none {geometry : Geometry} {used : ℕ} :
    textFlaw used geometry = none ↔ All LongEnough geometry ∧ All Solid geometry := by
  induction geometry using Geometry.induction generalizing used with
  | point form position => simp [textFlaw, All, LongEnough, Solid]
  | lineString form positions =>
    by_cases hempty : positions = []
    · simp [textFlaw, All, LongEnough, Solid, hempty]
    · simp [textFlaw, All, LongEnough, Solid, hempty, positionsFlaw_eq_none]
  | polygon form rings =>
    simp only [textFlaw, All, LongEnough, Solid]
    constructor
    · intro h
      have hlong : ∀ ring ∈ rings, 4 ≤ ring.length := fun ring hmem => by
        obtain ⟨used', hnone⟩ := exists_of_firstFrom_eq_none h hmem
        exact positionsFlaw_eq_none.mp hnone
      refine ⟨fun ring hmem => .inr (hlong ring hmem), fun ring hmem => ?_⟩
      rintro rfl
      exact absurd (hlong [] hmem) (by decide)
    · rintro ⟨hlong, hsolid⟩
      exact firstFrom_eq_none (fun ring hmem used =>
        positionsFlaw_eq_none.mpr ((hlong ring hmem).resolve_left (hsolid ring hmem))) used
  | collection form kind members ih =>
    rw [textFlaw, textFlawOf_eq, all_collection, all_collection]
    simp only [LongEnough, Solid, true_and]
    have hmember : ∀ member ∈ members, ∀ used, memberFlaw kind used member = none ↔
        (kind = .geometryCollection ∨ ¬member.isEmpty) ∧ All LongEnough member ∧
          All Solid member := by
      intro member hmem used
      unfold memberFlaw
      split
      · rename_i hflaw
        exact iff_of_false (Option.some_ne_none _) fun h =>
          h.1.elim hflaw.1 fun hfull => hfull hflaw.2
      · rename_i hflaw
        rw [ih member hmem]
        exact (and_iff_right (by tauto)).symm
    constructor
    · intro h
      have hall : ∀ member ∈ members, (kind = .geometryCollection ∨ ¬member.isEmpty) ∧
          All LongEnough member ∧ All Solid member := fun member hmem => by
        obtain ⟨used', hnone⟩ := exists_of_firstFrom_eq_none h hmem
        exact (hmember member hmem used').mp hnone
      refine ⟨fun member hmem => (hall member hmem).2.1, ?_, fun member hmem =>
        (hall member hmem).2.2⟩
      by_cases hkind : kind = .geometryCollection
      · exact .inl hkind
      · exact .inr fun member hmem => (hall member hmem).1.resolve_left hkind
    · rintro ⟨hlong, hkind, hsolid⟩
      refine firstFrom_eq_none (fun member hmem used => (hmember member hmem used).mpr
        ⟨?_, hlong member hmem, hsolid member hmem⟩) used
      exact hkind.imp_right fun hfull => hfull member hmem

/-- An empty geometry is written with the word for it. -/
theorem bodyTokens_of_isEmpty {write : UInt64 → List UInt8} {axes : SpatialAxes}
    {geometry : Geometry} (h : geometry.isEmpty) :
    bodyTokens write axes geometry = [.word (ascii "EMPTY")] := by
  cases geometry with
  | point form position =>
    obtain rfl := Option.isNone_iff_eq_none.mp h
    rfl
  | lineString form positions =>
    obtain rfl := List.isEmpty_iff.mp h
    rfl
  | polygon form rings =>
    obtain rfl := List.isEmpty_iff.mp h
    rfl
  | collection form kind members =>
    obtain rfl := List.isEmpty_iff.mp h
    rfl

/-- A geometry that is not empty is written in parentheses. -/
theorem bodyTokens_of_not_isEmpty (write : UInt64 → List UInt8) (axes : SpatialAxes)
    {geometry : Geometry} (h : ¬geometry.isEmpty) :
    ∃ rest, bodyTokens write axes geometry = .left :: rest := by
  have hlist : ∀ items : List (List WktToken), items ≠ [] →
    ∃ rest, listTokens items = .left :: rest :=
    fun items hne => ⟨_, if_neg hne⟩
  cases geometry with
  | point form position =>
    cases position with
    | none => exact absurd rfl h
    | some p => exact ⟨_, rfl⟩
  | lineString form positions =>
    exact hlist _ (by simpa [isEmpty] using h)
  | polygon form rings => exact hlist _ (by simpa [isEmpty] using h)
  | collection form kind members =>
    rw [bodyTokens, memberTokens_eq]
    exact hlist _ (by simpa [isEmpty] using h)

theorem eq_point {geometry : Geometry} (h : geometry.type = .point) :
    ∃ form position, geometry = point form position := by
  cases geometry with
  | point form position => exact ⟨form, position, rfl⟩
  | collection form kind members => cases kind <;> cases h
  | _ => cases h

theorem eq_lineString {geometry : Geometry} (h : geometry.type = .lineString) :
    ∃ form positions, geometry = lineString form positions := by
  cases geometry with
  | lineString form positions => exact ⟨form, positions, rfl⟩
  | collection form kind members => cases kind <;> cases h
  | _ => cases h

theorem eq_polygon {geometry : Geometry} (h : geometry.type = .polygon) :
    ∃ form rings, geometry = polygon form rings := by
  cases geometry with
  | polygon form rings => exact ⟨form, rings, rfl⟩
  | collection form kind members => cases kind <;> cases h
  | _ => cases h

theorem textFlaw_of_isEmpty {geometry : Geometry} (h : geometry.isEmpty) (used : ℕ) :
    textFlaw used geometry = none ∧ geometry.positions = 0 ∧ geometry.textEmpty = true := by
  cases geometry with
  | point form position =>
    obtain rfl := Option.isNone_iff_eq_none.mp h
    exact ⟨rfl, rfl, rfl⟩
  | lineString form positions =>
    obtain rfl := List.isEmpty_iff.mp h
    exact ⟨rfl, rfl, rfl⟩
  | polygon form rings =>
    obtain rfl := List.isEmpty_iff.mp h
    exact ⟨rfl, rfl, rfl⟩
  | collection form kind members =>
    obtain rfl := List.isEmpty_iff.mp h
    exact ⟨rfl, rfl, rfl⟩

end Geometry

section Geometries

open Vps.Geometry

variable {strtod : List UInt8 → Option UInt64} {write : UInt64 → List UInt8}
  (hformat : NumberFormat strtod write) {axes : SpatialAxes} {limits : SpatialLimits}

/-- The type of a geometry is read off its word. -/
theorem wktType_typeWord {type : SpatialGeometryType} (htype : type ≠ .any) {parser : WktParser}
    {follow : List WktToken} (htokens : parser.tokens = .word (typeWord type) :: follow) :
    wktType parser = type := by
  have hword : ∀ word, wktWord parser word = asciiEqual (typeWord type) word := by
    intro word
    simp [wktWord, htokens]
  simp only [wktType, hword]
  cases type with
  | any => exact absurd rfl htype
  | _ => decide

/-- The dimensions of a geometry are read off its axes. -/
theorem wktDimensions_axes {inherited : ℕ} (parser : WktParser)
    (hinherited : inherited = 0 ∨ inherited = axes.dimensions) {body follow : List WktToken}
    (hbody : (∃ rest, body = .left :: rest) ∨ body = [.word (ascii "EMPTY")])
    (htokens : parser.tokens = axes.tokens ++ body ++ follow) :
    wktDimensions inherited parser =
      (axes.dimensions, { parser with tokens := body ++ follow }) := by
  have hword : ∀ letters rest, parser.tokens = .word letters :: rest →
      ∀ word, wktWord parser word = asciiEqual letters word := by
    intro letters rest htokens word
    simp [wktWord, htokens]
  cases axes with
  | xy =>
    have hself : { parser with tokens := body ++ follow } = parser := by
      obtain ⟨tokens, limits, result⟩ := parser
      obtain rfl : tokens = body ++ follow := htokens
      rfl
    have hdimensions : (if inherited = 0 then 2 else inherited) = 2 := by
      obtain h | h := hinherited
      · rw [if_pos h]
      · rw [h]
        rfl
    -- neither a parenthesis nor the word for an empty geometry is one of the axes
    have hnone : wktWord parser "Z" = false ∧ wktWord parser "M" = false ∧
        wktWord parser "ZM" = false := by
      obtain ⟨rest, rfl⟩ | rfl := hbody
      · simp [wktWord, htokens, SpatialAxes.tokens]
      · have hempty := hword (ascii "EMPTY") follow htokens
        rw [hempty, hempty, hempty]
        decide
    simp only [wktDimensions, hnone, Bool.false_eq_true, if_false, hdimensions, hself,
      SpatialAxes.dimensions]
  | xyz =>
    have haxes := hword (ascii "Z") (body ++ follow) htokens
    have hz : asciiEqual (ascii "Z") "Z" = true := by decide
    simp only [wktDimensions, haxes, hz, if_true, SpatialAxes.dimensions, WktParser.next, htokens]
    rfl
  | xym =>
    have haxes := hword (ascii "M") (body ++ follow) htokens
    have hz : asciiEqual (ascii "M") "Z" = false := by decide
    have hm : asciiEqual (ascii "M") "M" = true := by decide
    simp only [wktDimensions, haxes, hz, hm, Bool.false_eq_true, if_false, if_true,
      SpatialAxes.dimensions, WktParser.next, htokens]
    rfl
  | xyzm =>
    have haxes := hword (ascii "ZM") (body ++ follow) htokens
    have hz : asciiEqual (ascii "ZM") "Z" = false := by decide
    have hm : asciiEqual (ascii "ZM") "M" = false := by decide
    have hzm : asciiEqual (ascii "ZM") "ZM" = true := by decide
    simp only [wktDimensions, haxes, hz, hm, hzm, Bool.false_eq_true, if_false, if_true,
      SpatialAxes.dimensions, WktParser.next, htokens]
    rfl

/-- **The body of a geometry is judged**, at any depth that has room for it. -/
def BodyJudged (strtod : List UInt8 → Option UInt64) (write : UInt64 → List UInt8)
    (axes : SpatialAxes) (limits : SpatialLimits) (geometry : Geometry) : Prop :=
  ∀ (levels : ℕ) (parser : WktParser) (follow : List WktToken), geometry.depth ≤ levels + 1 →
    parser.limits = limits → parser.tokens = bodyTokens write axes geometry ++ follow →
    parser.result.pointCount + geometry.positions ≤ limits.maxPoints →
    Judged (StopsAt limits) (geometry.textFlaw parser.result.pointCount)
      (wktBody strtod geometry.type axes.dimensions
        (wktGeometry strtod levels false .any axes.dimensions) parser)
      (parser.read follow geometry.positions geometry.textEmpty)

/-- **A geometry is judged** by its type and its body. -/
theorem wktGeometry_of_body {geometry : Geometry}
    (hbody : BodyJudged strtod write axes limits geometry) {levels : ℕ}
    (hdepth : geometry.depth ≤ levels) (top : Bool) (expected : SpatialGeometryType)
    {inherited : ℕ} (hinherited : inherited = 0 ∨ inherited = axes.dimensions)
    (parser : WktParser) {follow : List WktToken} (hlimits : parser.limits = limits)
    (htokens : parser.tokens = tokens write axes geometry ++ follow)
    (hpoints : parser.result.pointCount + geometry.positions ≤ limits.maxPoints) :
    Judged (StopsAt limits)
      (if expected = .any ∨ expected = geometry.type then
        geometry.textFlaw parser.result.pointCount else some parser.result.pointCount)
      (wktGeometry strtod levels top expected inherited parser)
      ((parser.report top geometry.type axes.dimensions).read follow geometry.positions
        geometry.textEmpty) := by
  obtain ⟨levels, rfl⟩ : ∃ k, levels = k + 1 := Nat.exists_eq_succ_of_ne_zero (by
    rintro rfl
    cases geometry <;> simp [depth] at hdepth)
  have hhead : parser.tokens = .word (typeWord geometry.type) ::
      (axes.tokens ++ bodyTokens write axes geometry ++ follow) := htokens
  have hshape : (∃ rest, bodyTokens write axes geometry = .left :: rest) ∨
      bodyTokens write axes geometry = [.word (ascii "EMPTY")] := by
    by_cases hempty : geometry.isEmpty
    · exact .inr (bodyTokens_of_isEmpty hempty)
    · exact .inl (bodyTokens_of_not_isEmpty write axes hempty)
  have hdimensions := wktDimensions_axes parser.next hinherited hshape
    (by rw [WktParser.next, hhead]; rfl)
  rw [wktGeometry, wktType_typeWord geometry.type_ne_any hhead]
  by_cases hexpected : expected = .any ∨ expected = geometry.type
  · rw [if_pos hexpected, if_neg (by
      have := geometry.type_ne_any
      tauto), hdimensions]
    have hjudged := hbody levels
      (({ parser.next with tokens := bodyTokens write axes geometry ++ follow } : WktParser).report
        top geometry.type axes.dimensions) follow hdepth (by cases top <;> exact hlimits)
      (by cases top <;> rfl) (by cases top <;> exact hpoints)
    have hsame : (({ parser.next with tokens := bodyTokens write axes geometry ++ follow } :
        WktParser).report top geometry.type axes.dimensions).read follow geometry.positions
          geometry.textEmpty =
        (parser.report top geometry.type axes.dimensions).read follow geometry.positions
          geometry.textEmpty := by
      cases top <;> rfl
    have hcount : (({ parser.next with tokens := bodyTokens write axes geometry ++ follow } :
        WktParser).report top geometry.type axes.dimensions).result.pointCount =
          parser.result.pointCount := by
      cases top <;> rfl
    rw [hsame, hcount] at hjudged
    exact hjudged
  · rw [if_neg hexpected, if_pos (by tauto)]
    exact Judged.error ⟨hlimits, rfl⟩

/-- An empty geometry is read as such. -/
theorem bodyJudged_of_isEmpty {geometry : Geometry} (hempty : geometry.isEmpty) :
    BodyJudged strtod write axes limits geometry := by
  intro levels parser follow _ hlimits htokens hpoints
  obtain ⟨hnone, hpositions, htext⟩ := textFlaw_of_isEmpty hempty parser.result.pointCount
  rw [bodyTokens_of_isEmpty hempty] at htokens
  have hword : wktWord parser "EMPTY" = true := by
    simp only [wktWord, htokens, List.singleton_append]
    decide
  have hread : parser.read follow 0 true =
      { parser.next with result := { parser.next.result with empty := true } } := by
    simp [WktParser.read, WktParser.next, htokens]
  unfold wktBody
  rw [if_pos hword, hpositions, htext, hread, hnone]
  exact Judged.ok

/-- The parenthesis of a geometry that is not empty is not the word for an empty one. -/
theorem not_wktWord_empty {geometry : Geometry} (hempty : ¬geometry.isEmpty) {parser : WktParser}
    {follow : List WktToken}
    (htokens : parser.tokens = bodyTokens write axes geometry ++ follow) :
    wktWord parser "EMPTY" = false := by
  obtain ⟨rest, hrest⟩ := bodyTokens_of_not_isEmpty write axes hempty
  simp [wktWord, htokens, hrest]

include hformat

/-- A member of a `MULTIPOINT`, of a `MULTILINESTRING` and of a `MULTIPOLYGON`. -/
theorem reads_pointMember {member : Geometry} (hwell : WellFormed axes member)
    (htype : member.type = .point) :
    Reads limits (wktMultiPointItem strtod axes.dimensions) (bodyTokens write axes) positions
      (fun _ => false) (memberFlaw .multiPoint) member := by
  obtain ⟨form, position, rfl⟩ := eq_point htype
  intro parser follow _ hlimits htokens hpoints
  refine (reads_multiPointItem hformat position hwell hlimits htokens hpoints).congr ?_
  cases position <;> rfl

theorem reads_lineStringMember {member : Geometry} (hwell : WellFormed axes member)
    (htype : member.type = .lineString) :
    Reads limits (wktCoordinateList strtod axes.dimensions 2) (bodyTokens write axes) positions
      (fun _ => false) (memberFlaw .multiLineString) member := by
  obtain ⟨form, positions, rfl⟩ := eq_lineString htype
  intro parser follow _ hlimits htokens hpoints
  refine (reads_positions hformat (by decide) positions hwell.2 hlimits htokens hpoints).congr ?_
  cases positions <;> rfl

theorem reads_polygonMember {member : Geometry} (hwell : WellFormed axes member)
    (htype : member.type = .polygon) :
    Reads limits (wktPolygonBody strtod axes.dimensions) (bodyTokens write axes) positions
      (fun _ => false) (memberFlaw .multiPolygon) member := by
  obtain ⟨form, rings, rfl⟩ := eq_polygon htype
  intro parser follow _ hlimits htokens hpoints
  refine (reads_polygon hformat rings (fun ring hmem => (hwell.2 ring hmem).2) hlimits htokens
    hpoints).congr ?_
  cases rings <;> rfl

omit hformat in
/-- The members of a multi-geometry. -/
theorem judged_multi {form : WkbForm} {kind : CollectionKind} {members : List Geometry}
    (hkind : kind ≠ .geometryCollection) (hne : members ≠ [])
    {item : WktParser → Except WktParser WktParser}
    (hitem : ∀ member ∈ members, Reads limits item (bodyTokens write axes) positions
      (fun _ => false) (memberFlaw kind) member)
    {parser : WktParser} {follow : List WktToken} (hlimits : parser.limits = limits)
    (htokens : parser.tokens = bodyTokens write axes (collection form kind members) ++ follow)
    (hpoints : parser.result.pointCount + (collection form kind members).positions ≤
      limits.maxPoints) :
    Judged (StopsAt limits) ((collection form kind members).textFlaw parser.result.pointCount)
      ((·.1) <$> wktList item parser)
      (parser.read follow (collection form kind members).positions
        (collection form kind members).textEmpty) := by
  rw [bodyTokens, memberTokens_eq] at htokens
  simp only [if_neg hkind] at htokens
  rw [positions, positionsOf_eq] at hpoints ⊢
  have hlist := (wktList_judged hitem hlimits htokens hpoints).map (·.1)
  have htext : (collection form kind members).textEmpty = members.any fun _ => false := by
    have hmulti : (kind == .geometryCollection) = false := beq_false_of_ne hkind
    have hsome : members.isEmpty = false := by simpa using hne
    have hnone : (members.any fun _ => false) = false := by simp
    rw [textEmpty, hmulti, hsome, hnone]
    rfl
  rw [htext, textFlaw, textFlawOf_eq]
  exact hlist.congr (if_neg hne)

/-- **Every geometry is judged**: by induction, the members at one level less. -/
theorem bodyJudged (geometry : Geometry) (hwell : WellFormed axes geometry) :
    BodyJudged strtod write axes limits geometry := by
  induction geometry using Geometry.induction with
  | point form position =>
    by_cases hempty : (point form position).isEmpty
    · exact bodyJudged_of_isEmpty hempty
    intro levels parser follow _ hlimits htokens hpoints
    have hnone : position ≠ none := by simpa [isEmpty] using hempty
    have htext : (point form position).textEmpty = false := Bool.eq_false_iff.mpr hempty
    unfold wktBody
    rw [not_wktWord_empty hempty htokens, if_neg Bool.false_ne_true, htext]
    refine (reads_point hformat position hwell hlimits htokens hpoints).congr ?_
    cases position with
    | none => exact absurd rfl hnone
    | some p => rfl
  | lineString form positions =>
    by_cases hempty : (lineString form positions).isEmpty
    · exact bodyJudged_of_isEmpty hempty
    intro levels parser follow _ hlimits htokens hpoints
    have hne : positions ≠ [] := by simpa [isEmpty] using hempty
    have htext : (lineString form positions).textEmpty = false := Bool.eq_false_iff.mpr hempty
    unfold wktBody
    rw [not_wktWord_empty hempty htokens, if_neg Bool.false_ne_true, htext]
    exact (reads_positions hformat (by decide) positions hwell.2 hlimits htokens hpoints).congr
      (if_neg hne).symm
  | polygon form rings =>
    by_cases hempty : (polygon form rings).isEmpty
    · exact bodyJudged_of_isEmpty hempty
    intro levels parser follow _ hlimits htokens hpoints
    have hne : rings ≠ [] := by simpa [isEmpty] using hempty
    have htext : (polygon form rings).textEmpty = false := Bool.eq_false_iff.mpr hempty
    unfold wktBody
    rw [not_wktWord_empty hempty htokens, if_neg Bool.false_ne_true, htext]
    exact (reads_polygon hformat rings (fun ring hmem => (hwell.2 ring hmem).2) hlimits htokens
      hpoints).congr (if_neg hne)
  | collection form kind members ih =>
    by_cases hempty : (collection form kind members).isEmpty
    · exact bodyJudged_of_isEmpty hempty
    intro levels parser follow hdepth hlimits htokens hpoints
    obtain ⟨⟨-, hfits⟩, hmembers⟩ := all_collection.mp hwell
    have hne : members ≠ [] := by simpa [isEmpty] using hempty
    have hlevels : ∀ member ∈ members, member.depth ≤ levels := fun member hmem =>
      (depth_le_depthOf hmem).trans (Nat.le_of_succ_le_succ hdepth)
    have htype : ∀ {type}, kind ≠ .geometryCollection → wkbMemberType kind.type = type →
        ∀ member ∈ members, member.type = type := fun hkind hmember member hmem =>
      ((hfits member hmem).resolve_left hkind).trans hmember
    unfold wktBody
    rw [not_wktWord_empty hempty htokens, if_neg Bool.false_ne_true]
    cases kind with
    | multiPoint =>
      exact judged_multi (by decide) hne (fun member hmem => reads_pointMember hformat
        (hmembers member hmem) (htype (by decide) rfl member hmem)) hlimits htokens hpoints
    | multiLineString =>
      exact judged_multi (by decide) hne (fun member hmem => reads_lineStringMember hformat
        (hmembers member hmem) (htype (by decide) rfl member hmem)) hlimits htokens hpoints
    | multiPolygon =>
      exact judged_multi (by decide) hne (fun member hmem => reads_polygonMember hformat
        (hmembers member hmem) (htype (by decide) rfl member hmem)) hlimits htokens hpoints
    | geometryCollection =>
      rw [bodyTokens, memberTokens_eq] at htokens
      simp only [if_true] at htokens
      rw [positions, positionsOf_eq] at hpoints ⊢
      have hitem : ∀ member ∈ members,
          Reads limits (wktGeometry strtod levels false .any axes.dimensions)
            (Geometry.tokens write axes) Geometry.positions textEmpty
            (memberFlaw .geometryCollection) member := by
        intro member hmem parser follow _ hlimits htokens hpoints
        refine (wktGeometry_of_body (ih member hmem (hmembers member hmem))
          (hlevels member hmem) false .any (.inr rfl) parser hlimits htokens hpoints).congr ?_
        rw [if_pos (.inl rfl), memberFlaw, if_neg fun h => h.1 rfl]
      have htext : (collection form .geometryCollection members).textEmpty =
          members.any textEmpty := by
        simp [textEmpty, hne, textEmptyOf_eq]
      rw [htext, textFlaw, textFlawOf_eq]
      exact ((wktList_judged hitem hlimits htokens hpoints).map (·.1)).congr (if_neg hne)

end Geometries

end Vps
