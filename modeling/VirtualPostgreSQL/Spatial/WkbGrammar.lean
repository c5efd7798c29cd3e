import VirtualPostgreSQL.Spatial.BinaryVerdict

/-!
# Spatial/WkbGrammar — the grammar of well-known binary

A production says how many points some bytes have, behind the points so far; which type words there
are is a parameter.  A function of the parser parses a language if it is sound and complete for it
(`ParsesWkb`): it takes bytes of the language only, and all of them that there is room for.
-/

namespace Vps

open Machinery
open Vps.Geometry (wkbBytes)

/-! ## The grammar -/

/-- Which bytes belong behind so many points, and how many points they have. -/
abbrev WkbLanguage := ℕ → ℕ → List UInt8 → Prop

/-- So many items one after another. -/
def WkbItems (item : WkbLanguage) : ℕ → WkbLanguage
  | 0 => fun _ points bytes => points = 0 ∧ bytes = []
  | count + 1 => fun used points bytes => ∃ first others head tail, item used first head ∧
      WkbItems item count (used + first) others tail ∧ points = first + others ∧
        bytes = head ++ tail

/-- **A counted list**: the count, and as many items; there are none, or not too few. -/
def WkbCounted (little : Bool) (minimum : ℕ) (item : WkbLanguage) : WkbLanguage :=
  fun used points bytes => ∃ count items, count < 2 ^ 32 ∧ (count = 0 ∨ minimum ≤ count) ∧
    WkbItems item count used points items ∧ bytes = wkbBytes little 4 count ++ items

/-- The numbers of a coordinate, which fit a condition. -/
def WkbOrdinates (little : Bool) (dimensions : ℕ) (fits : UInt64 → Bool)
    (bytes : List UInt8) : Prop :=
  ∃ position : List UInt64, position.length = dimensions ∧ (∀ bits ∈ position, fits bits) ∧
    bytes = position.flatMap fun bits => wkbBytes little 8 bits.toNat

/-- A coordinate of finite numbers. -/
def WkbCoordinate (little : Bool) (dimensions : ℕ) : WkbLanguage := fun _ points bytes =>
  points = 1 ∧ WkbOrdinates little dimensions isFiniteDouble bytes

/-- A point: a coordinate, or the numbers that are none of an empty one. -/
def WkbPoint (little : Bool) (dimensions : ℕ) : WkbLanguage := fun used points bytes =>
  WkbCoordinate little dimensions used points bytes ∨
    points = 0 ∧ WkbOrdinates little dimensions isNanDouble bytes

/-- A ring has four coordinates, or none. -/
def WkbRing (little : Bool) (dimensions : ℕ) : WkbLanguage :=
  WkbCounted little 4 (WkbCoordinate little dimensions)

/-- **The body of a type**; a multipoint has no more members than points may come. -/
def WkbBody (maxPoints : ℕ) (little : Bool) (dimensions : ℕ) (member : WkbLanguage) :
    SpatialGeometryType → WkbLanguage
  | .any => fun _ _ _ => False
  | .point => WkbPoint little dimensions
  | .lineString => WkbCounted little 2 (WkbCoordinate little dimensions)
  | .polygon => WkbCounted little 0 (WkbRing little dimensions)
  | .multiPoint => fun used points bytes => ∃ count items, count < 2 ^ 32 ∧
      count ≤ maxPoints - used ∧ WkbItems member count used points items ∧
      bytes = wkbBytes little 4 count ++ items
  | .multiLineString | .multiPolygon | .geometryCollection => WkbCounted little 0 member

/-- The SRID word, if there is one. -/
def WkbSrid (little hasSrid : Bool) (bytes : List UInt8) : Prop :=
  if hasSrid then ∃ srid < 2 ^ 32, bytes = wkbBytes little 4 srid else bytes = []

section Geometry

variable (word : SpatialGeometryType → ℕ → Bool → ℕ → Prop) (maxPoints : ℕ)

/-- **A geometry** of at most so many levels: a byte order, a type word, the SRID if the word says
so, and the body of the type. -/
def IsWkb : ℕ → SpatialGeometryType → ℕ → Bool → WkbLanguage
  | 0, _, _, _ => fun _ _ _ => False
  | levels + 1, expected, inherited, hasSrid => fun used points bytes =>
    ∃ little type dimensions raw srid body, raw < 2 ^ 32 ∧ word type dimensions hasSrid raw ∧
      (expected = .any ∨ expected = type) ∧ (inherited = 0 ∨ inherited = dimensions) ∧
      WkbSrid little hasSrid srid ∧
      WkbBody maxPoints little dimensions (fun used points bytes =>
        ∃ flag, IsWkb levels (wkbMemberType type) dimensions flag used points bytes) type
        used points body ∧
      bytes = (if little then 1 else 0) :: (wkbBytes little 4 raw ++ (srid ++ body))

end Geometry

/-! ## Parsing a language -/

/-- The parser has moved over bytes with so many points. -/
structure MovedWkb (parser : WkbParser) (points : ℕ) (hasSrid : Bool)
    (after : WkbParser) : Prop where
  limits : after.limits = parser.limits
  count : after.result.pointCount = parser.result.pointCount + points
  room : after.result.pointCount ≤ after.limits.maxPoints
  srid : after.result.hasSrid = hasSrid

/-- Two moves are one, over the points of both. -/
theorem MovedWkb.trans {parser middle after : WkbParser} {points points' : ℕ}
    {hasSrid hasSrid' : Bool}
    (h : MovedWkb parser points hasSrid middle) (h' : MovedWkb middle points' hasSrid' after) :
    MovedWkb parser (points + points') hasSrid' after :=
  ⟨h'.limits.trans h.limits, by rw [h'.count, h.count, Nat.add_assoc], h'.room, h'.srid⟩

/-- **A function of the parser parses a language**: it is sound and complete for it. -/
structure ParsesWkb (limits : SpatialLimits) (production : WkbParser → Except WkbParser WkbParser)
    (language : WkbLanguage) : Prop where
  sound : ∀ parser after, parser.limits = limits → parser.result.pointCount ≤ limits.maxPoints →
    production parser = .ok after → ∃ points bytes,
      language parser.result.pointCount points bytes ∧ parser.rest = bytes ++ after.rest ∧
        MovedWkb parser points parser.result.hasSrid after
  complete : ∀ parser points bytes follow, parser.limits = limits →
    language parser.result.pointCount points bytes → parser.rest = bytes ++ follow →
    parser.result.pointCount + points ≤ limits.maxPoints →
    ∃ after, production parser = .ok after ∧ after.rest = follow ∧
      MovedWkb parser points parser.result.hasSrid after

/-! ### Numbers -/

section Numbers

variable {parser : WkbParser}

/-- Bytes are the number that they are read as, in either order. -/
theorem wkbBytes_wkbValue (little : Bool) (bytes : List UInt8) :
    wkbBytes little bytes.length (wkbValue little bytes) = bytes := by
  cases little
  · exact beBytes_beValue bytes
  · exact leBytes_leValue bytes

theorem wkbValue_lt (little : Bool) (bytes : List UInt8) :
    wkbValue little bytes < 256 ^ bytes.length := by
  cases little
  · exact beValue_lt bytes
  · exact leValue_lt bytes

/-- The parser with other bytes left. -/
def WkbParser.behind (parser : WkbParser) (rest : List UInt8) : WkbParser :=
  { parser with rest := rest }

/-- **A word is read just when four bytes are there**, and it is the number they are. -/
theorem wkbUint32_ok_iff {little : Bool} {n : ℕ} {after : WkbParser} :
    wkbUint32 little parser = .ok (n, after) ↔ n < 2 ^ 32 ∧ ∃ follow,
      parser.rest = wkbBytes little 4 n ++ follow ∧ after = parser.behind follow := by
  constructor
  · intro h
    rw [wkbUint32] at h
    split at h
    next => cases h
    next hlength =>
      obtain ⟨rfl, rfl⟩ := Prod.mk.inj (Except.ok.inj h)
      have htake : (parser.rest.take 4).length = 4 := by
        rw [List.length_take]
        omega
      have hlt := wkbValue_lt little (parser.rest.take 4)
      have hbytes := wkbBytes_wkbValue little (parser.rest.take 4)
      rw [htake] at hlt hbytes
      refine ⟨by simpa using hlt, parser.rest.drop 4, ?_, rfl⟩
      rw [hbytes, List.take_append_drop]
  · rintro ⟨hn, follow, hrest, rfl⟩
    exact wkbUint32_append hn hrest

/-- So is a double, of eight. -/
theorem wkbDouble_ok_iff {little : Bool} {bits : UInt64} {after : WkbParser} :
    wkbDouble little parser = .ok (bits, after) ↔ ∃ follow,
      parser.rest = wkbBytes little 8 bits.toNat ++ follow ∧ after = parser.behind follow := by
  constructor
  · intro h
    rw [wkbDouble] at h
    split at h
    next => cases h
    next hlength =>
      obtain ⟨rfl, rfl⟩ := Prod.mk.inj (Except.ok.inj h)
      have htake : (parser.rest.take 8).length = 8 := by
        rw [List.length_take]
        omega
      have hlt := wkbValue_lt little (parser.rest.take 8)
      have hbytes := wkbBytes_wkbValue little (parser.rest.take 8)
      rw [htake] at hlt hbytes
      refine ⟨parser.rest.drop 8, ?_, rfl⟩
      have hvalue : (wkbValue little (parser.rest.take 8)).toUInt64.toNat =
          wkbValue little (parser.rest.take 8) := by
        simp only [Nat.toUInt64_eq, UInt64.toNat_ofNat']
        exact Nat.mod_eq_of_lt (by simpa using hlt)
      rw [hvalue, hbytes, List.take_append_drop]
  · rintro ⟨follow, hrest, rfl⟩
    exact wkbDouble_append hrest

/-- A number that is none is not finite, and every other one that is read is. -/
theorem wkbOrdinates_ok_iff {little : Bool} {dimensions nans found : ℕ} {after : WkbParser} :
    wkbOrdinates little dimensions nans parser = .ok (found, after) ↔
      ∃ (position : List UInt64) (follow : List UInt8), position.length = dimensions ∧
        (∀ bits ∈ position, isNanDouble bits = true ∨ isFiniteDouble bits = true) ∧
        parser.rest = (position.flatMap fun bits => wkbBytes little 8 bits.toNat) ++ follow ∧
        found = nans + position.countP isNanDouble ∧ after = parser.behind follow := by
  induction dimensions generalizing nans parser with
  | zero =>
    rw [wkbOrdinates]
    constructor
    · intro h
      obtain ⟨rfl, rfl⟩ := Prod.mk.inj (Except.ok.inj h)
      exact ⟨[], parser.rest, rfl, fun _ h => absurd h List.not_mem_nil, rfl, rfl, rfl⟩
    · rintro ⟨position, follow, hlength, -, hrest, rfl, rfl⟩
      obtain rfl := List.length_eq_zero_iff.mp hlength
      have hself : parser.behind follow = parser := by
        rw [WkbParser.behind, ← List.nil_append follow, ← List.flatMap_nil, ← hrest]
      rw [hself]
      rfl
  | succ dimensions ih =>
    rw [wkbOrdinates, bind_eq_ok_iff]
    constructor
    · rintro ⟨⟨bits, middle⟩, hdouble, h⟩
      obtain ⟨rest, hrest, rfl⟩ := wkbDouble_ok_iff.mp hdouble
      dsimp only at h
      split at h
      next hnan =>
        obtain ⟨position, follow, rfl, hall, hfollow, rfl, rfl⟩ := ih.mp h
        refine ⟨bits :: position, follow, rfl,
          List.forall_mem_cons.mpr ⟨.inl hnan, hall⟩, ?_, ?_, rfl⟩
        · rw [hrest, List.flatMap_cons, List.append_assoc]
          exact congrArg _ hfollow
        · rw [List.countP_cons_of_pos hnan]
          omega
      next hnan =>
        split at h
        next => cases h
        next hfinite =>
          obtain ⟨position, follow, rfl, hall, hfollow, rfl, rfl⟩ := ih.mp h
          refine ⟨bits :: position, follow, rfl,
            List.forall_mem_cons.mpr ⟨.inr (by simpa using hfinite), hall⟩, ?_, ?_, rfl⟩
          · rw [hrest, List.flatMap_cons, List.append_assoc]
            exact congrArg _ hfollow
          · rw [List.countP_cons_of_neg hnan]
    · rintro ⟨position, follow, hlength, hall, hrest, rfl, rfl⟩
      cases position with
      | nil => cases hlength
      | cons bits position =>
        obtain ⟨hbits, hall⟩ := List.forall_mem_cons.mp hall
        rw [List.flatMap_cons, List.append_assoc] at hrest
        refine ⟨_, wkbDouble_ok_iff.mpr ⟨_, hrest, rfl⟩, ?_⟩
        dsimp only
        cases hnan : isNanDouble bits with
        | true =>
          rw [if_pos rfl]
          refine ih.mpr ⟨position, follow, Nat.succ.inj hlength, hall, rfl, ?_, rfl⟩
          rw [List.countP_cons_of_pos hnan]
          omega
        | false =>
          have hfinite : isFiniteDouble bits = true := hbits.resolve_left (by simp [hnan])
          rw [if_neg Bool.false_ne_true, if_neg (by simp [hfinite])]
          refine ih.mpr ⟨position, follow, Nat.succ.inj hlength, hall, rfl, ?_, rfl⟩
          rw [List.countP_cons_of_neg (by simp [hnan])]

end Numbers

/-! ### Points -/

section Points

variable {limits : SpatialLimits} {little : Bool} {dimensions : ℕ}

/-- A point is read as what its numbers are. -/
theorem wkbPoint_sound {parser after : WkbParser} {empty : Bool} (hlimits : parser.limits = limits)
    (hroom : parser.result.pointCount ≤ limits.maxPoints)
    (h : wkbPoint little dimensions parser = .ok (empty, after)) :
    ∃ bytes, parser.rest = bytes ++ after.rest ∧
      WkbOrdinates little dimensions (if empty then isNanDouble else isFiniteDouble) bytes ∧
      MovedWkb parser (if empty then 0 else 1) parser.result.hasSrid after := by
  obtain ⟨⟨found, middle⟩, hordinates, h⟩ := ok_of_bind h
  obtain ⟨position, follow, hlength, hall, hrest, hfound, rfl⟩ := wkbOrdinates_ok_iff.mp hordinates
  rw [Nat.zero_add] at hfound
  dsimp only at h
  split at h
  next => cases h
  next hsome =>
    split at h
    next hnans =>
      obtain ⟨rfl, rfl⟩ := Prod.mk.inj (Except.ok.inj h)
      have hnan : ∀ bits ∈ position, isNanDouble bits = true := by
        rw [← List.countP_eq_length]
        omega
      exact ⟨_, hrest, ⟨position, hlength, hnan, rfl⟩, rfl, rfl, hlimits ▸ hroom, rfl⟩
    next hnans =>
      split at h
      next => cases h
      next hmore =>
        obtain ⟨rfl, rfl⟩ := Prod.mk.inj (Except.ok.inj h)
        have hfinite : ∀ bits ∈ position, isFiniteDouble bits = true := by
          have hnone : position.countP isNanDouble = 0 := by omega
          rw [List.countP_eq_zero] at hnone
          exact fun bits hbits => (hall bits hbits).resolve_left (hnone bits hbits)
        refine ⟨_, hrest, ⟨position, hlength, hfinite, rfl⟩, rfl, rfl, ?_, rfl⟩
        exact Nat.lt_of_le_of_ne (hlimits ▸ hroom) hmore

/-- A point that there is room for is read. -/
theorem wkbPoint_complete (hdimensions : dimensions ≠ 0) {parser : WkbParser} {empty : Bool}
    {bytes follow : List UInt8} (hrest : parser.rest = bytes ++ follow)
    (hbytes : WkbOrdinates little dimensions (if empty then isNanDouble else isFiniteDouble) bytes)
    (hroom : parser.result.pointCount + (if empty then 0 else 1) ≤ parser.limits.maxPoints) :
    ∃ after, wkbPoint little dimensions parser = .ok (empty, after) ∧ after.rest = follow ∧
      MovedWkb parser (if empty then 0 else 1) parser.result.hasSrid after := by
  obtain ⟨position, hlength, hfits, rfl⟩ := hbytes
  cases empty with
  | true =>
    have hfits : ∀ bits ∈ position, isNanDouble bits = true := hfits
    have hordinates : wkbOrdinates little dimensions 0 parser =
        .ok (dimensions, parser.behind follow) := by
      refine wkbOrdinates_ok_iff.mpr ⟨position, follow, hlength, fun bits h => .inl (hfits bits h),
        hrest, ?_, rfl⟩
      rw [List.countP_eq_length.mpr hfits, Nat.zero_add, hlength]
    refine ⟨parser.behind follow, ?_, rfl, rfl, rfl, hroom, rfl⟩
    rw [wkbPoint, hordinates, ok_bind]
    dsimp only
    rw [if_neg (by simp), if_pos rfl]
  | false =>
    have hordinates : wkbOrdinates little dimensions 0 parser = .ok (0, parser.behind follow) := by
      refine wkbOrdinates_ok_iff.mpr ⟨position, follow, hlength, fun bits h => .inr (hfits bits h),
        hrest, ?_, rfl⟩
      have hnone : position.countP isNanDouble = 0 := by
        rw [List.countP_eq_zero]
        exact fun bits h => by simp [not_isNanDouble (hfits bits h)]
      rw [hnone]
    have hmore : parser.result.pointCount ≠ parser.limits.maxPoints := Nat.ne_of_lt hroom
    refine ⟨(parser.behind follow).count, ?_, rfl, rfl, rfl, hroom, rfl⟩
    rw [wkbPoint, hordinates, ok_bind]
    dsimp only
    rw [if_neg (by simp), if_neg hdimensions.symm]
    exact if_neg hmore

/-- A position is parsed by its grammar, both ways. -/
theorem parsesWkb_position (hdimensions : dimensions ≠ 0) :
    ParsesWkb limits (wkbPosition little dimensions) (WkbCoordinate little dimensions) where
  sound := by
    intro parser after hlimits hroom h
    obtain ⟨⟨empty, middle⟩, hpoint, h⟩ := ok_of_bind h
    obtain ⟨bytes, hrest, hbytes, hmoved⟩ := wkbPoint_sound hlimits hroom hpoint
    dsimp only at h
    cases empty with
    | true => cases h
    | false =>
      obtain rfl := Except.ok.inj h
      exact ⟨1, bytes, ⟨rfl, hbytes⟩, hrest, hmoved⟩
  complete := by
    rintro parser points bytes follow hlimits ⟨rfl, hbytes⟩ hrest hroom
    obtain ⟨after, hpoint, hfollow, hmoved⟩ :=
      @wkbPoint_complete little dimensions hdimensions parser false bytes follow hrest hbytes
        (hlimits ▸ hroom)
    refine ⟨after, ?_, hfollow, hmoved⟩
    rw [wkbPosition, hpoint]
    rfl

theorem MovedWkb.reportEmpty {parser after : WkbParser} {points : ℕ} {hasSrid : Bool}
    (h : MovedWkb parser points hasSrid after) (top empty : Bool) :
    MovedWkb parser points hasSrid (after.reportEmpty top empty) ∧
      (after.reportEmpty top empty).rest = after.rest := by
  cases top with
  | true => cases empty <;> exact ⟨⟨h.limits, h.count, h.room, h.srid⟩, rfl⟩
  | false => exact ⟨⟨h.limits, h.count, h.room, h.srid⟩, rfl⟩

/-- So is a point, which may be empty. -/
theorem parsesWkb_point (hdimensions : dimensions ≠ 0) (top : Bool) :
    ParsesWkb limits (fun parser => do
      let (empty, parser) ← wkbPoint little dimensions parser
      .ok (parser.reportEmpty top empty)) (WkbPoint little dimensions) where
  sound := by
    intro parser after hlimits hroom h
    obtain ⟨⟨empty, middle⟩, hpoint, h⟩ := ok_of_bind h
    obtain ⟨bytes, hrest, hbytes, hmoved⟩ := wkbPoint_sound hlimits hroom hpoint
    obtain rfl := Except.ok.inj h
    obtain ⟨hreport, hsame⟩ := hmoved.reportEmpty top empty
    refine ⟨if empty then 0 else 1, bytes, ?_, hsame ▸ hrest, hreport⟩
    cases empty with
    | true => exact .inr ⟨rfl, hbytes⟩
    | false => exact .inl ⟨rfl, hbytes⟩
  complete := by
    intro parser points bytes follow hlimits hlanguage hrest hroom
    obtain ⟨empty, rfl, hbytes⟩ : ∃ empty : Bool, points = (if empty then 0 else 1) ∧
        WkbOrdinates little dimensions (if empty then isNanDouble else isFiniteDouble) bytes := by
      obtain ⟨rfl, hbytes⟩ | ⟨rfl, hbytes⟩ := hlanguage
      · exact ⟨false, rfl, hbytes⟩
      · exact ⟨true, rfl, hbytes⟩
    obtain ⟨after, hpoint, hfollow, hmoved⟩ :=
      wkbPoint_complete hdimensions hrest hbytes (hlimits ▸ hroom)
    obtain ⟨hreport, hsame⟩ := hmoved.reportEmpty top empty
    exact ⟨after.reportEmpty top empty, by rw [hpoint]; rfl, hsame.trans hfollow, hreport⟩

end Points

/-! ### Lists -/

section Lists

variable {limits : SpatialLimits} {item : WkbParser → Except WkbParser WkbParser}
  {language : WkbLanguage}

/-- **A loop parses its items.** -/
theorem parsesWkb_loop (hitem : ParsesWkb limits item language) (count : ℕ) :
    ParsesWkb limits (wkbLoop item count) (WkbItems language count) := by
  induction count with
  | zero =>
    constructor
    · intro parser after hlimits hroom h
      obtain rfl := Except.ok.inj h
      exact ⟨0, [], ⟨rfl, rfl⟩, rfl, rfl, rfl, hlimits ▸ hroom, rfl⟩
    · rintro parser points bytes follow hlimits ⟨rfl, rfl⟩ hrest hroom
      exact ⟨parser, rfl, hrest, rfl, rfl, hlimits ▸ hroom, rfl⟩
  | succ count ih =>
    constructor
    · intro parser after hlimits hroom h
      obtain ⟨middle, hfirst, h⟩ := ok_of_bind h
      obtain ⟨first, head, hhead, hrest, hmoved⟩ := hitem.sound parser middle hlimits hroom hfirst
      have hmiddle := hmoved.limits.trans hlimits
      obtain ⟨others, tail, htail, hfollow, hmoves⟩ :=
        ih.sound middle after hmiddle (hmiddle ▸ hmoved.room) h
      rw [hmoved.count] at htail
      refine ⟨_, _, ⟨first, others, head, tail, hhead, htail, rfl, rfl⟩, ?_, ?_⟩
      · rw [hrest, hfollow, List.append_assoc]
      · rw [hmoved.srid] at hmoves
        exact hmoved.trans hmoves
    · rintro parser points bytes follow hlimits ⟨first, others, head, tail, hhead, htail, rfl, rfl⟩
        hrest hroom
      rw [List.append_assoc] at hrest
      obtain ⟨middle, hfirst, hmiddle, hmoved⟩ :=
        hitem.complete parser first head (tail ++ follow) hlimits hhead hrest (by omega)
      rw [← hmoved.count] at htail
      obtain ⟨after, hafter, hfollow, hmoves⟩ := ih.complete middle others tail follow
        (hmoved.limits.trans hlimits) htail hmiddle (by rw [hmoved.count]; omega)
      refine ⟨after, ?_, hfollow, ?_⟩
      · rw [wkbLoop, hfirst, ok_bind]
        exact hafter
      · rw [hmoved.srid] at hmoves
        exact hmoved.trans hmoves

/-- Each coordinate is a point. -/
theorem points_of_coordinates {little : Bool} {dimensions count used points : ℕ}
    {bytes : List UInt8}
    (h : WkbItems (WkbCoordinate little dimensions) count used points bytes) : points = count := by
  induction count generalizing used points bytes with
  | zero => exact h.1
  | succ count ih =>
    obtain ⟨first, others, head, tail, hfirst, hothers, rfl, -⟩ := h
    rw [hfirst.1, ih hothers, Nat.add_comm]

/-- So is a ring. -/
theorem parsesWkb_ring {little : Bool} {dimensions : ℕ} (hdimensions : dimensions ≠ 0) :
    ParsesWkb limits (wkbRing little dimensions) (WkbRing little dimensions) where
  sound := by
    intro parser after hlimits hroom h
    obtain ⟨⟨count, middle⟩, hcount, h⟩ := ok_of_bind h
    obtain ⟨hlt, follow, hrest, rfl⟩ := wkbUint32_ok_iff.mp hcount
    dsimp only at h
    split at h
    next => cases h
    next hlong =>
      obtain ⟨points, items, hitems, hfollow, hmoved⟩ :=
        (parsesWkb_loop (parsesWkb_position hdimensions) count).sound (parser.behind follow) after
          hlimits hroom h
      refine ⟨points, _, ⟨count, items, hlt, by omega, hitems, rfl⟩, ?_,
        hmoved.limits, hmoved.count, hmoved.room, hmoved.srid⟩
      rw [hrest, List.append_assoc]
      exact congrArg _ hfollow
  complete := by
    rintro parser points bytes follow hlimits ⟨count, items, hlt, hlong, hitems, rfl⟩ hrest hroom
    rw [List.append_assoc] at hrest
    have hcount := wkbUint32_ok_iff.mpr ⟨hlt, _, hrest, rfl⟩
    obtain ⟨after, hafter, hfollow, hmoved⟩ :=
      (parsesWkb_loop (parsesWkb_position hdimensions) count).complete
        (parser.behind (items ++ follow)) points items follow hlimits hitems rfl hroom
    refine ⟨after, ?_, hfollow, hmoved.limits, hmoved.count, hmoved.room, hmoved.srid⟩
    have hpoints := points_of_coordinates hitems
    have hfits : ¬((count ≠ 0 ∧ count < 4) ∨ count > (parser.behind (items ++ follow)).room) := by
      simp only [WkbParser.room, WkbParser.behind, hlimits]
      omega
    rw [wkbRing, hcount, ok_bind]
    dsimp only
    rw [if_neg hfits]
    exact hafter

/-- What `wkbBody` does for a list of items. -/
def wkbListBody (little top limited : Bool) (minimum : ℕ)
    (item : WkbParser → Except WkbParser WkbParser) (parser : WkbParser) :
    Except WkbParser WkbParser := do
  let (count, parser) ← wkbUint32 little parser
  if count > parser.room ∧ limited then .error parser.exceeded
  else if count ≠ 0 ∧ count < minimum then .error (parser.reportEmpty top (count == 0))
  else wkbLoop item count (parser.reportEmpty top (count == 0))

/-- So is a body with a count, under the limit where there is one. -/
theorem parsesWkb_counted (hitem : ParsesWkb limits item language) (little top limited : Bool)
    (minimum : ℕ) : ParsesWkb limits (wkbListBody little top limited minimum item)
      fun used points bytes => ∃ count items, count < 2 ^ 32 ∧ (count = 0 ∨ minimum ≤ count) ∧
        (limited → count ≤ limits.maxPoints - used) ∧ WkbItems language count used points items ∧
        bytes = wkbBytes little 4 count ++ items where
  sound := by
    intro parser after hlimits hroom h
    obtain ⟨⟨count, middle⟩, hcount, h⟩ := ok_of_bind h
    obtain ⟨hlt, follow, hrest, rfl⟩ := wkbUint32_ok_iff.mp hcount
    dsimp only at h
    split at h
    next => cases h
    next hlimited =>
      split at h
      next => cases h
      next hlong =>
        have hbehind : MovedWkb parser 0 parser.result.hasSrid (parser.behind follow) :=
          ⟨rfl, rfl, hlimits ▸ hroom, rfl⟩
        obtain ⟨hreport, hsame⟩ := hbehind.reportEmpty top (count == 0)
        obtain ⟨points, items, hitems, hfollow, hmoved⟩ :=
          (parsesWkb_loop hitem count).sound _ after
          (hreport.limits.trans hlimits) (by rw [hreport.count]; exact hroom) h
        rw [hreport.count, Nat.add_zero] at hitems
        rw [hreport.srid] at hmoved
        have hmoves := hreport.trans hmoved
        rw [Nat.zero_add] at hmoves
        refine ⟨points, _, ⟨count, items, hlt, by omega, fun htrue => ?_, hitems, rfl⟩, ?_, hmoves⟩
        · rw [← hlimits]
          exact Nat.le_of_not_lt fun hgt => hlimited ⟨hgt, htrue⟩
        · rw [hrest, List.append_assoc]
          exact congrArg _ (hsame.symm.trans hfollow)
  complete := by
    rintro parser points bytes follow hlimits
      ⟨count, items, hlt, hlong, hlimited, hitems, rfl⟩ hrest hroom
    rw [List.append_assoc] at hrest
    have hcount := wkbUint32_ok_iff.mpr ⟨hlt, _, hrest, rfl⟩
    have hbehind : MovedWkb parser 0 parser.result.hasSrid (parser.behind (items ++ follow)) :=
      ⟨rfl, rfl, (Nat.le_add_right _ _).trans (hlimits ▸ hroom), rfl⟩
    obtain ⟨hreport, hsame⟩ := hbehind.reportEmpty top (count == 0)
    have hused :
      ((parser.behind (items ++ follow)).reportEmpty top (count == 0)).result.pointCount =
        parser.result.pointCount := hreport.count
    obtain ⟨after, hafter, hfollow, hmoved⟩ := (parsesWkb_loop hitem count).complete
      ((parser.behind (items ++ follow)).reportEmpty top (count == 0)) points items follow
      (hreport.limits.trans hlimits) (by rwa [hused]) hsame (by rwa [hused])
    rw [hreport.srid] at hmoved
    have hmoves := hreport.trans hmoved
    rw [Nat.zero_add] at hmoves
    refine ⟨after, ?_, hfollow, hmoves⟩
    have hfits : ¬(count > (parser.behind (items ++ follow)).room ∧ limited = true) := by
      rintro ⟨hgt, htrue⟩
      have := hlimited htrue
      rw [← hlimits] at this
      exact absurd this (Nat.not_le_of_lt hgt)
    rw [wkbListBody, hcount, ok_bind]
    dsimp only
    rw [if_neg hfits, if_neg (by omega)]
    exact hafter

/-- A list that no limit is asked about. -/
theorem parsesWkb_list (hitem : ParsesWkb limits item language) (little top : Bool) :
    ParsesWkb limits (wkbListBody little top false 0 item) (WkbCounted little 0 language) where
  sound := by
    intro parser after hlimits hroom h
    obtain ⟨points, bytes, ⟨count, items, hlt, hlong, -, hitems⟩, hrest⟩ :=
      (parsesWkb_counted hitem little top false 0).sound parser after hlimits hroom h
    exact ⟨points, bytes, ⟨count, items, hlt, hlong, hitems⟩, hrest⟩
  complete := by
    rintro parser points bytes follow hlimits ⟨count, items, hlt, hlong, hitems⟩ hrest hroom
    exact (parsesWkb_counted hitem little top false 0).complete parser points bytes follow hlimits
      ⟨count, items, hlt, hlong, fun h => absurd h Bool.false_ne_true, hitems⟩ hrest hroom

end Lists

/-! ### Geometries -/

section Geometries

variable {limits : SpatialLimits} {little top : Bool} {dimensions : ℕ}

/-- The body of a list is a counted list. -/
theorem wkbBody_eq {type : SpatialGeometryType} (hpoint : type ≠ .point)
    (member : SpatialGeometryType → ℕ → WkbParser → Except WkbParser WkbParser)
    (parser : WkbParser) :
    wkbBody little top type dimensions member parser =
      wkbListBody little top (type == .lineString || type == .multiPoint)
        (if type = .lineString then 2 else 0)
        (if type = .lineString then wkbPosition little dimensions
          else if type = .polygon then wkbRing little dimensions
          else member (wkbMemberType type) dimensions) parser := by
  rw [wkbBody, if_neg hpoint, wkbListBody]
  cases wkbUint32 little parser with
  | error e => rfl
  | ok r =>
    rw [ok_bind, ok_bind]
    cases type with
    | point => exact absurd rfl hpoint
    | _ => simp

/-- **Every body is parsed by its grammar**, if the geometries in it are. -/
theorem parsesWkb_body {type : SpatialGeometryType} (htype : type ≠ .any)
    (hdimensions : dimensions ≠ 0)
    {member : SpatialGeometryType → ℕ → WkbParser → Except WkbParser WkbParser}
    {language : WkbLanguage}
    (hmember : ParsesWkb limits (member (wkbMemberType type) dimensions) language) :
    ParsesWkb limits (wkbBody little top type dimensions member)
      (WkbBody limits.maxPoints little dimensions language type) := by
  by_cases hpoint : type = .point
  · subst hpoint
    exact parsesWkb_point hdimensions top
  · have hbody : wkbBody little top type dimensions member = _ :=
      funext fun parser => wkbBody_eq hpoint member parser
    rw [hbody]
    cases type with
    | any => exact absurd rfl htype
    | point => exact absurd rfl hpoint
    | lineString =>
      have hlist := @parsesWkb_counted limits _ _
        (@parsesWkb_position limits little dimensions hdimensions) little top true 2
      constructor
      · intro parser after hlimits hroom h
        obtain ⟨points, bytes, ⟨count, items, hlt, hlong, -, hitems⟩, hrest⟩ :=
          hlist.sound parser after hlimits hroom h
        exact ⟨points, bytes, ⟨count, items, hlt, hlong, hitems⟩, hrest⟩
      · rintro parser points bytes follow hlimits ⟨count, items, hlt, hlong, hitems⟩ hrest hroom
        have hpoints := points_of_coordinates hitems.1
        exact hlist.complete parser points bytes follow hlimits
          ⟨count, items, hlt, hlong, fun _ => by omega, hitems⟩ hrest hroom
    | multiPoint =>
      have hlist := parsesWkb_counted hmember little top true 0
      constructor
      · intro parser after hlimits hroom h
        obtain ⟨points, bytes, ⟨count, items, hlt, -, hlimited, hitems⟩, hrest⟩ :=
          hlist.sound parser after hlimits hroom h
        exact ⟨points, bytes, ⟨count, items, hlt, hlimited rfl, hitems⟩, hrest⟩
      · rintro parser points bytes follow hlimits ⟨count, items, hlt, hlimited, hitems⟩ hrest hroom
        exact hlist.complete parser points bytes follow hlimits
          ⟨count, items, hlt, .inr (Nat.zero_le _), fun _ => hlimited, hitems⟩ hrest hroom
    | polygon => exact parsesWkb_list (parsesWkb_ring hdimensions) little top
    | multiLineString => exact parsesWkb_list hmember little top
    | multiPolygon => exact parsesWkb_list hmember little top
    | geometryCollection => exact parsesWkb_list hmember little top

theorem wkbSrid_ok_iff {hasSrid : Bool} {srid : ℕ} {parser after : WkbParser} :
    wkbSrid little hasSrid parser = .ok (srid, after) →
      ∃ bytes follow, WkbSrid little hasSrid bytes ∧ parser.rest = bytes ++ follow ∧
        after = parser.behind follow := by
  intro h
  cases hasSrid with
  | true =>
    obtain ⟨hlt, follow, hrest, rfl⟩ := wkbUint32_ok_iff.mp h
    exact ⟨_, follow, ⟨srid, hlt, rfl⟩, hrest, rfl⟩
  | false =>
    obtain ⟨-, rfl⟩ := Prod.mk.inj (Except.ok.inj h)
    exact ⟨[], parser.rest, rfl, rfl, rfl⟩

/-- An SRID that is there is read. -/
theorem wkbSrid_complete {hasSrid : Bool} {parser : WkbParser} {bytes follow : List UInt8}
    (hbytes : WkbSrid little hasSrid bytes) (hrest : parser.rest = bytes ++ follow) :
    ∃ srid, wkbSrid little hasSrid parser = .ok (srid, parser.behind follow) := by
  cases hasSrid with
  | true =>
    obtain ⟨srid, hlt, rfl⟩ := hbytes
    exact ⟨srid, wkbUint32_ok_iff.mpr ⟨hlt, follow, hrest, rfl⟩⟩
  | false =>
    obtain rfl : bytes = [] := hbytes
    have hself : parser.behind follow = parser := by
      rw [WkbParser.behind, ← List.nil_append follow, ← hrest]
    exact ⟨0, by rw [hself]; rfl⟩

theorem movedWkb_report {parser : WkbParser} {follow : List UInt8}
    (hroom : parser.result.pointCount ≤ parser.limits.maxPoints) (top : Bool)
    (type : SpatialGeometryType) (dimensions : ℕ) (hasSrid : Bool) (srid : ℕ) :
    MovedWkb parser 0 (if top then hasSrid else parser.result.hasSrid)
      ((parser.behind follow).report top type dimensions hasSrid srid) ∧
      ((parser.behind follow).report top type dimensions hasSrid srid).rest = follow := by
  cases top with
  | true => exact ⟨⟨rfl, rfl, hroom, rfl⟩, rfl⟩
  | false => exact ⟨⟨rfl, rfl, hroom, rfl⟩, rfl⟩

variable {word : SpatialGeometryType → ℕ → Bool → ℕ → Prop}
  (hword : ∀ type dimensions hasSrid raw, raw < 2 ^ 32 →
    (wkbHeader raw = some (type, dimensions, hasSrid) ↔ word type dimensions hasSrid raw))
  (hvalid : ∀ type dimensions hasSrid raw, word type dimensions hasSrid raw →
    type ≠ .any ∧ dimensions ≠ 0)

include hword hvalid

/-- **`vps_wkb_geometry` parses the grammar**, at every level; the outermost one reports its
SRID. -/
theorem parsesWkb_geometry (limits : SpatialLimits) (levels : ℕ) (top : Bool)
    (expected : SpatialGeometryType) (inherited : ℕ) :
    (∀ parser after, parser.limits = limits → parser.result.pointCount ≤ limits.maxPoints →
      wkbGeometry levels top expected inherited parser = .ok after → ∃ flag points bytes,
        IsWkb word limits.maxPoints levels expected inherited flag parser.result.pointCount points
          bytes ∧ parser.rest = bytes ++ after.rest ∧
        MovedWkb parser points (if top then flag else parser.result.hasSrid) after) ∧
    ∀ parser flag points bytes follow, parser.limits = limits →
      IsWkb word limits.maxPoints levels expected inherited flag parser.result.pointCount points
        bytes → parser.rest = bytes ++ follow →
      parser.result.pointCount + points ≤ limits.maxPoints →
      ∃ after, wkbGeometry levels top expected inherited parser = .ok after ∧ after.rest = follow ∧
        MovedWkb parser points (if top then flag else parser.result.hasSrid) after := by
  induction levels generalizing top expected inherited with
  | zero =>
    refine ⟨fun _ _ _ _ h => ?_, fun _ _ _ _ _ _ h => ?_⟩
    · cases h
    · exact absurd h id
  | succ levels ih =>
    have hmember : ∀ type dimensions, ParsesWkb limits
        (wkbGeometry levels false (wkbMemberType type) dimensions) fun used points bytes =>
          ∃ flag, IsWkb word limits.maxPoints levels (wkbMemberType type) dimensions
            flag used points
            bytes := by
      intro type dimensions
      obtain ⟨hsound, hcomplete⟩ := ih false (wkbMemberType type) dimensions
      constructor
      · intro parser after hlimits hroom h
        obtain ⟨flag, points, bytes, hlanguage, hrest⟩ := hsound parser after hlimits hroom h
        exact ⟨points, bytes, ⟨flag, hlanguage⟩, hrest⟩
      · rintro parser points bytes follow hlimits ⟨flag, hlanguage⟩ hrest hroom
        exact hcomplete parser flag points bytes follow hlimits hlanguage hrest hroom
    constructor
    · intro parser after hlimits hroom h
      rw [wkbGeometry] at h
      cases hrest : parser.rest with
      | nil =>
        rw [hrest] at h
        cases h
      | cons order tail =>
        rw [hrest] at h
        dsimp only at h
        have hdrop : parser.drop 1 = parser.behind tail := by
          rw [WkbParser.drop, hrest]
          rfl
        rw [hdrop] at h
        split at h
        next => cases h
        next horder =>
          have hlittle : order = if (order == 1) = true then 1 else 0 := by
            by_cases hone : order = 1
            · rw [hone]
              rfl
            · have hzero : order = 0 := by
                by_contra hzero
                exact horder ⟨hzero, hone⟩
              rw [hzero]
              rfl
          generalize (order == 1) = little at h hlittle
          obtain ⟨⟨raw, middle⟩, hraw, h⟩ := ok_of_bind h
          obtain ⟨hlt, behindRaw, htail, rfl⟩ := wkbUint32_ok_iff.mp hraw
          dsimp only at h
          cases hheader : wkbHeader raw with
          | none =>
            rw [hheader] at h
            cases h
          | some header =>
            obtain ⟨type, dimensions, flag⟩ := header
            have hhead := (hword type dimensions flag raw hlt).mp hheader
            obtain ⟨hany, hdimensions⟩ := hvalid type dimensions flag raw hhead
            rw [hheader] at h
            dsimp only at h
            split at h
            next => cases h
            next haccept =>
              obtain ⟨⟨srid, middle⟩, hsrid, h⟩ := ok_of_bind h
              obtain ⟨sridBytes, follow, hsridBytes, hbehind, rfl⟩ := wkbSrid_ok_iff hsrid
              dsimp only at h
              obtain ⟨hreport, hsame⟩ := @movedWkb_report parser follow (hlimits ▸ hroom) top type
                dimensions flag srid
              obtain ⟨points, body, hbody, hfollow, hmoved⟩ :=
                (@parsesWkb_body limits little top dimensions type hany hdimensions _ _
                  (hmember type dimensions)).sound _ after (hreport.limits.trans hlimits)
                  (by have := hreport.count; omega) h
              have hused :
                ((parser.behind follow).report top type dimensions flag srid).result.pointCount =
                  parser.result.pointCount := hreport.count
              rw [hused] at hbody
              have hmoves := hreport.trans hmoved
              rw [Nat.zero_add, hreport.srid] at hmoves
              refine ⟨flag, points, _, ⟨little, type, dimensions, raw, sridBytes, body, hlt, hhead,
                by tauto, by tauto, hsridBytes, hbody, rfl⟩, ?_, hmoves⟩
              have hrest' : tail = wkbBytes little 4 raw ++ behindRaw := htail
              have hbehind' : behindRaw = sridBytes ++ follow := hbehind
              rw [hlittle, hrest', hbehind', ← hsame, hfollow]
              simp only [List.cons_append, List.append_assoc]
    · rintro parser flag points bytes follow hlimits
        ⟨little, type, dimensions, raw, srid, body, hraw,
        hhead, hexpected, hinherited, hsrid, hbody, rfl⟩ hrest hroom
      obtain ⟨hany, hdimensions⟩ := hvalid type dimensions flag raw hhead
      have hheader := (hword type dimensions flag raw hraw).mpr hhead
      rw [List.cons_append, List.append_assoc, List.append_assoc] at hrest
      have hdrop : parser.drop 1 =
          parser.behind (wkbBytes little 4 raw ++ (srid ++ (body ++ follow))) := by
        rw [WkbParser.drop, hrest]
        simp [WkbParser.behind]
      have hraw' := @wkbUint32_ok_iff
        (parser.behind (wkbBytes little 4 raw ++ (srid ++ (body ++ follow)))) little raw _ |>.mpr
        ⟨hraw, srid ++ (body ++ follow), rfl, rfl⟩
      obtain ⟨number, hnumber⟩ := @wkbSrid_complete little flag
        (parser.behind (srid ++ (body ++ follow))) srid (body ++ follow) hsrid rfl
      obtain ⟨hreport, hsame⟩ := @movedWkb_report parser (body ++ follow)
        (hlimits ▸ (Nat.le_add_right _ _).trans hroom) top type dimensions flag number
      have hused : ((parser.behind (body ++ follow)).report top type dimensions flag
          number).result.pointCount = parser.result.pointCount := hreport.count
      obtain ⟨after, hafter, hfollow, hmoved⟩ :=
        (@parsesWkb_body limits little top dimensions type hany hdimensions _ _
          (hmember type dimensions)).complete _ points body follow (hreport.limits.trans hlimits)
          (by rwa [hused]) hsame (by rwa [hused])
      have hmoves := hreport.trans hmoved
      rw [Nat.zero_add, hreport.srid] at hmoves
      refine ⟨after, ?_, hfollow, hmoves⟩
      have horder : ¬((if little then (1 : UInt8) else 0) ≠ 0 ∧
          (if little then (1 : UInt8) else 0) ≠ 1) := by cases little <;> decide
      have hlittle : ((if little then (1 : UInt8) else 0) == 1) = little := by cases little <;> rfl
      have haccept : ¬((expected ≠ .any ∧ expected ≠ type) ∨
          (inherited ≠ 0 ∧ inherited ≠ dimensions)) := by tauto
      rw [wkbGeometry, hrest]
      dsimp only
      rw [if_neg horder, hdrop, hlittle, hraw', ok_bind]
      dsimp only
      rw [hheader]
      dsimp only
      rw [if_neg haccept]
      have hsridRead : wkbSrid little flag ((parser.behind (wkbBytes little 4 raw ++
          (srid ++ (body ++ follow)))).behind (srid ++ (body ++ follow))) =
          .ok (number, parser.behind (body ++ follow)) := hnumber
      rw [hsridRead, ok_bind]
      exact hafter

end Geometries

end Vps
