import VirtualPostgreSQL.Spatial.Wkt

/-!
# Spatial/Numeral — the numeral at the front of a text

`wktNumeral` goes as far as it can, and gives an exponent without a digit back.  What it cuts off is
a decimal numeral, and one that does not go on: `wktNumeral_eq_some_iff`.
-/

namespace Vps

open Machinery

/-- A text that does not go on with `p`. -/
def Stops (p : UInt8 → Bool) (rest : List UInt8) : Prop := ∀ byte ∈ rest.head?, ¬p byte

/-- A run that something stops is all that is taken. -/
theorem takeWhile_of_stops {p : UInt8 → Bool} {l rest : List UInt8} (hl : ∀ byte ∈ l, p byte)
    (hrest : Stops p rest) : (l ++ rest).takeWhile p = l ∧ (l ++ rest).dropWhile p = rest := by
  rw [List.takeWhile_append_of_pos hl, List.dropWhile_append_of_pos hl]
  cases rest with
  | nil => exact ⟨List.append_nil l, rfl⟩
  | cons byte rest =>
    have hbyte : ¬p byte := hrest byte rfl
    rw [List.takeWhile_cons_of_neg hbyte, List.dropWhile_cons_of_neg hbyte]
    exact ⟨List.append_nil l, rfl⟩

/-! ## Numerals -/

/-- A sign, or none. -/
def IsSign (text : List UInt8) : Prop := text = [] ∨ text = [43] ∨ text = [45]

/-- Nothing, or a point and digits. -/
def IsFraction (text : List UInt8) : Prop :=
  text = [] ∨ ∃ digits, text = 46 :: digits ∧ ∀ byte ∈ digits, isDigit byte

/-- Nothing, or a letter, a sign and digits. -/
def IsExponent (text : List UInt8) : Prop :=
  text = [] ∨ ∃ letter sign digits, text = letter :: (sign ++ digits) ∧
    (letter = 101 ∨ letter = 69) ∧ IsSign sign ∧ digits ≠ [] ∧ ∀ byte ∈ digits, isDigit byte

/-- **A decimal numeral.** -/
def IsNumeral (text : List UInt8) : Prop :=
  ∃ sign whole fraction exponent, text = sign ++ whole ++ fraction ++ exponent ∧ IsSign sign ∧
    (∀ byte ∈ whole, isDigit byte) ∧ IsFraction fraction ∧ (whole ≠ [] ∨ fraction.tail ≠ []) ∧
    IsExponent exponent

/-- A digit is no sign, no point, no letter and no blank. -/
theorem isDigit_facts (byte : UInt8) (h : isDigit byte) :
    byte ≠ 43 ∧ byte ≠ 45 ∧ byte ≠ 46 ∧ ¬isAlpha byte ∧ ¬isSpace byte ∧
      wktPunctuation byte = none :=
  byte_induction (P := fun byte => isDigit byte → byte ≠ 43 ∧ byte ≠ 45 ∧ byte ≠ 46 ∧
    ¬isAlpha byte ∧ ¬isSpace byte ∧ wktPunctuation byte = none) 256 (by decide +kernel) byte
    byte.toNat_lt h

/-- A text that starts with an exponent. -/
def StartsExponent (rest : List UInt8) : Prop :=
  ∃ exponent others, exponent ≠ [] ∧ IsExponent exponent ∧ rest = exponent ++ others

/-- **A numeral that ends where a text goes on**: no digit follows, no point unless the numeral has
a point or an exponent, and no exponent unless it has one. -/
structure NumeralEnds (text rest : List UInt8) : Prop where
  digit : Stops isDigit rest
  point : 46 ∈ rest.head? → 46 ∈ text ∨ 101 ∈ text ∨ 69 ∈ text
  exponent : StartsExponent rest → 101 ∈ text ∨ 69 ∈ text

/-! ## The parts of a numeral -/

theorem stops_dropWhile (p : UInt8 → Bool) (text : List UInt8) : Stops p (text.dropWhile p) := by
  intro byte hbyte
  have := List.head?_dropWhile_not p text
  rw [Option.mem_def.mp hbyte] at this
  simpa using this

theorem digits_takeWhile (text : List UInt8) :
    ∀ byte ∈ text.takeWhile isDigit, isDigit byte :=
  List.all_eq_true.mp List.all_takeWhile

theorem wktSign_eq (text : List UInt8) :
    IsSign (wktSign text).1 ∧ text = (wktSign text).1 ++ (wktSign text).2 := by
  cases text with
  | nil => exact ⟨.inl rfl, rfl⟩
  | cons byte rest =>
    rw [wktSign]
    split
    next hsign =>
      exact ⟨hsign.elim (fun h => .inr (.inl (h ▸ rfl))) fun h => .inr (.inr (h ▸ rfl)), rfl⟩
    next => exact ⟨.inl rfl, rfl⟩

/-- A sign is read off whatever is no sign itself. -/
theorem wktSign_append {sign rest : List UInt8} (hsign : IsSign sign)
    (hrest : ∀ byte ∈ rest.head?, byte ≠ 43 ∧ byte ≠ 45) :
    wktSign (sign ++ rest) = (sign, rest) := by
  obtain rfl | rfl | rfl := hsign
  · cases rest with
    | nil => rfl
    | cons byte rest =>
      obtain ⟨hplus, hminus⟩ := hrest byte rfl
      simp [wktSign, hplus, hminus]
  · rfl
  · rfl

/-- A fraction is taken with all its digits, and left out where there is no point. -/
theorem wktFraction_eq (text : List UInt8) :
    IsFraction (wktFraction text).1 ∧ text = (wktFraction text).1 ++ (wktFraction text).2 ∧
      ((wktFraction text).1 = [] → 46 ∉ (wktFraction text).2.head?) ∧
      ((wktFraction text).1 ≠ [] → Stops isDigit (wktFraction text).2) := by
  cases text with
  | nil => exact ⟨.inl rfl, rfl, fun _ => Option.not_mem_none _, fun h => absurd rfl h⟩
  | cons byte rest =>
    rw [wktFraction]
    split
    next hpoint =>
      subst hpoint
      exact ⟨.inr ⟨_, rfl, digits_takeWhile rest⟩,
        congrArg (46 :: ·) List.takeWhile_append_dropWhile.symm,
          fun h => absurd h (List.cons_ne_nil _ _),
        fun _ => stops_dropWhile _ _⟩
    next hpoint =>
      exact ⟨.inl rfl, rfl, fun _ h => hpoint (Option.some.inj h), fun h => absurd rfl h⟩

/-- A fraction ends where its digits do. -/
theorem wktFraction_append {fraction rest : List UInt8} (hfraction : IsFraction fraction)
    (hdigit : fraction ≠ [] → Stops isDigit rest) (hpoint : fraction = [] → 46 ∉ rest.head?) :
    wktFraction (fraction ++ rest) = (fraction, rest) := by
  obtain rfl | ⟨digits, rfl, hdigits⟩ := hfraction
  · cases rest with
    | nil => rfl
    | cons byte rest =>
      have hbyte : byte ≠ 46 := fun h => hpoint rfl (congrArg some h)
      simp [wktFraction, hbyte]
  · obtain ⟨htake, hdrop⟩ := takeWhile_of_stops hdigits (hdigit (List.cons_ne_nil _ _))
    simp [wktFraction, htake, hdrop]

/-- An exponent is taken with all its digits, and left out only where there is none. -/
theorem wktExponent_eq (text : List UInt8) :
    IsExponent (wktExponent text).1 ∧ text = (wktExponent text).1 ++ (wktExponent text).2 ∧
      ((wktExponent text).1 = [] → ¬StartsExponent (wktExponent text).2) ∧
      ((wktExponent text).1 ≠ [] → Stops isDigit (wktExponent text).2) := by
  cases text with
  | nil =>
    refine ⟨.inl rfl, rfl, ?_, fun h => absurd rfl h⟩
    rintro - ⟨exponent, others, hne, -, h⟩
    exact hne (List.append_eq_nil_iff.mp h.symm).1
  | cons byte rest =>
    rw [wktExponent]
    obtain ⟨hread, hrest⟩ := wktSign_eq rest
    split
    next hexponent =>
      refine ⟨.inr ⟨byte, _, _, rfl, hexponent.1, hread, hexponent.2, digits_takeWhile _⟩,
        ?_, fun h => absurd h (List.cons_ne_nil _ _), fun _ => stops_dropWhile _ _⟩
      rw [List.cons_append, List.append_assoc, List.takeWhile_append_dropWhile, ← hrest]
    next hexponent =>
      refine ⟨.inl rfl, rfl, fun _ => ?_, fun h => absurd rfl h⟩
      rintro ⟨exponent, others, hne, hshape, heq⟩
      obtain rfl | ⟨letter, sign, digits, rfl, hletter, hsign, hdigits, hall⟩ := hshape
      · exact hne rfl
      · obtain ⟨rfl, rfl⟩ := List.cons.inj heq
        obtain ⟨first, digits, rfl⟩ := List.exists_cons_of_ne_nil hdigits
        have hfirst := hall first List.mem_cons_self
        refine hexponent ⟨hletter, ?_⟩
        change ((wktSign (sign ++ first :: digits ++ others)).2.takeWhile isDigit) ≠ []
        rw [List.append_assoc, wktSign_append hsign, List.cons_append,
          List.takeWhile_cons_of_pos hfirst]
        · exact List.cons_ne_nil _ _
        · intro byte hbyte
          obtain rfl : first = byte := Option.some.inj hbyte
          exact ⟨(isDigit_facts first hfirst).1, (isDigit_facts first hfirst).2.1⟩

/-- So does an exponent. -/
theorem wktExponent_append {exponent rest : List UInt8} (hexponent : IsExponent exponent)
    (hdigit : exponent ≠ [] → Stops isDigit rest) (hnone : exponent = [] → ¬StartsExponent rest) :
    wktExponent (exponent ++ rest) = (exponent, rest) := by
  obtain rfl | ⟨letter, sign, digits, rfl, hletter, hsign, hne, hdigits⟩ := hexponent
  · obtain ⟨hshape, heq, -⟩ := wktExponent_eq rest
    have hnil : (wktExponent rest).1 = [] := by
      by_contra hne
      exact hnone rfl ⟨_, _, hne, hshape, heq⟩
    rw [hnil, List.nil_append] at heq
    rw [List.nil_append]
    exact Prod.ext hnil heq.symm
  · obtain ⟨htake, hdrop⟩ := takeWhile_of_stops hdigits (hdigit (List.cons_ne_nil _ _))
    have hsigned : wktSign (sign ++ (digits ++ rest)) = (sign, digits ++ rest) := by
      refine wktSign_append hsign fun byte hbyte => ?_
      obtain ⟨first, digits, rfl⟩ := List.exists_cons_of_ne_nil hne
      obtain rfl : first = byte := by simpa using hbyte
      have := isDigit_facts first (hdigits first List.mem_cons_self)
      exact ⟨this.1, this.2.1⟩
    rw [List.cons_append, List.append_assoc, wktExponent, hsigned]
    simp [htake, hdrop, hletter, hne]

/-! ## Numerals -/

/-- A numeral without an exponent has no letter. -/
theorem not_letter_of_parts {sign whole fraction : List UInt8} (hsign : IsSign sign)
    (hwhole : ∀ byte ∈ whole, isDigit byte) (hfraction : IsFraction fraction) {letter : UInt8}
    (hletter : letter = 101 ∨ letter = 69) : letter ∉ sign ++ whole ++ fraction := by
  have hdigit : ¬isDigit letter := by obtain rfl | rfl := hletter <;> decide
  rw [List.mem_append, List.mem_append]
  rintro ((h | h) | h)
  · obtain rfl | rfl | rfl := hsign
    · cases h
    · obtain rfl := List.mem_singleton.mp h
      obtain h | h := hletter <;> cases h
    · obtain rfl := List.mem_singleton.mp h
      obtain h | h := hletter <;> cases h
  · exact hdigit (hwhole letter h)
  · obtain rfl | ⟨digits, rfl, hdigits⟩ := hfraction
    · cases h
    · rcases List.mem_cons.mp h with rfl | h
      · obtain h | h := hletter <;> cases h
      · exact hdigit (hdigits letter h)

theorem point_notMem_of_parts {sign whole : List UInt8} (hsign : IsSign sign)
    (hwhole : ∀ byte ∈ whole, isDigit byte) : 46 ∉ sign ++ whole := by
  rw [List.mem_append]
  rintro (h | h)
  · obtain rfl | rfl | rfl := hsign
    · cases h
    · cases List.mem_singleton.mp h
    · cases List.mem_singleton.mp h
  · exact absurd (hwhole 46 h) (by decide)

/-- An exponent has its letter. -/
theorem letter_mem_of_exponent {exponent : List UInt8} (h : IsExponent exponent)
    (hne : exponent ≠ []) : 101 ∈ exponent ∨ 69 ∈ exponent := by
  obtain rfl | ⟨letter, sign, digits, rfl, rfl | rfl, -⟩ := h
  · exact absurd rfl hne
  · exact .inl List.mem_cons_self
  · exact .inr List.mem_cons_self

/-- **The lexer reads the numeral in front, as far as it goes.** -/
theorem wktNumeral_eq_some_iff {text number rest : List UInt8} :
    wktNumeral text = some (number, rest) ↔
      text = number ++ rest ∧ IsNumeral number ∧ NumeralEnds number rest := by
  constructor
  · intro h
    obtain ⟨hsign, htext⟩ := wktSign_eq text
    obtain ⟨hfraction, hafter, hpoint, hfractionStops⟩ :=
      wktFraction_eq ((wktSign text).2.dropWhile isDigit)
    obtain ⟨hexponent, hbehind, hnone, hexponentStops⟩ :=
      wktExponent_eq (wktFraction ((wktSign text).2.dropWhile isDigit)).2
    have hdrop := stops_dropWhile isDigit (wktSign text).2
    have hsplit : (wktSign text).2 =
        (wktSign text).2.takeWhile isDigit ++ (wktSign text).2.dropWhile isDigit :=
      List.takeWhile_append_dropWhile.symm
    have hwhole := digits_takeWhile (wktSign text).2
    rw [wktNumeral] at h
    generalize wktSign text = signed at *
    obtain ⟨sign, unsigned⟩ := signed
    dsimp only at *
    generalize unsigned.takeWhile isDigit = whole at *
    generalize unsigned.dropWhile isDigit = after at *
    generalize wktFraction after = fractioned at *
    obtain ⟨fraction, behind⟩ := fractioned
    dsimp only at *
    generalize wktExponent behind = exponented at *
    obtain ⟨exponent, others⟩ := exponented
    dsimp only at *
    split at h
    next => cases h
    next hdigit =>
      cases h
      refine ⟨?_, ⟨sign, whole, fraction, exponent, rfl, hsign, hwhole, hfraction,
        not_and_or.mp hdigit, hexponent⟩, ?_, fun h => ?_, fun h => ?_⟩
      · rw [htext, hsplit, hafter, hbehind]
        simp only [List.append_assoc]
      · -- behind an exponent, a fraction or the whole part there is no digit
        by_cases hexp : exponent = []
        · subst hexp
          rw [List.nil_append] at hbehind
          subst hbehind
          by_cases hfrac : fraction = []
          · subst hfrac
            rw [List.nil_append] at hafter
            exact hafter ▸ hdrop
          · exact hfractionStops hfrac
        · exact hexponentStops hexp
      · by_cases hexp : exponent = []
        · subst hexp
          rw [List.nil_append] at hbehind
          subst hbehind
          refine .inl ?_
          obtain rfl | ⟨digits, rfl, -⟩ := hfraction
          · exact absurd h (hpoint rfl)
          · simp
        · refine .inr ?_
          exact (letter_mem_of_exponent hexponent hexp).imp (List.mem_append_right _)
            (List.mem_append_right _)
      · by_cases hexp : exponent = []
        · exact absurd h (hnone hexp)
        · exact (letter_mem_of_exponent hexponent hexp).imp (List.mem_append_right _)
            (List.mem_append_right _)
  · rintro ⟨rfl,
      ⟨sign, whole, fraction, exponent, rfl, hsign, hwhole, hfraction, hdigit, hexponent⟩, hends⟩
    have hletters := fun letter hletter =>
      @not_letter_of_parts sign whole fraction hsign hwhole hfraction letter hletter
    have hexponented : wktExponent (exponent ++ rest) = (exponent, rest) := by
      refine wktExponent_append hexponent (fun _ => hends.digit) fun hexp hstart => ?_
      subst hexp
      rw [List.append_nil] at hends
      exact (hends.exponent hstart).elim (hletters 101 (.inl rfl)) (hletters 69 (.inr rfl))
    -- what stands behind the digits starts with the letter of an exponent or with the rest
    have hbehind : Stops isDigit (exponent ++ rest) ∧
        (fraction = [] → 46 ∉ (exponent ++ rest).head?) := by
      obtain rfl | ⟨letter, expSign, digits, rfl, hletter, -⟩ := hexponent
      · refine ⟨hends.digit, fun hfrac hpoint => ?_⟩
        subst hfrac
        rw [List.append_nil, List.append_nil] at hends
        rw [List.append_nil] at hletters
        rcases hends.point hpoint with h | h | h
        · exact point_notMem_of_parts hsign hwhole h
        · exact hletters 101 (.inl rfl) h
        · exact hletters 69 (.inr rfl) h
      · have hhead : ∀ byte ∈ ((letter :: (expSign ++ digits)) ++ rest).head?, byte = letter :=
          fun byte hbyte => (Option.some.inj hbyte).symm
        refine ⟨fun byte hbyte => ?_, fun _ hpoint => ?_⟩
        · obtain rfl := hhead byte hbyte
          obtain rfl | rfl := hletter <;> decide
        · have := hhead 46 hpoint
          obtain rfl | rfl := hletter <;> cases this
    have hfractioned :
      wktFraction (fraction ++ (exponent ++ rest)) = (fraction, exponent ++ rest) :=
      wktFraction_append hfraction (fun _ => hbehind.1) hbehind.2
    have hafter : Stops isDigit (fraction ++ (exponent ++ rest)) := by
      obtain rfl | ⟨digits, rfl, -⟩ := hfraction
      · exact hbehind.1
      · intro byte hbyte
        obtain rfl := Option.some.inj hbyte
        decide
    have hsigned : wktSign (sign ++ (whole ++ (fraction ++ (exponent ++ rest)))) =
        (sign, whole ++ (fraction ++ (exponent ++ rest))) := by
      refine wktSign_append hsign fun byte hbyte => ?_
      cases whole with
      | nil =>
        obtain rfl | ⟨digits, rfl, -⟩ := hfraction
        · simp at hdigit
        · obtain rfl := Option.some.inj hbyte
          decide
      | cons first whole =>
        obtain rfl : first = byte := Option.some.inj hbyte
        have := isDigit_facts first (hwhole first List.mem_cons_self)
        exact ⟨this.1, this.2.1⟩
    obtain ⟨htake, hdrop⟩ := takeWhile_of_stops hwhole hafter
    have hsome : ¬(whole = [] ∧ fraction.tail = []) := by tauto
    simp only [List.append_assoc, wktNumeral, hsigned, htake, hdrop, hfractioned, hsome, if_false,
      hexponented]

end Vps
