import VirtualPostgreSQL.Spatial.Geometry
import VirtualPostgreSQL.Spatial.Lexing

/-!
# Spatial/Spelling — the texts of a list of tokens

A text spells a list of tokens if it consists of their texts, with any spaces around them and with
something between two of them that would otherwise run together.  The lexer gives the tokens back:
`wktTokens_of_spells`.
-/

namespace Vps

open Machinery

/-! ## Where a token ends -/

/-- A byte at which a word and a number end. -/
def isBreak (byte : UInt8) : Bool := isSpace byte || (wktPunctuation byte).isSome

/-- A text that ends a word and a number. -/
def EndsToken (rest : List UInt8) : Prop := ∀ byte ∈ rest.head?, isBreak byte

/-- A break is part of no word and of no number. -/
theorem isBreak_facts (byte : UInt8) (h : isBreak byte) :
    ¬isAlpha byte ∧ ¬isDigit byte ∧ byte ≠ 43 ∧ byte ≠ 45 ∧ byte ≠ 46 ∧ byte ≠ 101 ∧ byte ≠ 69 :=
  byte_induction (P := fun byte => isBreak byte → ¬isAlpha byte ∧ ¬isDigit byte ∧ byte ≠ 43 ∧
    byte ≠ 45 ∧ byte ≠ 46 ∧ byte ≠ 101 ∧ byte ≠ 69) 256 (by decide +kernel) byte byte.toNat_lt h

theorem EndsToken.stops {rest : List UInt8} (h : EndsToken rest) {p : UInt8 → Bool}
    (hp : ∀ byte, isBreak byte → ¬p byte) : Stops p rest :=
  fun byte hbyte => hp byte (h byte hbyte)

/-! ## Numerals -/

/-- A break ends a numeral. -/
theorem EndsToken.numeralEnds {rest : List UInt8} (h : EndsToken rest) (text : List UInt8) :
    NumeralEnds text rest where
  digit := h.stops fun byte hbyte => (isBreak_facts byte hbyte).2.1
  point hpoint := absurd rfl (isBreak_facts 46 (h 46 hpoint)).2.2.2.2.1
  exponent := by
    rintro ⟨exponent, others, hne, hexponent, rfl⟩
    obtain rfl | ⟨letter, sign, digits, rfl, hletter, -⟩ := hexponent
    · exact absurd rfl hne
    · have hfacts := isBreak_facts letter (h letter rfl)
      obtain rfl | rfl := hletter
      · exact absurd rfl hfacts.2.2.2.2.2.1
      · exact absurd rfl hfacts.2.2.2.2.2.2

/-- **A numeral is read in full.** -/
theorem wktNumeral_append {text rest : List UInt8} (htext : IsNumeral text)
    (hrest : EndsToken rest) : wktNumeral (text ++ rest) = some (text, rest) :=
  wktNumeral_eq_some_iff.mpr ⟨rfl, htext, hrest.numeralEnds text⟩

/-! ## Texts -/

/-- **A text spells tokens**: their texts, with any spaces around them, and a break behind each word
and each number. -/
inductive Spells : List UInt8 → List WktToken → Prop
  | finish (spaces : List UInt8) (h : ∀ byte ∈ spaces, isSpace byte) : Spells spaces []
  | cons {spaces text rest : List UInt8} {token : WktToken} {tokens : List WktToken}
    (hspaces : ∀ byte ∈ spaces, isSpace byte) (htext : TokenText token text)
    (hends : (∃ byte, wktPunctuation byte = some token) ∨ EndsToken rest)
    (hrest : Spells rest tokens) : Spells (spaces ++ text ++ rest) (token :: tokens)

/-- Neither a word nor a number is punctuation. -/
theorem wktPunctuation_ne (byte : UInt8) : (∀ letters, wktPunctuation byte ≠ some (.word letters)) ∧
    ∀ text, wktPunctuation byte ≠ some (.number text) := by
  unfold wktPunctuation
  split_ifs <;> simp

/-- A break ends every token. -/
theorem TokenText.ends {token : WktToken} {text rest : List UInt8} (htext : TokenText token text)
    (hends : (∃ byte, wktPunctuation byte = some token) ∨ EndsToken rest) :
    TokenEnds token rest := by
  cases htext with
  | word letters hne halpha =>
    have hstop := hends.resolve_left (not_exists.mpr fun byte => (wktPunctuation_ne byte).1 _)
    exact hstop.stops fun byte h => (isBreak_facts byte h).1
  | number text hnumeral =>
    have hstop := hends.resolve_left (not_exists.mpr fun byte => (wktPunctuation_ne byte).2 _)
    exact hstop.numeralEnds text
  | punctuation byte token hbyte => exact tokenEnds_of_punctuation hbyte rest

theorem Spells.lexes {text : List UInt8} {tokens : List WktToken} (h : Spells text tokens) :
    Lexes text tokens := by
  induction h with
  | finish spaces h => exact .finish spaces h
  | cons hspaces htext hends _ ih => exact .cons hspaces htext (htext.ends hends) ih

/-- A text with a token in it is not empty. -/
theorem Spells.ne_nil {text : List UInt8} {token : WktToken} {tokens : List WktToken}
    (h : Spells text (token :: tokens)) : text ≠ [] := by
  cases h with
  | cons hspaces htext hends hrest =>
    obtain ⟨byte, tail, rfl, -⟩ := wktNext_tokenText htext (htext.ends hends)
    simp

/-- **The lexer reads the tokens that a text spells.** -/
theorem wktTokens_of_spells {text : List UInt8} {tokens : List WktToken} (h : Spells text tokens) :
    (wktTokens text).map (·.1) = tokens :=
  wktTokens_of_lexes h.lexes

/-- A text without spaces in front of its first token. -/
theorem spells_cons {text rest : List UInt8} {token : WktToken} {tokens : List WktToken}
    (htext : TokenText token text)
    (hends : (∃ byte, wktPunctuation byte = some token) ∨ EndsToken rest)
    (hrest : Spells rest tokens) : Spells (text ++ rest) (token :: tokens) :=
  .cons (fun _ h => absurd h (List.not_mem_nil)) htext hends hrest

/-- A list of one item, behind a word. -/
theorem spells_list {word text : List UInt8} {item : List WktToken} (hne : word ≠ [])
    (hword : ∀ byte ∈ word, isAlpha byte)
    (hitem : ∀ rest tokens, EndsToken rest → Spells rest tokens →
      Spells (text ++ rest) (item ++ tokens)) :
    Spells (word ++ ([40] ++ (text ++ ([41] ++ []))))
    (.word word :: Geometry.listTokens [item]) := by
  have hright : Spells ([41] ++ []) [.right] :=
    spells_cons (.punctuation 41 _ rfl) (.inl ⟨41, rfl⟩) (.finish [] (by simp))
  have hends : EndsToken [(41 : UInt8)] := by
    intro byte hbyte
    obtain rfl : 41 = byte := by simpa using hbyte
    decide
  have hleft : Spells ([40] ++ (text ++ ([41] ++ []))) (.left :: (item ++ [.right])) :=
    spells_cons (.punctuation 40 _ rfl) (.inl ⟨40, rfl⟩) (hitem _ _ hends hright)
  refine spells_cons (.word word hne hword) (.inr fun byte hbyte => ?_) hleft
  obtain rfl : 40 = byte := by simpa using hbyte
  decide

/-- A token that has a text. -/
def HasText (token : WktToken) : Prop := ∃ text, TokenText token text

/-- **Tokens with texts are spelled by a text**, one with a space in front of each of them. -/
theorem exists_spells {tokens : List WktToken} (h : ∀ token ∈ tokens, HasText token) :
    ∃ text, Spells text tokens ∧ EndsToken text := by
  induction tokens with
  | nil => exact ⟨[], .finish [] (by simp), by simp [EndsToken]⟩
  | cons token tokens ih =>
    obtain ⟨rest, hrest, hends⟩ := ih fun t ht => h t (List.mem_cons_of_mem _ ht)
    obtain ⟨text, htext⟩ := h token List.mem_cons_self
    have hspace : ∀ byte ∈ [(32 : UInt8)], isSpace byte := by decide +kernel
    refine ⟨[32] ++ text ++ rest, .cons hspace htext (.inr hends) hrest, fun byte hbyte => ?_⟩
    obtain rfl : 32 = byte := by simpa using hbyte
    decide

/-! ## Every geometry has a text -/

namespace Geometry

theorem hasText_word (letters : String) (hne : ascii letters ≠ [])
    (h : ∀ byte ∈ ascii letters, isAlpha byte) : HasText (.word (ascii letters)) :=
  ⟨_, .word _ hne h⟩

theorem hasText_listTokens {items : List (List WktToken)}
    (h : ∀ item ∈ items, ∀ token ∈ item, HasText token) :
    ∀ token ∈ listTokens items, HasText token := by
  have hcomma : ∀ token ∈ commaSeparated items, HasText token := by
    induction items with
    | nil => simp [commaSeparated]
    | cons item items ih =>
      have hitems := ih fun i hi => h i (List.mem_cons_of_mem _ hi)
      cases items with
      | nil => exact h item List.mem_cons_self
      | cons next items =>
        intro token htoken
        have hcons : commaSeparated (item :: next :: items) =
          item ++ .comma :: commaSeparated (next :: items) := rfl
        rw [hcons, List.mem_append, List.mem_cons] at htoken
        obtain htoken | rfl | htoken := htoken
        · exact h item List.mem_cons_self token htoken
        · exact ⟨_, .punctuation 44 _ rfl⟩
        · exact hitems token htoken
  intro token htoken
  unfold listTokens at htoken
  split at htoken
  · obtain rfl := List.mem_singleton.mp htoken
    exact hasText_word "EMPTY" (by decide) (by decide +kernel)
  · rw [List.mem_cons, List.mem_append, List.mem_singleton] at htoken
    obtain rfl | htoken | rfl := htoken
    · exact ⟨_, .punctuation 40 _ rfl⟩
    · exact hcomma token htoken
    · exact ⟨_, .punctuation 41 _ rfl⟩

variable {write : UInt64 → List UInt8}
    (hwrite : ∀ bits, isFiniteDouble bits → IsNumeral (write bits))
  {axes : SpatialAxes}

theorem hasText_headTokens {type : SpatialGeometryType} (htype : type ≠ .any) :
    ∀ token ∈ headTokens axes type, HasText token := by
  have haxes : ∀ token ∈ axes.tokens, HasText token := by
    cases axes with
    | xy => simp [SpatialAxes.tokens]
    | xyz => simpa [SpatialAxes.tokens] using hasText_word "Z" (by decide) (by decide +kernel)
    | xym => simpa [SpatialAxes.tokens] using hasText_word "M" (by decide) (by decide +kernel)
    | xyzm => simpa [SpatialAxes.tokens] using hasText_word "ZM" (by decide) (by decide +kernel)
  intro token htoken
  obtain rfl | htoken := List.mem_cons.mp htoken
  · cases type with
    | any => exact absurd rfl htype
    | _ => exact hasText_word _ (by decide) (by decide +kernel)
  · exact haxes token htoken

include hwrite

theorem hasText_positions {positions : List (List UInt64)}
    (h : ∀ position ∈ positions, IsPosition axes position) :
    ∀ token ∈ listTokens (positions.map (positionTokens write)), HasText token := by
  refine hasText_listTokens fun item hitem token htoken => ?_
  obtain ⟨position, hposition, rfl⟩ := List.mem_map.mp hitem
  obtain ⟨bits, hbits, rfl⟩ := List.mem_map.mp htoken
  exact ⟨_, .number _ (hwrite bits ((h position hposition).2 bits hbits))⟩

theorem hasText_bodyTokens {geometry : Geometry} (hwell : WellFormed axes geometry) :
    ∀ token ∈ bodyTokens write axes geometry, HasText token := by
  induction geometry using Geometry.induction with
  | point form position =>
    exact hasText_positions hwrite fun p hp => hwell p (Option.mem_toList.mp hp)
  | lineString form positions => exact hasText_positions hwrite hwell.2
  | polygon form rings =>
    refine hasText_listTokens fun item hitem => ?_
    obtain ⟨ring, hring, rfl⟩ := List.mem_map.mp hitem
    exact hasText_positions hwrite (hwell.2 ring hring).2
  | collection form kind members ih =>
    obtain ⟨-, hmembers⟩ := all_collection.mp hwell
    rw [bodyTokens, memberTokens_eq]
    refine hasText_listTokens fun item hitem token htoken => ?_
    obtain ⟨member, hmem, rfl⟩ := List.mem_map.mp hitem
    have hbody := ih member hmem (hmembers member hmem)
    split at htoken
    · obtain htoken | htoken := List.mem_append.mp htoken
      · exact hasText_headTokens member.type_ne_any token htoken
      · exact hbody token htoken
    · exact hbody token htoken

/-- **Every geometry has a text.** -/
theorem exists_text {geometry : Geometry} (hwell : WellFormed axes geometry) :
    ∃ text, Spells text (tokens write axes geometry) := by
  have hall : ∀ token ∈ tokens write axes geometry, HasText token := by
    intro token htoken
    obtain htoken | htoken := List.mem_append.mp htoken
    · exact hasText_headTokens geometry.type_ne_any token htoken
    · exact hasText_bodyTokens hwrite hwell token htoken
  obtain ⟨text, htext, -⟩ := exists_spells hall
  exact ⟨text, htext⟩

end Geometry

end Vps
