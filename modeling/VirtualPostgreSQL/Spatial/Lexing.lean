import VirtualPostgreSQL.Spatial.Numeral

/-!
# Spatial/Lexing — the texts that the lexer reads

Each token has its texts, and ends where they cannot go on.  The lexer reads a list of tokens
without an invalid one exactly from the texts that consist of their texts and of spaces:
`wktTokens_eq_iff`.
-/

namespace Vps

open Machinery

/-- The first byte of a numeral. -/
theorem head_numeral {text : List UInt8} (htext : IsNumeral text) :
    ∃ byte rest, text = byte :: rest ∧ wktPunctuation byte = none ∧ ¬isAlpha byte ∧
      ¬isSpace byte := by
  obtain ⟨sign, whole, fraction, exponent, rfl, hsign, hwhole, hfraction, hdigit, -⟩ := htext
  obtain rfl | rfl | rfl := hsign
  · cases whole with
    | cons first whole =>
      have := isDigit_facts first (hwhole first List.mem_cons_self)
      exact ⟨first, _, rfl, this.2.2.2.2.2, this.2.2.2.1, this.2.2.2.2.1⟩
    | nil =>
      obtain rfl | ⟨digits, rfl, -⟩ := hfraction
      · simp at hdigit
      · exact ⟨46, _, rfl, by decide, by decide, by decide⟩
  · exact ⟨43, _, rfl, by decide, by decide, by decide⟩
  · exact ⟨45, _, rfl, by decide, by decide, by decide⟩

/-! ## Tokens -/

/-- The text of a token. -/
inductive TokenText : WktToken → List UInt8 → Prop
  | word (letters : List UInt8) (hne : letters ≠ []) (h : ∀ byte ∈ letters, isAlpha byte) :
    TokenText (.word letters) letters
  | number (text : List UInt8) (h : IsNumeral text) : TokenText (.number text) text
  | punctuation (byte : UInt8) (token : WktToken) (h : wktPunctuation byte = some token) :
    TokenText token [byte]

/-- **Where a token ends**: a word before anything but a letter, a number where it cannot go on. -/
def TokenEnds : WktToken → List UInt8 → Prop
  | .word _, rest => Stops isAlpha rest
  | .number text, rest => NumeralEnds text rest
  | _, _ => True

theorem isAlpha_facts (byte : UInt8) (h : isAlpha byte) :
    wktPunctuation byte = none ∧ ¬isSpace byte :=
  byte_induction (P := fun byte => isAlpha byte → wktPunctuation byte = none ∧ ¬isSpace byte) 256
    (by decide +kernel) byte byte.toNat_lt h

theorem punctuation_facts (byte : UInt8) (h : (wktPunctuation byte).isSome) : ¬isSpace byte :=
  byte_induction (P := fun byte => (wktPunctuation byte).isSome → ¬isSpace byte) 256
    (by decide +kernel) byte byte.toNat_lt h

theorem tokenEnds_of_punctuation {byte : UInt8} {token : WktToken}
    (h : wktPunctuation byte = some token) (rest : List UInt8) : TokenEnds token rest := by
  unfold wktPunctuation at h
  split_ifs at h <;> cases h <;> exact trivial

/-- **The lexer cuts a token off.** -/
theorem wktNext_tokenText {token : WktToken} {text rest : List UInt8} (htext : TokenText token text)
    (hends : TokenEnds token rest) :
    ∃ byte tail, text = byte :: tail ∧ ¬isSpace byte ∧ wktNext byte (tail ++ rest) =
      (token, rest) := by
  cases htext with
  | word letters hne halpha =>
    obtain ⟨first, letters, rfl⟩ := List.exists_cons_of_ne_nil hne
    have hfirst := halpha first List.mem_cons_self
    obtain ⟨hnone, hspace⟩ := isAlpha_facts first hfirst
    obtain ⟨htake, hdrop⟩ := takeWhile_of_stops
      (fun byte hbyte => halpha byte (List.mem_cons_of_mem first hbyte)) hends
    refine ⟨first, letters, rfl, hspace, ?_⟩
    simp only [wktNext, hnone, hfirst, if_true, htake, hdrop]
  | number text hnumeral =>
    obtain ⟨first, tail, rfl, hnone, halpha, hspace⟩ := head_numeral hnumeral
    have hread := wktNumeral_eq_some_iff.mpr ⟨rfl, hnumeral, hends⟩
    rw [List.cons_append] at hread
    refine ⟨first, tail, rfl, hspace, ?_⟩
    simp only [wktNext, hnone, halpha, hread]
    rfl
  | punctuation byte token hbyte =>
    refine ⟨byte, [], rfl, punctuation_facts byte (by rw [hbyte]; rfl), ?_⟩
    simp only [wktNext, hbyte, List.nil_append]

/-- What the lexer cuts off is a token, or no token at all. -/
theorem wktNext_eq {byte : UInt8} {rest others : List UInt8} {token : WktToken}
    (h : wktNext byte rest = (token, others)) (hvalid : token ≠ .invalid) :
    ∃ text, byte :: rest = text ++ others ∧ TokenText token text ∧ TokenEnds token others := by
  rw [wktNext] at h
  split at h
  next punctuation hbyte =>
    obtain ⟨rfl, rfl⟩ := Prod.mk.inj h
    exact ⟨[byte], rfl, .punctuation byte _ hbyte, tokenEnds_of_punctuation hbyte rest⟩
  next =>
    split at h
    next halpha =>
      obtain ⟨rfl, rfl⟩ := Prod.mk.inj h
      refine ⟨byte :: rest.takeWhile isAlpha, ?_, .word _ (List.cons_ne_nil _ _) ?_,
        stops_dropWhile _ _⟩
      · rw [List.cons_append, List.takeWhile_append_dropWhile]
      · exact List.forall_mem_cons.mpr ⟨halpha, List.all_eq_true.mp List.all_takeWhile⟩
    next =>
      split at h
      next number after hnumeral =>
        obtain ⟨rfl, rfl⟩ := Prod.mk.inj h
        obtain ⟨htext, hshape, hends⟩ := wktNumeral_eq_some_iff.mp hnumeral
        exact ⟨number, htext, .number number hshape, hends⟩
      next => exact absurd (Prod.mk.inj h).1.symm hvalid

/-! ## Texts -/

/-- **A text that is read as tokens**: their texts, with any spaces around them, each up to where it
ends. -/
inductive Lexes : List UInt8 → List WktToken → Prop
  | finish (spaces : List UInt8) (h : ∀ byte ∈ spaces, isSpace byte) : Lexes spaces []
  | cons {spaces text rest : List UInt8} {token : WktToken} {tokens : List WktToken}
    (hspaces : ∀ byte ∈ spaces, isSpace byte) (htext : TokenText token text)
    (hends : TokenEnds token rest) (hrest : Lexes rest tokens) :
    Lexes (spaces ++ text ++ rest) (token :: tokens)

theorem wktTokens_of_lexes {text : List UInt8} {tokens : List WktToken} (h : Lexes text tokens) :
    (wktTokens text).map (·.1) = tokens := by
  induction h with
  | finish spaces h =>
    have hdrop : spaces.dropWhile isSpace = [] := by
      rw [← List.append_nil spaces, List.dropWhile_append_of_pos h, List.dropWhile_nil]
    rw [wktTokens]
    split
    · rfl
    · rename_i hcons
      rw [hdrop] at hcons
      cases hcons
  | @cons spaces text rest token tokens hspaces htext hends hrest ih =>
    obtain ⟨byte, tail, rfl, hspace, hnext⟩ := wktNext_tokenText htext hends
    have hdrop : (spaces ++ (byte :: tail) ++ rest).dropWhile isSpace = byte :: (tail ++ rest) := by
      rw [List.append_assoc, List.dropWhile_append_of_pos hspaces, List.cons_append,
        List.dropWhile_cons_of_neg hspace]
    rw [wktTokens]
    split
    · rename_i hnil
      rw [hdrop] at hnil
      cases hnil
    · rename_i first others hcons
      rw [hdrop] at hcons
      cases hcons
      rw [List.map_cons, hnext, ih]

/-- **The lexer is exact**: valid tokens are read from the texts that consist of theirs. -/
theorem wktTokens_eq_iff {text : List UInt8} {tokens : List WktToken}
    (hvalid : ∀ token ∈ tokens, token ≠ .invalid) :
    (wktTokens text).map (·.1) = tokens ↔ Lexes text tokens := by
  refine ⟨fun h => ?_, wktTokens_of_lexes⟩
  induction tokens generalizing text with
  | nil =>
    rw [wktTokens] at h
    split at h
    next hnil =>
      have hspaces := @List.takeWhile_append_dropWhile _ isSpace text
      rw [hnil, List.append_nil] at hspaces
      exact .finish text (hspaces ▸ List.all_eq_true.mp List.all_takeWhile)
    next => cases h
  | cons token tokens ih =>
    obtain ⟨hhead, htail⟩ := List.forall_mem_cons.mp hvalid
    rw [wktTokens] at h
    split at h
    next => cases h
    next byte rest hcons =>
      rw [List.map_cons] at h
      obtain ⟨rfl, htokens⟩ := List.cons.inj h
      obtain ⟨tokenText, htext, hshape, hends⟩ :=
        @wktNext_eq byte rest (wktNext byte rest).2 _ rfl hhead
      have hsplit : text = text.takeWhile isSpace ++ tokenText ++ (wktNext byte rest).2 := by
        rw [List.append_assoc, ← htext, ← hcons, List.takeWhile_append_dropWhile]
      rw [hsplit]
      exact .cons (List.all_eq_true.mp List.all_takeWhile) hshape hends (ih htail htokens)

end Vps
