import Mathlib.Data.List.Basic
import VirtualPostgreSQL.Machinery.Outcome
import VirtualPostgreSQL.Machinery.Utf8
import VirtualPostgreSQL.Query.LexAppend
import VirtualPostgreSQL.Query.ScanAgreement

/-!
# Query/Rounds — the rounds of the scanner

The lexeme at an offset does not depend on the state, so a text alone says where the rounds of the
loop begin: `queryRounds`.  A scan is the fold of `scanRound` over them (`scanFrom_eq_rounds`), and
the chunks of the rounds make up the text (`flatMap_chunk_queryRounds`).
-/

namespace Vps

open Machinery

/-- A round of the loop: the byte at its head and the text behind it. -/
structure QueryRound where
  byte : UInt8
  rest : List UInt8
  deriving DecidableEq

namespace QueryRound

variable (round : QueryRound)

/-- The text from the head on. -/
def text : List UInt8 := round.byte :: round.rest

/-- What stands at the head. -/
def lexeme : QueryLexeme := queryLexeme round.byte round.rest

/-- The bytes the round covers. -/
def chunk : List UInt8 := round.text.take round.lexeme.length

end QueryRound

/-- The rounds of a text, after the given number of bytes that the last lexeme still covers. -/
def roundsFrom : List UInt8 → ℕ → List QueryRound
  | [], _ => []
  | _ :: rest, skip + 1 => roundsFrom rest skip
  | byte :: rest, 0 => ⟨byte, rest⟩ :: roundsFrom rest ((queryLexeme byte rest).length - 1)

/-- **The rounds of a query.** -/
def queryRounds (query : List UInt8) : List QueryRound := roundsFrom query 0

/-- What a round does. -/
def scanRound (total : ℕ) (s : ScanState) (round : QueryRound) : ScanResult ScanState :=
  scanLexeme total s round.lexeme round.chunk

/-- **A scan folds its rounds.** -/
theorem scanFrom_eq_rounds (total : ℕ) (text : List UInt8) (skip : ℕ) (s : ScanState) :
    scanFrom total text skip s =
      ((roundsFrom text skip).foldlM (scanRound total) s >>= scanFinish total) := by
  fun_induction scanFrom total text skip s with
  | case1 skip s => rfl
  | case2 byte rest skip s ih => exact ih
  | case3 byte rest s lexeme failure hround =>
    have hround : scanRound total s ⟨byte, rest⟩ = .error failure := hround
    simp only [roundsFrom, List.foldlM_cons, hround]
    rfl
  | case4 byte rest s lexeme s' hround ih =>
    have hround : scanRound total s ⟨byte, rest⟩ = .ok s' := hround
    simp only [roundsFrom, List.foldlM_cons, hround]
    exact ih

/-! ## What a lexeme covers -/

/-- The bits of a lead and of a tail. -/
theorem toNat_and_mask (byte : UInt8) :
    (byte &&& 0x1f).toNat = byte.toNat % 32 ∧ (byte &&& 0x0f).toNat = byte.toNat % 16 ∧
      (byte &&& 0x07).toNat = byte.toNat % 8 ∧ (byte &&& 0x3f).toNat = byte.toNat % 64 :=
  ⟨byte.toNat.and_two_pow_sub_one_eq_mod 5, byte.toNat.and_two_pow_sub_one_eq_mod 4,
    byte.toNat.and_two_pow_sub_one_eq_mod 3, byte.toNat.and_two_pow_sub_one_eq_mod 6⟩

/-- A sequence is read as the encoding of a character is. -/
theorem queryUtf8SequenceLength_eq (bytes : List UInt8) :
    queryUtf8SequenceLength bytes = (utf8Rest bytes).map (bytes.length - ·.length) := by
  cases bytes with
  | nil => rfl
  | cons first rest =>
    have hascii : first < 0x80 ↔ first ≤ 0x7f := by
      rw [UInt8.lt_iff_toNat_lt, UInt8.le_iff_toNat_le]
      exact Nat.lt_succ_iff
    have hshape : (if 0xc2 ≤ first && first ≤ 0xdf then some (2, first.toNat % 32)
        else if 0xe0 ≤ first && first ≤ 0xef then some (3, first.toNat % 16)
        else if 0xf0 ≤ first && first ≤ 0xf4 then some (4, first.toNat % 8) else none) =
        (utf8Lead first).map fun lead => (lead.1 + 1, lead.2) := by
      unfold utf8Lead
      split_ifs <;> rfl
    unfold queryUtf8SequenceLength utf8Rest
    simp only [hascii, toNat_and_mask, hshape]
    split_ifs with hfirst
    · simp
    cases utf8Lead first with
    | none => rfl
    | some lead =>
      obtain ⟨tails, bits⟩ := lead
      simp only [Option.map_some, Option.bind_some, Nat.add_sub_cancel, List.length_take]
      by_cases hshort : tails > rest.length
      · rw [if_pos (by simp; omega), if_pos hshort]
        rfl
      · have hrefused : ∀ code, (decide (tails + 1 = 3) && decide (code < 0x800) ||
            decide (tails + 1 = 4) && decide (code < 0x10000) || decide (code > 0x10ffff) ||
            decide (0xd800 ≤ code) && decide (code ≤ 0xdfff)) = utf8Refused tails code := by
          intro code
          simp only [utf8Refused, beq_eq_decide, Nat.add_right_cancel_iff, gt_iff_lt,
            show (3 : ℕ) = 2 + 1 from rfl, show (4 : ℕ) = 3 + 1 from rfl]
        have htails : min tails rest.length = tails := Nat.min_eq_left (Nat.not_lt.mp hshort)
        simp only [hrefused, htails, Nat.lt_irrefl, decide_false, Bool.false_or, if_neg hshort]
        split_ifs
        · rfl
        · rfl
        · simp only [Option.map_some, List.length_cons, List.length_drop]
          congr 1
          omega

theorem queryUtf8SequenceLength_fits {bytes : List UInt8} {n : ℕ}
    (h : queryUtf8SequenceLength bytes = some n) : 0 < n ∧ n ≤ bytes.length := by
  rw [queryUtf8SequenceLength_eq, Option.map_eq_some_iff] at h
  obtain ⟨rest, hrest, rfl⟩ := h
  have := utf8Rest_length hrest
  omega

theorem scanComment_fits (depth consumed : ℕ) (text : List UInt8) (hconsumed : 0 < consumed) :
    0 < (scanComment depth consumed text).length ∧
      (scanComment depth consumed text).length ≤ consumed + text.length := by
  fun_induction scanComment depth consumed text with
  | case1 => exact ⟨hconsumed, Nat.le_add_right _ _⟩
  | case2 => exact ⟨hconsumed, Nat.le_add_right _ _⟩
  | case3 => exact ⟨Nat.succ_pos _, le_rfl⟩
  | case4 => exact ⟨Nat.one_pos, by simp [QueryLexeme.length]; omega⟩
  | case5 depth consumed byte next rest _ _ ih | case6 depth consumed byte next rest _ _ ih =>
    obtain ⟨hpos, hfits⟩ := ih (Nat.succ_pos _)
    simp only [List.length_cons]
    exact ⟨hpos, by omega⟩
  | case7 depth consumed byte next rest _ _ ih =>
    obtain ⟨hpos, hfits⟩ := ih (Nat.succ_pos _)
    simp only [List.length_cons] at hfits ⊢
    exact ⟨hpos, by omega⟩

theorem scanQuotedLength_fits (quote : UInt8) (text : List UInt8) :
    scanQuotedLength quote text ≤ text.length := by
  fun_induction scanQuotedLength quote text <;> simp_all

theorem scanDollar_fits {rest : List UInt8} {lexeme : QueryLexeme}
    (h : scanDollar rest = some lexeme) : 0 < lexeme.length ∧ lexeme.length ≤ rest.length + 1 := by
  unfold scanDollar at h
  split at h
  · cases h
    exact ⟨Nat.one_pos, Nat.le_add_left _ _⟩
  · obtain ⟨delimiter, hdelimiter, rfl⟩ := Option.map_eq_some_iff.mp h
    obtain ⟨tag, post, rfl, -, rfl⟩ :=
      (dollarDelimiter_eq_some_iff queryIsTagByte_dollar).mp hdelimiter
    split
    · exact ⟨Nat.one_pos, Nat.le_add_left _ _⟩
    · rename_i n hfind
      have hfits := findDelimiter_fits hfind
      simp only [QueryLexeme.length, List.length_drop, List.length_append, List.length_cons,
        List.length_nil] at hfits ⊢
      omega

/-- The tests of `queryLexeme` as one chain; a dollar sign begins no word. -/
theorem queryLexeme_eq (byte : UInt8) (rest : List UInt8) : queryLexeme byte rest =
    if byte = 0 then .nul
    else if queryUtf8SequenceLength (byte :: rest) = none then .invalidUtf8
    else if 128 ≤ byte then .wide ((queryUtf8SequenceLength (byte :: rest)).getD 1)
    else if isSpace byte then .space
    else if byte = 45 ∧ rest.head? = some 45 then
      .comment ((rest.tail.takeWhile (!isNewline ·)).length + 2)
    else if byte = 47 ∧ rest.head? = some 42 then scanComment 1 2 rest.tail
    else if byte = 59 then .semicolon
    else if byte = 39 ∨ byte = 34 then scanQuoted byte rest
    else if byte = 36 then (scanDollar rest).getD .other
    else if queryIsIdentifierStart byte then
      .word ((rest.takeWhile queryIsIdentifierContinue).length + 1)
    else .other := by
  unfold queryLexeme
  cases hutf8 : queryUtf8SequenceLength (byte :: rest) with
  | none => rfl
  | some n =>
    simp only [reduceCtorEq, if_false, Option.getD_some]
    by_cases hdollar : byte = 36
    · subst hdollar
      simp only [if_true]
      cases scanDollar rest <;> rfl
    · simp only [if_neg hdollar]

/-- **A lexeme covers a byte, and nothing beyond the text.** -/
theorem queryLexeme_fits (byte : UInt8) (rest : List UInt8) :
    0 < (queryLexeme byte rest).length ∧ (queryLexeme byte rest).length ≤ rest.length + 1 := by
  have hone : 0 < 1 ∧ 1 ≤ rest.length + 1 := ⟨Nat.one_pos, Nat.le_add_left _ _⟩
  rw [queryLexeme_eq]
  split_ifs with _ _ _ _ hline hblock
  · exact hone
  · exact hone
  · cases hutf8 : queryUtf8SequenceLength (byte :: rest) with
    | none => contradiction
    | some n => exact queryUtf8SequenceLength_fits hutf8
  · exact hone
  · obtain ⟨tail, rfl⟩ := List.head?_eq_some_iff.mp hline.2
    have := (tail.takeWhile_sublist (!isNewline ·)).length_le
    simpa [QueryLexeme.length] using this
  · obtain ⟨tail, rfl⟩ := List.head?_eq_some_iff.mp hblock.2
    have := scanComment_fits 1 2 tail Nat.two_pos
    simp only [List.tail_cons, List.length_cons]
    omega
  · exact hone
  · have := scanQuotedLength_fits byte rest
    unfold scanQuoted
    simp only
    split_ifs
    · exact ⟨Nat.succ_pos _, Nat.succ_le_succ this⟩
    · exact hone
  · cases hlexeme : scanDollar rest with
    | none => exact hone
    | some lexeme => exact scanDollar_fits hlexeme
  · have := (rest.takeWhile_sublist queryIsIdentifierContinue).length_le
    exact ⟨Nat.succ_pos _, Nat.succ_le_succ this⟩
  · exact hone

/-! ## The rounds of a text -/

theorem roundsFrom_eq_drop (text : List UInt8) (skip : ℕ) :
    roundsFrom text skip = queryRounds (text.drop skip) := by
  fun_induction roundsFrom text skip with
  | case1 => rw [List.drop_nil]; rfl
  | case2 byte rest skip ih => exact ih
  | case3 byte rest ih => rw [ih]; simp only [queryRounds, List.drop_zero, roundsFrom, ih]

theorem queryRounds_cons (byte : UInt8) (rest : List UInt8) :
    queryRounds (byte :: rest) = ⟨byte, rest⟩ ::
      queryRounds ((byte :: rest).drop (queryLexeme byte rest).length) := by
  obtain ⟨n, hn⟩ := Nat.exists_eq_add_one.mpr (queryLexeme_fits byte rest).1
  simp only [queryRounds, roundsFrom, hn, Nat.add_sub_cancel, List.drop_succ_cons]
  rw [roundsFrom_eq_drop]
  rfl

/-- Induction from the last round on. -/
theorem queryRounds_induction {P : List UInt8 → Prop} (nil : P [])
    (round : ∀ byte rest, P ((byte :: rest).drop (queryLexeme byte rest).length) →
      P (byte :: rest)) (query : List UInt8) : P query := by
  induction hlength : query.length using Nat.strong_induction_on generalizing query with
  | _ n ih =>
    cases query with
    | nil => exact nil
    | cons byte rest =>
      refine round byte rest (ih _ ?_ _ rfl)
      have := (queryLexeme_fits byte rest).1
      simp only [List.length_drop, List.length_cons] at hlength ⊢
      omega

/-- **The chunks of the rounds make up the text.** -/
theorem flatMap_chunk_queryRounds (query : List UInt8) :
    (queryRounds query).flatMap QueryRound.chunk = query := by
  induction query using queryRounds_induction with
  | nil => rfl
  | round byte rest ih =>
    rw [queryRounds_cons, List.flatMap_cons, ih]
    exact List.take_append_drop _ _

/-- There is no more than a round a byte. -/
theorem length_queryRounds_le (query : List UInt8) : (queryRounds query).length ≤ query.length := by
  induction query using queryRounds_induction with
  | nil => exact le_rfl
  | round byte rest ih =>
    have := (queryLexeme_fits byte rest).1
    rw [queryRounds_cons, List.length_cons, List.length_cons]
    simp only [List.length_drop, List.length_cons] at ih
    omega

end Vps
