import Mathlib.Data.List.Basic
import VirtualPostgreSQL.Machinery.Ascii

/-!
# Machinery/Utf8 — the bytes of a text

A text is a list of scalar values, and UTF-8 the concatenation of their encodings.  The encoding of
a scalar value is a lead byte and up to three tail bytes of six bits each.  `utf8Rest` reads one
such sequence the way a validator does — the lead gives the number of tails, overlong forms and
surrogates are refused — and `utf8Rest_eq_some_iff` says that it reads exactly the encodings.
-/

namespace Machinery

/-- **UTF-8**: the bytes of some text. -/
def IsUtf8 (bytes : List UInt8) : Prop :=
  ∃ text : List Char, bytes = text.flatMap String.utf8EncodeChar

theorem isUtf8_nil : IsUtf8 [] := ⟨[], rfl⟩

/-- A character in front of UTF-8 is UTF-8. -/
theorem isUtf8_append {c : Char} {rest : List UInt8} (h : IsUtf8 rest) :
    IsUtf8 (String.utf8EncodeChar c ++ rest) := by
  obtain ⟨text, rfl⟩ := h
  exact ⟨c :: text, rfl⟩

/-- A tail byte is one of the sixty-four behind 128. -/
theorem isUtf8Tail_iff (byte : UInt8) : isUtf8Tail byte ↔ 128 ≤ byte.toNat ∧ byte.toNat < 192 :=
  byte_induction (P := fun byte => isUtf8Tail byte ↔ 128 ≤ byte.toNat ∧ byte.toNat < 192) 256
    (by decide +kernel) byte byte.toNat_lt

/-- The numbers of scalar values. -/
def IsScalar (n : ℕ) : Prop := n ≤ 0x10ffff ∧ ¬(0xd800 ≤ n ∧ n ≤ 0xdfff)

theorem isScalar_toNat (c : Char) : IsScalar c.toNat := by
  have hvalid := c.valid
  simp only [UInt32.isValidChar, Nat.isValidChar] at hvalid
  change IsScalar c.val.toNat
  unfold IsScalar
  omega

/-- Every scalar value is that of a character. -/
theorem exists_char_of_isScalar {n : ℕ} (h : IsScalar n) : ∃ c : Char, c.toNat = n := by
  have hvalid : n.isValidChar := by
    unfold IsScalar at h
    unfold Nat.isValidChar
    omega
  refine ⟨Char.ofNat n, ?_⟩
  rw [Char.ofNat, dif_pos hvalid]
  rfl

/-- The encoding of a scalar value of up to eleven, sixteen and twenty-one bits. -/
theorem utf8EncodeChar_cases (c : Char) :
    (c.toNat < 0x80 ∧ String.utf8EncodeChar c = [UInt8.ofNat c.toNat]) ∨
      (0x80 ≤ c.toNat ∧ c.toNat < 0x800 ∧ String.utf8EncodeChar c =
        [UInt8.ofNat (c.toNat / 64 % 32 + 192), UInt8.ofNat (c.toNat % 64 + 128)]) ∨
      (0x800 ≤ c.toNat ∧ c.toNat < 0x10000 ∧ String.utf8EncodeChar c =
        [UInt8.ofNat (c.toNat / 4096 % 16 + 224), UInt8.ofNat (c.toNat / 64 % 64 + 128),
          UInt8.ofNat (c.toNat % 64 + 128)]) ∨
      (0x10000 ≤ c.toNat ∧ String.utf8EncodeChar c =
        [UInt8.ofNat (c.toNat / 262144 % 8 + 240), UInt8.ofNat (c.toNat / 4096 % 64 + 128),
          UInt8.ofNat (c.toNat / 64 % 64 + 128), UInt8.ofNat (c.toNat % 64 + 128)]) := by
  change (c.val.toNat < 0x80 ∧ _) ∨ (0x80 ≤ c.val.toNat ∧ _) ∨ (0x800 ≤ c.val.toNat ∧ _) ∨
    (0x10000 ≤ c.val.toNat ∧ _)
  unfold String.utf8EncodeChar
  dsimp only
  split_ifs
  · exact .inl ⟨by omega, rfl⟩
  · exact .inr (.inl ⟨by omega, by change c.val.toNat < _; omega, rfl⟩)
  · exact .inr (.inr (.inl ⟨by omega, by change c.val.toNat < _; omega, rfl⟩))
  · exact .inr (.inr (.inr ⟨by omega, rfl⟩))

/-! ## Reading a sequence -/

/-- How many tails follow a lead byte, and the bits it holds. -/
def utf8Lead (first : UInt8) : Option (ℕ × ℕ) :=
  if 0xc2 ≤ first && first ≤ 0xdf then some (1, first.toNat % 32)
  else if 0xe0 ≤ first && first ≤ 0xef then some (2, first.toNat % 16)
  else if 0xf0 ≤ first && first ≤ 0xf4 then some (3, first.toNat % 8)
  else none

/-- The number of a sequence that is longer than it needs to be, or of no scalar value. -/
def utf8Refused (tails code : ℕ) : Bool :=
  (tails == 2 && code < 0x800) || (tails == 3 && code < 0x10000) || 0x10ffff < code ||
    (0xd800 ≤ code && code ≤ 0xdfff)

/-- The bytes behind the first sequence. -/
def utf8Rest : List UInt8 → Option (List UInt8)
  | [] => none
  | first :: rest =>
    if first ≤ 0x7f then some rest
    else match utf8Lead first with
    | none => none
    | some (tails, bits) =>
      if tails > rest.length then none
      else if !(rest.take tails).all isUtf8Tail then none
      else if utf8Refused tails
          ((rest.take tails).foldl (fun code byte => code * 64 + byte.toNat % 64) bits) then none
      else some (rest.drop tails)

/-- **A sequence takes bytes**, so the check comes to an end. -/
theorem utf8Rest_length {bytes rest : List UInt8} (h : utf8Rest bytes = some rest) :
    rest.length < bytes.length := by
  unfold utf8Rest at h
  split at h
  · cases h
  · split at h
    · cases h
      exact Nat.lt_succ_self _
    · split at h
      · cases h
      · split_ifs at h
        cases h
        simp only [List.length_drop, List.length_cons]
        omega

theorem ofNat_eq {n : ℕ} (byte : UInt8) (h : byte.toNat = n) : UInt8.ofNat n = byte := by
  rw [← h]
  exact UInt8.ofNat_toNat

theorem toNat_ofNat_lt {n : ℕ} (h : n < 256) : (UInt8.ofNat n).toNat = n :=
  Nat.mod_eq_of_lt h

/-- One byte. -/
theorem exists_char_one (first : UInt8) (h : first.toNat < 128) :
    ∃ c, String.utf8EncodeChar c = [first] := by
  obtain ⟨c, hc⟩ := exists_char_of_isScalar (n := first.toNat) (by unfold IsScalar; omega)
  refine ⟨c, ?_⟩
  obtain ⟨-, h⟩ | ⟨hlow, -⟩ | ⟨hlow, -⟩ | ⟨hlow, -⟩ := utf8EncodeChar_cases c
  · rw [h, ofNat_eq first hc.symm]
  all_goals omega

section Tails

variable {first second third fourth : UInt8}

/-- Two bytes that pass are a character. -/
theorem exists_char_two (hfirst : 194 ≤ first.toNat ∧ first.toNat ≤ 223)
    (hsecond : isUtf8Tail second) : ∃ c, String.utf8EncodeChar c = [first, second] := by
  rw [isUtf8Tail_iff] at hsecond
  obtain ⟨c, hc⟩ := exists_char_of_isScalar
    (n := first.toNat % 32 * 64 + second.toNat % 64) (by unfold IsScalar; omega)
  refine ⟨c, ?_⟩
  obtain ⟨hhigh, -⟩ | ⟨-, -, h⟩ | ⟨hlow, -⟩ | ⟨hlow, -⟩ := utf8EncodeChar_cases c
  · omega
  · rw [h, ofNat_eq first (by omega), ofNat_eq second (by omega)]
  all_goals omega

/-- Three bytes are a character if the code is not refused. -/
theorem exists_char_three (hfirst : 224 ≤ first.toNat ∧ first.toNat ≤ 239)
    (hsecond : isUtf8Tail second) (hthird : isUtf8Tail third)
    (hcode : ¬utf8Refused 2 ((first.toNat % 16 * 64 + second.toNat % 64) * 64 + third.toNat % 64)) :
    ∃ c, String.utf8EncodeChar c = [first, second, third] := by
  rw [isUtf8Tail_iff] at hsecond hthird
  simp [utf8Refused] at hcode
  obtain ⟨c, hc⟩ := exists_char_of_isScalar
    (n := (first.toNat % 16 * 64 + second.toNat % 64) * 64 + third.toNat % 64)
    (by unfold IsScalar; omega)
  refine ⟨c, ?_⟩
  obtain ⟨hhigh, -⟩ | ⟨-, hhigh, -⟩ | ⟨-, -, h⟩ | ⟨hlow, -⟩ := utf8EncodeChar_cases c
  · omega
  · omega
  · rw [h, ofNat_eq first (by omega), ofNat_eq second (by omega), ofNat_eq third (by omega)]
  · omega

/-- So are four. -/
theorem exists_char_four (hfirst : 240 ≤ first.toNat ∧ first.toNat ≤ 244)
    (hsecond : isUtf8Tail second) (hthird : isUtf8Tail third) (hfourth : isUtf8Tail fourth)
    (hcode : ¬utf8Refused 3 (((first.toNat % 8 * 64 + second.toNat % 64) * 64 +
      third.toNat % 64) * 64 + fourth.toNat % 64)) :
    ∃ c, String.utf8EncodeChar c = [first, second, third, fourth] := by
  rw [isUtf8Tail_iff] at hsecond hthird hfourth
  simp [utf8Refused] at hcode
  obtain ⟨c, hc⟩ := exists_char_of_isScalar
    (n := ((first.toNat % 8 * 64 + second.toNat % 64) * 64 + third.toNat % 64) * 64 +
      fourth.toNat % 64) (by unfold IsScalar; omega)
  refine ⟨c, ?_⟩
  obtain ⟨hhigh, -⟩ | ⟨-, hhigh, -⟩ | ⟨-, hhigh, -⟩ | ⟨-, h⟩ := utf8EncodeChar_cases c
  · omega
  · omega
  · omega
  · rw [h, ofNat_eq first (by omega), ofNat_eq second (by omega), ofNat_eq third (by omega),
      ofNat_eq fourth (by omega)]

end Tails

/-- The lead byte by its number. -/
theorem utf8Lead_cases {first : UInt8} {tails bits : ℕ} (h : utf8Lead first = some (tails, bits)) :
    (tails = 1 ∧ bits = first.toNat % 32 ∧ 194 ≤ first.toNat ∧ first.toNat ≤ 223) ∨
      (tails = 2 ∧ bits = first.toNat % 16 ∧ 224 ≤ first.toNat ∧ first.toNat ≤ 239) ∨
      (tails = 3 ∧ bits = first.toNat % 8 ∧ 240 ≤ first.toNat ∧ first.toNat ≤ 244) := by
  unfold utf8Lead at h
  simp only [Bool.and_eq_true, decide_eq_true_eq, UInt8.le_iff_toNat_le] at h
  split_ifs at h with h1 h2 h3
  · cases h
    exact .inl ⟨rfl, rfl, h1⟩
  · cases h
    exact .inr (.inl ⟨rfl, rfl, h2⟩)
  · cases h
    exact .inr (.inr ⟨rfl, rfl, h3⟩)

/-- What is read is the encoding of a scalar value. -/
theorem exists_char_of_utf8Rest {bytes rest : List UInt8} (h : utf8Rest bytes = some rest) :
    ∃ c, bytes = String.utf8EncodeChar c ++ rest := by
  unfold utf8Rest at h
  split at h
  · cases h
  · rename_i first tail
    split at h
    · rename_i hfirst
      cases h
      obtain ⟨c, hc⟩ := exists_char_one first (by
        rw [UInt8.le_iff_toNat_le] at hfirst
        exact Nat.lt_succ_of_le hfirst)
      exact ⟨c, by rw [hc]; rfl⟩
    · split at h
      · cases h
      · rename_i tails bits hlead
        split_ifs at h with hshort htails hrefused
        cases h
        obtain ⟨rfl, rfl, hfirst⟩ | ⟨rfl, rfl, hfirst⟩ | ⟨rfl, rfl, hfirst⟩ := utf8Lead_cases hlead
        · match tail with
          | [] => simp at hshort
          | second :: rest =>
            simp at htails
            obtain ⟨c, hc⟩ := exists_char_two hfirst htails
            exact ⟨c, by rw [hc]; rfl⟩
        · match tail with
          | [] | [_] => simp at hshort
          | second :: third :: rest =>
            simp at htails
            obtain ⟨c, hc⟩ := exists_char_three hfirst htails.1 htails.2 hrefused
            exact ⟨c, by rw [hc]; rfl⟩
        · match tail with
          | [] | [_] | [_, _] => simp at hshort
          | second :: third :: fourth :: rest =>
            simp at htails
            obtain ⟨c, hc⟩ := exists_char_four hfirst htails.1 htails.2.1 htails.2.2 hrefused
            exact ⟨c, by rw [hc]; rfl⟩

/-- The lead byte says how many follow, and has the first bits of the code. -/
theorem utf8Lead_two {first : UInt8} (h : 194 ≤ first.toNat ∧ first.toNat ≤ 223) :
    utf8Lead first = some (1, first.toNat % 32) := by
  unfold utf8Lead
  rw [if_pos]
  simpa [UInt8.le_iff_toNat_le] using h

theorem utf8Lead_three {first : UInt8} (h : 224 ≤ first.toNat ∧ first.toNat ≤ 239) :
    utf8Lead first = some (2, first.toNat % 16) := by
  unfold utf8Lead
  rw [if_neg, if_pos]
  · simpa [UInt8.le_iff_toNat_le] using h
  · simp only [Bool.and_eq_true, decide_eq_true_eq, UInt8.le_iff_toNat_le, UInt8.reduceToNat]
    omega

theorem utf8Lead_four {first : UInt8} (h : 240 ≤ first.toNat ∧ first.toNat ≤ 244) :
    utf8Lead first = some (3, first.toNat % 8) := by
  unfold utf8Lead
  rw [if_neg, if_neg, if_pos]
  · simpa [UInt8.le_iff_toNat_le] using h
  all_goals
    simp only [Bool.and_eq_true, decide_eq_true_eq, UInt8.le_iff_toNat_le, UInt8.reduceToNat]
    omega

/-- A sequence behind its lead byte. -/
theorem utf8Rest_append {first : UInt8} {tail : List UInt8} {bits : ℕ} (rest : List UInt8)
    (hfirst : 128 ≤ first.toNat) (hlead : utf8Lead first = some (tail.length, bits))
    (htails : ∀ byte ∈ tail, isUtf8Tail byte)
    (hcode : ¬utf8Refused tail.length
      (tail.foldl (fun code byte => code * 64 + byte.toNat % 64) bits)) :
    utf8Rest (first :: (tail ++ rest)) = some rest := by
  have hlong : ¬first ≤ 0x7f := by
    simp only [UInt8.le_iff_toNat_le, UInt8.reduceToNat]
    omega
  have htake : (tail ++ rest).take tail.length = tail := List.take_left
  rw [utf8Rest, if_neg hlong, hlead]
  dsimp only
  rw [htake, if_neg (by simp), if_neg (by simpa using htails), if_neg hcode, List.drop_left]

/-- Six bits as a tail. -/
theorem isUtf8Tail_ofNat (n : ℕ) : isUtf8Tail (UInt8.ofNat (n % 64 + 128)) := by
  rw [isUtf8Tail_iff, toNat_ofNat_lt (by omega)]
  omega

/-- A tail byte has six bits of the code. -/
theorem tail_bits (n : ℕ) : (UInt8.ofNat (n % 64 + 128)).toNat % 64 = n % 64 := by
  rw [toNat_ofNat_lt (by omega)]
  omega

/-- The code of a scalar value is not refused, if it is not spelled too long. -/
theorem not_utf8Refused {tails code n : ℕ} (hcode : code = n) (hscalar : IsScalar n)
    (htwo : tails = 2 → 0x800 ≤ n) (hthree : tails = 3 → 0x10000 ≤ n) :
    ¬utf8Refused tails code := by
  subst hcode
  unfold IsScalar at hscalar
  simp [utf8Refused]
  omega

/-- The encoding of a scalar value is read. -/
theorem utf8Rest_utf8EncodeChar (c : Char) (rest : List UInt8) :
    utf8Rest (String.utf8EncodeChar c ++ rest) = some rest := by
  have hscalar := isScalar_toNat c
  have hmax := hscalar.1
  obtain ⟨hn, h⟩ | ⟨hlow, hhigh, h⟩ | ⟨hlow, hhigh, h⟩ | ⟨hlow, h⟩ := utf8EncodeChar_cases c
  · rw [h, List.singleton_append, utf8Rest, if_pos]
    simp only [UInt8.le_iff_toNat_le, toNat_ofNat_lt (show c.toNat < 256 by omega),
      UInt8.reduceToNat]
    omega
  · have hfirst := @toNat_ofNat_lt (c.toNat / 64 % 32 + 192) (by omega)
    rw [h]
    refine utf8Rest_append rest (by omega) (utf8Lead_two (by omega)) ?_ ?_
    · simp only [List.forall_mem_cons, isUtf8Tail_ofNat, List.not_mem_nil,
        false_implies, implies_true, and_self]
    · refine not_utf8Refused ?_ hscalar (by simp) (by simp)
      simp only [List.foldl_cons, List.foldl_nil, tail_bits, hfirst]
      omega
  · have hfirst := @toNat_ofNat_lt (c.toNat / 4096 % 16 + 224) (by omega)
    rw [h]
    refine utf8Rest_append rest (by omega) (utf8Lead_three (by omega)) ?_ ?_
    · simp only [List.forall_mem_cons, isUtf8Tail_ofNat, List.not_mem_nil,
        false_implies, implies_true, and_self]
    · refine not_utf8Refused ?_ hscalar (fun _ => hlow) (by simp)
      simp only [List.foldl_cons, List.foldl_nil, tail_bits, hfirst]
      omega
  · have hfirst := @toNat_ofNat_lt (c.toNat / 262144 % 8 + 240) (by omega)
    rw [h]
    refine utf8Rest_append rest (by omega) (utf8Lead_four (by omega)) ?_ ?_
    · simp only [List.forall_mem_cons, isUtf8Tail_ofNat, List.not_mem_nil,
        false_implies, implies_true, and_self]
    · refine not_utf8Refused ?_ hscalar (by simp) (fun _ => hlow)
      simp only [List.foldl_cons, List.foldl_nil, tail_bits, hfirst]
      omega

/-- **A sequence is read if and only if it encodes a scalar value.** -/
theorem utf8Rest_eq_some_iff {bytes rest : List UInt8} :
    utf8Rest bytes = some rest ↔ ∃ c, bytes = String.utf8EncodeChar c ++ rest := by
  refine ⟨exists_char_of_utf8Rest, ?_⟩
  rintro ⟨c, rfl⟩
  exact utf8Rest_utf8EncodeChar c rest

/-- A text is UTF-8 if and only if a sequence can be read, and what is behind it is UTF-8. -/
theorem isUtf8_cons_iff {byte : UInt8} {bytes : List UInt8} :
    IsUtf8 (byte :: bytes) ↔ ∃ rest, utf8Rest (byte :: bytes) = some rest ∧ IsUtf8 rest := by
  constructor
  · rintro ⟨text, htext⟩
    cases text with
    | nil => cases htext
    | cons c text =>
      rw [List.flatMap_cons] at htext
      exact ⟨_, by rw [htext, utf8Rest_utf8EncodeChar], text, rfl⟩
  · rintro ⟨rest, hrest, htext⟩
    obtain ⟨c, hc⟩ := utf8Rest_eq_some_iff.mp hrest
    rw [hc]
    exact isUtf8_append htext

/-- Behind a lead byte no byte of the sequence is ASCII. -/
theorem exists_sequence_of_utf8Rest {first : UInt8} {bytes rest : List UInt8}
    (hfirst : ¬first ≤ 0x7f) (h : utf8Rest (first :: bytes) = some rest) :
    ∃ sequence, first :: bytes = sequence ++ rest ∧ ∀ byte ∈ sequence, ¬byte ≤ 0x7f := by
  rw [utf8Rest, if_neg hfirst] at h
  split at h
  · cases h
  · rename_i tails bits hlead
    split_ifs at h with hshort htails hrefused
    cases h
    refine ⟨first :: bytes.take
      tails, by simp, List.forall_mem_cons.mpr ⟨hfirst, fun byte hbyte => ?_⟩⟩
    have htail : isUtf8Tail byte := by
      rw [Bool.not_eq_true', Bool.not_eq_false, List.all_eq_true] at htails
      exact htails byte hbyte
    have := (isUtf8Tail_iff byte).mp htail
    simp only [UInt8.le_iff_toNat_le, UInt8.reduceToNat]
    omega

/-! ## The table of well-formed sequences -/

/-- A byte of a range. -/
def InRange (low high : ℕ) (byte : UInt8) : Prop := low ≤ byte.toNat ∧ byte.toNat ≤ high

/-- **A well-formed sequence**, by the ranges of its bytes.  The second byte is restricted behind
`e0` and `f0` (no overlong form), `ed` (no surrogate) and `f4` (nothing above `10ffff`). -/
inductive Utf8Sequence : List UInt8 → Prop
  | one {a : UInt8} : InRange 0x00 0x7f a → Utf8Sequence [a]
  | two {a b : UInt8} : InRange 0xc2 0xdf a → InRange 0x80 0xbf b → Utf8Sequence [a, b]
  | three {a b c : UInt8} : InRange 0xe0 0xef a →
      InRange (if a.toNat = 0xe0 then 0xa0 else 0x80) (if a.toNat = 0xed then 0x9f else 0xbf) b →
      InRange 0x80 0xbf c → Utf8Sequence [a, b, c]
  | four {a b c d : UInt8} : InRange 0xf0 0xf4 a →
      InRange (if a.toNat = 0xf0 then 0x90 else 0x80) (if a.toNat = 0xf4 then 0x8f else 0xbf) b →
      InRange 0x80 0xbf c → InRange 0x80 0xbf d → Utf8Sequence [a, b, c, d]

theorem isUtf8Tail_of_inRange {low high : ℕ} {byte : UInt8} (h : InRange low high byte)
    (hlow : 0x80 ≤ low) (hhigh : high ≤ 0xbf) : isUtf8Tail byte := by
  rw [isUtf8Tail_iff]
  unfold InRange at h
  omega

/-- **The well-formed sequences are the encodings of the scalar values.** -/
theorem utf8Sequence_iff {sequence : List UInt8} :
    Utf8Sequence sequence ↔ ∃ c, sequence = String.utf8EncodeChar c := by
  constructor
  · rintro (ha | ⟨ha, hb⟩ | ⟨ha, hb, hc⟩ | ⟨ha, hb, hc, hd⟩)
    · obtain ⟨c, h⟩ := exists_char_one _ (Nat.lt_succ_of_le ha.2)
      exact ⟨c, h.symm⟩
    · obtain ⟨c, h⟩ := exists_char_two ha (isUtf8Tail_of_inRange hb (by decide) (by decide))
      exact ⟨c, h.symm⟩
    · obtain ⟨c, h⟩ := exists_char_three ha
        (isUtf8Tail_of_inRange hb (by split <;> decide) (by split <;> decide))
        (isUtf8Tail_of_inRange hc (by decide) (by decide)) (by
          unfold InRange at ha hb hc
          simp only [utf8Refused, Bool.or_eq_true, Bool.and_eq_true, beq_iff_eq, decide_eq_true_eq]
          split at hb <;> split at hb <;> omega)
      exact ⟨c, h.symm⟩
    · obtain ⟨c, h⟩ := exists_char_four ha
        (isUtf8Tail_of_inRange hb (by split <;> decide) (by split <;> decide))
        (isUtf8Tail_of_inRange hc (by decide) (by decide))
        (isUtf8Tail_of_inRange hd (by decide) (by decide)) (by
          unfold InRange at ha hb hc hd
          simp only [utf8Refused, Bool.or_eq_true, Bool.and_eq_true, beq_iff_eq, decide_eq_true_eq]
          split at hb <;> split at hb <;> omega)
      exact ⟨c, h.symm⟩
  · rintro ⟨c, rfl⟩
    have hscalar := isScalar_toNat c
    unfold IsScalar at hscalar
    have hbyte : ∀ {n low high : ℕ}, n < 256 → low ≤ n → n ≤ high →
        InRange low high (UInt8.ofNat n) := fun hn hlow hhigh => by
      unfold InRange
      rw [toNat_ofNat_lt hn]
      exact ⟨hlow, hhigh⟩
    obtain ⟨hhigh, h⟩ | ⟨hlow, hhigh, h⟩ | ⟨hlow, hhigh, h⟩ | ⟨hlow, h⟩ := utf8EncodeChar_cases c
    all_goals rw [h]
    · exact .one (hbyte (by omega) (by omega) (by omega))
    · exact .two (hbyte (by omega) (by omega) (by omega)) (hbyte (by omega) (by omega) (by omega))
    · refine .three (hbyte (by omega) (by omega) (by omega)) ?_
        (hbyte (by omega) (by omega) (by omega))
      rw [toNat_ofNat_lt (by omega)]
      refine hbyte (by omega) ?_ ?_ <;> split <;> omega
    · refine .four (hbyte (by omega) (by omega) (by omega)) ?_
        (hbyte (by omega) (by omega) (by omega)) (hbyte (by omega) (by omega) (by omega))
      rw [toNat_ofNat_lt (by omega)]
      refine hbyte (by omega) ?_ ?_ <;> split <;> omega

/-- **UTF-8 is a concatenation of well-formed sequences.** -/
theorem isUtf8_iff_sequences {bytes : List UInt8} :
    IsUtf8 bytes ↔
      ∃ sequences : List (List UInt8), (∀ sequence ∈ sequences, Utf8Sequence sequence) ∧
        bytes = sequences.flatten := by
  constructor
  · rintro ⟨text, rfl⟩
    refine ⟨text.map String.utf8EncodeChar, ?_, List.flatMap_def⟩
    rw [List.forall_mem_map]
    exact fun c _ => utf8Sequence_iff.mpr ⟨c, rfl⟩
  · rintro ⟨sequences, hsequences, rfl⟩
    induction sequences with
    | nil => exact isUtf8_nil
    | cons sequence sequences ih =>
      rw [List.forall_mem_cons] at hsequences
      obtain ⟨c, rfl⟩ := utf8Sequence_iff.mp hsequences.1
      exact isUtf8_append (ih hsequences.2)

end Machinery
