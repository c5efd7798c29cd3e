import VirtualPostgreSQL.Arguments.Quoting
import VirtualPostgreSQL.Identity.Normalize
import VirtualPostgreSQL.Machinery.Buffer
import VirtualPostgreSQL.Query.Rounds

/-!
# Text/Utf8 — the validators of UTF-8

The loops of `vps_argument_utf8_is_valid` and `vps_utf8_is_valid`, and
`vps_query_utf8_sequence_length`, by the offsets they read and in the arithmetic of `uint32_t`.  A
read at or beyond the length is a fault; `utf8_validators_agree` says that there is none, and that
all of them accept the concatenations of well-formed sequences.
-/

namespace Vps

open Machinery

/-! ## A sequence -/

/-- `(code_point << 6) | (continuation & 0x3f)` -/
def utf8Push (code : UInt32) (continuation : UInt8) : UInt32 :=
  (code <<< 6) ||| (continuation &&& 0x3f).toUInt32

/-- The bits of a lead byte, and how many bytes follow it. -/
def utf8LeadBits (first : UInt8) : Option (UInt32 × ℕ) :=
  if 0xc2 ≤ first && first ≤ 0xdf then some ((first &&& 0x1f).toUInt32, 1)
  else if 0xe0 ≤ first && first ≤ 0xef then some ((first &&& 0x0f).toUInt32, 2)
  else if 0xf0 ≤ first && first ≤ 0xf4 then some ((first &&& 0x07).toUInt32, 3)
  else none

/-- The loop over the bytes behind a lead; `none` where one is no continuation. -/
def utf8ContinuationsAt (buffer : List UInt8) : ℕ → ℕ → UInt32 → Buffered (Option UInt32)
  | 0, _, code => return some code
  | count + 1, offset, code => do
    let continuation ← byteAt buffer offset
    if continuation &&& 0xc0 != 0x80 then return none
    else utf8ContinuationsAt buffer count (offset + 1) (utf8Push code continuation)

/-- The last test of a sequence with so many bytes behind the lead. -/
def utf8PointRefused (count : ℕ) (code : UInt32) : Bool :=
  (count == 2 && code < 0x800) || (count == 3 && code < 0x10000) || code > 0x10ffff ||
    (code ≥ 0xd800 && code ≤ 0xdfff)

/-- Whether the bytes behind a lead complete the sequence. -/
def utf8TailsAt (buffer : List UInt8) (count offset : ℕ) (code : UInt32) : Buffered Bool := do
  match ← utf8ContinuationsAt buffer count offset code with
  | none => return false
  | some code => return !utf8PointRefused count code

/-! ## The validators -/

/-- The loop of the validators; `plain` says which of the bytes below 128 are accepted. -/
def utf8LoopAt (plain : UInt8 → Bool) (buffer : List UInt8) : ℕ → ℕ → Buffered Bool
  | rounds, index =>
    if index < buffer.length then
      match rounds with
      | 0 => .error .rounds
      | rounds + 1 => do
        let first ← byteAt buffer index
        if first ≤ 0x7f then
          if plain first then utf8LoopAt plain buffer rounds (index + 1) else return false
        else match utf8LeadBits first with
        | none => return false
        | some (code, count) =>
          if count > buffer.length - index - 1 then return false
          else if !(← utf8TailsAt buffer count (index + 1) code) then return false
          else utf8LoopAt plain buffer rounds (index + (count + 1))
    else return true

/-- **`vps_argument_utf8_is_valid`.** -/
def argumentUtf8IsValidAt (value : List UInt8) : Buffered Bool :=
  utf8LoopAt (fun _ => true) value value.length 0

/-- The bytes below 128 that are neither NUL nor, if these are rejected, controls. -/
def utf8Plain (rejectControls : Bool) (first : UInt8) : Bool :=
  !(first == 0 || (rejectControls && (first < 0x20 || first == 0x7f)))

/-- **`vps_utf8_is_valid`.** -/
def utf8IsValidAt (value : List UInt8) (rejectControls : Bool) : Buffered Bool :=
  utf8LoopAt (utf8Plain rejectControls) value value.length 0

/-- **`vps_query_utf8_sequence_length`** of what `remaining` bytes from an offset on begin with. -/
def queryUtf8SequenceLengthAt (bytes : List UInt8) (offset remaining : ℕ) : Buffered (Option ℕ) :=
  if remaining = 0 then return none
  else do
    let first ← byteAt bytes offset
    if first < 0x80 then return some 1
    else match utf8LeadBits first with
    | none => return none
    | some (codepoint, count) =>
      let length := count + 1
      if remaining < length then return none
      else if !(← utf8TailsAt bytes (length - 1) (offset + 1) codepoint) then return none
      else return some length

/-- The sequences of a query, one after the other. -/
def queryUtf8IsValidAt (query : List UInt8) : ℕ → ℕ → Buffered Bool
  | rounds, offset =>
    if offset < query.length then
      match rounds with
      | 0 => .error .rounds
      | rounds + 1 => do
        match ← queryUtf8SequenceLengthAt query offset (query.length - offset) with
        | none => return false
        | some length => queryUtf8IsValidAt query rounds (offset + length)
    else return true

/-! ## The bits of a sequence -/

theorem utf8LeadBits_eq (first : UInt8) :
    utf8Lead first = (utf8LeadBits first).map fun lead => (lead.2, lead.1.toNat) :=
  byte_induction (P := fun first => utf8Lead first =
    (utf8LeadBits first).map fun lead => (lead.2, lead.1.toNat)) 256 (by decide +kernel) first
    first.toNat_lt

theorem utf8PointRefused_eq (count : ℕ) (code : UInt32) :
    utf8PointRefused count code = utf8Refused count code.toNat := by
  simp only [utf8PointRefused, utf8Refused, UInt32.lt_iff_toNat_lt,
    UInt32.le_iff_toNat_le, gt_iff_lt, ge_iff_le, UInt32.reduceToNat]

/-- Six bits are put behind the others, which are not lost. -/
theorem toNat_utf8Push {code : UInt32} (continuation : UInt8) (h : code.toNat < 2 ^ 26) :
    (utf8Push code continuation).toNat = code.toNat * 64 + continuation.toNat % 64 := by
  have hbits : continuation.toNat % 64 < 2 ^ 6 := Nat.mod_lt _ (by decide)
  have hshift : (code <<< 6).toNat = code.toNat <<< 6 := by
    rw [UInt32.toNat_shiftLeft, Nat.shiftLeft_eq, Nat.shiftLeft_eq]
    exact Nat.mod_eq_of_lt (by simp only [UInt32.reduceToNat, Nat.reduceMod]; omega)
  rw [utf8Push, UInt32.toNat_or, hshift, UInt8.toNat_toUInt32, (toNat_and_mask continuation).2.2.2,
    ← Nat.shiftLeft_add_eq_or_of_lt hbits, Nat.shiftLeft_eq]

/-- The continuations of a sequence, put behind the bits of its lead. -/
theorem toNat_foldl_utf8Push {code : UInt32} {tail : List UInt8}
    (h : (code.toNat + 1) * 64 ^ tail.length ≤ 2 ^ 32) :
    (tail.foldl utf8Push code).toNat =
      tail.foldl (fun code byte => code * 64 + byte.toNat % 64) code.toNat := by
  induction tail generalizing code with
  | nil => rfl
  | cons byte tail ih =>
    rw [List.length_cons, pow_succ'] at h
    have hpos : 1 ≤ 64 ^ tail.length := Nat.one_le_pow _ _ (by decide)
    have hcode : code.toNat < 2 ^ 26 := by nlinarith
    have hpush := toNat_utf8Push byte hcode
    have hbits : byte.toNat % 64 < 64 := Nat.mod_lt _ (by decide)
    rw [List.foldl_cons, List.foldl_cons, ih (by rw [hpush]; nlinarith), hpush]

section Sequence

variable {buffer text : List UInt8} {offset count : ℕ} {code : UInt32} {first : UInt8}

/-- The loop over the continuations reads as many bytes as there are to be. -/
theorem utf8ContinuationsAt_eq (h : Stands buffer offset text) (hcount : count ≤ text.length) :
    utf8ContinuationsAt buffer count offset code =
      .ok (if (text.take count).all isUtf8Tail then some ((text.take count).foldl utf8Push code)
        else none) := by
  induction count generalizing offset text code with
  | zero => rfl
  | succ count ih =>
    cases text with
    | nil => cases hcount
    | cons byte text =>
      rw [utf8ContinuationsAt, h.byteAt, ok_bind]
      by_cases hbyte : isUtf8Tail byte
      · rw [if_neg (by simpa [isUtf8Tail] using hbyte),
          ih h.tail (Nat.le_of_succ_le_succ hcount)]
        simp only [List.take_succ_cons, List.all_cons, List.foldl_cons, hbyte, Bool.true_and]
      · rw [if_pos (by simpa [isUtf8Tail] using hbyte)]
        simp only [List.take_succ_cons, List.all_cons, hbyte, Bool.false_and]
        rfl

/-- What a lead says of the bytes behind it. -/
theorem utf8LeadBits_bound (h : utf8LeadBits first = some (code, count)) :
    (code.toNat + 1) * 64 ^ count ≤ 2 ^ 32 := by
  have hlead : utf8Lead first = some (count, code.toNat) := by rw [utf8LeadBits_eq, h]; rfl
  obtain ⟨rfl, hcode, -⟩ | ⟨rfl, hcode, -⟩ | ⟨rfl, hcode, -⟩ := utf8Lead_cases hlead
  all_goals omega

theorem utf8Rest_of_no_lead (hfirst : ¬first ≤ 0x7f) (hlead : utf8LeadBits first = none) :
    utf8Rest (first :: text) = none := by
  rw [utf8Rest, if_neg hfirst, utf8LeadBits_eq, hlead]
  rfl

theorem utf8Rest_of_short (hfirst : ¬first ≤ 0x7f) (hlead : utf8LeadBits first = some (code, count))
    (hcount : text.length < count) : utf8Rest (first :: text) = none := by
  rw [utf8Rest, if_neg hfirst, utf8LeadBits_eq, hlead]
  dsimp only [Option.map_some]
  rw [if_pos hcount]

/-- **The bytes behind a lead complete it** exactly where a sequence can be read. -/
theorem utf8TailsAt_spec (h : Stands buffer offset text) (hcount : count ≤ text.length)
    (hfirst : ¬first ≤ 0x7f) (hlead : utf8LeadBits first = some (code, count)) :
    ∃ complete : Bool, utf8TailsAt buffer count offset code = .ok complete ∧
      utf8Rest (first :: text) = if complete then some (text.drop count) else none := by
  have hlength : (text.take count).length = count := List.length_take_of_le hcount
  have hpoint : ((text.take count).foldl utf8Push code).toNat = (text.take count).foldl
      (fun code byte => code * 64 + byte.toNat % 64) code.toNat :=
    toNat_foldl_utf8Push (by rw [hlength]; exact utf8LeadBits_bound hlead)
  rw [utf8TailsAt, utf8ContinuationsAt_eq h hcount, utf8Rest, if_neg hfirst, utf8LeadBits_eq, hlead]
  dsimp only [Option.map_some]
  rw [if_neg (Nat.not_lt.mpr hcount)]
  cases htails : (text.take count).all isUtf8Tail with
  | false => exact ⟨false, rfl, rfl⟩
  | true =>
    refine ⟨!utf8PointRefused count ((text.take count).foldl utf8Push code), rfl, ?_⟩
    rw [utf8PointRefused_eq, hpoint]
    cases utf8Refused count ((text.take count).foldl _ code.toNat) <;> rfl

/-- **The sequence length is that of the list.** -/
theorem queryUtf8SequenceLengthAt_eq (h : Stands buffer offset text) :
    queryUtf8SequenceLengthAt buffer offset text.length = .ok (queryUtf8SequenceLength text) := by
  rw [queryUtf8SequenceLength_eq]
  cases text with
  | nil => rfl
  | cons first text =>
    have hascii : first < 0x80 ↔ first ≤ 0x7f := by
      rw [UInt8.lt_iff_toNat_lt, UInt8.le_iff_toNat_le]
      exact Nat.lt_succ_iff
    rw [queryUtf8SequenceLengthAt, if_neg (by simp), h.byteAt, ok_bind]
    simp only [hascii]
    split
    · rename_i hfirst
      rw [utf8Rest, if_pos hfirst]
      simp
      rfl
    · rename_i hfirst
      cases hlead : utf8LeadBits first with
      | none =>
        rw [utf8Rest_of_no_lead hfirst hlead]
        rfl
      | some lead =>
        obtain ⟨code, count⟩ := lead
        dsimp only
        by_cases hcount : count ≤ text.length
        · obtain ⟨complete, htails, hrest⟩ := utf8TailsAt_spec h.tail hcount hfirst hlead
          rw [if_neg (by simp; omega), Nat.add_sub_cancel, htails, hrest]
          cases complete with
          | false => rfl
          | true =>
            have hlength : (first :: text).length - (text.drop count).length = count + 1 := by
              rw [List.length_cons, List.length_drop]
              omega
            rw [if_pos rfl, Option.map_some, hlength]
            rfl
        · have hshort := Nat.not_le.mp hcount
          rw [if_pos (by simpa using hshort), utf8Rest_of_short hfirst hlead hshort]
          rfl

theorem not_isUtf8_of_utf8Rest (h : utf8Rest (first :: text) = none) : ¬IsUtf8 (first :: text) := by
  rw [isUtf8_cons_iff, h]
  simp

/-- What is plain is asked behind a sequence of more than a byte only. -/
theorem isUtf8_plain_iff (plain : UInt8 → Bool) {rest : List UInt8} (hfirst : ¬first ≤ 0x7f)
    (hread : utf8Rest (first :: text) = some rest) :
    (IsUtf8 (first :: text) ∧ ∀ byte ∈ first :: text, byte ≤ 0x7f → plain byte) ↔
      IsUtf8 rest ∧ ∀ byte ∈ rest, byte ≤ 0x7f → plain byte := by
  obtain ⟨sequence, hsequence, hlong⟩ := exists_sequence_of_utf8Rest hfirst hread
  refine and_congr ?_ ?_
  · rw [isUtf8_cons_iff, hread]
    simp
  · rw [hsequence, List.forall_mem_append]
    exact and_iff_right fun byte hbyte hascii => absurd hascii (hlong byte hbyte)

/-- **The loop of a validator** reads to the end, and accepts UTF-8 with plain bytes. -/
theorem utf8LoopAt_spec (plain : UInt8 → Bool) {rounds : ℕ} (h : Stands buffer offset text)
    (hrounds : text.length ≤ rounds) :
    ∃ accepted : Bool, utf8LoopAt plain buffer rounds offset = .ok accepted ∧
      (accepted ↔ IsUtf8 text ∧ ∀ byte ∈ text, byte ≤ 0x7f → plain byte) := by
  induction rounds generalizing offset text with
  | zero =>
    obtain rfl := List.length_eq_zero_iff.mp (Nat.le_zero.mp hrounds)
    refine ⟨true, ?_, by simp [isUtf8_nil]⟩
    rw [utf8LoopAt, if_neg (by rw [h.length]; simp)]
    rfl
  | succ rounds ih =>
    cases text with
    | nil =>
      refine ⟨true, ?_, by simp [isUtf8_nil]⟩
      rw [utf8LoopAt, if_neg (by rw [h.length]; simp)]
      rfl
    | cons first text =>
      have hrest : text.length ≤ rounds := Nat.le_of_succ_le_succ hrounds
      rw [utf8LoopAt, if_pos h.lt]
      simp only [h.byteAt, ok_bind]
      split
      · rename_i hfirst
        have hread : utf8Rest (first :: text) = some text := by rw [utf8Rest, if_pos hfirst]
        split
        · rename_i hplain
          obtain ⟨accepted, hloop, haccepted⟩ := ih h.tail hrest
          refine ⟨accepted, hloop, ?_⟩
          rw [haccepted, isUtf8_cons_iff, hread]
          simp [hplain]
        · rename_i hplain
          refine ⟨false, rfl, iff_of_false (by simp) fun haccepted => hplain ?_⟩
          exact haccepted.2 first List.mem_cons_self hfirst
      · rename_i hfirst
        have hrefused : utf8Rest (first :: text) = none → ∃ accepted : Bool,
            (.ok false : Buffered Bool) = .ok accepted ∧ (accepted ↔
              IsUtf8 (first :: text) ∧ ∀ byte ∈ first :: text, byte ≤ 0x7f →
                plain byte) := fun hread =>
          ⟨false, rfl, iff_of_false (by simp) fun haccepted =>
            not_isUtf8_of_utf8Rest hread haccepted.1⟩
        have hremaining : buffer.length - offset - 1 = text.length := by rw [h.remaining]; rfl
        cases hlead : utf8LeadBits first with
        | none => exact hrefused (utf8Rest_of_no_lead hfirst hlead)
        | some lead =>
          obtain ⟨code, count⟩ := lead
          dsimp only
          rw [hremaining]
          by_cases hcount : count ≤ text.length
          · obtain ⟨complete, htails, hread⟩ := utf8TailsAt_spec h.tail hcount hfirst hlead
            rw [if_neg (Nat.not_lt.mpr hcount), htails, ok_bind]
            cases complete with
            | false => exact hrefused hread
            | true =>
              have hstands : Stands buffer (offset + (count + 1)) (text.drop count) := by
                rw [Nat.add_comm count, ← Nat.add_assoc]
                exact h.tail.drop hcount
              obtain ⟨accepted, hloop, haccepted⟩ := ih hstands
                ((List.drop_sublist count text).length_le.trans hrest)
              exact ⟨accepted, hloop, haccepted.trans (isUtf8_plain_iff plain hfirst hread).symm⟩
          · have hshort := Nat.not_le.mp hcount
            rw [if_pos hshort]
            exact hrefused (utf8Rest_of_short hfirst hlead hshort)

/-- **The sequences of a query** are read to the end, if all are well formed. -/
theorem queryUtf8IsValidAt_spec {rounds : ℕ} (h : Stands buffer offset text)
    (hrounds : text.length ≤ rounds) :
    ∃ accepted : Bool, queryUtf8IsValidAt buffer rounds offset = .ok accepted ∧
      (accepted ↔ IsUtf8 text) := by
  induction rounds generalizing offset text with
  | zero =>
    obtain rfl := List.length_eq_zero_iff.mp (Nat.le_zero.mp hrounds)
    refine ⟨true, ?_, by simp [isUtf8_nil]⟩
    rw [queryUtf8IsValidAt, if_neg (by rw [h.length]; simp)]
    rfl
  | succ rounds ih =>
    cases text with
    | nil =>
      refine ⟨true, ?_, by simp [isUtf8_nil]⟩
      rw [queryUtf8IsValidAt, if_neg (by rw [h.length]; simp)]
      rfl
    | cons first text =>
      rw [queryUtf8IsValidAt, if_pos h.lt]
      simp only [h.remaining, queryUtf8SequenceLengthAt_eq h, ok_bind, queryUtf8SequenceLength_eq]
      cases hread : utf8Rest (first :: text) with
      | none => exact ⟨false, rfl, iff_of_false (by simp) (not_isUtf8_of_utf8Rest hread)⟩
      | some rest =>
        obtain ⟨c, hc⟩ := exists_char_of_utf8Rest hread
        have hlength := congrArg List.length hc
        rw [List.length_append] at hlength
        have hstands := h.drop (n := (String.utf8EncodeChar c).length) (by omega)
        rw [hc, List.drop_left] at hstands
        obtain ⟨accepted, hloop, haccepted⟩ := ih hstands (by
          have := utf8Rest_length hread
          rw [List.length_cons] at this hrounds
          omega)
        refine ⟨accepted, ?_, by rw [haccepted, isUtf8_cons_iff, hread]; simp⟩
        rw [Option.map_some, hlength, Nat.add_sub_cancel]
        exact hloop

end Sequence

/-! ## The validators -/

theorem argumentUtf8IsValidAt_eq (value : List UInt8) :
    argumentUtf8IsValidAt value = .ok (argumentUtf8IsValid value) := by
  obtain ⟨accepted, hloop, haccepted⟩ := utf8LoopAt_spec (fun _ => true) (Stands.zero value) le_rfl
  rw [argumentUtf8IsValidAt, hloop, Except.ok.injEq, Bool.eq_iff_iff,
    argumentUtf8IsValid_iff, haccepted]
  simp

/-- The bytes that are not plain are all below 128. -/
theorem utf8Plain_iff (byte : UInt8) (rejectControls : Bool) :
    (byte ≤ 0x7f → utf8Plain rejectControls byte) ↔
      byte ≠ 0 ∧ (rejectControls → ¬isControl byte) :=
  byte_induction (P := fun byte => ∀ rejectControls : Bool,
    (byte ≤ 0x7f → utf8Plain rejectControls byte) ↔
      byte ≠ 0 ∧ (rejectControls → ¬isControl byte)) 256 (by decide +kernel) byte byte.toNat_lt
    rejectControls

theorem utf8IsValidAt_spec (value : List UInt8) (rejectControls : Bool) :
    ∃ accepted : Bool, utf8IsValidAt value rejectControls = .ok accepted ∧
      (accepted ↔ IsUtf8 value ∧ ∀ byte ∈ value, byte ≠ 0 ∧
        (rejectControls → ¬isControl byte)) := by
  obtain ⟨accepted, hloop, haccepted⟩ := utf8LoopAt_spec (utf8Plain rejectControls)
    (Stands.zero value) le_rfl
  refine ⟨accepted, hloop, haccepted.trans (and_congr_right fun _ => ?_)⟩
  exact forall_congr' fun byte => imp_congr_right fun _ => utf8Plain_iff byte rejectControls

/-- **The validators of UTF-8 agree**: none reads at or beyond the length, and all accept the
concatenations of well-formed sequences; `vps_utf8_is_valid` refuses a NUL, and controls where it is
asked to. -/
theorem utf8_validators_agree (value : List UInt8) :
    ∃ accepted : Bool,
      (accepted ↔ ∃ sequences : List (List UInt8), (∀ sequence ∈ sequences, Utf8Sequence sequence) ∧
        value = sequences.flatten) ∧
      argumentUtf8IsValidAt value = .ok accepted ∧
      queryUtf8IsValidAt value value.length 0 = .ok accepted ∧
      (0 ∉ value → utf8IsValidAt value false = .ok accepted) ∧
      ∀ rejectControls, ∃ kept : Bool, utf8IsValidAt value rejectControls = .ok kept ∧
        (kept ↔ accepted ∧ ∀ byte ∈ value, byte ≠ 0 ∧ (rejectControls → ¬isControl byte)) := by
  have hargument : argumentUtf8IsValid value ↔ IsUtf8 value := argumentUtf8IsValid_iff value
  obtain ⟨queried, hquery, hqueried⟩ := queryUtf8IsValidAt_spec (Stands.zero value) le_rfl
  refine ⟨argumentUtf8IsValid value, by rw [hargument, isUtf8_iff_sequences],
    argumentUtf8IsValidAt_eq value, ?_, fun hnul => ?_, fun rejectControls => ?_⟩
  · rw [hquery, Except.ok.injEq, Bool.eq_iff_iff, hqueried, hargument]
  · obtain ⟨kept, hkept, hiff⟩ := utf8IsValidAt_spec value false
    rw [hkept, Except.ok.injEq, Bool.eq_iff_iff, hiff, hargument]
    refine and_iff_left fun byte hbyte => ⟨?_, by simp⟩
    rintro rfl
    exact hnul hbyte
  · obtain ⟨kept, hkept, hiff⟩ := utf8IsValidAt_spec value rejectControls
    exact ⟨kept, hkept, by rw [hiff, hargument]⟩

end Vps
