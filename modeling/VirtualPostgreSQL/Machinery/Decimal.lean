import Mathlib.Data.Nat.Digits.Lemmas
import Mathlib.Algebra.Order.Ring.Int
import Mathlib.Tactic.IntervalCases
import VirtualPostgreSQL.Machinery.Ascii

/-!
# Machinery/Decimal — numbers as text

The decimal text of an integer, byte by byte, as `printf` writes it and an input function reads it
back: `parseDecimalInt_decimalInt` is the round trip.
-/

namespace Machinery

/-! ## Writing -/

/-- The decimal text of a natural number. -/
def decimal (n : ℕ) : List UInt8 :=
  if n = 0 then [48] else (Nat.digits 10 n).reverse.map fun d => 48 + d.toUInt8

/-- The decimal text of an integer. -/
def decimalInt : ℤ → List UInt8
  | .ofNat n => decimal n
  | .negSucc n => 45 :: decimal (n + 1)

/-! ## Reading -/

/-- Read digits to the end, on top of the value read so far. -/
def parseDigits : List UInt8 → ℕ → Option ℕ
  | [], value => some value
  | byte :: rest, value =>
    if isDigit byte then parseDigits rest (value * 10 + (byte.toNat - 48)) else none

/-- Read a natural number: one digit at least. -/
def parseDecimal : List UInt8 → Option ℕ
  | [] => none
  | byte :: rest => parseDigits (byte :: rest) 0

/-- Read an integer. -/
def parseDecimalInt : List UInt8 → Option ℤ
  | 45 :: rest => (parseDecimal rest).map fun n : ℕ => -(n : ℤ)
  | text => (parseDecimal text).map fun n : ℕ => (n : ℤ)

/-! ## The round trip -/

theorem digit_lt {d : ℕ} (h : d < 10) : isDigit (48 + d.toUInt8) = true ∧
    (48 + d.toUInt8).toNat - 48 = d := by
  interval_cases d <;> decide

/-- Digits that are spelled out are read as their number. -/
theorem parseDigits_map : ∀ {ds : List ℕ} (_ : ∀ d ∈ ds, d < 10) (value : ℕ),
    parseDigits (ds.map fun d => 48 + d.toUInt8) value =
      some (ds.foldl (fun value d => value * 10 + d) value)
  | [], _, _ => rfl
  | d :: ds, h, value => by
    obtain ⟨hdigit, hvalue⟩ := digit_lt (h d List.mem_cons_self)
    rw [List.map_cons, parseDigits, hdigit, if_pos rfl, hvalue, List.foldl_cons]
    exact parseDigits_map (fun d hd => h d (List.mem_cons_of_mem _ hd)) _

theorem foldl_reverse_digits (n : ℕ) :
    (Nat.digits 10 n).reverse.foldl (fun value d => value * 10 + d) 0 = n := by
  have hfold := Nat.ofDigits_eq_foldr 10 (Nat.digits 10 n)
  rw [Nat.ofDigits_digits] at hfold
  rw [List.foldl_reverse]
  conv_rhs => rw [hfold]
  refine congrArg (fun f => List.foldr f 0 (Nat.digits 10 n)) ?_
  funext d value
  rw [Nat.cast_id, Nat.mul_comm, Nat.add_comm]

/-- No number is written as nothing. -/
theorem decimal_ne_nil (n : ℕ) : decimal n ≠ [] := by
  rw [decimal]
  split
  · exact List.cons_ne_nil _ _
  · rename_i h
    simpa [List.map_eq_nil_iff, Nat.digits_eq_nil_iff_eq_zero] using h

/-- **A number that is written in decimal is read back.** -/
theorem parseDecimal_decimal (n : ℕ) : parseDecimal (decimal n) = some n := by
  have hread : parseDigits (decimal n) 0 = some n := by
    rw [decimal]
    split
    · rename_i h
      rw [h]
      rfl
    · rw [parseDigits_map, foldl_reverse_digits]
      intro d hd
      exact Nat.digits_lt_base (by decide) (List.mem_reverse.mp hd)
  cases h : decimal n with
  | nil => exact absurd h (decimal_ne_nil n)
  | cons byte rest => rw [parseDecimal, ← h, hread]

theorem parseDecimal_eq_some_iff {text : List UInt8} {n : ℕ} :
    parseDecimal text = some n ↔ text ≠ [] ∧ parseDigits text 0 = some n := by
  cases text with
  | nil => simp [parseDecimal]
  | cons byte rest => simp [parseDecimal]

/-- More digits do not make a number smaller. -/
theorem le_of_parseDigits {digits : List UInt8} {value n : ℕ}
    (h : parseDigits digits value = some n) :
    value ≤ n := by
  induction digits generalizing value with
  | nil => exact (Option.some.inj h).le
  | cons byte digits ih =>
    rw [parseDigits] at h
    split at h
    · have := ih h
      omega
    · cases h

/-- The text of a natural number starts with a digit. -/
theorem isDigit_of_mem_decimal {n : ℕ} {byte : UInt8} (h : byte ∈ decimal n) :
    isDigit byte = true := by
  rw [decimal] at h
  split at h
  · rw [List.mem_singleton.mp h]
    rfl
  · obtain ⟨d, hd, rfl⟩ := List.mem_map.mp h
    exact (digit_lt (Nat.digits_lt_base (by decide) (List.mem_reverse.mp hd))).1

/-- So numbers are told apart by their decimals. -/
theorem decimal_injective : Function.Injective decimal := fun n m h =>
  Option.some.inj ((parseDecimal_decimal n).symm.trans (h ▸ parseDecimal_decimal m))

/-- A number below a power of ten has so many digits. -/
theorem length_decimal_le {n k : ℕ} (hk : 0 < k) (h : n < 10 ^ k) : (decimal n).length ≤ k := by
  rw [decimal]
  split
  · exact hk
  · rw [List.length_map, List.length_reverse]
    exact (Nat.digits_length_le_iff (by decide) n).mpr h

/-- **Reading back what was written.** -/
theorem parseDecimalInt_decimalInt : ∀ n : ℤ, parseDecimalInt (decimalInt n) = some n
  | .ofNat n => by
    have hread := parseDecimal_decimal n
    rw [decimalInt, parseDecimalInt, hread]
    · rfl
    · intro rest h
      have : isDigit 45 = true := isDigit_of_mem_decimal (h ▸ List.mem_cons_self)
      exact absurd this (by decide)
  | .negSucc n => by
    rw [decimalInt, parseDecimalInt, parseDecimal_decimal, Option.map_some]
    rfl

end Machinery
