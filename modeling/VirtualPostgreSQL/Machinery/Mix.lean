import Mathlib.Data.UInt
import Mathlib.Data.List.Basic

/-!
# Machinery/Mix — hashes that mix in one value after the other

A value is mixed into a hash by an exclusive or and a multiplication.  When the factor is a unit, a
step can be undone in both arguments; so a hash of values in a row tells apart any two rows that
differ in one place, whatever stands before and behind it.
-/

namespace Machinery

/-- One value is mixed in. -/
def mix (prime hash value : UInt64) : UInt64 := (hash ^^^ value) * prime

/-- The values are mixed in, one after the other. -/
def mixAll (prime hash : UInt64) (values : List UInt64) : UInt64 := values.foldl (mix prime) hash

section

variable {prime : UInt64}

@[simp] theorem mixAll_nil (hash : UInt64) : mixAll prime hash [] = hash := rfl

@[simp] theorem mixAll_cons (hash value : UInt64) (values : List UInt64) :
    mixAll prime hash (value :: values) = mixAll prime (mix prime hash value) values := rfl

/-- Mixing two lists is mixing the second into the hash of the first. -/
theorem mixAll_append (hash : UInt64) (xs ys : List UInt64) :
    mixAll prime hash (xs ++ ys) = mixAll prime (mixAll prime hash xs) ys :=
  List.foldl_append

theorem xor_left_cancel {a b c : UInt64} (h : a ^^^ b = a ^^^ c) : b = c := by
  have := congrArg (a ^^^ ·) h
  simpa [← UInt64.xor_assoc] using this

section Unit

variable {inverse : UInt64} (hunit : prime * inverse = 1)

include hunit

/-- The multiplication by a unit loses nothing. -/
theorem mul_unit_cancel {a b : UInt64} (h : a * prime = b * prime) : a = b := by
  have := congrArg (· * inverse) h
  simpa [UInt64.mul_assoc, hunit] using this

/-- **A step tells the values apart**: the prime is odd, so the product can be undone. -/
theorem mix_value_inj {hash v w : UInt64} (h : mix prime hash v = mix prime hash w) : v = w :=
  xor_left_cancel (mul_unit_cancel hunit h)

/-- …and the hashes it starts from. -/
theorem mix_hash_inj {hash hash' v : UInt64} (h : mix prime hash v = mix prime hash' v) :
    hash = hash' := by
  have := mul_unit_cancel hunit h
  rw [UInt64.xor_comm hash, UInt64.xor_comm hash'] at this
  exact xor_left_cancel this

/-- So two hashes that differ stay apart, whatever is mixed into both. -/
theorem mixAll_hash_inj {hash hash' : UInt64} {values : List UInt64}
    (h : mixAll prime hash values = mixAll prime hash' values) : hash = hash' := by
  induction values generalizing hash hash' with
  | nil => exact h
  | cons v values ih => exact mix_hash_inj hunit (ih h)

/-- **A hash tells apart two rows that differ in one place.** -/
theorem mixAll_ne_of_ne {hash v w : UInt64} (before after : List UInt64) (hne : v ≠ w) :
    mixAll prime hash (before ++ v :: after) ≠ mixAll prime hash (before ++ w :: after) := by
  rw [mixAll_append, mixAll_append, mixAll_cons, mixAll_cons]
  intro h
  exact hne (mix_value_inj hunit (mixAll_hash_inj hunit h))

end Unit

end

end Machinery
