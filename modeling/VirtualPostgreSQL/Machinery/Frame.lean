import Mathlib.Data.UInt
import Mathlib.Data.List.Basic

/-!
# Machinery/Frame — tagged, length-prefixed values

A value is framed by a tag byte and its length in four bytes, the lowest first.  Framed values can
be told apart from their concatenation: `frames_injective`.
-/

namespace Machinery

/-- The four bytes of a length, the lowest first. -/
def le32 (n : ℕ) : List UInt8 :=
  [n.toUInt8, (n / 2 ^ 8).toUInt8, (n / 2 ^ 16).toUInt8, (n / 2 ^ 24).toUInt8]

theorem le32_inj {n m : ℕ} (hn : n < 2 ^ 32) (hm : m < 2 ^ 32) (h : le32 n = le32 m) : n = m := by
  simp only [le32, List.cons.injEq, and_true, ← UInt8.toNat_inj, Nat.toUInt8_eq,
    UInt8.toNat_ofNat'] at h
  omega

/-- A value behind its tag and its length. -/
def frame (tag : UInt8) (value : List UInt8) : List UInt8 := tag :: le32 value.length ++ value

/-- **A frame can be read off the front of a text**: tag, value and rest are determined. -/
theorem frame_append_inj {tag tag' : UInt8} {value value' rest rest' : List UInt8}
    (hvalue : value.length < 2 ^ 32) (hvalue' : value'.length < 2 ^ 32)
    (h : frame tag value ++ rest = frame tag' value' ++ rest') :
    tag = tag' ∧ value = value' ∧ rest = rest' := by
  simp only [frame, List.cons_append, List.append_assoc, List.cons.injEq] at h
  obtain ⟨htag, h⟩ := h
  obtain ⟨hlength, h⟩ := List.append_inj h rfl
  obtain ⟨hvalues, hrest⟩ := List.append_inj h (le32_inj hvalue hvalue' hlength)
  exact ⟨htag, hvalues, hrest⟩

/-- Framed values, one after the other. -/
def frames (values : List (UInt8 × List UInt8)) : List UInt8 :=
  values.flatMap fun tagged => frame tagged.1 tagged.2

/-- The frames of two lists stand one behind the other. -/
@[simp]
theorem frames_append (values values' : List (UInt8 × List UInt8)) :
    frames (values ++ values') = frames values ++ frames values' := List.flatMap_append

/-- **Framed values can be told apart.** -/
theorem frames_injective {values values' : List (UInt8 × List UInt8)}
    (hvalues : ∀ tagged ∈ values, tagged.2.length < 2 ^ 32)
    (hvalues' : ∀ tagged ∈ values', tagged.2.length < 2 ^ 32)
    (h : frames values = frames values') : values = values' := by
  induction values generalizing values' with
  | nil =>
    cases values' with
    | nil => rfl
    | cons tagged values' => simp [frames, frame] at h
  | cons tagged values ih =>
    cases values' with
    | nil => simp [frames, frame] at h
    | cons tagged' values' =>
      obtain ⟨htag, hvalue, hrest⟩ := frame_append_inj (hvalues _ List.mem_cons_self)
        (hvalues' _ List.mem_cons_self) h
      rw [ih (fun t ht => hvalues t (List.mem_cons_of_mem _ ht))
        (fun t ht => hvalues' t (List.mem_cons_of_mem _ ht)) hrest, Prod.ext htag hvalue]

end Machinery
