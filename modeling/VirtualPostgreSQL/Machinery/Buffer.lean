import Mathlib.Data.List.Basic
import VirtualPostgreSQL.Machinery.Outcome

/-!
# Machinery/Buffer — a buffer by its offsets

A reader takes its bytes from a buffer of a fixed length; a read or a write at or beyond the length
is a fault, and so is a round more than were granted.  `Stands` says which text stands at an offset;
a read there is one of the head of the text, and what follows stands behind it.
-/

namespace Machinery

variable {β : Type}

/-- What a reader must not do. -/
inductive BufferFault
  /-- A read at or beyond the length. -/
  | outside
  /-- A round more than were granted. -/
  | rounds
  deriving DecidableEq, Repr

/-- A reader. -/
abbrev Buffered := Except BufferFault

/-- `buffer[offset]` -/
def byteAt (buffer : List β) (offset : ℕ) : Buffered β :=
  match buffer[offset]? with
  | some byte => .ok byte
  | none => .error .outside

/-- `length` bytes from `offset` on. -/
def sliceAt (buffer : List β) (offset length : ℕ) : Buffered (List β) :=
  if offset + length ≤ buffer.length then .ok ((buffer.drop offset).take length)
  else .error .outside

/-- `memcpy(buffer + offset, bytes, …)` -/
def writeAt (buffer : List β) (offset : ℕ) (bytes : List β) : Buffered (List β) :=
  if offset + bytes.length ≤ buffer.length then
    .ok (buffer.take offset ++ bytes ++ buffer.drop (offset + bytes.length))
  else .error .outside

/-! ## What stands at an offset -/

/-- **The text from an offset on.** -/
def Stands (buffer : List β) (offset : ℕ) (text : List β) : Prop :=
  ∃ before, buffer = before ++ text ∧ before.length = offset

namespace Stands

variable {buffer text rest : List β} {byte : β} {offset : ℕ}

theorem zero (buffer : List β) : Stands buffer 0 buffer := ⟨[], rfl, rfl⟩

/-- What stands in a buffer at an offset is the rest of it. -/
theorem length (h : Stands buffer offset text) : buffer.length = offset + text.length := by
  obtain ⟨before, rfl, rfl⟩ := h
  exact List.length_append

theorem remaining (h : Stands buffer offset text) : buffer.length - offset = text.length := by
  rw [h.length, Nat.add_sub_cancel_left]

theorem lt (h : Stands buffer offset (byte :: rest)) : offset < buffer.length := by
  rw [h.length, List.length_cons]
  omega

/-- Behind `n` bytes stands what is left of the text. -/
theorem drop (h : Stands buffer offset text) {n : ℕ} (hn : n ≤ text.length) :
    Stands buffer (offset + n) (text.drop n) := by
  obtain ⟨before, rfl, rfl⟩ := h
  exact ⟨before ++ text.take n, by rw [List.append_assoc, List.take_append_drop],
    by rw [List.length_append, List.length_take_of_le hn]⟩

/-- What stands behind a part of the text. -/
theorem behind {first : List β} (h : Stands buffer offset (first ++ rest)) {n : ℕ}
    (hn : first.length = n) : Stands buffer (offset + n) rest := by
  have hrest := h.drop (n := n) (by rw [List.length_append, hn]; exact Nat.le_add_right _ _)
  rwa [List.drop_left' hn] at hrest

/-- Behind its first byte stands the rest. -/
theorem tail (h : Stands buffer offset (byte :: rest)) : Stands buffer (offset + 1) rest :=
  h.drop (n := 1) (Nat.le_add_left _ _)

theorem byteAt (h : Stands buffer offset (byte :: rest)) : byteAt buffer offset = .ok byte := by
  obtain ⟨before, rfl, rfl⟩ := h
  simp [Machinery.byteAt]

theorem sliceAt (h : Stands buffer offset text) {n : ℕ} (hn : n ≤ text.length) :
    sliceAt buffer offset n = .ok (text.take n) := by
  have hlength := h.length
  obtain ⟨before, rfl, rfl⟩ := h
  rw [Machinery.sliceAt, if_pos (by omega), List.drop_left]

end Stands

/-- What is written takes the place of as many bytes. -/
theorem writeAt_append {before old after bytes : List β} (h : old.length = bytes.length) :
    writeAt (before ++ (old ++ after)) before.length bytes = .ok (before ++ bytes ++ after) := by
  rw [writeAt, if_pos (by simp only [List.length_append]; omega), List.take_left, ← h,
    ← List.length_append, ← List.append_assoc, List.drop_left]

end Machinery
