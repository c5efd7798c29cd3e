import Mathlib.Data.UInt
import Mathlib.Data.List.Basic
import Mathlib.Tactic.Ring
import VirtualPostgreSQL.Machinery.Outcome

/-!
# Machinery/Wire — numbers of fixed width in a string of bytes, and tables of records

A number takes `k` bytes, the lowest first (`leBytes`) or the highest first (`beBytes`), and is read
back from a slice.  A row of numbers is described by its fields, the pairs of a width and a value:
what `fieldBytes` writes, `readFields` reads, at any offset and behind anything.  A table of records
of one size is read by `readRecords`, where reading a record may refuse and may look at the records
before it; values of any size that follow each other are read by `readMany`, each from what the one
before it left.
-/

namespace Machinery

/-! ## Numbers -/

/-- `k` bytes of a number, the lowest first. -/
def leBytes : ℕ → ℕ → List UInt8
  | 0, _ => []
  | k + 1, n => n.toUInt8 :: leBytes k (n / 256)

/-- The number that the bytes are, the lowest first. -/
def leValue : List UInt8 → ℕ
  | [] => 0
  | b :: bs => b.toNat + 256 * leValue bs

@[simp] theorem length_leBytes (k n : ℕ) : (leBytes k n).length = k := by
  induction k generalizing n with
  | zero => rfl
  | succ k ih => rw [leBytes, List.length_cons, ih]

theorem leValue_lt (bs : List UInt8) : leValue bs < 256 ^ bs.length := by
  induction bs with
  | nil => decide
  | cons b bs ih =>
    have hb := b.toNat_lt
    rw [leValue, List.length_cons, pow_succ]
    omega

/-- The bytes of a number keep what there is room for. -/
theorem leValue_leBytes_mod (k n : ℕ) : leValue (leBytes k n) = n % 256 ^ k := by
  induction k generalizing n with
  | zero => rw [pow_zero, Nat.mod_one]; rfl
  | succ k ih =>
    rw [leBytes, leValue, ih, Nat.toUInt8_eq, UInt8.toNat_ofNat', pow_succ' 256]
    exact (Nat.mod_mul (x := n) (a := 256)).symm

/-- **A number that fits is read back from its bytes.** -/
theorem leValue_leBytes {k n : ℕ} (h : n < 256 ^ k) : leValue (leBytes k n) = n := by
  rw [leValue_leBytes_mod, Nat.mod_eq_of_lt h]

/-- The bytes of a number can be written in two goes. -/
theorem leBytes_add (j k n : ℕ) : leBytes (j + k) n = leBytes j n ++ leBytes k (n / 256 ^ j) := by
  induction j generalizing n with
  | zero => rw [Nat.zero_add, pow_zero, Nat.div_one]; rfl
  | succ j ih =>
    rw [Nat.succ_add, leBytes, ih, Nat.div_div_eq_div_mul, ← pow_succ', leBytes, List.cons_append]

/-- Bytes are written again from the number they are. -/
theorem leBytes_leValue (bs : List UInt8) : leBytes bs.length (leValue bs) = bs := by
  induction bs with
  | nil => rfl
  | cons b bs ih =>
    have hb := b.toNat_lt
    rw [List.length_cons, leValue, leBytes]
    congr 1
    · rw [← UInt8.toNat_inj, Nat.toUInt8_eq, UInt8.toNat_ofNat']
      omega
    · rw [show (b.toNat + 256 * leValue bs) / 256 = leValue bs by omega, ih]

/-- So numbers that fit are told apart. -/
theorem leBytes_inj {k n m : ℕ} (hn : n < 256 ^ k) (hm : m < 256 ^ k)
    (h : leBytes k n = leBytes k m) : n = m := by
  rw [← leValue_leBytes hn, h, leValue_leBytes hm]

/-- A number is told apart from what follows it. -/
theorem leBytes_append_eq_iff {k n m : ℕ} {rest tail : List UInt8} (hn : n < 256 ^ k)
    (hm : m < 256 ^ k) : leBytes k n ++ rest = leBytes k m ++ tail ↔ n = m ∧ rest = tail := by
  constructor
  · intro h
    obtain ⟨hfirst, hrest⟩ := List.append_inj h (by rw [length_leBytes, length_leBytes])
    exact ⟨leBytes_inj hn hm hfirst, hrest⟩
  · rintro ⟨rfl, rfl⟩
    rfl

/-- **Numbers of one width can be told apart**, however many there are. -/
theorem flatMap_leBytes_inj {k : ℕ} (hk : 0 < k) {ns ms : List ℕ} (hns : ∀ n ∈ ns, n < 256 ^ k)
    (hms : ∀ m ∈ ms, m < 256 ^ k) (h : ns.flatMap (leBytes k) = ms.flatMap (leBytes k)) :
    ns = ms := by
  induction ns generalizing ms with
  | nil =>
    cases ms with
    | nil => rfl
    | cons m ms =>
      have := congrArg List.length h
      rw [List.flatMap_cons, List.length_append, length_leBytes, List.flatMap_nil,
        List.length_nil] at this
      omega
  | cons n ns ih =>
    cases ms with
    | nil =>
      have := congrArg List.length h
      rw [List.flatMap_cons, List.length_append, length_leBytes, List.flatMap_nil,
        List.length_nil] at this
      omega
    | cons m ms =>
      rw [List.flatMap_cons, List.flatMap_cons,
        leBytes_append_eq_iff (hns n List.mem_cons_self) (hms m List.mem_cons_self)] at h
      obtain ⟨rfl, hrest⟩ := h
      rw [ih (fun n hn => hns n (List.mem_cons_of_mem _ hn))
          (fun m hm => hms m (List.mem_cons_of_mem _ hm)) hrest]

/-- `k` bytes of a number, the highest first. -/
def beBytes (k n : ℕ) : List UInt8 := (leBytes k n).reverse

/-- The number that the bytes are, the highest first. -/
def beValue (bs : List UInt8) : ℕ := leValue bs.reverse

@[simp] theorem length_beBytes (k n : ℕ) : (beBytes k n).length = k := by
  rw [beBytes, List.length_reverse, length_leBytes]

theorem beValue_lt (bs : List UInt8) : beValue bs < 256 ^ bs.length := by
  have := leValue_lt bs.reverse
  rwa [List.length_reverse] at this

/-- The same holds with the greatest byte first… -/
theorem beValue_beBytes {k n : ℕ} (h : n < 256 ^ k) : beValue (beBytes k n) = n := by
  rw [beValue, beBytes, List.reverse_reverse, leValue_leBytes h]

/-- …both ways. -/
theorem beBytes_beValue (bs : List UInt8) : beBytes bs.length (beValue bs) = bs := by
  have := leBytes_leValue bs.reverse
  rw [List.length_reverse] at this
  rw [beBytes, beValue, this, List.reverse_reverse]

/-! ## Slices -/

/-- The `k` bytes from an offset on. -/
def slice (bs : List UInt8) (offset k : ℕ) : List UInt8 := (bs.drop offset).take k

theorem length_slice {bs : List UInt8} {offset k : ℕ} (h : offset + k ≤ bs.length) :
    (slice bs offset k).length = k := by
  rw [slice, List.length_take, List.length_drop]
  omega

/-- A slice of `k` bytes is a number of `k` bytes. -/
theorem leValue_slice_lt (bs : List UInt8) (offset k : ℕ) :
    leValue (slice bs offset k) < 256 ^ k :=
  lt_of_lt_of_le (leValue_lt _)
    (Nat.pow_le_pow_right (by decide) ((List.length_take_le k (bs.drop offset))))

/-- A slice can be taken in two goes. -/
theorem slice_add (bs : List UInt8) (offset j k : ℕ) :
    slice bs offset (j + k) = slice bs offset j ++ slice bs (offset + j) k := by
  rw [slice, slice, slice, List.take_add, List.drop_drop]

/-- What was written between two texts is sliced out between them. -/
theorem slice_append (before middle after : List UInt8) :
    slice (before ++ (middle ++ after)) before.length middle.length = middle := by
  rw [slice, List.drop_left, List.take_left]

/-- A slice is read and written back. -/
theorem leBytes_leValue_slice {bs : List UInt8} {offset k : ℕ} (h : offset + k ≤ bs.length) :
    leBytes k (leValue (slice bs offset k)) = slice bs offset k := by
  have := leBytes_leValue (slice bs offset k)
  rwa [length_slice h] at this

theorem beBytes_beValue_slice {bs : List UInt8} {offset k : ℕ} (h : offset + k ≤ bs.length) :
    beBytes k (beValue (slice bs offset k)) = slice bs offset k := by
  have := beBytes_beValue (slice bs offset k)
  rwa [length_slice h] at this

/-- Every text begins with a number of `k` bytes, if it is as long. -/
theorem exists_leBytes {text : List UInt8} {k : ℕ} (h : k ≤ text.length) :
    ∃ n < 256 ^ k, text = leBytes k n ++ text.drop k := by
  have hlength := List.length_take_of_le h
  refine ⟨leValue (text.take k), ?_, ?_⟩
  · have := leValue_lt (text.take k)
    rwa [hlength] at this
  · have := leBytes_leValue (text.take k)
    rw [hlength] at this
    rw [this, List.take_append_drop]

/-- And with three numbers, if it is as long as they are together. -/
theorem exists_three_leBytes {text : List UInt8} {i j k : ℕ} (h : i + j + k ≤ text.length) :
    ∃ a < 256 ^ i, ∃ b < 256 ^ j, ∃ c < 256 ^ k, ∃ tail,
      text = leBytes i a ++ (leBytes j b ++ (leBytes k c ++ tail)) := by
  obtain ⟨a, ha, htext⟩ := exists_leBytes (show i ≤ text.length by omega)
  have hafter : j + k ≤ (text.drop i).length := by rw [List.length_drop]; omega
  obtain ⟨b, hb, hlater⟩ := exists_leBytes (show j ≤ (text.drop i).length by omega)
  have hlast : k ≤ ((text.drop i).drop j).length := by rw [List.length_drop]; omega
  obtain ⟨c, hc, hlast⟩ := exists_leBytes hlast
  exact ⟨a, ha, b, hb, c, hc, _, by rw [← hlast, ← hlater, ← htext]⟩

/-! ## Fields -/

/-- The bytes of fields, each a width and a value. -/
def fieldBytes (fields : List (ℕ × ℕ)) : List UInt8 :=
  fields.flatMap fun field => leBytes field.1 field.2

/-- The fields of the given widths, from an offset on. -/
def readFields (bs : List UInt8) : ℕ → List ℕ → List (ℕ × ℕ)
  | _, [] => []
  | offset, k :: widths => (k, leValue (slice bs offset k)) :: readFields bs (offset + k) widths

@[simp] theorem length_fieldBytes (fields : List (ℕ × ℕ)) :
    (fieldBytes fields).length = (fields.map Prod.fst).sum := by
  simp [fieldBytes, List.length_flatMap]

/-- **What is written is read.** -/
theorem readFields_fieldBytes {fields : List (ℕ × ℕ)}
    (h : ∀ field ∈ fields, field.2 < 256 ^ field.1) (before after : List UInt8) :
    readFields (before ++ (fieldBytes fields ++ after)) before.length (fields.map Prod.fst) =
      fields := by
  induction fields generalizing before with
  | nil => rfl
  | cons field fields ih =>
    have hsplit : before ++ (fieldBytes (field :: fields) ++ after) =
        before ++ (leBytes field.1 field.2 ++ (fieldBytes fields ++ after)) := by
      rw [fieldBytes, List.flatMap_cons, List.append_assoc, fieldBytes]
    have hslice := slice_append before (leBytes field.1 field.2) (fieldBytes fields ++ after)
    rw [length_leBytes] at hslice
    have hrest :=
      ih (fun f hf => h f (List.mem_cons_of_mem _ hf)) (before ++ leBytes field.1 field.2)
    rw [List.append_assoc, List.length_append, length_leBytes] at hrest
    rw [hsplit, List.map_cons, readFields, hslice, leValue_leBytes (h field List.mem_cons_self),
      hrest]

/-- The fields of a slice. -/
theorem readFields_of_slice {fields : List (ℕ × ℕ)} (h : ∀ field ∈ fields, field.2 < 256 ^ field.1)
    {bs : List UInt8} {offset : ℕ} (hoffset : offset ≤ bs.length)
    (hslice : slice bs offset (fieldBytes fields).length = fieldBytes fields) :
    readFields bs offset (fields.map Prod.fst) = fields := by
  have hsplit : bs = bs.take offset ++
      (fieldBytes fields ++ (bs.drop offset).drop (fieldBytes fields).length) := by
    have htake := List.take_append_drop (fieldBytes fields).length (bs.drop offset)
    rw [slice] at hslice
    rw [hslice] at htake
    rw [htake, List.take_append_drop]
  have hread := readFields_fieldBytes h (bs.take offset)
    ((bs.drop offset).drop (fieldBytes fields).length)
  rwa [← hsplit, List.length_take, Nat.min_eq_left hoffset] at hread

/-- **What is read can be written back.** -/
theorem fieldBytes_readFields {bs : List UInt8} {offset : ℕ} {widths : List ℕ}
    (h : offset + widths.sum ≤ bs.length) :
    fieldBytes (readFields bs offset widths) = slice bs offset widths.sum := by
  induction widths generalizing offset with
  | nil => simp [readFields, fieldBytes, slice]
  | cons k widths ih =>
    rw [List.sum_cons] at h ⊢
    have hrest := @ih (offset + k) (by omega)
    rw [readFields, fieldBytes, List.flatMap_cons, leBytes_leValue_slice (by omega), slice_add,
      ← hrest, fieldBytes]

/-! ## Tables of records -/

section Records

variable {α E : Type*}

/-- The loop over a table of `count` records of one size; `done` are the records read so far. -/
def readRecords (size : ℕ) (read : List α → ℕ → Except E α) :
    ℕ → ℕ → List α → Except E (List α)
  | 0, _, done => .ok done
  | count + 1, offset, done => do
    let record ← read done offset
    readRecords size read count (offset + size) (done ++ [record])

variable {size : ℕ} {read : List α → ℕ → Except E α}

theorem length_flatMap_of_size {write : α → List UInt8}
    (hsize : ∀ record, (write record).length = size)
    (records : List α) : (records.flatMap write).length = records.length * size := by
  simp [List.length_flatMap, hsize]

/-- Where a record of a table lies. -/
theorem slice_record {write : α → List UInt8} (hsize : ∀ record, (write record).length = size)
    (head tail : List UInt8) (before after : List α) (record : α) :
    slice (head ++ ((before ++ record :: after).flatMap write ++ tail))
      (head.length + before.length * size) size = write record := by
  have hslice := slice_append (head ++ before.flatMap write) (write record)
    (after.flatMap write ++ tail)
  rw [List.length_append, length_flatMap_of_size hsize, hsize] at hslice
  rw [List.flatMap_append, List.flatMap_cons]
  simpa only [List.append_assoc] using hslice

/-- The records are read one after the other. -/
theorem readRecords_eq_ok (records : List α) {offset : ℕ} {done : List α}
    (h : ∀ before record after, records = before ++ record :: after →
      read (done ++ before) (offset + before.length * size) = .ok record) :
    readRecords size read records.length offset done = .ok (done ++ records) := by
  induction records generalizing offset done with
  | nil => simp [readRecords]
  | cons record records ih =>
    have hfirst := h [] record records rfl
    simp only [List.append_nil, List.length_nil, Nat.zero_mul, Nat.add_zero] at hfirst
    have hrest := @ih (offset + size) (done ++ [record]) fun before r after heq => by
      have := h (record :: before) r after (by rw [heq]; rfl)
      rw [List.length_cons, Nat.succ_mul] at this
      rw [List.append_assoc, List.singleton_append, Nat.add_assoc, Nat.add_comm size]
      exact this
    rw [List.length_cons, readRecords, hfirst]
    simp only [bind, Except.bind, hrest, List.append_assoc, List.singleton_append]

/-- **A table that was read can be written back**, when every record can. -/
theorem ok_of_readRecords {bs : List UInt8} {write : α → List UInt8}
    (hwrite : ∀ done offset record, offset + size ≤ bs.length →
      read done offset = .ok record → write record = slice bs offset size)
    {count offset : ℕ} {done result : List α} (hroom : offset + count * size ≤ bs.length)
    (h : readRecords size read count offset done = .ok result) :
    ∃ records, result = done ++ records ∧ records.length = count ∧
      records.flatMap write = slice bs offset (count * size) := by
  induction count generalizing offset done with
  | zero =>
    cases h
    exact ⟨[], (List.append_nil _).symm, rfl, by simp [slice]⟩
  | succ count ih =>
    rw [Nat.succ_mul] at hroom
    obtain ⟨record, hrecord, hrest⟩ := ok_of_bind h
    obtain ⟨records, rfl, rfl, hbytes⟩ := ih (by omega) hrest
    refine ⟨record :: records, by simp, rfl, ?_⟩
    rw [List.flatMap_cons, hbytes, hwrite done offset record (by omega) hrecord, ← slice_add,
      Nat.succ_mul, Nat.add_comm size]

end Records

/-! ## Values one after the other -/

section Stream

variable {α β E : Type*}

/-- `count` values, each read from what the one before it left. -/
def readMany (read : List UInt8 → Except E (α × List UInt8)) :
    ℕ → List UInt8 → Except E (List α × List UInt8)
  | 0, rest => .ok ([], rest)
  | count + 1, rest => do
    let (value, rest) ← read rest
    let (values, rest) ← readMany read count rest
    .ok (value :: values, rest)

variable {read : List UInt8 → Except E (α × List UInt8)}

/-- The values are read one after the other. -/
theorem readMany_flatMap {write : β → List UInt8} {f : β → α} {values : List β}
    (h : ∀ value ∈ values, ∀ tail, read (write value ++ tail) = .ok (f value, tail))
    (tail : List UInt8) :
    readMany read values.length (values.flatMap write ++ tail) = .ok (values.map f, tail) := by
  induction values with
  | nil => rfl
  | cons value values ih =>
    have hrest := ih fun v hv => h v (List.mem_cons_of_mem _ hv)
    rw [List.flatMap_cons, List.append_assoc, List.length_cons, readMany,
      h value List.mem_cons_self]
    simp only [bind, Except.bind, hrest, List.map_cons]

/-- **Values that were read can be written back**, when each can. -/
theorem ok_of_readMany {write : α → List UInt8} {P : α → Prop}
    (h : ∀ rest value tail, read rest = .ok (value, tail) → rest = write value ++ tail ∧ P value)
    {count : ℕ} {rest tail : List UInt8} {values : List α}
    (hread : readMany read count rest = .ok (values, tail)) :
    rest = values.flatMap write ++ tail ∧ values.length = count ∧ ∀ value ∈ values, P value := by
  induction count generalizing rest values with
  | zero =>
    cases hread
    simp
  | succ count ih =>
    obtain ⟨⟨value, middle⟩, hvalue, hread⟩ := ok_of_bind hread
    obtain ⟨⟨others, last⟩, hothers, hread⟩ := ok_of_bind hread
    cases hread
    obtain ⟨rfl, hP⟩ := h _ _ _ hvalue
    obtain ⟨rfl, hcount, hall⟩ := ih hothers
    refine ⟨by simp, by simp [hcount], ?_⟩
    intro v hv
    obtain rfl | hv := List.mem_cons.1 hv
    · exact hP
    · exact hall v hv

end Stream

end Machinery
