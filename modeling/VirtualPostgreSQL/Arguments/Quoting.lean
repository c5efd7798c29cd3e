import VirtualPostgreSQL.Arguments.Parse

/-!
# Arguments/Quoting — an argument gives back the value that was quoted

A value goes into an argument between single quotes with its apostrophes doubled, or bare when it
has none.  `argumentDecoded_eq_some_iff` says that the decoder undoes these two spellings and reads
nothing else, and `argumentSplit_eq_some_iff` that the spaces around the name, the `=` and the value
are all that is lost on the way there.  Together they give `quoting_round_trip`.
-/

namespace Vps

open Machinery

/-! ## The bytes of a value -/

/-- The validator accepts exactly UTF-8. -/
theorem argumentUtf8IsValid_iff (value : List UInt8) :
    argumentUtf8IsValid value ↔ IsUtf8 value := by
  fun_induction argumentUtf8IsValid value with
  | case1 => simp [isUtf8_nil]
  | case2 first rest hrest => simp [isUtf8_cons_iff, hrest]
  | case3 first rest rest' hrest ih => simpa [isUtf8_cons_iff, hrest] using ih

/-- **The values that an option can hold**: some text without control bytes, within the limit. -/
structure Storable (argumentId : ArgumentId) (value : List UInt8) : Prop where
  ne_nil : value ≠ []
  utf8 : IsUtf8 value
  plain : ∀ byte ∈ value, ¬isControlByte byte
  length_le : value.length ≤ argumentId.definition.limit

theorem argumentValueBytesAreValid_iff (value : List UInt8) :
    argumentValueBytesAreValid value ↔
      value ≠ [] ∧ IsUtf8 value ∧ ∀ byte ∈ value, ¬isControlByte byte := by
  rw [← argumentUtf8IsValid_iff]
  simp [argumentValueBytesAreValid, and_assoc]

/-! ## The two spellings -/

/-- A value between quotes. -/
def quoted (value : List UInt8) : List UInt8 := 39 :: (apostrophesDoubled value ++ [39])

theorem apostrophesDoubled_cons (byte : UInt8) (value : List UInt8) :
    apostrophesDoubled (byte :: value) =
      (if byte = 39 then [39, 39] else [byte]) ++ apostrophesDoubled value :=
  List.flatMap_cons

theorem argumentUnquote_cons {byte : UInt8} (hbyte : byte ≠ 39) (rest : List UInt8) :
    argumentUnquote (byte :: rest) = (argumentUnquote rest).map (byte :: ·) := by
  cases rest with
  | nil => simp [argumentUnquote, hbyte]
  | cons next rest => rw [argumentUnquote, if_neg hbyte]

theorem argumentUnquote_apostrophesDoubled (value : List UInt8) :
    argumentUnquote (apostrophesDoubled value) = some value := by
  induction value with
  | nil => rfl
  | cons byte value ih =>
    rw [apostrophesDoubled_cons]
    by_cases hbyte : byte = 39
    · subst hbyte
      simp [argumentUnquote, ih]
    · rw [if_neg hbyte, List.singleton_append, argumentUnquote_cons hbyte, ih]
      rfl

/-- Between the quotes stand doubled apostrophes and nothing else. -/
theorem eq_apostrophesDoubled_of_argumentUnquote {input value : List UInt8}
    (h : argumentUnquote input = some value) : input = apostrophesDoubled value := by
  fun_induction argumentUnquote input generalizing value with
  | case1 =>
    cases h
    rfl
  | case2 => cases h
  | case3 byte hbyte =>
    cases h
    simp [apostrophesDoubled, hbyte]
  | case4 rest ih =>
    obtain ⟨tail, htail, rfl⟩ := Option.map_eq_some_iff.mp h
    rw [apostrophesDoubled_cons, if_pos rfl, ih htail]
    rfl
  | case5 => cases h
  | case6 byte next rest hbyte ih =>
    obtain ⟨tail, htail, rfl⟩ := Option.map_eq_some_iff.mp h
    rw [apostrophesDoubled_cons, if_neg hbyte, ih htail]
    rfl

theorem argumentDecoded_quoted (value : List UInt8) :
    argumentDecoded (quoted value) = some value := by
  rw [quoted, argumentDecoded, if_pos rfl, if_pos (by simp), List.dropLast_concat,
    argumentUnquote_apostrophesDoubled]

/-- **The decoder reads a quoted value, and a bare one without apostrophes.** -/
theorem argumentDecoded_eq_some_iff {input value : List UInt8} :
    argumentDecoded input = some value ↔
      input = quoted value ∨ (39 ∉ value ∧ value ≠ [] ∧ input = value) := by
  constructor
  · intro h
    unfold argumentDecoded at h
    split at h
    · cases h
    · rename_i byte rest
      split_ifs at h with hbyte hlast hmem
      · left
        obtain ⟨front, rfl⟩ := List.getLast?_eq_some_iff.mp hlast
        rw [List.dropLast_concat] at h
        rw [hbyte, quoted, eq_apostrophesDoubled_of_argumentUnquote h]
      · right
        cases h
        exact ⟨by simpa using hmem, List.cons_ne_nil _ _, rfl⟩
  · rintro (rfl | ⟨hmem, hne, rfl⟩)
    · exact argumentDecoded_quoted value
    · cases input with
      | nil => exact absurd rfl hne
      | cons byte rest =>
        have hbyte : byte ≠ 39 := fun h => hmem (h ▸ List.mem_cons_self)
        rw [argumentDecoded, if_neg hbyte, if_neg (by simpa using hmem)]

theorem argumentDecodeValue_eq_some_iff {input value : List UInt8} :
    argumentDecodeValue input = some value ↔
      (input = quoted value ∨ (39 ∉ value ∧ input = value)) ∧
        value ≠ [] ∧ IsUtf8 value ∧ ∀ byte ∈ value, ¬isControlByte byte := by
  rw [argumentDecodeValue, Option.filter_eq_some_iff, argumentDecoded_eq_some_iff,
    argumentValueBytesAreValid_iff]
  tauto

theorem length_apostrophesDoubled (value : List UInt8) :
    value.length ≤ (apostrophesDoubled value).length ∧
      (apostrophesDoubled value).length ≤ 2 * value.length := by
  induction value with
  | nil => simp [apostrophesDoubled]
  | cons byte value ih =>
    rw [apostrophesDoubled_cons]
    split <;> simp only [List.length_append, List.length_cons, List.length_nil] <;> omega

/-- A quoted value is never the value itself. -/
theorem quoted_ne (value : List UInt8) : quoted value ≠ value := by
  intro h
  have hlength := (length_apostrophesDoubled value).1
  have hquoted := congrArg List.length h
  simp only [quoted, List.length_cons, List.length_append, List.length_nil] at hquoted
  omega

theorem trim_quoted (value : List UInt8) : trim isSpaceByte (quoted value) = quoted value :=
  trim_cons_append (by decide) (by decide)

/-! ## The name, the `=` and the spaces -/

/-- Bytes that are all spaces. -/
def IsSpaces (bytes : List UInt8) : Prop := ∀ byte ∈ bytes, isSpaceByte byte

/-- Every byte can be looked at. -/
instance (bytes : List UInt8) : Decidable (IsSpaces bytes) :=
  inferInstanceAs (Decidable (∀ byte ∈ bytes, isSpaceByte byte))

/-- **A name, `=` and a value with any spaces around them.** -/
def Spaced (text name value : List UInt8) : Prop :=
  ∃ a b c d, IsSpaces a ∧ IsSpaces b ∧ IsSpaces c ∧ IsSpaces d ∧
    text = a ++ name ++ b ++ 61 :: (c ++ value ++ d)

/-- A valid name has neither a space nor a `=`. -/
theorem argumentNameIsValid_mem {name : List UInt8} (h : argumentNameIsValid name) {byte : UInt8}
    (hbyte : byte ∈ name) : ¬isSpaceByte byte ∧ byte ≠ 61 := by
  have hsolid : isAlpha byte || isDigit byte || byte == 95 := by
    cases name with
    | nil => cases hbyte
    | cons first rest =>
      simp only [argumentNameIsValid, Bool.and_eq_true, List.all_eq_true] at h
      rcases List.mem_cons.mp hbyte with rfl | hrest
      · simp [h.1]
      · exact h.2 byte hrest
  constructor
  · intro hspace
    obtain rfl : byte = 32 := by simpa [isSpaceByte] using hspace
    exact absurd hsolid (by decide)
  · rintro rfl
    exact absurd hsolid (by decide)

theorem argumentSplit_of_spaces {a name b raw : List UInt8} (ha : IsSpaces a) (hb : IsSpaces b)
    (hvalid : argumentNameIsValid name) (hne : name ≠ []) :
    argumentSplit (a ++ name ++ b ++ 61 :: raw) =
      if name.length > argumentNameLimit ∨ trim isSpaceByte raw = [] then none
      else some (name, trim isSpaceByte raw) := by
  have hbody : trim isSpaceByte (a ++ name ++ b ++ 61 :: raw) =
      name ++ b ++ 61 :: raw.rdropWhile isSpaceByte := by
    rw [List.append_assoc, List.append_assoc, trim_append_left ha, trim, ← List.append_assoc]
    obtain ⟨first, rest, rfl⟩ := List.exists_cons_of_ne_nil hne
    have hfirst := (argumentNameIsValid_mem hvalid List.mem_cons_self).1
    rw [List.cons_append, List.cons_append, List.dropWhile_cons_of_neg hfirst,
      ← List.cons_append, ← List.cons_append, rdropWhile_append_cons (by decide)]
  have hequals : ∀ byte ∈ name ++ b, (byte != 61) = true := by
    intro byte hbyte
    rcases List.mem_append.mp hbyte with hname | hspace
    · simpa using (argumentNameIsValid_mem hvalid hname).2
    · have hspace := hb byte hspace
      simp only [isSpaceByte, beq_iff_eq] at hspace
      simp [hspace]
  have hname : (name ++ b).rdropWhile isSpaceByte = name := by
    have hlast : name.rdropWhile isSpaceByte = name :=
      List.rdropWhile_eq_self_iff.mpr fun h =>
        (argumentNameIsValid_mem hvalid (List.getLast_mem h)).1
    rw [List.rdropWhile, List.reverse_append,
      List.dropWhile_append_of_pos fun byte hbyte => hb byte (List.mem_reverse.mp hbyte)]
    exact hlast
  have hdrop : (name ++ b ++ 61 :: raw.rdropWhile isSpaceByte).dropWhile (· != 61) =
      61 :: raw.rdropWhile isSpaceByte := by
    rw [List.dropWhile_append_of_pos hequals, List.dropWhile_cons_of_neg (by simp)]
  have htake : (name ++ b ++ 61 :: raw.rdropWhile isSpaceByte).takeWhile (· != 61) = name ++ b := by
    rw [List.takeWhile_append_of_pos hequals, List.takeWhile_cons_of_neg (by simp), List.append_nil]
  rw [argumentSplit]
  simp only [hbody, hdrop, htake, hname, trim_rdropWhile, hne, false_or]

/-- What the split gives back stands in the text, and the spaces are all that is lost. -/
theorem spaced_of_argumentSplit {text name value : List UInt8}
    (h : argumentSplit text = some (name, value)) :
    Spaced text name value ∧ name ≠ [] ∧ name.length ≤ argumentNameLimit ∧ value ≠ [] ∧
      trim isSpaceByte value = value := by
  unfold argumentSplit at h
  dsimp only at h
  split at h
  · cases h
  · rename_i equals raw hdrop
    split_ifs at h with hbad
    simp only [not_or, not_lt] at hbad
    obtain ⟨rfl, rfl⟩ := Prod.mk.inj (Option.some.inj h)
    have hequals : equals = 61 := by
      have hhead := List.head?_dropWhile_not (· != 61) (trim isSpaceByte text)
      rw [hdrop] at hhead
      simpa using hhead
    refine ⟨⟨(margins isSpaceByte text).1,
      ((trim isSpaceByte text).takeWhile (· != 61)).rtakeWhile isSpaceByte,
      (margins isSpaceByte raw).1, (margins isSpaceByte raw).2 ++ (margins isSpaceByte text).2,
      fun _ => mem_margins_fst _, fun _ => List.mem_rtakeWhile_imp, fun _ => mem_margins_fst _,
      ?_, ?_⟩, hbad.1, hbad.2.1, hbad.2.2, trim_trim raw⟩
    · intro byte hbyte
      rcases List.mem_append.mp hbyte with hbyte | hbyte
      · exact mem_margins_snd _ hbyte
      · exact mem_margins_snd _ hbyte
    · conv_lhs => rw [← margins_fst_append_trim isSpaceByte text]
      conv_lhs => rw [← @List.takeWhile_append_dropWhile _ (· != 61) (trim isSpaceByte text),
        hdrop, hequals, ← margins_fst_append_trim isSpaceByte raw,
        ← @List.rdropWhile_append_rtakeWhile _ isSpaceByte
          ((trim isSpaceByte text).takeWhile (· != 61))]
      simp only [List.append_assoc, List.cons_append]

/-! ## The name of an option -/

/-- A spelling of the name of an option in any letter case. -/
def Names (argumentId : ArgumentId) (name : List UInt8) : Prop :=
  name.map toLower = argumentId.definition.name

/-- A name is compared with the ones of the option. -/
instance (argumentId : ArgumentId) (name : List UInt8) : Decidable (Names argumentId name) :=
  inferInstanceAs (Decidable (name.map toLower = argumentId.definition.name))

theorem argumentFindId_definition (argumentId : ArgumentId) :
    argumentFindId argumentId.definition.name = some argumentId := by
  cases argumentId <;> rfl

theorem argumentFindId_eq_some_iff {name : List UInt8} {argumentId : ArgumentId} :
    argumentFindId name = some argumentId ↔ argumentId.definition.name = name := by
  constructor
  · intro h
    simpa using List.find?_some h
  · rintro rfl
    exact argumentFindId_definition argumentId

/-- The names of the table are names. -/
theorem argumentNameIsValid_definition (argumentId : ArgumentId) :
    argumentNameIsValid argumentId.definition.name ∧ argumentId.definition.name ≠ [] ∧
      argumentId.definition.name.length ≤ argumentNameLimit := by
  cases argumentId <;> decide

/-- A letter keeps its kind in lower case. -/
theorem toLower_kind (byte : UInt8) :
    isAlpha (toLower byte) = isAlpha byte ∧ isDigit (toLower byte) = isDigit byte ∧
      (toLower byte == 95) = (byte == 95) :=
  byte_induction (P := fun byte => isAlpha (toLower byte) = isAlpha byte ∧
    isDigit (toLower byte) = isDigit byte ∧ (toLower byte == 95) = (byte == 95)) 256
    (by decide +kernel) byte byte.toNat_lt

theorem argumentNameIsValid_map_toLower (name : List UInt8) :
    argumentNameIsValid (name.map toLower) = argumentNameIsValid name := by
  cases name with
  | nil => rfl
  | cons first rest =>
    simp only [List.map_cons, argumentNameIsValid, List.all_map, Function.comp_def, toLower_kind]

theorem Names.isValid {argumentId : ArgumentId} {name : List UInt8} (h : Names argumentId name) :
    argumentNameIsValid name ∧ name ≠ [] ∧ name.length ≤ argumentNameLimit := by
  obtain ⟨hvalid, hne, hlength⟩ := argumentNameIsValid_definition argumentId
  rw [← h] at hvalid hne hlength
  rw [argumentNameIsValid_map_toLower] at hvalid
  exact ⟨hvalid, by simpa using hne, by simpa using hlength⟩

/-! ## One argument -/

/-- The value of a string option. -/
def stringValue (bytes : List UInt8) : ArgumentValue := { type := .string, bytes }

theorem ParsedArgumentValues.store_self (parsed : ParsedArgumentValues) (argumentId : ArgumentId)
    (value : ArgumentValue) : (parsed.store argumentId value).values argumentId = some value :=
  if_pos rfl

/-- A spaced text comes down to its option and its value. -/
theorem argumentsParseOne_spaced {parsed : ParsedArgumentValues} {argumentId : ArgumentId}
    {text name value : List UInt8} (hname : Names argumentId name) (htext : Spaced text name value)
    (htrim : trim isSpaceByte value = value) (hne : value ≠ []) :
    argumentsParseOne parsed text = argumentStore parsed argumentId value := by
  obtain ⟨a, b, c, d, ha, hb, hc, hd, rfl⟩ := htext
  obtain ⟨hvalid, hname_ne, hlength⟩ := hname.isValid
  have hraw : trim isSpaceByte (c ++ value ++ d) = value := by
    rw [trim_append_right hd, trim_append_left hc, htrim]
  have hfind : argumentFindId (name.map toLower) = some argumentId :=
    argumentFindId_eq_some_iff.mpr hname.symm
  rw [argumentsParseOne, argumentSplit_of_spaces ha hb hvalid hname_ne, hraw,
    if_neg (by simp [hne, hlength])]
  simp only [hvalid, Bool.not_true, Bool.false_eq_true, if_false, hfind]

/-- An option that takes a value takes one of the two spellings of it. -/
theorem argumentStore_eq_ok {parsed parsed' : ParsedArgumentValues} {argumentId : ArgumentId}
    {input : List UInt8} (h : argumentStore parsed argumentId input = .ok parsed') :
    ∃ value, argumentTyped argumentId value.bytes = .ok value ∧
      parsed' = parsed.store argumentId value ∧ Storable argumentId value.bytes ∧
      (input = quoted value.bytes ∨ (39 ∉ value.bytes ∧ input = value.bytes)) := by
  unfold argumentStore at h
  split at h
  · cases h
  split at h
  · cases h
  rename_i bytes hdecode
  obtain ⟨hshape, hne, hutf8, hplain⟩ := argumentDecodeValue_eq_some_iff.mp hdecode
  split at h
  · cases h
  rename_i hlimit
  split at h
  · cases h
  rename_i value htyped
  cases h
  -- the option keeps the bytes whatever its type
  have hbytes : value.bytes = bytes := by
    unfold argumentTyped at htyped
    split at htyped
    · cases htyped
      rfl
    all_goals
      split at htyped <;> cases htyped
      rfl
  subst hbytes
  exact ⟨value, htyped, rfl, ⟨hne, hutf8, hplain, not_lt.mp hlimit⟩, hshape⟩

theorem argumentStore_string {parsed : ParsedArgumentValues} {argumentId : ArgumentId}
    {input value : List UInt8} (hstring : argumentId.definition.type = .string)
    (hfree : parsed.values argumentId = none) (hvalue : Storable argumentId value)
    (hinput : input = quoted value ∨ (39 ∉ value ∧ input = value)) :
    argumentStore parsed argumentId input =
      .ok (parsed.store argumentId (stringValue value)) := by
  have hdecode : argumentDecodeValue input = some value :=
    argumentDecodeValue_eq_some_iff.mpr ⟨hinput, hvalue.ne_nil, hvalue.utf8, hvalue.plain⟩
  unfold argumentStore
  simp only [hfree, Option.isSome_none, Bool.false_eq_true, if_false, hdecode,
    not_lt.mpr hvalue.length_le, argumentTyped, hstring, stringValue]

/-- **An argument that is taken is one of the two spellings of what it stores.** -/
theorem argumentsParseOne_eq_ok {parsed parsed' : ParsedArgumentValues} {text : List UInt8}
    (h : argumentsParseOne parsed text = .ok parsed') :
    ∃ argumentId name value, Names argumentId name ∧
      argumentTyped argumentId value.bytes = .ok value ∧
      parsed' = parsed.store argumentId value ∧ Storable argumentId value.bytes ∧
      (Spaced text name (quoted value.bytes) ∨
        (39 ∉ value.bytes ∧ Spaced text name value.bytes)) := by
  unfold argumentsParseOne at h
  split at h
  · cases h
  rename_i name input hsplit
  obtain ⟨hspaced, -⟩ := spaced_of_argumentSplit hsplit
  split at h
  · cases h
  split at h
  · cases h
  rename_i argumentId hfind
  obtain ⟨value, htyped, hparsed, hvalue, hinput⟩ := argumentStore_eq_ok h
  refine ⟨argumentId, name, value, (argumentFindId_eq_some_iff.mp hfind).symm, htyped, hparsed,
    hvalue, ?_⟩
  rcases hinput with rfl | ⟨hmem, rfl⟩
  · exact .inl hspaced
  · exact .inr ⟨hmem, hspaced⟩

/-- An option that was free and has a value got it from a spelling of it. -/
theorem argumentsParseOne_stored {parsed parsed' : ParsedArgumentValues} {argumentId : ArgumentId}
    {text : List UInt8} {value : ArgumentValue} (hfree : parsed.values argumentId = none)
    (h : argumentsParseOne parsed text = .ok parsed')
    (hvalue : parsed'.values argumentId = some value) :
    Storable argumentId value.bytes ∧ argumentTyped argumentId value.bytes = .ok value ∧
      ∃ name, Names argumentId name ∧ (Spaced text name (quoted value.bytes) ∨
        (39 ∉ value.bytes ∧ Spaced text name value.bytes)) := by
  obtain ⟨other, name, stored, hname, htyped, rfl, hstored, hshape⟩ := argumentsParseOne_eq_ok h
  by_cases hother : argumentId = other
  · subst hother
    rw [ParsedArgumentValues.store_self] at hvalue
    cases hvalue
    exact ⟨hstored, htyped, name, hname, hshape⟩
  · have hsame : (parsed.store other stored).values argumentId = none :=
      (if_neg hother).trans hfree
    rw [hsame] at hvalue
    cases hvalue

/-- The quoted value comes back. -/
theorem argumentsParseOne_quoted {parsed : ParsedArgumentValues} {argumentId : ArgumentId}
    {text name value : List UInt8} (hstring : argumentId.definition.type = .string)
    (hfree : parsed.values argumentId = none) (hvalue : Storable argumentId value)
    (hname : Names argumentId name) (htext : Spaced text name (quoted value)) :
    argumentsParseOne parsed text = .ok (parsed.store argumentId (stringValue value)) := by
  rw [argumentsParseOne_spaced hname htext (trim_quoted value) (List.cons_ne_nil _ _)]
  exact argumentStore_string hstring hfree hvalue (.inl rfl)

/-- A bare value is stored as it is when it may be. -/
theorem argumentsParseOne_bare_iff {parsed : ParsedArgumentValues} {argumentId : ArgumentId}
    {text name value : List UInt8} (hstring : argumentId.definition.type = .string)
    (hfree : parsed.values argumentId = none) (hname : Names argumentId name)
    (htrim : trim isSpaceByte value = value) (htext : Spaced text name value) :
    argumentsParseOne parsed text = .ok (parsed.store argumentId (stringValue value)) ↔
      39 ∉ value ∧ Storable argumentId value := by
  constructor
  · intro h
    have hvalue : Storable argumentId value :=
      (argumentsParseOne_stored hfree h (ParsedArgumentValues.store_self _ _ _)).1
    rw [argumentsParseOne_spaced hname htext htrim hvalue.ne_nil] at h
    obtain ⟨stored, -, hparsed, -, hinput⟩ := argumentStore_eq_ok h
    have hsame : stringValue value = stored := by
      have hvalues := congrArg (fun parsed => parsed.values argumentId) hparsed
      simpa only [ParsedArgumentValues.store_self, Option.some.injEq] using hvalues
    subst hsame
    rcases hinput with hquoted | ⟨hmem, -⟩
    · exact absurd hquoted.symm (quoted_ne value)
    · exact ⟨hmem, hvalue⟩
  · rintro ⟨hmem, hvalue⟩
    rw [argumentsParseOne_spaced hname htext htrim hvalue.ne_nil]
    exact argumentStore_string hstring hfree hvalue (.inr ⟨hmem, rfl⟩)

/-- The argument of a connection string. -/
theorem metadataConnectionArgument_storable {connection : List UInt8}
    (h : Storable .connstr connection) :
    ∃ text, metadataConnectionArgument connection = some text ∧
      text.length ≤ argumentValueLimit ∧ Spaced text (ascii "connstr") (quoted connection) := by
  have hlimit : connection.length ≤ 4096 := h.length_le
  have hzero : (0 : UInt8) ∉ connection := fun hmem => h.plain 0 hmem (by decide)
  have hlength := (length_apostrophesDoubled connection).2
  refine ⟨ascii "connstr='" ++ apostrophesDoubled connection ++ [39], ?_, ?_, ?_⟩
  · rw [metadataConnectionArgument, if_neg]
    simp only [List.length_eq_zero_iff, h.ne_nil, not_lt.mpr hlimit, hzero, or_self,
      not_false_eq_true]
  · have hhead : (ascii "connstr='").length = 9 := by decide
    simp only [List.length_append, List.length_cons, List.length_nil, hhead, argumentValueLimit]
    omega
  · refine ⟨[], [], [], [], by simp [IsSpaces], by simp [IsSpaces], by simp [IsSpaces],
      by simp [IsSpaces], ?_⟩
    have hhead : ascii "connstr='" = ascii "connstr" ++ [61, 39] := by decide
    rw [hhead, quoted]
    simp

/-- **The round trip of a quoted argument.**  A value of a string option comes back from its quoted
spelling under any letter case of the name and any spaces; a bare value is stored as it is if and
only if it has no apostrophe and may be stored; nothing else stores a value under an option; and the
connection string of the metadata functions is one of these. -/
theorem quoting_round_trip (parsed : ParsedArgumentValues) (argumentId : ArgumentId)
    (hfree : parsed.values argumentId = none) :
    (∀ text name value, argumentId.definition.type = .string → Storable argumentId value →
      Names argumentId name → Spaced text name (quoted value) →
      argumentsParseOne parsed text = .ok (parsed.store argumentId (stringValue value))) ∧
    (∀ text name value, argumentId.definition.type = .string →
      Names argumentId name → trim isSpaceByte value = value → Spaced text name value →
      (argumentsParseOne parsed text = .ok (parsed.store argumentId (stringValue value)) ↔
        39 ∉ value ∧ Storable argumentId value)) ∧
    (∀ text parsed' value, argumentsParseOne parsed text = .ok parsed' →
      parsed'.values argumentId = some value →
      Storable argumentId value.bytes ∧ ∃ name, Names argumentId name ∧
        (Spaced text name (quoted value.bytes) ∨
          (39 ∉ value.bytes ∧ Spaced text name value.bytes))) ∧
    (argumentId = .connstr → ∀ connection, Storable .connstr connection →
      ∃ text, metadataConnectionArgument connection = some text ∧
        text.length ≤ argumentValueLimit ∧
        argumentsParseOne parsed text = .ok (parsed.store .connstr (stringValue connection))) := by
  refine ⟨?quoted, ?bare, ?only, ?connection⟩
  case quoted =>
    intro text name value hstring hvalue hname htext
    exact argumentsParseOne_quoted hstring hfree hvalue hname htext
  case bare =>
    intro text name value hstring hname htrim htext
    exact argumentsParseOne_bare_iff hstring hfree hname htrim htext
  case only =>
    intro text parsed' value h hvalue
    obtain ⟨hstorable, -, hshape⟩ := argumentsParseOne_stored hfree h hvalue
    exact ⟨hstorable, hshape⟩
  case connection =>
    rintro rfl connection hconnection
    obtain ⟨text, htext, hlength, hspaced⟩ := metadataConnectionArgument_storable hconnection
    exact ⟨text, htext, hlength,
      argumentsParseOne_quoted rfl hfree hconnection (by decide) hspaced⟩

/-- A table name with an apostrophe, a space at its end and an `=`. -/
theorem quoting_round_trip_table :
    argumentsParseOne {} (ascii "  TaBle =  'it''s = '  ") =
      .ok (ParsedArgumentValues.store {} .table (stringValue (ascii "it's = "))) := by
  refine (quoting_round_trip {} .table rfl).1 _ (ascii "TaBle") _ rfl ⟨by decide +kernel, ?_,
    by decide +kernel, by decide +kernel⟩ (by decide +kernel) ⟨ascii "  ", ascii " ", ascii "  ",
    ascii "  ", by decide +kernel, by decide +kernel, by decide +kernel, by decide +kernel,
    by decide +kernel⟩
  exact ⟨"it's = ".toList, by decide⟩

end Vps
