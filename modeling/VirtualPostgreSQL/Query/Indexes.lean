import VirtualPostgreSQL.Client.Port
import VirtualPostgreSQL.Machinery.Lists
import VirtualPostgreSQL.Machinery.Outcome
import VirtualPostgreSQL.Metadata.Table

/-!
# Query/Indexes — the key and the indexes that are declared for a query

`vps_query_metadata_parse_keys` reads a list of columns, `vps_query_indexes_parse` a list of indexes
with their columns.  Both look the columns up in the described result, ignoring the case of ASCII.
-/

namespace Vps

open Machinery

/-! ## The key -/

/-- The names of a `VpsQueryDescribeResult`, which differ in more than the case of letters. -/
structure QueryDescribeResult where
  names : List (List UInt8)
  count : names.length ≤ clientMaxResultFieldCount
  distinct : (names.map (List.map toLower)).Nodup

/-- `VpsQueryMetadataResult`, the failures of the key. -/
inductive QueryKeyError
  | invalidArgument | invalidKeySyntax | unknownKeyColumn | duplicateKeyColumn
  deriving DecidableEq, Repr

/-- An item of the loop of `vps_query_metadata_parse_keys`, behind the columns of the key so far. -/
def queryKeyColumn (described : List (List UInt8)) (columns : List UInt16) (item : List UInt8) :
    Except QueryKeyError (List UInt16) :=
  let name := trim isSpace item
  if name = [] ∨ columns.length ≥ queryMetadataMaxKeyColumns then .error .invalidKeySyntax
  else
    match queryFindColumn described name with
    | none => .error .unknownKeyColumn
    | some column =>
      if column ∈ columns then .error .duplicateKeyColumn else .ok (columns ++ [column])

/-- The loop of `vps_query_metadata_parse_keys` over what stands between the commas; a comma may not
end the text. -/
def queryKeyLoop (described : List (List UInt8)) :
    List UInt16 → List (List UInt8) → Except QueryKeyError (List UInt16)
  | columns, [] => .ok columns
  | columns, item :: items => do
    let columns ← queryKeyColumn described columns item
    if items = [[]] then .error .invalidKeySyntax else queryKeyLoop described columns items

/-- `vps_query_metadata_parse_keys` -/
def queryMetadataParseKeys (keys : List UInt8) (described : List (List UInt8)) :
    Except QueryKeyError (List UInt16) :=
  if keys.length = 0 then .ok []
  else if keys.length > queryIndexesMaxBytes then .error .invalidArgument
  else queryKeyLoop described [] (keys.splitOn 44)

/-! ## The grammar -/

/-- A name between spaces. -/
structure SpacedName where
  before : List UInt8
  name : List UInt8
  behind : List UInt8

namespace SpacedName

/-- An item as it is written. -/
def text (item : SpacedName) : List UInt8 := item.before ++ item.name ++ item.behind

/-- The spaces of an item are all that surrounds its name. -/
structure Spaced (item : SpacedName) : Prop where
  before : ∀ byte ∈ item.before, isSpace byte
  behind : ∀ byte ∈ item.behind, isSpace byte
  name : trim isSpace item.name = item.name

end SpacedName

/-- A number of a column, in the range of the result, names the column that is written. -/
def NamesColumn (described : QueryDescribeResult) (name : List UInt8) (column : UInt16) : Prop :=
  ∃ field, described.names[column.toNat]? = some field ∧ name.map toLower = field.map toLower

/-- **A key as it is declared**: columns, by their names between commas. -/
structure IsKey (described : QueryDescribeResult) (keys : List UInt8) (columns : List UInt16) :
    Prop where
  reading : ∃ items : List SpacedName, items ≠ [] ∧
    (∀ item ∈ items, item.Spaced ∧ item.name ≠ [] ∧ 44 ∉ item.name) ∧
    List.Forall₂ (fun item column => NamesColumn described item.name column) items columns ∧
    keys = [44].intercalate (items.map SpacedName.text)
  distinct : columns.Nodup
  count : columns.length ≤ queryMetadataMaxKeyColumns
  length : keys.length ≤ queryIndexesMaxBytes

/-- **An index as it is declared**: a name, and columns by their names between commas. -/
structure IsIndex (described : QueryDescribeResult) (text : List UInt8)
    (index : QueryIndexDefinition) : Prop where
  reading : ∃ (item : SpacedName) (columns : List SpacedName), columns ≠ [] ∧
    item.Spaced ∧ item.name = index.name ∧
    (∀ column ∈ columns, column.Spaced ∧ queryIdentifier column.name) ∧
    List.Forall₂ (fun item column => NamesColumn described item.name column) columns index.columns ∧
    text = item.text ++ 61 :: [44].intercalate (columns.map SpacedName.text)
  name : queryIdentifier index.name
  nameLength : index.name.length ≤ clientMaxFieldNameBytes
  hash : index.nameHash = queryNameHash index.name
  distinct : index.columns.Nodup
  count : index.columns.length ≤ queryIndexMaxColumns

/-- **Indexes as they are declared**, between semicolons. -/
structure IsIndexes (described : QueryDescribeResult) (definition : List UInt8)
    (indexes : List QueryIndexDefinition) : Prop where
  reading : ∃ texts : List (List UInt8), texts ≠ [] ∧
    List.Forall₂ (IsIndex described) texts indexes ∧ definition = [59].intercalate texts
  distinct : (indexes.map fun index => index.name.map toLower).Nodup
  count : indexes.length ≤ queryIndexMaxCount
  length : definition.length ≤ queryIndexesMaxBytes

/-! ## Columns -/

theorem queryNameEqual_iff {left right : List UInt8} :
    queryNameEqual left right ↔ left.map toLower = right.map toLower := beq_iff_eq

section Columns

variable {described : QueryDescribeResult} {name : List UInt8} {column : UInt16}

/-- **A column is found just when one is named so.** -/
theorem queryFindColumn_iff :
    queryFindColumn described.names name = some column ↔ NamesColumn described name column := by
  have hcount : ∀ index < described.names.length, (UInt16.ofNat index).toNat = index := by
    intro index hindex
    have hlimit : clientMaxResultFieldCount = 4096 := rfl
    have hsize : UInt16.size = 65536 := rfl
    exact UInt16.toNat_ofNat_of_lt' (by have := described.count; omega)
  rw [queryFindColumn, Option.map_eq_some_iff]
  constructor
  · rintro ⟨index, hindex, rfl⟩
    obtain ⟨hlt, hmatch, -⟩ := List.findIdx?_eq_some_iff_getElem.mp hindex
    exact ⟨described.names[index], by rw [hcount index hlt, List.getElem?_eq_getElem hlt],
      queryNameEqual_iff.mp hmatch⟩
  · rintro ⟨field, hfield, hname⟩
    obtain ⟨hlt, rfl⟩ := List.getElem?_eq_some_iff.mp hfield
    refine ⟨column.toNat, List.findIdx?_eq_some_iff_getElem.mpr
      ⟨hlt, queryNameEqual_iff.mpr hname, fun prior hprior hmatch => ?_⟩, UInt16.ofNat_toNat⟩
    have hsame := (queryNameEqual_iff.mp hmatch).symm.trans hname
    have hnodup := List.nodup_iff_injective_getElem.mp described.distinct
    have := @hnodup ⟨prior, by simp; omega⟩ ⟨column.toNat, by simpa using hlt⟩
      (by simpa using hsame)
    exact absurd (Fin.mk.inj this) (by omega)

/-- A name is that of one column at most. -/
theorem NamesColumn.unique {column' : UInt16} (h : NamesColumn described name column)
    (h' : NamesColumn described name column') : column = column' :=
  Option.some.inj ((queryFindColumn_iff.mpr h).symm.trans (queryFindColumn_iff.mpr h'))

end Columns

/-! ## Spaces -/

theorem SpacedName.Spaced.trim_text {item : SpacedName} (h : item.Spaced) :
    trim isSpace item.text = item.name := by
  rw [SpacedName.text, trim_append_right h.behind, trim_append_left h.before, h.name]

/-- Every item is a name between spaces. -/
def SpacedName.ofText (text : List UInt8) : SpacedName :=
  ⟨(margins isSpace text).1, trim isSpace text, (margins isSpace text).2⟩

theorem spaced_ofText (text : List UInt8) : (SpacedName.ofText text).Spaced :=
  ⟨fun _ => mem_margins_fst isSpace, fun _ => mem_margins_snd isSpace, trim_trim text⟩

/-- Blanks are kept around the name they are around. -/
theorem text_ofText (text : List UInt8) : (SpacedName.ofText text).text = text :=
  margins_fst_append_trim isSpace text

theorem map_text_ofText (texts : List (List UInt8)) :
    (texts.map SpacedName.ofText).map SpacedName.text = texts := by
  rw [List.map_map]
  exact (List.map_congr_left fun text _ => text_ofText text).trans (List.map_id texts)

/-- Neither spaces nor the bytes of identifiers separate anything. -/
theorem ne_separator {byte : UInt8}
    (h : isSpace byte ∨ byte = 95 ∨ byte = 36 ∨ isAlnum byte ∨ 0x80 ≤ byte) :
    byte ≠ 44 ∧ byte ≠ 59 ∧ byte ≠ 61 := by
  revert h
  exact byte_induction (P := fun byte => isSpace byte ∨ byte = 95 ∨ byte = 36 ∨ isAlnum byte ∨
    0x80 ≤ byte → byte ≠ 44 ∧ byte ≠ 59 ∧ byte ≠ 61) 256 (by decide +kernel) byte byte.toNat_lt

/-! ## The loops -/

section Loops

variable {described : QueryDescribeResult} {columns result : List UInt16}

/-- A column of the key is taken just when it is named, new, and there is room… -/
theorem queryKeyColumn_iff {item : List UInt8} :
    queryKeyColumn described.names columns item = .ok result ↔
      columns.length < queryMetadataMaxKeyColumns ∧ ∃ column, result = columns ++ [column] ∧
        (trim isSpace item ≠ [] ∧ NamesColumn described (trim isSpace item) column) ∧
        id column ∉ columns.map id := by
  rw [queryKeyColumn, List.map_id]
  split
  next h =>
    refine ⟨fun h => (by cases h), ?_⟩
    rintro ⟨hroom, column, -, ⟨hname, -⟩, -⟩
    exact absurd h (not_or.mpr ⟨hname, by omega⟩)
  next h =>
    rw [not_or, not_le] at h
    simp only [← queryFindColumn_iff]
    split
    next hnone => simp [hnone]
    next column hsome =>
      simp only [hsome, Option.some.injEq, id_eq]
      split
      next hmem =>
        refine ⟨fun h => (by cases h), ?_⟩
        rintro ⟨-, column', -, ⟨-, rfl⟩, hfresh⟩
        exact absurd hmem hfresh
      next hfresh =>
        constructor
        · rintro ⟨⟩
          exact ⟨h.2, column, rfl, ⟨h.1, rfl⟩, hfresh⟩
        · rintro ⟨-, column', rfl, ⟨-, rfl⟩, -⟩
          rfl

/-- …and so is one of an index, if its name is an identifier. -/
theorem queryIndexColumn_iff {item : List UInt8} :
    queryIndexColumn described.names columns item = .ok result ↔
      columns.length < queryIndexMaxColumns ∧ ∃ column, result = columns ++ [column] ∧
        (queryIdentifier (trim isSpace item) ∧ NamesColumn described (trim isSpace item) column) ∧
        id column ∉ columns.map id := by
  rw [queryIndexColumn, List.map_id]
  split
  next h =>
    refine ⟨fun h => (by cases h), ?_⟩
    rintro ⟨hroom, -⟩
    exact absurd h (Nat.not_le.mpr hroom)
  next hroom =>
  split
  next hname =>
    refine ⟨fun h => (by cases h), ?_⟩
    rintro ⟨-, column, -, ⟨hidentifier, -⟩, -⟩
    rw [hidentifier] at hname
    exact absurd hname (by decide)
  next hname =>
    rw [Bool.not_eq_true', Bool.not_eq_false] at hname
    simp only [← queryFindColumn_iff]
    split
    next hnone => simp [hnone]
    next column hsome =>
      simp only [hsome, Option.some.injEq, id_eq]
      split
      next hmem =>
        refine ⟨fun h => (by cases h), ?_⟩
        rintro ⟨-, column', -, ⟨-, rfl⟩, hfresh⟩
        exact absurd hmem hfresh
      next hfresh =>
        constructor
        · rintro ⟨⟩
          exact ⟨Nat.not_le.mp hroom, column, rfl, ⟨hname, rfl⟩, hfresh⟩
        · rintro ⟨-, column', rfl, ⟨-, rfl⟩, -⟩
          rfl

/-- Behind the last comma the key has a name. -/
theorem queryKeyLoop_iff {items : List (List UInt8)} :
    queryKeyLoop described.names columns items = .ok result ↔
      items.foldlM (queryKeyColumn described.names) columns = .ok result := by
  induction items generalizing columns with
  | nil => rfl
  | cons item items ih =>
    rw [queryKeyLoop, List.foldlM_cons, bind_eq_ok_iff, bind_eq_ok_iff]
    refine exists_congr fun next => and_congr_right fun _ => ?_
    split
    next hlast =>
      refine ⟨fun h => (by cases h), fun h => ?_⟩
      rw [hlast, List.foldlM_cons, bind_eq_ok_iff] at h
      obtain ⟨next', hempty, -⟩ := h
      obtain ⟨-, -, -, ⟨hname, -⟩, -⟩ := queryKeyColumn_iff.mp hempty
      exact absurd rfl hname
    next => exact ih

end Loops

/-! ## The key -/

section Key

variable {described : QueryDescribeResult}

/-- A separator that is not in a name is not around it. -/
theorem not_mem_text {item : SpacedName} {sep : UInt8} (hsep : isSpace sep = false)
    (hitem : item.Spaced) (hname : sep ∉ item.name) : sep ∉ item.text := by
  have hmargin : ∀ margin : List UInt8, (∀ byte ∈ margin, isSpace byte) → sep ∉ margin :=
    fun margin hspaces hmem => by
      rw [hspaces sep hmem] at hsep
      cases hsep
  simp only [SpacedName.text, List.mem_append, not_or]
  exact ⟨⟨hmargin _ hitem.before, hname⟩, hmargin _ hitem.behind⟩

theorem text_ne_nil {item : SpacedName} (hname : item.name ≠ []) : item.text ≠ [] := by
  simp [SpacedName.text, hname]

theorem intercalate_text_ne_nil {sep : UInt8} {items : List SpacedName} (hne : items ≠ [])
    (hnames : ∀ item ∈ items, item.name ≠ []) :
    [sep].intercalate (items.map SpacedName.text) ≠ [] := by
  cases items with
  | nil => exact absurd rfl hne
  | cons item items =>
    rw [List.map_cons, intercalate_cons_flatMap]
    exact fun h => text_ne_nil (hnames item List.mem_cons_self) (List.append_eq_nil_iff.mp h).1

/-- What stands between the separators is what the items are, with their spaces. -/
theorem splitOn_text {sep : UInt8} (hsep : isSpace sep = false) {items : List SpacedName}
    (hne : items ≠ []) (hitems : ∀ item ∈ items, item.Spaced ∧ sep ∉ item.name) :
    ([sep].intercalate (items.map SpacedName.text)).splitOn sep = items.map SpacedName.text := by
  refine List.splitOn_intercalate sep ?_ (by simpa using hne)
  intro text htext
  obtain ⟨item, hitem, rfl⟩ := List.mem_map.mp htext
  exact not_mem_text hsep (hitems item hitem).1 (hitems item hitem).2

/-- No separator ends the items. -/
theorem getLast?_text {sep : UInt8} (hsep : isSpace sep = false) {items : List SpacedName}
    (hne : items ≠ []) (hitems : ∀ item ∈ items, item.Spaced ∧ sep ∉ item.name)
    (hnames : ∀ item ∈ items, item.name ≠ []) :
    ([sep].intercalate (items.map SpacedName.text)).getLast? ≠ some sep := by
  intro hlast
  obtain ⟨before, hbefore⟩ := List.getLast?_eq_some_iff.mp hlast
  have hsplit := splitOn_text hsep hne hitems
  rw [hbefore, List.splitOn_append_cons_self, List.splitOn_nil] at hsplit
  have hempty : [] ∈ items.map SpacedName.text := hsplit ▸ by simp
  obtain ⟨item, hitem, htext⟩ := List.mem_map.mp hempty
  exact text_ne_nil (hnames item hitem) htext

/-- **Names between separators.**  The names that are read between the separators of a text are
those of a reading of the text. -/
theorem forall₂_splitOn_iff {sep : UInt8} (hsep : isSpace sep = false) {text : List UInt8}
    {columns : List UInt16} {P : List UInt8 → Prop} :
    List.Forall₂ (fun item column => P (trim isSpace item) ∧
        NamesColumn described (trim isSpace item) column) (text.splitOn sep) columns ↔
      ∃ items : List SpacedName, items ≠ [] ∧
        (∀ item ∈ items, (item.Spaced ∧ sep ∉ item.name) ∧ P item.name) ∧
        List.Forall₂ (fun item column => NamesColumn described item.name column) items columns ∧
        text = [sep].intercalate (items.map SpacedName.text) := by
  rw [List.forall₂_and_left]
  constructor
  · rintro ⟨hnames, hcolumns⟩
    refine ⟨(text.splitOn sep).map SpacedName.ofText, by simp [List.splitOn_ne_nil], ?_, ?_, ?_⟩
    · intro item hitem
      obtain ⟨part, hpart, rfl⟩ := List.mem_map.mp hitem
      exact ⟨⟨spaced_ofText part, fun hmem =>
        not_mem_of_mem_splitOn hpart (mem_of_mem_trim isSpace hmem)⟩, hnames part hpart⟩
    · exact List.forall₂_map_left_iff.mpr hcolumns
    · rw [map_text_ofText, List.intercalate_splitOn]
  · rintro ⟨items, hne, hitems, hcolumns, rfl⟩
    rw [splitOn_text hsep hne fun item hitem => (hitems item hitem).1]
    constructor
    · intro part hpart
      obtain ⟨item, hitem, rfl⟩ := List.mem_map.mp hpart
      rw [(hitems item hitem).1.1.trim_text]
      exact (hitems item hitem).2
    · refine List.forall₂_map_left_iff.mpr ?_
      refine ((List.forall₂_and_left _ _).mpr
        ⟨fun item hitem => (hitems item hitem).1.1, hcolumns⟩).imp ?_
      rintro item column ⟨hspaced, hcolumn⟩
      rwa [hspaced.trim_text]

/-- **A list of columns is read item by item.** -/
theorem queryKeyLoop_splitOn_iff {keys : List UInt8} {columns : List UInt16} :
    queryKeyLoop described.names [] (keys.splitOn 44) = .ok columns ↔
      List.Forall₂ (fun item column => trim isSpace item ≠ [] ∧
          NamesColumn described (trim isSpace item) column) (keys.splitOn 44) columns ∧
        columns.Nodup ∧ columns.length ≤ queryMetadataMaxKeyColumns := by
  have hcollect : (keys.splitOn 44).foldlM (queryKeyColumn described.names) [] = .ok columns ↔
      ∃ added, columns = [] ++ added ∧
        List.Forall₂ (fun item column => trim isSpace item ≠ [] ∧
          NamesColumn described (trim isSpace item) column) (keys.splitOn 44) added ∧
        (columns.map id).Nodup ∧ columns.length ≤ queryMetadataMaxKeyColumns := by
    apply foldlM_collect_iff
    · exact fun _ _ _ _ => queryKeyColumn_iff
    · exact List.nodup_nil
    · exact Nat.zero_le _
  rw [queryKeyLoop_iff, hcollect]
  simp

/-- A key has a column. -/
theorem not_isKey_nil {columns : List UInt16} : ¬IsKey described [] columns := fun h => by
  obtain ⟨items, hne, hitems, -, heq⟩ := h.reading
  exact intercalate_text_ne_nil hne (fun item hitem => (hitems item hitem).2.1) heq.symm

/-- **A key is accepted as it is declared**; an empty text declares none. -/
theorem queryMetadataParseKeys_iff {keys : List UInt8} {columns : List UInt16} :
    queryMetadataParseKeys keys described.names = .ok columns ↔
      keys = [] ∧ columns = [] ∨ IsKey described keys columns := by
  rw [queryMetadataParseKeys]
  split
  next hempty =>
    obtain rfl := List.length_eq_zero_iff.mp hempty
    simp [not_isKey_nil, eq_comm]
  next hne =>
  have hkeys : ¬(keys = [] ∧ columns = []) := fun h => hne (congrArg List.length h.1)
  rw [or_iff_right hkeys]
  split
  next hlong =>
    exact ⟨fun h => (by cases h), fun h => absurd hlong (Nat.not_lt.mpr h.length)⟩
  next hshort =>
    rw [queryKeyLoop_splitOn_iff, forall₂_splitOn_iff (P := (· ≠ [])) (by decide)]
    constructor
    · rintro ⟨⟨items, hitemsNe, hitems, hcolumns, hreading⟩, hdistinct, hcount⟩
      exact ⟨⟨items, hitemsNe, fun item hitem => ⟨(hitems item hitem).1.1, (hitems item hitem).2,
        (hitems item hitem).1.2⟩, hcolumns, hreading⟩, hdistinct, hcount, Nat.not_lt.mp hshort⟩
    · rintro ⟨⟨items, hitemsNe, hitems, hcolumns, hreading⟩, hdistinct, hcount, -⟩
      exact ⟨⟨items, hitemsNe, fun item hitem => ⟨⟨(hitems item hitem).1, (hitems item hitem).2.2⟩,
        (hitems item hitem).2.1⟩, hcolumns, hreading⟩, hdistinct, hcount⟩

end Key

/-! ## The indexes -/

section Index

variable {described : QueryDescribeResult}

theorem identifier_byte {name : List UInt8} (h : queryIdentifier name) {byte : UInt8}
    (hbyte : byte ∈ name) : byte = 95 ∨ byte = 36 ∨ isAlnum byte ∨ 0x80 ≤ byte := by
  cases name with
  | nil => exact absurd hbyte List.not_mem_nil
  | cons first rest =>
    simp only [queryIdentifier, Bool.and_eq_true, Bool.or_eq_true, beq_iff_eq, decide_eq_true_eq,
      List.all_eq_true] at h
    rcases List.mem_cons.mp hbyte with rfl | hbyte
    · rcases h.1 with (h | h) | h
      · exact .inl h
      · exact .inr (.inr (.inl (by rw [isAlnum, h, Bool.true_or])))
      · exact .inr (.inr (.inr h))
    · simpa only [or_assoc] using h.2 byte hbyte

theorem identifier_ne_nil {name : List UInt8} (h : queryIdentifier name) : name ≠ [] := by
  rintro rfl
  cases h

/-- Nothing in a name between spaces separates anything. -/
theorem mem_text_ne_separator {item : SpacedName} (hspaced : item.Spaced)
    (hname : queryIdentifier item.name) {byte : UInt8} (hbyte : byte ∈ item.text) :
    byte ≠ 44 ∧ byte ≠ 59 ∧ byte ≠ 61 := by
  simp only [SpacedName.text, List.mem_append] at hbyte
  rcases hbyte with (hbyte | hbyte) | hbyte
  · exact ne_separator (.inl (hspaced.before byte hbyte))
  · exact ne_separator (.inr (identifier_byte hname hbyte))
  · exact ne_separator (.inl (hspaced.behind byte hbyte))

/-- The columns that are read in the text behind an equals sign, if no comma ends it. -/
theorem foldlM_queryIndexCells_iff {text : List UInt8} {columns : List UInt16} (hne : text ≠ [])
    (hlast : text.getLast? ≠ some 44) :
    (queryIndexCells text).foldlM (queryIndexColumn described.names) [] = .ok columns ↔
      List.Forall₂ (fun item column => queryIdentifier (trim isSpace item) ∧
          NamesColumn described (trim isSpace item) column) (text.splitOn 44) columns ∧
        columns.Nodup ∧ columns.length ≤ queryIndexMaxColumns := by
  have hcells : queryIndexCells text = text.splitOn 44 :=
    if_neg fun h => (getLast?_of_splitOn h).elim hne hlast
  have hcollect : (text.splitOn 44).foldlM (queryIndexColumn described.names) [] = .ok columns ↔
      ∃ added, columns = [] ++ added ∧
        List.Forall₂ (fun item column => queryIdentifier (trim isSpace item) ∧
          NamesColumn described (trim isSpace item) column) (text.splitOn 44) added ∧
        (columns.map id).Nodup ∧ columns.length ≤ queryIndexMaxColumns := by
    apply foldlM_collect_iff
    · exact fun _ _ _ _ => queryIndexColumn_iff
    · exact List.nodup_nil
    · exact Nat.zero_le _
  rw [hcells, hcollect]
  simp

/-- What stands before and behind the first equals sign. -/
theorem split_equals {item : List UInt8} (h : 61 ∈ item) :
    item = item.takeWhile (· ≠ 61) ++ 61 :: (item.dropWhile (· ≠ 61)).drop 1 := by
  have hhead := List.head?_dropWhile_not (· ≠ (61 : UInt8)) item
  cases hdrop : item.dropWhile (· ≠ 61) with
  | nil => exact absurd h (fun h => by simpa using List.dropWhile_eq_nil_iff.mp hdrop 61 h)
  | cons byte rest =>
    rw [hdrop] at hhead
    obtain rfl : byte = 61 := by simpa using hhead
    rw [List.drop_one, List.tail_cons, ← hdrop, List.takeWhile_append_dropWhile]

/-- A name ends at the first `=`. -/
theorem takeWhile_equals {name : List UInt8} (hname : ∀ byte ∈ name, byte ≠ 61)
    (columnText : List UInt8) :
    (name ++ 61 :: columnText).takeWhile (· ≠ 61) = name ∧
      (name ++ 61 :: columnText).dropWhile (· ≠ 61) = 61 :: columnText := by
  have hpos : ∀ byte ∈ name, decide (byte ≠ 61) = true :=
    fun byte hbyte => by simp [hname byte hbyte]
  rw [List.takeWhile_append_of_pos hpos, List.dropWhile_append_of_pos hpos]
  simp

theorem any_queryNameEqual_iff {indexes : List QueryIndexDefinition} {name : List UInt8} :
    (indexes.any fun prior => queryNameEqual name prior.name) ↔
      name.map toLower ∈ indexes.map fun index => index.name.map toLower := by
  simp only [List.any_eq_true, List.mem_map, queryNameEqual_iff]
  exact exists_congr fun prior => and_congr_right fun _ => eq_comm

/-- An item that is accepted is declared so. -/
theorem isIndex_of_queryIndexItem {item : List UInt8} (hlast : item.getLast? ≠ some 44)
    {indexes next : List QueryIndexDefinition}
    (h : queryIndexItem described.names indexes item = .ok next) :
    indexes.length < queryIndexMaxCount ∧ ∃ index, next = indexes ++ [index] ∧
      IsIndex described item index ∧
      index.name.map toLower ∉ indexes.map fun index => index.name.map toLower := by
  rw [queryIndexItem] at h
  split at h
  next => cases h
  next hroom =>
  split at h
  next => cases h
  next htexts =>
  rw [not_or, not_or, not_not] at htexts
  split at h
  next => cases h
  next hname =>
  rw [not_or, not_lt, Bool.not_eq_true', Bool.not_eq_false] at hname
  split at h
  next => cases h
  next hfresh =>
    obtain ⟨columns, hloop, h⟩ := ok_of_bind h
    split at h
    next => cases h
    next hcolumnsNe =>
      cases h
      have hitem := split_equals htexts.1
      generalize (item.dropWhile (· ≠ 61)).drop 1 = columnText at htexts hloop hitem
      have hcolumnLast : columnText.getLast? ≠ some 44 := fun hcomma => hlast (by
        rw [hitem, List.getLast?_append_cons, List.getLast?_cons_of_ne_nil htexts.2.2, hcomma])
      rw [foldlM_queryIndexCells_iff htexts.2.2 hcolumnLast,
        forall₂_splitOn_iff (P := fun name => queryIdentifier name) (by decide)] at hloop
      obtain ⟨⟨columnItems, hne, hcolumnItems, hcolumns, htext⟩, hdistinct, hcount⟩ := hloop
      refine ⟨Nat.not_le.mp hroom, _, rfl, ⟨⟨SpacedName.ofText (item.takeWhile (· ≠ 61)),
        columnItems, hne, spaced_ofText _, rfl, fun column hcolumn =>
        ⟨(hcolumnItems column hcolumn).1.1, (hcolumnItems column hcolumn).2⟩, hcolumns, ?_⟩,
          hname.2,
        hname.1, rfl, hdistinct, hcount⟩, fun hmem => hfresh (any_queryNameEqual_iff.mpr hmem)⟩
      rw [text_ofText, ← htext]
      exact hitem

/-- What is declared is accepted. -/
theorem queryIndexItem_of_isIndex {item : List UInt8} {indexes : List QueryIndexDefinition}
    {index : QueryIndexDefinition} (hroom : indexes.length < queryIndexMaxCount)
    (hindex : IsIndex described item index)
    (hfresh : index.name.map toLower ∉ indexes.map fun index => index.name.map toLower) :
    queryIndexItem described.names indexes item = .ok (indexes ++ [index]) ∧
      item.getLast? ≠ some 44 := by
  obtain ⟨⟨spaced, columnItems, hne, hspaced, hspacedName, hcolumnItems, hcolumns, hitem⟩, hname,
    hnameLength, hhash, hdistinct, hcount⟩ := hindex
  have hidentifier : queryIdentifier spaced.name := hspacedName ▸ hname
  have hcolumnSpaced : ∀ column ∈ columnItems, column.Spaced ∧ 44 ∉ column.name :=
    fun column hcolumn => ⟨(hcolumnItems column hcolumn).1, fun hmem =>
      (ne_separator (.inr (identifier_byte (hcolumnItems column hcolumn).2 hmem))).1 rfl⟩
  have hcolumnNames : ∀ column ∈ columnItems, column.name ≠ [] := fun column hcolumn =>
    identifier_ne_nil (hcolumnItems column hcolumn).2
  obtain ⟨columnText, htext⟩ : ∃ columnText,
      [44].intercalate (columnItems.map SpacedName.text) = columnText := ⟨_, rfl⟩
  have hcolumnText : columnText ≠ [] := htext ▸ intercalate_text_ne_nil hne hcolumnNames
  have hlast : columnText.getLast? ≠ some 44 :=
    htext ▸ getLast?_text (by decide) hne hcolumnSpaced hcolumnNames
  have hloop : (queryIndexCells columnText).foldlM (queryIndexColumn described.names) [] =
      .ok index.columns := by
    rw [foldlM_queryIndexCells_iff hcolumnText hlast,
      forall₂_splitOn_iff (P := fun name => queryIdentifier name) (by decide)]
    exact ⟨⟨columnItems, hne, fun column hcolumn => ⟨hcolumnSpaced column hcolumn,
      (hcolumnItems column hcolumn).2⟩, hcolumns, htext.symm⟩, hdistinct, hcount⟩
  have hcolumnsNe : index.columns ≠ [] := fun hnil => by
    rw [hnil, List.forall₂_nil_right_iff] at hcolumns
    exact hne hcolumns
  have hbytes : ∀ byte ∈ spaced.text, byte ≠ 61 := fun byte hbyte =>
    (mem_text_ne_separator hspaced hidentifier hbyte).2.2
  obtain ⟨htake, hdrop⟩ := takeWhile_equals hbytes columnText
  have hhead : (spaced.text ++ 61 :: columnText).head? ≠ some 61 := by
    cases hname : spaced.text with
    | nil => exact absurd hname (text_ne_nil (identifier_ne_nil hidentifier))
    | cons byte rest =>
      have hmem : byte ∈ spaced.text := hname ▸ List.mem_cons_self
      exact fun h => (mem_text_ne_separator hspaced hidentifier hmem).2.2 (Option.some.inj h)
  rw [hitem, htext]
  constructor
  · have hnotAny : ¬(indexes.any fun prior => queryNameEqual index.name prior.name) = true :=
      fun h => hfresh (any_queryNameEqual_iff.mp h)
    have htexts : ¬(61 ∉ spaced.text ++ 61 :: columnText ∨
        (spaced.text ++ 61 :: columnText).head? = some 61 ∨ columnText = []) := by
      rintro (h | h | h)
      · exact h (by simp)
      · exact hhead h
      · exact hcolumnText h
    simp only [queryIndexItem, if_neg (Nat.not_le.mpr hroom), hdrop, htake, hspaced.trim_text,
      hspacedName, List.drop_one, List.tail_cons, if_neg htexts]
    rw [if_neg (not_or.mpr ⟨Nat.not_lt.mpr hnameLength, by simp [hname]⟩), if_neg hnotAny, hloop,
      ok_bind, if_neg hcolumnsNe, ← hhash]
  · rwa [List.getLast?_append_cons, List.getLast?_cons_of_ne_nil hcolumnText]

/-- **An index is read just when it is one**, under a name that is new. -/
theorem queryIndexItem_iff {item : List UInt8} (hlast : item.getLast? ≠ some 44)
    {indexes next : List QueryIndexDefinition} :
    queryIndexItem described.names indexes item = .ok next ↔
      indexes.length < queryIndexMaxCount ∧ ∃ index, next = indexes ++ [index] ∧
        IsIndex described item index ∧
        index.name.map toLower ∉ indexes.map fun index => index.name.map toLower := by
  refine ⟨isIndex_of_queryIndexItem hlast, ?_⟩
  rintro ⟨hroom, index, rfl, hindex, hfresh⟩
  exact (queryIndexItem_of_isIndex hroom hindex hfresh).1

/-- Nothing is declared in an empty item. -/
theorem queryIndexItem_nil {indexes next : List QueryIndexDefinition} :
    queryIndexItem described.names indexes [] ≠ .ok next := by
  rw [queryIndexItem]
  split
  next => exact fun h => (by cases h)
  next =>
    rw [if_pos (.inl List.not_mem_nil)]
    exact fun h => (by cases h)

/-- Behind the last semicolon stands an index. -/
theorem queryIndexItems_iff {items : List (List UInt8)}
    {indexes result : List QueryIndexDefinition} :
    queryIndexItems described.names indexes items = .ok result ↔
      items.foldlM (queryIndexItem described.names) indexes = .ok result := by
  induction items generalizing indexes with
  | nil => rfl
  | cons item items ih =>
    rw [queryIndexItems, List.foldlM_cons, bind_eq_ok_iff, bind_eq_ok_iff]
    refine exists_congr fun next => and_congr_right fun _ => ?_
    split
    next hlast =>
      refine ⟨fun h => (by cases h), fun h => ?_⟩
      rw [hlast, List.foldlM_cons] at h
      obtain ⟨next', hempty, -⟩ := ok_of_bind h
      exact absurd hempty queryIndexItem_nil
    next => exact ih

/-- No semicolon stands in an index, and no comma at its end. -/
theorem IsIndex.separators {text : List UInt8} {index : QueryIndexDefinition}
    (h : IsIndex described text index) : 59 ∉ text ∧ text.getLast? ≠ some 44 := by
  have hroom : ([] : List QueryIndexDefinition).length < queryIndexMaxCount := by decide
  refine ⟨?_, (queryIndexItem_of_isIndex hroom h List.not_mem_nil).2⟩
  obtain ⟨item, columns, -, hitem, hname, hcolumns, -, rfl⟩ := h.reading
  have hidentifier : queryIdentifier item.name := hname ▸ h.name
  intro hmem
  rcases List.mem_append.mp hmem with hmem | hmem
  · exact (mem_text_ne_separator hitem hidentifier hmem).2.1 rfl
  · rcases List.mem_cons.mp hmem with hmem | hmem
    · exact absurd hmem (by decide)
    · obtain hmem | ⟨part, hpart, hmem⟩ := mem_of_mem_intercalate hmem
      · exact absurd hmem (by decide)
      · obtain ⟨column, hcolumn, rfl⟩ := List.mem_map.mp hpart
        exact (mem_text_ne_separator (hcolumns column hcolumn).1 (hcolumns column hcolumn).2
          hmem).2.1 rfl

/-- A list of columns that ends in a comma. -/
def EndsInComma (definition : List UInt8) : Prop :=
  ∃ item ∈ definition.splitOn 59, item.getLast? = some 44

theorem not_isIndexes_nil {indexes : List QueryIndexDefinition} :
    ¬IsIndexes described [] indexes := fun h => by
  obtain ⟨texts, hne, htexts, hdefinition⟩ := h.reading
  cases htexts with
  | nil => exact hne rfl
  | @cons text index texts indexes htext hrest =>
    obtain ⟨item, columns, -, -, -, -, -, rfl⟩ := htext.reading
    rw [intercalate_cons_flatMap, List.append_assoc] at hdefinition
    exact absurd (List.append_eq_nil_iff.mp hdefinition.symm).2 (List.cons_ne_nil _ _)

/-- The indexes that are read between the semicolons are those that are declared. -/
theorem forall₂_isIndex_iff {definition : List UInt8} {indexes : List QueryIndexDefinition} :
    List.Forall₂ (IsIndex described) (definition.splitOn 59) indexes ↔
      ∃ texts : List (List UInt8), texts ≠ [] ∧ List.Forall₂ (IsIndex described) texts indexes ∧
        definition = [59].intercalate texts := by
  constructor
  · exact fun h => ⟨_, List.splitOn_ne_nil 59 definition, h, (List.intercalate_splitOn 59).symm⟩
  · rintro ⟨texts, hne, htexts, rfl⟩
    rw [List.splitOn_intercalate 59 ?_ hne]
    · exact htexts
    · intro text htext
      obtain ⟨index, -, hindex⟩ := forall₂_exists_right htexts htext
      exact hindex.separators.1

/-- So is a list of indexes. -/
theorem queryIndexItems_splitOn_iff {definition : List UInt8} {indexes : List QueryIndexDefinition}
    (hcomma : ¬EndsInComma definition) :
    queryIndexItems described.names [] (definition.splitOn 59) = .ok indexes ↔
      List.Forall₂ (IsIndex described) (definition.splitOn 59) indexes ∧
        (indexes.map fun index => index.name.map toLower).Nodup ∧
        indexes.length ≤ queryIndexMaxCount := by
  have hcollect : (definition.splitOn 59).foldlM (queryIndexItem described.names) [] = .ok indexes ↔
      ∃ added, indexes = [] ++ added ∧
        List.Forall₂ (IsIndex described) (definition.splitOn 59) added ∧
        (indexes.map fun index => index.name.map toLower).Nodup ∧
        indexes.length ≤ queryIndexMaxCount := by
    apply foldlM_collect_iff
    · exact fun item hitem _ _ => queryIndexItem_iff fun hlast => hcomma ⟨item, hitem, hlast⟩
    · exact List.nodup_nil
    · exact Nat.zero_le _
  rw [queryIndexItems_iff, hcollect]
  simp

/-- **Indexes are accepted as they are declared**, where no list of columns ends in a comma; an
empty text declares none. -/
theorem queryIndexesParse_iff {definition : List UInt8} {indexes : List QueryIndexDefinition} :
    queryIndexesParse definition described.names = .ok indexes ∧ ¬EndsInComma definition ↔
      definition = [] ∧ indexes = [] ∨ IsIndexes described definition indexes := by
  rw [queryIndexesParse]
  split
  next hempty =>
    subst hempty
    simp [not_isIndexes_nil, EndsInComma, eq_comm]
  next hne =>
  have hdefinition : ¬(definition = [] ∧ indexes = []) := fun h => hne h.1
  rw [or_iff_right hdefinition]
  split
  next hlong =>
    exact ⟨fun h => (by cases h.1), fun h => absurd hlong (Nat.not_lt.mpr h.length)⟩
  next hshort =>
    constructor
    · rintro ⟨hloop, hcomma⟩
      obtain ⟨hindexes, hdistinct, hcount⟩ := (queryIndexItems_splitOn_iff hcomma).mp hloop
      exact ⟨forall₂_isIndex_iff.mp hindexes, hdistinct, hcount, Nat.not_lt.mp hshort⟩
    · rintro ⟨hreading, hdistinct, hcount, -⟩
      have hindexes := forall₂_isIndex_iff.mpr hreading
      have hcomma : ¬EndsInComma definition := by
        rintro ⟨item, hitem, hlast⟩
        obtain ⟨index, -, hindex⟩ := forall₂_exists_right hindexes hitem
        exact hindex.separators.2 hlast
      exact ⟨(queryIndexItems_splitOn_iff hcomma).mpr ⟨hindexes, hdistinct, hcount⟩, hcomma⟩

end Index

/-- **The key and the indexes of a query.**  A key is accepted exactly as it is declared, with an
empty text for none, and so are the indexes where no list of columns ends in a comma. -/
theorem query_lists_exact (described : QueryDescribeResult) :
    (∀ keys columns, queryMetadataParseKeys keys described.names = .ok columns ↔
      keys = [] ∧ columns = [] ∨ IsKey described keys columns) ∧
    ∀ definition indexes,
      queryIndexesParse definition described.names = .ok indexes ∧ ¬EndsInComma definition ↔
        definition = [] ∧ indexes = [] ∨ IsIndexes described definition indexes :=
  ⟨fun _ _ => queryMetadataParseKeys_iff, fun _ _ => queryIndexesParse_iff⟩

/-- A result with the column `a`. -/
def describedColumn : QueryDescribeResult where
  names := [[97]]
  count := by decide
  distinct := by decide

/-- **An empty text is accepted**, which declares neither a key nor an index; and so is `i=a,`, with
a comma behind the last column. -/
theorem empty_lists_accepted :
    (∃ columns, queryMetadataParseKeys [] describedColumn.names = .ok columns ∧
      ¬IsKey describedColumn [] columns) ∧
    (∃ indexes, queryIndexesParse [] describedColumn.names = .ok indexes ∧
      ¬IsIndexes describedColumn [] indexes) ∧
    ∃ indexes, queryIndexesParse [105, 61, 97, 44] describedColumn.names = .ok indexes ∧
      ¬IsIndexes describedColumn [105, 61, 97, 44] indexes := by
  refine ⟨⟨[], rfl, not_isKey_nil⟩, ⟨[], rfl, not_isIndexes_nil⟩, _, rfl, fun h => ?_⟩
  obtain ⟨index, -, hindex⟩ := forall₂_exists_right (forall₂_isIndex_iff.mpr h.reading)
    (show [105, 61, 97, 44] ∈ ([105, 61, 97, 44] : List UInt8).splitOn 59 by decide)
  exact hindex.separators.2 rfl

end Vps
