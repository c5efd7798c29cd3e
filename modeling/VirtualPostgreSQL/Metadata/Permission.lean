import VirtualPostgreSQL.Metadata.Key

/-!
# Metadata/Permission — a relation that may be written has a key that names one row

The key is the best of the keys that the indexes offer.  What it promises of a relation that may be
written, and that the order of the indexes does not matter, holds but for three kinds of catalogs:
two rows that tie for the best key and differ in it, a partition that is no table, and a key of an
index whose nulls are not distinct with a column that is not there.
-/

namespace Vps

open Machinery

/-! ## The best key -/

/-- The keys that the rows offer. -/
def offeredKeys (columns : List CatalogColumn) (rows : List (List (Option (List UInt8)))) :
    List KeyMetadata :=
  rows.filterMap fun row => (indexOfRow row).bind (·.key columns)

/-- A key comes before another one: a primary key before others, then the smaller index. -/
def KeyMetadata.Beats (key other : KeyMetadata) : Prop :=
  other.rank < key.rank ∨ (other.rank = key.rank ∧ key.indexOid < other.indexOid)

/-- Which key is the better one can be decided. -/
instance : DecidableRel KeyMetadata.Beats := fun key other =>
  inferInstanceAs (Decidable (other.rank < key.rank ∨ _))

/-- A key that is offered, and that no offered key comes before. -/
def PreferredKey (columns : List CatalogColumn) (rows : List (List (Option (List UInt8))))
    (key : KeyMetadata) : Prop :=
  key ∈ offeredKeys columns rows ∧ ∀ other ∈ offeredKeys columns rows, ¬other.Beats key

/-- The code takes the better key of two. -/
theorem keyBetter_eq : keyBetter = better KeyMetadata.Beats := rfl

theorem KeyMetadata.not_beats_self (key : KeyMetadata) : ¬key.Beats key := by
  unfold Beats
  simp only [UInt32.lt_iff_toNat_lt]
  omega

/-- No two keys beat each other… -/
theorem KeyMetadata.Beats.asymm {key other : KeyMetadata} (h : key.Beats other) :
    ¬other.Beats key := by
  unfold Beats at *
  simp only [UInt32.lt_iff_toNat_lt] at *
  omega

/-- …and what is not beaten is not beaten by what is no better. -/
theorem KeyMetadata.not_beats_trans {a b c : KeyMetadata} (hab : ¬a.Beats b) (hbc : ¬b.Beats c) :
    ¬a.Beats c := by
  unfold Beats at *
  simp only [UInt32.lt_iff_toNat_lt] at *
  omega

theorem mem_offeredKeys {columns : List CatalogColumn} {rows : List (List (Option (List UInt8)))}
    {key : KeyMetadata} :
    key ∈ offeredKeys columns rows ↔
      ∃ row ∈ rows, ∃ index, indexOfRow row = some index ∧ index.key columns = some key := by
  simp only [offeredKeys, List.mem_filterMap, Option.bind_eq_some_iff]

/-- **What the key of an index is.** -/
theorem IndexRow.key_eq_some {columns : List CatalogColumn} {index : IndexRow} {key : KeyMetadata}
    (h : index.key columns = some key) :
    index.Usable ∧ keyAttributeList index.attributes index.keyCount = some key.attributeNumbers ∧
      (index.nullsNotDistinct = false → keyAllNotNull columns key.attributeNumbers = true) ∧
      key.indexOid = index.indexOid ∧ key.nullsNotDistinct = index.nullsNotDistinct ∧
      key.readOnly = false ∧ key.source = if index.primary then .primary else .unique := by
  unfold IndexRow.key at h
  split at h
  · cases h
  rename_i husable
  split at h
  · cases h
  rename_i attributes hattributes
  split at h
  · cases h
  rename_i hnull
  cases h
  refine ⟨not_not.mp husable, hattributes, fun hdistinct => ?_, rfl, rfl, rfl, rfl⟩
  simpa [hdistinct] using hnull

/-- A key that is offered has a rank, and can be written through. -/
theorem rank_pos_of_mem {columns : List CatalogColumn} {rows : List (List (Option (List UInt8)))}
    {key : KeyMetadata} (h : key ∈ offeredKeys columns rows) :
    0 < key.rank ∧ key.readOnly = false ∧ key.source ≠ .none := by
  obtain ⟨row, -, index, -, hkey⟩ := mem_offeredKeys.mp h
  obtain ⟨-, -, -, -, -, hreadOnly, hsource⟩ := IndexRow.key_eq_some hkey
  unfold KeyMetadata.rank
  split at hsource <;> simp [hsource, hreadOnly]

/-- The loop over the indexes keeps the best of the keys they offer. -/
theorem foldlM_keyDiscoverRow {columns : List CatalogColumn}
    {rows : List (List (Option (List UInt8)))} {best key : KeyMetadata} :
    rows.foldlM (keyDiscoverRow columns) best = .ok key ↔
      (∀ row ∈ rows, (indexOfRow row).isSome) ∧
        key = (offeredKeys columns rows).foldl (better KeyMetadata.Beats) best := by
  induction rows generalizing best with
  | nil =>
    simp only [List.foldlM_nil, offeredKeys, List.filterMap_nil, List.foldl_nil]
    constructor
    · intro h
      cases h
      exact ⟨by simp, rfl⟩
    · rintro ⟨-, rfl⟩
      rfl
  | cons row rows ih =>
    rw [List.foldlM_cons, List.forall_mem_cons]
    cases hindex : indexOfRow row with
    | none =>
      have hround : keyDiscoverRow columns best row = .error .invalidResult := by
        unfold keyDiscoverRow
        rw [hindex]
      rw [hround]
      simp [bind, Except.bind]
    | some index =>
      cases hoffer : index.key columns with
      | none =>
        have hkeys : offeredKeys columns (row :: rows) = offeredKeys columns rows := by
          simp [offeredKeys, hindex, hoffer]
        have hround : keyDiscoverRow columns best row = .ok best := by
          unfold keyDiscoverRow
          simp only [hindex, hoffer]
        rw [hkeys, hround, ok_bind, ih]
        simp
      | some offered =>
        have hkeys : offeredKeys columns (row :: rows) = offered :: offeredKeys columns rows := by
          simp [offeredKeys, hindex, hoffer]
        have hround :
          keyDiscoverRow columns best row = .ok (better KeyMetadata.Beats best offered) := by
          unfold keyDiscoverRow
          simp only [hindex, hoffer, keyBetter_eq]
        rw [hkeys, hround, ok_bind, ih, List.foldl_cons]
        simp

theorem keyDiscover_eq_ok_iff {indexRows : MetadataRowSet} {columns : List CatalogColumn}
    {key : KeyMetadata} :
    keyDiscover indexRows columns [] false = .ok key ↔
      indexRows.fieldCount = 16 ∧ (∀ row ∈ indexRows.rows, (indexOfRow row).isSome) ∧
        key = (offeredKeys columns indexRows.rows).foldl (better KeyMetadata.Beats) keyNone := by
  unfold keyDiscover
  by_cases hwidth : indexRows.fieldCount = 16
  · rw [if_neg (by simp [hwidth]), bind_eq_ok_iff]
    simp only [ne_eq, not_true_eq_false, false_and, and_false, if_false, Except.ok.injEq,
      exists_eq_right, foldlM_keyDiscoverRow, hwidth, true_and]
  · rw [if_pos (Or.inl hwidth)]
    simp [hwidth]

/-- Any key that is offered beats none. -/
theorem not_keyNone_beats {columns : List CatalogColumn} {rows : List (List (Option (List UInt8)))}
    {key : KeyMetadata} (h : key ∈ offeredKeys columns rows) :
    ¬keyNone.Beats key ∧ key.Beats keyNone := by
  have hrank := (rank_pos_of_mem h).1
  have hnone : keyNone.rank = 0 := rfl
  unfold KeyMetadata.Beats
  omega

/-- The key that the loop leaves. -/
theorem foldl_offeredKeys (columns : List CatalogColumn)
    (rows : List (List (Option (List UInt8)))) :
    ((offeredKeys columns rows).foldl (better KeyMetadata.Beats) keyNone = keyNone ∧
        offeredKeys columns rows = []) ∨
      PreferredKey columns rows
        ((offeredKeys columns rows).foldl (better KeyMetadata.Beats) keyNone) := by
  obtain ⟨hmem, hbest⟩ := foldl_better KeyMetadata.not_beats_self
    (fun _ _ => KeyMetadata.Beats.asymm) (fun _ _ _ => KeyMetadata.not_beats_trans)
    (offeredKeys columns rows) keyNone
  obtain hnone | hmem := List.mem_cons.1 hmem
  · refine .inl ⟨hnone, List.eq_nil_iff_forall_not_mem.2 fun key hkey => ?_⟩
    have := hbest key (List.mem_cons_of_mem _ hkey)
    rw [hnone] at this
    exact this (not_keyNone_beats hkey).2
  · exact .inr ⟨hmem, fun other hother => hbest other (List.mem_cons_of_mem _ hother)⟩

/-- **The order of the rows does not matter** for the key that is preferred. -/
theorem PreferredKey.perm {columns : List CatalogColumn}
    {rows rows' : List (List (Option (List UInt8)))} {key : KeyMetadata}
    (h : PreferredKey columns rows' key) (hperm : rows'.Perm rows) :
    PreferredKey columns rows key := by
  have hkeys : ∀ key, key ∈ offeredKeys columns rows' ↔ key ∈ offeredKeys columns rows :=
    fun _ => (hperm.filterMap _).mem_iff
  exact ⟨(hkeys key).1 h.1, fun other hother => h.2 other ((hkeys other).2 hother)⟩

/-- A preferred key is chosen when its index comes last. -/
theorem foldl_offeredKeys_last {columns : List CatalogColumn}
    {rows : List (List (Option (List UInt8)))} {row : List (Option (List UInt8))} {index : IndexRow}
    {key : KeyMetadata} (hindex : indexOfRow row = some index) (hkey : index.key columns = some key)
    (hbest : ∀ other ∈ offeredKeys columns rows, ¬other.Beats key) :
    (offeredKeys columns (rows ++ [row])).foldl (better KeyMetadata.Beats) keyNone = key := by
  have hkeys : offeredKeys columns (rows ++ [row]) = offeredKeys columns rows ++ [key] := by
    simp [offeredKeys, hindex, hkey]
  have hmem : key ∈ offeredKeys columns (rows ++ [row]) := by simp [hkeys]
  obtain ⟨hlast, -⟩ := foldl_better KeyMetadata.not_beats_self
    (fun _ _ => KeyMetadata.Beats.asymm) (fun _ _ _ => KeyMetadata.not_beats_trans)
    (offeredKeys columns rows) keyNone
  have hnot : ¬((offeredKeys columns rows).foldl (better KeyMetadata.Beats) keyNone).Beats key := by
    obtain hnone | hlast := List.mem_cons.1 hlast
    · rw [hnone]
      exact (not_keyNone_beats hmem).1
    · exact hbest _ hlast
  rw [hkeys, List.foldl_append, List.foldl_cons, List.foldl_nil, better, if_neg hnot]

/-- **The order of the indexes does not matter** unless two different keys are preferred. -/
theorem keyDiscover_perm_iff {indexRows : MetadataRowSet} {columns : List CatalogColumn}
    {key : KeyMetadata} (h : keyDiscover indexRows columns [] false = .ok key) :
    (∀ rows' : MetadataRowSet, rows'.fieldCount = indexRows.fieldCount →
        rows'.rows.Perm indexRows.rows → keyDiscover rows' columns [] false = .ok key) ↔
      ∀ k k', PreferredKey columns indexRows.rows k → PreferredKey columns indexRows.rows k' →
        k = k' := by
  obtain ⟨hwidth, hparse, hkey⟩ := keyDiscover_eq_ok_iff.mp h
  constructor
  · intro horder
    have hchosen : ∀ k, PreferredKey columns indexRows.rows k → k = key := by
      intro k hk
      obtain ⟨row, hrow, index, hindex, hoffer⟩ := mem_offeredKeys.mp hk.1
      obtain ⟨before, after, hsplit⟩ := List.append_of_mem hrow
      have hperm : (before ++ after ++ [row]).Perm indexRows.rows := by
        rw [hsplit]
        exact List.perm_append_singleton _ _ |>.trans List.perm_middle.symm
      have hrow' := horder ⟨indexRows.fieldCount, before ++ after ++ [row],
        fun r hr => indexRows.width r (hperm.mem_iff.1 hr)⟩ rfl hperm
      obtain ⟨-, -, hlast⟩ := keyDiscover_eq_ok_iff.mp hrow'
      have hbest : ∀ other ∈ offeredKeys columns (before ++ after), ¬other.Beats k := by
        intro other hother
        refine hk.2 other ?_
        rw [hsplit]
        simp only [offeredKeys, List.filterMap_append, List.filterMap_cons,
          List.mem_append] at hother ⊢
        obtain hother | hother := hother
        · exact .inl hother
        · right
          split
          · exact hother
          · exact List.mem_cons_of_mem _ hother
      exact (foldl_offeredKeys_last hindex hoffer hbest).symm.trans hlast.symm
    intro k k' hk hk'
    rw [hchosen k hk, hchosen k' hk']
  · intro hsame rows' hwidth' hperm
    refine keyDiscover_eq_ok_iff.mpr
      ⟨hwidth'.trans hwidth, fun row hrow => hparse row (hperm.mem_iff.1 hrow), ?_⟩
    have hkeys : (offeredKeys columns rows'.rows).Perm (offeredKeys columns indexRows.rows) :=
      hperm.filterMap _
    obtain ⟨hnone, hempty⟩ | hpreferred := foldl_offeredKeys columns indexRows.rows
    · rw [hempty] at hkeys hkey
      rw [hkeys.eq_nil, hkey]
    obtain ⟨-, hempty⟩ | hpreferred' := foldl_offeredKeys columns rows'.rows
    · rw [hempty] at hkeys
      rw [← hkeys.nil_eq] at hkey
      rw [hempty, hkey]
    · rw [hkey]
      exact hsame _ _ hpreferred (hpreferred'.perm hperm)

/-! ## Relations that may be written -/

/-- The letter of the kind, in the row of the first query. -/
def relkindOf (relationRows : MetadataRowSet) : UInt8 :=
  ((relationRows.rows.head?.bind fun row => metadataCell row 2).getD []).headD 0

/-- The letter that decides the kind of a relation. -/
theorem kind_of_relationOfRow {row : List (Option (List UInt8))} {relation : RelationMetadata}
    (h : relationOfRow row = some relation) :
    ∃ relkind, metadataCell row 2 = some [relkind] ∧
      relation.kind =
        relationKindFromCatalog relkind relation.isPartition relation.hasChildren := by
  -- the cells before the kind, the kind, and the cells behind it
  iterate 4 obtain ⟨_, -, h⟩ := Option.bind_eq_some_iff.mp h
  obtain ⟨cell, hcell, h⟩ := Option.bind_eq_some_iff.mp h
  obtain ⟨relkind, hletter, h⟩ := Option.bind_eq_some_iff.mp h
  iterate 14 obtain ⟨_, -, h⟩ := Option.bind_eq_some_iff.mp h
  cases h
  refine ⟨relkind, ?_, rfl⟩
  unfold metadataLetter metadataChar at hletter
  split at hletter
  · simp at hletter
  · cases hletter
    exact hcell
  · cases hletter

/-- What the relation was resolved from. -/
theorem relationMetadataResolve_eq_ok {relationRows : MetadataRowSet} {schema name : List UInt8}
    {relation : RelationMetadata}
    (h : relationMetadataResolve relationRows schema name = .ok relation) :
    relation.kind =
        relationKindFromCatalog (relkindOf relationRows) relation.isPartition relation.hasChildren ∧
      relation.kind.access = some (relation.readable, relation.writableCandidate) := by
  unfold relationMetadataResolve at h
  split at h
  · cases h
  split at h
  · cases h
  split at h
  · cases h
  · rename_i row hrows
    split at h
    · cases h
    split at h
    · cases h
    rename_i resolved hresolved
    split at h
    · cases h
    rename_i readable writableCandidate haccess
    cases h
    obtain ⟨relkind, hcell, hkind⟩ := kind_of_relationOfRow hresolved
    have hletter : relkindOf relationRows = relkind := by simp [relkindOf, hrows, hcell]
    exact ⟨hletter ▸ hkind, haccess⟩
  · cases h

/-- The relation is of a kind that is written with the key: a partition, a table without children,
or a partitioned table whose partition key is in the key. -/
def WritesWith (relkind : UInt8) (relation : RelationMetadata) (partitionAttributes : List ℤ)
    (key : KeyMetadata) : Prop :=
  relation.isPartition = true ∨ (relkind = 114 ∧ relation.hasChildren = false) ∨
    (relkind = 112 ∧ partitionAttributes ≠ [] ∧
      ∀ number ∈ partitionAttributes, number ∈ key.attributeNumbers)

theorem relationKindFromCatalog_eq_iff (relkind : UInt8) (isPartition hasChildren : Bool) :
    (relationKindFromCatalog relkind isPartition hasChildren = .partition ↔ isPartition = true) ∧
      (relationKindFromCatalog relkind isPartition hasChildren = .table ↔
        isPartition = false ∧ relkind = 114 ∧ hasChildren = false) ∧
      (relationKindFromCatalog relkind isPartition hasChildren = .partitionedTable ↔
        isPartition = false ∧ relkind = 112) := by
  unfold relationKindFromCatalog
  cases isPartition with
  | true => simp
  | false =>
    simp only [Bool.false_eq_true, if_false, true_and]
    split <;> simp_all
    cases hasChildren <;> simp

/-- The kinds that may be written. -/
theorem writePolicyOf_eq_allowed {relation : RelationMetadata} {key : KeyMetadata}
    {partitionAttributes : List ℤ}
    (haccess : relation.kind.access = some (relation.readable, relation.writableCandidate)) :
    writePolicyOf relation key partitionAttributes = .allowed ↔
      (key.readOnly = false ∧ key.source ≠ .none) ∧
        (relation.kind = .partition ∨ relation.kind = .table ∨
          (relation.kind = .partitionedTable ∧ partitionAttributes ≠ [] ∧
            ∀ number ∈ partitionAttributes, number ∈ key.attributeNumbers)) := by
  unfold writePolicyOf
  by_cases hkey : key.readOnly = true ∨ key.source = .none
  · rw [if_pos hkey]
    constructor
    · intro h
      cases h
    · rintro ⟨⟨hreadOnly, hsource⟩, -⟩
      simp [hreadOnly, hsource] at hkey
  rw [if_neg hkey]
  rw [not_or, Bool.not_eq_true] at hkey
  rw [and_iff_right hkey]
  cases hk : relation.kind <;> rw [hk] at haccess <;> simp [RelationKind.access] at haccess
  all_goals simp [← haccess.2]

/-- **When a relation may be written.** -/
theorem writePolicyOf_eq_allowed_iff {relkind : UInt8} {relation : RelationMetadata}
    {key : KeyMetadata} {partitionAttributes : List ℤ}
    (hkind : relation.kind =
      relationKindFromCatalog relkind relation.isPartition relation.hasChildren)
    (haccess : relation.kind.access = some (relation.readable, relation.writableCandidate)) :
    writePolicyOf relation key partitionAttributes = .allowed ↔
      (key.readOnly = false ∧ key.source ≠ .none) ∧
        WritesWith relkind relation partitionAttributes key := by
  obtain ⟨hpartition, htable, hpartitioned⟩ :=
    relationKindFromCatalog_eq_iff relkind relation.isPartition relation.hasChildren
  rw [writePolicyOf_eq_allowed haccess, hkind, hpartition, htable, hpartitioned, WritesWith]
  cases relation.isPartition <;> simp

/-- **What may be expected of a relation that may be written.** -/
structure WritesSoundly (relkind : UInt8) (relation : RelationMetadata)
    (columns : List CatalogColumn) (indexRows : MetadataRowSet) (key : KeyMetadata)
    (partitionAttributes : List ℤ) : Prop where
  kind : relkind = 114 ∨ relkind = 112
  childless : relkind = 114 → relation.isPartition = false → relation.hasChildren = false
  index : ∃ row ∈ indexRows.rows, ∃ index, indexOfRow row = some index ∧ index.Usable ∧
    index.indexOid = key.indexOid ∧
    keyAttributeList index.attributes index.keyCount = some key.attributeNumbers ∧
    ∀ number ∈ key.attributeNumbers, ∃ column ∈ columns, column.attributeNumber = number ∧
      column.dropped = false ∧
      (index.nullsNotDistinct = false → column.notNull = true ∨ column.domainNotNull = true)
  partition : relkind = 112 → ∀ number ∈ partitionAttributes, number ∈ key.attributeNumbers

/-- **The choice of the key**: the order of the rows does not matter, a primary key wins, and the
smaller index wins among the others. -/
structure ChosenKey (columns : List CatalogColumn) (indexRows : MetadataRowSet)
    (key : KeyMetadata) :
    Prop where
  order : ∀ rows' : MetadataRowSet, rows'.fieldCount = indexRows.fieldCount →
    rows'.rows.Perm indexRows.rows → keyDiscover rows' columns [] false = .ok key
  best : ∀ other ∈ offeredKeys columns indexRows.rows,
    other.rank < key.rank ∨ (other.rank = key.rank ∧ key.indexOid ≤ other.indexOid)

/-- **What the catalog must spare**: two preferred keys that differ; a partition with a preferred
key that is no table, or one that is partitioned by what is not in the key; and a preferred key of a
relation that is written, with a column that is missing or dropped. -/
structure ClearCatalog (relkind : UInt8) (relation : RelationMetadata)
    (columns : List CatalogColumn) (indexRows : MetadataRowSet) (partitionAttributes : List ℤ) :
    Prop where
  single : ∀ k k', PreferredKey columns indexRows.rows k → PreferredKey columns indexRows.rows k' →
    k = k'
  partition : relation.isPartition = true → ∀ k, PreferredKey columns indexRows.rows k →
    relkind = 114 ∨ (relkind = 112 ∧ ∀ number ∈ partitionAttributes, number ∈ k.attributeNumbers)
  columns : ∀ k, PreferredKey columns indexRows.rows k →
    WritesWith relkind relation partitionAttributes k → ∀ number ∈ k.attributeNumbers,
      ∃ column ∈ columns, column.attributeNumber = number ∧ column.dropped = false

/-- The columns of a usable key are there, and never NULL. -/
theorem columns_of_keyAllNotNull {columns : List CatalogColumn} {numbers : List ℤ}
    (h : keyAllNotNull columns numbers = true) :
    ∀ number ∈ numbers, ∃ column ∈ columns, column.attributeNumber = number ∧
      column.dropped = false ∧ (column.notNull = true ∨ column.domainNotNull = true) := by
  induction numbers with
  | nil => simp
  | cons number numbers ih =>
    unfold keyAllNotNull at h
    split at h
    · cases h
    rename_i column hfind
    split at h
    · cases h
    rename_i hdropped
    rw [Bool.and_eq_true, Bool.or_eq_true] at h
    intro n hn
    obtain rfl | hn := List.mem_cons.1 hn
    · have hnumber := List.find?_some hfind
      exact ⟨column,
        List.mem_of_find?_eq_some hfind, by simpa using hnumber, by simpa using hdropped, h.1⟩
    · exact ih h.2 n hn

/-- A policy that is built is the one of the relation and its key. -/
theorem relationPolicyBuild_eq_ok {relation : RelationMetadata} {key : KeyMetadata}
    {policyRows : MetadataRowSet} {policy : RelationPolicyMetadata}
    (h : relationPolicyBuild relation key policyRows = .ok policy) :
    policy.writePolicy = writePolicyOf relation key policy.partitionAttributeNumbers := by
  unfold relationPolicyBuild at h
  split at h
  · cases h
  obtain ⟨read, -, h⟩ := ok_of_bind h
  cases h
  rfl

/-- **Permission to write.**  A catalog on which the four steps succeed is read soundly, whatever
the order of its indexes, exactly when it is a clear one. -/
theorem writes_soundly_iff {relationRows columnRows indexRows policyRows : MetadataRowSet}
    {schema name : List UInt8} {relation : RelationMetadata} {columns : List CatalogColumn}
    {key : KeyMetadata} {policy : RelationPolicyMetadata}
    (hrelation : relationMetadataResolve relationRows schema name = .ok relation)
    (_hcolumns : columnSetBuild columnRows = .ok columns)
    (hkey : keyDiscover indexRows columns [] false = .ok key)
    (hpolicy : relationPolicyBuild relation key policyRows = .ok policy) :
    ((policy.writePolicy = .allowed →
          WritesSoundly (relkindOf relationRows) relation columns indexRows key
            policy.partitionAttributeNumbers) ∧
        ChosenKey columns indexRows key) ↔
      ClearCatalog (relkindOf relationRows) relation columns indexRows
        policy.partitionAttributeNumbers := by
  obtain ⟨hkind, haccess⟩ := relationMetadataResolve_eq_ok hrelation
  have hallowed : policy.writePolicy = .allowed ↔ (key.readOnly = false ∧ key.source ≠ .none) ∧
      WritesWith (relkindOf relationRows) relation policy.partitionAttributeNumbers key := by
    rw [relationPolicyBuild_eq_ok hpolicy]
    exact writePolicyOf_eq_allowed_iff hkind haccess
  have hleft := foldl_offeredKeys columns indexRows.rows
  rw [← (keyDiscover_eq_ok_iff.mp hkey).2.2] at hleft
  constructor
  · rintro ⟨hsound, hchosen⟩
    have hsingle := (keyDiscover_perm_iff hkey).mp hchosen.order
    have hpreferred : ∀ k, PreferredKey columns indexRows.rows k →
        k = key ∧ key.readOnly = false ∧ key.source ≠ .none := by
      intro k hk
      obtain ⟨-, hempty⟩ | hleft := hleft
      · have := hk.1
        simp [hempty] at this
      · exact ⟨hsingle k key hk hleft, (rank_pos_of_mem hleft.1).2⟩
    refine ⟨hsingle, fun hpartition k hk => ?_, fun k hk hwrites number hnumber => ?_⟩
    · obtain ⟨rfl, hfound⟩ := hpreferred k hk
      have hsound := hsound (hallowed.mpr ⟨hfound, .inl hpartition⟩)
      exact hsound.kind.imp_right fun hkind => ⟨hkind, hsound.partition hkind⟩
    · obtain ⟨rfl, hfound⟩ := hpreferred k hk
      obtain ⟨row, -, index, -, -, -, -, hall⟩ := (hsound (hallowed.mpr ⟨hfound, hwrites⟩)).index
      obtain ⟨column, hcolumn, hnumber, hdropped, -⟩ := hall number hnumber
      exact ⟨column, hcolumn, hnumber, hdropped⟩
  · intro hclear
    refine ⟨fun hpolicy => ?_, (keyDiscover_perm_iff hkey).mpr hclear.single, ?_⟩
    · obtain ⟨⟨hreadOnly, hsource⟩, hwrites⟩ := hallowed.mp hpolicy
      obtain ⟨rfl, -⟩ | hpreferred := hleft
      · exact absurd rfl hsource
      obtain ⟨row, hrow, index, hindex, hoffer⟩ := mem_offeredKeys.mp hpreferred.1
      obtain ⟨husable, hattributes, hnull, hoid, -⟩ := IndexRow.key_eq_some hoffer
      have hclearColumns := hclear.columns key hpreferred hwrites
      refine ⟨?_, ?_, ⟨row, hrow, index, hindex, husable, hoid.symm, hattributes, ?_⟩, ?_⟩
      · obtain hpartition | ⟨htable, -⟩ | ⟨hpartitioned, -⟩ := hwrites
        · exact (hclear.partition hpartition key hpreferred).imp_right And.left
        · exact .inl htable
        · exact .inr hpartitioned
      · intro htable hnot
        obtain hpartition | ⟨-, hchildless⟩ | ⟨hpartitioned, -⟩ := hwrites
        · simp [hnot] at hpartition
        · exact hchildless
        · simp [htable] at hpartitioned
      · intro number hnumber
        cases hdistinct : index.nullsNotDistinct with
        | true =>
          obtain ⟨column, hcolumn, hcolumnNumber, hdropped⟩ := hclearColumns number hnumber
          exact ⟨column, hcolumn, hcolumnNumber, hdropped, by simp⟩
        | false =>
          obtain ⟨column, hcolumn, hcolumnNumber, hdropped, hcolumnNull⟩ :=
            columns_of_keyAllNotNull (hnull hdistinct) number hnumber
          exact ⟨column, hcolumn, hcolumnNumber, hdropped, fun _ => hcolumnNull⟩
      · intro hpartitioned number hnumber
        obtain hpartition | ⟨htable, -⟩ | ⟨-, -, hall⟩ := hwrites
        · obtain htable | ⟨-, hall⟩ := hclear.partition hpartition key hpreferred
          · simp [htable] at hpartitioned
          · exact hall number hnumber
        · simp [htable] at hpartitioned
        · exact hall number hnumber
    · intro other hother
      obtain ⟨-, hempty⟩ | hpreferred := hleft
      · simp [hempty] at hother
      have hbeats := hpreferred.2 other hother
      unfold KeyMetadata.Beats at hbeats
      simp only [UInt32.lt_iff_toNat_lt, UInt32.le_iff_toNat_le] at hbeats ⊢
      omega

/-- The row of a table `public.t`. -/
def sampleRelationRows : MetadataRowSet where
  fieldCount := 12
  rows := [
    [some (ascii "2200"), some (ascii "16384"), some (ascii "r"), some (ascii "p"),
      some (ascii "f"), some (ascii "f"), some (ascii "f"), some (ascii "f"), some (ascii "f"),
      some (ascii "public"), some (ascii "t"), some (ascii "2")]]
  width := by decide

/-- The row of its only column, which is not null. -/
def sampleColumnRows : MetadataRowSet where
  fieldCount := 39
  rows := [
    [some (ascii "1"), some (ascii "id"), some (ascii "23"), some (ascii "-1"),
      some (ascii "11"), some (ascii "pg_catalog"), some (ascii "int4"), some (ascii "N"),
      some (ascii "b"), some (ascii "0"), some (ascii "-1"), some (ascii "0"), some (ascii "t"),
      some (ascii "f"), some (ascii "f"), some (ascii ""), some (ascii ""), some (ascii "0"),
      none, none, none, some (ascii "p"), some (ascii ""), some (ascii "-1"), some (ascii "f"),
      some (ascii "16384"), some (ascii "1"), some (ascii "f"), none, none, none, none, none,
      none, some (ascii ""), some (ascii "f"), none, none, some (ascii "integer")]]
  width := by decide

/-- A unique index on one column. -/
def sampleIndexRows (nullsNotDistinct attributes : List UInt8) : MetadataRowSet where
  fieldCount := 16
  rows := [
    [some (ascii "16390"), some (ascii "f"), some (ascii "t"), some (ascii "t"),
      some (ascii "t"), some (ascii "t"), some (ascii "f"), some (ascii "f"), some nullsNotDistinct,
      some (ascii "1"), some (ascii "1"), some attributes, none, none, some (ascii "btree"),
      some (ascii "t_key")]]
  width := by simp

/-- The row of its policy. -/
def samplePolicyRows : MetadataRowSet where
  fieldCount := 10
  rows := [
    [some (ascii "16384"), some (ascii "r"), some (ascii "f"), some (ascii "f"),
      some (ascii "f"), none, none, none, none, some (ascii "f")]]
  width := by decide

/-- The relation that the rows are. -/
def sampleRelation : RelationMetadata where
  schemaName := ascii "public"
  relationName := ascii "t"
  namespaceOid := 2200
  relationOid := 16384
  accessMethodOid := 2
  kind := .table
  persistence := 112
  isPartition := false
  hasChildren := false
  hasParent := false
  rowSecurity := false
  forceRowSecurity := false
  readable := true
  writableCandidate := true

/-- The column that the row is. -/
def sampleColumn : CatalogColumn where
  attributeNumber := 1
  typeOid := 23
  domainBaseOid := 0
  name := some (ascii "id")
  typeNamespace := some (ascii "pg_catalog")
  typeName := some (ascii "int4")
  domainBaseNamespace := none
  domainBaseName := none
  typeCategory := 78
  typeKind := 98
  domainBaseKind := 0
  generatedKind := 0
  identityKind := 0
  notNull := true
  dropped := false
  typeModifier := -1
  typeNamespaceOid := 11
  domainBaseModifier := -1
  arrayElementOid := 0
  collationOid := 0
  originRelationOid := 16384
  originAttributeNumber := 1
  statisticsTarget := -1
  collationName := none
  defaultExpressionHash := none
  domainDefaultHash := none
  domainConstraintHash := none
  formattedType := some (ascii "integer")
  domainBaseCategory := 0
  storageKind := 112
  compressionKind := 0
  collationProvider := 0
  defaultKind := 0
  hasDefault := false
  domainNotNull := false
  domainHasDefault := false
  collationDeterministic := true
  hasComment := false

/-- The policy of a table with a key. -/
def samplePolicy : RelationPolicyMetadata := ⟨[], [], 0, false, false, false, .allowed⟩

theorem writes_soundly_sample :
    WritesSoundly 114 sampleRelation [sampleColumn] (sampleIndexRows (ascii "f") (ascii "1"))
        ⟨.unique, 16390, [1], false, false⟩ [] ∧
      ChosenKey [sampleColumn] (sampleIndexRows (ascii "f") (ascii "1"))
        ⟨.unique, 16390, [1], false, false⟩ := by
  have hoffered : offeredKeys [sampleColumn] (sampleIndexRows (ascii "f") (ascii "1")).rows =
      [⟨.unique, 16390, [1], false, false⟩] := by decide
  have hpreferred :
    ∀ k, PreferredKey [sampleColumn] (sampleIndexRows (ascii "f") (ascii "1")).rows k →
      k = ⟨.unique, 16390, [1], false, false⟩ := by
    intro k hk
    have := hk.1
    rwa [hoffered, List.mem_singleton] at this
  have hclear : ClearCatalog (relkindOf sampleRelationRows) sampleRelation [sampleColumn]
      (sampleIndexRows (ascii "f") (ascii "1")) [] :=
    { single := fun k k' hk hk' => (hpreferred k hk).trans (hpreferred k' hk').symm
      partition := fun hpartition => absurd hpartition (by decide)
      columns := by
        intro k hk _ number hnumber
        rw [hpreferred k hk, List.mem_singleton] at hnumber
        exact ⟨sampleColumn, List.mem_singleton_self _, hnumber ▸ rfl, rfl⟩ }
  have hrelation : relationMetadataResolve sampleRelationRows (ascii "public") (ascii "t") =
      .ok sampleRelation := by decide
  have hcolumns : columnSetBuild sampleColumnRows = .ok [sampleColumn] := by decide
  have hkey : keyDiscover (sampleIndexRows (ascii "f") (ascii "1")) [sampleColumn] [] false =
      .ok ⟨.unique, 16390, [1], false, false⟩ := by decide
  have hpolicy : relationPolicyBuild sampleRelation ⟨.unique, 16390, [1], false, false⟩
      samplePolicyRows = .ok samplePolicy := by decide
  obtain ⟨hsound, hchosen⟩ := (writes_soundly_iff hrelation hcolumns hkey hpolicy).mpr hclear
  exact ⟨hsound rfl, hchosen⟩

/-- A unique index whose nulls are not distinct, on a column that the second query did not find. -/
theorem writes_unsoundly :
    relationMetadataResolve sampleRelationRows (ascii "public") (ascii "t") = .ok sampleRelation ∧
      columnSetBuild sampleColumnRows = .ok [sampleColumn] ∧
      keyDiscover (sampleIndexRows (ascii "t") (ascii "2")) [sampleColumn] [] false =
        .ok ⟨.unique, 16390, [2], true, false⟩ ∧
      relationPolicyBuild sampleRelation ⟨.unique, 16390, [2], true, false⟩ samplePolicyRows =
        .ok samplePolicy ∧
      samplePolicy.writePolicy = .allowed ∧
      ¬WritesSoundly (relkindOf sampleRelationRows) sampleRelation [sampleColumn]
        (sampleIndexRows (ascii "t") (ascii "2")) ⟨.unique, 16390, [2], true, false⟩
        samplePolicy.partitionAttributeNumbers := by
  refine ⟨by decide, by decide, by decide, by decide, rfl, fun hsound => ?_⟩
  obtain ⟨row, -, index, -, -, -, -, hall⟩ := hsound.index
  obtain ⟨column, hcolumn, hnumber, -⟩ := hall 2 (List.mem_singleton_self _)
  rw [List.mem_singleton.1 hcolumn] at hnumber
  cases hnumber

end Vps
