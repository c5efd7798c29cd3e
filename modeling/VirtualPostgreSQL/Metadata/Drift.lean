import VirtualPostgreSQL.Metadata.Permission
import VirtualPostgreSQL.Metadata.Width

/-!
# Metadata/Drift — what the fingerprints of a snapshot tell apart

A snapshot has one fingerprint of the relation and one of each column, hashes of byte streams that
the attributes are written to one behind the other.  The flags have a fixed width; the parents and
the partition attributes follow each other without a count, and the four texts of a column without a
length or a mark of absence.  `drift_told_apart_iff` says when equal streams mean equal attributes.
-/

namespace Vps

open Machinery

/-! ## The streams -/

/-- The bytes of `relation_policy_fingerprint`. -/
def relationStream (table : ModuleTable) : List UInt8 :=
  (table.metadata.map relationPolicyBytes).getD []

/-- The bytes of the `policy_fingerprint` of a described field. -/
def fieldStream (table : ModuleTable) (field : DescribeField) : List UInt8 :=
  ((catalogColumnOf table.metadata field).map columnPolicyBytes).getD []

/-- The fingerprint of a relation is the hash of its stream. -/
theorem relationPolicyFingerprint_snapshotHead (nowMs : UInt64) (table : ModuleTable) :
    (snapshotHead nowMs table).relationPolicyFingerprint = cacheHash (relationStream table) := rfl

/-- So are the fingerprints of its fields. -/
theorem policyFingerprint_snapshotFields (table : ModuleTable) :
    (snapshotFields table).map (·.policyFingerprint) =
      table.described.map fun field => cacheHash (fieldStream table field) := by
  have hfields : (table.described.zipIdx.map Prod.fst).map (fun field =>
      cacheHash (fieldStream table field)) =
        table.described.map fun field => cacheHash (fieldStream table field) := by
    rw [List.zipIdx_map_fst]
  rw [← hfields, snapshotFields, List.map_map, List.map_map]
  rfl

/-! ## The attributes -/

/-- What the fingerprint of a relation is made of. -/
structure RelationAttributes where
  kind : RelationKind
  persistence : UInt8
  isPartition : Bool
  rowSecurity : Bool
  forceRowSecurity : Bool
  writePolicy : RelationWritePolicy
  parentOids : List UInt32
  partitionAttributeNumbers : List ℤ

/-- The attributes of a relation. -/
def SourceMetadata.relationAttributes (metadata : SourceMetadata) : RelationAttributes where
  kind := metadata.relation.kind
  persistence := metadata.relation.persistence
  isPartition := metadata.relation.isPartition
  rowSecurity := metadata.relation.rowSecurity
  forceRowSecurity := metadata.relation.forceRowSecurity
  writePolicy := metadata.policy.writePolicy
  parentOids := metadata.policy.parentOids
  partitionAttributeNumbers := metadata.policy.partitionAttributeNumbers

/-- What the fingerprint of a column is made of: its flags, and its texts, each of them there or
not. -/
structure ColumnAttributes where
  notNull : Bool
  hasDefault : Bool
  generatedKind : UInt8
  identityKind : UInt8
  storageKind : UInt8
  compressionKind : UInt8
  domainNotNull : Bool
  texts : List (Option (List UInt8))

/-- The texts of a column. -/
def CatalogColumn.driftTexts (column : CatalogColumn) : List (Option (List UInt8)) :=
  [column.defaultExpressionHash, column.domainDefaultHash, column.domainConstraintHash,
    column.formattedType]

/-- The attributes of a column. -/
def CatalogColumn.attributes (column : CatalogColumn) : ColumnAttributes where
  notNull := column.notNull
  hasDefault := column.hasDefault
  generatedKind := column.generatedKind
  identityKind := column.identityKind
  storageKind := column.storageKind
  compressionKind := column.compressionKind
  domainNotNull := column.domainNotNull
  texts := column.driftTexts

/-- The attribute numbers are 32-bit numbers. -/
def ModuleTable.Narrow (table : ModuleTable) : Prop :=
  ∀ metadata ∈ table.metadata, ∀ number ∈ metadata.policy.partitionAttributeNumbers,
    -2 ^ 31 ≤ number ∧ number < 2 ^ 31

/-- **The hashed attributes of two tables are equal one by one.** -/
def SameAttributes (table table' : ModuleTable) : Prop :=
  table.metadata.map (·.relationAttributes) = table'.metadata.map (·.relationAttributes) ∧
    table.described.map (fun field => (catalogColumnOf table.metadata field).map (·.attributes)) =
      table'.described.map fun field => (catalogColumnOf table'.metadata field).map (·.attributes)

/-- The parts of the streams are as long as each other: as many parents, and of every column the
same texts there, each of the same length. -/
def SameFraming (table table' : ModuleTable) : Prop :=
  table.metadata.map (·.policy.parentOids.length) =
      table'.metadata.map (·.policy.parentOids.length) ∧
    table.described.map (fun field =>
        (catalogColumnOf table.metadata field).map (·.driftTexts.map (·.map List.length))) =
      table'.described.map fun field =>
        (catalogColumnOf table'.metadata field).map (·.driftTexts.map (·.map List.length))

/-- The streams of two tables are equal. -/
structure SameStreams (table table' : ModuleTable) : Prop where
  relation : relationStream table = relationStream table'
  fields : table.described.map (fieldStream table) = table'.described.map (fieldStream table')

/-! ## Relations -/

theorem RelationKind.code_injective : Function.Injective RelationKind.code := by
  intro kind kind' h
  cases kind <;> cases kind' <;> first | rfl | cases h

theorem RelationWritePolicy.code_injective : Function.Injective RelationWritePolicy.code := by
  intro policy policy' h
  cases policy <;> cases policy' <;> first | rfl | cases h

theorem toNat_bool_inj {b b' : Bool} (h : b.toNat = b'.toNat) : b = b' := by
  cases b <;> cases b' <;> first | rfl | cases h

/-- A 32-bit number is read back from its bits. -/
theorem toUInt32_ofInt_inj {n m : ℤ} (hn : -2 ^ 31 ≤ n ∧ n < 2 ^ 31) (hm : -2 ^ 31 ≤ m ∧ m < 2 ^ 31)
    (h : (Int32.ofInt n).toUInt32.toNat = (Int32.ofInt m).toUInt32.toNat) : n = m := by
  have hsame : Int32.ofInt n = Int32.ofInt m :=
    congrArg UInt32.toInt32 (UInt32.toNat_inj.mp h)
  have := congrArg Int32.toInt hsame
  rwa [Int32.toInt_ofInt_of_le hn.1 hn.2, Int32.toInt_ofInt_of_le hm.1 hm.2] at this

/-- The flags of a relation, as they are written. -/
def SourceMetadata.flagWords (metadata : SourceMetadata) : List ℕ :=
  [metadata.relation.kind.code, metadata.relation.persistence.toNat,
    metadata.relation.isPartition.toNat, metadata.relation.rowSecurity.toNat,
    metadata.relation.forceRowSecurity.toNat, metadata.policy.writePolicy.code]

/-- The lists of a relation, as they are written. -/
def SourceMetadata.listWords (metadata : SourceMetadata) : List ℕ :=
  metadata.policy.parentOids.map (·.toNat) ++
    metadata.policy.partitionAttributeNumbers.map fun number => (Int32.ofInt number).toUInt32.toNat

/-- What is hashed of a relation is its flags and its lists, each word in eight bytes. -/
theorem relationPolicyBytes_eq (metadata : SourceMetadata) : relationPolicyBytes metadata =
    (metadata.flagWords ++ metadata.listWords).flatMap (leBytes 8) := by
  rw [relationPolicyBytes, SourceMetadata.listWords, ← List.append_assoc]
  rfl

theorem bool_toNat_lt (b : Bool) : b.toNat < 256 ^ 8 := by
  cases b <;> decide

theorem relationWords_lt (metadata : SourceMetadata) :
    ∀ n ∈ metadata.flagWords ++ metadata.listWords, n < 256 ^ 8 := by
  intro n hn
  have hkind : metadata.relation.kind.code < 256 ^ 8 := by
    cases metadata.relation.kind <;> decide
  have hpolicy : metadata.policy.writePolicy.code < 256 ^ 8 := by
    cases metadata.policy.writePolicy <;> decide
  have hbyte := metadata.relation.persistence.toNat_lt
  simp only [SourceMetadata.flagWords, SourceMetadata.listWords, List.mem_append, List.mem_cons,
    List.not_mem_nil, or_false, List.mem_map] at hn
  obtain (rfl | rfl | rfl | rfl | rfl | rfl) | ⟨oid, -, rfl⟩ | ⟨number, -, rfl⟩ := hn
  · exact hkind
  · omega
  · exact bool_toNat_lt _
  · exact bool_toNat_lt _
  · exact bool_toNat_lt _
  · exact hpolicy
  · have := oid.toNat_lt
    omega
  · have := (Int32.ofInt number).toUInt32.toNat_lt
    omega

/-- Relations with one stream have the same flags, and the same numbers in their lists. -/
theorem words_of_relationPolicyBytes {metadata metadata' : SourceMetadata}
    (h : relationPolicyBytes metadata = relationPolicyBytes metadata') :
    metadata.flagWords = metadata'.flagWords ∧ metadata.listWords = metadata'.listWords := by
  rw [relationPolicyBytes_eq, relationPolicyBytes_eq] at h
  exact List.append_inj (flatMap_leBytes_inj (by decide) (relationWords_lt metadata)
    (relationWords_lt metadata') h) rfl

/-- Attribute numbers in the range of an `int` are told apart. -/
theorem map_toUInt32_ofInt_inj {ns ms : List ℤ} (hns : ∀ n ∈ ns, -2 ^ 31 ≤ n ∧ n < 2 ^ 31)
    (hms : ∀ m ∈ ms, -2 ^ 31 ≤ m ∧ m < 2 ^ 31)
    (h : (ns.map fun n => (Int32.ofInt n).toUInt32.toNat) =
      ms.map fun m => (Int32.ofInt m).toUInt32.toNat) : ns = ms := by
  induction ns generalizing ms with
  | nil => exact (List.map_eq_nil_iff.mp h.symm).symm
  | cons n ns ih =>
    cases ms with
    | nil => cases h
    | cons m ms =>
      obtain ⟨hfirst, hrest⟩ := List.cons.inj h
      rw [toUInt32_ofInt_inj (hns n List.mem_cons_self) (hms m List.mem_cons_self) hfirst,
        ih (fun n hn => hns n (List.mem_cons_of_mem _ hn))
          (fun m hm => hms m (List.mem_cons_of_mem _ hm)) hrest]

/-- **Relations with one stream** have equal attributes exactly if they have as many parents. -/
theorem relationAttributes_eq_iff {metadata metadata' : SourceMetadata}
    (hnarrow : ∀ n ∈ metadata.policy.partitionAttributeNumbers, -2 ^ 31 ≤ n ∧ n < 2 ^ 31)
    (hnarrow' : ∀ n ∈ metadata'.policy.partitionAttributeNumbers, -2 ^ 31 ≤ n ∧ n < 2 ^ 31)
    (h : relationPolicyBytes metadata = relationPolicyBytes metadata') :
    metadata.relationAttributes = metadata'.relationAttributes ↔
      metadata.policy.parentOids.length = metadata'.policy.parentOids.length := by
  obtain ⟨hflags, hlists⟩ := words_of_relationPolicyBytes h
  constructor
  · intro hsame
    exact congrArg (·.parentOids.length) hsame
  · intro hlength
    obtain ⟨hparents, hnumbers⟩ := List.append_inj hlists
      (by rw [List.length_map, List.length_map, hlength])
    have hoids : metadata.policy.parentOids = metadata'.policy.parentOids :=
      List.map_injective_iff.mpr (fun _ _ => UInt32.toNat_inj.mp) hparents
    have hattributes := map_toUInt32_ofInt_inj hnarrow hnarrow' hnumbers
    simp only [SourceMetadata.flagWords, List.cons.injEq, and_true] at hflags
    obtain ⟨hkind, hpersistence, hpartition, hsecurity, hforce, hpolicy⟩ := hflags
    simp only [SourceMetadata.relationAttributes, RelationAttributes.mk.injEq]
    exact ⟨RelationKind.code_injective hkind, UInt8.toNat_inj.mp hpersistence,
      toNat_bool_inj hpartition, toNat_bool_inj hsecurity, toNat_bool_inj hforce,
      RelationWritePolicy.code_injective hpolicy, hoids, hattributes⟩

/-! ## Columns -/

/-- Texts with one concatenation are equal exactly if they are there and as long alike. -/
theorem texts_eq_iff {texts texts' : List (Option (List UInt8))}
    (h : texts.flatMap (·.getD []) = texts'.flatMap (·.getD [])) :
    texts = texts' ↔ texts.map (·.map List.length) = texts'.map (·.map List.length) := by
  refine ⟨fun hsame => by rw [hsame], fun hshape => ?_⟩
  induction texts generalizing texts' with
  | nil => exact (List.map_eq_nil_iff.mp hshape.symm).symm
  | cons text texts ih =>
    cases texts' with
    | nil => cases hshape
    | cons text' texts' =>
      obtain ⟨hfirst, hrest⟩ := List.cons.inj hshape
      have hlength : (text.getD []).length = (text'.getD []).length := by
        cases text <;> cases text' <;> simp_all
      rw [List.flatMap_cons, List.flatMap_cons] at h
      obtain ⟨hvalue, htail⟩ := List.append_inj h hlength
      have htext : text = text' := by
        cases text <;> cases text' <;> simp_all
      rw [htext, ih htail hrest]

/-- The flags of a column, as they are written. -/
def CatalogColumn.flagWords (column : CatalogColumn) : List ℕ :=
  [column.notNull.toNat, column.hasDefault.toNat, column.generatedKind.toNat,
    column.identityKind.toNat, column.storageKind.toNat, column.compressionKind.toNat,
    column.domainNotNull.toNat]

/-- What is hashed of a column is its flags, and then its texts without their lengths. -/
theorem columnPolicyBytes_eq (column : CatalogColumn) : columnPolicyBytes column =
    column.flagWords.flatMap (leBytes 8) ++ column.driftTexts.flatMap (·.getD []) := rfl

/-- The flags of a column take 56 bytes, whatever they are. -/
theorem length_flagBytes (column : CatalogColumn) :
    (column.flagWords.flatMap (leBytes 8)).length = 56 := by
  simp [CatalogColumn.flagWords]

theorem columnWords_lt (column : CatalogColumn) : ∀ n ∈ column.flagWords, n < 256 ^ 8 := by
  have hbyte : ∀ byte : UInt8, byte.toNat < 256 ^ 8 := fun byte => byte.toNat_lt.trans (by decide)
  simp only [CatalogColumn.flagWords, List.forall_mem_cons]
  exact ⟨bool_toNat_lt _, bool_toNat_lt _, hbyte _, hbyte _, hbyte _, hbyte _, bool_toNat_lt _,
    by simp⟩

/-- **Columns with one stream** have equal attributes exactly if their texts are there and as long
alike. -/
theorem attributes_eq_iff {column column' : CatalogColumn}
    (h : columnPolicyBytes column = columnPolicyBytes column') :
    column.attributes = column'.attributes ↔
      column.driftTexts.map (·.map List.length) = column'.driftTexts.map (·.map List.length) := by
  rw [columnPolicyBytes_eq, columnPolicyBytes_eq] at h
  obtain ⟨hflags, htexts⟩ := List.append_inj h (by rw [length_flagBytes, length_flagBytes])
  have hwords :=
    flatMap_leBytes_inj (by decide) (columnWords_lt column) (columnWords_lt column') hflags
  rw [← texts_eq_iff htexts]
  refine ⟨fun hsame => congrArg (·.texts) hsame, fun hsame => ?_⟩
  simp only [CatalogColumn.flagWords, List.cons.injEq, and_true] at hwords
  obtain ⟨hnull, hdefault, hgenerated, hidentity, hstorage, hcompression, hdomain⟩ := hwords
  simp only [CatalogColumn.attributes, ColumnAttributes.mk.injEq]
  exact ⟨toNat_bool_inj hnull, toNat_bool_inj hdefault, UInt8.toNat_inj.mp hgenerated,
    UInt8.toNat_inj.mp hidentity, UInt8.toNat_inj.mp hstorage, UInt8.toNat_inj.mp hcompression,
    toNat_bool_inj hdomain, hsame⟩

/-- There is always something to hash of a column… -/
theorem columnPolicyBytes_ne_nil (column : CatalogColumn) : columnPolicyBytes column ≠ [] := by
  intro h
  have := congrArg List.length h
  rw [columnPolicyBytes_eq, List.length_append, length_flagBytes, List.length_nil] at this
  omega

/-- …and of a relation. -/
theorem relationPolicyBytes_ne_nil (metadata : SourceMetadata) :
    relationPolicyBytes metadata ≠ [] := by
  intro h
  have := congrArg List.length h
  simp [relationPolicyBytes] at this

/-! ## Tables -/

/-- A value that may be absent, behind bytes that are not empty: whether two of them are equal is
read off what the bytes leave open. -/
theorem map_eq_iff_of_stream {α β γ : Type} {bytes : α → List UInt8} {full : α → β} {shape : α → γ}
    (hne : ∀ a, bytes a ≠ []) {x x' : Option α}
    (h : (x.map bytes).getD [] = (x'.map bytes).getD [])
    (hiff : ∀ a ∈ x, ∀ a' ∈ x', bytes a = bytes a' → (full a = full a' ↔ shape a = shape a')) :
    x.map full = x'.map full ↔ x.map shape = x'.map shape := by
  cases x with
  | none =>
    cases x' with
    | none => simp
    | some a' => exact absurd h.symm (hne a')
  | some a =>
    cases x' with
    | none => exact absurd h (hne a)
    | some a' =>
      rw [Option.map_some, Option.map_some, Option.map_some, Option.map_some, Option.some_inj,
        Option.some_inj]
      exact hiff a rfl a' rfl h

/-- The same, field by field. -/
theorem map_eq_map_iff_of_stream {δ β γ : Type} {fields fields' : List δ}
    {stream stream' : δ → List UInt8} {full full' : δ → β} {shape shape' : δ → γ}
    (h : fields.map stream = fields'.map stream')
    (hiff : ∀ field field', stream field = stream' field' →
      (full field = full' field' ↔ shape field = shape' field')) :
    fields.map full = fields'.map full' ↔ fields.map shape = fields'.map shape' := by
  induction fields generalizing fields' with
  | nil =>
    obtain rfl := List.map_eq_nil_iff.mp h.symm
    simp
  | cons field fields ih =>
    cases fields' with
    | nil => cases h
    | cons field' fields' =>
      obtain ⟨hfirst, hrest⟩ := List.cons.inj h
      simp only [List.map_cons, List.cons.injEq]
      rw [ih hrest, hiff field field' hfirst]

/-- **What equal fingerprint streams leave open**: the attributes of the two tables are equal one by
one exactly if the parts of the streams are as long as each other. -/
theorem drift_told_apart_iff {table table' : ModuleTable} (hnarrow : table.Narrow)
    (hnarrow' : table'.Narrow) (h : SameStreams table table') :
    SameAttributes table table' ↔ SameFraming table table' := by
  refine and_congr ?_ ?_
  · exact map_eq_iff_of_stream relationPolicyBytes_ne_nil h.relation
      fun metadata hmetadata metadata'
      hmetadata' hbytes => relationAttributes_eq_iff (hnarrow metadata hmetadata)
        (hnarrow' metadata' hmetadata') hbytes
  · exact map_eq_map_iff_of_stream h.fields fun field field' hstream =>
      map_eq_iff_of_stream columnPolicyBytes_ne_nil hstream fun column _ column' _ hbytes =>
        attributes_eq_iff hbytes

/-- A table whose only column is of a domain: what its constraints hash to, and its name. -/
def domainTable (constraintHash : Option (List UInt8)) (formattedType : List UInt8) :
    ModuleTable where
  arguments := readOnlyArguments
  scanQuery := ascii "SELECT \"id\" FROM \"public\".\"t\""
  described := [⟨ascii "id", 16400, -1, 16384, 1⟩]
  metadata := some
    { relation := sampleRelation
      columns := [{ sampleColumn with
        typeOid := 16400
        typeKind := 100
        domainBaseOid := 23
        domainConstraintHash := constraintHash
        formattedType := some formattedType }]
      key := ⟨.unique, 16390, [1], false, false⟩
      policy := samplePolicy
      positive := by decide }

theorem narrow_domainTable (constraintHash : Option (List UInt8)) (formattedType : List UInt8) :
    (domainTable constraintHash formattedType).Narrow := by
  intro metadata hmetadata number hnumber
  obtain rfl := Option.some_inj.mp hmetadata
  cases hnumber

/-- Of two tables whose streams are equal, one with a constraint hash and one with a longer name. -/
theorem drift_told_apart_domainTable :
    SameStreams (domainTable (some (ascii "d41d8cd98f00b204e9800998ecf8427e")) (ascii "d"))
        (domainTable none (ascii "d41d8cd98f00b204e9800998ecf8427ed")) ∧
      (SameAttributes (domainTable (some (ascii "d41d8cd98f00b204e9800998ecf8427e")) (ascii "d"))
          (domainTable none (ascii "d41d8cd98f00b204e9800998ecf8427ed")) ↔
        SameFraming (domainTable (some (ascii "d41d8cd98f00b204e9800998ecf8427e")) (ascii "d"))
          (domainTable none (ascii "d41d8cd98f00b204e9800998ecf8427ed"))) :=
  have hsame : SameStreams
      (domainTable (some (ascii "d41d8cd98f00b204e9800998ecf8427e")) (ascii "d"))
      (domainTable none (ascii "d41d8cd98f00b204e9800998ecf8427ed")) := ⟨rfl, by decide⟩
  ⟨hsame, drift_told_apart_iff (narrow_domainTable _ _) (narrow_domainTable _ _) hsame⟩

/-- A domain `d` that loses its constraints and takes their hash into its name. -/
theorem drift_hidden :
    (domainTable (some (ascii "d41d8cd98f00b204e9800998ecf8427e")) (ascii "d")).Narrow ∧
      (domainTable none (ascii "d41d8cd98f00b204e9800998ecf8427ed")).Narrow ∧
      SameStreams (domainTable (some (ascii "d41d8cd98f00b204e9800998ecf8427e")) (ascii "d"))
        (domainTable none (ascii "d41d8cd98f00b204e9800998ecf8427ed")) ∧
      ¬SameAttributes (domainTable (some (ascii "d41d8cd98f00b204e9800998ecf8427e")) (ascii "d"))
        (domainTable none (ascii "d41d8cd98f00b204e9800998ecf8427ed")) := by
  refine ⟨narrow_domainTable _ _, narrow_domainTable _ _, ⟨rfl, by decide⟩, fun h => ?_⟩
  have htexts := congrArg (List.map (Option.map ColumnAttributes.texts)) h.2
  exact absurd htexts (by decide)

end Vps
