import Mathlib.Data.List.Basic
import VirtualPostgreSQL.Identity.Build
import VirtualPostgreSQL.Identity.SearchPath

/-!
# Identity/Sound — what connections with one identity have in common

What a connection denotes (`Denoted`): the servers, the database, the user and the session.  Two
connections that `identityCompare` says are the same should denote the same.  They do exactly when
the text that the normalisers drop is the same too (`SameBlanks`): `denoted_eq_iff_sameBlanks`.
-/

namespace Vps

open Machinery

/-! ## What a connection denotes -/

/-- A server: the path of a socket (also of one in the abstract namespace), or a name in any
case. -/
inductive Host
  | socket (path : List UInt8)
  | name (letters : List UInt8)
  deriving DecidableEq

/-- An item of the list of hosts. -/
def hostOf (item : List UInt8) : Host :=
  if item.head? = some 47 ∨ item.head? = some 64 then .socket item else .name (item.map toLower)

/-- An item of the list of ports. -/
def portOf (item : List UInt8) : Option ℕ :=
  if trim isBlank item = [] then some 5432 else parseDecimal (trim isBlank item)

/-- A timeout: the argument's, else the configured number, else none. -/
def timeoutOf (argument : Option UInt32) (configValue : Option (List UInt8)) : Option ℕ :=
  match argument, configValue with
  | some value, _ => some value.toNat
  | none, none => some 0
  | none, some text => parseDecimal (trim isBlank text)

/-- `VPS_SESSION_DEFAULT_SEARCH_PATH`. -/
def sessionDefaultSearchPath : List UInt8 := ascii "pg_catalog"

/-- The search path of the session. -/
def CredentialConfig.path (config : CredentialConfig) : List UInt8 :=
  config.searchPath.getD sessionDefaultSearchPath

/-- **What a connection denotes.** -/
structure Denoted where
  hosts : List Host
  ports : List (Option ℕ)
  database : List UInt8
  user : List UInt8
  searchPath : Option (List (List UInt8))
  connectTimeout : Option ℕ
  statementTimeout : Option ℕ
  lockTimeout : Option ℕ
  isolation : ArgumentIsolation
  transactionReadOnly : Bool
  mode : ArgumentMode
  deriving DecidableEq

/-- What a configuration and its options denote. -/
def denoted (config : CredentialConfig) (arguments : ParsedArguments) : Denoted where
  hosts := ((config.hosts.getD []).splitOn 44).map hostOf
  ports := ((config.ports.getD []).splitOn 44).map portOf
  database := config.dbname.getD []
  user := config.user.getD []
  searchPath := schemaNames config.path
  connectTimeout := timeoutOf arguments.connectTimeout config.connectTimeout
  statementTimeout := timeoutOf arguments.statementTimeout config.statementTimeout
  lockTimeout := timeoutOf arguments.lockTimeout config.lockTimeout
  isolation := arguments.isolation.getD .readCommitted
  transactionReadOnly := arguments.transactionReadOnly.getD false
  mode := arguments.mode.getD .ro

/-! ## What the normalisers drop -/

/-- What is dropped of a host: its outer blanks, and the case of an abstract socket. -/
def hostDropped (item : List UInt8) : (List UInt8 × List UInt8) × List UInt8 :=
  (margins isBlank item, if item.head? = some 64 then item else [])

/-- **The same text is dropped of both**: the outer blanks of the database, the user and the hosts,
the case of abstract sockets, whether there is a search path, and the blanks beside the commas of
its quoted names. -/
structure SameBlanks (config config' : CredentialConfig) : Prop where
  database : margins isBlank (config.dbname.getD []) = margins isBlank (config'.dbname.getD [])
  user : margins isBlank (config.user.getD []) = margins isBlank (config'.user.getD [])
  hosts : ((config.hosts.getD []).splitOn 44).map hostDropped =
    ((config'.hosts.getD []).splitOn 44).map hostDropped
  searchPath : config.searchPath.isSome = config'.searchPath.isSome
  commas : commaNames config.path = commaNames config'.path

/-! ## Field by field -/

/-- Texts that are trimmed alike are the same just when their margins are. -/
theorem eq_iff_margins {text text' : List UInt8} (h : trim isBlank text = trim isBlank text') :
    text = text' ↔ margins isBlank text = margins isBlank text' :=
  ⟨fun heq => by rw [heq], eq_of_trim_of_margins isBlank h⟩

/-- Values that are written alike are trimmed alike. -/
theorem trim_eq_of_identityText {value value' : Option (List UInt8)}
    (h : identityText value (some []) false = identityText value' (some []) false)
    (hne : identityText value (some []) false ≠ none) :
    trim isBlank (value.getD []) = trim isBlank (value'.getD []) := by
  have hspec (value : Option (List UInt8)) {output : List UInt8}
      (h : identityText value (some []) false = some output) :
      output = trim isBlank (value.getD []) := by
    have hvalue : value.or (some []) = some (value.getD []) := by cases value <;> rfl
    simp only [identityText, hvalue, Option.bind_some] at h
    split at h
    · simpa using identityCopyNormalized_some h
    · cases h
  obtain ⟨output, houtput⟩ := Option.ne_none_iff_exists'.1 hne
  rw [← hspec value houtput, ← hspec value' (h ▸ houtput)]

/-- The digits of a `uint32_t` are read as digits are. -/
theorem parseUint32Digits_eq_some_iff {text : List UInt8} {parsed n : ℕ}
    (hparsed : parsed ≤ 0xffffffff) :
    parseUint32Digits text parsed = some n ↔ parseDigits text parsed = some n ∧ n ≤ 0xffffffff := by
  induction text generalizing parsed with
  | nil =>
    refine (and_iff_left_of_imp ?_).symm
    rintro ⟨⟩
    exact hparsed
  | cons byte rest ih =>
    rw [parseUint32Digits, parseDigits]
    by_cases hdigit : isDigit byte
    · rw [hdigit, Bool.not_true, if_neg Bool.false_ne_true, if_pos rfl]
      simp only [isDigit, Bool.and_eq_true, decide_eq_true_eq] at hdigit
      have hhigh : byte.toNat ≤ 57 := hdigit.2
      split
      · rename_i hlarge
        refine iff_of_false (by simp) ?_
        rintro ⟨hrest, hn⟩
        have := le_of_parseDigits hrest
        omega
      · exact ih (by omega)
    · simp [hdigit]

/-- Digits that fit into 32 bits are read as the number they are. -/
theorem parseDecimal_of_parseUint32Digits {text : List UInt8} {n : ℕ} (hne : text ≠ [])
    (h : parseUint32Digits text 0 = some n) : parseDecimal text = some n :=
  parseDecimal_eq_some_iff.mpr ⟨hne, ((parseUint32Digits_eq_some_iff (Nat.zero_le _)).mp h).1⟩

/-- A port that is accepted is the one that libpq reads. -/
theorem portOf_eq {item : List UInt8} {port : ℕ}
    (h : identityParsePort (trim isBlank item) = some port) : portOf item = some port := by
  unfold identityParsePort at h
  unfold portOf
  split at h
  · rename_i hempty
    rw [if_pos hempty, h]
  · rename_i hne
    rw [if_neg hne]
    exact parseDecimal_of_parseUint32Digits hne (Option.filter_eq_some_iff.1 h).1

/-- A timeout that is accepted is the one that is meant. -/
theorem timeoutOf_eq {argument : Option UInt32} {text : Option (List UInt8)} {n : ℕ}
    (h : identityTimeout argument text = some n) : timeoutOf argument text = some n := by
  cases argument with
  | some value => exact h
  | none =>
    cases text with
    | none => exact h
    | some text =>
      simp only [identityTimeout] at h
      split_ifs at h with _ hne
      exact parseDecimal_of_parseUint32Digits hne h

/-- Timeouts that are normalised alike are the same. -/
theorem timeoutOf_eq_of_normalized {argument argument' : Option UInt32}
    {text text' : Option (List UInt8)}
    (h : identityNormalizeTimeout argument text = identityNormalizeTimeout argument' text')
    (hne : identityNormalizeTimeout argument text ≠ none) :
    timeoutOf argument text = timeoutOf argument' text' := by
  obtain ⟨output, houtput⟩ := Option.ne_none_iff_exists'.1 hne
  obtain ⟨n, hn, rfl⟩ := Option.map_eq_some_iff.1 houtput
  obtain ⟨m, hm, heq⟩ := Option.map_eq_some_iff.1 (h ▸ houtput)
  rw [timeoutOf_eq hn, timeoutOf_eq hm, decimal_injective heq]

/-- **Port lists that are normalised alike** have the same ports. -/
theorem ports_eq_of_identityList {text text' : List UInt8} {output : List UInt8}
    (h : identityNormalizePorts (credentialValueMaxLength + 1) text = some output)
    (h' : identityNormalizePorts (credentialValueMaxLength + 1) text' = some output) :
    (text.splitOn 44).map portOf = (text'.splitOn 44).map portOf := by
  refine map_eq_map_of_forall₂ (normalizeItems_inj
    (fun item part _ hpart => comma_notMem_identityNormalizePort hpart) h h') ?_
  rintro item item' ⟨part, hpart, hpart'⟩
  obtain ⟨port, hport, rfl⟩ := Option.map_eq_some_iff.1 hpart
  obtain ⟨port', hport', heq⟩ := Option.map_eq_some_iff.1 hpart'
  rw [portOf_eq hport, portOf_eq hport', decimal_injective heq]

/-- The default of the ports is the default port, whatever the hosts. -/
theorem map_portOf_default (config : CredentialConfig) :
    ((config.ports.getD (if config.hosts = none then [] else ascii "5432")).splitOn 44).map portOf =
      ((config.ports.getD []).splitOn 44).map portOf := by
  cases config.ports with
  | some text => rfl
  | none => split <;> decide

/-! ## Hosts -/

/-- A blank has no case… -/
theorem toLower_of_isBlank {byte : UInt8} (h : isBlank byte = true) : toLower byte = byte := by
  simp only [isBlank, Bool.or_eq_true, beq_iff_eq] at h
  obtain rfl | rfl := h <;> rfl

/-- …and no letter becomes one. -/
theorem isBlank_toLower (byte : UInt8) : isBlank (toLower byte) = isBlank byte := by
  rw [Bool.eq_iff_iff]
  constructor
  · intro h
    simp only [isBlank, Bool.or_eq_true, beq_iff_eq] at h ⊢
    exact h.imp (eq_of_toLower_eq · (by decide)) (eq_of_toLower_eq · (by decide))
  · intro h
    rwa [toLower_of_isBlank h]

theorem map_toLower_of_blank {text : List UInt8} (h : Blank text) : text.map toLower = text :=
  (List.map_congr_left fun byte hb => toLower_of_isBlank (h byte hb)).trans (List.map_id' _)

/-- Blanks have no case. -/
theorem margins_map_toLower (item : List UInt8) :
    margins isBlank (item.map toLower) = margins isBlank item := by
  rw [margins_map isBlank isBlank_toLower, map_toLower_of_blank (blank_margins item).1,
    map_toLower_of_blank (blank_margins item).2]

theorem hostDropped_eq_of_hostOf {item item' : List UInt8} (h : hostOf item = hostOf item') :
    hostDropped item = hostDropped item' := by
  unfold hostOf at h
  split_ifs at h with hsocket hsocket'
  · rw [Host.socket.inj h]
  · rename_i hsocket'
    have hmargins := congrArg (margins isBlank) (Host.name.inj h)
    rw [margins_map_toLower, margins_map_toLower] at hmargins
    simp only [hostDropped, hmargins]
    rw [if_neg fun h => hsocket (.inr h), if_neg fun h => hsocket' (.inr h)]

theorem toLower_toLower (byte : UInt8) : toLower (toLower byte) = toLower byte := by
  by_cases hupper : (65 ≤ byte && byte ≤ 90) = true
  · have hlower : toLower byte = byte + 32 := if_pos hupper
    have hnot : (65 ≤ byte + 32 && byte + 32 ≤ 90) = false := by
      simp only [Bool.and_eq_true, decide_eq_true_eq, UInt8.le_iff_toNat_le] at hupper
      simp only [Bool.and_eq_false_iff, decide_eq_false_iff_not, UInt8.le_iff_toNat_le,
        UInt8.toNat_add]
      simp at hupper ⊢
      omega
    rw [hlower, toLower, hnot]
    rfl
  · have hsame : toLower byte = byte := if_neg hupper
    rw [hsame, hsame]

/-- Normalised alike, the contents agree but for the case of letters. -/
theorem map_toLower_trim {item item' part : List UInt8}
    (h : identityNormalizeItem true item = some part)
    (h' : identityNormalizeItem true item' = some part) :
    (trim isBlank item).map toLower = (trim isBlank item').map toLower := by
  have hidem : toLower ∘ toLower = toLower := funext toLower_toLower
  have hpart (item : List UInt8) (h : identityNormalizeItem true item = some part) :
      (trim isBlank item).map toLower = part.map toLower := by
    rw [identityCopyNormalized_some h]
    split
    · rw [List.map_map, hidem]
    · rfl
  rw [hpart item h, hpart item' h']

theorem head?_slash_of_map_toLower {item item' : List UInt8}
    (h : item.map toLower = item'.map toLower) (hitem : item.head? = some 47) :
    item'.head? = some 47 := by
  have hhead := congrArg List.head? h
  rw [List.head?_map, List.head?_map, hitem] at hhead
  obtain ⟨byte, hbyte, hlower⟩ := Option.map_eq_some_iff.1 hhead.symm
  rw [hbyte, eq_of_toLower_eq hlower (by decide)]
  rfl

/-- A path keeps its case. -/
theorem trim_eq_of_slash {item part : List UInt8} (h : identityNormalizeItem true item = some part)
    (hitem : item.head? = some 47) : trim isBlank item = part := by
  have hfold : foldsCase true item = false := by
    obtain ⟨rest, rfl⟩ : ∃ rest, item = 47 :: rest := by
      cases item with
      | nil => cases hitem
      | cons first rest => exact ⟨rest, by rw [Option.some.inj hitem]⟩
    simp [foldsCase, isBlank]
  have hpart := identityCopyNormalized_some h
  rw [hfold] at hpart
  exact hpart.symm

/-- Hosts that are normalised alike are the same where the same text is dropped of them. -/
theorem hostOf_eq_of_hostDropped {item item' part : List UInt8}
    (h : identityNormalizeItem true item = some part)
    (h' : identityNormalizeItem true item' = some part)
    (hdropped : hostDropped item = hostDropped item') : hostOf item = hostOf item' := by
  obtain ⟨hmargins, habstract⟩ := Prod.ext_iff.1 hdropped
  simp only [hostDropped] at hmargins habstract
  have hlower : item.map toLower = item'.map toLower := by
    rw [← margins_fst_append_trim isBlank item, ← margins_fst_append_trim isBlank item', hmargins]
    simp only [List.map_append, map_toLower_trim h h']
  by_cases h64 : item.head? = some 64
  · by_cases h64' : item'.head? = some 64
    · rw [if_pos h64, if_pos h64'] at habstract
      rw [habstract]
    · rw [if_pos h64, if_neg h64'] at habstract
      simp [habstract] at h64
  · have h64' : item'.head? ≠ some 64 := fun h64' => by
      rw [if_neg h64, if_pos h64'] at habstract
      simp [← habstract] at h64'
    by_cases h47 : item.head? = some 47
    · have h47' := head?_slash_of_map_toLower hlower h47
      have htrim := (trim_eq_of_slash h h47).trans (trim_eq_of_slash h' h47').symm
      rw [eq_of_trim_of_margins isBlank htrim hmargins]
    · have h47' : item'.head? ≠ some 47 :=
        fun h47' => h47 (head?_slash_of_map_toLower hlower.symm h47')
      simp [hostOf, h64, h64', h47, h47', hlower]

/-- **Host lists that are normalised alike** have the same hosts just when the same blanks were
dropped. -/
theorem hosts_eq_iff {text text' output : List UInt8}
    (h : identityNormalizeList true (credentialValueMaxLength + 1) text = some output)
    (h' : identityNormalizeList true (credentialValueMaxLength + 1) text' = some output) :
    (text.splitOn 44).map hostOf = (text'.splitOn 44).map hostOf ↔
      (text.splitOn 44).map hostDropped = (text'.splitOn 44).map hostDropped := by
  refine map_eq_map_iff_of_forall₂ ?_ (normalizeItems_inj
    (fun item part => comma_notMem_identityNormalizeItem) h h')
  rintro item item' ⟨part, hpart, hpart'⟩
  exact ⟨hostDropped_eq_of_hostOf, hostOf_eq_of_hostDropped hpart hpart'⟩

/-! ## The search path -/

/-- Lists that are normalised alike have items that are trimmed alike. -/
theorem trim_items_of_identityList {text text' output : List UInt8}
    (h : identityNormalizeList false (credentialValueMaxLength + 1) text = some output)
    (h' : identityNormalizeList false (credentialValueMaxLength + 1) text' = some output) :
    List.Forall₂ (fun item item' => trim isBlank item = trim isBlank item') (text.splitOn 44)
      (text'.splitOn 44) := by
  refine (normalizeItems_inj (fun item part => comma_notMem_identityNormalizeItem) h h').imp ?_
  rintro item item' ⟨part, hpart, hpart'⟩
  have hspec := identityCopyNormalized_some hpart
  have hspec' := identityCopyNormalized_some hpart'
  exact hspec.symm.trans hspec'

/-- A search path of blanks names nothing. -/
theorem schemaNames_of_trim_nil {text : List UInt8} (h : trim isBlank text = []) :
    schemaNames text = some [] := by
  have hblank : Blank text := by
    intro byte hbyte
    rw [← margins_fst_append_trim isBlank text, h, List.append_nil] at hbyte
    exact (List.mem_append.1 hbyte).elim (mem_margins_fst isBlank) (mem_margins_snd isBlank)
  rw [schemaNames, splitIdentifierString, splitFrom_blank hblank]
  rfl

theorem schemaNames_default : schemaNames sessionDefaultSearchPath = some [ascii "pg_catalog"] := by
  decide

/-- An absent path is not told apart from one of blanks, but denotes the default. -/
theorem schemaNames_ne_default {text : List UInt8}
    (h : List.Forall₂ (fun item item' => trim isBlank item = trim isBlank item') (text.splitOn 44)
      (List.splitOn 44 [])) : schemaNames text ≠ schemaNames sessionDefaultSearchPath := by
  obtain ⟨item, items, hitem, hrest, hsplit⟩ := List.forall₂_cons_right_iff.1 h
  obtain rfl := List.forall₂_nil_right_iff.1 hrest
  have htext : text = item := by
    have hjoin : [44].intercalate (text.splitOn 44) = text := List.intercalate_splitOn 44
    rw [← hjoin, hsplit, List.intercalate_singleton]
  rw [htext, schemaNames_of_trim_nil hitem, schemaNames_default]
  simp

/-- **Search paths with items trimmed alike** name the same schemas just when both are given or
neither is, and their names with a comma agree. -/
theorem searchPath_eq_iff {path path' : Option (List UInt8)}
    (h : List.Forall₂ (fun item item' => trim isBlank item = trim isBlank item')
      ((path.getD []).splitOn 44) ((path'.getD []).splitOn 44)) :
    schemaNames (path.getD sessionDefaultSearchPath) =
        schemaNames (path'.getD sessionDefaultSearchPath) ↔
      path.isSome = path'.isSome ∧ commaNames (path.getD sessionDefaultSearchPath) =
        commaNames (path'.getD sessionDefaultSearchPath) := by
  cases path with
  | none =>
    cases path' with
    | none => simp
    | some text => simpa using (schemaNames_ne_default (h.flip.imp fun _ _ h => h.symm)).symm
  | some text =>
    cases path' with
    | none => simpa using schemaNames_ne_default h
    | some text' => simpa using schemaNames_eq_iff h

/-! ## Soundness -/

/-- The isolation can be told from what is written of it. -/
theorem isolation_eq_of_text {arguments arguments' : ParsedArguments}
    (h : isolationText arguments = isolationText arguments') :
    arguments.isolation.getD .readCommitted = arguments'.isolation.getD .readCommitted := by
  unfold isolationText at h
  generalize arguments.isolation = isolation at h ⊢
  generalize arguments'.isolation = isolation' at h ⊢
  rcases isolation with _ | _ | _ | _ <;> rcases isolation' with _ | _ | _ | _ <;>
    first | rfl | exact absurd h (by decide)

/-- So can READ ONLY. -/
theorem readOnly_eq_of_text {arguments arguments' : ParsedArguments}
    (h : readOnlyText arguments = readOnlyText arguments') :
    arguments.transactionReadOnly.getD false = arguments'.transactionReadOnly.getD false := by
  unfold readOnlyText at h
  generalize arguments.transactionReadOnly = readOnly at h ⊢
  generalize arguments'.transactionReadOnly = readOnly' at h ⊢
  rcases readOnly with _ | _ | _ <;> rcases readOnly' with _ | _ | _ <;>
    first | rfl | exact absurd h (by decide)

/-- So can the mode. -/
theorem mode_eq_of_text {arguments arguments' : ParsedArguments}
    (h : identityText (some (readWriteClass arguments)) none true =
      identityText (some (readWriteClass arguments')) none true) :
    arguments.mode.getD .ro = arguments'.mode.getD .ro := by
  unfold readWriteClass at h
  generalize arguments.mode = mode at h ⊢
  generalize arguments'.mode = mode' at h ⊢
  rcases mode with _ | _ | _ <;> rcases mode' with _ | _ | _ <;>
    first | rfl | exact absurd h (by decide)

/-- An identity that was built has the canonical bytes of its configuration. -/
theorem identityBuild_ok {allocates : ℕ → Bool} {connection : ConnectionConfig}
    {arguments : ParsedArguments} {options : IdentityBuildOptions} {identity : ConnectionIdentity}
    (h : identityBuild allocates connection arguments options = .ok identity) :
    identityCanonical allocates connection.config arguments options = .ok identity.canonical := by
  obtain ⟨canonical, hcanonical, h⟩ := ok_of_bind h
  obtain rfl := Except.ok.inj h
  exact hcanonical

/-- Only identities with the same canonical bytes compare SAME. -/
theorem identityCompare_same {left right : ConnectionIdentity}
    (h : identityCompare left right = .same) : left.canonical = right.canonical := by
  unfold identityCompare at h
  split_ifs at h with hbuilt
  simp only [Bool.and_eq_true, beq_iff_eq] at hbuilt
  exact hbuilt.2

theorem identityNormalizePorts_of_list {value : Option (List UInt8)} {default output : List UInt8}
    (h : identityList value default true false = some output) :
    identityNormalizePorts (credentialValueMaxLength + 1) (value.getD default) = some output := by
  simp only [identityList, if_true] at h
  split at h
  · exact h
  · cases h

theorem identityNormalizeList_of_list {value : Option (List UInt8)} {default output : List UInt8}
    {lowerAscii : Bool} (h : identityList value default false lowerAscii = some output) :
    identityNormalizeList lowerAscii (credentialValueMaxLength + 1) (value.getD default) =
      some output := by
  simp only [identityList, Bool.false_eq_true, if_false] at h
  split at h
  · exact h
  · cases h

variable {allocates allocates' : ℕ → Bool} {connection connection' : ConnectionConfig}
  {arguments arguments' : ParsedArguments} {options options' : IdentityBuildOptions}
  {identity identity' : ConnectionIdentity}

/-- **Connections with one identity denote the same exactly where the same text is dropped of
both.** -/
theorem denoted_eq_iff_sameBlanks
    (h : identityBuild allocates connection arguments options = .ok identity)
    (h' : identityBuild allocates' connection' arguments' options' = .ok identity')
    (hsame : identityCompare identity identity' = .same) :
    denoted connection.config arguments = denoted connection'.config arguments' ↔
      SameBlanks connection.config connection'.config := by
  have hcanonical := identityBuild_ok h
  have hcanonical' := identityBuild_ok h'
  rw [← identityCompare_same hsame] at hcanonical'
  obtain ⟨hfields, hnone⟩ := identityFields_eq hcanonical hcanonical'
  simp only [identityFields, identityConnectionFields, identitySessionFields, List.cons_append,
    List.nil_append, List.map_cons, List.map_nil, List.cons.injEq, and_true,
    List.forall_mem_cons] at hfields hnone
  obtain ⟨-, hhosts, hports, hdbname, huser, -, -, -, -, -, -, -, -, -, hpath, hmode, hconnect,
    hstatement, hlock, hisolation, hreadOnly⟩ := hfields
  obtain ⟨-, nhosts, nports, ndbname, nuser, -, -, -, -, -, -, -, -, -, npath, -, nconnect,
    nstatement, nlock, -⟩ := hnone
  obtain ⟨hosts, shosts⟩ := Option.ne_none_iff_exists'.1 nhosts
  obtain ⟨ports, sports⟩ := Option.ne_none_iff_exists'.1 nports
  obtain ⟨path, spath⟩ := Option.ne_none_iff_exists'.1 npath
  -- what the identity tells apart
  have heqPorts := ports_eq_of_identityList (identityNormalizePorts_of_list sports)
    (identityNormalizePorts_of_list (hports.symm.trans sports))
  rw [map_portOf_default connection.config, map_portOf_default connection'.config] at heqPorts
  have heqConnect := timeoutOf_eq_of_normalized hconnect nconnect
  have heqStatement := timeoutOf_eq_of_normalized hstatement nstatement
  have heqLock := timeoutOf_eq_of_normalized hlock nlock
  have heqIsolation := isolation_eq_of_text (Option.some.inj hisolation)
  have heqReadOnly := readOnly_eq_of_text (Option.some.inj hreadOnly)
  have heqMode := mode_eq_of_text hmode
  -- what depends on the text that is dropped
  have hiffHosts := hosts_eq_iff (identityNormalizeList_of_list shosts)
    (identityNormalizeList_of_list (hhosts.symm.trans shosts))
  have hiffDatabase := eq_iff_margins (trim_eq_of_identityText hdbname ndbname)
  have hiffUser := eq_iff_margins (trim_eq_of_identityText huser nuser)
  have hiffPath := searchPath_eq_iff (trim_items_of_identityList
    (identityNormalizeList_of_list spath) (identityNormalizeList_of_list (hpath.symm.trans spath)))
  simp only [denoted, Denoted.mk.injEq, heqPorts, heqConnect, heqStatement, heqLock,
    heqIsolation, heqReadOnly, heqMode, true_and, and_true]
  constructor
  · rintro ⟨hhost, hdatabase, huser, hsearch⟩
    obtain ⟨hgiven, hcommas⟩ := hiffPath.1 hsearch
    exact ⟨hiffDatabase.1 hdatabase, hiffUser.1 huser, hiffHosts.1 hhost, hgiven, hcommas⟩
  · intro hblanks
    exact ⟨hiffHosts.2 hblanks.hosts, hiffDatabase.2 hblanks.database, hiffUser.2 hblanks.user,
      hiffPath.2 ⟨hblanks.searchPath, hblanks.commas⟩⟩

/-! ## Two spellings -/

/-- A connection by its host, port and search path, its lists spelled with blanks and capitals. -/
def spelled : CredentialConfig where
  hosts := some (ascii "DB.Example , /tmp")
  ports := some (ascii "05432")
  searchPath := some (ascii " a, \"B c\"")

/-- The same connection in normal form. -/
def spelledNormal : CredentialConfig where
  hosts := some (ascii "db.example , /tmp")
  searchPath := some (ascii "a,\"B c\"")

/-- Connections of one generation whose canonical bytes are the same have the same identity. -/
theorem exists_same_of_canonical {config config' : CredentialConfig}
    (hok : (identityCanonical allocates config {} {}).isOk = true)
    (heq : identityCanonical allocates' config' {} {} = identityCanonical allocates config {} {})
    (generation : UInt64) :
    ∃ identity identity',
      identityBuild allocates ⟨config, generation⟩ {} {} = .ok identity ∧
      identityBuild allocates' ⟨config', generation⟩ {} {} = .ok identity' ∧
      identityCompare identity identity' = .same := by
  cases hcanonical : identityCanonical allocates config {} {} with
  | error => simp [hcanonical, Except.isOk, Except.toBool] at hok
  | ok canonical =>
    rw [hcanonical] at heq
    simp only [identityBuild, hcanonical, heq]
    refine ⟨_, _, rfl, rfl, ?_⟩
    simp [identityCompare]

theorem denoted_spelled :
    ∃ identity identity', identityBuild (fun _ => true) ⟨spelled, 7⟩ {} {} = .ok identity ∧
      identityBuild (fun _ => true) ⟨spelledNormal, 7⟩ {} {} = .ok identity' ∧
      identityCompare identity identity' = .same ∧
      denoted spelled {} = denoted spelledNormal {} := by
  obtain ⟨identity, identity', h, h', hsame⟩ : ∃ identity identity',
      identityBuild (fun _ => true) ⟨spelled, 7⟩ {} {} = .ok identity ∧
      identityBuild (fun _ => true) ⟨spelledNormal, 7⟩ {} {} = .ok identity' ∧
      identityCompare identity identity' = .same :=
    exists_same_of_canonical (by decide +kernel) (by decide +kernel) 7
  refine ⟨identity, identity', h, h', hsame, (denoted_eq_iff_sameBlanks h h' hsame).2 ?_⟩
  constructor <;> decide +kernel

/-- **Two sessions with one identity**: the blanks beside the comma of a quoted schema name are
dropped, so the schemas `a , b` and `a,b` are taken for one. -/
theorem same_identity_other_schema :
    ∃ identity identity',
      identityBuild (fun _ => true) ⟨{ searchPath := some (ascii "\"a , b\"") }, 7⟩ {} {} =
        .ok identity ∧
      identityBuild (fun _ => true) ⟨{ searchPath := some (ascii "\"a,b\"") }, 7⟩ {} {} =
        .ok identity' ∧
      identityCompare identity identity' = .same ∧
      denoted { searchPath := some (ascii "\"a , b\"") } {} ≠
        denoted { searchPath := some (ascii "\"a,b\"") } {} := by
  obtain ⟨identity, identity', h, h', hsame⟩ : ∃ identity identity',
      identityBuild (fun _ => true) ⟨{ searchPath := some (ascii "\"a , b\"") }, 7⟩ {} {} =
        .ok identity ∧
      identityBuild (fun _ => true) ⟨{ searchPath := some (ascii "\"a,b\"") }, 7⟩ {} {} =
        .ok identity' ∧
      identityCompare identity identity' = .same :=
    exists_same_of_canonical (by decide +kernel) (by decide +kernel) 7
  exact ⟨identity, identity', h, h', hsame, by decide +kernel⟩

end Vps
