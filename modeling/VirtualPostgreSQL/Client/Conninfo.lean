import Mathlib.Data.List.TakeWhile
import Mathlib.Data.List.Nodup
import VirtualPostgreSQL.Arguments.Parse

/-!
# Client/Conninfo — the pre-scan of a connection string, and what libpq reads in it

`vps_scan_keywords` goes over a `key=value` string before libpq does, to see that every keyword is
on the allow list and occurs once.  Libpq then parses the same bytes by its own documented rules:
blanks may stand around `=`, a value starts at the first non-blank after it, a quote is special only
there, and a backslash takes the next byte literally.

The two readings part where the pre-scan starts a value at the byte after `=` and libpq skips blanks
first, and where a bare value holds a blank of `isspace` that the pre-scan does not count as one.
`options_eq_iff` says that they part nowhere else.
-/

namespace Vps

open Machinery

/-! ## Assignments -/

/-- The fields of `VpsCredentialConfig` that a connection string can set. -/
inductive CredentialField
  | hosts | ports | user | password | dbname | service | serviceFile | sslmode | sslrootcert
  | sslcert | sslkey | sslcrl | channelBinding | targetSessionAttrs | connectTimeout
  | applicationName
  deriving DecidableEq, Repr

/-- `vps_conninfo_keywords` -/
def conninfoKeywords : List (List UInt8 × CredentialField) :=
  [(ascii "host", .hosts), (ascii "port", .ports), (ascii "user", .user),
    (ascii "password", .password), (ascii "dbname", .dbname), (ascii "service", .service),
    (ascii "servicefile", .serviceFile), (ascii "sslmode", .sslmode),
    (ascii "sslrootcert", .sslrootcert), (ascii "sslcert", .sslcert), (ascii "sslkey", .sslkey),
    (ascii "sslcrl", .sslcrl), (ascii "channel_binding", .channelBinding),
    (ascii "target_session_attrs", .targetSessionAttrs),
    (ascii "connect_timeout", .connectTimeout), (ascii "application_name", .applicationName),
    (ascii "fallback_application_name", .applicationName)]

/-- `vps_find_keyword` -/
def findKeyword (name : List UInt8) : Option CredentialField := conninfoKeywords.lookup name

/-- An assignment as a reader of the string finds it.  The span of the value is given by the text
from its first byte on, quote included, and the text behind it. -/
structure ConninfoItem where
  keyword : List UInt8
  start : List UInt8
  stop : List UInt8
  deriving DecidableEq, Repr

/-! ## The pre-scan -/

/-- The blanks of the pre-scan. -/
def isScanBlank (byte : UInt8) : Bool := byte == 32 || byte == 9 || byte == 13 || byte == 10

/-- The bytes of a keyword. -/
def isKeywordByte (byte : UInt8) : Bool := isAlpha byte || byte == 95

/-- The loop over a value: the text behind it, or `none` where the string is refused. -/
def scanBody (quoted : Bool) : List UInt8 → Option (List UInt8)
  | [] => if quoted then none else some []
  | byte :: rest =>
    if byte = 92 then
      match rest with
      | [] => none
      | _ :: rest => scanBody quoted rest
    else if quoted && byte == 39 then some rest
    else if !quoted && isScanBlank byte then some (byte :: rest)
    else scanBody quoted rest

/-- Without a backslash, the scan goes on byte by byte. -/
theorem scanBody_cons (quoted : Bool) {byte : UInt8} (rest : List UInt8) (h : byte ≠ 92) :
    scanBody quoted (byte :: rest) = if quoted && byte == 39 then some rest
      else if !quoted && isScanBlank byte then some (byte :: rest)
      else scanBody quoted rest := by
  cases rest <;> simp [scanBody, h]

/-- A value, quoted or bare. -/
def scanValue : List UInt8 → Option (List UInt8)
  | 39 :: body => scanBody true body
  | start => scanBody false start

/-- A value ends before a blank or with the string. -/
def endsClean : List UInt8 → Bool
  | [] => true
  | byte :: _ => isScanBlank byte

/-- One turn of the loop of `vps_scan_keywords`, from the first byte of a keyword on; a field that
was seen is refused.  The empty keyword is on no list. -/
def scanAssignment (seen : List CredentialField) (text : List UInt8) :
    Option (CredentialField × ConninfoItem) :=
  match findKeyword (text.takeWhile isKeywordByte), text.dropWhile isKeywordByte with
  | some field, 61 :: start =>
    if field ∈ seen then none
    else match scanValue start with
    | some stop =>
      if endsClean stop then some (field, ⟨text.takeWhile isKeywordByte, start, stop⟩) else none
    | none => none
  | _, _ => none

/-- The scan of a value never backs up. -/
theorem scanBody_length {quoted : Bool} {text stop : List UInt8}
    (h : scanBody quoted text = some stop) : stop.length ≤ text.length := by
  fun_induction scanBody quoted text with
  | case1 => simp at h
  | case2 => simp_all
  | case3 => simp at h
  | case4 _ rest ih => have := ih h; simp; omega
  | case5 => simp_all
  | case6 => simp_all
  | case7 _ _ _ _ _ ih => have := ih h; simp; omega

theorem scanValue_length {start stop : List UInt8} (h : scanValue start = some stop) :
    stop.length ≤ start.length := by
  unfold scanValue at h
  split at h
  · have := scanBody_length h
    simp only [List.length_cons]
    omega
  · exact scanBody_length h

/-- Inversion of a turn. -/
theorem scanAssignment_eq_some {seen : List CredentialField} {text : List UInt8}
    {field : CredentialField} {item : ConninfoItem}
    (h : scanAssignment seen text = some (field, item)) :
    item.keyword = text.takeWhile isKeywordByte ∧
      text.dropWhile isKeywordByte = 61 :: item.start ∧
      findKeyword item.keyword = some field ∧ field ∉ seen ∧
      scanValue item.start = some item.stop ∧ endsClean item.stop := by
  unfold scanAssignment at h
  split at h
  · rename_i hfind hdrop
    split_ifs at h with hseen
    split at h
    · rename_i hvalue
      split_ifs at h with hclean
      cases h
      exact ⟨rfl, hdrop, hfind, hseen, hvalue, hclean⟩
    · cases h
  · cases h

/-- **An assignment takes bytes**, so the scan comes to an end. -/
theorem scanAssignment_length {seen : List CredentialField} {text : List UInt8}
    {field : CredentialField} {item : ConninfoItem}
    (h : scanAssignment seen text = some (field, item)) : item.stop.length < text.length := by
  obtain ⟨-, hdrop, -, -, hvalue, -⟩ := scanAssignment_eq_some h
  have hlength := (List.dropWhile_suffix isKeywordByte (l := text)).length_le
  rw [hdrop, List.length_cons] at hlength
  have := scanValue_length hvalue
  omega

/-- The loop of `vps_scan_keywords`: the assignments it goes over, or `none` where it returns 0. -/
def scanKeywordsFrom (seen : List CredentialField) (text : List UInt8) :
    Option (List ConninfoItem) :=
  match _hskip : text.dropWhile isScanBlank with
  | [] => some []
  | byte :: rest =>
    match _hitem : scanAssignment seen (byte :: rest) with
    | none => none
    | some (field, item) => (scanKeywordsFrom (field :: seen) item.stop).map (item :: ·)
termination_by text.length
decreasing_by
  have hlength := (List.dropWhile_suffix isScanBlank (l := text)).length_le
  rw [_hskip] at hlength
  exact (scanAssignment_length _hitem).trans_le hlength

/-- **`vps_scan_keywords`**, with the assignments it found; a string without any is refused. -/
def scanKeywords (text : List UInt8) : Option (List ConninfoItem) :=
  (scanKeywordsFrom [] text).filter (· ≠ [])

section Loop

variable {seen : List CredentialField} {text : List UInt8}

/-- Blanks alone are no keyword. -/
theorem scanKeywordsFrom_blank (hskip : text.dropWhile isScanBlank = []) :
    scanKeywordsFrom seen text = some [] := by
  rw [scanKeywordsFrom]
  split
  · rfl
  · simp_all

/-- Where an assignment stands, it is scanned, and then what is behind it. -/
theorem scanKeywordsFrom_item {byte : UInt8} {rest : List UInt8} {field : CredentialField}
    {item : ConninfoItem} {found : List ConninfoItem}
    (hskip : text.dropWhile isScanBlank = byte :: rest)
    (hitem : scanAssignment seen (byte :: rest) = some (field, item))
    (hfound : scanKeywordsFrom (field :: seen) item.stop = some found) :
    scanKeywordsFrom seen text = some (item :: found) := by
  rw [scanKeywordsFrom]
  split
  · simp_all
  · rename_i heq
    cases hskip.symm.trans heq
    split
    · simp_all
    · rename_i heq'
      cases hitem.symm.trans heq'
      rw [hfound]
      rfl

/-- **Induction over the string**, along the assignments of the pre-scan. -/
theorem scanKeywordsFrom_induction
    {P : List CredentialField → List UInt8 → List ConninfoItem → Prop}
    (blank : ∀ seen text, text.dropWhile isScanBlank = [] → P seen text [])
    (assign : ∀ seen text byte rest field item found,
      text.dropWhile isScanBlank = byte :: rest →
      scanAssignment seen (byte :: rest) = some (field, item) →
      P (field :: seen) item.stop found → P seen text (item :: found))
    {found : List ConninfoItem} (h : scanKeywordsFrom seen text = some found) :
    P seen text found := by
  fun_induction scanKeywordsFrom seen text generalizing found with
  | case1 seen text hskip =>
    cases h
    exact blank seen text hskip
  | case2 seen text byte rest hskip hitem => cases h
  | case3 seen text byte rest hskip field item hitem ih =>
    obtain ⟨tail, htail, rfl⟩ := Option.map_eq_some_iff.mp h
    exact assign seen text byte rest field item tail hskip hitem (ih htail)

end Loop

/-- The condition under which `vps_libpq_client_conninfo_parse` hands a string to libpq. -/
def conninfoAdmits (text : List UInt8) : Bool :=
  text.length != 0 && text.length ≤ argumentValueLimit && !text.contains 0 &&
    (scanKeywords text).isSome

/-! ## The parser of libpq -/

/-- A bare value ends before an unescaped blank or with the string. -/
def libpqBare : List UInt8 → List UInt8
  | [] => []
  | byte :: rest =>
    if isSpace byte then byte :: rest
    else if byte = 92 then
      match rest with
      | [] => []
      | _ :: rest => libpqBare rest
    else libpqBare rest

/-- A quoted value ends behind an unescaped quote. -/
def libpqQuoted : List UInt8 → Option (List UInt8)
  | [] => none
  | byte :: rest =>
    if byte = 92 then
      match rest with
      | [] => none
      | _ :: rest => libpqQuoted rest
    else if byte = 39 then some rest
    else libpqQuoted rest

/-- The text behind a value. -/
def libpqValue : List UInt8 → Option (List UInt8)
  | 39 :: body => libpqQuoted body
  | start => some (libpqBare start)

/-- The bytes of a parameter name. -/
def isNameByte (byte : UInt8) : Bool := byte != 61 && !isSpace byte

/-- An assignment, from the first byte of its name on. -/
def libpqAssignment (text : List UInt8) : Option ConninfoItem :=
  match (text.dropWhile isNameByte).dropWhile isSpace with
  | 61 :: rest =>
    (libpqValue (rest.dropWhile isSpace)).map fun stop =>
      ⟨text.takeWhile isNameByte, rest.dropWhile isSpace, stop⟩
  | _ => none

/-- libpq reads a name, `=` and a value, with blanks around `=` if there are any. -/
theorem libpqAssignment_eq {text rest : List UInt8}
    (h : (text.dropWhile isNameByte).dropWhile isSpace = 61 :: rest) :
    libpqAssignment text = (libpqValue (rest.dropWhile isSpace)).map fun stop =>
      ⟨text.takeWhile isNameByte, rest.dropWhile isSpace, stop⟩ := by
  unfold libpqAssignment
  split
  · rename_i heq
    cases h.symm.trans heq
    rfl
  · simp_all

/-- libpq reads a bare value byte by byte. -/
theorem libpqBare_cons {byte : UInt8} (rest : List UInt8) (h : byte ≠ 92) :
    libpqBare (byte :: rest) = if isSpace byte then byte :: rest else libpqBare rest := by
  cases rest <;> simp [libpqBare, h]

/-- libpq never backs up either. -/
theorem libpqBare_length (text : List UInt8) : (libpqBare text).length ≤ text.length := by
  fun_induction libpqBare text with
  | case1 => simp
  | case2 => simp
  | case3 => simp
  | case4 _ rest _ ih => simp; omega
  | case5 _ _ _ _ ih => simp; omega

/-- **A quoted value is read alike** by both. -/
theorem libpqQuoted_eq_scanBody (text : List UInt8) : libpqQuoted text = scanBody true text := by
  fun_induction libpqQuoted text with
  | case1 => rfl
  | case2 => simp [scanBody]
  | case3 _ rest ih => simpa [scanBody] using ih
  | case4 rest hescape => simp [scanBody_cons true rest hescape]
  | case5 byte rest hescape hquote ih => simpa [scanBody_cons true rest hescape, hquote] using ih

/-- An assignment takes bytes here, too. -/
theorem libpqAssignment_length {text : List UInt8} {item : ConninfoItem}
    (h : libpqAssignment text = some item) : item.stop.length < text.length := by
  unfold libpqAssignment at h
  split at h
  · rename_i rest hdrop
    obtain ⟨stop, hstop, rfl⟩ := Option.map_eq_some_iff.mp h
    have hlength := ((List.dropWhile_suffix isSpace (l := text.dropWhile isNameByte)).trans
      (List.dropWhile_suffix isNameByte (l := text))).length_le
    have hblanks := (List.dropWhile_suffix isSpace (l := rest)).length_le
    have hvalue : stop.length ≤ (rest.dropWhile isSpace).length := by
      unfold libpqValue at hstop
      split at hstop
      · rename_i hquoted
        rw [libpqQuoted_eq_scanBody] at hstop
        have := scanBody_length hstop
        rw [hquoted, List.length_cons]
        omega
      · cases hstop
        exact libpqBare_length _
    rw [hdrop, List.length_cons] at hlength
    dsimp only
    omega
  · cases h

/-- **`PQconninfoParse`** on a `key=value` string: its assignments, or `none` where it fails.  The
parameter names it knows are left open. -/
def libpqConninfo (known : List UInt8 → Bool) (text : List UInt8) : Option (List ConninfoItem) :=
  match _hskip : text.dropWhile isSpace with
  | [] => some []
  | byte :: rest =>
    match _hitem : libpqAssignment (byte :: rest) with
    | none => none
    | some item =>
      if known item.keyword then (libpqConninfo known item.stop).map (item :: ·) else none
termination_by text.length
decreasing_by
  have hlength := (List.dropWhile_suffix isSpace (l := text)).length_le
  rw [_hskip] at hlength
  exact (libpqAssignment_length _hitem).trans_le hlength

section Loop

variable {known : List UInt8 → Bool} {text : List UInt8}

theorem libpqConninfo_blank (hskip : text.dropWhile isSpace = []) :
    libpqConninfo known text = some [] := by
  rw [libpqConninfo]
  split
  · rfl
  · simp_all

/-- Where an assignment stands, libpq reads it, if it knows the keyword, and then what is behind
it. -/
theorem libpqConninfo_item {byte : UInt8} {rest : List UInt8}
    (hskip : text.dropWhile isSpace = byte :: rest) :
    libpqConninfo known text = (libpqAssignment (byte :: rest)).bind fun item =>
      if known item.keyword then (libpqConninfo known item.stop).map (item :: ·) else none := by
  rw [libpqConninfo]
  split
  · simp_all
  · rename_i heq
    cases hskip.symm.trans heq
    split <;> simp_all

theorem libpqConninfo_cons {byte : UInt8} {rest : List UInt8} {item : ConninfoItem}
    {options : List ConninfoItem} (hskip : text.dropWhile isSpace = byte :: rest)
    (hitem : libpqAssignment (byte :: rest) = some item) (hknown : known item.keyword)
    (hoptions : libpqConninfo known item.stop = some options) :
    libpqConninfo known text = some (item :: options) := by
  rw [libpqConninfo_item hskip, hitem, Option.bind_some, if_pos hknown, hoptions]
  rfl

end Loop

/-! ## Where the readings part -/

/-- No unescaped vertical tab or form feed stands in the bare value at the front of a text. -/
def wideFree : List UInt8 → Bool
  | [] => true
  | byte :: rest =>
    if byte = 92 then
      match rest with
      | [] => true
      | _ :: rest => wideFree rest
    else if isScanBlank byte then true
    else !isSpace byte && wideFree rest

/-- A bare value is free of wide blanks byte by byte. -/
theorem wideFree_cons {byte : UInt8} (rest : List UInt8) (h : byte ≠ 92) :
    wideFree (byte :: rest) =
      if isScanBlank byte then true else !isSpace byte && wideFree rest := by
  cases rest <;> simp [wideFree, h]

/-- **A value that starts where its `=` ends**: no blank stands there, and where no quote does
either, the value holds no blank that only libpq knows. -/
def ValueTight (start : List UInt8) : Prop :=
  (∀ byte ∈ start.head?, ¬isScanBlank byte) ∧ (start.head? = some 39 ∨ wideFree start)

/-- **A string whose values are tight**, all along. -/
inductive Tight : List UInt8 → Prop
  | blank {text} (hskip : text.dropWhile isScanBlank = []) : Tight text
  | assign {text name start stop} (hskip : text.dropWhile isScanBlank = name ++ 61 :: start)
      (hname : ∀ byte ∈ name, isKeywordByte byte) (hvalue : ValueTight start)
      (hstop : scanValue start = some stop) (hrest : Tight stop) : Tight text

/-- What is blank to the scan is blank to libpq… -/
theorem isSpace_of_isScanBlank {byte : UInt8} (h : isScanBlank byte) : isSpace byte := by
  simp only [isScanBlank, Bool.or_eq_true, beq_iff_eq] at h
  obtain ((rfl | rfl) | rfl) | rfl := h <;> decide

/-- …and what is part of a keyword, part of a name. -/
theorem isNameByte_of_isKeywordByte {byte : UInt8} (h : isKeywordByte byte) : isNameByte byte :=
  byte_induction (P := fun byte => isKeywordByte byte → isNameByte byte) 256
    (by decide +kernel) byte byte.toNat_lt h

theorem not_isSpace_of_isKeywordByte {byte : UInt8} (h : isKeywordByte byte) : ¬isSpace byte := by
  have := isNameByte_of_isKeywordByte h
  simp only [isNameByte, Bool.and_eq_true, Bool.not_eq_true'] at this
  simp [this.2]

/-- The two ends of a bare value agree unless it holds a blank that only libpq knows. -/
theorem libpqBare_eq_iff {start stop : List UInt8} (h : scanBody false start = some stop) :
    libpqBare start = stop ↔ wideFree start := by
  fun_induction wideFree start with
  | case1 =>
    cases h
    simp [libpqBare]
  | case2 => cases h
  | case3 _ rest ih => simpa [libpqBare, isSpace] using ih h
  | case4 byte rest hescape hblank =>
    rw [scanBody_cons false rest hescape] at h
    rw [libpqBare_cons rest hescape, if_pos (isSpace_of_isScanBlank hblank)]
    simpa [hblank] using h
  | case5 byte rest hescape hblank ih =>
    rw [scanBody_cons false rest hescape] at h
    simp only [Bool.false_and, Bool.false_eq_true, if_false, Bool.not_false, Bool.true_and,
      hblank] at h
    rw [libpqBare_cons rest hescape]
    split
    · rename_i hwide
      have hlength := scanBody_length h
      refine iff_of_false ?_ (by simp [hwide])
      rintro rfl
      simp only [List.length_cons] at hlength
      omega
    · rename_i hnarrow
      simpa [hnarrow] using ih h

/-- The first assignment of a string, as both readers see its name. -/
structure Opens (text name start : List UInt8) : Prop where
  skip : text.dropWhile isScanBlank = name ++ 61 :: start
  bytes : ∀ byte ∈ name, isKeywordByte byte
  ne_nil : name ≠ []

section Opens

variable {text name start : List UInt8}

theorem dropWhile_eq_of_forall {p : UInt8 → Bool} (hname : ∀ byte ∈ name, p byte) (hstop : ¬p 61) :
    (name ++ 61 :: start).dropWhile p = 61 :: start := by
  rw [List.dropWhile_append_of_pos hname, List.dropWhile_cons_of_neg hstop]

theorem takeWhile_eq_of_forall {p : UInt8 → Bool} (hname : ∀ byte ∈ name, p byte) (hstop : ¬p 61) :
    (name ++ 61 :: start).takeWhile p = name := by
  rw [List.takeWhile_append_of_pos hname, List.takeWhile_cons_of_neg hstop, List.append_nil]

/-- Libpq skips the blanks of the pre-scan too, and stops where a name begins. -/
theorem dropWhile_isSpace {byte : UInt8} {rest : List UInt8}
    (hskip : text.dropWhile isScanBlank = byte :: rest) (hbyte : ¬isSpace byte) :
    text.dropWhile isSpace = byte :: rest := by
  conv_lhs => rw [← List.takeWhile_append_dropWhile (p := isScanBlank) (l := text)]
  rw [List.dropWhile_append_of_pos fun b hb => isSpace_of_isScanBlank (List.mem_takeWhile_imp hb),
    hskip, List.dropWhile_cons_of_neg hbyte]

/-- What libpq makes of an assignment the pre-scan went over. -/
theorem Opens.libpqConninfo_eq (h : Opens text name start) (known : List UInt8 → Bool) :
    libpqConninfo known text = (libpqValue (start.dropWhile isSpace)).bind fun stop =>
      if known name then (libpqConninfo known stop).map (⟨name, start.dropWhile isSpace, stop⟩ :: ·)
      else none := by
  obtain ⟨byte, rest, hcons⟩ := List.exists_cons_of_ne_nil h.ne_nil
  have hbyte := not_isSpace_of_isKeywordByte (h.bytes byte (hcons ▸ List.mem_cons_self))
  have hskip : text.dropWhile isSpace = byte :: (rest ++ 61 :: start) :=
    dropWhile_isSpace (by rw [h.skip, hcons, List.cons_append]) hbyte
  have hname : ∀ byte ∈ name, isNameByte byte := fun byte hbyte =>
    isNameByte_of_isKeywordByte (h.bytes byte hbyte)
  have hequals : ((name ++ 61 :: start).dropWhile isNameByte).dropWhile isSpace = 61 :: start := by
    rw [dropWhile_eq_of_forall hname (by decide), List.dropWhile_cons_of_neg (by decide)]
  rw [libpqConninfo_item hskip, ← List.cons_append, ← hcons, libpqAssignment_eq hequals,
    takeWhile_eq_of_forall hname (by decide), Option.bind_map]
  rfl

end Opens

/-- What the scan takes for an assignment opens like one. -/
theorem opens_of_scanAssignment {seen : List CredentialField} {text : List UInt8} {byte : UInt8}
    {rest : List UInt8} {field : CredentialField} {item : ConninfoItem}
    (hskip : text.dropWhile isScanBlank = byte :: rest)
    (hitem : scanAssignment seen (byte :: rest) = some (field, item)) :
    Opens text item.keyword item.start := by
  obtain ⟨hname, hdrop, hfind, -⟩ := scanAssignment_eq_some hitem
  constructor
  · rw [hskip, ← List.takeWhile_append_dropWhile (p := isKeywordByte) (l := byte :: rest), hdrop,
      hname]
  · exact fun b hb => List.mem_takeWhile_imp (hname ▸ hb)
  · intro hempty
    rw [hempty] at hfind
    cases hfind

/-- A value without a quote is bare to the scan… -/
theorem scanValue_bare {byte : UInt8} (rest : List UInt8) (h : byte ≠ 39) :
    scanValue (byte :: rest) = scanBody false (byte :: rest) := by
  unfold scanValue
  split
  · simp_all
  · rfl

/-- …and to libpq. -/
theorem libpqValue_bare {byte : UInt8} (rest : List UInt8) (h : byte ≠ 39) :
    libpqValue (byte :: rest) = some (libpqBare (byte :: rest)) := by
  unfold libpqValue
  split
  · simp_all
  · rfl

/-- A value behind a blank is not tight. -/
theorem not_valueTight_of_isSpace {byte : UInt8} {rest : List UInt8} (h : isSpace byte) :
    ¬ValueTight (byte :: rest) := by
  have hescape : byte ≠ 92 := by
    rintro rfl
    cases h
  have hquote : byte ≠ 39 := by
    rintro rfl
    cases h
  rintro ⟨hblank, hquoted | hwide⟩
  · exact hquote (by simpa using hquoted)
  · rw [wideFree_cons rest hescape, if_neg (hblank byte rfl)] at hwide
    simp [h] at hwide

/-- The value of an assignment is where the pre-scan puts it if and only if it is tight. -/
theorem span_eq_iff {start stop stop' : List UInt8} (hscan : scanValue start = some stop)
    (hlibpq : libpqValue (start.dropWhile isSpace) = some stop') :
    start.dropWhile isSpace = start ∧ stop' = stop ↔ ValueTight start := by
  cases start with
  | nil =>
    cases hscan
    cases hlibpq
    simp [ValueTight, wideFree, libpqBare]
  | cons byte rest =>
    by_cases hspace : isSpace byte
    · refine iff_of_false ?_ (not_valueTight_of_isSpace hspace)
      rintro ⟨hsame, -⟩
      have hlength := (List.dropWhile_suffix isSpace (l := rest)).length_le
      rw [List.dropWhile_cons_of_pos hspace] at hsame
      rw [hsame, List.length_cons] at hlength
      omega
    · rw [List.dropWhile_cons_of_neg hspace] at hlibpq ⊢
      have hblank : ∀ b ∈ (byte :: rest).head?, ¬isScanBlank b := by
        intro b hb hscan
        cases hb
        exact hspace (isSpace_of_isScanBlank hscan)
      by_cases hquote : byte = 39
      · subst hquote
        have hsame : stop' = stop := by
          rw [libpqValue, libpqQuoted_eq_scanBody] at hlibpq
          exact Option.some.inj (hlibpq.symm.trans hscan)
        exact iff_of_true ⟨rfl, hsame⟩ ⟨hblank, .inl rfl⟩
      · rw [scanValue_bare rest hquote] at hscan
        rw [libpqValue_bare rest hquote, Option.some.injEq] at hlibpq
        rw [← hlibpq, and_iff_right rfl, libpqBare_eq_iff hscan, ValueTight, and_iff_right hblank,
          List.head?_cons, Option.some.injEq, or_iff_right hquote]

/-- A text is tight if its first value is, and what is behind it. -/
theorem Tight.of_opens {text name start stop : List UInt8} (h : Opens text name start)
    (hscan : scanValue start = some stop) : Tight text ↔ ValueTight start ∧ Tight stop := by
  constructor
  · intro htight
    cases htight with
    | blank hskip =>
      have := h.skip
      simp [hskip] at this
    | @assign _ name' start' stop' hskip hname hvalue hstop hrest =>
      have hbytes : (name' ++ 61 :: start').dropWhile isKeywordByte =
          (name ++ 61 :: start).dropWhile isKeywordByte := by rw [← hskip, h.skip]
      rw [dropWhile_eq_of_forall hname (by decide), dropWhile_eq_of_forall h.bytes (by decide)]
        at hbytes
      cases hbytes
      cases hscan.symm.trans hstop
      exact ⟨hvalue, hrest⟩
  · exact fun ⟨hvalue, hrest⟩ => .assign h.skip h.bytes hvalue hscan hrest

/-- **The readings of a string agree if and only if its values are tight.**  The induction is along
the assignments of the pre-scan; where the first one parts, so do the lists. -/
theorem options_eq_iff (known : List UInt8 → Bool) {seen : List CredentialField} {text : List UInt8}
    {found : List ConninfoItem} (h : scanKeywordsFrom seen text = some found) :
    ∀ {options}, libpqConninfo known text = some options → (options = found ↔ Tight text) := by
  refine scanKeywordsFrom_induction (P := fun _ text found => ∀ {options},
    libpqConninfo known text = some options → (options = found ↔ Tight text)) ?_ ?_ h
  · intro seen text hskip options hoptions
    have hspace : text.dropWhile isSpace = [] := by
      rw [List.dropWhile_eq_nil_iff] at hskip ⊢
      exact fun byte hbyte => isSpace_of_isScanBlank (hskip byte hbyte)
    rw [libpqConninfo_blank hspace] at hoptions
    cases hoptions
    exact iff_of_true rfl (.blank hskip)
  · intro seen text byte rest field item found hskip hitem ih options hoptions
    have hopens := opens_of_scanAssignment hskip hitem
    obtain ⟨-, -, -, -, hvalue, -⟩ := scanAssignment_eq_some hitem
    rw [hopens.libpqConninfo_eq known] at hoptions
    obtain ⟨stop, hstop, hoptions⟩ := Option.bind_eq_some_iff.mp hoptions
    split_ifs at hoptions
    obtain ⟨tail, htail, rfl⟩ := Option.map_eq_some_iff.mp hoptions
    rw [Tight.of_opens hopens hvalue, ← span_eq_iff hvalue hstop]
    constructor
    · intro heq
      obtain ⟨hhead, rfl⟩ := List.cons.inj heq
      have hstart := congrArg ConninfoItem.start hhead
      obtain rfl : stop = item.stop := congrArg ConninfoItem.stop hhead
      exact ⟨⟨hstart, rfl⟩, (ih htail).mp rfl⟩
    · rintro ⟨⟨hstart, rfl⟩, hrest⟩
      rw [hstart, (ih htail).mpr hrest]

/-! ## The allow list -/

/-- Every keyword is on the allow list, none occurs twice. -/
def Allowed (items : List ConninfoItem) : Prop :=
  (∀ item ∈ items, (findKeyword item.keyword).isSome) ∧ (items.map (·.keyword)).Nodup

/-- The pre-scan takes a field that it has not seen, and each field once. -/
theorem allowed_of_scanKeywordsFrom {seen : List CredentialField} {text : List UInt8}
    {found : List ConninfoItem} (h : scanKeywordsFrom seen text = some found) :
    (∀ item ∈ found, ∃ field, findKeyword item.keyword = some field ∧ field ∉ seen) ∧
      (found.map (·.keyword)).Nodup := by
  refine scanKeywordsFrom_induction (P := fun seen _ found =>
    (∀ item ∈ found, ∃ field, findKeyword item.keyword = some field ∧ field ∉ seen) ∧
      (found.map (·.keyword)).Nodup) ?_ ?_ h
  · exact fun _ _ _ => ⟨by simp, List.nodup_nil⟩
  · rintro seen text byte rest field item found - hitem ⟨hlisted, hnodup⟩
    obtain ⟨-, -, hfind, hseen, -⟩ := scanAssignment_eq_some hitem
    constructor
    · rintro entry (_ | ⟨_, hentry⟩)
      · exact ⟨field, hfind, hseen⟩
      · obtain ⟨other, hother, hfresh⟩ := hlisted entry hentry
        exact ⟨other, hother, fun hmem => hfresh (List.mem_cons_of_mem _ hmem)⟩
    · rw [List.map_cons, List.nodup_cons]
      refine ⟨fun hmem => ?_, hnodup⟩
      obtain ⟨entry, hentry, hsame⟩ := List.mem_map.mp hmem
      obtain ⟨other, hother, hfresh⟩ := hlisted entry hentry
      rw [hsame, hfind] at hother
      cases hother
      exact hfresh List.mem_cons_self

/-- **The pre-scan against libpq**: of an accepted string that libpq does not refuse, libpq reads
the assignments the pre-scan checked — and with them only listed keywords, each once — if and only
if every value starts where its `=` ends. -/
theorem conninfo_agrees_iff (known : List UInt8 → Bool) {text : List UInt8}
    {found : List ConninfoItem} (hscan : scanKeywords text = some found) :
    (∀ options, libpqConninfo known text = some options → options = found ∧ Allowed options) ↔
      (libpqConninfo known text = none ∨ Tight text) := by
  obtain ⟨hfrom, -⟩ := Option.filter_eq_some_iff.mp hscan
  cases hlibpq : libpqConninfo known text with
  | none => simp
  | some options =>
    have hiff := options_eq_iff known hfrom hlibpq
    constructor
    · intro hagrees
      exact .inr (hiff.mp (hagrees options rfl).1)
    · rintro (hnone | htight) _ ⟨⟩
      · cases hnone
      · obtain rfl := hiff.mpr htight
        obtain ⟨hlisted, hnodup⟩ := allowed_of_scanKeywordsFrom hfrom
        refine ⟨rfl, fun item hitem => ?_, hnodup⟩
        obtain ⟨field, hfind, -⟩ := hlisted item hitem
        rw [hfind]
        rfl

/-- The parameter names of libpq that the strings below use. -/
def someParameters (name : List UInt8) : Bool :=
  [ascii "host", ascii "user", ascii "options"].contains name

/-- `host=a user='b c'` -/
def tightText : List UInt8 := ascii "host=a user='b c'"

theorem scanKeywords_tightText : scanKeywords tightText =
    some [⟨ascii "host", ascii "a user='b c'", ascii " user='b c'"⟩,
      ⟨ascii "user", ascii "'b c'", []⟩] := by
  have hskip : tightText.dropWhile isScanBlank = 104 :: ascii "ost=a user='b c'" := by decide
  have hhost : scanAssignment [] (104 :: ascii "ost=a user='b c'") =
      some (.hosts, ⟨ascii "host", ascii "a user='b c'", ascii " user='b c'"⟩) := by decide +kernel
  have hnext : (ascii " user='b c'").dropWhile isScanBlank = 117 :: ascii "ser='b c'" := by decide
  have huser : scanAssignment [.hosts] (117 :: ascii "ser='b c'") =
      some (.user, ⟨ascii "user", ascii "'b c'", []⟩) := by decide +kernel
  have hrest := scanKeywordsFrom_item hnext huser (scanKeywordsFrom_blank List.dropWhile_nil)
  exact Option.filter_eq_some_iff.mpr ⟨scanKeywordsFrom_item hskip hhost hrest, by simp⟩

theorem tight_tightText : Tight tightText := by
  have hbare : ValueTight (ascii "a user='b c'") := ⟨by decide +kernel, .inr (by decide +kernel)⟩
  have hquoted : ValueTight (ascii "'b c'") := ⟨by decide +kernel, .inl (by decide +kernel)⟩
  have hstop : scanValue (ascii "'b c'") = some [] := by decide +kernel
  have hstop' : scanValue (ascii "a user='b c'") = some (ascii " user='b c'") := by
    decide +kernel
  have hskip :
    (ascii " user='b c'").dropWhile isScanBlank = ascii "user" ++ 61 :: ascii "'b c'" := by
    decide
  have hskip' : tightText.dropWhile isScanBlank =
      ascii "host" ++ 61 :: ascii "a user='b c'" := by decide
  refine .assign hskip' (by decide +kernel) hbare hstop' ?_
  exact .assign hskip (by decide +kernel) hquoted hstop (.blank (by decide +kernel))

theorem conninfo_agrees_tightText : (scanKeywords tightText).isSome ∧
    ∀ options, libpqConninfo someParameters tightText = some options → Allowed options := by
  refine ⟨by rw [scanKeywords_tightText]; rfl, fun options hoptions => ?_⟩
  exact ((conninfo_agrees_iff someParameters scanKeywords_tightText).mpr (.inr tight_tightText)
    options hoptions).2

/-- `user= host='x options=y'` -/
def looseText : List UInt8 := ascii "user= host='x options=y'"

/-- The pre-scan reads an empty `user` and a quoted `host`; libpq reads a `user` up to the blank
inside the quotes, and behind it a keyword that is on no list. -/
theorem conninfo_disagrees : ∃ found options item, scanKeywords looseText = some found ∧
    libpqConninfo someParameters looseText = some options ∧ options ≠ found ∧ item ∈ options ∧
      item.keyword = ascii "options" ∧ findKeyword item.keyword = none := by
  have hskip : looseText.dropWhile isScanBlank = 117 :: ascii "ser= host='x options=y'" := by decide
  have huser : scanAssignment [] (117 :: ascii "ser= host='x options=y'") =
      some (.user, ⟨ascii "user", ascii " host='x options=y'", ascii " host='x options=y'"⟩) := by
    decide +kernel
  have hnext : (ascii " host='x options=y'").dropWhile isScanBlank =
      104 :: ascii "ost='x options=y'" := by decide
  have hhost : scanAssignment [.user] (104 :: ascii "ost='x options=y'") =
      some (.hosts, ⟨ascii "host", ascii "'x options=y'", []⟩) := by decide +kernel
  have hscan : scanKeywords looseText =
      some [⟨ascii "user", ascii " host='x options=y'", ascii " host='x options=y'"⟩,
        ⟨ascii "host", ascii "'x options=y'", []⟩] := by
    have hrest := scanKeywordsFrom_item hnext hhost (scanKeywordsFrom_blank List.dropWhile_nil)
    exact Option.filter_eq_some_iff.mpr ⟨scanKeywordsFrom_item hskip huser hrest, by simp⟩
  have hfront : looseText.dropWhile isSpace = 117 :: ascii "ser= host='x options=y'" := by decide
  have hbehind : (ascii " options=y'").dropWhile isSpace = 111 :: ascii "ptions=y'" := by decide
  have hfirst : libpqAssignment (117 :: ascii "ser= host='x options=y'") =
      some ⟨ascii "user", ascii "host='x options=y'", ascii " options=y'"⟩ := by decide +kernel
  have hsecond : libpqAssignment (111 :: ascii "ptions=y'") =
      some ⟨ascii "options", ascii "y'", []⟩ := by decide +kernel
  have hlibpq : libpqConninfo someParameters looseText =
      some [⟨ascii "user", ascii "host='x options=y'", ascii " options=y'"⟩,
        ⟨ascii "options", ascii "y'", []⟩] := by
    have hend : libpqConninfo someParameters [] = some [] := libpqConninfo_blank List.dropWhile_nil
    have hrest := libpqConninfo_cons hbehind hsecond (by decide) hend
    exact libpqConninfo_cons hfront hfirst (by decide) hrest
  exact ⟨_, _, _, hscan, hlibpq, by decide, List.mem_cons_of_mem _ List.mem_cons_self, rfl,
    by decide⟩

end Vps
