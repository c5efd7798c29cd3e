import VirtualPostgreSQL.Dml.Legible
import VirtualPostgreSQL.Identity.SearchPath
import VirtualPostgreSQL.Machinery.Lists

/-!
# Session/SearchPath — the search paths that a session accepts

`vps_session_search_path_valid` cuts the path at the commas outside of quotes and checks the items
one by one.  What it accepts is a grammar, and PostgreSQL's own reader finds the names of the
grammar in it.
-/

namespace Vps

open Machinery

/-! ## The check -/

/-- `VPS_SESSION_SEARCH_PATH_LIMIT` -/
def sessionSearchPathLimit : ℕ := 4096

/-- `vps_session_text_is_bounded` -/
def sessionTextIsBounded (value : List UInt8) (limit : ℕ) : Bool :=
  value.length != 0 && decide (value.length ≤ limit) && !value.contains 0 &&
    !value.any isControl

/-- `vps_session_unquoted_identifier_valid` -/
def sessionUnquotedIdentifierValid : List UInt8 → Bool
  | [] => false
  | first :: rest =>
    decide (rest.length + 1 ≤ 63) && (isAlpha first || first == 95) &&
      rest.all fun current => isAlnum current || current == 95 || current == 36

/-- The loop of `vps_session_quoted_identifier_valid` over what stands between the quotes. -/
def sessionQuotedLoop : ℕ → List UInt8 → Bool
  | decodedLength, [] => decodedLength != 0
  | decodedLength, current :: value =>
    if current = 34 then
      match value with
      | 34 :: value =>
        decide (decodedLength + 1 ≤ 63) && sessionQuotedLoop (decodedLength + 1) value
      | _ => false
    else !isControl current && decide (decodedLength + 1 ≤ 63) &&
      sessionQuotedLoop (decodedLength + 1) value

/-- `vps_session_quoted_identifier_valid` -/
def sessionQuotedIdentifierValid (value : List UInt8) : Bool :=
  decide (3 ≤ value.length) && value.head? == some 34 && value.getLast? == some 34 &&
    sessionQuotedLoop 0 value.tail.dropLast

/-- An item of the path, without the blanks around it. -/
def sessionItemValid (item : List UInt8) : Bool :=
  match trim isBlank item with
  | [] => false
  | first :: rest =>
    if first = 34 then sessionQuotedIdentifierValid (first :: rest)
    else sessionUnquotedIdentifierValid (first :: rest)

/-- The loops of `vps_session_search_path_valid`; `item` has been read since the last comma. -/
def sessionSearchPathLoop : Bool → List UInt8 → List UInt8 → Bool
  | quoted, item, [] => !quoted && sessionItemValid item
  | quoted, item, current :: value =>
    if current = 34 then
      match quoted, value with
      | true, 34 :: value => sessionSearchPathLoop true (item ++ [34, 34]) value
      | _, value => sessionSearchPathLoop (!quoted) (item ++ [34]) value
    else if current = 44 ∧ quoted = false then
      sessionItemValid item && sessionSearchPathLoop false [] value
    else sessionSearchPathLoop quoted (item ++ [current]) value

/-- `vps_session_search_path_valid` -/
def sessionSearchPathValid (value : List UInt8) : Bool :=
  sessionTextIsBounded value sessionSearchPathLimit && sessionSearchPathLoop false [] value

/-! ## The grammar -/

/-- The names of a search path. -/
inductive SearchPathName
  | unquoted (name : List UInt8)
  | quoted (name : List UInt8)
  deriving DecidableEq, Repr

namespace SearchPathName

/-- `[A-Za-z_][A-Za-z0-9_$]*` of at most 63 bytes, or 1 to 63 bytes in quotes. -/
def Valid : SearchPathName → Prop
  | unquoted name => ∃ first rest, name = first :: rest ∧ rest.length + 1 ≤ 63 ∧
      (isAlpha first ∨ first = 95) ∧ ∀ byte ∈ rest, isAlnum byte ∨ byte = 95 ∨ byte = 36
  | quoted name => 1 ≤ name.length ∧ name.length ≤ 63

/-- A name as it is written. -/
def text : SearchPathName → List UInt8
  | unquoted name => name
  | quoted name => quoteIdentifier name

/-- A name as PostgreSQL reads it. -/
def read : SearchPathName → List UInt8
  | unquoted name => name.map toLower
  | quoted name => name

end SearchPathName

/-- An item of a search path: a name between spaces. -/
structure SearchPathItem where
  before : ℕ
  name : SearchPathName
  behind : ℕ
  deriving DecidableEq, Repr

/-- An item as it is written. -/
def SearchPathItem.text (item : SearchPathItem) : List UInt8 :=
  List.replicate item.before 32 ++ item.name.text ++ List.replicate item.behind 32

/-- A path as it is written. -/
def searchPathText (items : List SearchPathItem) : List UInt8 :=
  [44].intercalate (items.map SearchPathItem.text)

/-! ## The names in the path -/

section Names

theorem doubled_quote (name : List UInt8) : doubled (34 :: name) = 34 :: 34 :: doubled name := rfl

theorem doubled_cons {byte : UInt8} (hbyte : byte ≠ 34) (name : List UInt8) :
    doubled (byte :: name) = byte :: doubled name := by
  simp [doubled, hbyte]

theorem quoteIdentifier_eq (name : List UInt8) :
    quoteIdentifier name = 34 :: (doubled name ++ [34]) := rfl

theorem doubled_eq_nil {name : List UInt8} (h : [] = doubled name) : name = [] := by
  cases name with
  | nil => rfl
  | cons byte name =>
    by_cases hbyte : byte = 34
    · rw [hbyte, doubled_quote] at h
      cases h
    · rw [doubled_cons hbyte] at h
      cases h

/-- The first byte of a name with its quotes doubled. -/
theorem doubled_eq_cons {current : UInt8} {value name : List UInt8}
    (h : current :: value = doubled name) :
    ∃ rest, name = current :: rest ∧
      if current = 34 then value = 34 :: doubled rest else value = doubled rest := by
  cases name with
  | nil => cases h
  | cons byte rest =>
    by_cases hbyte : byte = 34
    · rw [hbyte, doubled_quote] at h
      cases h
      exact ⟨rest, congrArg (· :: rest) hbyte, rfl⟩
    · rw [doubled_cons hbyte] at h
      cases h
      exact ⟨rest, rfl, (if_neg hbyte).symm ▸ rfl⟩

/-- What stands between the quotes is a name with its quotes doubled. -/
theorem sessionQuotedLoop_iff {value : List UInt8}
    (hcontrol : ∀ byte ∈ value, isControl byte = false)
    {decodedLength : ℕ} (hlength : decodedLength ≤ 63) :
    sessionQuotedLoop decodedLength value ↔
      ∃ name, value = doubled name ∧ 1 ≤ decodedLength + name.length ∧
        decodedLength + name.length ≤ 63 := by
  fun_induction sessionQuotedLoop decodedLength value with
  | case1 decodedLength =>
    rw [bne_iff_ne]
    constructor
    · exact fun h => ⟨[], rfl, Nat.one_le_iff_ne_zero.mpr h, hlength⟩
    · rintro ⟨name, hname, hpos, -⟩
      rw [doubled_eq_nil hname] at hpos
      exact Nat.one_le_iff_ne_zero.mp hpos
  | case2 decodedLength value ih =>
    rw [Bool.and_eq_true, decide_eq_true_eq]
    constructor
    · rintro ⟨hroom, h⟩
      obtain ⟨name, rfl, hpos, hmax⟩ :=
        (ih (fun byte hbyte => hcontrol byte (by simp [hbyte])) hroom).mp h
      exact ⟨34 :: name, (doubled_quote name).symm, by simp; omega, by simp; omega⟩
    · rintro ⟨name, hname, hpos, hmax⟩
      obtain ⟨rest, rfl, hrest⟩ := doubled_eq_cons hname
      rw [if_pos rfl] at hrest
      cases hrest
      simp only [List.length_cons] at hpos hmax
      exact ⟨by omega, (ih (fun byte hbyte => hcontrol byte (by simp [hbyte])) (by omega)).mpr
        ⟨rest, rfl, by omega, by omega⟩⟩
  | case3 decodedLength value hvalue =>
    refine ⟨fun h => absurd h Bool.false_ne_true, ?_⟩
    rintro ⟨name, hname, -, -⟩
    obtain ⟨rest, rfl, hrest⟩ := doubled_eq_cons hname
    rw [if_pos rfl] at hrest
    exact absurd hrest (hvalue _)
  | case4 decodedLength current value hcurrent ih =>
    have hvalue : ∀ byte ∈ value, isControl byte = false := fun byte hbyte =>
      hcontrol byte (List.mem_cons_of_mem _ hbyte)
    rw [hcontrol current List.mem_cons_self, Bool.not_false, Bool.true_and, Bool.and_eq_true,
      decide_eq_true_eq]
    constructor
    · rintro ⟨hroom, h⟩
      obtain ⟨name, rfl, hpos, hmax⟩ := (ih hvalue hroom).mp h
      exact ⟨current :: name, (doubled_cons hcurrent name).symm, by simp; omega, by simp; omega⟩
    · rintro ⟨name, hname, hpos, hmax⟩
      obtain ⟨rest, rfl, hrest⟩ := doubled_eq_cons hname
      rw [if_neg hcurrent] at hrest
      simp only [List.length_cons] at hpos hmax
      exact ⟨by omega, (ih hvalue (by omega)).mpr ⟨rest, hrest, by omega, by omega⟩⟩

theorem sessionQuotedIdentifierValid_iff {value : List UInt8}
    (hcontrol : ∀ byte ∈ value, isControl byte = false) :
    sessionQuotedIdentifierValid value ↔ ∃ name, (SearchPathName.quoted name).Valid ∧
      value = (SearchPathName.quoted name).text := by
  simp only [sessionQuotedIdentifierValid, Bool.and_eq_true, decide_eq_true_eq, beq_iff_eq,
    SearchPathName.text, quoteIdentifier_eq]
  constructor
  · rintro ⟨⟨⟨hlength, hhead⟩, hlast⟩, hloop⟩
    cases value with
    | nil => cases hhead
    | cons first inner =>
      cases hhead
      have hne : inner ≠ [] := fun hnil => by simp [hnil] at hlength
      rw [List.getLast?_cons_of_ne_nil hne, List.getLast?_eq_some_getLast hne] at hlast
      have hinner : inner = inner.dropLast ++ [34] := by
        conv_lhs => rw [← List.dropLast_append_getLast hne, Option.some.inj hlast]
      obtain ⟨name, hname, hpos, hmax⟩ := (sessionQuotedLoop_iff (fun byte hbyte =>
        hcontrol byte (List.mem_cons_of_mem _ (List.dropLast_subset _ hbyte))) (by omega)).mp hloop
      rw [Nat.zero_add] at hpos hmax
      exact ⟨name, ⟨hpos, hmax⟩, congrArg (34 :: ·) (hname ▸ hinner)⟩
  · rintro ⟨name, ⟨hpos, hmax⟩, rfl⟩
    have hne : doubled name ≠ [] := fun hnil => by
      rw [doubled_eq_nil hnil.symm] at hpos
      exact absurd hpos (by decide)
    have hlength := List.length_pos_iff.mpr hne
    refine ⟨⟨⟨by simp; omega, rfl⟩, by simp [List.getLast?_cons]⟩, ?_⟩
    rw [List.tail_cons, List.dropLast_concat]
    exact (sessionQuotedLoop_iff (fun byte hbyte => hcontrol byte (by simp [hbyte])) (by omega)).mpr
      ⟨name, rfl, by omega, by omega⟩

theorem sessionUnquotedIdentifierValid_iff {value : List UInt8} :
    sessionUnquotedIdentifierValid value ↔ (SearchPathName.unquoted value).Valid := by
  cases value with
  | nil => simp [sessionUnquotedIdentifierValid, SearchPathName.Valid]
  | cons first rest =>
    simp [sessionUnquotedIdentifierValid, SearchPathName.Valid, and_assoc, or_assoc]

theorem plain_of_letter (byte : UInt8) : isAlnum byte ∨ byte = 95 ∨ byte = 36 →
    isBlank byte = false ∧ isSpace byte = false ∧ byte ≠ 34 ∧ byte ≠ 44 :=
  byte_induction (P := fun byte => isAlnum byte ∨ byte = 95 ∨ byte = 36 →
    isBlank byte = false ∧ isSpace byte = false ∧ byte ≠ 34 ∧ byte ≠ 44) 256
      (by decide +kernel) byte
    byte.toNat_lt

/-- The bytes of an unquoted name are not those that a path is cut and trimmed at. -/
theorem plain_of_valid {name : List UInt8} (h : (SearchPathName.unquoted name).Valid) :
    ∀ byte ∈ name, isBlank byte = false ∧ isSpace byte = false ∧ byte ≠ 34 ∧ byte ≠ 44 := by
  obtain ⟨first, rest, rfl, -, hfirst, hrest⟩ := h
  intro byte hmem
  rcases List.mem_cons.mp hmem with rfl | hmem
  · refine plain_of_letter byte (hfirst.imp (fun h => ?_) .inl)
    rw [isAlnum, h, Bool.true_or]
  · exact plain_of_letter byte (hrest byte hmem)

/-- The blanks around a name are trimmed, and nothing else. -/
theorem trim_text {item : SearchPathItem} (h : item.name.Valid) :
    trim isBlank item.text = item.name.text := by
  have hspaces : ∀ n : ℕ, ∀ byte ∈ List.replicate n (32 : UInt8), isBlank byte :=
    fun n byte hbyte =>
    (List.eq_of_mem_replicate hbyte) ▸ rfl
  rw [SearchPathItem.text, trim_append_right (hspaces _), trim_append_left (hspaces _)]
  cases hname : item.name with
  | quoted name => exact trim_cons_append (by decide) (by decide)
  | unquoted name =>
    rw [hname] at h
    have hplain := fun byte hbyte => (plain_of_valid h byte hbyte).1
    have hdrop : name.dropWhile isBlank = name := by
      cases name with
      | nil => rfl
      | cons first rest => exact List.dropWhile_cons_of_neg (by simp [hplain])
    rw [SearchPathName.text, trim, hdrop]
    refine List.rdropWhile_eq_self_iff.mpr fun hne => ?_
    simp [hplain _ (List.getLast_mem hne)]

/-- An item is checked after the grammar. -/
theorem sessionItemValid_iff {value : List UInt8}
    (hcontrol : ∀ byte ∈ value, isControl byte = false) :
    sessionItemValid value ↔ ∃ item : SearchPathItem, item.name.Valid ∧ value = item.text := by
  have hcore : ∀ byte ∈ trim isBlank value, isControl byte = false := fun byte hbyte =>
    hcontrol byte (mem_of_mem_trim _ hbyte)
  have hspaces : ∀ margin : List UInt8, (∀ byte ∈ margin, isBlank byte) → margin ⊆ value →
      margin = List.replicate margin.length 32 := by
    intro margin hblank hsub
    refine List.eq_replicate_of_mem fun byte hbyte => ?_
    have hbyteBlank := hblank byte hbyte
    have hbyteControl := hcontrol byte (hsub hbyte)
    simp only [isBlank, Bool.or_eq_true, beq_iff_eq] at hbyteBlank
    rcases hbyteBlank with rfl | rfl
    · rfl
    · exact absurd hbyteControl (by decide)
  constructor
  · intro h
    obtain ⟨name, hname, htext⟩ : ∃ name : SearchPathName, name.Valid ∧
        trim isBlank value = name.text := by
      rw [sessionItemValid] at h
      cases htrim : trim isBlank value with
      | nil =>
        rw [htrim] at h
        exact absurd h Bool.false_ne_true
      | cons first rest =>
        rw [htrim] at h hcore
        dsimp only at h
        split at h
        · obtain ⟨name, hname⟩ := (sessionQuotedIdentifierValid_iff hcore).mp h
          exact ⟨.quoted name, hname⟩
        · exact ⟨.unquoted (first :: rest), sessionUnquotedIdentifierValid_iff.mp h, rfl⟩
    have hvalue := margins_fst_append_trim isBlank value
    refine ⟨⟨(margins isBlank value).1.length, name, (margins isBlank value).2.length⟩, hname, ?_⟩
    rw [SearchPathItem.text, ← htext,
      ← hspaces _ (fun _ => mem_margins_fst _) (fun byte hbyte => hvalue ▸ by simp [hbyte]),
      ← hspaces _ (fun _ => mem_margins_snd _) (fun byte hbyte => hvalue ▸ by simp [hbyte]), hvalue]
  · rintro ⟨item, hitem, rfl⟩
    rw [trim_text hitem] at hcore
    rw [sessionItemValid, trim_text hitem]
    cases hname : item.name with
    | quoted name =>
      rw [hname] at hcore hitem
      exact (sessionQuotedIdentifierValid_iff hcore).mpr ⟨name, hitem, rfl⟩
    | unquoted name =>
      rw [hname] at hitem
      have hplain := plain_of_valid hitem
      cases name with
      | nil => exact sessionUnquotedIdentifierValid_iff.mpr hitem
      | cons first rest =>
        rw [SearchPathName.text]
        dsimp only
        rw [if_neg (hplain first List.mem_cons_self).2.2.1]
        exact sessionUnquotedIdentifierValid_iff.mpr hitem

end Names

/-! ## The items of the path -/

/-- What the loop accepts are checked items between commas. -/
theorem items_of_loop {quoted : Bool} {item value : List UInt8}
    (h : sessionSearchPathLoop quoted item value) :
    ∃ parts, parts ≠ [] ∧ (∀ part ∈ parts, sessionItemValid part) ∧
      item ++ value = [44].intercalate parts := by
  fun_induction sessionSearchPathLoop quoted item value with
  | case1 quoted item =>
    exact ⟨[item], List.cons_ne_nil _ _, by simpa using (Bool.and_eq_true _ _ ▸ h).2, by simp⟩
  | case2 item value ih =>
    obtain ⟨parts, hne, hvalid, heq⟩ := ih h
    exact ⟨parts, hne, hvalid, by simpa using heq⟩
  | case3 quoted item value hvalue ih =>
    obtain ⟨parts, hne, hvalid, heq⟩ := ih h
    exact ⟨parts, hne, hvalid, by simpa using heq⟩
  | case4 quoted item current value hcurrent hcomma ih =>
    rw [Bool.and_eq_true] at h
    obtain ⟨parts, hne, hvalid, heq⟩ := ih h.2
    refine ⟨item :: parts, List.cons_ne_nil _ _, ?_, ?_⟩
    · exact List.forall_mem_cons.mpr ⟨h.1, hvalid⟩
    · cases parts with
      | nil => exact absurd rfl hne
      | cons part parts =>
        rw [List.intercalate_cons_cons, ← heq, hcomma.1]
        simp
  | case5 quoted item current value hcurrent hcomma ih =>
    obtain ⟨parts, hne, hvalid, heq⟩ := ih h
    exact ⟨parts, hne, hvalid, by simpa using heq⟩

section Step

variable {quoted : Bool} {item value : List UInt8} {current : UInt8}

theorem loop_byte (hquote : current ≠ 34) (hcomma : ¬(current = 44 ∧ quoted = false)) :
    sessionSearchPathLoop quoted item (current :: value) =
      sessionSearchPathLoop quoted (item ++ [current]) value := by
  rw [sessionSearchPathLoop.eq_def]
  simp only [if_neg hquote, if_neg hcomma]

theorem loop_comma :
    sessionSearchPathLoop false item (44 :: value) =
      (sessionItemValid item && sessionSearchPathLoop false [] value) := by
  rw [sessionSearchPathLoop.eq_def]
  rfl

/-- A quote that is not doubled inside of a quoted name. -/
theorem loop_quote (h : quoted = true → value.head? ≠ some 34) :
    sessionSearchPathLoop quoted item (34 :: value) =
      sessionSearchPathLoop (!quoted) (item ++ [34]) value := by
  rw [sessionSearchPathLoop.eq_def]
  simp only [if_true]
  split
  next => exact absurd rfl (h rfl)
  next => rfl

end Step

/-- Bytes that are neither quote nor comma are read into the item. -/
theorem loop_plain {text : List UInt8} (htext : ∀ byte ∈ text, byte ≠ 34 ∧ byte ≠ 44)
    (item rest : List UInt8) :
    sessionSearchPathLoop false item (text ++ rest) =
      sessionSearchPathLoop false (item ++ text) rest := by
  induction text generalizing item with
  | nil => rw [List.nil_append, List.append_nil]
  | cons byte text ih =>
    obtain ⟨⟨hquote, hcomma⟩, htext⟩ := List.forall_mem_cons.mp htext
    rw [List.cons_append, loop_byte hquote fun h => hcomma h.1, ih htext]
    simp

/-- A quoted name is read up to the quote that ends it. -/
theorem loop_quoted (name item rest : List UInt8) (hrest : rest.head? ≠ some 34) :
    sessionSearchPathLoop true item (doubled name ++ 34 :: rest) =
      sessionSearchPathLoop false (item ++ (doubled name ++ [34])) rest := by
  induction name generalizing item with
  | nil =>
    exact loop_quote fun _ => hrest
  | cons byte name ih =>
    by_cases hbyte : byte = 34
    · rw [hbyte, doubled_quote]
      have hstep : sessionSearchPathLoop true item (34 :: 34 :: doubled name ++ 34 :: rest) =
          sessionSearchPathLoop true (item ++ [34, 34]) (doubled name ++ 34 :: rest) := rfl
      rw [hstep, ih]
      simp
    · rw [doubled_cons hbyte, List.cons_append, loop_byte hbyte fun h => Bool.noConfusion h.2, ih]
      simp

theorem spaces_plain (n : ℕ) : ∀ byte ∈ List.replicate n (32 : UInt8), byte ≠ 34 ∧ byte ≠ 44 :=
  fun _ hbyte => (List.eq_of_mem_replicate hbyte).symm ▸ ⟨by decide, by decide⟩

/-- An item is read up to the comma behind it. -/
theorem loop_item {item : SearchPathItem} (h : item.name.Valid) (rest : List UInt8)
    (hrest : rest.head? ≠ some 34) :
    sessionSearchPathLoop false [] (item.text ++ rest) =
      sessionSearchPathLoop false item.text rest := by
  have hbehind : (List.replicate item.behind 32 ++ rest).head? ≠ some 34 := by
    cases item.behind with
    | zero => exact hrest
    | succ n => exact fun h => absurd (Option.some.inj h) (by decide)
  have hname : ∀ before : List UInt8,
      sessionSearchPathLoop false before
          (item.name.text ++ (List.replicate item.behind 32 ++ rest)) =
        sessionSearchPathLoop false (before ++ item.name.text)
          (List.replicate item.behind 32 ++ rest) := by
    intro before
    cases hitem : item.name with
    | unquoted name =>
      rw [hitem] at h
      exact loop_plain (fun byte hbyte => (plain_of_valid h byte hbyte).2.2) _ _
    | quoted name =>
      rw [SearchPathName.text, quoteIdentifier_eq]
      have hopen : sessionSearchPathLoop false before
          (34 :: (doubled name ++ [34]) ++ (List.replicate item.behind 32 ++ rest)) =
          sessionSearchPathLoop true (before ++ [34])
            (doubled name ++ 34 :: (List.replicate item.behind 32 ++ rest)) := by
        rw [List.cons_append, loop_quote fun h => Bool.noConfusion h]
        simp
      rw [hopen, loop_quoted name _ _ hbehind]
      simp
  rw [SearchPathItem.text, List.append_assoc, List.append_assoc, loop_plain (spaces_plain _), hname,
    loop_plain (spaces_plain _)]
  simp

/-- A path after the grammar is accepted. -/
theorem loop_searchPathText {items : List SearchPathItem} (hne : items ≠ [])
    (hvalid : ∀ item ∈ items, item.name.Valid)
    (hcontrol : ∀ item ∈ items, ∀ byte ∈ item.text, isControl byte = false) :
    sessionSearchPathLoop false [] (searchPathText items) := by
  induction items with
  | nil => exact absurd rfl hne
  | cons item items ih =>
    obtain ⟨hitem, hvalid⟩ := List.forall_mem_cons.mp hvalid
    obtain ⟨hbytes, hcontrol⟩ := List.forall_mem_cons.mp hcontrol
    have hchecked : sessionItemValid item.text :=
      (sessionItemValid_iff hbytes).mpr ⟨item, hitem, rfl⟩
    cases items with
    | nil =>
      have hlast := loop_item hitem [] (by simp)
      rw [List.append_nil] at hlast
      rw [searchPathText, List.map_singleton, List.intercalate_singleton, hlast,
        sessionSearchPathLoop, hchecked]
      rfl
    | cons next items =>
      have hsplit : searchPathText (item :: next :: items) =
          item.text ++ 44 :: searchPathText (next :: items) := by
        simp [searchPathText, List.intercalate_cons_cons]
      rw [hsplit, loop_item hitem _ (by simp), loop_comma, hchecked, Bool.true_and]
      exact ih (List.cons_ne_nil _ _) hvalid hcontrol

/-! ## The names that PostgreSQL reads -/

theorem foldlM_splitStep_unquoted {text : List UInt8}
    (htext : ∀ byte ∈ text, isSpace byte = false ∧ byte ≠ 44) (names : List (List UInt8))
    (name : List UInt8) :
    text.foldlM splitStep ⟨names, .unquoted name⟩ =
      some ⟨names, .unquoted (name ++ text.map toLower)⟩ := by
  induction text generalizing name with
  | nil => simp
  | cons byte text ih =>
    obtain ⟨⟨hspace, hcomma⟩, htext⟩ := List.forall_mem_cons.mp htext
    have hstep : splitStep ⟨names, .unquoted name⟩ byte =
        some ⟨names, .unquoted (name ++ [toLower byte])⟩ := by
      simp [splitStep, hspace, hcomma]
    rw [List.foldlM_cons, hstep, Option.bind_eq_bind, Option.bind_some, ih htext]
    simp

theorem foldlM_splitStep_quoted (name : List UInt8) (names : List (List UInt8))
    (read : List UInt8) :
    (doubled name).foldlM splitStep ⟨names, .quoted read⟩ =
      some ⟨names, .quoted (read ++ name)⟩ := by
  induction name generalizing read with
  | nil => simp [doubled]
  | cons byte name ih =>
    by_cases hbyte : byte = 34
    · have htwice : (doubled (byte :: name)).foldlM splitStep ⟨names, .quoted read⟩ =
          (doubled name).foldlM splitStep ⟨names, .quoted (read ++ [34])⟩ := by
        rw [hbyte, doubled_quote]
        rfl
      rw [htwice, ih, hbyte]
      simp
    · have hstep :
        splitStep ⟨names, .quoted read⟩ byte = some ⟨names, .quoted (read ++ [byte])⟩ := by
        simp [splitStep, hbyte]
      rw [doubled_cons hbyte, List.foldlM_cons, hstep, Option.bind_eq_bind, Option.bind_some, ih]
      simp

/-- The reader stands behind a name. -/
theorem foldlM_splitStep_name {name : SearchPathName} (h : name.Valid) (names : List (List UInt8)) :
    ∃ mode, (mode = .unquoted name.read ∨ mode = .quoteEnd name.read) ∧
      name.text.foldlM splitStep ⟨names, .start⟩ = some ⟨names, mode⟩ := by
  cases name with
  | unquoted name =>
    have hplain := plain_of_valid h
    obtain ⟨first, rest, rfl, -, -, -⟩ := h
    obtain ⟨⟨-, hspace, hquote, hcomma⟩, hrest⟩ := List.forall_mem_cons.mp hplain
    refine ⟨_, .inl rfl, ?_⟩
    have hstep : splitStep ⟨names, .start⟩ first = some ⟨names, .unquoted [toLower first]⟩ := by
      simp [splitStep, hspace, hquote, hcomma]
    rw [SearchPathName.text, List.foldlM_cons, hstep, Option.bind_eq_bind, Option.bind_some,
      foldlM_splitStep_unquoted fun byte hbyte =>
        ⟨(hrest byte hbyte).2.1, (hrest byte hbyte).2.2.2⟩]
    rfl
  | quoted name =>
    refine ⟨_, .inr rfl, ?_⟩
    have hstep : splitStep ⟨names, .start⟩ 34 = some ⟨names, .quoted []⟩ := rfl
    rw [SearchPathName.text, quoteIdentifier_eq, List.foldlM_cons, hstep, Option.bind_eq_bind,
      Option.bind_some, List.foldlM_append, foldlM_splitStep_quoted]
    rfl

theorem blank_spaces (n : ℕ) : Blank (List.replicate n 32) := fun _ hbyte =>
  (List.eq_of_mem_replicate hbyte) ▸ rfl

/-- The reader stands behind an item, but for the spaces that end it. -/
theorem splitFrom_item {item : SearchPathItem} (h : item.name.Valid) (names : List (List UInt8)) :
    ∃ mode, (mode = .unquoted item.name.read ∨ mode = .quoteEnd item.name.read) ∧
      ∀ rest, splitFrom ⟨names, .start⟩ (item.text ++ rest) =
        splitFrom ⟨names, mode⟩ (List.replicate item.behind 32 ++ rest) := by
  obtain ⟨mode, hmode, hname⟩ := foldlM_splitStep_name h names
  refine ⟨mode, hmode, fun rest => ?_⟩
  rw [SearchPathItem.text, List.append_assoc, List.append_assoc, splitFrom_append,
    foldlM_blank_between (blank_spaces _) (.inl rfl), Option.bind_some, splitFrom_append, hname,
    Option.bind_some]

/-- PostgreSQL reads the names of the grammar. -/
theorem splitFrom_searchPathText {items : List SearchPathItem} (hne : items ≠ [])
    (hvalid : ∀ item ∈ items, item.name.Valid) (names : List (List UInt8)) :
    splitFrom ⟨names, .start⟩ (searchPathText items) =
      some (names ++ items.map fun item => item.name.read) := by
  induction items generalizing names with
  | nil => exact absurd rfl hne
  | cons item items ih =>
    obtain ⟨hitem, hvalid⟩ := List.forall_mem_cons.mp hvalid
    obtain ⟨mode, hmode, hfrom⟩ := splitFrom_item hitem names
    cases items with
    | nil =>
      have hlast := hfrom []
      rw [List.append_nil, List.append_nil, splitFrom_blank (blank_spaces _)] at hlast
      rw [searchPathText, List.map_singleton, List.intercalate_singleton, hlast]
      obtain rfl | rfl := hmode <;> rfl
    | cons next items =>
      have hsplit : searchPathText (item :: next :: items) =
          item.text ++ ([44] ++ searchPathText (next :: items)) := by
        simp [searchPathText, List.intercalate_cons_cons]
      have hcomma :
        (List.replicate item.behind (32 : UInt8) ++ [44]).foldlM splitStep ⟨names, mode⟩ =
          some ⟨names ++ [item.name.read], .start⟩ := by
        rw [foldlM_blank_comma (blank_spaces _)]
        obtain rfl | rfl := hmode <;> rfl
      rw [hsplit, hfrom, ← List.append_assoc, splitFrom_append, hcomma, Option.bind_some,
        ih (List.cons_ne_nil _ _) hvalid]
      simp

theorem truncateIdentifier_read {name : SearchPathName} (h : name.Valid) :
    truncateIdentifier name.read = name.read := by
  refine if_pos ?_
  cases name with
  | unquoted name =>
    obtain ⟨first, rest, rfl, hlength, -⟩ := h
    simpa [SearchPathName.read] using hlength
  | quoted name => exact h.2

/-- **The search paths that a session accepts** are those of the grammar, and PostgreSQL reads the
names of the grammar from them. -/
theorem session_search_path_grammar (value : List UInt8) :
    (sessionSearchPathValid value ↔
      value.length ≤ sessionSearchPathLimit ∧ (∀ byte ∈ value, isControl byte = false) ∧
        ∃ items, items ≠ [] ∧ (∀ item ∈ items, item.name.Valid) ∧ value = searchPathText items) ∧
    ∀ items, items ≠ [] → (∀ item ∈ items, item.name.Valid) → value = searchPathText items →
      splitIdentifierString value = some (items.map fun item => item.name.read) ∧
        schemaNames value = some (items.map fun item => item.name.read) := by
  constructor
  · simp only [sessionSearchPathValid, sessionTextIsBounded, Bool.and_eq_true, Bool.not_eq_true',
      bne_iff_ne, decide_eq_true_eq, List.any_eq_false, Bool.not_eq_true]
    constructor
    · rintro ⟨⟨⟨⟨-, hlength⟩, -⟩, hcontrol⟩, hloop⟩
      obtain ⟨parts, hne, hparts, hvalue⟩ := items_of_loop hloop
      rw [List.nil_append] at hvalue
      have hitems : ∀ part ∈ parts,
          part ∈ Set.range fun item : { item : SearchPathItem // item.name.Valid } =>
            item.1.text := by
        intro part hpart
        obtain ⟨item, hitem, htext⟩ := (sessionItemValid_iff fun byte hbyte => hcontrol byte
          (hvalue ▸ mem_intercalate_of_mem hpart hbyte)).mp (hparts part hpart)
        exact ⟨⟨item, hitem⟩, htext.symm⟩
      obtain ⟨items, rfl⟩ := (Set.range_list_map _).symm.subset hitems
      refine ⟨hlength, hcontrol, items.map Subtype.val, by simpa using hne, ?_, ?_⟩
      · rintro item hitem
        obtain ⟨valid, -, rfl⟩ := List.mem_map.mp hitem
        exact valid.2
      · rw [hvalue, searchPathText, List.map_map]
        rfl
    · rintro ⟨hlength, hcontrol, items, hne, hvalid, rfl⟩
      have hloop := loop_searchPathText hne hvalid fun item hitem byte hbyte => hcontrol byte
        (mem_intercalate_of_mem (List.mem_map_of_mem hitem) hbyte)
      refine ⟨⟨⟨⟨fun hempty => ?_, hlength⟩, ?_⟩, hcontrol⟩, hloop⟩
      · rw [List.length_eq_zero_iff.mp hempty] at hloop
        exact absurd hloop (by decide)
      · rw [List.contains_eq_mem, decide_eq_false_iff_not]
        exact fun hmem => absurd (hcontrol 0 hmem) (by decide)
  · rintro items hne hvalid rfl
    have hsplit : splitIdentifierString (searchPathText items) =
        some (items.map fun item => item.name.read) := splitFrom_searchPathText hne hvalid []
    refine ⟨hsplit, ?_⟩
    rw [schemaNames, hsplit, Option.map_some, List.map_map]
    exact congrArg some (List.map_congr_left fun item hitem =>
      truncateIdentifier_read (hvalid item hitem))

end Vps
