import Mathlib.Data.List.Basic
import VirtualPostgreSQL.Query.Lexer

/-!
# Query/LexCut — lexing a text up to a semicolon

A step of the lexer that ends before a semicolon does not depend on what follows it: the tokens of a
statement are the same whether the statement is lexed alone or with the rest of the text.
-/

namespace Vps

open Machinery

/-! ## Where tokens end -/

/-- A run of bytes that a stop byte ends does not see what is behind the stop. -/
theorem takeWhile_cut {p : UInt8 → Bool} {stop : UInt8} (hp : p stop = false)
    (text suffix : List UInt8) :
    (text ++ stop :: suffix).takeWhile p = text.takeWhile p := by
  induction text with
  | nil => simp [hp]
  | cons byte text ih => simp [List.takeWhile_cons, ih]

/-- …and one that ends inside of the text does not see the `;` that was cut off. -/
theorem takeWhile_cut_of_le {p : UInt8 → Bool} {text suffix : List UInt8}
    (h : ((text ++ 59 :: suffix).takeWhile p).length ≤ text.length) :
    (text ++ 59 :: suffix).takeWhile p = text.takeWhile p := by
  induction text with
  | nil => simpa using h
  | cons byte text ih =>
    cases hb : p byte with
    | false => simp [hb]
    | true =>
      simp only [List.cons_append, List.takeWhile_cons, hb, if_true, List.length_cons] at h ⊢
      rw [ih (by omega)]

theorem quotedLength_pos {escapes : Bool} {quote : UInt8} {text : List UInt8} {n : ℕ}
    (h : quotedLength escapes quote text = some n) : 0 < n := by
  rw [Nat.pos_iff_ne_zero]
  rintro rfl
  revert h
  fun_cases quotedLength escapes quote text <;> simp [*]

/-- A literal that is closed inside of the text is closed at the same place without the rest. -/
theorem quotedLength_cut {escapes : Bool} {quote : UInt8} {text suffix : List UInt8} {n : ℕ}
    (hquote : quote ≠ 59) (h : quotedLength escapes quote (text ++ 59 :: suffix) = some n)
    (hn : n ≤ text.length) : quotedLength escapes quote text = some n := by
  fun_induction quotedLength escapes quote text generalizing n with
  | case1 => exact absurd (quotedLength_pos h) (by simp at hn; omega)
  | case2 => simpa [quotedLength, hquote.symm] using h
  | case3 byte hbyte =>
    -- nothing closes here, so the quote would have to end after the semicolon
    simp only [List.singleton_append, quotedLength, if_neg hbyte] at h
    split at h
    · obtain ⟨m, hm, rfl⟩ := Option.map_eq_some_iff.1 h
      simp at hn
    · obtain ⟨m, hm, rfl⟩ := Option.map_eq_some_iff.1 h
      have := quotedLength_pos hm
      simp at hn
      omega
  | case4 rest ih =>
    simp only [List.cons_append, quotedLength, if_true] at h
    obtain ⟨m, hm, rfl⟩ := Option.map_eq_some_iff.1 h
    rw [ih hm (by simpa using hn)]
    rfl
  | case5 next rest hnext => simpa [quotedLength, hnext] using h
  | case6 byte next rest hbyte hescape ih =>
    simp only [List.cons_append, quotedLength, if_neg hbyte, if_pos hescape] at h
    obtain ⟨m, hm, rfl⟩ := Option.map_eq_some_iff.1 h
    rw [ih hm (by simpa using hn)]
    rfl
  | case7 byte next rest hbyte hescape ih =>
    simp only [List.cons_append, quotedLength, if_neg hbyte, if_neg hescape] at h
    obtain ⟨m, hm, rfl⟩ := Option.map_eq_some_iff.1 h
    rw [ih hm (by simpa using hn)]
    rfl

theorem commentLength_pos {depth n : ℕ} {text : List UInt8}
    (h : commentLength (depth + 1) text = some n) : 0 < n := by
  rw [Nat.pos_iff_ne_zero]
  rintro rfl
  match text with
  | [] => simp [commentLength] at h
  | [_] => simp [commentLength] at h
  | byte :: next :: rest =>
    rw [commentLength] at h
    split at h
    · simp at h
    · split at h <;> simp at h

/-- A block comment that is closed inside of the text is closed at the same place without the
rest. -/
theorem commentLength_cut {depth n : ℕ} {text suffix : List UInt8}
    (h : commentLength depth (text ++ 59 :: suffix) = some n) (hn : n ≤ text.length) :
    commentLength depth text = some n := by
  fun_induction commentLength depth text generalizing n with
  | case1 => simpa [commentLength] using h
  | case2 => exact absurd (commentLength_pos h) (by simp at hn; omega)
  | case3 depth byte =>
    simp only [List.singleton_append, commentLength] at h
    rw [if_neg (by simp), if_neg (by simp)] at h
    obtain ⟨m, hm, rfl⟩ := Option.map_eq_some_iff.1 h
    have := commentLength_pos hm
    simp at hn
    omega
  | case4 depth byte next rest hopen ih =>
    simp only [List.cons_append, commentLength, if_pos hopen] at h
    obtain ⟨m, hm, rfl⟩ := Option.map_eq_some_iff.1 h
    rw [ih hm (by simpa using hn)]
    rfl
  | case5 depth byte next rest hopen hclose ih =>
    simp only [List.cons_append, commentLength, if_neg hopen, if_pos hclose] at h
    obtain ⟨m, hm, rfl⟩ := Option.map_eq_some_iff.1 h
    rw [ih hm (by simpa using hn)]
    rfl
  | case6 depth byte next rest hopen hclose ih =>
    simp only [List.cons_append, commentLength, if_neg hopen, if_neg hclose] at h
    obtain ⟨m, hm, rfl⟩ := Option.map_eq_some_iff.1 h
    rw [ih hm (by simpa using hn)]
    rfl

/-- The tag of a dollar quote ends at a byte that no tag may hold, so the rest does not matter. -/
theorem dollarDelimiter_cut {isTag : UInt8 → Bool} {stop : UInt8} (hstop : isTag stop = false)
    (h36 : stop ≠ 36) (text suffix : List UInt8) :
    dollarDelimiter isTag (text ++ stop :: suffix) = dollarDelimiter isTag text := by
  have hle : (text.takeWhile isTag).length ≤ text.length := (text.takeWhile_sublist isTag).length_le
  simp only [dollarDelimiter, takeWhile_cut hstop]
  rw [List.drop_append_of_le_length hle]
  cases text.drop (text.takeWhile isTag).length with
  | nil => simp [h36]
  | cons byte rest =>
    by_cases hb : byte = 36
    · simp [hb]
    · simp [hb]

/-- The closing tag of a dollar quote is found at the same place without the rest. -/
theorem findDelimiter_cut {delimiter text suffix : List UInt8} {n : ℕ}
    (h : findDelimiter delimiter (text ++ 59 :: suffix) = some n)
    (hn : n + delimiter.length ≤ text.length) : findDelimiter delimiter text = some n := by
  induction text generalizing n with
  | nil =>
    obtain ⟨rfl, hd⟩ : n = 0 ∧ delimiter = [] := by simpa using hn
    simp [findDelimiter, hd]
  | cons byte text ih =>
    simp only [List.cons_append, findDelimiter] at h ⊢
    split at h
    · rename_i hprefix
      obtain rfl : 0 = n := by simpa using h
      have hlocal : delimiter.isPrefixOf (byte :: text) := by
        rw [List.isPrefixOf_iff_prefix] at hprefix ⊢
        exact List.prefix_of_prefix_length_le hprefix (List.prefix_append (byte :: text) _)
          (by simpa using hn)
      rw [if_pos hlocal]
    · rename_i hprefix
      obtain ⟨m, hm, rfl⟩ := Option.map_eq_some_iff.1 h
      have hlocal : ¬ delimiter.isPrefixOf (byte :: text) := by
        rw [List.isPrefixOf_iff_prefix] at hprefix ⊢
        exact fun hp => hprefix (hp.trans (List.prefix_append (byte :: text) _))
      rw [if_neg hlocal, ih hm (by simp at hn; omega)]
      rfl

/-! ## One step -/

theorem head?_cut {p : UInt8 → Bool} {stop : UInt8} (hp : p stop = false)
    (text suffix : List UInt8) :
    (text ++ stop :: suffix).head?.any p = text.head?.any p := by
  cases text <;> simp [hp]

/-- **A quoted token that stays inside of the text** is the token of the text alone. -/
theorem stepQuoted_cut {mode : LexMode} {quote : UInt8} {text suffix : List UInt8}
    (hquote : quote ≠ 59)
    (h : (stepQuoted mode quote (text ++ 59 :: suffix)).length ≤ text.length + 1) :
    stepQuoted mode quote (text ++ 59 :: suffix) = stepQuoted mode quote text := by
  simp only [stepQuoted] at h ⊢
  cases hq : quotedLength (quote == 39 && mode.escapes) quote (text ++ 59 :: suffix) with
  | none =>
    rw [hq] at h
    simp only [List.length_append, List.length_cons] at h
    omega
  | some n =>
    rw [hq] at h
    have hn : n ≤ text.length := Nat.le_of_succ_le_succ h
    simp only [quotedLength_cut hquote hq hn, List.take_append_of_le_length hn]

/-- A dollar-quoted token that stays inside of the text is that of the text alone. -/
theorem stepDollar_cut {text suffix : List UInt8}
    (h : (stepDollar (text ++ 59 :: suffix)).length ≤ text.length + 1) :
    stepDollar (text ++ 59 :: suffix) = stepDollar text := by
  unfold stepDollar at h ⊢
  rw [head?_cut (by decide), takeWhile_cut (by decide),
    dollarDelimiter_cut (by decide) (by decide)] at *
  by_cases hdigit : text.head?.any isDigit
  · simp only [if_pos hdigit]
  simp only [if_neg hdigit] at h ⊢
  cases hd : dollarDelimiter isTagByte text with
  | none => rfl
  | some delimiter =>
    obtain ⟨tag, post, rfl, -, rfl⟩ := (dollarDelimiter_eq_some_iff isTagByte_dollar).1 hd
    simp only [hd] at h ⊢
    rw [List.drop_append_of_le_length (by simp)] at h ⊢
    split at h
    · simp only [List.length_append, List.length_cons] at h
      omega
    · rename_i n hn
      rw [findDelimiter_cut hn (by simp at h ⊢; omega)]

theorem markerMode_cut {stop : UInt8} (h39 : stop ≠ 39) (h38 : stop ≠ 38) (h34 : stop ≠ 34)
    (byte : UInt8) (text suffix : List UInt8) :
    markerMode byte (text ++ stop :: suffix) = markerMode byte text := by
  match text with
  | [] => simp [markerMode, h39, h38]
  | [next] =>
    by_cases hquote : next = 39 <;> by_cases hand : next = 38 <;>
      simp [markerMode, hquote, hand, h39, h34]
  | next :: quote :: rest =>
    by_cases hquote : next = 39 <;> by_cases hand : next = 38 <;> simp [markerMode, hquote, hand]

/-- A word ends at any byte that cannot go on with it. -/
theorem stepWord_cut {stop : UInt8} (hstop : isIdentCont stop = false) (h39 : stop ≠ 39)
    (h38 : stop ≠ 38) (h34 : stop ≠ 34) (byte : UInt8) (text suffix : List UInt8) :
    stepWord byte (text ++ stop :: suffix) = stepWord byte text := by
  simp only [stepWord, markerMode_cut h39 h38 h34, takeWhile_cut hstop]

/-- **A step that ends before a semicolon does not depend on what follows it.** -/
theorem lexStep_cut {mode : LexMode} {byte : UInt8} {text suffix : List UInt8}
    (h : (lexStep mode byte (text ++ 59 :: suffix)).length ≤ text.length + 1) :
    lexStep mode byte (text ++ 59 :: suffix) = lexStep mode byte text := by
  have hhead (next : UInt8) (hnext : next ≠ 59) :
      (text ++ 59 :: suffix).head? = some next ↔ text.head? = some next := by
    cases text <;> simp [hnext.symm]
  unfold lexStep at h ⊢
  simp only [hhead 45 (by decide), hhead 42 (by decide)] at h ⊢
  by_cases hspace : isSpace byte
  · simp only [if_pos hspace]
  simp only [if_neg hspace] at h ⊢
  by_cases hline : byte = 45 ∧ text.head? = some 45
  · simp only [if_pos hline] at h ⊢
    rw [takeWhile_cut_of_le (Nat.le_of_succ_le_succ h)]
  simp only [if_neg hline] at h ⊢
  by_cases hblock : byte = 47 ∧ text.head? = some 42
  · simp only [if_pos hblock] at h ⊢
    obtain ⟨rest, rfl⟩ : ∃ rest, text = 42 :: rest := by
      cases text with
      | nil => simp at hblock
      | cons next rest => exact ⟨rest, by simpa using hblock.2⟩
    simp only [List.cons_append, List.tail_cons] at h ⊢
    cases hc : commentLength 1 (rest ++ 59 :: suffix) with
    | none =>
      rw [hc] at h
      simp only [List.length_append, List.length_cons] at h
      omega
    | some n =>
      rw [hc] at h
      rw [commentLength_cut hc (by simp at h; omega)]
  simp only [if_neg hblock] at h ⊢
  by_cases hsemi : byte = 59
  · simp only [if_pos hsemi]
  simp only [if_neg hsemi] at h ⊢
  by_cases hquote : byte = 39 ∨ byte = 34
  · simp only [if_pos hquote] at h ⊢
    exact stepQuoted_cut hsemi h
  simp only [if_neg hquote] at h ⊢
  by_cases hdollar : byte = 36
  · simp only [if_pos hdollar] at h ⊢
    exact stepDollar_cut h
  simp only [if_neg hdollar,
    stepWord_cut (show isIdentCont 59 = false by decide) (by decide) (by decide) (by decide)]

end Vps
