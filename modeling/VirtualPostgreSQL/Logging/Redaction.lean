import VirtualPostgreSQL.Logging.Event

/-!
# Logging/Redaction — what a primary message tells of the value in it

`vps_log_event_add_primary_message` puts one mark for a quoted span and hides the bytes up to the
next quote of the same kind.  A value that holds this quote ends its span itself: what follows in
the value is told, and what follows behind it is hidden.
-/

namespace Vps

/-! ## The loop -/

section Loop

variable {storageSize : ℕ} {r : Redactor}

/-- Where the storage is full nothing is written any more. -/
theorem redactLoop_full {value : List UInt8}
    (h : ¬(r.output.length + 1 < storageSize ∧ r.output.length < logMaxStringLength)) :
    redactLoop storageSize r value = r := by
  cases value with
  | nil => rfl
  | cons => exact if_neg h

/-- Redacting two texts is redacting one after the other. -/
theorem redactLoop_append {before behind : List UInt8} :
    redactLoop storageSize r (before ++ behind) =
      redactLoop storageSize (redactLoop storageSize r before) behind := by
  induction before generalizing r with
  | nil => rfl
  | cons current before ih =>
    rw [List.cons_append, redactLoop, redactLoop]
    split
    · exact ih
    next hfull => exact (redactLoop_full hfull).symm

/-- What is written stays. -/
theorem output_prefix_redactByte {current : UInt8} :
    r.output <+: (redactByte r current).output := by
  rw [redactByte]
  repeat' split
  all_goals first | exact List.prefix_rfl | exact List.prefix_append _ _

/-- **What was written stays**, whatever comes behind it. -/
theorem output_prefix_redactLoop {value : List UInt8} :
    r.output <+: (redactLoop storageSize r value).output := by
  induction value generalizing r with
  | nil => exact List.prefix_rfl
  | cons current value ih =>
    rw [redactLoop]
    split
    · exact output_prefix_redactByte.trans ih
    · exact List.prefix_rfl

/-- A span hides every byte but its quote. -/
theorem redactLoop_hidden (storageSize : ℕ) {value : List UInt8} (hquote : r.quote ≠ 0)
    (hmarker : r.quoteMarkerWritten = true) (hvalue : r.quote ∉ value) :
    redactLoop storageSize r value = r := by
  induction value with
  | nil => rfl
  | cons current value ih =>
    rw [List.mem_cons, not_or] at hvalue
    have hbyte : redactByte r current = r := by
      rw [redactByte, if_pos hquote, if_neg (Ne.symm hvalue.1), hmarker]
      rfl
    rw [redactLoop, hbyte, ih hvalue.2, ite_self]

/-- A text without a quote. -/
def Unquoted (text : List UInt8) : Prop := (39 : UInt8) ∉ text ∧ (34 : UInt8) ∉ text

theorem quote_redactByte {current : UInt8} (hquote : r.quote = 0)
    (hcurrent : ¬(current = 39 ∨ current = 34)) : (redactByte r current).quote = 0 := by
  rw [redactByte, if_neg (not_not_intro hquote), if_neg hcurrent]
  split <;> exact hquote

/-- Text without a quote opens none. -/
theorem quote_redactLoop (storageSize : ℕ) {value : List UInt8} (hquote : r.quote = 0)
    (hvalue : Unquoted value) :
    (redactLoop storageSize r value).quote = 0 := by
  induction value generalizing r with
  | nil => exact hquote
  | cons current value ih =>
    obtain ⟨hone, htwo⟩ := hvalue
    rw [List.mem_cons, not_or] at hone htwo
    rw [redactLoop]
    split
    · exact ih (quote_redactByte hquote fun h => h.elim (hone.1 ·.symm) (htwo.1 ·.symm))
        ⟨hone.2, htwo.2⟩
    · exact hquote

end Loop

/-! ## Quoted values -/

/-- The quotes of a message. -/
inductive LogQuote
  | apostrophe | doubleQuote
  deriving DecidableEq, Repr

namespace LogQuote

def byte : LogQuote → UInt8
  | apostrophe => 39
  | doubleQuote => 34

theorem byte_ne_zero (q : LogQuote) : q.byte ≠ 0 := by cases q <;> decide

/-- A quote opens a span… -/
theorem redactByte_byte {r : Redactor} (q : LogQuote) (hquote : r.quote = 0) :
    redactByte r q.byte =
      { quote := q.byte, quoteMarkerWritten := true, output := r.output ++ [63] } := by
  have hbyte : q.byte = 39 ∨ q.byte = 34 := by cases q <;> simp [byte]
  rw [redactByte, if_neg (not_not_intro hquote), if_pos hbyte]

/-- …and the same quote closes it. -/
theorem redactByte_closes {r : Redactor} (q : LogQuote) (hquote : r.quote = q.byte) :
    redactByte r q.byte = { r with quote := 0, quoteMarkerWritten := false } := by
  rw [redactByte, if_pos (hquote ▸ q.byte_ne_zero), if_pos hquote.symm]

end LogQuote

/-- A message with a quoted value. -/
def quotedMessage (before : List UInt8) (q : LogQuote) (value behind : List UInt8) : List UInt8 :=
  before ++ q.byte :: (value ++ q.byte :: behind)

/-- **Nothing tells two messages apart**: `vps_log_event_add_primary_message` does the same with
them, in any event and with any storage that is large enough for both. -/
def RedactsAlike (debug : Bool) (message message' : List UInt8) : Prop :=
  ∀ event storageSize, message.length < storageSize → message'.length < storageSize →
    logEventAddPrimaryMessage debug event (.given message) (some storageSize) =
      logEventAddPrimaryMessage debug event (.given message') (some storageSize)

section Quoted

variable {q : LogQuote} {value : List UInt8}

/-- A span without its own quote leaves the same behind as an empty one. -/
theorem redactLoop_quotedMessage {storageSize : ℕ} {before behind : List UInt8}
    (hbefore : Unquoted before) (hvalue : q.byte ∉ value) :
    redactLoop storageSize {} (quotedMessage before q value behind) =
      redactLoop storageSize {} (quotedMessage before q [] behind) := by
  simp only [quotedMessage, redactLoop_append]
  have hquote := quote_redactLoop storageSize (r := {}) rfl hbefore
  generalize redactLoop storageSize {} before = r at hquote
  rw [redactLoop, redactLoop, LogQuote.redactByte_byte q hquote]
  split
  · have hhidden := redactLoop_hidden storageSize (r := ⟨q.byte, true, r.output ++ [63]⟩)
      q.byte_ne_zero rfl hvalue
    rw [redactLoop_append, hhidden, List.nil_append]
  · rfl

/-- **A value without the quote around it is not told.** -/
theorem redactsAlike_of_not_mem {debug : Bool} {before behind value' : List UInt8}
    (hbefore : Unquoted before) (hvalue : q.byte ∉ value) (hvalue' : q.byte ∉ value') :
    RedactsAlike debug (quotedMessage before q value behind)
      (quotedMessage before q value' behind) := by
  intro event storageSize _ _
  have hmessage : redactedMessage storageSize (quotedMessage before q value behind) =
      redactedMessage storageSize (quotedMessage before q value' behind) := by
    rw [redactedMessage, redactedMessage, redactLoop_quotedMessage hbefore hvalue,
      redactLoop_quotedMessage hbefore hvalue']
  have hlength : ∀ value, (quotedMessage before q value behind).length ≠ 0 := fun value => by
    simp [quotedMessage]
  simp only [logEventAddPrimaryMessage, hmessage, hlength, false_or]

/-! ## A value that ends its own span -/

/-- The message is stored as it was redacted, or not at all. -/
theorem message_of_stored {debug : Bool} {event : LogEvent} {message stored : List UInt8}
    {storageSize : ℕ}
    (h : logEventAddPrimaryMessage debug event (.given message) (some storageSize) =
      (.ok, event.push ⟨.primaryMessage, false, .string (.view stored)⟩)) :
    redactedMessage storageSize message = stored := by
  revert h
  simp only [logEventAddPrimaryMessage, logEventAddString, logEventAddBytes]
  repeat' split
  all_goals simp [LogEvent.push]

/-- The byte that the redactor writes for a byte outside of a span. -/
def toldByte (current : UInt8) : UInt8 :=
  if (current = 39 ∨ current = 34) ∨ (current < 0x20 ∨ 0x7e < current) then 63 else current

/-- Outside of a span each byte is told. -/
theorem output_redactByte {r : Redactor} {current : UInt8} (hquote : r.quote = 0) :
    (redactByte r current).output = r.output ++ [toldByte current] := by
  rw [redactByte, if_neg (not_not_intro hquote), toldByte]
  by_cases hspan : current = 39 ∨ current = 34
  · simp [hspan]
  · by_cases hprint : current < 0x20 ∨ 0x7e < current <;> simp [hspan, hprint]

theorem room_of_short {storageSize : ℕ} {output : List UInt8} (hsize : 2 < storageSize)
    (houtput : output.length ≤ 1) :
    output.length + 1 < storageSize ∧ output.length < logMaxStringLength :=
  ⟨by omega, houtput.trans_lt (by decide)⟩

/-- The byte behind a quote in the value is told. -/
theorem told_prefix_redactLoop {storageSize : ℕ} {hidden behind : List UInt8} {current : UInt8}
    (hhidden : q.byte ∉ hidden) (hsize : 2 < storageSize) :
    [63, toldByte current] <+:
      (redactLoop storageSize {} (q.byte :: (hidden ++ q.byte :: current :: behind))).output := by
  have hopen : redactByte {} q.byte = ⟨q.byte, true, [63]⟩ := q.redactByte_byte rfl
  have hclose : redactByte ⟨q.byte, true, [63]⟩ q.byte = ⟨0, false, [63]⟩ :=
    q.redactByte_closes rfl
  have hspan := redactLoop_hidden storageSize (r := ⟨q.byte, true, [63]⟩) q.byte_ne_zero rfl hhidden
  rw [redactLoop, if_pos (room_of_short hsize (Nat.zero_le _)), hopen, redactLoop_append, hspan,
    redactLoop, if_pos (room_of_short hsize le_rfl), hclose, redactLoop,
    if_pos (room_of_short hsize le_rfl)]
  have htold : (redactByte ⟨0, false, [63]⟩ current).output = [63, toldByte current] :=
    output_redactByte rfl
  exact htold ▸ output_prefix_redactLoop

/-- The letter of the messages that are told apart is not `current`. -/
def otherLetter (current : UInt8) : UInt8 := if current = 120 then 121 else 120

theorem otherLetter_ne (current : UInt8) : otherLetter current ≠ current := by
  rw [otherLetter]
  split
  next h => rw [h]; decide
  next h => exact Ne.symm h

/-- An empty value and a letter behind it are stored as the mark and the letter. -/
theorem stored_otherLetter (debug : Bool) (current : UInt8) {storageSize : ℕ}
    (hsize : 2 < storageSize) :
    logEventAddPrimaryMessage debug ⟨.debug, [], 0⟩
        (.given (quotedMessage [] q [] [otherLetter current])) (some storageSize) =
      (.ok, LogEvent.push ⟨.debug, [], 0⟩
        ⟨.primaryMessage, false, .string (.view [63, otherLetter current])⟩) := by
  have hmessage : ∀ letter : UInt8, letter = 120 ∨ letter = 121 →
      redactedMessage storageSize (quotedMessage [] q [] [letter]) = [63, letter] := by
    have hopen : redactByte {} q.byte = ⟨q.byte, true, [63]⟩ := q.redactByte_byte rfl
    have hclose : redactByte ⟨q.byte, true, [63]⟩ q.byte = ⟨0, false, [63]⟩ :=
      q.redactByte_closes rfl
    intro letter hletter
    simp only [redactedMessage, quotedMessage, List.nil_append]
    rw [redactLoop, if_pos (room_of_short hsize (Nat.zero_le _)), hopen, redactLoop,
      if_pos (room_of_short hsize le_rfl), hclose, redactLoop,
      if_pos (room_of_short hsize le_rfl)]
    rcases hletter with rfl | rfl <;> rfl
  have hlevel :
    ¬((LogLevel.debug ≠ .debug) ∨ (quotedMessage [] q [] [otherLetter current]).length = 0 ∨
      storageSize < 2) := by
    simp [quotedMessage]
    omega
  have hletter : otherLetter current = 120 ∨ otherLetter current = 121 := by
    rw [otherLetter]
    split <;> simp
  simp only [logEventAddPrimaryMessage, hmessage _ hletter, if_neg hlevel]
  rcases hletter with h | h <;> rw [h] <;> cases debug <;> rfl

/-- A letter behind the message tells a value that ends its own span from an empty one. -/
theorem not_mem_of_redactsAlike {debug : Bool}
    (h : ∀ behind, Unquoted behind →
      RedactsAlike debug (quotedMessage [] q value behind) (quotedMessage [] q [] behind)) :
    q.byte ∉ value := by
  intro hmem
  obtain ⟨hidden, rest, rfl, hhidden⟩ := List.eq_append_cons_of_mem hmem
  -- The byte that is told is the next one of the value, or the quote behind it.
  obtain ⟨current, hcurrent⟩ : ∃ current, ∀ letter, ∃ behind,
      quotedMessage [] q (hidden ++ q.byte :: rest) [letter] =
        q.byte :: (hidden ++ q.byte :: current :: behind) := by
    cases rest with
    | nil => exact ⟨q.byte, fun letter => ⟨[letter], by simp [quotedMessage]⟩⟩
    | cons current rest =>
      exact ⟨current, fun letter => ⟨rest ++ q.byte :: [letter], by simp [quotedMessage]⟩⟩
  obtain ⟨behind, hbehind⟩ := hcurrent (otherLetter (toldByte current))
  have hunquoted : Unquoted [otherLetter (toldByte current)] := by
    rw [otherLetter]
    split <;> constructor <;> decide
  have hsame := h _ hunquoted ⟨.debug, [], 0⟩
    (3 + (quotedMessage [] q (hidden ++ q.byte :: rest) [otherLetter (toldByte current)]).length)
    (by omega) (by simp [quotedMessage])
  rw [stored_otherLetter debug _ (by omega)] at hsame
  have hmessage := message_of_stored hsame
  rw [redactedMessage, hbehind] at hmessage
  have hprefix : [63, otherLetter (toldByte current)] <+: _ :=
    hmessage ▸ List.rdropWhile_prefix _ _
  have htold := List.prefix_of_prefix_length_le hprefix
    (told_prefix_redactLoop hhidden (by omega)) le_rfl
  rw [List.prefix_iff_eq_take] at htold
  exact otherLetter_ne (toldByte current) (by simpa using htold)

end Quoted

/-- **What a primary message tells of a quoted value**: in every message, as little as of any other
value without the quote that it stands in, if and only if it holds no such quote itself. -/
theorem redaction_noninterference (debug : Bool) (q : LogQuote) (value : List UInt8) :
    (∀ before behind value', Unquoted before → Unquoted behind → 0 ∉ value' → q.byte ∉ value' →
      RedactsAlike debug (quotedMessage before q value behind)
        (quotedMessage before q value' behind)) ↔
      q.byte ∉ value :=
  ⟨fun h => not_mem_of_redactsAlike fun behind hbehind =>
      h [] behind [] ⟨by simp, by simp⟩ hbehind (by simp) (by simp),
    fun h _ _ _ hbefore _ _ hvalue' => redactsAlike_of_not_mem hbefore h hvalue'⟩

/-- `'a'b'` tells `b`, and `''` tells nothing. -/
theorem value_with_quote_told :
    ¬RedactsAlike false (quotedMessage [] .apostrophe [97, 39, 98] [])
      (quotedMessage [] .apostrophe [] []) := by
  intro h
  exact absurd (h ⟨.debug, [], 0⟩ 129 (by decide) (by decide)) (by decide)

end Vps
