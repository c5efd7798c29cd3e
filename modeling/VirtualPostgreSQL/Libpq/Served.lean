import VirtualPostgreSQL.Libpq.Books

/-!
# Libpq/Served — what a statement's functions keep

A statement that is there is served by a connection that is ready, or has failed
(`LibpqSession.Serves`). Each function of the statement keeps that (`Goes`), whatever libpq answers;
a function that fails ends in `Stopped`, and one that has taken the last result of a command in
`Drained`.
-/

namespace Vps

open Machinery

/-! ## Names -/

theorem hexDigitByte_inj {d e : ℕ} (hd : d < 16) (he : e < 16)
    (h : hexDigitByte d = hexDigitByte e) : d = e :=
  (by decide : ∀ d < 16, ∀ e < 16, hexDigitByte d = hexDigitByte e → d = e) d hd e he h

/-- The digits of a number determine it. -/
theorem mod_pow_of_digits {x y base n : ℕ}
    (h : ∀ i < n, x / base ^ i % base = y / base ^ i % base) :
    x % base ^ n = y % base ^ n := by
  induction n with
  | zero => rw [pow_zero, Nat.mod_one, Nat.mod_one]
  | succ n ih =>
    rw [Nat.mod_pow_succ, Nat.mod_pow_succ, ih fun i hi => h i (hi.trans n.lt_succ_self),
      h n n.lt_succ_self]

/-- Sixteen hexadecimal digits tell all hashes apart. -/
theorem hexText_inj {x y : UInt64} (h : hexText x = hexText y) : x = y := by
  have hdigits : ∀ i < 16, x.toNat / 16 ^ i % 16 = y.toNat / 16 ^ i % 16 := by
    intro i hi
    have hplace := List.map_inj_left.mp h (15 - i) (List.mem_range.mpr (by omega))
    rw [show 15 - (15 - i) = i by omega] at hplace
    exact hexDigitByte_inj (Nat.mod_lt _ (by omega)) (Nat.mod_lt _ (by omega)) hplace
  have hmod := mod_pow_of_digits hdigits
  have hlt : ∀ z : UInt64, z.toNat < 16 ^ 16 := fun z => z.toNat_lt
  rw [Nat.mod_eq_of_lt (hlt x), Nat.mod_eq_of_lt (hlt y)] at hmod
  exact UInt64.toNat_inj.mp hmod

/-- **Another serial number is another name.** -/
theorem statementPreparedName_inj {serial serial' queryHash queryHash' : UInt64}
    (h : statementPreparedName serial queryHash = statementPreparedName serial' queryHash') :
    serial = serial' := by
  unfold statementPreparedName at h
  rw [List.append_assoc, List.append_assoc, List.append_assoc, List.append_assoc,
    List.append_cancel_left_eq] at h
  exact hexText_inj (List.append_inj_left h (by simp [hexText]))

/-! ## Giving back -/

namespace LibpqSession

variable (s : LibpqSession)

/-- The result is given back. -/
def clear : LibpqSession :=
  match s.statement.currentResult with
  | some (key, _) => (s.note (.cleared key)).setStatement { s.statement with currentResult := none }
  | none => s

/-- The cancel connection is given back. -/
def uncancel : LibpqSession :=
  match s.statement.cancelConnection with
  | some key =>
    (s.note (.cancelFinished key)).setStatement { s.statement with cancelConnection := none }
  | none => s

/-- **What an error leaves.** -/
def broken (errorClass : ErrorClass) : LibpqSession :=
  (s.uncancel.setStatement { s.uncancel.statement with phase := .failed }).setConnection
    { s.uncancel.connection with phase := if errorClass = .sql then .ready else .failed }

/-- A result is taken. -/
def holding (result : LibpqResult) : LibpqSession :=
  (s.take fun key => .got key result).setStatement
    { s.statement with currentResult := some (s.nextKey, result) }

/-- What no function of a statement changes. -/
structure Frame where
  client : LibpqClient
  connectionLive : Bool
  statementLive : Bool
  statementCount : ℕ
  handle : Option ℕ
  spec : LibpqStatementSpec
  preparedName : List UInt8
  trusted : Bool

def frame : Frame where
  client := s.client
  connectionLive := s.connectionLive
  statementLive := s.statementLive
  statementCount := s.connection.statementCount
  handle := s.connection.postgresqlConnection
  spec := s.statement.spec
  preparedName := s.statement.preparedName
  trusted := trusted s.log

variable {s} {inHand : List LibpqHandle}

/-- To clear a result that is held is to note it and to hold none. -/
theorem clear_some {key : ℕ} {result : LibpqResult}
    (h : s.statement.currentResult = some (key, result)) :
    s.clear = (s.note (.cleared key)).setStatement { s.statement with currentResult := none } := by
  unfold clear
  rw [h]

/-- Without one, clearing does nothing. -/
theorem clear_none (h : s.statement.currentResult = none) : s.clear = s := by
  unfold clear
  rw [h]

/-- To finish a cancel object is to note it and to hold none. -/
theorem uncancel_some {key : ℕ} (h : s.statement.cancelConnection = some key) :
    s.uncancel = (s.note (.cancelFinished key)).setStatement
      { s.statement with cancelConnection := none } := by
  unfold uncancel
  rw [h]

/-- Without one, there is nothing to finish. -/
theorem uncancel_none (h : s.statement.cancelConnection = none) : s.uncancel = s := by
  unfold uncancel
  rw [h]

theorem clear_statement : s.clear.statement = { s.statement with currentResult := none } := by
  unfold clear
  split
  · rfl
  · rename_i hnone
    rw [← hnone]

@[simp] theorem clear_connection : s.clear.connection = s.connection := by
  unfold clear
  split <;> rfl

@[simp] theorem clear_frame : s.clear.frame = s.frame := by
  unfold clear
  split <;> rfl

/-- Clearing a result says nothing about the command. -/
@[simp] theorem clear_outstanding : outstanding s.clear.log = outstanding s.log := by
  unfold clear
  split <;> rfl

/-- The notes stay in order when the result is cleared. -/
theorem Books.clear (h : s.Books inHand) : s.clear.Books inHand := by
  unfold LibpqSession.clear
  split
  · exact (h.dropResult ‹_›).cleared
  · exact h

theorem uncancel_statement :
    s.uncancel.statement = { s.statement with cancelConnection := none } := by
  unfold uncancel
  split
  · rfl
  · rename_i hnone
    rw [← hnone]

@[simp] theorem uncancel_connection : s.uncancel.connection = s.connection := by
  unfold uncancel
  split <;> rfl

@[simp] theorem uncancel_frame : s.uncancel.frame = s.frame := by
  unfold uncancel
  split <;> rfl

/-- Neither does finishing a cancel object. -/
@[simp] theorem uncancel_outstanding : outstanding s.uncancel.log = outstanding s.log := by
  unfold uncancel
  split <;> rfl

/-- They stay in order when the cancel object is finished. -/
theorem Books.uncancel (h : s.Books inHand) : s.uncancel.Books inHand := by
  unfold LibpqSession.uncancel
  split
  · exact (h.dropCancel ‹_›).cancelFinished
  · exact h

variable {errorClass : ErrorClass} {result : LibpqResult}

theorem broken_statement :
    (s.broken errorClass).statement =
      { s.statement with cancelConnection := none, phase := .failed } :=
  congrArg (fun st : LibpqStatement => { st with phase := .failed }) uncancel_statement

@[simp] theorem broken_frame : (s.broken errorClass).frame = s.frame := by
  unfold broken uncancel
  split <;> rfl

/-- They stay in order when the session breaks. -/
theorem Books.broken (h : s.Books inHand) : (s.broken errorClass).Books inHand := by
  have hfailed :
    (s.uncancel.setStatement { s.uncancel.statement with phase := .failed }).Books inHand :=
    h.uncancel.setStatement rfl rfl rfl rfl
  exact hfailed.setConnection rfl

@[simp] theorem holding_frame : (s.holding result).frame = s.frame := rfl

/-- They stay in order when a result that is in hand is kept. -/
theorem Books.holding (h : s.Books inHand) (hnone : s.statement.currentResult = none) :
    (s.holding result).Books inHand :=
  (h.got result).keepResult hnone

end LibpqSession

/-! ## Invariants -/

/-- A row that can be shown. -/
def LibpqStatementSpec.Readable (spec : LibpqStatementSpec) (result : LibpqResult) : Prop :=
  metadataFault spec result false = none ∧ (rowBytes spec result).isSome

/-- A row whose bytes are counted has what its values have together, and keeps the limit. -/
theorem rowBytesLoop_eq {result : LibpqResult} {indexes : List ℕ} {start bytes : ℕ}
    (hstart : start ≤ clientMaxRowBytes) (h : rowBytesLoop result indexes start = some bytes) :
    bytes ≤ clientMaxRowBytes ∧ bytes = start + (indexes.map fun index =>
      if result.valueIsNull index then 0 else (result.valueLength index).toNat).sum := by
  induction indexes generalizing start with
  | nil =>
    obtain rfl := Option.some.inj h
    exact ⟨hstart, rfl⟩
  | cons index rest ih =>
    unfold rowBytesLoop at h
    rw [List.map_cons, List.sum_cons]
    split at h
    · rename_i hnull
      rw [if_pos hnull, Nat.zero_add]
      exact ih hstart h
    · rename_i hnull
      dsimp only at h
      split at h
      · cases h
      · rename_i hfits
        rw [not_or, not_or, not_or, Nat.not_gt_eq] at hfits
        rw [if_neg hnull, ← Nat.add_assoc]
        exact ih hfits.2.2.1 h

/-- The bytes of a row are those of its columns, and not more than the limit. -/
theorem rowBytes_eq {spec : LibpqStatementSpec} {result : LibpqResult} {bytes : ℕ}
    (h : rowBytes spec result = some bytes) :
    bytes ≤ clientMaxRowBytes ∧ bytes = result.rowLength spec.resultFields.length := by
  obtain ⟨hlimit, hbytes⟩ := rowBytesLoop_eq (Nat.zero_le _) h
  exact ⟨hlimit, hbytes.trans (Nat.zero_add _)⟩

/-- **What a statement holds**: a result only while a row is shown, a cancel connection only while
it cancels. -/
structure LibpqStatement.Formed (st : LibpqStatement) : Prop where
  result : st.currentResult = none ∨ st.phase = .rowReady ∨ st.phase = .failed
  cancel : st.cancelConnection = none ∨ st.phase = .cancelPoll
  readable : st.phase = .rowReady →
    ∃ key result, st.currentResult = some (key, result) ∧ st.spec.Readable result

/-- **A statement that is served.** -/
structure LibpqSession.Serves (s : LibpqSession) : Prop where
  books : s.Books []
  formed : s.statement.Formed
  phase : s.connection.phase = .ready ∨ s.connection.phase = .failed
  trusted : s.connection.phase = .ready → Vps.trusted s.log = true
  quiet : s.connection.phase = .ready → s.statement.phase.resting = true → outstanding s.log = false
  named : ∃ serial queryHash, s.statement.preparedName = statementPreparedName serial queryHash ∧
    serial ≤ s.client.statementSerial
  fresh : s.statement.phase = .created → s.statement.preparedName ∉ preparedNames s.log
  /-- The row that is shown is the newest of those that were counted. -/
  shown : s.statement.phase = .rowReady →
    ∀ key result, s.statement.currentResult = some (key, result) →
    (publishedRows s.log).head? = some (result.rowLength s.statement.spec.resultFields.length)

/-- **What a function of a statement does.** -/
structure Goes (s s' : LibpqSession) : Prop where
  frame : s'.frame = s.frame
  serves : s'.Serves

/-- **A statement that has stopped**: with its connection, or with a connection that is quiet. -/
structure Stopped (s s' : LibpqSession) : Prop where
  frame : s'.frame = s.frame
  books : s'.Books []
  phase : s'.statement.phase = .failed
  cancel : s'.statement.cancelConnection = none
  connection : s'.connection.phase = .failed ∨ s'.connection.phase = .ready ∧
    outstanding s'.log = false

/-- **A statement that works**, with nothing held. -/
structure Works (s s' : LibpqSession) : Prop where
  frame : s'.frame = s.frame
  books : s'.Books []
  connection : s'.connection.phase = .ready
  result : s'.statement.currentResult = none
  cancel : s'.statement.cancelConnection = none

/-- **A command is done**: libpq has nothing more. -/
structure Drained (s s' : LibpqSession) : Prop extends Works s s' where
  phase : s'.statement.phase = s.statement.phase
  quiet : outstanding s'.log = false

section Invariants

variable {s t u : LibpqSession}

theorem LibpqSession.Serves.named_of_frame (h : s.Serves) (hframe : t.frame = s.frame) :
    ∃ serial queryHash, t.statement.preparedName = statementPreparedName serial queryHash ∧
      serial ≤ t.client.statementSerial := by
  have hname : t.statement.preparedName = s.statement.preparedName :=
    congrArg LibpqSession.Frame.preparedName hframe
  have hclient : t.client = s.client := congrArg LibpqSession.Frame.client hframe
  rw [hname, hclient]
  exact h.named

/-- A statement that is stopped goes on as a failed one. -/
theorem Goes.of_stopped (h : s.Serves) (hready : s.connection.phase = .ready)
    (hstop : Stopped s t) : Goes s t where
  frame := hstop.frame
  serves :=
    { books := hstop.books
      formed := ⟨.inr (.inr hstop.phase), .inl hstop.cancel,
        fun hrow => by rw [hstop.phase] at hrow; cases hrow⟩
      phase := hstop.connection.symm.imp And.left id
      trusted := fun _ => (congrArg LibpqSession.Frame.trusted hstop.frame).trans (h.trusted hready)
      quiet := fun hphase _ => by
        rcases hstop.connection with hfailed | ⟨-, hquiet⟩
        · rw [hphase] at hfailed
          cases hfailed
        · exact hquiet
      named := h.named_of_frame hstop.frame
      fresh := fun hphase => by rw [hstop.phase] at hphase; cases hphase
      shown := fun hphase => by rw [hstop.phase] at hphase; cases hphase }

/-- A statement that works goes on in the phase it was put into. -/
theorem Goes.of_works (h : s.Serves) (hready : s.connection.phase = .ready) (hworks : Works s t)
    (hrow : t.statement.phase ≠ .rowReady) (hcreated : t.statement.phase ≠ .created)
    (hquiet : t.statement.phase.resting = true → outstanding t.log = false) : Goes s t where
  frame := hworks.frame
  serves :=
    { books := hworks.books
      formed := ⟨.inl hworks.result, .inl hworks.cancel, fun hphase => absurd hphase hrow⟩
      phase := .inl hworks.connection
      trusted := fun _ =>
        (congrArg LibpqSession.Frame.trusted hworks.frame).trans (h.trusted hready)
      quiet := fun _ => hquiet
      named := h.named_of_frame hworks.frame
      fresh := fun hphase => absurd hphase hcreated
      shown := fun hphase => absurd hphase hrow }

theorem Goes.refl (h : s.Serves) : Goes s s := ⟨rfl, h⟩

/-- A statement that goes on twice goes on. -/
theorem Goes.trans (h : Goes s t) (h' : Goes t u) : Goes s u := ⟨h'.frame.trans h.frame, h'.serves⟩

/-- What stops a statement of the same frame stops this one. -/
theorem Stopped.after (hframe : t.frame = s.frame) (h : Stopped t u) : Stopped s u :=
  { h with frame := h.frame.trans hframe }

theorem Stopped.clear (h : Stopped s t) : Stopped s t.clear where
  frame := LibpqSession.clear_frame.trans h.frame
  books := h.books.clear
  phase := by rw [LibpqSession.clear_statement]; exact h.phase
  cancel := by rw [LibpqSession.clear_statement]; exact h.cancel
  connection := by
    rw [LibpqSession.clear_connection, LibpqSession.clear_outstanding]; exact h.connection

/-- **An error that is not of SQL stops the statement** and takes the connection with it. -/
theorem stopped_broken {errorClass : ErrorClass} (h : s.Books []) (hclass : errorClass ≠ .sql) :
    Stopped s (s.broken errorClass) where
  frame := LibpqSession.broken_frame
  books := h.broken
  phase := by rw [LibpqSession.broken_statement]
  cancel := by rw [LibpqSession.broken_statement]
  connection := .inl (if_neg hclass)

/-- A statement that is not in the middle of anything works. -/
theorem LibpqSession.Serves.works (h : s.Serves) (hready : s.connection.phase = .ready)
    (hrow : s.statement.phase ≠ .rowReady) (hfailed : s.statement.phase ≠ .failed)
    (hcancel : s.statement.phase ≠ .cancelPoll) : Works s s :=
  ⟨rfl, h.books, hready, h.formed.result.resolve_right fun hphase => hphase.elim hrow hfailed,
    h.formed.cancel.resolve_right hcancel⟩

theorem Works.after (hframe : t.frame = s.frame) (h : Works t u) : Works s u :=
  { h with frame := h.frame.trans hframe }

end Invariants

/-! ## Failures -/

section Specs

variable {W : Type} {api : LibpqApi W} {s t : LibpqSession}

/-- The code finishes the cancel object, if there is one. -/
theorem statementFinishCancel_spec :
    Always (statementFinishCancel : LibpqM W Unit) s fun _ s' => s' = s.uncancel := by
  refine Always.look ?_
  split
  · rename_i hsome
    exact fun _ => (LibpqSession.uncancel_some hsome).symm
  · rename_i hnone
    exact fun _ => (LibpqSession.uncancel_none hnone).symm

/-- The code clears the result, if there is one. -/
theorem statementClearResult_spec :
    Always (statementClearResult : LibpqM W Unit) s fun _ s' => s' = s.clear := by
  refine Always.look ?_
  split
  · rename_i hsome
    exact fun _ => (LibpqSession.clear_some hsome).symm
  · rename_i hnone
    exact fun _ => (LibpqSession.clear_none hnone).symm

/-- An error is reported as one, and breaks the session as its class asks for. -/
theorem statementError_spec {errorClass : ErrorClass} :
    Always (statementError api errorClass) s fun status s' => status ≠ .ok ∧
      s' = s.broken errorClass := by
  refine statementFinishCancel_spec.bind fun _ s' hs => ?_
  subst hs
  refine always_changeStatement (always_changeConnection (Always.ask fun stored => ?_))
  refine .ite (fun _ => Always.done ⟨ClientStatus.noConfusion, rfl⟩) fun _ => Always.done ⟨?_, rfl⟩
  split <;> exact ClientStatus.noConfusion

/-- **An error stops the statement.** -/
theorem statementError_stops {errorClass : ErrorClass} (hframe : t.frame = s.frame)
    (hbooks : t.Books []) (hclass : errorClass ≠ .sql) :
    Always (statementError api errorClass) t fun status s' => status ≠ .ok ∧ Stopped s s' :=
  statementError_spec.mono fun _ _ h => ⟨h.1, h.2 ▸ (stopped_broken hbooks hclass).after hframe⟩

/-- A deadline is passed, or the statement stops. -/
theorem statementDeadline_spec (hbooks : s.Books []) :
    Always (statementDeadline api) s fun status s' => (status = none ∧ s' = s) ∨
      ∃ failure, status = some failure ∧ failure ≠ .ok ∧ Stopped s s' := by
  have hfail : ∀ errorClass, errorClass ≠ .sql →
    Always (statementError api errorClass >>= fun failure =>
      (pure (some failure) : LibpqM W (Option ClientStatus))) s fun status s' =>
        (status = none ∧ s' = s) ∨
        ∃ failure, status = some failure ∧ failure ≠ .ok ∧ Stopped s s' := fun errorClass hclass =>
    (statementError_stops rfl hbooks hclass).bind fun failure s' h =>
      Always.done (.inr ⟨failure, rfl, h.1, h.2⟩)
  unfold statementDeadline
  refine Always.look
    (.ite (fun _ => hfail _ ErrorClass.noConfusion) fun _ => Always.ask fun nowMs => ?_)
  cases nowMs with
  | none => exact hfail _ ErrorClass.noConfusion
  | some nowMs =>
    dsimp only
    split
    · exact hfail _ ErrorClass.noConfusion
    · exact hfail _ ErrorClass.noConfusion
    · exact Always.done (.inl ⟨rfl, rfl⟩)

/-- What is left of a failed command is read, or the connection is given up. -/
theorem statementDrainResults_spec (hbooks : s.Books []) (count : ℕ) :
    Always (statementDrainResults api count) s fun _ s' => s'.frame = s.frame ∧ s'.Books [] ∧
      s'.statement = s.statement ∧ (s'.connection.phase = .failed ∨
        s'.connection.phase = s.connection.phase ∧ outstanding s'.log = false) := by
  induction count generalizing s with
  | zero => exact fun _ => ⟨rfl, hbooks.setConnection rfl, rfl, .inl rfl⟩
  | succ count ih =>
    refine always_apiGetResult (Always.done ⟨rfl, hbooks.drained, rfl, .inr ⟨rfl, rfl⟩⟩)
      fun result => ?_
    exact always_noteEvent (ih (hbooks.got result).cleared)

/-- **An error of the server** is read to its end. -/
theorem statementServerError_spec (hbooks : s.Books []) :
    Always (statementServerError api) s fun status s' => status ≠ .ok ∧ Stopped s s' := by
  refine statementError_spec.bind fun status t ht => ?_
  obtain ⟨hstatus, rfl⟩ := ht
  refine statementClearResult_spec.bind fun _ t ht => ?_
  subst ht
  refine (statementDrainResults_spec hbooks.broken.clear 16).bind fun _ u hu =>
    Always.done ⟨hstatus, ?_⟩
  obtain ⟨hframe, hbooks, hstatement, hconnection⟩ := hu
  have hbroken : u.statement = { s.statement with
      currentResult := none, cancelConnection := none, phase := .failed } := by
    rw [hstatement, LibpqSession.clear_statement, LibpqSession.broken_statement]
  refine ⟨hframe.trans ?_, hbooks, by rw [hbroken], by rw [hbroken],
    hconnection.imp id (And.imp_left fun hphase => ?_)⟩
  · rw [LibpqSession.clear_frame, LibpqSession.broken_frame]
  · rw [hphase, LibpqSession.clear_connection]
    rfl

/-! ## Results -/

/-- Metadata that does not fit is never an error of SQL. -/
theorem metadataFault_ne_sql {spec : LibpqStatementSpec} {result : LibpqResult}
    {checkParameters : Bool}
    {errorClass : ErrorClass} (h : metadataFault spec result checkParameters = some errorClass) :
    errorClass ≠ .sql := by
  unfold metadataFault at h
  split at h
  · cases h
    exact ErrorClass.noConfusion
  · split at h
    · cases h
      exact ErrorClass.noConfusion
    · split at h
      · cases h
      · obtain ⟨field, -, hfield⟩ := List.exists_of_findSome?_eq_some h
        unfold fieldFault at hfield
        split at hfield
        · cases hfield
          exact ErrorClass.noConfusion
        · split at hfield
          · cases hfield
            exact ErrorClass.noConfusion
          · cases hfield

/-- What is got is held. -/
theorem always_statementTakeResult {β : Type} {k : Option LibpqResult → LibpqM W β}
    {R : β → LibpqSession → Prop} (hnone : Always (k none) (s.note .drained) R)
    (hsome : ∀ result, Always (k (some result)) (s.holding result) R) :
    Always (statementTakeResult api >>= k) s R := by
  refine Always.bind (P := fun got s' => (got = none ∧ s' = s.note .drained) ∨
    ∃ result, got = some result ∧ s' = s.holding result) ?_ ?_
  · exact always_apiGetResult (fun _ => .inl ⟨rfl, rfl⟩) fun result _ => .inr ⟨result, rfl, rfl⟩
  · rintro got s' (⟨rfl, rfl⟩ | ⟨result, rfl, rfl⟩)
    · exact hnone
    · exact hsome result

/-- libpq has nothing more to say, or the statement is stopped. -/
theorem statementNoMore_spec (h : Works s t) :
    Always (statementNoMore api) t fun status s' =>
      (status = .ok ∧ s' = t.note .drained) ∨ (status ≠ .ok ∧ Stopped s s') := by
  refine always_statementTakeResult (Always.done (.inl ⟨rfl, rfl⟩)) fun result => ?_
  refine statementClearResult_spec.bind fun _ u hu => ?_
  subst hu
  refine (statementError_stops ?_ (h.books.holding h.result).clear ErrorClass.noConfusion).mono
    fun _ _ => .inr
  rw [LibpqSession.clear_frame]
  exact h.frame

/-- The fields are described, or the statement stops; nothing else changes. -/
theorem statementCheck_spec {mode : FinishMode} {result : LibpqResult} (hframe : t.frame = s.frame)
    (hbooks : t.Books []) :
    Always (statementCheck api mode result) t fun status s' =>
      (status = .ok ∧ ∃ describedFields, s' = t.setStatement { t.statement with describedFields }) ∨
        (status ≠ .ok ∧ Stopped s s') := by
  have hfail : ∀ {errorClass}, errorClass ≠ .sql →
    Always (statementError api errorClass) t fun status s' =>
      (status = .ok ∧ ∃ describedFields, s' = t.setStatement { t.statement with describedFields }) ∨
        (status ≠ .ok ∧ Stopped s s') := fun hclass =>
    (statementError_stops hframe hbooks hclass).mono fun _ _ => .inr
  have hsame : Always (pure .ok : LibpqM W ClientStatus) t fun status s' =>
      (status = .ok ∧ ∃ describedFields, s' = t.setStatement { t.statement with describedFields }) ∨
        (status ≠ .ok ∧ Stopped s s') := Always.done (.inl ⟨rfl, t.statement.describedFields, rfl⟩)
  unfold statementCheck
  refine Always.look (.ite (fun _ => hsame) fun _ => ?_)
  split
  · exact hfail (metadataFault_ne_sql ‹_›)
  · refine .ite (fun _ => ?_) fun _ => hsame
    unfold statementCaptureMetadata
    refine Always.look
      (.ite (fun _ => hsame) fun _ => .ite (fun _ => hfail ErrorClass.noConfusion) fun _ =>
      Always.ask fun allocated => .ite (fun _ => hfail ErrorClass.noConfusion) fun _ => ?_)
    split
    · exact hfail ErrorClass.noConfusion
    · rename_i describedFields _
      exact fun _ => .inl ⟨rfl, describedFields, rfl⟩

/-- **A command is finished with one result**, or the statement stops. -/
theorem statementFinishResult_spec {mode : FinishMode} (h : Works s s) :
    Always (statementFinishResult api mode) s fun status s' =>
      (status = .ok ∧ Drained s s') ∨ (status ≠ .ok ∧ Stopped s s') := by
  refine always_statementTakeResult ?_ fun result => ?_
  · exact (statementError_stops (s := s) (t := s.note .drained) rfl h.books.drained
      ErrorClass.noConfusion).mono fun _ _ => .inr
  have hbooks : (s.holding result).Books [] := h.books.holding h.result
  refine .ite (fun _ => (statementServerError_spec hbooks).mono fun _ _ hstop =>
    .inr ⟨hstop.1, hstop.2.after LibpqSession.holding_frame⟩) fun _ => ?_
  refine (statementCheck_spec (s := s) LibpqSession.holding_frame hbooks).bind fun check u hu => ?_
  refine statementClearResult_spec.bind fun _ v hv => ?_
  subst hv
  rcases hu with ⟨rfl, describedFields, rfl⟩ | ⟨hcheck, hstop⟩
  · rw [if_neg (by simp)]
    have hworks : Works s ((s.holding result).setStatement
        { (s.holding result).statement with describedFields }).clear :=
      { frame := LibpqSession.clear_frame
        books := LibpqSession.Books.clear (hbooks.setStatement rfl rfl rfl rfl)
        connection := by rw [LibpqSession.clear_connection]; exact h.connection
        result := by rw [LibpqSession.clear_statement]
        cancel := by rw [LibpqSession.clear_statement]; exact h.cancel }
    refine (statementNoMore_spec hworks).mono fun status s' hend => hend.imp ?_ id
    rintro ⟨hstatus, rfl⟩
    refine ⟨hstatus, { hworks with books := hworks.books.drained, phase := ?_, quiet := rfl }⟩
    show (LibpqSession.clear _).statement.phase = _
    rw [LibpqSession.clear_statement]
    rfl
  · rw [if_pos hcheck]
    exact Always.done (.inr ⟨hcheck, hstop.clear⟩)

end Specs

end Vps
