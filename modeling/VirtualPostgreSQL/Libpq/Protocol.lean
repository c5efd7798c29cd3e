import VirtualPostgreSQL.Libpq.Sound

/-!
# Libpq/Protocol — sessions, over any run

The client layer calls the adapter, in any order as long as the object of a call is there: there is
one connection at a time, with at most one statement, and it is destroyed behind that
(`LibpqCall.there`).  Whatever libpq, the platform and the allocator answer, what holds of a session
holds after every run (`libpq_session_protocol`, `libpq_rows_readable`).
-/

namespace Vps

open Machinery

/-! ## Calls -/

/-- A call of the client layer. -/
inductive LibpqCall
  | connectionCreate
  | connectionStart (operation : ClientOperation)
  | connectionPoll
  | connectionWait (wait : ClientWaitRequest)
  | connectionDestroy
  | statementCreate (spec : LibpqStatementSpec)
  | statementStart (operation : ClientOperation)
  | statementPoll
  | statementWait (wait : ClientWaitRequest)
  | statementRowRelease
  | statementDestroy

/-- What a call gives; a poll's reply stands with what was polled for. -/
inductive LibpqAnswer
  | notThere
  | done
  | status (status : ClientStatus)
  | connectionReply (wait : ClientWaitPhase) (reply : Option ClientPollReply)
  | statementReply (operation : ClientOperation) (reply : ClientPollReply)

/-- The object of a call is there; a connection is destroyed behind its statement.  A second
connection is refused as long as there is one. -/
def LibpqCall.there (s : LibpqSession) : LibpqCall → Bool
  | .connectionCreate => true
  | .connectionStart _ | .connectionPoll | .connectionWait _ | .statementCreate _ =>
    s.connectionLive
  | .connectionDestroy => s.connectionLive && !s.statementLive
  | .statementStart _ | .statementPoll | .statementWait
    _ | .statementRowRelease | .statementDestroy =>
    s.statementLive

section Steps

variable {W : Type} (api : LibpqApi W) (rounds : ℕ)

/-- A call that is made. -/
def libpqCall (s : LibpqSession) : LibpqCall → LibpqM W LibpqAnswer
  | .connectionCreate => do return .status (← libpqConnectionCreate api)
  | .connectionStart operation => do return .status (← libpqConnectionStart api operation)
  | .connectionPoll => do
    return .connectionReply (connectionWaitPhase s.connection) (← libpqConnectionPoll api rounds)
  | .connectionWait wait => do return .status (← libpqConnectionWait api wait)
  | .connectionDestroy => do
    libpqConnectionDestroy
    return .done
  | .statementCreate spec => do return .status (← statementCreate api spec)
  | .statementStart operation => do return .status (← statementStart api operation)
  | .statementPoll => do return .statementReply s.statement.phase.operation (← statementPoll api)
  | .statementWait wait => do return .status (← statementWait api wait)
  | .statementRowRelease => do
    statementRowRelease
    return .done
  | .statementDestroy => do
    statementDestroy
    return .done

/-- **One call.** -/
def libpqStep (call : LibpqCall) : LibpqM W LibpqAnswer := do
  let s ← Asking.look
  if call.there s then libpqCall api rounds s call
  else return .notThere

end Steps

/-- **A reply that the client layer does not find broken.** -/
def LibpqAnswer.Fits : LibpqAnswer → Prop
  | .connectionReply wait reply =>
    ∃ r, reply = some r ∧ ∀ operation, operationWaitPhase operation = wait →
      r.status = some .ok → connectionPollBroken r operation = false
  | .statementReply operation reply =>
    reply.status = some .ok → statementPollBroken reply operation = false
  | _ => True

/-! ## Answers that are steady -/

/-- Answers that are as they should be, and results as they are in a list. -/
def steadyApi : LibpqApi (List (Option LibpqResult)) where
  connectStart _ w := (true, w)
  setNonblocking w := (0, w)
  connectPoll w := (some .ok, w)
  socketHandle w := (7, w)
  connectionOk w := (true, w)
  transactionStatus w := (.idle, w)
  pipelineOff w := (true, w)
  connectionErrorClass w := (none, w)
  tlsVerify w := (true, w)
  identityVerify w := (true, w)
  send _ w := (1, w)
  setSingleRowMode w := (1, w)
  cancelCreate w := (true, w)
  cancelStart w := (1, w)
  cancelPoll w := (some .ok, w)
  cancelSocket w := (8, w)
  flush w := (0, w)
  consumeInput w := (1, w)
  isBusy w := (false, w)
  getResult w := (w.head?.join, w.tail)
  nowMs w := (some 0, w)
  socketWait _ w := ((.ok, { outcome := .ready }), w)
  allocate w := (true, w)
  storeError w := (true, w)

/-- A client without settings. -/
def plainClient : LibpqClient where
  config := ⟨⟨0, 0, 0⟩, fun _ => none⟩
  tlsMode := .verifyFull
  channelBinding := .prefer
  sessionPlan := {}
  hasInterruptProbe := false
  connectTimeoutMs := 1000
  cancelTimeoutMs := 1000
  waitSliceMs := 50
  resetMode := .discardAll
  statementSerial := 0

/-- A query of one value. -/
def oneValueSpec : LibpqStatementSpec where
  query := ascii "SELECT 1"
  resultFields := [⟨25, .text⟩]
  timeoutMs := 1000
  singleRow := true

/-- A result with one row of one value. -/
def oneRow (status : LibpqResultStatus) : LibpqResult where
  status
  parameterCount := 0
  parameterType _ := 0
  fieldCount := 1
  fieldType _ := 25
  fieldName _ := none
  fieldModifier _ := -1
  fieldRelation _ := 0
  fieldAttribute _ := 0
  fieldFormat _ := 0
  rowCount := 1
  commandTuples := none
  valueIsNull _ := false
  valueLength _ := 1
  value _ := some (ascii "1")
  sqlstate := none

section Runs

variable {W : Type} {api : LibpqApi W} {s t : LibpqSession} {client : LibpqClient} {rounds : ℕ}

/-! ## One call -/

theorem clientWaitValid_of_slice {interest : ClientWaitInterest} {operation : ClientOperation}
    {slice : UInt32} (hslice : 0 < slice ∧ slice ≤ 1000) :
    clientWaitValid ⟨some interest, some (operationWaitPhase operation), slice⟩
      operation = true := by
  simp [clientWaitValid, hslice.1, hslice.2]

/-- What a poll of the connection replies can be waited for… -/
theorem ConnectionReplies.fits {wait : ClientWaitPhase} {reply : Option ClientPollReply}
    (hslice : 0 < s.client.waitSliceMs ∧ s.client.waitSliceMs ≤ 1000)
    (h : ConnectionReplies s wait reply t) :
    (LibpqAnswer.connectionReply wait reply).Fits := by
  cases h with
  | failed hstatus down => exact ⟨_, rfl, fun _ _ hok => absurd (Option.some.inj hok) hstatus⟩
  | complete up => exact ⟨_, rfl, fun _ _ _ => rfl⟩
  | @wait _ interest runs =>
    refine ⟨_, rfl, fun operation hoperation _ => ?_⟩
    subst hoperation
    simp [connectionPollBroken, pollWait, observedStatus, clientWaitValid_of_slice hslice]

/-- …and what a poll of the statement replies as well. -/
theorem Replies.answer {reply : ClientPollReply}
    (hslice : 0 < s.client.waitSliceMs ∧ s.client.waitSliceMs ≤ 1000) (h : Replies s reply t) :
    (LibpqAnswer.statementReply s.statement.phase.operation reply).Fits := by
  intro hok
  rcases h.fits hok with hcomplete | ⟨hrow, hfetch⟩ | ⟨interest, rfl⟩
  · simp [statementPollBroken, hok, hcomplete, observedStatus]
  · simp [statementPollBroken, hok, hrow, hfetch, observedStatus]
  · simp [statementPollBroken, pollWait, observedStatus, clientWaitValid_of_slice hslice]

/-- **Every call** leaves a sound session sound, and a poll's reply is one that fits. -/
theorem libpqStep_spec (call : LibpqCall) (h : s.Sound)
    (hrounds : 2 * s.client.sessionPlan.settings.length + 4 ≤ rounds)
    (hslice : 0 < s.client.waitSliceMs ∧ s.client.waitSliceMs ≤ 1000) :
    Always (libpqStep api rounds call) s fun answer s' => answer.Fits ∧ Stays s s' := by
  have hstatus : ∀ {m : LibpqM W ClientStatus}, Always m s (fun _ => Stays s) →
      Always (m >>= fun status => (pure (.status status) : LibpqM W LibpqAnswer)) s
        fun answer s' => answer.Fits ∧ Stays s s' :=
    fun hm => hm.bind fun _ _ hstays => Always.done ⟨trivial, hstays⟩
  have hdone : ∀ {m : LibpqM W Unit}, Always m s (fun _ => Stays s) →
      Always (m >>= fun _ => (pure .done : LibpqM W LibpqAnswer)) s
        fun answer s' => answer.Fits ∧ Stays s s' :=
    fun hm => hm.bind fun _ _ hstays => Always.done ⟨trivial, hstays⟩
  refine Always.look (.ite (fun hthere => ?_) fun _ => Always.done ⟨trivial, .refl h⟩)
  cases call with
  | connectionCreate => exact hstatus (libpqConnectionCreate_spec h)
  | connectionStart operation => exact hstatus (libpqConnectionStart_spec operation h hthere)
  | connectionPoll =>
    exact (libpqConnectionPoll_spec h hthere hrounds).bind fun _ _ hreply =>
      Always.done ⟨hreply.2.fits hslice, hreply.1⟩
  | connectionWait wait => exact hstatus (libpqConnectionWait_spec wait h hthere)
  | connectionDestroy =>
    have hdead : s.statementLive = false := by
      simp only [LibpqCall.there, Bool.and_eq_true, Bool.not_eq_true'] at hthere
      exact hthere.2
    exact hdone (libpqConnectionDestroy_spec h hdead)
  | statementCreate spec => exact hstatus (statementCreate_spec spec h hthere)
  | statementStart operation =>
    exact hstatus
      ((statementStart_spec operation (h.serves hthere)).mono fun _ _ hgoes => hgoes.stays h hthere)
  | statementPoll =>
    exact (statementPoll_spec (h.serves hthere)).bind fun _ _ hreply =>
      Always.done ⟨hreply.answer hslice, hreply.goes.stays h hthere⟩
  | statementWait wait =>
    exact hstatus
      ((statementWait_spec wait (h.serves hthere)).mono fun _ _ hgoes => hgoes.stays h hthere)
  | statementRowRelease =>
    exact hdone ((statementRowRelease_spec (h.serves hthere)).mono fun _ _ hgoes =>
      hgoes.stays h hthere)
  | statementDestroy => exact hdone (statementDestroy_spec h hthere)

/-! ## Runs -/

/-- A session without a connection is sound. -/
theorem start_sound (client : LibpqClient) : ({ client } : LibpqSession).Sound where
  books :=
    { ledger := .nil
      fresh := fun _ hmem => by cases hmem
      orderly := fun later command earlier heq => by simp at heq
      exchanged := fun later operation earlier heq => by simp at heq
      names := List.nodup_nil
      named := fun _ hmem => by cases hmem
      rows := rfl
      bytes := rfl
      limit := fun _ hmem => by cases hmem }
  gone := fun _ => ⟨rfl, rfl⟩
  closed := fun _ => rfl
  count := rfl
  alone := fun _ => ⟨fun _ => rfl, fun he => LibpqConnectionPhase.noConfusion he,
    fun he => LibpqConnectionPhase.noConfusion he, fun he => LibpqConnectionPhase.noConfusion he⟩
  serves := fun hserved => Bool.noConfusion hserved

theorem LibpqClient.same_of_fixed {c c' : LibpqClient} (h : c.fixed = c'.fixed) :
    c.sessionPlan = c'.sessionPlan ∧ c.resetMode = c'.resetMode ∧
      c.waitSliceMs = c'.waitSliceMs := by
  have hfields := fun field : LibpqClient → SessionPlan × LibpqResetMode × UInt32 =>
    congrArg field h
  simpa [LibpqClient.fixed] using hfields fun c => (c.sessionPlan, c.resetMode, c.waitSliceMs)

/-- **After any run** the session is sound, and every reply fits. -/
theorem libpqRun_spec (api : LibpqApi W)
    (hrounds : 2 * client.sessionPlan.settings.length + 4 ≤ rounds)
    (hslice : 0 < client.waitSliceMs ∧ client.waitSliceMs ≤ 1000) (calls : List LibpqCall) :
    Always (Asking.each (libpqStep api rounds) calls) { client } fun answers (s : LibpqSession) =>
      (∀ answer ∈ answers, answer.Fits) ∧ s.Sound ∧ s.client.fixed = client.fixed := by
  refine Always.each (I := fun (s : LibpqSession) => s.Sound ∧ s.client.fixed = client.fixed)
    (fun call _ s hs => ?_) ⟨start_sound client, rfl⟩
  obtain ⟨hplan, -, hsame⟩ := LibpqClient.same_of_fixed hs.2
  exact (libpqStep_spec call hs.1 (hplan ▸ hrounds) (hsame ▸ hslice)).mono fun _ _ h =>
    ⟨h.1, h.2.sound, h.2.client.trans hs.2⟩

/-- **Whatever is called on one connection at a time and its statement, and whatever libpq, the
platform and the allocator answer**: a poll never runs on, and its reply is one that the client
layer does not find broken; every connection, result and cancel connection that libpq hands out is
given back once, or still held; no command is sent while another is outstanding, or before the
connection's TLS policy and identity were verified; an operation that is completed has sent exactly
what it had to send, and each answer to it was the one that it accepts; no name is given to two
statements; and when the connection is ready and its statement at rest, nothing is outstanding. -/
theorem libpq_session_protocol (api : LibpqApi W)
    (hrounds : 2 * client.sessionPlan.settings.length + 4 ≤ rounds)
    (hslice : 0 < client.waitSliceMs ∧ client.waitSliceMs ≤ 1000) (calls : List LibpqCall) (w : W) :
    ∃ answers s w', Asking.each (libpqStep api rounds) calls { client } w = (answers, s, w') ∧
      (∀ answer ∈ answers, answer.Fits) ∧ Ledger (handleLog s.log) s.held ∧ Orderly s.log ∧
      Exchanged client.sessionPlan client.resetMode s.log ∧ (preparedNames s.log).Nodup ∧
      (s.connection.phase = .ready → s.statement.phase.resting = true →
        outstanding s.log = false) := by
  have hrun := libpqRun_spec api hrounds hslice calls w
  generalize Asking.each (libpqStep api rounds) calls { client } w = out at hrun ⊢
  obtain ⟨answers, s, w'⟩ := out
  obtain ⟨hfits, hsound, hclient⟩ := hrun
  obtain ⟨hplan, hmode, -⟩ := LibpqClient.same_of_fixed hclient
  refine ⟨answers, s, w', rfl, hfits, hsound.books.ledger, hsound.books.orderly, ?_,
    hsound.books.names, fun hready hresting => ?_⟩
  · dsimp only at hplan hmode
    rw [← hplan, ← hmode]
    exact hsound.books.exchanged
  · cases hlive : s.statementLive with
    | true => exact (hsound.serves hlive).quiet hready hresting
    | false => exact ((hsound.alone hlive).ready hready).1

theorem libpq_session_protocol_ping :
    ∃ answers s w',
      Asking.each (libpqStep steadyApi 4) [.connectionCreate, .connectionStart .connect,
        .connectionPoll, .connectionStart .ping, .connectionPoll] { client := plainClient }
          [none, some (oneRow .tuplesOk), none] =
          (answers, s, w') ∧
      (∀ answer ∈ answers, answer.Fits) ∧ Ledger (handleLog s.log) s.held ∧ Orderly s.log ∧
      Exchanged plainClient.sessionPlan plainClient.resetMode s.log ∧ (preparedNames s.log).Nodup ∧
      (s.connection.phase = .ready → s.statement.phase.resting = true →
        outstanding s.log = false) :=
  libpq_session_protocol steadyApi (by decide) (by decide) _ _

/-! ## Rows -/

/-- The values of a row whose bytes are counted can be read. -/
theorem rowBytesLoop_readable {result : LibpqResult} {indexes : List ℕ} {start bytes : ℕ}
    (h : rowBytesLoop result indexes start = some bytes) {index : ℕ} (hmem : index ∈ indexes)
    (hnull : result.valueIsNull index = false) :
    ¬(result.valueLength index < 0 ∨ result.valueLength index > clientMaxColumnBytes) ∧
      (result.value index).isSome := by
  induction indexes generalizing start with
  | nil => cases hmem
  | cons first rest ih =>
    unfold rowBytesLoop at h
    split at h
    · rename_i hskip
      rcases List.mem_cons.mp hmem with rfl | hmem
      · exact Bool.noConfusion (hnull.symm.trans hskip)
      · exact ih h hmem
    · dsimp only at h
      split at h
      · cases h
      · rename_i hfits
        rcases List.mem_cons.mp hmem with rfl | hmem
        · rw [not_or, not_or, not_or, Option.isNone_iff_eq_none] at hfits
          exact ⟨not_or.mpr ⟨hfits.1, hfits.2.1⟩, Option.isSome_iff_ne_none.mpr hfits.2.2.2⟩
        · exact ih h hmem

/-- The fields of a result without a fault are as they are expected. -/
theorem metadataFault_fields {spec : LibpqStatementSpec} {result : LibpqResult}
    (h : metadataFault spec result false = none)
    (hknown : spec.discoverResultFields = false) {index : ℕ}
    {field : LibpqExpectedField} (hfield : spec.resultFields[index]? = some field) :
    result.fieldType index = field.typeOid ∧ result.fieldFormat index = field.format.number := by
  unfold metadataFault at h
  split at h
  · cases h
  · rw [Bool.false_and, if_neg Bool.false_ne_true, hknown, if_neg Bool.false_ne_true] at h
    have hnone :=
      List.findSome?_eq_none_iff.mp h (field, index) (List.mk_mem_zipIdx_iff_getElem?.mpr hfield)
    unfold fieldFault at hnone
    split at hnone
    · cases hnone
    · split at hnone
      · cases hnone
      · exact ⟨not_not.mp ‹_›, not_not.mp ‹_›⟩

/-- **A column of a row that is shown.** -/
theorem statementColumn_readable {index : ℕ} {field : LibpqExpectedField} (h : s.statement.Formed)
    (hrow : s.statement.phase = .rowReady)
    (hfield : s.statement.spec.resultFields[index]? = some field) :
    ∃ column, statementColumn s index = .ok column ∧ column.length ≤ clientMaxColumnBytes ∧
      (column.isNull = true ∨ column.data.isSome) ∧
      (s.statement.spec.discoverResultFields = false →
        column.typeOid = field.typeOid ∧ column.format = field.format.number) := by
  obtain ⟨key, result, hcurrent, hmetadata, hbytes⟩ := h.readable hrow
  obtain ⟨bytes, hbytes⟩ := Option.isSome_iff_exists.mp hbytes
  have hlt : index < s.statement.spec.resultFields.length := (List.getElem?_eq_some_iff.mp hfield).1
  have hfields := fun hknown => metadataFault_fields hmetadata hknown hfield
  unfold statementColumn
  rw [hcurrent]
  dsimp only
  rw [if_neg (not_or.mpr ⟨not_not.mpr hrow, Nat.not_le.mpr hlt⟩)]
  cases hnull : result.valueIsNull index with
  | true => exact ⟨_, rfl, Nat.zero_le _, .inl rfl, hfields⟩
  | false =>
    obtain ⟨hlength, hvalue⟩ := rowBytesLoop_readable hbytes (List.mem_range.mpr hlt) hnull
    obtain ⟨data, hdata⟩ := Option.isSome_iff_exists.mp hvalue
    rw [if_neg Bool.false_ne_true, if_neg hlength, hdata]
    refine ⟨_, rfl, ?_, .inr rfl, hfields⟩
    rw [not_or] at hlength
    dsimp only
    omega

/-- A column is as long as libpq says, or null. -/
theorem statementColumn_length {key index : ℕ} {result : LibpqResult} {column : LibpqColumn}
    (hcurrent : s.statement.currentResult = some (key, result))
    (h : statementColumn s index = .ok column) :
    column.length = if result.valueIsNull index then 0 else (result.valueLength index).toNat := by
  unfold statementColumn at h
  rw [hcurrent] at h
  dsimp only at h
  split at h
  · cases h
  split at h
  · rename_i hnull
    obtain rfl := Except.ok.inj h
    rw [if_pos hnull]
  split at h
  · cases h
  rename_i hnull _
  split at h
  · cases h
  · obtain rfl := Except.ok.inj h
    rw [if_neg hnull]

/-- What the columns of a row have together. -/
def columnBytes (s : LibpqSession) (count : ℕ) : ℕ :=
  ((List.range count).map fun index => (statementColumn s index).toOption.elim 0 (·.length)).sum

/-- **What the columns show is what the result has.** -/
theorem columnBytes_eq {key : ℕ} {result : LibpqResult} (h : s.statement.Formed)
    (hrow : s.statement.phase = .rowReady)
    (hcurrent : s.statement.currentResult = some (key, result)) :
    columnBytes s s.statement.spec.resultFields.length =
      result.rowLength s.statement.spec.resultFields.length := by
  refine congrArg List.sum (List.map_congr_left fun index hindex => ?_)
  have hfield := List.getElem?_eq_getElem (List.mem_range.mp hindex)
  obtain ⟨column, hcolumn, -⟩ := statementColumn_readable h hrow hfield
  rw [hcolumn]
  exact statementColumn_length hcurrent hcolumn

/-- **Whatever was called before**: the open statement counts the rows that it has shown, and their
bytes, and none has more than the limit; when the adapter shows a row it is the newest of them, each
of its columns can be read, is no longer than the limit, and has the type and the format that were
expected. -/
theorem libpq_rows_readable (api : LibpqApi W)
    (hrounds : 2 * client.sessionPlan.settings.length + 4 ≤ rounds)
    (hslice : 0 < client.waitSliceMs ∧ client.waitSliceMs ≤ 1000) (calls : List LibpqCall) (w : W) :
    ∃ answers s w', Asking.each (libpqStep api rounds) calls { client } w = (answers, s, w') ∧
      s.statement.publishedRowCount.toNat = (publishedRows s.log).length ∧
      s.statement.publishedByteCount.toNat = (publishedRows s.log).sum ∧
      (∀ bytes ∈ publishedRows s.log, bytes ≤ clientMaxRowBytes) ∧
      ∀ count, statementRow s = .ok count →
        (publishedRows s.log).head? = some (columnBytes s count) ∧ ∀ index < count, ∃ column field,
          statementColumn s index = .ok column ∧
            s.statement.spec.resultFields[index]? = some field ∧
          column.length ≤ clientMaxColumnBytes ∧ (column.isNull = true ∨ column.data.isSome) ∧
          (s.statement.spec.discoverResultFields = false →
            column.typeOid = field.typeOid ∧ column.format = field.format.number) := by
  have hrun := libpqRun_spec api hrounds hslice calls w
  generalize Asking.each (libpqStep api rounds) calls { client } w = out at hrun ⊢
  obtain ⟨answers, s, w'⟩ := out
  obtain ⟨-, hsound, -⟩ := hrun
  refine ⟨answers, s, w', rfl, hsound.books.rows, hsound.books.bytes, hsound.books.limit,
    fun count hcount => ?_⟩
  unfold statementRow at hcount
  split at hcount
  · cases hcount
  · rename_i hrow
    cases hcount
    rw [not_or, not_not] at hrow
    have hserves : s.Serves := by
      cases hlive : s.statementLive with
      | true => exact hsound.serves hlive
      | false =>
        have hclosed : s.statement = {} := hsound.closed hlive
        rw [hclosed] at hrow
        cases hrow.1
    obtain ⟨key, result, hcurrent, -⟩ := hserves.formed.readable hrow.1
    refine ⟨?_, fun index hindex => ?_⟩
    · rw [hserves.shown hrow.1 key result hcurrent, columnBytes_eq hserves.formed hrow.1 hcurrent]
    · have hfield := List.getElem?_eq_getElem hindex
      obtain ⟨column, hcolumn, hrest⟩ := statementColumn_readable hserves.formed hrow.1 hfield
      exact ⟨column, _, hcolumn, hfield, hrest⟩

theorem libpq_rows_readable_one :
    ∃ answers s w',
      Asking.each (libpqStep steadyApi 4) [.connectionCreate, .connectionStart .connect,
        .connectionPoll, .statementCreate oneValueSpec, .statementStart .execute, .statementPoll,
        .statementStart .fetch, .statementPoll] { client := plainClient }
          [some (oneRow .singleTuple)] = (answers, s, w') ∧
      s.statement.publishedRowCount.toNat = (publishedRows s.log).length ∧
      s.statement.publishedByteCount.toNat = (publishedRows s.log).sum ∧
      (∀ bytes ∈ publishedRows s.log, bytes ≤ clientMaxRowBytes) ∧
      ∀ count, statementRow s = .ok count →
        (publishedRows s.log).head? = some (columnBytes s count) ∧ ∀ index < count, ∃ column field,
          statementColumn s index = .ok column ∧
            s.statement.spec.resultFields[index]? = some field ∧
          column.length ≤ clientMaxColumnBytes ∧ (column.isNull = true ∨ column.data.isSome) ∧
          (s.statement.spec.discoverResultFields = false →
            column.typeOid = field.typeOid ∧ column.format = field.format.number) :=
  libpq_rows_readable steadyApi (by decide) (by decide) _ _

/-! ## Failures -/

/-- **What becomes of a connection that has failed**: it stays so, and what is held is given
back. -/
structure Spent (s s' : LibpqSession) : Prop where
  live : s'.connectionLive = true
  phase : s'.connection.phase = .failed
  log : ∃ later, s'.log = later ++ s.log ∧
    ∀ e ∈ later, (∃ key, e = .cleared key) ∨ (∃ key, e = .cancelFinished key) ∨ e = .closed

theorem Spent.noted {e : LibpqEvent} {u : LibpqSession} (h : Spent s t)
    (hlive : u.connectionLive = t.connectionLive) (hphase : u.connection.phase = .failed)
    (hlog : u.log = e :: t.log)
    (hevent : (∃ key, e = .cleared key) ∨ (∃ key, e = .cancelFinished key) ∨ e = .closed) :
    Spent s u := by
  obtain ⟨later, hlater, hback⟩ := h.log
  exact ⟨hlive.trans h.live, hphase, e :: later, by rw [hlog, hlater]; rfl,
    List.forall_mem_cons.mpr ⟨hevent, hback⟩⟩

/-- A failed session that clears its result gives something back… -/
theorem Spent.clear (h : Spent s t) : Spent s t.clear := by
  unfold LibpqSession.clear
  split
  · exact h.noted rfl h.phase rfl (.inl ⟨_, rfl⟩)
  · exact h

/-- …and so does one that finishes its cancel object. -/
theorem Spent.uncancel (h : Spent s t) : Spent s t.uncancel := by
  unfold LibpqSession.uncancel
  split
  · exact h.noted rfl h.phase rfl (.inr (.inl ⟨_, rfl⟩))
  · exact h

/-- **No call but its destruction** does anything with a connection that has failed. -/
theorem libpqStep_spent {call : LibpqCall} (h : Spent s t) (hcall : call ≠ .connectionDestroy) :
    Always (libpqStep api rounds call) t fun _ s' => Spent s s' := by
  have hphase := h.phase
  refine Always.look (.ite (fun hthere => ?_) fun _ => Always.done h)
  cases call with
  | connectionCreate =>
    refine Always.bind (P := fun _ u => u = t) (Always.look ?_) fun _ u hu => Always.done (hu ▸ h)
    rw [if_pos h.live]
    exact Always.done rfl
  | connectionStart operation =>
    refine Always.bind (P := fun _ u => u = t) (Always.look ?_) fun _ u hu => Always.done (hu ▸ h)
    rw [if_neg (by simp [hphase]), if_pos (by simp [hphase])]
    exact Always.done rfl
  | connectionPoll =>
    refine Always.bind (P := fun _ u => u = t) (Always.look ?_) fun _ u hu => Always.done (hu ▸ h)
    rw [if_pos (by simp [hphase])]
    exact Always.done rfl
  | connectionWait wait =>
    refine Always.bind (P := fun _ u => u = t) (Always.look ?_) fun _ u hu => Always.done (hu ▸ h)
    rw [if_pos (by simp [hphase])]
    exact Always.done rfl
  | connectionDestroy => exact absurd rfl hcall
  | statementCreate spec =>
    refine Always.bind (P := fun _ u => u = t) (Always.look ?_) fun _ u hu => Always.done (hu ▸ h)
    rw [if_pos (by simp [hphase])]
    exact Always.done rfl
  | statementStart operation =>
    refine Always.bind (P := fun _ u => u = t) (Always.look ?_) fun _ u hu => Always.done (hu ▸ h)
    dsimp only
    rw [if_pos (by simp [hphase])]
    exact Always.done rfl
  | statementPoll =>
    refine Always.bind (P := fun _ u => u = t) (Always.look ?_) fun _ u hu => Always.done (hu ▸ h)
    rw [if_pos (by simp [hphase])]
    exact Always.done rfl
  | statementWait wait =>
    refine Always.bind (P := fun _ u => u = t) (Always.look ?_) fun _ u hu => Always.done (hu ▸ h)
    rw [if_pos (by simp [hphase])]
    exact Always.done rfl
  | statementRowRelease =>
    refine Always.bind (P := fun _ u => Spent s u)
      (Always.look (.ite (fun _ => Always.done h) fun _ => ?_)) fun _ _ hu => Always.done hu
    refine statementClearResult_spec.bind fun _ u hu => ?_
    subst hu
    exact always_changeStatement_last ⟨h.clear.live, h.clear.phase, h.clear.log⟩
  | statementDestroy =>
    refine Always.bind (P := fun _ u => Spent s u)
      (Always.look (statementClearResult_spec.bind fun _ u hu =>
      statementFinishCancel_spec.bind fun _ v hv => always_changeConnection (always_noteEvent ?_)))
      fun _ _ hu => Always.done hu
    subst hu hv
    have hgiven := h.clear.uncancel
    refine fun _ => hgiven.noted rfl ?_ rfl (.inr (.inr rfl))
    show (if t.statement.phase.resting then t.clear.uncancel.connection.phase else _) = _
    rw [hgiven.phase, ite_self]

/-- **A connection that has failed is spent**: whatever is called, short of its destruction, it
stays failed, and all that passes to libpq is what is given back; so no command is ever sent on it
again. -/
theorem libpq_failed_is_final (api : LibpqApi W) (rounds : ℕ) {s : LibpqSession}
    (hlive : s.connectionLive = true)
    (hfailed : s.connection.phase = .failed) {calls : List LibpqCall}
    (hcalls : .connectionDestroy ∉ calls) (w : W) :
    ∃ answers s' w', Asking.each (libpqStep api rounds) calls s w = (answers, s', w') ∧
      s'.connection.phase = .failed ∧ ∃ later, s'.log = later ++ s.log ∧
        ∀ e ∈ later, (∃ key, e = .cleared key) ∨ (∃ key, e = .cancelFinished key) ∨
          e = .closed := by
  have hrun : Always (Asking.each (libpqStep api rounds) calls) s fun answers s' =>
      (∀ answer ∈ answers, True) ∧ Spent s s' := by
    refine Always.each (I := Spent s) (fun call hmem t ht => ?_)
      ⟨hlive, hfailed, [], rfl, fun _ he => by cases he⟩
    refine (libpqStep_spent ht fun heq => hcalls (heq ▸ hmem)).mono fun _ _ h => ⟨trivial, h⟩
  have hspent := (hrun w).2
  exact ⟨_, _, _, rfl, hspent.phase, hspent.log⟩

/-- A connection that has failed while its statement shows a row. -/
def failedSession : LibpqSession where
  client := plainClient
  connection := { postgresqlConnection := some 0, statementCount := 1, phase := .failed }
  connectionLive := true
  statement :=
    { spec := oneValueSpec
      currentResult := some (1, oneRow .singleTuple)
      phase := .rowReady
      publishedRowCount := 1
      publishedByteCount := 1 }
  statementLive := true
  nextKey := 2
  log := [.published oneValueSpec (oneRow .singleTuple), .got 1 (oneRow .singleTuple),
    .opened oneValueSpec]

/-- The row is released and the statement destroyed; nothing that is tried in between is sent. -/
theorem libpq_failed_is_final_rowShown :
    ∃ answers s' w', Asking.each (libpqStep steadyApi 4) [.statementPoll, .connectionStart .ping,
        .statementRowRelease, .connectionPoll, .statementDestroy] failedSession [] =
          (answers, s', w') ∧
      s'.connection.phase = .failed ∧ ∃ later, s'.log = later ++ failedSession.log ∧
        ∀ e ∈ later, (∃ key, e = .cleared key) ∨ (∃ key, e = .cancelFinished key) ∨ e = .closed :=
  libpq_failed_is_final steadyApi 4 rfl rfl (by simp) _

end Runs

end Vps
