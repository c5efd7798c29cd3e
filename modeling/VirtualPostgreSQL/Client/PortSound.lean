import VirtualPostgreSQL.Client.Port

/-!
# Client/PortSound — what the client layer keeps against any backend

`ClientMove` says what a call can do to the layer, and `clientStep_move` that it does nothing else;
the invariants are read off it, one case a move.  Whatever the backend answers, a connection has at
most one statement and rests while it has it, every handle is destroyed once, and a row can be read
until the first event that ends it.  That a connection is in a transaction only when one was begun
holds exactly until a statement completes on a connection that failed outside of a transaction.
-/

namespace Vps

open Machinery

/-! ## The moves -/

/-- **What a call can do.** -/
inductive ClientMove (layer : ClientLayer) : ClientCall → ClientLayer → Prop
  | stay (call) : ClientMove layer call layer
  | cleaned (call) : ClientMove layer call
      { layer with initialized := false, capabilities := 0, connectionCount := 0 }
  | connectionStillborn (call handle) (hnone : layer.connection = none) : ClientMove layer call
      ((layer.log (.connectionCreated handle)).log (.connectionDestroyed handle))
  | connectionOpened (call handle) (hnone : layer.connection = none) : ClientMove layer call
      { layer.log (.connectionCreated handle) with
        connectionCount := layer.connectionCount + 1
        connection := some { backendConnection := handle } }
  | connectionMoved (call state operation) {connection : ClientConnection}
      (hconnection : layer.connection = some connection)
      (hfree : connection.statementCount = 0 ∨ connection.activeOperation ≠ .none)
      (hstate : state ≠ .transactionActive) : ClientMove layer call
      (layer.setConnection { connection with state := state, activeOperation := operation })
  | connectionCompleted (call) {connection : ClientConnection}
      (hconnection : layer.connection = some connection)
      (hrunning : connection.activeOperation ≠ .none) : ClientMove layer call
      ((layer.setConnection { connection with
          activeOperation := .none
          state := connectionTerminalState connection.activeOperation }).log
        (.completed connection.activeOperation))
  | connectionClosed (call) {connection : ClientConnection}
      (hconnection : layer.connection = some connection) (hfree : connection.statementCount = 0) :
      ClientMove layer call
      { layer.log (.connectionDestroyed connection.backendConnection) with
        connectionCount := layer.connectionCount - 1
        connection := none }
  | statementStillborn (call handle) : ClientMove layer call
      ((layer.log (.statementCreated handle)).log (.statementDestroyed handle))
  | statementOpened (call handle) {connection : ClientConnection}
      (hconnection : layer.connection = some connection) (hfree : connection.statementCount = 0)
      (hidle : connection.activeOperation = .none) : ClientMove layer call
      { (layer.setConnection
          { connection with statementCount := connection.statementCount + 1 }).log
          (.statementCreated handle) with
        statements :=
          { address := layer.nextAddress, backendStatement := handle } :: layer.statements
        nextAddress := layer.nextAddress + 1 }
  | statementFailed (call) {address : ℕ} {statement : ClientStatement}
      (hstatement : layer.statementAt address = some statement) :
      ClientMove layer call (layer.failStatement statement)
  | statementStarted (call operation) {address : ℕ} {statement : ClientStatement}
      (hstatement : layer.statementAt address = some statement) : ClientMove layer call
      ((layer.setStatement { statement with
          activeOperation := operation
          state := statementRunningState operation }).log (.statementStarted address operation))
  | statementPublished (call columnCount) {address : ℕ} {statement : ClientStatement}
      (hstatement : layer.statementAt address = some statement) : ClientMove layer call
      ((layer.setStatement { statement with
          rowGeneration := statement.rowGeneration + 1
          activeOperation := .none
          state := .rowReady
          rowView := ⟨some statement.address, statement.rowGeneration + 1, columnCount⟩ }).log
        (.published statement.address (statement.rowGeneration + 1)))
  | statementCompleted (address reply row) {statement : ClientStatement}
      (hstatement : layer.statementAt address = some statement)
      (hrunning : isStatementOperation statement.activeOperation)
      (hstatus : observedStatus reply.status = .ok) (houtcome : reply.outcome = some .complete) :
      ClientMove layer (.statementPoll address reply row)
      { layer.setStatement { statement with
          activeOperation := .none
          state := statementTerminalState statement.activeOperation } with
        connection := layer.connection.map ClientConnection.mend }
  | rowConsumed (call) {address : ℕ} {statement : ClientStatement}
      (hstatement : layer.statementAt address = some statement) : ClientMove layer call
      ((layer.setStatement { statement with
          rowGeneration := statement.rowGeneration + 1
          state := .fetching
          rowView := {} }).log (.rowConsumed address))
  | statementClosed (call) {address : ℕ} {statement : ClientStatement}
      (hstatement : layer.statementAt address = some statement) : ClientMove layer call
      { (layer.freeStatement address).log (.statementDestroyed statement.backendStatement) with
        connection := layer.connection.map fun connection =>
          { connection with statementCount := connection.statementCount - 1 } }

section Moves

variable (layer : ClientLayer) (stored : Bool)

/-- No running operation is a transaction that is open. -/
theorem connectionRunningState_ne (operation : ClientOperation) :
    connectionRunningState operation ≠ .transactionActive := by
  cases operation <;> decide

/-- **Every call moves the layer** as `ClientMove` says, as opening a connection does. -/
theorem clientConnectionOpen_move (call : ClientCall) (memory : Bool) (reply : ClientCreateReply) :
    ClientMove layer call (clientConnectionOpen layer stored memory reply).1 := by
  unfold clientConnectionOpen
  split
  · exact .stay call
  rename_i hopen
  simp only [Bool.or_eq_true, Bool.not_eq_true', not_or, Bool.not_eq_true,
    Option.isSome_eq_false_iff, Option.isNone_iff_eq_none] at hopen
  split
  · exact .stay call
  dsimp only
  split
  · exact .stay call
  · split
    · exact .connectionStillborn call _ hopen.2
    · exact .connectionOpened call _ hopen.2

/-- The start of an operation moves it so. -/
theorem clientConnectionStart_move (call : ClientCall) (operation : ClientOperation)
    (reply : Option ClientStatus) :
    ClientMove layer call (clientConnectionStart layer stored operation reply).1 := by
  unfold clientConnectionStart
  split
  · exact .stay call
  rename_i connection hconnection
  split_ifs with hnone hcapability hrefused hreply
  · exact .stay call
  · exact .stay call
  · exact .stay call
  · exact .connectionMoved call _ _ hconnection (.inl (by simpa using (not_or.mp hrefused).1))
      (by decide)
  · exact .connectionMoved call _ _ hconnection (.inl (by simpa using (not_or.mp hrefused).1))
      (connectionRunningState_ne operation)

/-- A poll moves it so. -/
theorem clientConnectionPoll_move (call : ClientCall) (reply : ClientPollReply) :
    ClientMove layer call (clientConnectionPoll layer stored reply).1 := by
  unfold clientConnectionPoll
  split
  · exact .stay call
  rename_i connection hconnection
  dsimp only
  split_ifs with hnone hbroken hwait hfailed
  · exact .stay call
  · exact .connectionMoved call _ _ hconnection (.inr hnone) (by decide)
  · exact .stay call
  · exact .connectionMoved call _ _ hconnection (.inr hnone) (by decide)
  · exact .connectionCompleted call hconnection hnone

/-- A wait moves it so. -/
theorem clientConnectionWait_move (call : ClientCall) (wait : ClientWaitRequest)
    (reply : Option ClientStatus) :
    ClientMove layer call (clientConnectionWait layer stored wait reply).1 := by
  unfold clientConnectionWait
  split
  · exact .stay call
  rename_i connection hconnection
  split_ifs with hrefused hreply
  · exact .stay call
  · exact .connectionMoved call _ _ hconnection (.inr (not_or.mp hrefused).1) (by decide)
  · exact .stay call

/-- The close of the connection moves it so. -/
theorem clientConnectionClose_move (call : ClientCall) :
    ClientMove layer call (clientConnectionClose layer).1 := by
  unfold clientConnectionClose
  split
  · exact .stay call
  rename_i connection hconnection
  split_ifs with hopen
  · exact .stay call
  · exact .connectionClosed call hconnection (by simpa using hopen)

/-- The opening of a statement moves it so. -/
theorem clientStatementOpen_move (call : ClientCall) (spec : ClientStatementSpec)
    (holds memory : Bool) (reply : ClientCreateReply) :
    ClientMove layer call (clientStatementOpen layer stored spec holds memory reply).1 := by
  unfold clientStatementOpen
  split
  · exact .stay call
  rename_i connection hconnection
  split
  · exact .stay call
  split
  · exact .stay call
  rename_i hready
  simp only [not_or, not_not] at hready
  split
  · exact .stay call
  dsimp only
  split
  · exact .stay call
  · split
    · exact .statementStillborn call _
    · exact .statementOpened call _ hconnection hready.2.2 hready.2.1

/-- The start of a statement's operation moves it so. -/
theorem clientStatementStart_move (call : ClientCall) (address : ℕ) (operation : ClientOperation)
    (reply : Option ClientStatus) :
    ClientMove layer call (clientStatementStart layer stored address operation reply).1 := by
  unfold clientStatementStart
  split
  · exact .stay call
  rename_i statement hstatement
  split_ifs
  · exact .stay call
  · exact .stay call
  · exact .stay call
  · exact .statementFailed call hstatement
  · exact .statementStarted call operation hstatement

/-- The poll of a statement moves it so. -/
theorem clientStatementPoll_move (address : ℕ) (reply : ClientPollReply) (row : ClientRowReply) :
    ClientMove layer (.statementPoll address reply row)
      (clientStatementPoll layer stored address reply row).1 := by
  unfold clientStatementPoll
  split
  · exact .stay _
  rename_i statement hstatement
  dsimp only
  split
  · exact .stay _
  rename_i hrunning
  split
  · exact .statementFailed _ hstatement
  rename_i hbroken
  split
  · exact .stay _
  · unfold clientStatementPublishRow
    dsimp only
    split_ifs
    · exact .statementFailed _ hstatement
    · exact .statementFailed _ hstatement
    · exact .statementPublished _ _ hstatement
  · rename_i houtcome
    simp only [statementPollBroken, houtcome, Bool.or_eq_true, not_or] at hbroken
    exact .statementCompleted address reply row hstatement (by simpa using hrunning)
      (by simpa using hbroken.1.1.1) houtcome
  · exact .statementFailed _ hstatement

theorem clientStatementWait_move (call : ClientCall) (address : ℕ) (wait : ClientWaitRequest)
    (reply : Option ClientStatus) :
    ClientMove layer call (clientStatementWait layer stored address wait reply).1 := by
  unfold clientStatementWait
  split
  · exact .stay call
  rename_i statement hstatement
  split
  · exact .stay call
  split
  · exact .stay call
  · exact .stay call
  · exact .statementFailed call hstatement

/-- A row that is consumed moves it so. -/
theorem clientStatementRowConsumed_move (call : ClientCall) (address : ℕ) :
    ClientMove layer call (clientStatementRowConsumed layer stored address).1 := by
  unfold clientStatementRowConsumed
  split
  · exact .stay call
  rename_i statement hstatement
  split_ifs
  · exact .stay call
  · exact .statementFailed call hstatement
  · exact .rowConsumed call hstatement

/-- The close of a statement moves it so. -/
theorem clientStatementClose_move (call : ClientCall) (address : ℕ) :
    ClientMove layer call (clientStatementClose layer address).1 := by
  unfold clientStatementClose
  split
  · exact .stay call
  · rename_i statement hstatement
    exact .statementClosed call hstatement

/-- The cleanup moves it so. -/
theorem clientCleanup_move (call : ClientCall) : ClientMove layer call (clientCleanup layer).1 := by
  unfold clientCleanup
  split_ifs
  · exact .stay call
  · exact .stay call
  · exact .cleaned call

/-- **A call makes one of the moves.** -/
theorem clientStep_move (call : ClientCall) :
    ClientMove layer call (clientStep layer stored call).1 := by
  cases call with
  | cleanup => exact clientCleanup_move layer _
  | connectionOpen memory reply => exact clientConnectionOpen_move layer stored _ memory reply
  | connectionStart operation reply =>
    exact clientConnectionStart_move layer stored _ operation reply
  | connectionPoll reply => exact clientConnectionPoll_move layer stored _ reply
  | connectionWait wait reply => exact clientConnectionWait_move layer stored _ wait reply
  | connectionClose => exact clientConnectionClose_move layer _
  | statementOpen spec holds memory reply =>
    exact clientStatementOpen_move layer stored _ spec holds memory reply
  | statementStart address operation reply =>
    exact clientStatementStart_move layer stored _ address operation reply
  | statementPoll address reply row =>
    exact clientStatementPoll_move layer stored address reply row
  | statementWait address wait reply =>
    exact clientStatementWait_move layer stored _ address wait reply
  | statementMetadata => exact .stay _
  | statementResultField => exact .stay _
  | statementCurrentRow => exact .stay _
  | rowColumn => exact .stay _
  | rowConsumed address => exact clientStatementRowConsumed_move layer stored _ address
  | statementClose address => exact clientStatementClose_move layer _ address

end Moves

/-! ## One statement at a time -/

/-- **A connection rests while its statement is open**, and counts it. -/
structure LayerShape (layer : ClientLayer) : Prop where
  orphan : layer.connection = none → layer.statements = []
  counted : ∀ connection, layer.connection = some connection →
    connection.statementCount = layer.statements.length
  single : layer.statements.length ≤ 1
  idle : ∀ connection, layer.connection = some connection → layer.statements ≠ [] →
    connection.activeOperation = .none

namespace LayerShape

variable {layer layer' : ClientLayer} {call : ClientCall}

/-- There is one statement at most, so one that is found is the one. -/
theorem statements_eq (h : LayerShape layer) {address : ℕ} {statement : ClientStatement}
    (hstatement : layer.statementAt address = some statement) :
    layer.statements = [statement] ∧ statement.address = address := by
  have hmem := List.mem_of_find?_eq_some hstatement
  refine ⟨?_, by simpa using List.find?_some hstatement⟩
  obtain ⟨other, hother⟩ := List.length_eq_one_iff.mp
    (le_antisymm h.single (List.length_pos_of_mem hmem))
  rw [hother, List.mem_singleton] at hmem
  rw [hother, hmem]

/-- There is none while the connection has none, or works. -/
theorem statements_eq_nil (h : LayerShape layer) {connection : ClientConnection}
    (hconnection : layer.connection = some connection)
    (hfree : connection.statementCount = 0 ∨ connection.activeOperation ≠ .none) :
    layer.statements = [] := by
  obtain hfree | hbusy := hfree
  · exact List.length_eq_zero_iff.mp ((h.counted connection hconnection).symm.trans hfree)
  · by_contra hopen
    exact hbusy (h.idle connection hconnection hopen)

/-- A statement moves on in its place. -/
theorem setStatement_statements (h : LayerShape layer) {address : ℕ} {statement : ClientStatement}
    (hstatement : layer.statementAt address = some statement) {statement' : ClientStatement}
    (haddress : statement'.address = statement.address) :
    (layer.setStatement statement').statements = [statement'] := by
  simp [ClientLayer.setStatement, (h.statements_eq hstatement).1, haddress]

/-- None is left when it is freed. -/
theorem freeStatement_statements (h : LayerShape layer) {address : ℕ} {statement : ClientStatement}
    (hstatement : layer.statementAt address = some statement) :
    (layer.freeStatement address).statements = [] := by
  obtain ⟨hlist, haddress⟩ := h.statements_eq hstatement
  simp [ClientLayer.freeStatement, hlist, haddress]

/-- What leaves the connection and the number of statements alone leaves the shape. -/
theorem congr (h : LayerShape layer) (hconnection : layer'.connection = layer.connection)
    (hstatements : layer'.statements.length = layer.statements.length) : LayerShape layer' := by
  have hnil : layer'.statements = [] ↔ layer.statements = [] := by
    rw [← List.length_eq_zero_iff, ← List.length_eq_zero_iff, hstatements]
  refine ⟨?_, ?_, hstatements ▸ h.single, ?_⟩
  · intro hnone
    exact hnil.mpr (h.orphan (hconnection ▸ hnone))
  · intro connection hsome
    rw [hstatements]
    exact h.counted connection (hconnection ▸ hsome)
  · intro connection hsome hopen
    exact h.idle connection (hconnection ▸ hsome) (hopen ∘ hnil.mpr)

theorem length_setStatement (layer : ClientLayer) (statement : ClientStatement) :
    (layer.setStatement statement).statements.length = layer.statements.length :=
  List.length_map _

/-- A free connection that moves on stays free. -/
theorem moved (h : LayerShape layer) {connection connection' : ClientConnection}
    (hconnection : layer.connection = some connection)
    (hfree : connection.statementCount = 0 ∨ connection.activeOperation ≠ .none)
    (hlayer : layer'.connection = some connection')
    (hcount : connection'.statementCount = connection.statementCount)
    (hstatements : layer'.statements = layer.statements) : LayerShape layer' := by
  have hnil := h.statements_eq_nil hconnection hfree
  refine ⟨fun _ => hstatements.trans hnil, ?_, by rw [hstatements]; exact h.single, ?_⟩
  · intro other hother
    rw [hlayer, Option.some.injEq] at hother
    rw [← hother, hcount, hstatements, h.counted connection hconnection]
  · intro _ _ hopen
    exact absurd (hstatements.trans hnil) hopen

theorem move (h : LayerShape layer) (hmove : ClientMove layer call layer') :
    LayerShape layer' := by
  cases hmove with
  | stay => exact h
  | cleaned => exact h.congr rfl rfl
  | connectionStillborn => exact h.congr rfl rfl
  | connectionOpened call handle hnone =>
    have hnil := h.orphan hnone
    refine ⟨fun _ => hnil, ?_, h.single, fun _ _ hopen => absurd hnil hopen⟩
    intro connection hconnection
    obtain rfl := Option.some.inj hconnection
    exact (congrArg List.length hnil).symm
  | connectionMoved call state operation hconnection hfree =>
    exact h.moved hconnection hfree rfl rfl rfl
  | connectionCompleted call hconnection hrunning =>
    exact h.moved hconnection (.inr hrunning) rfl rfl rfl
  | connectionClosed call hconnection hfree =>
    have hnil := h.statements_eq_nil hconnection (.inl hfree)
    exact ⟨fun _ => hnil, fun _ hsome => (nomatch hsome), h.single, fun _ hsome => (nomatch hsome)⟩
  | statementStillborn => exact h.congr rfl rfl
  | statementOpened call handle hconnection hfree hidle =>
    have hnil := h.statements_eq_nil hconnection (.inl hfree)
    refine ⟨fun hnone => (nomatch hnone), ?_, ?_, ?_⟩
    · intro connection hsome
      obtain rfl := Option.some.inj hsome
      simp [hnil, hfree]
    · simp [hnil]
    · intro connection hsome _
      obtain rfl := Option.some.inj hsome
      exact hidle
  | statementFailed call hstatement => exact h.congr rfl (length_setStatement _ _)
  | statementStarted call operation hstatement => exact h.congr rfl (length_setStatement _ _)
  | statementPublished call columnCount hstatement => exact h.congr rfl (length_setStatement _ _)
  | rowConsumed call hstatement => exact h.congr rfl (length_setStatement _ _)
  | statementCompleted address reply row hstatement =>
    have hlength := length_setStatement layer
    have hmend : ∀ connection : ClientConnection,
        connection.mend.statementCount = connection.statementCount ∧
          connection.mend.activeOperation = connection.activeOperation := by
      intro connection
      unfold ClientConnection.mend
      split <;> exact ⟨rfl, rfl⟩
    have hne : layer.statements ≠ [] := by
      rw [(h.statements_eq hstatement).1]
      exact List.cons_ne_nil _ _
    refine ⟨?_, ?_, (hlength _).trans_le h.single, ?_⟩
    · intro hnone
      exact absurd (h.orphan (Option.map_eq_none_iff.mp hnone)) hne
    · intro connection hsome
      obtain ⟨before, hbefore, rfl⟩ := Option.map_eq_some_iff.mp hsome
      rw [(hmend before).1, h.counted before hbefore]
      exact (hlength _).symm
    · intro connection hsome _
      obtain ⟨before, hbefore, rfl⟩ := Option.map_eq_some_iff.mp hsome
      rw [(hmend before).2]
      exact h.idle before hbefore hne
  | statementClosed call hstatement =>
    have hnil := h.freeStatement_statements hstatement
    refine ⟨fun _ => hnil, ?_, (congrArg List.length hnil).trans_le (Nat.zero_le 1),
      fun _ _ hopen => absurd hnil hopen⟩
    intro connection hsome
    obtain ⟨before, hbefore, rfl⟩ := Option.map_eq_some_iff.mp hsome
    have hone := h.counted before hbefore
    rw [(h.statements_eq hstatement).1] at hone
    refine Eq.trans ?_ (congrArg List.length hnil).symm
    simp [hone]

end LayerShape

/-! ## Every handle is destroyed once -/

/-- How often an event is in the history. -/
def ClientLayer.times (layer : ClientLayer) (event : ClientEvent) : ℕ := layer.history.count event

/-- **The handles that were created and not destroyed are those that are held.** -/
structure HandlesHeld (layer : ClientLayer) : Prop where
  connections : ∀ handle, layer.times (.connectionCreated handle) =
    layer.times (.connectionDestroyed handle) +
      (layer.connection.map ClientConnection.backendConnection).toList.count handle
  statements : ∀ handle, layer.times (.statementCreated handle) =
    layer.times (.statementDestroyed handle) +
      (layer.statements.map ClientStatement.backendStatement).count handle

namespace HandlesHeld

variable {layer layer' : ClientLayer} {call : ClientCall}

/-- An event that is about no handle. -/
def Silent : ClientEvent → Prop
  | .connectionCreated _ | .connectionDestroyed _ | .statementCreated _ | .statementDestroyed _ =>
    False
  | _ => True

/-- The handles that are held, and silence. -/
theorem congr (h : HandlesHeld layer) (events : List ClientEvent)
    (hhistory : layer'.history = events ++ layer.history) (hsilent : ∀ event ∈ events, Silent event)
    (hconnection : layer'.connection.map ClientConnection.backendConnection =
      layer.connection.map ClientConnection.backendConnection)
    (hstatements : layer'.statements.map ClientStatement.backendStatement =
      layer.statements.map ClientStatement.backendStatement) : HandlesHeld layer' := by
  have htimes : ∀ event, ¬Silent event → layer'.times event = layer.times event := by
    intro event hevent
    have hnone : events.count event = 0 :=
      List.count_eq_zero.mpr fun hmem => hevent (hsilent event hmem)
    rw [ClientLayer.times, hhistory, List.count_append, hnone, Nat.zero_add, ClientLayer.times]
  constructor
  · intro handle
    rw [htimes (.connectionCreated handle) not_false,
      htimes (.connectionDestroyed handle) not_false, hconnection]
    exact h.connections handle
  · intro handle
    rw [htimes (.statementCreated handle) not_false, htimes (.statementDestroyed handle) not_false,
      hstatements]
    exact h.statements handle

theorem map_setStatement (hshape : LayerShape layer) {address : ℕ}
    {statement statement' : ClientStatement}
    (hstatement : layer.statementAt address = some statement)
    (haddress : statement'.address = statement.address)
    (hhandle : statement'.backendStatement = statement.backendStatement) :
    (layer.setStatement statement').statements.map ClientStatement.backendStatement =
      layer.statements.map ClientStatement.backendStatement := by
  rw [hshape.setStatement_statements hstatement haddress, (hshape.statements_eq hstatement).1]
  simp [hhandle]

/-- One more event is counted once. -/
theorem times_cons (layer : ClientLayer) (event event' : ClientEvent) :
    (layer.log event).times event' = layer.times event' + if event = event' then 1 else 0 := by
  simp [ClientLayer.times, ClientLayer.log, List.count_cons]

theorem move (h : HandlesHeld layer) (hshape : LayerShape layer)
    (hmove : ClientMove layer call layer') : HandlesHeld layer' := by
  have hnone : ∀ event ∈ ([] : List ClientEvent), Silent event := by simp
  have hone : ∀ event, Silent event → ∀ event' ∈ [event], Silent event' := by simp
  cases hmove with
  | stay => exact h
  | cleaned => exact h.congr [] rfl hnone rfl rfl
  | connectionMoved call state operation hconnection =>
    exact h.congr [] rfl hnone (by rw [hconnection]; rfl) rfl
  | connectionCompleted call hconnection =>
    exact h.congr [_] rfl (hone _ trivial) (by rw [hconnection]; rfl) rfl
  | connectionStillborn call created =>
    constructor
    · intro handle
      have := h.connections handle
      simp only [times_cons, reduceCtorEq, if_false, ClientEvent.connectionCreated.injEq,
        ClientEvent.connectionDestroyed.injEq]
      change _ = _ + (layer.connection.map ClientConnection.backendConnection).toList.count handle
      omega
    · intro handle
      simp only [times_cons, reduceCtorEq, if_false]
      exact h.statements handle
  | connectionOpened call created hnone =>
    constructor
    · intro handle
      have := h.connections handle
      rw [hnone] at this
      change (layer.log _).times _ = (layer.log _).times _ + [created].count handle
      simp only [times_cons, reduceCtorEq, if_false, ClientEvent.connectionCreated.injEq,
        List.count_singleton, beq_iff_eq, Option.map_none, Option.toList_none,
          List.count_nil] at this ⊢
      omega
    · intro handle
      change (layer.log _).times _ = (layer.log _).times _ + _
      simp only [times_cons, reduceCtorEq, if_false]
      exact h.statements handle
  | connectionClosed call hconnection =>
    constructor
    · intro handle
      have := h.connections handle
      rw [hconnection] at this
      change (layer.log _).times _ = (layer.log _).times _ + [].count handle
      simp only [times_cons, reduceCtorEq, if_false, ClientEvent.connectionDestroyed.injEq,
        List.count_singleton, beq_iff_eq, Option.map_some, Option.toList_some, List.count_nil]
        at this ⊢
      omega
    · intro handle
      change (layer.log _).times _ = (layer.log _).times _ + _
      simp only [times_cons, reduceCtorEq, if_false]
      exact h.statements handle
  | statementStillborn call created =>
    constructor
    · intro handle
      simp only [times_cons, reduceCtorEq, if_false]
      exact h.connections handle
    · intro handle
      have := h.statements handle
      simp only [times_cons, reduceCtorEq, if_false, ClientEvent.statementCreated.injEq,
        ClientEvent.statementDestroyed.injEq]
      change _ = _ + (layer.statements.map ClientStatement.backendStatement).count handle
      omega
  | statementOpened call created hconnection hfree =>
    constructor
    · intro handle
      have := h.connections handle
      rw [hconnection] at this
      change (layer.log _).times _ = (layer.log _).times _ + _
      simp only [times_cons, reduceCtorEq, if_false]
      exact this
    · intro handle
      have := h.statements handle
      change (layer.log _).times _ = (layer.log _).times _ +
        (created :: layer.statements.map ClientStatement.backendStatement).count handle
      simp only [times_cons, reduceCtorEq, if_false, ClientEvent.statementCreated.injEq,
        List.count_cons, beq_iff_eq]
      omega
  | statementFailed call hstatement =>
    exact h.congr [_] rfl (hone _ trivial) rfl (map_setStatement hshape hstatement rfl rfl)
  | statementStarted call operation hstatement =>
    exact h.congr [_] rfl (hone _ trivial) rfl (map_setStatement hshape hstatement rfl rfl)
  | statementPublished call columnCount hstatement =>
    exact h.congr [_] rfl (hone _ trivial) rfl (map_setStatement hshape hstatement rfl rfl)
  | rowConsumed call hstatement =>
    exact h.congr [_] rfl (hone _ trivial) rfl (map_setStatement hshape hstatement rfl rfl)
  | statementCompleted address reply row hstatement =>
    refine h.congr [] rfl hnone ?_ (map_setStatement hshape hstatement rfl rfl)
    have hmend : ∀ connection : ClientConnection,
        connection.mend.backendConnection = connection.backendConnection := by
      intro connection
      unfold ClientConnection.mend
      split <;> rfl
    rw [Option.map_map, show ClientConnection.backendConnection ∘ ClientConnection.mend =
      ClientConnection.backendConnection from funext hmend]
  | @statementClosed call address statement hstatement =>
    constructor
    · intro handle
      have := h.connections handle
      change (layer.log _).times _ = (layer.log _).times _ + _
      simp only [times_cons, reduceCtorEq, if_false, Option.map_map]
      exact this
    · intro handle
      have := h.statements handle
      rw [(hshape.statements_eq hstatement).1] at this
      change (layer.log _).times _ = (layer.log _).times _ +
        ((layer.freeStatement address).statements.map ClientStatement.backendStatement).count handle
      rw [hshape.freeStatement_statements hstatement]
      simp only [times_cons, reduceCtorEq, if_false, ClientEvent.statementDestroyed.injEq,
        List.map_cons, List.map_nil, List.count_singleton, beq_iff_eq, List.count_nil] at this ⊢
      omega

end HandlesHeld

/-! ## A row can be read until it ends -/

/-- What ends the row of a statement. -/
def EndsRow (address : ℕ) : ClientEvent → Prop
  | .rowConsumed other | .statementFailed other => other = address
  | .statementStarted other operation =>
    other = address ∧ (operation = .fetch ∨ operation = .cancel)
  | _ => False

/-- **A row that was published and has not ended since.** -/
def RowLive (address : ℕ) (generation : UInt64) (history : List ClientEvent) : Prop :=
  Since (· = .published address generation) (EndsRow address) history

/-- **A statement shows the row that was published last.** -/
def RowsLive (layer : ClientLayer) : Prop :=
  ∀ statement ∈ layer.statements, statement.state = .rowReady →
    statement.rowView.generation = statement.rowGeneration ∧
      RowLive statement.address statement.rowGeneration layer.history

namespace RowsLive

variable {layer layer' : ClientLayer} {call : ClientCall}

/-- An event that ends no row. -/
theorem log (h : RowsLive layer) {event : ClientEvent}
    (hstatements : layer'.statements = layer.statements)
    (hhistory : layer'.history = event :: layer.history)
    (hevent : ∀ address, ¬EndsRow address event) : RowsLive layer' := by
  intro statement hmem hstate
  obtain ⟨hview, hlive⟩ := h statement (hstatements ▸ hmem) hstate
  refine ⟨hview, ?_⟩
  rw [hhistory]
  exact hlive.cons (hevent _)

/-- A statement that shows no row. -/
theorem of_singleton {statement : ClientStatement} (hstatements : layer.statements = [statement])
    (hstate : statement.state ≠ .rowReady) : RowsLive layer := by
  intro other hmem hready
  rw [hstatements, List.mem_singleton] at hmem
  exact absurd (hmem ▸ hready) hstate

/-- A statement that shows a row. -/
theorem of_live {statement : ClientStatement} (hstatements : layer.statements = [statement])
    (hview : statement.rowView.generation = statement.rowGeneration)
    (hlive : RowLive statement.address statement.rowGeneration layer.history) : RowsLive layer := by
  intro other hmem _
  rw [hstatements, List.mem_singleton] at hmem
  subst hmem
  exact ⟨hview, hlive⟩

theorem statementRunningState_ne (operation : ClientOperation) :
    statementRunningState operation ≠ .rowReady := by
  cases operation <;> decide

theorem statementTerminalState_ne (operation : ClientOperation) :
    statementTerminalState operation ≠ .rowReady := by
  cases operation <;> decide

theorem move (h : RowsLive layer) (hshape : LayerShape layer)
    (hmove : ClientMove layer call layer') : RowsLive layer' := by
  cases hmove with
  | stay => exact h
  | cleaned => exact h
  | connectionMoved => exact h
  | connectionStillborn call handle hnone =>
    have hcreated : RowsLive (layer.log (.connectionCreated handle)) :=
      h.log rfl rfl fun _ => not_false
    exact hcreated.log rfl rfl fun _ => not_false
  | statementStillborn call handle =>
    have hcreated : RowsLive (layer.log (.statementCreated handle)) :=
      h.log rfl rfl fun _ => not_false
    exact hcreated.log rfl rfl fun _ => not_false
  | connectionOpened => exact h.log rfl rfl fun _ => not_false
  | connectionCompleted => exact h.log rfl rfl fun _ => not_false
  | connectionClosed => exact h.log rfl rfl fun _ => not_false
  | statementOpened call handle hconnection hfree =>
    have hnil := hshape.statements_eq_nil hconnection (.inl hfree)
    exact of_singleton (congrArg (_ :: ·) hnil) (by simp)
  | statementFailed call hstatement =>
    exact of_singleton (hshape.setStatement_statements hstatement rfl)
      (by simp [ClientStatement.fail])
  | statementStarted call operation hstatement =>
    exact of_singleton (hshape.setStatement_statements hstatement rfl)
      (statementRunningState_ne operation)
  | statementPublished call columnCount hstatement =>
    exact of_live (hshape.setStatement_statements hstatement rfl) rfl (since_cons.mpr (.inl rfl))
  | statementCompleted address reply row hstatement =>
    exact of_singleton (hshape.setStatement_statements hstatement rfl)
      (statementTerminalState_ne _)
  | rowConsumed call hstatement =>
    exact of_singleton (hshape.setStatement_statements hstatement rfl) (by simp)
  | statementClosed call hstatement =>
    intro other hmem
    have hnil := hshape.freeStatement_statements hstatement
    exact absurd (hnil ▸ hmem) List.not_mem_nil

end RowsLive

/-! ## A transaction that was begun -/

/-- What ends the transaction of a connection. -/
def EndsTransaction : ClientEvent → Prop
  | .completed operation => operation = .commit ∨ operation = .rollback
  | .connectionDestroyed _ => True
  | _ => False

/-- **`BEGIN` completed on the connection, and no `COMMIT` or `ROLLBACK` since.** -/
def InTransaction (history : List ClientEvent) : Prop :=
  Since (· = .completed .begin) EndsTransaction history

/-- **A connection is in a transaction only if one was begun.** -/
def TransactionHonest (layer : ClientLayer) : Prop :=
  ∀ connection, layer.connection = some connection → connection.state = .transactionActive →
    InTransaction layer.history

/-- **A statement completes on a connection that failed outside of a transaction.** -/
def CompletesOutside (layer : ClientLayer) : ClientCall → Prop
  | .statementPoll address reply _ =>
    observedStatus reply.status = .ok ∧ reply.outcome = some .complete ∧
      (∃ statement, layer.statementAt address = some statement ∧
        isStatementOperation statement.activeOperation) ∧
      (∃ connection, layer.connection = some connection ∧ connection.state = .failed) ∧
      ¬InTransaction layer.history
  | _ => False

namespace TransactionHonest

variable {layer layer' : ClientLayer} {call : ClientCall}

/-- The connection stays, or its new state claims nothing. -/
theorem log (h : TransactionHonest layer) (events : List ClientEvent)
    (hhistory : layer'.history = events ++ layer.history)
    (hevents : ∀ event ∈ events, ¬EndsTransaction event)
    (hconnection : ∀ connection, layer'.connection = some connection →
      connection.state = .transactionActive →
      ∃ before, layer.connection = some before ∧ before.state = .transactionActive) :
    TransactionHonest layer' := by
  intro connection hsome hactive
  obtain ⟨before, hbefore, hstate⟩ := hconnection connection hsome hactive
  rw [hhistory]
  clear hhistory
  induction events with
  | nil => exact h before hbefore hstate
  | cons event events ih =>
    exact (ih fun _ hmem => hevents _ (List.mem_cons_of_mem _ hmem)).cons
      (hevents _ List.mem_cons_self)

theorem move (h : TransactionHonest layer) (hmove : ClientMove layer call layer')
    (hinside : ¬CompletesOutside layer call) : TransactionHonest layer' := by
  have hsame : ∀ connection, layer.connection = some connection →
      connection.state = .transactionActive →
      ∃ before, layer.connection = some before ∧ before.state = .transactionActive :=
    fun connection hsome hactive => ⟨connection, hsome, hactive⟩
  have hnone : ∀ event ∈ ([] : List ClientEvent), ¬EndsTransaction event := by simp
  have hone : ∀ event, ¬EndsTransaction event → ∀ event' ∈ [event], ¬EndsTransaction event' := by
    simp
  cases hmove with
  | stay => exact h
  | cleaned => exact h
  | connectionStillborn call handle hclosed =>
    intro connection hsome
    exact absurd (hclosed.symm.trans hsome) (by simp)
  | connectionOpened call handle hclosed =>
    intro connection hsome hactive
    obtain rfl := Option.some.inj hsome
    cases hactive
  | connectionMoved call state operation hconnection hfree hstate =>
    intro connection hsome hactive
    obtain rfl := Option.some.inj hsome
    exact absurd hactive hstate
  | @connectionCompleted call connection hconnection hrunning =>
    intro other hsome hactive
    obtain rfl := Option.some.inj hsome
    -- only `BEGIN` leads into a transaction
    have hbegin : connection.activeOperation = .begin := by
      change connectionTerminalState connection.activeOperation = .transactionActive at hactive
      revert hactive
      cases connection.activeOperation <;> decide
    exact since_cons.mpr (.inl (congrArg ClientEvent.completed hbegin))
  | connectionClosed call hconnection =>
    intro connection hsome
    cases hsome
  | statementStillborn call handle =>
    exact h.log [_, _] rfl (by simp [EndsTransaction]) hsame
  | statementOpened call handle hconnection =>
    refine h.log [_] rfl (hone _ not_false) ?_
    intro connection hsome hactive
    obtain rfl := Option.some.inj hsome
    exact ⟨_, hconnection, hactive⟩
  | statementFailed call hstatement => exact h.log [_] rfl (hone _ not_false) hsame
  | statementStarted call operation hstatement => exact h.log [_] rfl (hone _ not_false) hsame
  | statementPublished call columnCount hstatement => exact h.log [_] rfl (hone _ not_false) hsame
  | rowConsumed call hstatement => exact h.log [_] rfl (hone _ not_false) hsame
  | statementCompleted address reply row hstatement hrunning hstatus houtcome =>
    intro connection hsome hactive
    obtain ⟨before, hbefore, rfl⟩ := Option.map_eq_some_iff.mp hsome
    change InTransaction layer.history
    by_cases hfailed : before.state = .failed
    · by_contra hout
      exact hinside ⟨hstatus, houtcome, ⟨_, hstatement, hrunning⟩, ⟨before, hbefore, hfailed⟩, hout⟩
    · rw [ClientConnection.mend, if_neg hfailed] at hactive
      exact h before hbefore hactive
  | statementClosed call hstatement =>
    refine h.log [_] rfl (hone _ not_false) ?_
    intro connection hsome hactive
    obtain ⟨before, hbefore, rfl⟩ := Option.map_eq_some_iff.mp hsome
    exact ⟨before, hbefore, hactive⟩

/-- A statement that completes on a failed connection declares the transaction open. -/
theorem not_step (stored : Bool) (hout : CompletesOutside layer call) :
    ¬TransactionHonest (clientStep layer stored call).1 := by
  cases call with
  | statementPoll address reply row =>
    obtain ⟨hstatus, houtcome, ⟨statement, hstatement, hrunning⟩,
      ⟨connection, hconnection, hfailed⟩, hhistory⟩ := hout
    intro h
    have hbroken : statementPollBroken reply statement.activeOperation = false := by
      simp [statementPollBroken, hstatus, houtcome]
    have hstep : (clientStep layer stored (.statementPoll address reply row)).1 =
        { layer.setStatement
            { statement with
              activeOperation := .none
              state := statementTerminalState statement.activeOperation } with
          connection := layer.connection.map ClientConnection.mend } := by
      rw [clientStep, clientStatementPoll, hstatement]
      simp only [hrunning, Bool.not_true, Bool.false_eq_true, if_false, hbroken, houtcome]
    rw [hstep] at h
    refine hhistory (h connection.mend ?_ ?_)
    · rw [hconnection]
      rfl
    · rw [ClientConnection.mend, if_pos hfailed]
  | _ => exact hout.elim

end TransactionHonest

/-! ## Runs -/

/-- The calls that are about the connection, and the one that opens a statement on it. -/
def ClientCall.OnConnection : ClientCall → Prop
  | .connectionOpen .. | .connectionStart .. | .connectionPoll .. | .connectionWait ..
  | .connectionClose | .statementOpen .. => True
  | _ => False

theorem clientFail_ne_ok {status : ClientStatus} (stored : Bool) (h : status ≠ .ok) :
    clientFail stored status ≠ .ok := by
  unfold clientFail
  split
  · exact h
  · decide

/-- **A connection with an open statement refuses its operations.** -/
theorem LayerShape.refuses {layer : ClientLayer} (h : LayerShape layer)
    (hopen : layer.statements ≠ []) (stored : Bool) {call : ClientCall}
    (hcall : call.OnConnection) :
    (clientStep layer stored call).1 = layer ∧ (clientStep layer stored call).2 ≠ .ok := by
  obtain ⟨connection, hconnection⟩ : ∃ connection, layer.connection = some connection :=
    Option.ne_none_iff_exists'.mp fun hnone => hopen (h.orphan hnone)
  have hcount : connection.statementCount ≠ 0 := by
    rw [h.counted connection hconnection]
    exact fun hzero => hopen (List.length_eq_zero_iff.mp hzero)
  have hidle := h.idle connection hconnection hopen
  cases call with
  | connectionOpen memory reply =>
    rw [clientStep, clientConnectionOpen, if_pos (by simp [hconnection])]
    exact ⟨rfl, clientFail_ne_ok stored (by decide)⟩
  | connectionStart operation reply =>
    rw [clientStep, clientConnectionStart, hconnection]
    dsimp only
    split_ifs with hnone hcapability hrefused
    · exact ⟨rfl, clientFail_ne_ok stored (by decide)⟩
    · exact ⟨rfl, clientFail_ne_ok stored (by decide)⟩
    · exact ⟨rfl, clientFail_ne_ok stored (by decide)⟩
    · exact absurd (.inl hcount) hrefused
    · exact absurd (.inl hcount) hrefused
  | connectionPoll reply =>
    rw [clientStep, clientConnectionPoll, hconnection]
    dsimp only
    rw [if_pos hidle]
    exact ⟨rfl, clientFail_ne_ok stored (by decide)⟩
  | connectionWait wait reply =>
    rw [clientStep, clientConnectionWait, hconnection]
    dsimp only
    rw [if_pos (.inl hidle)]
    exact ⟨rfl, clientFail_ne_ok stored (by decide)⟩
  | connectionClose =>
    rw [clientStep, clientConnectionClose, hconnection]
    dsimp only
    rw [if_pos hcount]
    exact ⟨rfl, by simp⟩
  | statementOpen spec holds memory reply =>
    rw [clientStep, clientStatementOpen, hconnection]
    dsimp only
    split
    · exact ⟨rfl, clientFail_ne_ok stored (by decide)⟩
    · rw [if_pos (.inr (.inr hcount))]
      exact ⟨rfl, clientFail_ne_ok stored (by decide)⟩
  | _ => exact hcall.elim

/-- **A column can be read only of a row that lives.** -/
theorem RowsLive.column {layer : ClientLayer} (h : RowsLive layer) {stored : Bool}
    {address columnIndex : ℕ} {reply : Option ClientStatus}
    (hok : clientRowColumn layer stored address columnIndex reply = .ok) :
    ∃ statement, layer.statementAt address = some statement ∧
      RowLive address statement.rowView.generation layer.history := by
  unfold clientRowColumn at hok
  split at hok
  · exact absurd hok (clientFail_ne_ok stored (by decide))
  rename_i statement hstatement
  split at hok
  · exact absurd hok (clientFail_ne_ok stored (by decide))
  split at hok
  · exact absurd hok (clientFail_ne_ok stored (by decide))
  rename_i hcurrent
  simp only [clientStatementRowIsCurrent, Bool.not_eq_true', Bool.not_eq_false, Bool.and_eq_true,
    beq_iff_eq] at hcurrent
  obtain ⟨hview, hlive⟩ := h statement (List.mem_of_find?_eq_some hstatement) hcurrent.1.1
  have haddress : statement.address = address := by simpa using List.find?_some hstatement
  refine ⟨statement, hstatement, ?_⟩
  rwa [hview, ← haddress]

/-- What every call keeps. -/
structure LayerSound (layer : ClientLayer) : Prop where
  shape : LayerShape layer
  handles : HandlesHeld layer
  rows : RowsLive layer

/-- One call of a run. -/
def clientNext (layer : ClientLayer) (call : Bool × ClientCall) : ClientLayer :=
  (clientStep layer call.1 call.2).1

/-- **A call keeps the layer sound.** -/
theorem LayerSound.next {layer : ClientLayer} (h : LayerSound layer) (call : Bool × ClientCall) :
    LayerSound (clientNext layer call) := by
  have hmove := clientStep_move layer call.1 call.2
  exact ⟨h.shape.move hmove, h.handles.move h.shape hmove, h.rows.move h.shape hmove⟩

/-- A new layer is sound. -/
theorem LayerSound.start (capabilities : UInt64) : LayerSound { capabilities } := by
  refine ⟨⟨fun _ => rfl, fun _ h => (nomatch h), Nat.zero_le 1, fun _ h => (nomatch h)⟩,
    ⟨fun _ => rfl, fun _ => rfl⟩, ?_⟩
  intro statement hmem
  exact absurd hmem List.not_mem_nil

/-- So it is sound after any calls. -/
theorem LayerSound.run (capabilities : UInt64) (calls : List (Bool × ClientCall)) :
    LayerSound (calls.foldl clientNext { capabilities }) := by
  have hall : ∀ layer, LayerSound layer → LayerSound (calls.foldl clientNext layer) := by
    induction calls with
    | nil => exact fun _ h => h
    | cons call calls ih => exact fun layer h => ih _ (h.next call)
  exact hall _ (.start capabilities)

/-- **The client layer against any backend.**  In every state that a run reaches there is at most
one statement, while it is open the operations of the connection are refused, the handles that are
held are those that were created and not destroyed, and a column is read only of a row that was
published and has not ended since.  A connection is in a transaction only if one was begun —
throughout a run exactly if no statement of it completes on a connection that failed outside of a
transaction. -/
theorem client_layer_contract (capabilities : UInt64) (calls : List (Bool × ClientCall)) :
    (∀ layer, layer = calls.foldl clientNext { capabilities } →
      layer.statements.length ≤ 1 ∧
      (layer.statements ≠ [] → ∀ stored call, call.OnConnection →
        (clientStep layer stored call).1 = layer ∧ (clientStep layer stored call).2 ≠ .ok) ∧
      HandlesHeld layer ∧
      (∀ stored address columnIndex reply,
        (clientStep layer stored (.rowColumn address columnIndex reply)).2 = .ok →
        ∃ statement, layer.statementAt address = some statement ∧
          RowLive address statement.rowView.generation layer.history)) ∧
    (Along (fun layer call => ¬CompletesOutside layer call.2) clientNext { capabilities } calls ↔
      ∀ before, before <+: calls →
        TransactionHonest (before.foldl clientNext { capabilities })) := by
  constructor
  · rintro layer rfl
    have hsound := LayerSound.run capabilities calls
    exact ⟨hsound.shape.single, fun hopen stored call => hsound.shape.refuses hopen stored,
      hsound.handles, fun stored address columnIndex reply => hsound.rows.column⟩
  · refine Along.iff_forall_prefix (fun _ => True) TransactionHonest
      (fun _ _ _ => trivial) ?_ trivial (fun _ h => (nomatch h))
    intro layer call _ hhonest
    constructor
    · intro hnext hout
      exact TransactionHonest.not_step call.1 hout hnext
    · intro hinside
      exact hhonest.move (clientStep_move layer call.1 call.2) hinside

/-- A statement that can be opened. -/
def pingSpec : ClientStatementSpec :=
  { query := some (ascii "SELECT 1" ++ [0]), queryLength := 8, timeoutMs := 1000 }

/-- A transaction is begun, and a row of its statement is read and consumed. -/
def honestCalls : List (Bool × ClientCall) :=
  [(true, .connectionOpen true ⟨some .ok, some 7⟩), (true, .connectionStart .connect (some .ok)),
    (true, .connectionPoll ⟨some .ok, some .complete, ⟨none, none, 0⟩⟩),
    (true, .connectionStart .begin (some .ok)),
    (true, .connectionPoll ⟨some .ok, some .complete, ⟨none, none, 0⟩⟩),
    (true, .statementOpen pingSpec false true ⟨some .ok, some 8⟩),
    (true, .statementStart 0 .execute (some .ok)),
    (true, .statementPoll 0 ⟨some .ok, some .complete, ⟨none, none, 0⟩⟩ ⟨none, 0⟩),
    (true, .statementStart 0 .fetch (some .ok)),
    (true, .statementPoll 0 ⟨some .ok, some .rowReady, ⟨none, none, 0⟩⟩ ⟨some .ok, 1⟩)]

/-- The row of the run can be read. -/
theorem client_layer_contract_honestCalls :
    ∃ statement, (honestCalls.foldl clientNext { capabilities := clientCapAll }).statementAt 0 =
        some statement ∧
      RowLive 0 statement.rowView.generation
        (honestCalls.foldl clientNext { capabilities := clientCapAll }).history :=
  ((client_layer_contract clientCapAll honestCalls).1 _ rfl).2.2.2 true 0 0 (some .ok) (by decide)

/-- The connection fails to connect, and a statement completes on it. -/
def repairedCalls : List (Bool × ClientCall) :=
  [(true, .connectionOpen true ⟨some .ok, some 7⟩), (true, .connectionStart .connect (some .ok)),
    (true, .connectionPoll ⟨some .ok, some .failed, ⟨none, none, 0⟩⟩),
    (true, .statementOpen pingSpec false true ⟨some .ok, some 8⟩),
    (true, .statementStart 0 .execute (some .ok)),
    (true, .statementPoll 0 ⟨some .ok, some .complete, ⟨none, none, 0⟩⟩ ⟨none, 0⟩)]

/-- **A connection that never connected is in a transaction.** -/
theorem client_layer_repaired :
    ¬∀ calls : List (Bool × ClientCall),
      TransactionHonest (calls.foldl clientNext { capabilities := clientCapAll }) := by
  intro h
  have hhistory : (repairedCalls.foldl clientNext { capabilities := clientCapAll }).history =
      [.statementStarted 0 .execute, .statementCreated 8, .connectionCreated 7] := by decide
  have hrun := h repairedCalls ⟨7, .transactionActive, .none, 1⟩ (by decide) rfl
  rw [hhistory] at hrun
  simp [InTransaction, since_cons, not_since_nil] at hrun

end Vps
