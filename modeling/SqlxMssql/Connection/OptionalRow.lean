import SqlxMssql.Connection.Streams
import SqlxMssql.Any.ColumnNames
import SqlxMssql.Foundations.Polling

/-! # The first row of a stream

`fetch_optional` polls the stream of `fetch_many` up to its first row and drops it there, with
the rest of the response unread behind it.
-/
namespace SqlxMssql
open Loops Utf8 Interaction ParamMarkers

variable {δ α : Type} (engine : SqlEngine δ)

def optionalNext : Operation δ (StatementResult ⊕ Option MssqlRow) := do
  return .inl (← call engine TdsClient.advance "failed to advance to the next result set")

/-- A turn of the stream that is polled on at a query result. -/
def optionalTurn : StatementResult → Operation δ (StatementResult ⊕ Option MssqlRow)
  | .rows => do
    let metadata := (← Process.get).client.metadata
    match ← call engine TdsClient.nextRow "failed to read a row" with
    | some values => return .inr (some ⟨resultColumns metadata, rowValues metadata values⟩)
    | none => optionalNext engine
  | .noRows _ => optionalNext engine
  | .done => return .inr none

def fetchOptional (sql : Text) (arguments : Except Text (Option (List SqlType))) :
    Operation δ (Option MssqlRow) := do
  let result ← executeStatement engine sql arguments
  let row ← Process.guarded (fun s => { s with needsReset := true }) (.loop (optionalTurn engine) result)
  -- the stream is dropped behind its row, with its guard still armed
  Process.when (row.isSome = true) (Process.update fun s => { s with needsReset := true })
  return row

section Polling

def rowsOf (trace : List Happening) : List MssqlRow :=
  (items trace).filterMap fun
    | .row columns values => some ⟨columns, values⟩
    | .queryResult _ => none

theorem rowsOf_append (trace later : List Happening) : rowsOf (trace ++ later) = rowsOf trace ++ rowsOf later := by
  rw [rowsOf, items_append, List.filterMap_append]
  rfl

/-- The same connection after the same calls, where the stream has handed out these rows. -/
structure SameUse (rows : List MssqlRow) (s t : Session δ) : Prop where
  connection : t.toMssqlConnection = s.toMssqlConnection
  calls : calls t.trace = calls s.trace
  rows : rowsOf t.trace = rows

variable {engine} {rows : List MssqlRow}

theorem SameUse.called {s t : Session δ} (h : SameUse rows s t) (p : PendingCall δ α) (applied : Bool)
    (outcome : CallOutcome) : SameUse rows ((s.calling p applied).record (.called p.call outcome))
      ((t.calling p applied).record (.called p.call outcome)) := by
  obtain ⟨connection, trace⟩ := s
  obtain ⟨connection', trace'⟩ := t
  obtain rfl : connection' = connection := h.connection
  refine ⟨rfl, ?_, ?_⟩
  · exact (calls_append _ _).trans (congrArg (· ++ _) h.calls) |>.trans (calls_append _ _).symm
  · exact (rowsOf_append _ _).trans ((List.append_nil _).trans h.rows)

theorem SameUse.answer {s t : Session δ} (h : SameUse rows s t) (p : PendingCall δ α) (server : Savepoints.Store Text δ) :
    SameUse rows (s.answer p server) (t.answer p server) := by
  obtain ⟨connection, trace⟩ := s
  obtain ⟨connection', trace'⟩ := t
  obtain rfl : connection' = connection := h.connection
  refine ⟨rfl, ?_, ?_⟩
  · exact (calls_append _ _).trans (congrArg (· ++ _) h.calls) |>.trans (calls_append _ _).symm
  · exact (rowsOf_append _ _).trans ((List.append_nil _).trans h.rows)

theorem SameUse.client {s t : Session δ} (h : SameUse rows s t) : t.client = s.client :=
  congrArg MssqlConnection.client h.connection

/-- Items are no calls, and query results no rows. -/
theorem SameUse.queryResult {s t : Session δ} (h : SameUse rows s t) (rowsAffected : UInt64) :
    SameUse rows s (t.record (.yielded (.queryResult rowsAffected))) where
  connection := h.connection
  calls := (calls_append _ _).trans ((List.append_nil _).trans h.calls)
  rows := (rowsOf_append _ _).trans ((List.append_nil _).trans h.rows)

theorem SameUse.row {s t : Session δ} (h : SameUse rows s t) (columns : List MssqlColumn) (values : List MssqlValue) :
    SameUse (rows ++ [⟨columns, values⟩]) s (t.record (.yielded (.row columns values))) where
  connection := h.connection
  calls := (calls_append _ _).trans ((List.append_nil _).trans h.calls)
  rows := (rowsOf_append _ _).trans (congrArg (· ++ _) h.rows)

theorem SameUse.update {s t : Session δ} (h : SameUse rows s t) (f : MssqlConnection δ → MssqlConnection δ) :
    SameUse rows { s with toMssqlConnection := f s.toMssqlConnection }
      { t with toMssqlConnection := f t.toMssqlConnection } where
  connection := congrArg f h.connection
  calls := h.calls
  rows := h.rows

/-- Equal results in the same use. -/
abbrev SameResult (rows : List MssqlRow) (a b : α) (s t : Session δ) : Prop := a = b ∧ SameUse rows s t

theorem polls_call (p : PendingCall δ α) (context : String) :
    Polls (SameUse rows) (call engine p context) (call engine p context) (SameResult rows)
      (fun _ _ _ => False) (SameUse rows) := by
  intro s t es hs
  have hclient := hs.client
  cases es with
  | nil => exact .stopped [] (.dropped .awaiting) (hs.called p false .pending) rfl
  | cons e rest =>
    cases e with
    | refused error applied =>
      exact .stopped [.refused error applied] (.failed _) (hs.called p applied .refused) rfl
    | cut applied => exact .stopped [.cut applied] (.dropped .awaiting) (hs.called p applied .pending) rfl
    | answered =>
      cases hserve : p.serve (p.sent s.client).server with
      | none =>
        rw [call_rejected engine p context s rest hserve]
        rw [← hclient] at hserve
        exact .stopped [.answered] (.failed _) (hs.called p false .refused)
          (call_rejected engine p context t [] hserve)
      | some server =>
        rw [call_answered engine p context s rest hserve]
        have hreceived : (p.receive { p.sent t.client with server }).1 = (p.receive { p.sent s.client with server }).1 :=
          by rw [hclient]
        rw [← hclient] at hserve
        refine .returned [.answered] ⟨rfl, hs.answer p server⟩ (fun later => ?_)
          (by rw [List.length_cons, List.length_singleton, Nat.add_comm])
        rw [← hreceived]
        exact call_answered engine p context t later hserve

/-- The row that the consumer has found is the one that the stream has handed out last. -/
def FoundRow (rows : List MssqlRow) (row : Option MssqlRow) (s t : Session δ) : Prop :=
  ∃ found, row = some found ∧ SameUse (rows ++ [found]) s t

/-- The stream has ended, with no row for the consumer. -/
def NoRow (rows : List MssqlRow) (row : Option MssqlRow) (_ : Unit) (s t : Session δ) : Prop :=
  row = none ∧ SameUse rows s t

abbrev SameTurn (rows : List MssqlRow) : StatementResult ⊕ Option MssqlRow → StatementResult ⊕ Unit →
    Session δ → Session δ → Prop :=
  Polls.Turned (SameResult rows) (NoRow rows)

theorem polls_nextResult : Polls (SameUse rows) (optionalNext engine) (nextResult engine) (SameTurn rows)
    (Polls.Found (FoundRow rows)) (SameUse rows) := by
  refine Polls.bind (polls_call _ _) (fun a b => ?_) fun _ _ _ _ h => False.elim h
  exact Polls.pure fun s t h => h

theorem polls_queryResult (rowsAffected : UInt64) :
    Polls (SameUse rows) (optionalNext engine)
      (do
        yieldItem (.queryResult rowsAffected)
        nextResult engine : Operation δ (StatementResult ⊕ Unit))
      (SameTurn rows) (Polls.Found (FoundRow rows)) (SameUse rows) :=
  Polls.polledOn (Q := fun _ => SameUse rows) .answered (fun _ _ h => ⟨(), _, rfl, h.queryResult rowsAffected⟩)
    fun _ => polls_nextResult

theorem returned_call {p : PendingCall δ α} {context : String} {s t : Session δ} {es rest : List Event} {a : α}
    (h : call engine p context s es = ⟨.returned a, t, rest⟩) : rest.length < es.length := by
  rcases call_cases engine p context s es with ⟨rest', server, rfl, -, hcall⟩ | ⟨exit, _, _, _, hexit, -, -, hcall⟩
  · rw [hcall] at h
    cases h
    exact Nat.lt_succ_self _
  · rw [hcall] at h
    cases h
    exact absurd rfl (hexit a)

theorem advances_yieldRows (columns : List MssqlColumn) (metadata : List ColumnMetadata) :
    Advances fun _ : Unit => (do
      match ← call engine TdsClient.nextRow "failed to read a row" with
      | some values =>
        yieldItem (.row columns (rowValues metadata values))
        return .inl ()
      | none => return .inr () : Operation δ (Unit ⊕ Unit)) := by
  intro _ s es b t rest hrun
  change (call engine TdsClient.nextRow "failed to read a row" >>= _) s es = _ at hrun
  rw [Process.bind_run] at hrun
  rcases hcall : call engine TdsClient.nextRow "failed to read a row" s es with ⟨exit, u, rest'⟩
  rw [hcall] at hrun
  cases exit with
  | failed e => simp at hrun
  | dropped p => simp at hrun
  | aborted a => simp at hrun
  | returned row =>
    have hlt := returned_call hcall
    cases row with
    | none => simp at hrun
    | some values =>
      cases rest' with
      | nil => simp [yieldItem, Process.suspend] at hrun
      | cons e rest' =>
        cases e with
        | answered =>
          simp only [yieldItem, Process.andThen_returned, Process.bind_run, Process.suspend_cons, Process.pure_run,
            Outcome.mk.injEq, true_and] at hrun
          obtain ⟨-, -, rfl⟩ := hrun
          rw [List.length_cons] at hlt
          omega
        | refused error applied => simp [yieldItem] at hrun
        | cut applied => simp [yieldItem] at hrun

/-- Against a result set with rows: the consumer drops the stream at the first row, and polls
it on at the query result behind an empty one. -/
theorem polls_rows (metadata : List ColumnMetadata) :
    Polls (SameUse rows)
      (do
        match ← call engine TdsClient.nextRow "failed to read a row" with
        | some values => return .inr (some ⟨resultColumns metadata, rowValues metadata values⟩)
        | none => optionalNext engine : Operation δ (StatementResult ⊕ Option MssqlRow))
      (do
        yieldRows engine metadata
        yieldItem (.queryResult 0)
        nextResult engine : Operation δ (StatementResult ⊕ Unit))
      (SameTurn rows) (Polls.Found (FoundRow rows)) (SameUse rows) := by
  have hunroll : yieldRows engine metadata = _ := loop_unroll (advances_yieldRows (resultColumns metadata) metadata) ()
  rw [hunroll, Process.bind_assoc, Process.bind_assoc]
  refine Polls.bind (polls_call _ _) (Polls.of_value fun row => ?_) fun _ _ _ _ h => False.elim h
  cases row with
  | none => exact polls_queryResult 0
  | some values =>
    rw [Process.bind_assoc]
    exact Polls.dropped fun s t h => ⟨_, rfl, h.row _ _⟩

theorem polls_turn (result : StatementResult) :
    Polls (SameUse rows) (optionalTurn engine result) (fetchTurn engine result) (SameTurn rows)
      (Polls.Found (FoundRow rows)) (SameUse rows) := by
  cases result with
  | done => exact Polls.pure fun s t h => ⟨rfl, h⟩
  | noRows rowsAffected => exact polls_queryResult _
  | rows =>
    refine Polls.bind Polls.get (fun u v => ?_) fun _ _ _ _ h => False.elim h
    rintro s t es ⟨rfl, rfl, h⟩
    rw [h.client]
    exact polls_rows _ u v es h

theorem advances_optionalTurn : Advances (optionalTurn (δ := δ) engine) := by
  intro result s es b t rest hrun
  have hnext {u : Session δ} {later : List Event} (h : optionalNext engine u later = ⟨.returned (.inl b), t, rest⟩) :
      rest.length < later.length := by
    rw [optionalNext, Process.bind_run] at h
    rcases hcall : call engine TdsClient.advance "failed to advance to the next result set" u later with
      ⟨exit, v, rest'⟩
    rw [hcall] at h
    cases exit with
    | returned a =>
      cases h
      exact returned_call hcall
    | failed e => simp at h
    | dropped p => simp at h
    | aborted a => simp at h
  cases result with
  | done => simp [optionalTurn] at hrun
  | noRows rowsAffected => exact hnext hrun
  | rows =>
    rw [optionalTurn, Process.bind_run, Process.get_run, Process.andThen_returned, Process.bind_run] at hrun
    rcases hcall : call engine TdsClient.nextRow "failed to read a row" s es with ⟨exit, u, rest'⟩
    rw [hcall] at hrun
    cases exit with
    | failed e => simp at hrun
    | dropped p => simp at hrun
    | aborted a => simp at hrun
    | returned row =>
      cases row with
      | some values => simp at hrun
      | none => exact (hnext hrun).trans (returned_call hcall)

theorem polls_drainPending : Polls (SameUse rows) (drainPending engine) (drainPending engine)
    (fun _ _ => SameUse rows) (fun _ _ _ => False) (SameUse rows) := by
  have hcall (p : PendingCall δ Unit) (context : String) (f : MssqlConnection δ → MssqlConnection δ) :
      Polls (SameUse rows)
        (do
          Process.update fun s => { s with toMssqlConnection := f s.toMssqlConnection }
          call engine p context : Operation δ Unit)
        (do
          Process.update fun s => { s with toMssqlConnection := f s.toMssqlConnection }
          call engine p context : Operation δ Unit)
        (fun _ _ => SameUse rows) (fun _ _ _ => False) (SameUse rows) := by
    refine Polls.bind (Polls.update fun s t h => h.update f) (fun _ _ => ?_) fun _ _ _ _ h => False.elim h
    exact (polls_call p context).mono (fun _ _ h => h) (fun _ _ _ _ h => h.2) fun _ _ _ h => h
  have hwhen (c : Session δ → Prop) [DecidablePred c] (hc : ∀ s t, SameUse rows s t → (c s ↔ c t))
      (m : Operation δ Unit) (hm : Polls (SameUse rows) m m (fun _ _ => SameUse rows) (fun _ _ _ => False)
        (SameUse rows)) :
      Polls (SameUse rows) (Process.get >>= fun s => Process.when (c s) m) (Process.get >>= fun s => Process.when (c s) m)
        (fun _ _ => SameUse rows) (fun _ _ _ => False) (SameUse rows) := by
    refine Polls.bind Polls.get (fun u v => ?_) fun _ _ _ _ h => False.elim h
    rintro s t es ⟨rfl, rfl, h⟩
    by_cases hs : c u
    · rw [Process.when, Process.when, if_pos hs, if_pos ((hc u v h).mp hs)]
      exact hm u v es h
    · rw [Process.when, Process.when, if_neg hs, if_neg fun ht => hs ((hc u v h).mpr ht)]
      exact Polls.pure (fun _ _ h => h) u v es h
  refine Polls.bind (hwhen (fun s => s.needsReset = true) ?_ _ ?_) (fun _ _ => hwhen (fun s => s.pendingRollback = true) ?_ _ ?_)
    fun _ _ _ _ h => False.elim h
  · intro s t h
    rw [h.connection]
  · exact hcall TdsClient.closeQuery _ fun c => { c with needsReset := false }
  · intro s t h
    rw [h.connection]
  · exact hcall (TdsClient.rollbackTransaction none) _ fun c => { c with pendingRollback := false }

theorem polls_lift (r : Run (Except SqlxError α)) : Polls (SameUse (δ := δ) rows) (lift r) (lift r) (SameResult rows)
    (fun _ _ _ => False) (SameUse rows) := by
  intro s t es h
  rcases r with a | e | a
  · exact .stopped [] (.aborted a) h rfl
  · exact .stopped [] (.failed e) h rfl
  · exact .returned [] ⟨rfl, h⟩ (fun _ => rfl) (by simp)

theorem polls_executeStatement (sql : Text) (arguments : Except Text (Option (List SqlType))) :
    Polls (SameUse rows) (executeStatement engine sql arguments) (executeStatement engine sql arguments)
      (SameResult rows) (fun _ _ _ => False) (SameUse rows) := by
  refine Polls.bind (polls_lift _) (Polls.of_value fun arguments => ?_) fun _ _ _ _ h => False.elim h
  refine Polls.bind polls_drainPending (fun _ _ => ?_) fun _ _ _ _ h => False.elim h
  refine Polls.bind (polls_lift _) (Polls.of_value fun request => ?_) fun _ _ _ _ h => False.elim h
  exact polls_call _ _

/-- The guard of the stream marks the connection where the stream is dropped at a row. -/
theorem polls_results (result : StatementResult) :
    Polls (SameUse rows)
      (do
        let row ← Process.guarded (fun s => { s with needsReset := true }) (.loop (optionalTurn engine) result)
        Process.when (row.isSome = true) (Process.update fun s => { s with needsReset := true })
        return row : Operation δ (Option MssqlRow))
      (fetchResults engine result) (NoRow rows) (FoundRow rows) (SameUse rows) := by
  intro s t es h
  have hmark {u v : Session δ} {rows : List MssqlRow} (h : SameUse rows u v) :
      SameUse rows { u with needsReset := true } { v with needsReset := true } :=
    h.update fun c => { c with needsReset := true }
  have hturn (result : StatementResult) : Polls (SameUse rows) (optionalTurn engine result) (fetchTurn engine result)
      (SameTurn rows) (Polls.Found (FoundRow rows)) (SameUse rows) := polls_turn result
  have hloop := Polls.loop advances_optionalTurn (Polls.of_value hturn) result result s t es ⟨rfl, h⟩
  rw [Process.bind_run]
  rcases hrun : Process.loop (optionalTurn engine) result s es with ⟨exit, u, rest⟩
  rw [hrun] at hloop
  cases hloop with
  | @returned row b u v rest used hv hstream hused =>
    obtain ⟨rfl, h⟩ := hv
    rw [Process.guarded_returned hrun]
    exact .returned used ⟨rfl, h⟩ (fun later => Process.guarded_returned (hstream later)) hused
  | @enough row u v rest used hd hstream =>
    obtain ⟨found, rfl, h⟩ := hd
    rw [Process.guarded_returned hrun]
    exact .enough used ⟨found, rfl, hmark h⟩ (Process.guarded_stopped hstream (by simp))
  | @stopped exit exit' u v rest used hexit h hstream =>
    cases hexit with
    | failed e =>
      rw [Process.guarded_stopped hrun (by simp)]
      exact .stopped used (.failed e) (hmark h) (Process.guarded_stopped hstream (by simp))
    | dropped p =>
      rw [Process.guarded_stopped hrun (by simp)]
      exact .stopped used (.dropped p) (hmark h) (Process.guarded_stopped hstream (by simp))
    | aborted a =>
      rw [Process.guarded_stopped hrun (by simp)]
      exact .stopped used (.aborted a) (hmark h) (Process.guarded_stopped hstream (by simp))

variable (engine)

/-- How a stream has ended and which rows it has handed out, for each end of its consumer. -/
inductive PolledTo : Exit SqlxError (Option MssqlRow) → Exit SqlxError Unit → List MssqlRow → Prop where
  | found (row : MssqlRow) : PolledTo (.returned (some row)) (.dropped .yielding) [row]
  | ended : PolledTo (.returned none) (.returned ()) []
  | failed (e : SqlxError) : PolledTo (.failed e) (.failed e) []
  | dropped (p : Suspension) : PolledTo (.dropped p) (.dropped p) []
  | aborted (a : Abort) : PolledTo (.aborted a) (.aborted a) []

/-- `fetch_optional` does what the stream of `fetch_many` does when it is polled up to its first
row and dropped there: the same calls, with the same connection behind them. -/
theorem fetchOptional_polls (sql : Text) (arguments : Except Text (Option (List SqlType))) (s : Session δ)
    (es : List Event) : ∃ polls : List Event,
      let o := fetchOptional engine sql arguments s es
      let stream := fetchMany engine sql arguments s polls
      stream.state.toMssqlConnection = o.state.toMssqlConnection ∧ calls stream.state.trace = calls o.state.trace ∧
        PolledTo o.exit stream.exit (rowsOf (s.since stream.state)) := by
  have hpolls : Polls (SameUse (rowsOf s.trace)) (fetchOptional engine sql arguments) (fetchMany engine sql arguments)
      (NoRow (rowsOf s.trace)) (FoundRow (rowsOf s.trace)) (SameUse (rowsOf s.trace)) := by
    rw [fetchMany_eq]
    exact Polls.bind (polls_executeStatement sql arguments) (Polls.of_value polls_results) fun _ _ _ _ h => False.elim h
  have hpolled := hpolls s s es ⟨rfl, rfl, rfl⟩
  have hsince {polls rest : List Event} {exit : Exit SqlxError Unit} {v : Session δ} {more : List MssqlRow}
      (hrun : fetchMany engine sql arguments s polls = ⟨exit, v, rest⟩) (h : rowsOf v.trace = rowsOf s.trace ++ more) :
      rowsOf (s.since v) = more := by
    have hlater : ∃ later, s.trace ++ later = (fetchMany engine sql arguments s polls).state.trace :=
      operation_extends_trace allFeatures (.fetchMany sql arguments) s polls
    rw [hrun] at hlater
    obtain ⟨later, hlater⟩ := hlater
    rw [← hlater, rowsOf_append] at h
    rw [Session.since, ← hlater, List.drop_left]
    exact List.append_cancel_left h
  generalize fetchOptional engine sql arguments s es = o at hpolled
  cases hpolled with
  | @returned row b u v rest used hv hrun hused =>
    obtain ⟨rfl, h⟩ := hv
    have hrows := hsince (hrun []) (h.rows.trans (List.append_nil _).symm)
    refine ⟨used ++ [], ?_⟩
    rw [hrun []]
    exact ⟨h.connection, h.calls, hrows ▸ .ended⟩
  | @enough row u v rest used hd hrun =>
    obtain ⟨found, rfl, h⟩ := hd
    have hrows := hsince hrun h.rows
    refine ⟨used, ?_⟩
    rw [hrun]
    exact ⟨h.connection, h.calls, hrows ▸ .found found⟩
  | @stopped exit exit' u v rest used hexit h hrun =>
    have hrows := hsince hrun (h.rows.trans (List.append_nil _).symm)
    refine ⟨used, ?_⟩
    rw [hrun]
    refine ⟨h.connection, h.calls, ?_⟩
    rw [hrows]
    cases hexit with
    | failed e => exact .failed e
    | dropped p => exact .dropped p
    | aborted a => exact .aborted a

end Polling

section FirstRows

/-- The first row that the results of a response hand out. -/
def firstRow (replies : List StatementReply) : Option MssqlRow :=
  (rowsOf ((replies.flatMap StatementReply.items).map .yielded)).head?

def answersToFirstRow : List StatementReply → ℕ
  | [] => 0
  | .rows _ [] :: left => answersToFirstRow left + 2
  | .rows _ (_ :: _) :: _ => 1
  | .noRows _ :: left => answersToFirstRow left + 1

/-- Statement after statement, each read up to its first row. -/
def fetchEach : List (Text × Option (List SqlType)) → Operation δ (List (Option MssqlRow))
  | [] => return []
  | (sql, arguments) :: statements => do
    let row ← fetchOptional engine sql (.ok arguments)
    let rows ← fetchEach statements
    return row :: rows

/-- The first row that the server has for each request. -/
def firstRowsAlong : List Request → δ → List (Option MssqlRow)
  | [], _ => []
  | request :: requests, data =>
    firstRow (engine.replies request data) :: firstRowsAlong requests (engine.effect request data)

/-- The answers that it takes. Behind a row the response is closed by the next statement. -/
def answersAlong : Bool → List Request → δ → ℕ
  | _, [], _ => 0
  | unread, request :: requests, data =>
    let replies := engine.replies request data
    (if unread then 1 else 0) + (1 + answersToFirstRow replies) +
      answersAlong (firstRow replies).isSome requests (engine.effect request data)

/-- The connection has nothing to roll back, and the server holds the data. -/
structure Stands (unread : Bool) (data : δ) (s : Session δ) : Prop where
  settled : s.pendingRollback = false
  reset : s.needsReset = unread
  data : s.client.server.data = data

/-- The cursor stands in the response over this data. -/
structure StandsIn (replies : List StatementReply) (data : δ) (s : Session δ) : Prop extends Open s replies where
  settled : s.pendingRollback = false
  data : s.client.server.data = data

@[simp] theorem firstRow_nil : firstRow [] = none := rfl
@[simp] theorem firstRow_noRows (rowsAffected : Option UInt64) (left : List StatementReply) :
    firstRow (.noRows rowsAffected :: left) = firstRow left := rfl
@[simp] theorem firstRow_empty (metadata : List ColumnMetadata) (left : List StatementReply) :
    firstRow (.rows metadata [] :: left) = firstRow left := rfl
@[simp] theorem firstRow_row (metadata : List ColumnMetadata) (values : List ColumnValues)
    (more : List (List ColumnValues)) (left : List StatementReply) :
    firstRow (.rows metadata (values :: more) :: left) =
      some ⟨resultColumns metadata, rowValues metadata values⟩ := rfl

namespace Plays
variable {P : Session δ → Prop}

theorem update {Q : Unit → Session δ → Prop} {f : Session δ → Session δ} (hitems : ∀ s, (f s).trace = s.trace)
    (h : ∀ s, P s → Q () (f s)) : Plays P [] Q (Process.update f) where
  completes {s _} hs _ := ⟨(), f s, rfl, h s hs, by rw [hitems, List.reduceOption_nil, List.append_nil]⟩
  stops _ h := absurd h (Nat.not_lt_zero _)

/-- A call that the server can always serve. -/
theorem call {p : PendingCall δ α} {Q : α → Session δ → Prop} (context : String)
    (h : ∀ s, P s → ∃ server, p.serve (p.sent s.client).server = some server ∧
      Q (p.receive { p.sent s.client with server }).1 (s.answer p server)) :
    Plays P [none] Q (call engine p context) where
  completes {s es} hs hlead := by
    obtain ⟨rest, rfl⟩ := one_le_lead hlead
    obtain ⟨server, hserve, hq⟩ := h s hs
    exact ⟨_, _, call_answered engine p context s rest hserve, hq, items_append _ [_]⟩
  stops {s es} hs hlead := by
    rw [Nat.lt_one_iff.mp hlead]
    rcases es with _ | ⟨e, rest⟩
    · exact ⟨_, _, _, call_nil engine p context s, by simp, by simp, items_append _ [_]⟩
    · cases e with
      | answered => simp at hlead
      | refused error applied =>
        exact ⟨_, _, _, call_refused engine p context s rest error applied, by simp, by simp, items_append _ [_]⟩
      | cut applied =>
        exact ⟨_, _, _, call_cut engine p context s rest applied, by simp, by simp, items_append _ [_]⟩

theorem guarded {script : Script} {Q : α → Session δ → Prop} {m : Operation δ α} {onDrop : Session δ → Session δ}
    (hitems : ∀ s, (onDrop s).trace = s.trace) (hm : Plays P script Q m) :
    Plays P script Q (Process.guarded onDrop m) where
  completes {s es} hs hlead := by
    obtain ⟨a, t, hrun, ht, hdelivered⟩ := hm.completes hs hlead
    exact ⟨a, t, Process.guarded_returned hrun, ht, hdelivered⟩
  stops {s es} hs hlead := by
    obtain ⟨exit, t, rest, hrun, hreturned, haborted, hdelivered⟩ := hm.stops hs hlead
    exact ⟨exit, onDrop t, rest, Process.guarded_stopped hrun hreturned, hreturned, haborted,
      (congrArg items (hitems t)).trans hdelivered⟩

theorem returned_iff {script : Script} {a : α} {R : Session δ → Prop} {m : Operation δ α}
    (hm : Plays P script (fun b t => b = a ∧ R t) m) {s : Session δ} (hs : P s) (es : List Event) (b : α) :
    (m s es).exit = .returned b ↔ b = a ∧ script.length ≤ lead es := by
  by_cases hlead : script.length ≤ lead es
  · obtain ⟨c, t, hrun, ⟨rfl, -⟩, -⟩ := hm.completes hs hlead
    rw [hrun]
    simp only [Exit.returned.injEq, hlead, and_true]
    exact eq_comm
  · obtain ⟨exit, t, rest, hrun, hreturned, -, -⟩ := hm.stops hs (Nat.lt_of_not_le hlead)
    rw [hrun]
    exact iff_of_false (hreturned b) fun h => hlead h.2

end Plays

theorem plays_optionalNext {reply : StatementReply} {left : List StatementReply} {data : δ} :
    Plays (StandsIn (reply :: left) data) [none] (fun r t => r = .inl (resultOf left) ∧ StandsIn left data t)
      (optionalNext engine) := by
  have hadvance : Plays (StandsIn (reply :: left) data) [none]
      (fun result t => result = resultOf left ∧ StandsIn left data t)
      (call engine TdsClient.advance "failed to advance to the next result set") :=
    .reading engine _ fun t ht =>
      ⟨(ht.toOpen.advance t.client.server).boundary, ht.toOpen.advance _, ht.settled, ht.data⟩
  exact hadvance.bind (.of_value (.pure fun t ht => ⟨rfl, ht⟩))

theorem plays_nextRow (metadata : List ColumnMetadata) (rows : List (List ColumnValues)) (left : List StatementReply)
    (data : δ) (context : String) : Plays (StandsIn (.rows metadata rows :: left) data) [none]
      (fun row t => row = rows.head? ∧ StandsIn (.rows metadata rows.tail :: left) data t)
      (call engine TdsClient.nextRow context) := by
  refine .reading engine _ fun t ht => ?_
  have hdata : (t.answer TdsClient.nextRow t.client.server).client.server.data = data := by
    rw [← ht.data]
    cases rows <;> simp [Session.answer, Session.record, TdsClient.nextRow, TdsClient.reading, ht.response]
  cases rows with
  | nil => exact ⟨by simp [ht.response], ht.toOpen.endOfRows _, ht.settled, hdata⟩
  | cons row rows => exact ⟨by simp [ht.response], ht.toOpen.nextRow _, ht.settled, hdata⟩

/-- What a loop over the turns comes to: the first row, or the end of the response. -/
theorem plays_optionalTurns (replies : List StatementReply) (data : δ) :
    Plays (StandsIn replies data) (List.replicate (answersToFirstRow replies) none)
      (fun row t => row = firstRow replies ∧ Stands false data t)
      (Process.loop (optionalTurn engine) (resultOf replies)) := by
  have hrows (metadata : List ColumnMetadata) (values : List (List ColumnValues)) (left : List StatementReply)
      {script : Script} {Q : StatementResult ⊕ Option MssqlRow → Session δ → Prop}
      (h : Plays (StandsIn (.rows metadata values :: left) data) script Q
        (do
          match ← call engine TdsClient.nextRow "failed to read a row" with
          | some values => return .inr (some ⟨resultColumns metadata, rowValues metadata values⟩)
          | none => optionalNext engine)) :
      Plays (StandsIn (.rows metadata values :: left) data) script Q (optionalTurn engine .rows) := by
    refine .get_bind fun s hs => ?_
    have hmetadata : s.client.metadata = metadata := by rw [TdsClient.metadata, hs.response]
    rw [hmetadata]
    exact .of_imp (fun _ h => h ▸ hs) h
  induction replies with
  | nil =>
    change Plays _ ([] ++ []) _ _
    exact Plays.loop (Q := fun r t => r = .inr none ∧ StandsIn [] data t) (.pure fun t ht => ⟨rfl, ht⟩)
      (.inr fun _ t h => by cases h.1) (.of_value (.pure fun t ht => ⟨rfl, ht.settled, ht.reset, ht.data⟩))
  | cons reply left ih =>
    rcases reply with ⟨metadata, _ | ⟨values, more⟩⟩ | rowsAffected
    · have hscript : List.replicate (answersToFirstRow (.rows metadata [] :: left)) (none : Option StreamItem) =
          ([none] ++ [none]) ++ List.replicate (answersToFirstRow left) none := rfl
      rw [hscript, firstRow_empty]
      refine Plays.loop (Q := fun r t => r = .inl (resultOf left) ∧ StandsIn left data t) (hrows metadata [] left ?_)
        (.inl (by simp)) (.of_value ih)
      exact (plays_nextRow engine metadata [] left data _).bind (.of_value (plays_optionalNext engine))
    · change Plays _ ([none] ++ []) _ _
      refine Plays.loop (Q := fun r t => r = .inr (some ⟨resultColumns metadata, rowValues metadata values⟩) ∧
        StandsIn (.rows metadata more :: left) data t) (hrows metadata (values :: more) left ?_) (.inl (by simp))
        (Plays.of_value ?_)
      on_goal 2 => exact Plays.pure fun t ht => ⟨rfl, ht.settled, ht.reset, ht.data⟩
      exact (plays_nextRow engine metadata (values :: more) left data _).bind (.of_value (.pure fun t ht => ⟨rfl, ht⟩))
    · have hscript : List.replicate (answersToFirstRow (.noRows rowsAffected :: left)) (none : Option StreamItem) =
          [none] ++ List.replicate (answersToFirstRow left) none := rfl
      rw [hscript, firstRow_noRows]
      exact Plays.loop (plays_optionalNext engine) (.inl (by simp)) (.of_value ih)

/-- An unread response is closed; there is nothing to roll back. -/
theorem plays_drainPending (unread : Bool) (data : δ) :
    Plays (Stands unread data) (List.replicate (if unread then 1 else 0) none) (fun _ t => Stands false data t)
      (drainPending engine) := by
  have hclose : Plays (Stands unread data) (List.replicate (if unread then 1 else 0) none)
      (fun _ t => Stands false data t) (closeUnfinished engine) := by
    refine .get_bind fun s hs => ?_
    cases unread with
    | false =>
      have hidle : ¬ s.needsReset = true := by simp [hs.reset]
      rw [Process.when, if_neg hidle]
      exact .pure fun t ht => ht ▸ hs
    | true =>
      rw [Process.when, if_pos hs.reset]
      change Plays _ ([] ++ [none]) _ _
      refine Plays.bind (.update (fun _ => rfl) (Q := fun _ => Stands false data) ?_) fun _ => ?_
      · rintro t rfl
        exact ⟨hs.settled, rfl, hs.data⟩
      · exact .reading engine _ fun t ht => ⟨ht.settled, ht.reset, ht.data⟩
  have hroll : Plays (Stands false data) [] (fun _ t => Stands false data t) (rollBackAbandoned engine) := by
    refine .get_bind fun s hs => ?_
    have hidle : ¬ s.pendingRollback = true := by simp [hs.settled]
    rw [Process.when, if_neg hidle]
    exact .pure fun t ht => ht ▸ hs
  rw [← List.append_nil (List.replicate _ _)]
  exact hclose.bind fun _ => hroll

theorem plays_request (c : ClientCall) (request : Request) (data : δ) (context : String) :
    Plays (Stands false data) [none]
      (fun result t => result = resultOf (engine.replies request data) ∧
        StandsIn (engine.replies request data) (engine.effect request data) t)
      (call engine (TdsClient.request engine c request) context) := by
  refine .call engine _ fun t ht => ⟨_, rfl, ?_⟩
  have hopen : Open (t.answer (TdsClient.request engine c request) (t.client.server.run (engine.effect request)))
      (engine.replies request data) := by
    rw [← ht.data]
    exact ⟨rfl, rfl, ht.reset⟩
  refine ⟨hopen.boundary, hopen, ht.settled, ?_⟩
  rw [← ht.data]
  exact Savepoints.Store.data_run _ _

theorem plays_executeStatement {sql : Text} {arguments : Option (List SqlType)} {request : Request}
    (hbuilt : buildRequest sql arguments = .ok (.ok request)) (unread : Bool) (data : δ) :
    Plays (Stands unread data) (List.replicate ((if unread then 1 else 0) + 1) none)
      (fun result t => result = resultOf (engine.replies request data) ∧
        StandsIn (engine.replies request data) (engine.effect request data) t)
      (executeStatement engine sql (.ok arguments)) := by
  have hplays : Plays (Stands unread data)
      ([] ++ (List.replicate (if unread then 1 else 0) none ++ ([] ++ [none])))
      (fun result t => result = resultOf (engine.replies request data) ∧
        StandsIn (engine.replies request data) (engine.effect request data) t)
      (executeStatement engine sql (.ok arguments)) := by
    refine Plays.bind (Q := fun a t => a = arguments ∧ Stands unread data t) ?_ (.of_value ?_)
    · exact Plays.pure fun t ht => ⟨rfl, ht⟩
    · refine Plays.bind (plays_drainPending engine unread data) fun _ => ?_
      rw [hbuilt]
      refine Plays.bind (Q := fun r t => r = request ∧ Stands false data t) ?_ (.of_value ?_)
      · exact Plays.pure fun t ht => ⟨rfl, ht⟩
      · obtain ⟨sent, params⟩ := request
        cases params with
        | nil => exact plays_request engine _ _ data _
        | cons param params => exact plays_request engine _ _ data _
  simpa [List.replicate_succ'] using hplays

theorem plays_fetchOptional {sql : Text} {arguments : Option (List SqlType)} {request : Request}
    (hbuilt : buildRequest sql arguments = .ok (.ok request)) (unread : Bool) (data : δ) :
    Plays (Stands unread data)
      (List.replicate ((if unread then 1 else 0) + (1 + answersToFirstRow (engine.replies request data))) none)
      (fun row t => row = firstRow (engine.replies request data) ∧
        Stands (firstRow (engine.replies request data)).isSome (engine.effect request data) t)
      (fetchOptional engine sql (.ok arguments)) := by
  let drop (row : Option MssqlRow) : Operation δ (Option MssqlRow) := do
    Process.when (row.isSome = true) (Process.update fun s => { s with needsReset := true })
    return row
  have hdrop (row : Option MssqlRow) (data : δ) : Plays (Stands false data) []
      (fun found t => found = row ∧ Stands row.isSome data t) (drop row) := by
    change Plays _ ([] ++ []) _ _
    refine Plays.bind (Q := fun _ => Stands row.isSome data) ?_ fun _ => .pure fun t ht => ⟨rfl, ht⟩
    cases row with
    | none => exact .pure fun t ht => ht
    | some row => exact .update (fun _ => rfl) fun t ht => ⟨ht.settled, rfl, ht.data⟩
  rw [← Nat.add_assoc, List.replicate_add, ← List.append_nil (List.replicate (answersToFirstRow _) _)]
  refine (plays_executeStatement engine hbuilt unread data).bind (.of_value ?_)
  refine Plays.bind (Plays.guarded (fun _ => rfl) (plays_optionalTurns engine _ _)) fun row => ?_
  exact Plays.of_value (f := drop) (hdrop _ _) row

theorem plays_fetchEach {statements : List (Text × Option (List SqlType))} {requests : List Request}
    (hbuilt : List.Forall₂ (fun statement request => buildRequest statement.1 statement.2 = .ok (.ok request))
      statements requests) (unread : Bool) (data : δ) :
    Plays (Stands unread data) (List.replicate (answersAlong engine unread requests data) none)
      (fun rows _ => rows = firstRowsAlong engine requests data ∧ True) (fetchEach engine statements) := by
  induction hbuilt generalizing unread data with
  | nil => exact .pure fun _ _ => ⟨rfl, trivial⟩
  | @cons statement request statements requests h _ ih =>
    rw [answersAlong, List.replicate_add, ← List.append_nil (List.replicate (answersAlong _ _ _ _) _)]
    refine (plays_fetchOptional engine h unread data).bind (.of_value ?_)
    exact (ih _ _).bind (.of_value (.pure fun _ _ => ⟨rfl, trivial⟩))

/-- Statement after statement over one connection with no rollback queued, each of which makes a
request and leaves the rest of its response unread: every one returns the first row of its own
response, however many result sets come before it, when so many calls have been answered, and
nothing else. -/
theorem fetchEach_returned_iff {statements : List (Text × Option (List SqlType))} {requests : List Request}
    (hbuilt : List.Forall₂ (fun statement request => buildRequest statement.1 statement.2 = .ok (.ok request))
      statements requests) {s : Session δ} (hsettled : s.pendingRollback = false) (es : List Event)
    (rows : List (Option MssqlRow)) : (fetchEach engine statements s es).exit = .returned rows ↔
      rows = firstRowsAlong engine requests s.client.server.data ∧
        answersAlong engine s.needsReset requests s.client.server.data ≤ lead es := by
  have hplays := plays_fetchEach engine hbuilt s.needsReset s.client.server.data
  rw [hplays.returned_iff ⟨hsettled, rfl, rfl⟩, List.length_replicate]

/-- Two statements whose first rows are fetched while the response of the first is unread. -/
theorem twoFirstRows : (fetchEach countingEngine [("SELECT 1".toList, none), ("SELECT 2".toList, none)]
    (Session.connected 0) (List.replicate 5 .answered)).exit =
      .returned [some ⟨[], [⟨.null, .unknown⟩]⟩, some ⟨[], [⟨.null, .unknown⟩]⟩] :=
  (fetchEach_returned_iff countingEngine (.cons rfl (.cons rfl .nil)) rfl _ _).mpr ⟨rfl, by decide⟩

end FirstRows

end SqlxMssql
