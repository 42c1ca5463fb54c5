import SqlxMssql.Connection.Client
import SqlxMssql.Text.ParamMarkers
import SqlxMssql.Types.MssqlValue
import Mathlib.Data.List.Sort

/-! # The connection and its operations

Every operation of a connection as a process: it is driven by the answers of the client
and may be dropped at each await and each yield. The session adds to the connection the
trace of its calls and of the items it handed out.
-/
namespace SqlxMssql
open Loops Utf8 Interaction ParamMarkers

structure MssqlConnection (δ : Type) where
  client : TdsClient δ
  transactionDepth : ℕ
  needsReset : Bool
  /-- A transaction was dropped without being committed. -/
  pendingRollback : Bool
  deriving DecidableEq, Repr

structure MssqlColumn where
  ordinal : ℕ
  name : Text
  typeInfo : MssqlTypeInfo
  nullable : Option Bool
  deriving DecidableEq, Repr

def rowValues (metadata : List ColumnMetadata) (values : List ColumnValues) : List MssqlValue :=
  values.zipIdx.map fun (value, index) =>
    match metadata[index]? with
    | some column => .fromColumnValue value column
    | none => ⟨.null, .unknown⟩

inductive StreamItem where
  | row (columns : List MssqlColumn) (values : List MssqlValue)
  | queryResult (rowsAffected : UInt64)
  deriving DecidableEq, Repr

structure MssqlDatabaseError where
  source : TdsError
  message : Text
  code : Option Text
  deriving DecidableEq, Repr

/-- The first error of a batch is the primary one. -/
def MssqlDatabaseError.from (error : TdsError) : MssqlDatabaseError :=
  match error with
  | .sqlServerError (first :: _) _ => ⟨error, first.message, some (decimal first.number.toNat)⟩
  | .sqlServerError [] display => ⟨error, display, none⟩
  | .other display => ⟨error, display, none⟩

inductive SqlxError where
  | database (error : MssqlDatabaseError)
  | encode (message : Text)
  | configuration (message : Text)
  | protocol (message : Text)
  deriving DecidableEq, Repr

def databaseErrorWithContext (error : TdsError) (context : Text) : SqlxError :=
  let databaseError := MssqlDatabaseError.from error
  .database { databaseError with message := context ++ ": ".toList ++ databaseError.message }

/-- What the environment of a session does where the session waits. A call is answered,
or it fails, or its future is dropped; in the last two cases the server may have carried
the call out or not. A stream that waits at a yield is polled on, or dropped. -/
inductive Event where
  | answered
  | refused (error : TdsError) (applied : Bool)
  | cut (applied : Bool)
  deriving DecidableEq, Repr

inductive CallOutcome where
  | answered
  | refused
  | pending
  deriving DecidableEq, Repr

inductive Happening where
  | called (call : ClientCall) (outcome : CallOutcome)
  | yielded (item : StreamItem)
  deriving DecidableEq, Repr

structure Session (δ : Type) extends MssqlConnection δ where
  trace : List Happening
  deriving DecidableEq, Repr

abbrev Operation (δ α : Type) := Process Event (Session δ) SqlxError α

variable {δ α : Type}

namespace Session

def record (h : Happening) (s : Session δ) : Session δ := { s with trace := s.trace ++ [h] }

/-- The session while a call is under way, which the server may have carried out. -/
def calling (p : PendingCall δ α) (applied : Bool) (s : Session δ) : Session δ :=
  let client := p.sent s.client
  { s with client := { client with
      server := if applied then (p.serve client.server).getD client.server else client.server } }

end Session

variable (engine : SqlEngine δ)

/-- Awaits a call of the client. -/
def await (p : PendingCall δ α) : Process Event (Session δ) TdsError α :=
  .suspend .awaiting (fun s => (s.calling p false).record (.called p.call .pending)) fun event s =>
    match event with
    | .answered =>
      match p.serve (p.sent s.client).server with
      | some server =>
        let answer := p.receive { p.sent s.client with server }
        (.returned answer.1, { s with client := answer.2 }.record (.called p.call .answered))
      | none => (.failed (engine.rejection p.call), (s.calling p false).record (.called p.call .refused))
    | .refused error applied =>
      (.failed error, (s.calling p applied).record (.called p.call .refused))
    | .cut applied => (.dropped .awaiting, (s.calling p applied).record (.called p.call .pending))

/-- `client.call().await.map_err(|error| database_error_with_context(error, context))` -/
def call (p : PendingCall δ α) (context : String) : Operation δ α :=
  (await engine p).mapErr (databaseErrorWithContext · context.toList)

def yieldItem (item : StreamItem) : Operation δ Unit :=
  .suspend .yielding (·.record (.yielded item)) fun event s =>
    match event with
    | .answered => (.returned (), s.record (.yielded item))
    | _ => (.dropped .yielding, s.record (.yielded item))

def lift (r : Run (Except SqlxError α)) : Operation δ α := do
  match ← Process.lift r with
  | .ok a => return a
  | .error e => Process.fail e

section Lift
variable (s : Session δ) (es : List Event)

@[simp] theorem lift_panic (a : Abort) :
    (lift (.error a) : Operation δ α) s es = ⟨.aborted a, s, es⟩ := rfl
@[simp] theorem lift_error (e : SqlxError) :
    (lift (.ok (.error e)) : Operation δ α) s es = ⟨.failed e, s, es⟩ := rfl
@[simp] theorem lift_ok (a : α) :
    (lift (.ok (.ok a)) : Operation δ α) s es = ⟨.returned a, s, es⟩ := rfl

end Lift

def connectWith (options : MssqlConnectOptions) : Operation δ Unit := do
  let datasource := options.datasource
  call engine (TdsClient.createClient options.clientContext datasource)
    (String.ofList ("failed to connect to SQL Server at ".toList ++ datasource))
  Process.update fun s => { s with transactionDepth := 0, needsReset := false, pendingRollback := false }

def close : Operation δ Unit := call engine TdsClient.closeConnection "failed to close the connection"

/-- `start_rollback`, when a transaction is dropped undecided. -/
def queueRollback : Operation δ Unit :=
  Process.update fun s => { s with pendingRollback := true, transactionDepth := 0 }

def closeUnfinished : Operation δ Unit := do
  Process.when (← Process.get).needsReset do
    Process.update fun s => { s with needsReset := false }
    call engine TdsClient.closeQuery "failed to close the previous result set"

def rollBackAbandoned : Operation δ Unit := do
  Process.when (← Process.get).pendingRollback do
    Process.update fun s => { s with pendingRollback := false }
    call engine (TdsClient.rollbackTransaction none) "failed to roll back the abandoned transaction"

def drainPending : Operation δ Unit := do
  closeUnfinished engine
  rollBackAbandoned engine

def savepointName (depth : ℕ) : Text := "sqlx_sp_".toList ++ decimal depth

def beginTransaction : Operation δ Unit := do
  drainPending engine
  let depth := (← Process.get).transactionDepth
  call engine
    (if depth = 0 then TdsClient.beginTransaction else TdsClient.saveTransaction (savepointName depth))
    "failed to begin a transaction"
  Process.update fun s => { s with transactionDepth := s.transactionDepth + 1 }

/-- Only the outermost commit reaches the server. -/
def commitTransaction : Operation δ Unit := do
  let depth := (← Process.get).transactionDepth
  Process.when (depth ≠ 0) do
    Process.when (depth = 1) do
      call engine TdsClient.commitTransaction "failed to commit the transaction"
    Process.update fun s => { s with transactionDepth := s.transactionDepth - 1 }

def rollbackTransaction : Operation δ Unit := do
  let depth := (← Process.get).transactionDepth
  Process.when (depth ≠ 0) do
    call engine
      (TdsClient.rollbackTransaction (if depth = 1 then none else some (savepointName (depth - 1))))
      (if depth = 1 then "failed to roll back the transaction"
        else "failed to roll back to the nested transaction savepoint")
    Process.update fun s => { s with transactionDepth := s.transactionDepth - 1 }

/-- Rewrites `?` markers and names the parameters. A statement without arguments is sent
as it is. -/
def buildRequest (sql : Text) (arguments : Option (List SqlType)) : Run (Except SqlxError Request) :=
  match arguments.getD [] with
  | [] => .ok (.ok ⟨sql, []⟩)
  | values => do
    let (rewritten, markers) ← rewriteParamMarkers sql
    if markers ≠ values.length then
      return .error (.encode ("query has ".toList ++ decimal markers ++
        " parameter marker(s) but ".toList ++ decimal values.length ++
        " argument(s) were provided".toList))
    return .ok ⟨rewritten, values.zipIdx.map fun (value, index) =>
      ⟨"@P".toList ++ decimal (index + 1), value⟩⟩

/-- `while let Some(values) = client.next_row()`, yielding every row. -/
def yieldRows (metadata : List ColumnMetadata) : Operation δ Unit :=
  let columns := metadata.zipIdx.map fun (column, ordinal) =>
    ⟨ordinal, column.columnName, .fromColumnMetadata column, some column.isNullable⟩
  .loop (fun _ => do
    match ← call engine TdsClient.nextRow "failed to read a row" with
    | some values =>
      yieldItem (.row columns (rowValues metadata values))
      return .inl ()
    | none => return .inr ()) ()

def nextResult : Operation δ (StatementResult ⊕ Unit) := do
  return .inl (← call engine TdsClient.advance "failed to advance to the next result set")

def fetchTurn : StatementResult → Operation δ (StatementResult ⊕ Unit)
  | .rows => do
    yieldRows engine (← Process.get).client.metadata
    -- a row-returning statement reports no affected-row count
    yieldItem (.queryResult 0)
    nextResult engine
  | .noRows rowsAffected => do
    yieldItem (.queryResult (rowsAffected.getD 0))
    nextResult engine
  | .done => return .inr ()

/-- The results of a response, under a guard that marks the connection on every way out but
the regular end. -/
def fetchResults (result : StatementResult) : Operation δ Unit :=
  .guarded (fun s => { s with needsReset := true }) (.loop (fetchTurn engine) result)

/-- The stream drains the connection by a copy of `drain_pending`, and has no guard before
the request has been answered. -/
def fetchMany (sql : Text) (arguments : Except Text (Option (List SqlType))) : Operation δ Unit := do
  let arguments ← lift (.ok (arguments.mapError .encode))
  drainPending engine
  let request ← lift (buildRequest sql arguments)
  let result ← call engine
    (if request.params.isEmpty then TdsClient.execute engine request.sql
      else TdsClient.executeSpExecutesql engine request) "query failed"
  fetchResults engine result

def readRows (context : String) : Operation δ (List (List ColumnValues)) :=
  .loop (fun rows => do
    match ← call engine TdsClient.nextRow context with
    | some values => return .inl (rows ++ [values])
    | none => return .inr rows) []

/-- Reads the first result set with rows, when there is one, and closes the response. -/
def readFirstRows (result : StatementResult) (advanceContext rowContext closeContext : String) :
    Operation δ (List ColumnMetadata × List (List ColumnValues)) := do
  let positioned ←
    (if result = .rows then pure true else call engine TdsClient.advanceToRows advanceContext)
  match positioned with
  | true =>
    let metadata := (← Process.get).client.metadata
    let rows ← readRows engine rowContext
    call engine TdsClient.closeQuery closeContext
    return (metadata, rows)
  | false =>
    let _ ← (call engine TdsClient.closeQuery closeContext).attempt
    return ([], [])

def collectRows (request : Request) : Operation δ (List ColumnMetadata × List (List ColumnValues)) := do
  drainPending engine
  let result ← call engine (TdsClient.executeSpExecutesql engine request)
    "failed to describe the statement"
  readFirstRows engine result "failed to read statement metadata" "failed to read statement metadata"
    "failed to close the metadata result set"

def queryRows (sql : Text) : Operation δ (List (List MssqlValue)) := do
  drainPending engine
  let result ← call engine (TdsClient.execute engine sql) "query failed"
  let (metadata, rows) ← readFirstRows engine result "failed to read the result set"
    "failed to read a row" "failed to close the result set"
  return rows.map (rowValues metadata)

/-- Advances to the end of the response and closes it. -/
def skipResults (result : StatementResult) : Operation δ Unit := do
  .loop (fun result => do
    if result = .done then return .inr ()
    return .inl (← call engine TdsClient.advance "failed to advance past a result set")) result
  call engine TdsClient.closeQuery "failed to close the result set"

def execSql (sql : Text) : Operation δ Unit := do
  drainPending engine
  let result ← call engine (TdsClient.execute engine sql) "query failed"
  skipResults engine result

def executeSimple (sql : Text) : Operation δ Unit := do
  drainPending engine
  let _ ← call engine (TdsClient.execute engine sql) "query failed"
  call engine TdsClient.closeQuery "failed to close the result set"

def ping : Operation δ Unit := executeSimple engine "SELECT 1".toList

end SqlxMssql
