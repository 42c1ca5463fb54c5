import SqlxMssql.Types.TypeInfo
import SqlxMssql.Options.ConnectOptions
import SqlxMssql.Foundations.Interaction
import SqlxMssql.Foundations.Savepoints

/-! # The TDS client and its server

The client library owns the transport and a cursor into the response that is being read.
What it sends changes the server's store; what the server answers to a request is given
by an engine, so that a theorem over all engines holds for every server.
-/
namespace SqlxMssql
open Utf8 Savepoints

structure ServerMessage where
  number : UInt32
  message : Text
  deriving DecidableEq, Repr

/-- `display` is the error's `to_string`. -/
inductive TdsError where
  | sqlServerError (errors : List ServerMessage) (display : Text)
  | other (display : Text)
  deriving DecidableEq, Repr

structure RpcParameter where
  name : Text
  value : SqlType
  deriving DecidableEq, Repr

structure Request where
  sql : Text
  params : List RpcParameter
  deriving DecidableEq, Repr

/-- The calls of the client that are awaited. -/
inductive ClientCall where
  | closeQuery
  | beginTransaction
  | saveTransaction (name : Text)
  | commitTransaction
  | rollbackTransaction (name : Option Text)
  | execute (sql : Text)
  | executeSpExecutesql (request : Request)
  | advance
  | advanceToRows
  | nextRow
  | createClient (context : ClientContext) (datasource : Text)
  | closeConnection
  deriving DecidableEq, Repr

/-- The call reads on in a response. -/
def ClientCall.Reads : ClientCall → Prop
  | closeQuery | advance | advanceToRows | nextRow => True
  | _ => False

inductive StatementResult where
  | rows
  | noRows (rowsAffected : Option UInt64)
  | done
  deriving DecidableEq, Repr

inductive StatementReply where
  | rows (metadata : List ColumnMetadata) (rows : List (List ColumnValues))
  | noRows (rowsAffected : Option UInt64)
  deriving DecidableEq, Repr

def StatementReply.hasRows : StatementReply → Bool
  | .rows _ _ => true
  | .noRows _ => false

/-- What requests do to the data, what they are answered, and the error for a call that
the state of the transaction does not allow. -/
structure SqlEngine (δ : Type) where
  effect : Request → δ → δ
  replies : Request → δ → List StatementReply
  rejection : ClientCall → TdsError

structure TdsClient (δ : Type) where
  server : Store Text δ
  /-- What is left of the response, from the statement the cursor is at. -/
  response : List StatementReply
  /-- From the call of an execute until the response has been read to its end or closed. -/
  unread : Bool
  deriving DecidableEq, Repr

/-- A call that is awaited: what it changes as soon as it is made, what the server does
for it, and what the client makes of the answer. -/
structure PendingCall (δ α : Type) where
  call : ClientCall
  sent : TdsClient δ → TdsClient δ
  serve : Store Text δ → Option (Store Text δ)
  receive : TdsClient δ → α × TdsClient δ

namespace TdsClient
variable {δ : Type}

def boundary (c : TdsClient δ) : StatementResult :=
  match c.response with
  | [] => .done
  | .rows _ _ :: _ => .rows
  | .noRows n :: _ => .noRows n

def metadata (c : TdsClient δ) : List ColumnMetadata :=
  match c.response with
  | .rows metadata _ :: _ => metadata
  | _ => []

/-- Moves the cursor to what is left; at the end nothing is unread any more. -/
def moveTo (left : List StatementReply) (c : TdsClient δ) : TdsClient δ :=
  { c with response := left, unread := c.unread && !left.isEmpty }

theorem moveTo_done {left : List StatementReply} {c : TdsClient δ}
    (h : (c.moveTo left).boundary = .done) : (c.moveTo left).unread = false := by
  rcases left with _ | ⟨_ | _, _⟩
  · simp [moveTo]
  · simp [moveTo, boundary] at h
  · simp [moveTo, boundary] at h

variable (engine : SqlEngine δ)

def request (call : ClientCall) (request : Request) : PendingCall δ StatementResult where
  call := call
  sent c := { c with response := engine.replies request c.server.data, unread := true }
  serve s := some (s.run (engine.effect request))
  receive c := (c.boundary, c.moveTo c.response)

def execute (sql : Text) : PendingCall δ StatementResult := request engine (.execute sql) ⟨sql, []⟩

def executeSpExecutesql (r : Request) : PendingCall δ StatementResult :=
  request engine (.executeSpExecutesql r) r

/-- A call about the transaction, which has no response to read. -/
def control (call : ClientCall) (serve : Store Text δ → Option (Store Text δ)) : PendingCall δ Unit where
  call := call
  sent c := c
  serve := serve
  receive c := ((), c)

def beginTransaction : PendingCall δ Unit := control .beginTransaction fun s => some s.begin
def saveTransaction (name : Text) : PendingCall δ Unit := control (.saveTransaction name) (·.save name)
def commitTransaction : PendingCall δ Unit := control .commitTransaction (·.commit)

def rollbackTransaction (name : Option Text) : PendingCall δ Unit :=
  control (.rollbackTransaction name) fun s =>
    match name with
    | none => s.rollback
    | some name => s.rollbackTo name

def createClient (context : ClientContext) (datasource : Text) : PendingCall δ Unit where
  call := .createClient context datasource
  sent c := c
  serve s := some { s with transaction := none }
  receive c := ((), { c with response := [], unread := false })

/-- The server rolls an open transaction back. -/
def closeConnection : PendingCall δ Unit :=
  control .closeConnection fun s => some { s with transaction := none }

/-- A call that reads on in the response. -/
def reading {α : Type} (call : ClientCall) (receive : TdsClient δ → α × TdsClient δ) :
    PendingCall δ α where
  call := call
  sent c := c
  serve := some
  receive := receive

/-- Reading on keeps the server as it is and makes nothing unread. -/
def ReadsOn {α : Type} (receive : TdsClient δ → α × TdsClient δ) : Prop :=
  ∀ c, (receive c).2.server = c.server ∧ (c.unread = false → (receive c).2.unread = false)

def closeQuery : PendingCall δ Unit :=
  reading .closeQuery fun c => ((), { c with response := [], unread := false })

def advance : PendingCall δ StatementResult :=
  reading .advance fun c =>
    let c := c.moveTo (c.response.drop 1)
    (c.boundary, c)

/-- Whether a further result set with rows was found. -/
def advanceToRows : PendingCall δ Bool :=
  reading .advanceToRows fun c =>
    let left := (c.response.drop 1).dropWhile (!·.hasRows)
    (!left.isEmpty, c.moveTo left)

/-- The end of the rows of a result set is not yet the end of the response. -/
def nextRow : PendingCall δ (Option (List ColumnValues)) :=
  reading .nextRow fun c =>
    match c.response with
    | .rows metadata (row :: rows) :: left => (some row, { c with response := .rows metadata rows :: left })
    | _ => (none, c)

end TdsClient

end SqlxMssql
