import SqlxMssql.Connection.Describe

/-! # Runs of a connection

A run uses one connection again and again, each use with a schedule of its own. A frame
that every call, every yield and every change of the bookkeeping respects holds for whole
uses, however they end.
-/
namespace SqlxMssql
open Loops Utf8 Interaction ParamMarkers Savepoints

/-- The calls that a trace records. -/
def calls (trace : List Happening) : List (ClientCall × CallOutcome) :=
  trace.filterMap fun
    | .called call outcome => some (call, outcome)
    | .yielded _ => none

@[simp] theorem calls_append (trace later : List Happening) :
    calls (trace ++ later) = calls trace ++ calls later := List.filterMap_append

/-- What the trace of a later session adds. -/
def Session.since {δ : Type} (s t : Session δ) : List Happening := t.trace.drop s.trace.length

section Calls
variable {δ α : Type} (engine : SqlEngine δ) (p : PendingCall δ α) (context : String)
  (s : Session δ) (es : List Event)

theorem call_nil : call engine p context s [] =
    ⟨.dropped .awaiting, (s.calling p false).record (.called p.call .pending), []⟩ := rfl

theorem call_refused (error : TdsError) (applied : Bool) :
    call engine p context s (.refused error applied :: es) =
      ⟨.failed (databaseErrorWithContext error context.toList),
        (s.calling p applied).record (.called p.call .refused), es⟩ := rfl

theorem call_cut (applied : Bool) : call engine p context s (.cut applied :: es) =
    ⟨.dropped .awaiting, (s.calling p applied).record (.called p.call .pending), es⟩ := rfl

/-- The session in which an answered call leaves the connection. -/
def Session.answer (server : Store Text δ) : Session δ :=
  { s with client := (p.receive { p.sent s.client with server }).2 }.record (.called p.call .answered)

theorem call_answered {server : Store Text δ} (h : p.serve (p.sent s.client).server = some server) :
    call engine p context s (.answered :: es) =
      ⟨.returned (p.receive { p.sent s.client with server }).1, s.answer p server, es⟩ := by
  simp only [call, Process.mapErr, await, Process.suspend_cons, h]
  rfl

theorem call_rejected (h : p.serve (p.sent s.client).server = none) :
    call engine p context s (.answered :: es) =
      ⟨.failed (databaseErrorWithContext (engine.rejection p.call) context.toList),
        (s.calling p false).record (.called p.call .refused), es⟩ := by
  simp only [call, Process.mapErr, await, Process.suspend_cons, h]

/-- A call returns when it is answered and the server can serve it. However else it goes,
it returns nothing, and the trace shows that it was not answered. -/
theorem call_cases :
    (∃ rest server, es = .answered :: rest ∧ p.serve (p.sent s.client).server = some server ∧
      call engine p context s es =
        ⟨.returned (p.receive { p.sent s.client with server }).1, s.answer p server, rest⟩) ∨
    ∃ exit applied outcome rest, (∀ a, exit ≠ .returned a) ∧ outcome ≠ .answered ∧
      (es.head? = some .answered → p.serve (p.sent s.client).server = none) ∧
      call engine p context s es =
        ⟨exit, (s.calling p applied).record (.called p.call outcome), rest⟩ := by
  cases es with
  | nil => exact .inr ⟨.dropped .awaiting, false, .pending, [], by simp, by simp, by simp, rfl⟩
  | cons event rest =>
    cases event with
    | answered =>
      cases hs : p.serve (p.sent s.client).server with
      | some server => exact .inl ⟨rest, server, rfl, rfl, call_answered engine p context s rest hs⟩
      | none =>
        exact .inr ⟨.failed (databaseErrorWithContext (engine.rejection p.call) context.toList), false,
          .refused, rest, by simp, by simp, fun _ => rfl, call_rejected engine p context s rest hs⟩
    | refused error applied =>
      exact .inr ⟨.failed (databaseErrorWithContext error context.toList), applied, .refused, rest,
        by simp, by simp, by simp, rfl⟩
    | cut applied => exact .inr ⟨.dropped .awaiting, applied, .pending, rest, by simp, by simp, by simp, rfl⟩

end Calls

/-- What holds behind an answered call holds when a call has returned. -/
theorem returns_call {δ α : Type} (engine : SqlEngine δ) {P : Session δ → Prop} {Q : α → Session δ → Prop}
    {p : PendingCall δ α} {context : String}
    (h : ∀ s server, P s → p.serve (p.sent s.client).server = some server →
      Q (p.receive { p.sent s.client with server }).1 (s.answer p server)) :
    Returns P (call engine p context) Q := by
  intro s es a t rest hs hrun
  rcases call_cases engine p context s es with
    ⟨rest', server, -, hserve, hcall⟩ | ⟨exit, applied, outcome, rest', hexit, -, -, hcall⟩
  · rw [hcall] at hrun
    cases hrun
    exact h s server hs hserve
  · rw [hcall] at hrun
    cases hrun
    exact absurd rfl (hexit a)

/-- The server has carried out the call that the event ends. -/
def Event.carriedOut : Event → Bool
  | answered => true
  | refused _ applied => applied
  | cut applied => applied

section Control
variable {δ : Type} (engine : SqlEngine δ) (s : Session δ) (es : List Event)

/-- The session after a call about the transaction. -/
def Session.controlled (c : ClientCall) (server : Store Text δ) (outcome : CallOutcome) : Session δ :=
  { s with client := { s.client with server } }.record (.called c outcome)

/-- A call about the transaction that the server can serve. -/
theorem control_cases {c : ClientCall} {serve : Store Text δ → Option (Store Text δ)} (context : String)
    {server : Store Text δ} (hserve : serve s.client.server = some server) :
    (∃ rest, es = .answered :: rest ∧ call engine (TdsClient.control c serve) context s es =
      ⟨.returned (), s.controlled c server .answered, rest⟩) ∨
    ∃ exit outcome, (∀ a, exit ≠ .returned a) ∧ outcome ≠ .answered ∧ es.head? ≠ some .answered ∧
      ((∃ e, exit = .failed e) → ∃ error applied, es.head? = some (.refused error applied)) ∧
      call engine (TdsClient.control c serve) context s es = ⟨exit, s.controlled c
        (if es.head?.any Event.carriedOut then server else s.client.server) outcome, es.tail⟩ := by
  have hcalling (applied : Bool) (outcome : CallOutcome) :
      (s.calling (TdsClient.control c serve) applied).record (.called c outcome) =
        s.controlled c (if applied then server else s.client.server) outcome := by
    simp only [Session.calling, Session.controlled, TdsClient.control, hserve, Option.getD_some]
  rcases es with _ | ⟨event, rest⟩
  · exact .inr ⟨.dropped .awaiting, .pending, by simp, by simp, by simp, by simp, by rw [call_nil, ← hcalling]; rfl⟩
  cases event with
  | answered => exact .inl ⟨rest, rfl, call_answered engine _ _ _ _ hserve⟩
  | refused error applied =>
    refine .inr ⟨.failed (databaseErrorWithContext error context.toList), .refused, by simp, by simp, by simp,
      fun _ => ⟨error, applied, rfl⟩, ?_⟩
    rw [call_refused]
    exact congrArg (Outcome.mk _ · rest) (hcalling applied .refused)
  | cut applied =>
    refine .inr ⟨.dropped .awaiting, .pending, by simp, by simp, by simp, by simp, ?_⟩
    rw [call_cut]
    exact congrArg (Outcome.mk _ · rest) (hcalling applied .pending)

end Control

section Drain
variable {δ : Type} (engine : SqlEngine δ) (s : Session δ) (es : List Event)

/-- The session in which the close of the unfinished result set has stopped. -/
def Session.closing (outcome : CallOutcome) : Session δ :=
  { s with needsReset := false }.record (.called .closeQuery outcome)

/-- The session without an unfinished result set. -/
def Session.closed : Session δ :=
  if s.needsReset then
    { s with needsReset := false, client := { s.client with response := [], unread := false } }.record
      (.called .closeQuery .answered)
  else s

theorem Session.closed_idle (h : s.needsReset = false) : s.closed = s := by
  rw [Session.closed, h, if_neg Bool.false_ne_true]

@[simp] theorem Session.closed_server : s.closed.client.server = s.client.server := by
  unfold Session.closed
  split <;> rfl

@[simp] theorem Session.closed_needsReset : s.closed.needsReset = false := by
  unfold Session.closed
  split
  · rfl
  · exact Bool.eq_false_of_not_eq_true ‹_›

@[simp] theorem Session.closed_pendingRollback : s.closed.pendingRollback = s.pendingRollback := by
  unfold Session.closed
  split <;> rfl

@[simp] theorem Session.closed_transactionDepth : s.closed.transactionDepth = s.transactionDepth := by
  unfold Session.closed
  split <;> rfl

/-- The session in which the rollback of the abandoned transaction has been made. -/
def Session.rolledBack (carriedOut : Bool) (outcome : CallOutcome) : Session δ :=
  { s with
    pendingRollback := false
    client := { s.client with
      server := if carriedOut then { s.client.server with transaction := none } else s.client.server }
    }.record (.called (.rollbackTransaction none) outcome)

theorem closeUnfinished_idle (h : s.needsReset = false) :
    closeUnfinished engine s es = ⟨.returned (), s, es⟩ := by
  simp [closeUnfinished, Process.when, h]

/-- Closing the unfinished result set returns when the close is answered, and stops otherwise. -/
theorem closeUnfinished_cases (h : s.needsReset = true) :
    (∃ rest, es = .answered :: rest ∧ closeUnfinished engine s es = ⟨.returned (), s.closed, rest⟩) ∨
    ∃ exit outcome, (∀ a, exit ≠ .returned a) ∧ outcome ≠ .answered ∧ es.head? ≠ some .answered ∧
      ((∃ e, exit = .failed e) → ∃ error applied, es.head? = some (.refused error applied)) ∧
      closeUnfinished engine s es = ⟨exit, s.closing outcome, es.tail⟩ := by
  have hrun : closeUnfinished engine s es =
      call engine TdsClient.closeQuery "failed to close the previous result set"
        { s with needsReset := false } es := by
    simp [closeUnfinished, Process.when, h]
  rw [hrun]
  rcases es with _ | ⟨event, rest⟩
  · exact .inr ⟨.dropped .awaiting, .pending, by simp, by simp, by simp, by simp, rfl⟩
  cases event with
  | answered =>
    refine .inl ⟨rest, rfl, ?_⟩
    rw [Session.closed, if_pos h]
    rfl
  | refused error applied =>
    refine .inr ⟨.failed (databaseErrorWithContext error "failed to close the previous result set".toList),
      .refused, by simp, by simp, by simp, fun _ => ⟨error, applied, rfl⟩, ?_⟩
    cases applied <;> rfl
  | cut applied =>
    refine .inr ⟨.dropped .awaiting, .pending, by simp, by simp, by simp, by simp, ?_⟩
    cases applied <;> rfl

theorem rollBackAbandoned_idle (h : s.pendingRollback = false) :
    rollBackAbandoned engine s es = ⟨.returned (), s, es⟩ := by
  simp [rollBackAbandoned, Process.when, h]

/-- The mark is cleared however the rollback ends. It returns when it is answered over an
open transaction, and stops otherwise. -/
theorem rollBackAbandoned_cases (h : s.pendingRollback = true) :
    (∃ rest, es = .answered :: rest ∧ s.client.server.transaction.isSome = true ∧
      rollBackAbandoned engine s es = ⟨.returned (), s.rolledBack true .answered, rest⟩) ∨
    ∃ exit outcome, (∀ a, exit ≠ .returned a) ∧ outcome ≠ .answered ∧
      (es.head? = some .answered → s.client.server.transaction = none) ∧
      ((∃ e, exit = .failed e) → ∃ event, es.head? = some event ∧ ∀ applied, event ≠ .cut applied) ∧
      rollBackAbandoned engine s es =
        ⟨exit, s.rolledBack (es.head?.any Event.carriedOut) outcome, es.tail⟩ := by
  have hrun : rollBackAbandoned engine s es =
      call engine (TdsClient.rollbackTransaction none) "failed to roll back the abandoned transaction"
        { s with pendingRollback := false } es := by
    simp [rollBackAbandoned, Process.when, h]
  rw [hrun]
  rcases es with _ | ⟨event, rest⟩
  · exact .inr ⟨.dropped .awaiting, .pending, by simp, by simp, by simp, by simp, rfl⟩
  cases event with
  | answered =>
    rcases s with ⟨⟨⟨⟨durable, transaction⟩, response, unread⟩, depth, reset, pending⟩, trace⟩
    cases transaction with
    | some transaction => exact .inl ⟨rest, rfl, rfl, rfl⟩
    | none =>
      refine .inr ⟨.failed (databaseErrorWithContext (engine.rejection (.rollbackTransaction none))
        "failed to roll back the abandoned transaction".toList), .refused, by simp, by simp, fun _ => rfl,
        fun _ => ⟨.answered, rfl, by simp⟩, rfl⟩
  | refused error applied =>
    refine .inr ⟨.failed (databaseErrorWithContext error
      "failed to roll back the abandoned transaction".toList), .refused, by simp, by simp, by simp,
      fun _ => ⟨_, rfl, by simp⟩, ?_⟩
    cases applied with
    | false => rfl
    | true =>
      simp [call, Process.mapErr, await, Session.calling, Session.rolledBack, Event.carriedOut,
        TdsClient.rollbackTransaction, TdsClient.control, Store.getD_rollback]
  | cut applied =>
    refine .inr ⟨.dropped .awaiting, .pending, by simp, by simp, by simp, by simp, ?_⟩
    cases applied with
    | false => rfl
    | true =>
      simp [call, Process.mapErr, await, Session.calling, Session.rolledBack, Event.carriedOut,
        TdsClient.rollbackTransaction, TdsClient.control, Store.getD_rollback]

theorem commitTransaction_idle (h : s.transactionDepth = 0) :
    commitTransaction engine s es = ⟨.returned (), s, es⟩ := by
  simp [commitTransaction, Process.when, h]

theorem rollbackTransaction_idle (h : s.transactionDepth = 0) :
    rollbackTransaction engine s es = ⟨.returned (), s, es⟩ := by
  simp [rollbackTransaction, Process.when, h]

end Drain

/-- What a connection can be used for. Preparing describes a statement, and reading an
optional row drops a stream of `fetchMany` at its first row. -/
inductive Use where
  | begin
  | commit
  | rollback
  | startRollback
  | fetchMany (sql : Text) (arguments : Except Text (Option (List SqlType)))
  | describe (sql : Text)
  | ping
  | collectRows (request : Request)
  | queryRows (sql : Text)
  | execSql (sql : Text)

variable {δ : Type} (engine : SqlEngine δ) (features : Features)

def Use.operation : Use → Operation δ Unit
  | begin => beginTransaction engine
  | commit => commitTransaction engine
  | rollback => rollbackTransaction engine
  | startRollback => queueRollback
  | fetchMany sql arguments => SqlxMssql.fetchMany engine sql arguments
  | describe sql => do let _ ← describeStatement engine features sql
  | ping => SqlxMssql.ping engine
  | collectRows request => do let _ ← SqlxMssql.collectRows engine request
  | queryRows sql => do let _ ← SqlxMssql.queryRows engine sql
  | execSql sql => SqlxMssql.execSql engine sql

/-- The use sends a statement and leaves the transaction level alone. -/
def Use.IsStatement : Use → Prop
  | begin | commit | rollback | startRollback => False
  | _ => True

/-- A connection to a server with the given data. -/
def Session.connected (data : δ) : Session δ where
  client := ⟨⟨data, none⟩, [], false⟩
  transactionDepth := 0
  needsReset := false
  pendingRollback := false
  trace := []

/-- The session after a run of uses, each with the events of its schedule. -/
def Session.after (run : List (Use × List Event)) (s : Session δ) : Session δ :=
  run.foldl (fun s u => (u.1.operation engine features s u.2).state) s

@[simp] theorem Session.after_append (run run' : List (Use × List Event)) (s : Session δ) :
    s.after engine features (run ++ run') = (s.after engine features run).after engine features run' :=
  List.foldl_append

@[simp] theorem Session.after_singleton (u : Use × List Event) (s : Session δ) :
    s.after engine features [u] = (u.1.operation engine features s u.2).state := rfl

theorem Session.after_induction {P : Session δ → Prop} (run : List (Use × List Event))
    (hstep : ∀ u ∈ run, ∀ s, P s → P (u.1.operation engine features s u.2).state) {s : Session δ}
    (hs : P s) : P (s.after engine features run) := by
  induction run generalizing s with
  | nil => exact hs
  | cons u run ih =>
    exact ih (fun u' hu' => hstep u' (List.mem_cons_of_mem u hu')) (hstep u List.mem_cons_self s hs)

/-- A server that counts the statements it has run and answers each with one row. -/
def countingEngine : SqlEngine ℕ where
  effect _ n := n + 1
  replies _ n := [.rows [] [[.int (Int32.ofNat n)]]]
  rejection _ := .other []

def allFeatures : Features := ⟨true, true, true, true, true⟩

section Frames
variable {engine} {F : Frame (Session δ)}

/-- The frame allows what reading a response does. -/
structure AdmitsReading (engine : SqlEngine δ) (F : Frame (Session δ)) : Prop where
  reading {α : Type} (c : ClientCall) (hc : c.Reads) (receive : TdsClient δ → α × TdsClient δ)
    (hreceive : TdsClient.ReadsOn receive) (context : String) :
    Within F (call engine (TdsClient.reading c receive) context)
  yieldItem (item : StreamItem) : Within F (yieldItem (δ := δ) item)
  needsReset (b : Bool) (s : Session δ) : F.rel s { s with needsReset := b }

/-- The frame allows what a statement does. -/
structure AdmitsStatements (engine : SqlEngine δ) (F : Frame (Session δ)) : Prop
    extends AdmitsReading engine F where
  call {α : Type} (p : PendingCall δ α) (context : String) : Within F (call engine p context)
  pendingRollback (s : Session δ) : F.rel s { s with pendingRollback := false }

/-- The frame allows the single steps of every operation. -/
structure Admits (engine : SqlEngine δ) (F : Frame (Session δ)) : Prop
    extends AdmitsStatements engine F where
  transactionDepth (n : ℕ) (s : Session δ) : F.rel s { s with transactionDepth := n }

/-- A call keeps within a frame that its answer and every other end of it respect. -/
theorem Within.of_call {α : Type} {p : PendingCall δ α} {context : String}
    (hanswer : ∀ s server, p.serve (p.sent s.client).server = some server → F.rel s (s.answer p server))
    (hstop : ∀ s applied outcome, F.rel s ((s.calling p applied).record (.called p.call outcome))) :
    Within F (call engine p context) := by
  intro s es
  rcases call_cases engine p context s es with
    ⟨rest, server, -, hserve, hrun⟩ | ⟨exit, applied, outcome, rest, -, -, -, hrun⟩
  · rw [hrun]
    exact hanswer s server hserve
  · rw [hrun]
    exact hstop s applied outcome

/-- A call that reads on moves the cursor when it is answered, and nothing otherwise. -/
theorem Within.of_reading {α : Type} {c : ClientCall} {receive : TdsClient δ → α × TdsClient δ}
    {context : String}
    (hanswer : ∀ s : Session δ,
      F.rel s (Session.record (.called c .answered) { s with client := (receive s.client).2 }))
    (hstop : ∀ s outcome, F.rel s (s.record (.called c outcome))) :
    Within F (call engine (TdsClient.reading c receive) context) := by
  apply Within.of_call
  · intro s server hserve
    obtain rfl : s.client.server = server := Option.some_injective _ hserve
    exact hanswer s
  · intro s applied outcome
    cases applied <;> exact hstop s outcome

theorem Within.lift_request {α : Type} (r : Run (Except SqlxError α)) :
    Within F (SqlxMssql.lift (δ := δ) r) := by
  apply Within.bind (Within.lift r)
  intro result
  cases result with
  | ok a => exact Within.pure a
  | error e => exact Within.fail e

namespace AdmitsReading
variable (hF : AdmitsReading engine F)
include hF

theorem closeQuery (context : String) : Within F (SqlxMssql.call engine TdsClient.closeQuery context) :=
  hF.reading .closeQuery trivial _ (fun _ => ⟨rfl, fun _ => rfl⟩) _

theorem advance (context : String) : Within F (SqlxMssql.call engine TdsClient.advance context) :=
  hF.reading .advance trivial _ (fun c => ⟨rfl, fun h => by simp [TdsClient.moveTo, h]⟩) _

theorem advanceToRows (context : String) :
    Within F (SqlxMssql.call engine TdsClient.advanceToRows context) :=
  hF.reading .advanceToRows trivial _ (fun c => ⟨rfl, fun h => by simp [TdsClient.moveTo, h]⟩) _

theorem nextRow (context : String) : Within F (SqlxMssql.call engine TdsClient.nextRow context) := by
  refine hF.reading .nextRow trivial _ (fun c => ?_) _
  split
  · exact ⟨rfl, fun h => h⟩
  · exact ⟨rfl, fun h => h⟩

theorem yieldRows (metadata : List ColumnMetadata) : Within F (SqlxMssql.yieldRows engine metadata) := by
  refine Within.loop (fun _ => Within.bind (hF.nextRow _) fun values => ?_) _
  cases values with
  | none => exact Within.pure _
  | some values => exact Within.bind (hF.yieldItem _) fun _ => Within.pure _

theorem nextResult : Within F (SqlxMssql.nextResult engine) :=
  Within.bind (hF.advance _) fun _ => Within.pure _

theorem fetchTurn (result : StatementResult) : Within F (SqlxMssql.fetchTurn engine result) := by
  cases result with
  | rows =>
    exact Within.bind Within.get fun _ => Within.bind (hF.yieldRows _) fun _ =>
      Within.bind (hF.yieldItem _) fun _ => hF.nextResult
  | noRows rowsAffected => exact Within.bind (hF.yieldItem _) fun _ => hF.nextResult
  | done => exact Within.pure _

theorem fetchResults (result : StatementResult) : Within F (SqlxMssql.fetchResults engine result) :=
  Within.guarded (Within.loop hF.fetchTurn _) fun s => hF.needsReset true s

theorem readFirstRows (result : StatementResult) (advanceContext rowContext closeContext : String) :
    Within F (SqlxMssql.readFirstRows engine result advanceContext rowContext closeContext) := by
  apply Within.bind (Within.ite (Within.pure _) (hF.advanceToRows _))
  intro positioned
  cases positioned with
  | true =>
    refine Within.bind Within.get fun s => Within.bind ?_ fun rows =>
      Within.bind (hF.closeQuery _) fun _ => Within.pure _
    refine Within.loop (fun rows => Within.bind (hF.nextRow _) fun values => ?_) _
    cases values <;> exact Within.pure _
  | false => exact Within.bind (Within.attempt (hF.closeQuery _)) fun _ => Within.pure _

theorem skipResults (result : StatementResult) : Within F (SqlxMssql.skipResults engine result) := by
  refine Within.bind (Within.loop (fun result => ?_) _) fun _ => hF.closeQuery _
  exact Within.ite (Within.pure _) (Within.bind (hF.advance _) fun _ => Within.pure _)

end AdmitsReading

namespace AdmitsStatements
variable (hF : AdmitsStatements engine F)
include hF

theorem rollBackAbandoned : Within F (SqlxMssql.rollBackAbandoned engine) :=
  Within.bind Within.get fun _ => Within.when <|
    Within.bind (Within.update hF.pendingRollback) fun _ => hF.call _ _

theorem drainPending : Within F (SqlxMssql.drainPending engine) :=
  Within.bind (Within.bind Within.get fun _ => Within.when <|
    Within.bind (Within.update (hF.needsReset false)) fun _ => hF.call _ _) fun _ => hF.rollBackAbandoned

theorem collectRows (request : Request) : Within F (SqlxMssql.collectRows engine request) :=
  Within.bind hF.drainPending fun _ => Within.bind (hF.call _ _) fun _ => hF.readFirstRows _ _ _ _

theorem inferParameters (features : Features) (rewritten : Text) :
    Within F (SqlxMssql.inferParameters engine features rewritten) :=
  Within.bind (hF.collectRows _) fun _ => Within.lift _

theorem describeStatement (features : Features) (sql : Text) :
    Within F (SqlxMssql.describeStatement engine features sql) :=
  Within.bind (Within.lift _) fun _ =>
    Within.bind (Within.ite (hF.inferParameters _ _) (Within.pure _)) fun _ =>
      Within.bind (hF.collectRows _) fun _ => Within.bind (Within.lift _) fun _ => Within.pure _

theorem operation (features : Features) (use : Use) (h : use.IsStatement) :
    Within F (use.operation engine features) := by
  cases use with
  | begin => exact absurd h (by simp [Use.IsStatement])
  | commit => exact absurd h (by simp [Use.IsStatement])
  | rollback => exact absurd h (by simp [Use.IsStatement])
  | startRollback => exact absurd h (by simp [Use.IsStatement])
  | fetchMany sql arguments =>
    exact Within.bind (Within.lift_request _) fun _ => Within.bind hF.drainPending fun _ =>
      Within.bind (Within.lift_request _) fun _ => Within.bind (hF.call _ _) fun _ => hF.fetchResults _
  | describe sql => exact Within.bind (hF.describeStatement features sql) fun _ => Within.pure _
  | ping =>
    exact Within.bind hF.drainPending fun _ => Within.bind (hF.call _ _) fun _ => hF.closeQuery _
  | collectRows request => exact Within.bind (hF.collectRows request) fun _ => Within.pure _
  | queryRows sql =>
    exact Within.bind (Within.bind hF.drainPending fun _ => Within.bind (hF.call _ _) fun _ =>
      Within.bind (hF.readFirstRows _ _ _ _) fun _ => Within.pure _) fun _ => Within.pure _
  | execSql sql =>
    exact Within.bind hF.drainPending fun _ => Within.bind (hF.call _ _) fun _ => hF.skipResults _

end AdmitsStatements

namespace Admits
variable (hF : Admits engine F)
include hF

theorem operation (features : Features) (use : Use) (huse : use ≠ .startRollback) :
    Within F (use.operation engine features) := by
  cases use with
  | begin =>
    exact Within.bind hF.drainPending fun _ => Within.bind Within.get fun _ =>
      Within.bind (hF.call _ _) fun _ => Within.update fun s => hF.transactionDepth _ s
  | commit =>
    exact Within.bind Within.get fun _ => Within.when <|
      Within.bind (Within.when (hF.call _ _)) fun _ => Within.update fun s => hF.transactionDepth _ s
  | rollback =>
    exact Within.bind Within.get fun _ => Within.when <|
      Within.bind (hF.call _ _) fun _ => Within.update fun s => hF.transactionDepth _ s
  | startRollback => exact absurd rfl huse
  | fetchMany | describe | ping | collectRows | queryRows | execSql =>
    exact hF.toAdmitsStatements.operation features _ trivial

end Admits

def traceFrame (δ : Type) : Frame (Session δ) where
  rel s t := s.trace <+: t.trace
  refl _ := List.prefix_rfl
  trans := List.IsPrefix.trans

theorem call_within_traceFrame {α : Type} (p : PendingCall δ α) (context : String) :
    Within (traceFrame δ) (call engine p context) :=
  Within.of_call (fun _ _ _ => List.prefix_append _ _) fun _ _ _ => List.prefix_append _ _

theorem admits_traceFrame : Admits engine (traceFrame δ) where
  call := call_within_traceFrame
  reading _ _ _ _ := call_within_traceFrame _
  yieldItem item := by
    refine Within.suspend (fun s => List.prefix_append _ _) fun event s => ?_
    cases event <;> exact List.prefix_append _ _
  needsReset _ _ := List.prefix_rfl
  pendingRollback _ := List.prefix_rfl
  transactionDepth _ _ := List.prefix_rfl

theorem operation_extends_trace (features : Features) (use : Use) (s : Session δ) (es : List Event) :
    s.trace <+: (use.operation engine features s es).state.trace := by
  by_cases huse : use = .startRollback
  · subst huse
    exact List.prefix_rfl
  · exact admits_traceFrame.operation features use huse s es

end Frames

end SqlxMssql
