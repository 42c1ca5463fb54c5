import SqlxMssql.Connection.EarlyStops
import SqlxMssql.Migrate.Apply

/-! # Ensuring the migrations table

One statement tests whether the migrations table exists and creates it. The test names the
table by two strings, with `dbo` for a schema that is not given, and the creation by a
quoted reference, which the server completes with the default schema of the login.
-/
namespace SqlxMssql
open Loops Utf8 Interaction Savepoints SqlTokens

@[irreducible] def migrationColumns : Text :=
  ["( ",
    "version        BIGINT         NOT NULL PRIMARY KEY, ",
    "description    NVARCHAR(MAX)  NOT NULL, ",
    "migration_type NVARCHAR(20)   NOT NULL, ",
    "sql            NVARCHAR(MAX)  NOT NULL, ",
    "checksum       VARBINARY(8000) NOT NULL, ",
    "executed_at    DATETIME2      NOT NULL DEFAULT GETUTCDATE(), ",
    "no_tx          BIT            NOT NULL DEFAULT 0 ",
    ")"].flatMap String.toList

def ensureMigrationsTableSql (tableName : Text) : Run Text := do
  let quoted ← quotedTableName tableName
  let (schema, table) ← splitTableName tableName
  let schemaCondition :=
    if schema.isEmpty then "TABLE_SCHEMA = 'dbo'".toList
    else "TABLE_SCHEMA = N'".toList ++ escapeSqlString schema ++ ['\'']
  return "IF NOT EXISTS ( SELECT * FROM INFORMATION_SCHEMA.TABLES WHERE TABLE_NAME = N'".toList ++
    escapeSqlString table ++ "' AND ".toList ++ schemaCondition ++ " ) CREATE TABLE ".toList ++ quoted ++
    ' ' :: migrationColumns

def ensureMigrationsTable {δ : Type} (engine : SqlEngine δ) (tableName : Text) : MigrateOperation δ Unit := do
  let sql ← Process.lift (ensureMigrationsTableSql tableName)
  (execSql engine sql).mapErr .execute

section Tokens

theorem reads_scan {m m' : Mode} {s : Text} (h : (scan m s).2 = m') : Reads m s (scan m s).1 m' := Prod.ext rfl h

/-- The test for a table by its schema and its name. -/
def tableTest (quote : Quote) (test : Text × Text) : List Token :=
  [.word "IF".toList, .word "NOT".toList, .word "EXISTS".toList, .symbol '(', .word "SELECT".toList, .symbol '*',
    .word "FROM".toList, .word "INFORMATION_SCHEMA".toList, .symbol '.', .word "TABLES".toList,
    .word "WHERE".toList, .word "TABLE_NAME".toList, .symbol '=', .quoted .national test.2, .word "AND".toList,
    .word "TABLE_SCHEMA".toList, .symbol '=', .quoted quote test.1, .symbol ')']

@[irreducible] def columnTokens : List Token := (scan .between migrationColumns).1

def quotedText : Token → Option Text
  | .quoted _ content => some content
  | .word _ | .symbol _ => none

theorem scan_migrationColumns : (scan .between migrationColumns).2 = .between ∧
    (scan .between migrationColumns).1.filterMap quotedText = [] := by
  decide +kernel

theorem reads_migrationColumns : Reads .between migrationColumns columnTokens .between := by
  rw [columnTokens]
  exact reads_scan scan_migrationColumns.1

/-- Where the test finds no table, the referenced one is created. -/
def guardedCreation (quote : Quote) (test reference : Text × Text) : List Token :=
  tableTest quote test ++ [.word "CREATE".toList, .word "TABLE".toList] ++ tableTokens reference ++ columnTokens

/-- The quote and the content of the string that the schema is compared with. -/
def testedSchema (schema : Text) : Quote × Text :=
  if schema = [] then (.plain, "dbo".toList) else (.national, schema)

/-- The table that the test looks for. -/
def testedTable (tableName : Text) : Text × Text :=
  ((testedSchema (splitAtDot tableName).1).2, (splitAtDot tableName).2)

theorem reads_schemaCondition (schema : Text) : Reads .between
    (if schema.isEmpty then "TABLE_SCHEMA = 'dbo'".toList
      else "TABLE_SCHEMA = N'".toList ++ escapeSqlString schema ++ ['\''])
    [.word "TABLE_SCHEMA".toList, .symbol '=']
    (.closing (testedSchema schema).1 (testedSchema schema).2) := by
  cases schema with
  | nil => decide
  | cons c schema =>
    have hopen : Reads .between "TABLE_SCHEMA = N'".toList [.word "TABLE_SCHEMA".toList, .symbol '=']
        (.inside .national []) := by decide
    have hclose : Reads (.inside .national (c :: schema)) ['\''] [] (.closing .national (c :: schema)) := rfl
    exact (hopen.append (reads_national (c :: schema))).append hclose

/-- Whatever the name holds, the statement is one test and one creation. -/
theorem ensureMigrationsTableSql_lexes (tableName : Text) : ∃ sql,
    ensureMigrationsTableSql tableName = .ok sql ∧
      lex sql = some (guardedCreation (testedSchema (splitAtDot tableName).1).1 (testedTable tableName)
        (splitAtDot tableName)) := by
  obtain ⟨quoted, schemaTokens, table, hquoted, htable, htokens⟩ := reads_tableName tableName
  have hsplit := splitTableName_eq tableName
  rw [testedTable]
  rcases hname : splitAtDot tableName with ⟨schema, name⟩
  rw [hname] at hsplit htokens
  have hopen : Reads .between "IF NOT EXISTS ( SELECT * FROM INFORMATION_SCHEMA.TABLES WHERE TABLE_NAME = N'".toList
      [.word "IF".toList, .word "NOT".toList, .word "EXISTS".toList, .symbol '(', .word "SELECT".toList, .symbol '*',
        .word "FROM".toList, .word "INFORMATION_SCHEMA".toList, .symbol '.', .word "TABLES".toList,
        .word "WHERE".toList, .word "TABLE_NAME".toList, .symbol '='] (.inside .national []) := by
    decide +kernel
  have hand : Reads (.inside .national name) "' AND ".toList [.quoted .national name, .word "AND".toList] .between :=
    rfl
  have hcreate (quote : Quote) (content : Text) : Reads (.closing quote content) " ) CREATE TABLE ".toList
      [.quoted quote content, .symbol ')', .word "CREATE".toList, .word "TABLE".toList] .between := by
    cases quote with
    | bracket | plain | national => rfl
  have hspace : Reads .between [' '] [] .between := by decide
  have hspaced : Reads .between (' ' :: migrationColumns) columnTokens .between := by
    have hboth := hspace.append reads_migrationColumns
    rwa [List.nil_append, List.singleton_append] at hboth
  have hbehind : Reads (.closing .bracket table) (' ' :: migrationColumns) (.quoted .bracket table :: columnTokens)
      .between := .behind_quoted (by decide) hspaced
  have hreads := ((((((hopen.append (reads_national name)).append hand).append (reads_schemaCondition schema)).append
    (hcreate _ _)).append htable).append hbehind)
  refine ⟨_, ?_, (hreads.lex rfl).trans ?_⟩
  · rw [ensureMigrationsTableSql, hquoted, hsplit]
    simp only [ok_bind, pure_eq_ok, List.append_assoc]
  · rw [guardedCreation, ← htokens, tableTest]
    simp only [List.cons_append, List.nil_append, List.append_assoc, List.append_nil]

end Tokens

section Sessions
variable {δ : Type} (engine : SqlEngine δ)

theorem closeUnfinished_answered (s : Session δ) (rest : List Event) :
    closeUnfinished engine s (List.replicate (drainCalls s) .answered ++ rest) =
      ⟨.returned (), s.closed, List.replicate (drainCalls s.closed) .answered ++ rest⟩ := by
  cases hreset : s.needsReset with
  | false => rw [closeUnfinished_idle engine s _ hreset, s.closed_idle hreset]
  | true =>
    rw [drainCalls_closed hreset, List.replicate_succ, List.cons_append]
    rcases closeUnfinished_cases engine s (.answered :: (List.replicate (drainCalls s.closed) .answered ++ rest))
        hreset with ⟨later, hlater, hrun⟩ | ⟨exit, outcome, -, -, hhead, -, -⟩
    · rw [hrun, (List.cons.inj hlater).2]
    · exact absurd rfl hhead

/-- Where the draining is answered, it returns with nothing pending, or it fails for want
of a transaction to roll back. -/
theorem drainPending_answered (s : Session δ) (rest : List Event) :
    (∃ t, drainPending engine s (List.replicate (drainCalls s) .answered ++ rest) = ⟨.returned (), t, rest⟩ ∧
      t.needsReset = false ∧ t.pendingRollback = false ∧ t.client.server = drainedServer s) ∨
    (drainPending engine s (List.replicate (drainCalls s) .answered ++ rest)).exit.isReturned = false := by
  rw [drainPending, Process.bind_run, closeUnfinished_answered, Process.andThen_returned, ← drainedServer_closed]
  have hreset := s.closed_needsReset
  generalize s.closed = t at hreset ⊢
  cases hpending : t.pendingRollback with
  | false =>
    left
    refine ⟨t, ?_, hreset, hpending, (drainedServer_idle hpending).symm⟩
    rw [drainCalls_idle hreset hpending]
    exact rollBackAbandoned_idle engine t rest hpending
  | true =>
    rcases rollBackAbandoned_cases engine t (List.replicate (drainCalls t) .answered ++ rest) hpending with
      ⟨later, hlater, -, hrun⟩ | ⟨exit, outcome, hexit, -, -, -, hrun⟩
    · have hcalls : drainCalls t = 1 := by simp [drainCalls, hreset, hpending]
      rw [hcalls] at hlater
      obtain rfl : rest = later := (List.cons.inj hlater).2
      refine .inl ⟨t.rolledBack true .answered, hrun, hreset, rfl, ?_⟩
      rw [drainedServer, hpending, if_pos rfl, Store.getD_rollback]
      rfl
    · right
      rw [hrun]
      cases exit with
      | returned a => exact absurd rfl (hexit a)
      | failed | dropped | aborted => rfl

/-- Every reply takes an answer, and so does the close. -/
theorem skipResults_answered (replies : List StatementReply) {t : Session δ} (ht : Open t replies) :
    (skipResults engine t.client.boundary t (List.replicate (replies.length + 1) .answered)).exit = .returned () := by
  induction replies generalizing t with
  | nil =>
    rw [ht.boundary_done.mpr rfl]
    rfl
  | cons reply replies ih =>
    have hdone : ¬ t.client.boundary = .done := fun h => by simp [ht.boundary_done] at h
    rw [skipResults, Process.loop_bind_run, if_neg hdone, Process.bind_run, Process.andThen_andThen,
      List.length_cons, List.replicate_succ,
      call_answered engine TdsClient.advance "failed to advance past a result set" t
        (List.replicate (replies.length + 1) .answered) rfl]
    simp only [Process.bind_run, Process.pure_run, Process.andThen_returned, List.length_cons,
      Nat.lt_add_one, if_true]
    exact ih (ht.advance t.client.server)

/-- A statement takes the answers of the draining, one for itself, one for every reply and
one for the close. -/
theorem execSql_answered (sql : Text) {s : Session δ} (hreset : s.needsReset = false)
    (hsettled : s.pendingRollback = false) :
    (execSql engine sql s (List.replicate ((engine.replies ⟨sql, []⟩ s.client.server.data).length + 2)
      .answered)).exit = .returned () := by
  rw [execSql, Process.bind_run, drainPending_idle engine hreset hsettled, Process.andThen_returned,
    Process.bind_run, List.replicate_succ,
    call_answered engine (TdsClient.execute engine sql) "query failed" s _ rfl, Process.andThen_returned]
  exact skipResults_answered engine (engine.replies ⟨sql, []⟩ s.client.server.data)
    (t := s.answer (TdsClient.execute engine sql) (s.client.server.run (engine.effect ⟨sql, []⟩))) ⟨rfl, rfl, hreset⟩

theorem execSql_drained (sql : Text) {s t : Session δ} {es rest : List Event}
    (hdrain : drainPending engine s es = ⟨.returned (), t, rest⟩) (hreset : t.needsReset = false)
    (hsettled : t.pendingRollback = false) : execSql engine sql s es = execSql engine sql t rest := by
  simp only [execSql, Process.bind_run, hdrain, drainPending_idle engine hreset hsettled]

end Sessions

/-- A temporary table belongs to the session or to the server, not to the database. -/
def isTemporary (table : Text) : Bool := "#".toList.isPrefixOf table

/-- The schema and the name of the table that a reference creates. -/
def resolve (defaultSchema : Text) (reference : Text × Text) : Text × Text :=
  if reference.1 = [] then (defaultSchema, reference.2) else reference

/-- A server as a login sees it. Its catalogue lists the tables of the database, and
creating a table whose name is taken is an error. -/
structure CatalogServer (δ : Type) where
  engine : SqlEngine δ
  accepts : Text → δ → Bool
  refusal : TdsError
  defaultSchema : Text
  /-- The collation of names. -/
  same : Text → Text → Prop
  listed : δ → Text × Text → Prop
  taken : δ → Text × Text → Prop
  same_refl : ∀ name, same name name
  /-- Where the test finds its table, nothing is created. -/
  finds : ∀ {sql quote test reference}, quote ≠ .bracket → lex sql = some (guardedCreation quote test reference) →
    ∀ d, listed d test → accepts sql d = true ∧ engine.effect ⟨sql, []⟩ d = d
  /-- What exists under the name of the reference is not created again. -/
  refuses : ∀ {sql quote test reference}, quote ≠ .bracket →
    lex sql = some (guardedCreation quote test reference) →
    ∀ d, ¬ listed d test → taken d reference → accepts sql d = false
  /-- The table that is created exists under the name of the reference, and is listed with its
  schema unless it is temporary. -/
  creates : ∀ {sql quote test reference}, quote ≠ .bracket →
    lex sql = some (guardedCreation quote test reference) →
    ∀ d, ¬ listed d test → accepts sql d = true → taken (engine.effect ⟨sql, []⟩ d) reference ∧
      ∀ name, listed (engine.effect ⟨sql, []⟩ d) name ↔ listed d name ∨ isTemporary reference.2 = false ∧
        same name.1 (resolve defaultSchema reference).1 ∧ same name.2 reference.2

namespace CatalogServer
variable {δ : Type} (server : CatalogServer δ)

/-- The answers to a statement, and to the draining before it. -/
def answers (sql : Text) (s : Session δ) : List Event :=
  let data := (drainedServer s).data
  List.replicate (drainCalls s) .answered ++
    if server.accepts sql data then List.replicate ((server.engine.replies ⟨sql, []⟩ data).length + 2) .answered
    else [.refused server.refusal false]

def exec (sql : Text) (s : Session δ) : Outcome Event (Session δ) SqlxError Unit :=
  execSql server.engine sql s (server.answers sql s)

def ensure (tableName : Text) (s : Session δ) : Outcome Event (Session δ) MigrateError Unit :=
  ensureMigrationsTable server.engine tableName s
    (server.answers (((ensureMigrationsTableSql tableName).toOption).getD []) s)

/-- The second of two runs succeeds and creates nothing. -/
def EnsuredAgain (tableName : Text) (s : Session δ) : Prop :=
  let first := server.ensure tableName s
  let second := server.ensure tableName first.state
  second.exit = .returned () ∧ second.state.client.server.data = first.state.client.server.data

section Statement
variable (sql : Text) {s : Session δ}

/-- With nothing pending, a statement runs exactly when the server accepts it. -/
theorem exec_idle (hreset : s.needsReset = false) (hsettled : s.pendingRollback = false) :
    ((server.exec sql s).exit = .returned () ↔ server.accepts sql s.client.server.data = true) ∧
      (server.accepts sql s.client.server.data = true →
        (server.exec sql s).state.client.server.data = server.engine.effect ⟨sql, []⟩ s.client.server.data) := by
  simp only [exec, answers, drainCalls_idle hreset hsettled, drainedServer_idle hsettled, List.replicate_zero,
    List.nil_append]
  by_cases haccepts : server.accepts sql s.client.server.data = true
  · rw [if_pos haccepts]
    refine ⟨iff_of_true (execSql_answered server.engine sql hreset hsettled) haccepts, fun _ => ?_⟩
    rw [execSql_server server.engine sql hreset hsettled, List.replicate_succ]
    exact Store.data_run _ s.client.server
  · rw [if_neg haccepts]
    refine ⟨iff_of_false (fun hexit => ?_) haccepts, fun h => absurd h haccepts⟩
    have hanswered : ([.refused server.refusal false] : List Event).head? = some .answered :=
      execSql_returned server.engine sql hreset hsettled (by rw [hexit]; rfl)
    cases hanswered

/-- A statement that has run leaves nothing pending. -/
theorem exec_returned (h : (server.exec sql s).exit = .returned ()) :
    (server.exec sql s).state.needsReset = false ∧ (server.exec sql s).state.pendingRollback = false ∧
      server.accepts sql (drainedServer s).data = true ∧
      (server.exec sql s).state.client.server.data = server.engine.effect ⟨sql, []⟩ (drainedServer s).data := by
  rcases drainPending_answered server.engine s
      (if server.accepts sql (drainedServer s).data then
        List.replicate ((server.engine.replies ⟨sql, []⟩ (drainedServer s).data).length + 2) .answered
      else [.refused server.refusal false]) with ⟨t, hdrain, hreset, hsettled, hserver⟩ | hstopped
  · have hdrained : drainedServer t = drainedServer s := (drainedServer_idle hsettled).trans hserver
    have hexec : server.exec sql s = server.exec sql t := by
      simp only [exec, answers, drainCalls_idle hreset hsettled, hdrained, List.replicate_zero, List.nil_append]
      exact execSql_drained server.engine sql hdrain hreset hsettled
    rw [hexec] at h ⊢
    obtain ⟨hreturns, hdata⟩ := server.exec_idle sql hreset hsettled
    have haccepts := hreturns.mp h
    have hran := execSql_ran server.engine sql hreset hsettled (server.answers sql t)
    rw [← hserver]
    exact ⟨hran.reset, hran.settled, haccepts, hdata haccepts⟩
  · have hexit : (server.exec sql s).exit.isReturned = false := by
      rw [exec, answers, execSql, Process.bind_run]
      generalize drainPending server.engine s _ = o at hstopped
      rcases o with ⟨exit, t, rest⟩
      apply Process.andThen_stopped_exit
      rintro a rfl
      cases hstopped
    rw [h] at hexit
    cases hexit

end Statement

theorem ensure_eq {tableName sql : Text} (hsql : ensureMigrationsTableSql tableName = .ok sql) (s : Session δ) :
    (server.ensure tableName s).state = (server.exec sql s).state ∧
      ((server.ensure tableName s).exit = .returned () ↔ (server.exec sql s).exit = .returned ()) := by
  have hrun : server.ensure tableName s =
      Process.mapErr .execute (execSql server.engine sql) s (server.answers sql s) := by
    rw [ensure, ensureMigrationsTable, hsql]
    rfl
  rw [hrun]
  refine ⟨Process.mapErr_state _ _ _ _, mapErr_returned, fun h => ?_⟩
  rw [exec] at h
  unfold Process.mapErr
  rcases hexec : execSql server.engine sql s (server.answers sql s) with ⟨exit, t, rest⟩
  rw [hexec] at h
  obtain rfl : exit = .returned () := h
  rfl

/-- What the creation adds to the catalogue is what the test looks for, when the table is one
of the database and a schema is given or is `dbo` by default. -/
theorem tested_created_iff (tableName : Text) :
    (isTemporary (splitAtDot tableName).2 = false ∧
      server.same (testedTable tableName).1 (resolve server.defaultSchema (splitAtDot tableName)).1 ∧
      server.same (testedTable tableName).2 (splitAtDot tableName).2) ↔
    isTemporary (splitAtDot tableName).2 = false ∧
      ((splitAtDot tableName).1 ≠ [] ∨ server.same "dbo".toList server.defaultSchema) := by
  simp only [testedTable, testedSchema, resolve]
  by_cases hschema : (splitAtDot tableName).1 = []
  · simp [hschema, server.same_refl]
  · simp [hschema, server.same_refl]

/-- Ensuring the migrations table again succeeds and creates nothing exactly when the test
found a table already, or the table is not temporary and its schema is given or is `dbo`. -/
theorem migrations_table_ensured_again_iff (tableName : Text) (s : Session δ)
    (hfirst : (server.ensure tableName s).exit = .returned ()) :
    server.EnsuredAgain tableName s ↔ server.listed (drainedServer s).data (testedTable tableName) ∨
      isTemporary (splitAtDot tableName).2 = false ∧
        ((splitAtDot tableName).1 ≠ [] ∨ server.same "dbo".toList server.defaultSchema) := by
  obtain ⟨sql, hsql, hlex⟩ := ensureMigrationsTableSql_lexes tableName
  have hquote : (testedSchema (splitAtDot tableName).1).1 ≠ .bracket := by
    rw [testedSchema]
    split_ifs <;> simp
  obtain ⟨hstate, hexit⟩ := server.ensure_eq hsql s
  obtain ⟨hreset, hsettled, haccepted, hdata⟩ := server.exec_returned sql (hexit.mp hfirst)
  simp only [EnsuredAgain, hstate]
  generalize (server.exec sql s).state = t at hreset hsettled hdata
  generalize (drainedServer s).data = d at haccepted hdata
  obtain ⟨hstate', hexit'⟩ := server.ensure_eq hsql t
  obtain ⟨hreturns, heffect⟩ := server.exec_idle sql hreset hsettled
  rw [hstate', hexit', hreturns]
  -- a second run succeeds when the test finds the table that the first one has left
  have hfound (hlisted : server.listed t.client.server.data (testedTable tableName)) :
      server.accepts sql t.client.server.data = true ∧
        (server.exec sql t).state.client.server.data = t.client.server.data := by
    obtain ⟨haccepts, hsame⟩ := server.finds hquote hlex t.client.server.data hlisted
    exact ⟨haccepts, (heffect haccepts).trans hsame⟩
  by_cases hlisted : server.listed d (testedTable tableName)
  · obtain ⟨-, hsame⟩ := server.finds hquote hlex d hlisted
    refine iff_of_true (hfound ?_) (.inl hlisted)
    rw [hdata, hsame]
    exact hlisted
  · obtain ⟨htaken, hcreated⟩ := server.creates hquote hlex d hlisted haccepted
    rw [← hdata] at htaken hcreated
    have hagain := (hcreated (testedTable tableName)).trans (or_iff_right hlisted)
    rw [or_iff_right hlisted, ← server.tested_created_iff, ← hagain]
    refine ⟨fun h => ?_, hfound⟩
    by_contra hmissing
    have hrefused := server.refuses hquote hlex t.client.server.data hmissing htaken
    rw [h.1] at hrefused
    cases hrefused

end CatalogServer

section Example

/-- The table of a test and the reference of a creation. -/
def readGuard (tokens : List Token) : Option ((Text × Text) × (Text × Text)) :=
  match tokens.filterMap quotedText with
  | [tested, schema, table] => some ((schema, tested), ([], table))
  | [tested, schema, first, table] => some ((schema, tested), (first, table))
  | _ => none

theorem readGuard_guardedCreation (quote : Quote) (test reference : Text × Text) :
    readGuard (guardedCreation quote test reference) = some (test, reference) := by
  have hcolumns : columnTokens.filterMap quotedText = [] := by
    rw [columnTokens]
    exact scan_migrationColumns.2
  rw [readGuard, guardedCreation, List.filterMap_append, List.filterMap_append, List.filterMap_append, hcolumns]
  rcases reference with ⟨_ | ⟨c, schema⟩, table⟩
  · rfl
  · rfl

/-- Where a created table is kept. -/
def location (defaultSchema : Text) (reference : Text × Text) : Text × Text :=
  if isTemporary reference.2 then ([], reference.2) else resolve defaultSchema reference

def ListedIn (tables : List (Text × Text)) (name : Text × Text) : Prop :=
  isTemporary name.2 = false ∧ name ∈ tables

instance (tables : List (Text × Text)) (name : Text × Text) : Decidable (ListedIn tables name) :=
  inferInstanceAs (Decidable (_ ∧ _))

/-- The table that a statement creates, when its test finds none. -/
def creation (defaultSchema sql : Text) (tables : List (Text × Text)) : Option (Text × Text) :=
  ((lex sql).bind readGuard).bind fun (test, reference) =>
    if ListedIn tables test then none else some (location defaultSchema reference)

theorem listedIn_append (defaultSchema : Text) (tables : List (Text × Text)) (reference name : Text × Text) :
    ListedIn (tables ++ [location defaultSchema reference]) name ↔ ListedIn tables name ∨
      isTemporary reference.2 = false ∧ name.1 = (resolve defaultSchema reference).1 ∧ name.2 = reference.2 := by
  have htable : (resolve defaultSchema reference).2 = reference.2 := by
    rw [resolve]
    split_ifs <;> rfl
  have hname : name = resolve defaultSchema reference ↔
      name.1 = (resolve defaultSchema reference).1 ∧ name.2 = reference.2 := by rw [Prod.ext_iff, htable]
  simp only [ListedIn, List.mem_append, List.mem_singleton, ← hname, location]
  by_cases htemporary : isTemporary reference.2 = true
  · have hkept : isTemporary name.2 = false → name ≠ ([], reference.2) := by
      rintro h rfl
      exact Bool.false_ne_true (h.symm.trans htemporary)
    simp only [htemporary, if_true, Bool.true_eq_false, false_and, or_false]
    tauto
  · have hkept : name = resolve defaultSchema reference → isTemporary name.2 = false := by
      rintro rfl
      rw [htable]
      exact Bool.eq_false_of_not_eq_true htemporary
    simp only [Bool.eq_false_of_not_eq_true htemporary, Bool.false_eq_true, if_false, true_and]
    tauto

theorem creation_eq {defaultSchema sql : Text} {quote : Quote} {test reference : Text × Text}
    (hlex : lex sql = some (guardedCreation quote test reference)) (tables : List (Text × Text)) :
    creation defaultSchema sql tables =
      if ListedIn tables test then none else some (location defaultSchema reference) := by
  rw [creation, hlex, Option.bind_some, readGuard_guardedCreation, Option.bind_some]

/-- A server that keeps the names of its tables. -/
def namesServer (defaultSchema : Text) : CatalogServer (List (Text × Text)) where
  engine := {
    effect := fun r tables => tables ++ (creation defaultSchema r.sql tables).toList
    replies := fun _ _ => []
    rejection := fun _ => .other [] }
  accepts sql tables := (creation defaultSchema sql tables).all (· ∉ tables)
  refusal := .sqlServerError [⟨2714, "There is already an object in the database.".toList⟩] []
  defaultSchema := defaultSchema
  same name other := name = other
  listed := ListedIn
  taken tables reference := location defaultSchema reference ∈ tables
  same_refl _ := rfl
  finds := by
    intro sql quote test reference _ hlex tables hlisted
    simp [creation_eq hlex, if_pos hlisted]
  refuses := by
    intro sql quote test reference _ hlex tables hlisted htaken
    simp [creation_eq hlex, if_neg hlisted, htaken]
  creates := by
    intro sql quote test reference _ hlex tables hlisted _
    simp only [creation_eq hlex, if_neg hlisted, Option.toList_some]
    exact ⟨List.mem_append_right _ List.mem_cons_self, listedIn_append defaultSchema tables reference⟩

/-- With nothing pending, the table is ensured exactly when it is listed or its place is free. -/
theorem ensure_returned_iff (defaultSchema tableName : Text) {s : Session (List (Text × Text))}
    (hreset : s.needsReset = false) (hsettled : s.pendingRollback = false) :
    ((namesServer defaultSchema).ensure tableName s).exit = .returned () ↔
      ListedIn s.client.server.data (testedTable tableName) ∨
        location defaultSchema (splitAtDot tableName) ∉ s.client.server.data := by
  obtain ⟨sql, hsql, hlex⟩ := ensureMigrationsTableSql_lexes tableName
  rw [((namesServer defaultSchema).ensure_eq hsql s).2, ((namesServer defaultSchema).exec_idle sql hreset hsettled).1]
  change (creation defaultSchema sql s.client.server.data).all (· ∉ s.client.server.data) = true ↔ _
  rw [creation_eq hlex]
  by_cases hlisted : ListedIn s.client.server.data (testedTable tableName)
  · simp [hlisted]
  · simp [hlisted]

/-- A login with another default schema, and a name that gives `dbo`. -/
theorem qualified_table_ensured_again :
    (namesServer "app".toList).EnsuredAgain "dbo._sqlx_migrations".toList (Session.connected []) :=
  have hfirst := (ensure_returned_iff "app".toList "dbo._sqlx_migrations".toList (s := Session.connected []) rfl rfl).mpr
    (.inr (by decide))
  ((namesServer "app".toList).migrations_table_ensured_again_iff "dbo._sqlx_migrations".toList (Session.connected [])
    hfirst).mpr (.inr ⟨by decide, .inl (by decide)⟩)

/-- A run that succeeds leaves nothing pending, and the table. -/
theorem ensure_creates {defaultSchema tableName : Text} {s : Session (List (Text × Text))}
    (h : ((namesServer defaultSchema).ensure tableName s).exit = .returned ()) :
    let t := ((namesServer defaultSchema).ensure tableName s).state
    t.needsReset = false ∧ t.pendingRollback = false ∧ t.client.server.data = (drainedServer s).data ++
      (if ListedIn (drainedServer s).data (testedTable tableName) then none
        else some (location defaultSchema (splitAtDot tableName))).toList := by
  obtain ⟨sql, hsql, hlex⟩ := ensureMigrationsTableSql_lexes tableName
  obtain ⟨hstate, hexit⟩ := (namesServer defaultSchema).ensure_eq hsql s
  obtain ⟨hreset, hsettled, -, hdata⟩ := (namesServer defaultSchema).exec_returned sql (hexit.mp h)
  rw [hstate, ← creation_eq hlex]
  exact ⟨hreset, hsettled, hdata⟩

/-- The login creates the table in its own schema, does not find it in `dbo`, and fails to
create it again. -/
theorem unqualified_table_refused_again :
    let first := (namesServer "app".toList).ensure "_sqlx_migrations".toList (Session.connected [])
    first.exit = .returned () ∧ first.state.client.server.data = [("app".toList, "_sqlx_migrations".toList)] ∧
      ¬ (namesServer "app".toList).EnsuredAgain "_sqlx_migrations".toList (Session.connected []) := by
  have hfirst := (ensure_returned_iff "app".toList "_sqlx_migrations".toList (s := Session.connected []) rfl rfl).mpr
    (.inr (by decide))
  obtain ⟨hreset, hsettled, hdata⟩ := ensure_creates hfirst
  have hcreated : (drainedServer (Session.connected ([] : List (Text × Text)))).data ++
      (if ListedIn (drainedServer (Session.connected [])).data (testedTable "_sqlx_migrations".toList) then none
        else some (location "app".toList (splitAtDot "_sqlx_migrations".toList))).toList =
      [("app".toList, "_sqlx_migrations".toList)] := by decide
  refine ⟨hfirst, hdata.trans hcreated, fun h => ?_⟩
  have hagain := (ensure_returned_iff "app".toList "_sqlx_migrations".toList hreset hsettled).mp h.1
  rw [hdata, hcreated] at hagain
  exact absurd hagain (by decide)

end Example

end SqlxMssql
