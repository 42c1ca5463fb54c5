import SqlxMssql.Migrate.Queries

/-! # The ledger of the migrations

The migrator records each migration that it applies or skips, takes the record of each one
that it reverts out again, and lists the records. Over any run of these operations the table
follows a map from versions to checksums, and the listing is this map in the order of the
versions.
-/
namespace SqlxMssql
open Loops Utf8 Interaction Savepoints SqlTokens NumberTexts

variable {δ α : Type} (engine : SqlEngine δ)

def deleteMigrationSql (tableName : Text) (migration : Migration) : Run Text := do
  let quoted ← quotedTableName tableName
  return "DELETE FROM ".toList ++ quoted ++ " WHERE version = ".toList ++ decimalInt migration.version.toInt

def listMigrationsSql (tableName : Text) : Run Text := do
  let quoted ← quotedTableName tableName
  return "SELECT version, checksum FROM ".toList ++ quoted ++ " ORDER BY version".toList

def revertMigration (tableName : Text) (migration : Migration) : MigrateOperation δ Unit := do
  let deleteSql ← Process.lift (deleteMigrationSql tableName migration)
  (runMigrationPair engine migration.sql deleteSql migration.noTx).mapErr
    (.executeMigration · migration.version)

/-- The text of the migration is recorded as empty: it has not been run. -/
def skipMigration (tableName : Text) (migration : Migration) : MigrateOperation δ Unit := do
  let insertSql ← Process.lift (insertMigrationSql tableName migration false)
  (execSql engine insertSql).mapErr (.executeMigration · migration.version)

structure AppliedMigration where
  version : Int64
  checksum : List UInt8
  deriving DecidableEq, Repr

def listAppliedMigrations (tds : TdsNumbers) (tableName : Text) : MigrateOperation δ (List AppliedMigration) := do
  let sql ← Process.lift (listMigrationsSql tableName)
  let rows ← (listMigrations engine tds sql).mapErr .execute
  return rows.map fun (version, checksum) => ⟨Int64.ofInt version, checksum⟩

section Tokens

def deletionTokens (tableName : Text) (version : Int64) : List Token :=
  ([.word "DELETE".toList, .word "FROM".toList] : List Token) ++ tableTokens (splitAtDot tableName) ++
    [.word "WHERE".toList, .word "version".toList, .symbol '=', .word (decimalInt version.toInt)]

def listingTokens (tableName : Text) : List Token :=
  ([.word "SELECT".toList, .word "version".toList, .symbol ',', .word "checksum".toList,
    .word "FROM".toList] : List Token) ++ tableTokens (splitAtDot tableName) ++
    [.word "ORDER".toList, .word "BY".toList, .word "version".toList]

theorem deleteMigrationSql_lexes (tableName : Text) (migration : Migration) : ∃ sql,
    deleteMigrationSql tableName migration = .ok sql ∧ lex sql = some (deletionTokens tableName migration.version) := by
  obtain ⟨quoted, schemaTokens, table, hquoted, htable, htokens⟩ := reads_tableName tableName
  have hdelete : Reads .between "DELETE FROM ".toList [.word "DELETE".toList, .word "FROM".toList] .between := by
    decide
  have hwhere : Reads (.closing .bracket table) " WHERE version = ".toList
      [.quoted .bracket table, .word "WHERE".toList, .word "version".toList, .symbol '='] .between :=
    .behind_quoted (by decide) (by decide)
  have hreads := ((hdelete.append htable).append hwhere).append (reads_decimalInt migration.version.toInt)
  refine ⟨_, ?_, (hreads.lex rfl).trans ?_⟩
  · rw [deleteMigrationSql, hquoted]
    rfl
  · rw [deletionTokens, ← htokens]
    simp

theorem listMigrationsSql_lexes (tableName : Text) : ∃ sql,
    listMigrationsSql tableName = .ok sql ∧ lex sql = some (listingTokens tableName) := by
  obtain ⟨quoted, schemaTokens, table, hquoted, htable, htokens⟩ := reads_tableName tableName
  have hselect : Reads .between "SELECT version, checksum FROM ".toList
      [.word "SELECT".toList, .word "version".toList, .symbol ',', .word "checksum".toList, .word "FROM".toList]
      .between := by decide
  have horder : Reads (.closing .bracket table) " ORDER BY version".toList
      [.quoted .bracket table, .word "ORDER".toList, .word "BY".toList] (.word "version".toList) :=
    .behind_quoted (by decide) (by decide)
  have hreads := (hselect.append htable).append horder
  refine ⟨_, ?_, (hreads.lex rfl).trans ?_⟩
  · rw [listMigrationsSql, hquoted]
    rfl
  · rw [listingTokens, ← htokens]
    simp

end Tokens

/-- The checksums of the recorded versions. -/
abbrev Ledger := Std.ExtTreeMap Int64 (List UInt8)

/-- The values fit the columns `NVARCHAR(20)` and `VARBINARY(8000)`. -/
def Migration.Fits (migration : Migration) : Prop :=
  (Utf16.encode migration.migrationType).length ≤ 20 ∧ migration.checksum.length ≤ 8000

instance (migration : Migration) : Decidable migration.Fits := inferInstanceAs (Decidable (_ ∧ _))

/-- A version is recorded once, by the primary key of the table. -/
def Ledger.record (ledger : Ledger) (migration : Migration) : Ledger :=
  if migration.Fits then ledger.insertIfNew migration.version migration.checksum else ledger

/-- What the listing of a ledger is. -/
def Ledger.listing (ledger : Ledger) : List AppliedMigration :=
  ledger.toList.map fun (version, checksum) => ⟨version, checksum⟩

/-- A server whose databases hold the migrations table, and what it makes of the statements
about it. -/
structure LedgerServer (δ : Type) (tableName : Text) where
  engine : SqlEngine δ
  ledger : δ → Ledger
  inserts : ∀ {sql checksum : Text} {migration : Migration} {recordSql : Bool},
    lex sql = some (recordTokens tableName migration recordSql checksum) →
    binaryLiteral checksum = some migration.checksum →
    ∀ d, ledger (engine.effect ⟨sql, []⟩ d) = (ledger d).record migration
  deletes : ∀ {sql : Text} {version : Int64}, lex sql = some (deletionTokens tableName version) →
    ∀ d, ledger (engine.effect ⟨sql, []⟩ d) = (ledger d).erase version
  /-- One row for each record, in the order of the versions. -/
  lists : ∀ {sql : Text}, lex sql = some (listingTokens tableName) → ∀ d, ∃ metadata, metadata.length = 2 ∧
    engine.replies ⟨sql, []⟩ d =
      [.rows metadata ((ledger d).toList.map fun (version, checksum) => [.bigInt version, .bytes checksum])]

inductive MigratorStep where
  | apply (migration : Migration)
  | revert (migration : Migration)
  | skip (migration : Migration)
  deriving DecidableEq, Repr

namespace MigratorStep

def operation (tableName : Text) : MigratorStep → MigrateOperation δ Unit
  | apply migration => applyMigration engine tableName migration
  | revert migration => revertMigration engine tableName migration
  | skip migration => skipMigration engine tableName migration

/-- The text of the migration is run in a transaction, with its record. -/
def InTransaction : MigratorStep → Prop
  | apply migration | revert migration => migration.noTx = false
  | skip _ => False

instance : (step : MigratorStep) → Decidable step.InTransaction
  | apply _ | revert _ => inferInstanceAs (Decidable (_ = _))
  | skip _ => isFalse id

/-- What the step is to do to the ledger. -/
def book (ledger : Ledger) : MigratorStep → Ledger
  | apply migration | skip migration => ledger.record migration
  | revert migration => ledger.erase migration.version

/-- The text that the step runs beside its record does not touch the ledger. -/
def LeavesLedger {tableName : Text} (server : LedgerServer δ tableName) : MigratorStep → Prop
  | apply migration | revert migration =>
    ∀ d, server.ledger (server.engine.effect ⟨migration.sql, []⟩ d) = server.ledger d
  | skip _ => True

end MigratorStep

section Runs
variable {tableName : Text} (server : LedgerServer δ tableName)

def migrated (run : List (MigratorStep × List Event)) (s : Session δ) : Session δ :=
  run.foldl (fun s u => (u.1.operation server.engine tableName s u.2).state) s

/-- Every step of a run is waited for. The commits and rollbacks are answered, and a begin that
is reported as failed has not been carried out. -/
def Attended : List (MigratorStep × List Event) → Session δ → Prop
  | [], _ => True
  | (step, es) :: run, s =>
    let o := step.operation server.engine tableName s es
    (o.exit = .returned () ∨ ∃ e, o.exit = .failed e) ∧
      (step.InTransaction → CleanedUp s o.state ∧ BeginReported es) ∧ Attended run o.state

/-- The steps of a run, and whether each has returned. -/
def reports : List (MigratorStep × List Event) → Session δ → List (MigratorStep × Bool)
  | [], _ => []
  | (step, es) :: run, s =>
    let o := step.operation server.engine tableName s es
    (step, o.exit.isReturned) :: reports run o.state

end Runs

/-- How a ledger goes on: a step that returns is booked, and one that fails is not, but for
a step outside a transaction, of which it is not known. -/
inductive Books : List (MigratorStep × Bool) → Ledger → Ledger → Prop
  | nil (ledger : Ledger) : Books [] ledger ledger
  | booked {step : MigratorStep} {run : List (MigratorStep × Bool)} {ledger last : Ledger}
    (h : Books run (step.book ledger) last) : Books ((step, true) :: run) ledger last
  | undone {step : MigratorStep} {run : List (MigratorStep × Bool)} {ledger last : Ledger}
    (h : Books run ledger last) : Books ((step, false) :: run) ledger last
  | unknown {step : MigratorStep} {run : List (MigratorStep × Bool)} {ledger last : Ledger}
    (hstep : ¬ step.InTransaction) (h : Books run (step.book ledger) last) :
    Books ((step, false) :: run) ledger last

section Steps
variable {engine} {s : Session δ} {firstSql secondSql : Text}

/-- Marks are cleared and never set by what the migrator does. -/
def unmarkedFrame (δ : Type) : Frame (Session δ) where
  rel s t := s.needsReset = false → t.needsReset = false
  refl _ h := h
  trans h k := k ∘ h

theorem call_within_unmarkedFrame (p : PendingCall δ α) (context : String) :
    Within (unmarkedFrame δ) (call engine p context) :=
  Within.of_call (fun _ _ _ h => h) fun _ _ _ h => h

theorem drainPending_within_unmarkedFrame : Within (unmarkedFrame δ) (drainPending engine) := by
  refine Within.bind (Within.bind Within.get fun _ => Within.when ?_) fun _ =>
    Within.bind Within.get fun _ => Within.when ?_
  · exact Within.bind (Within.update fun _ _ => rfl) fun _ => call_within_unmarkedFrame _ _
  · exact Within.bind (Within.update fun _ h => h) fun _ => call_within_unmarkedFrame _ _

theorem execSql_within_unmarkedFrame (sql : Text) : Within (unmarkedFrame δ) (execSql engine sql) := by
  refine Within.bind drainPending_within_unmarkedFrame fun _ =>
    Within.bind (call_within_unmarkedFrame _ _) fun _ => Within.bind (Within.loop (fun _ => ?_) _) fun _ =>
      call_within_unmarkedFrame _ _
  exact Within.ite (Within.pure _) (Within.bind (call_within_unmarkedFrame _ _) fun _ => Within.pure _)

theorem runMigrationPair_within_unmarkedFrame (firstSql secondSql : Text) (noTx : Bool) :
    Within (unmarkedFrame δ) (runMigrationPair engine firstSql secondSql noTx) := by
  have hboth : Within (unmarkedFrame δ)
      (do execSql engine firstSql; execSql engine secondSql : Operation δ Unit) :=
    Within.bind (execSql_within_unmarkedFrame _) fun _ => execSql_within_unmarkedFrame _
  cases noTx with
  | true => exact hboth
  | false =>
    have hbegin : Within (unmarkedFrame δ) (beginTransaction engine) :=
      Within.bind drainPending_within_unmarkedFrame fun _ => Within.bind Within.get fun _ =>
        Within.bind (call_within_unmarkedFrame _ _) fun _ => Within.update fun _ h => h
    have hcommit : Within (unmarkedFrame δ) (commitTransaction engine) :=
      Within.bind Within.get fun _ => Within.when <|
        Within.bind (Within.when (call_within_unmarkedFrame _ _)) fun _ => Within.update fun _ h => h
    have hrollback : Within (unmarkedFrame δ) (rollbackTransaction engine) :=
      Within.bind Within.get fun _ => Within.when <|
        Within.bind (call_within_unmarkedFrame _ _) fun _ => Within.update fun _ h => h
    refine Within.bind hbegin fun _ => Within.bind (Within.attempt hboth) fun outcome => ?_
    cases outcome with
    | ok _ => exact hcommit
    | error e => exact Within.bind (Within.attempt hrollback) fun _ => Within.fail e

theorem runMigrationPair_ready (h : s.Ready) {es : List Event} {t : Session δ} {exit : Exit SqlxError Unit}
    (hends : s.MigrationEnds firstSql secondSql engine es exit t) (hreset : t.needsReset = false)
    (hended : exit = .returned () ∨ ∃ e, exit = .failed e) (hclean : CleanedUp s t) (hbegin : BeginReported es) :
    t.Ready ∧
      (exit = .returned () →
        t.client.server.data = engine.effect ⟨secondSql, []⟩ (engine.effect ⟨firstSql, []⟩ s.client.server.data)) ∧
      (∀ e, exit = .failed e → t.client.server.data = s.client.server.data) := by
  cases hends with
  | @unbegun exit outcome hexit hrefused =>
    obtain ⟨error, applied, hhead⟩ := hrefused (hended.resolve_left (hexit ()))
    obtain rfl : applied = false := by
      cases applied with
      | false => rfl
      | true => exact absurd hhead (hbegin error)
    rw [hhead] at hreset hclean ⊢
    exact ⟨⟨h.reset, h.settled, h.isOpen⟩, fun hreturned => absurd hreturned (hexit ()), fun _ _ => rfl⟩
  | committed hran hdepth =>
    have hdata := h.data_ran hran
    exact ⟨⟨hreset, hran.settled, iff_of_false Bool.false_ne_true fun h => h rfl⟩, fun _ => hdata, nofun⟩
  | kept hran hdepth =>
    have hdata := h.data_ran hran
    have hopen := (h.worked firstSql secondSql hran).isSome
    exact ⟨⟨hreset, hran.settled, iff_of_true hopen hdepth⟩, fun _ => hdata, nofun⟩
  | rolledBack hran hbegun e =>
    exact ⟨⟨hreset, hran.settled, h.restored_open⟩, nofun, fun _ _ => h.restored_data⟩
  | stuck hran c hc server outcome houtcome hexit => exact absurd hclean (not_cleanedUp hran hc houtcome)
  | dropped w hexit hfailed =>
    rcases hended with rfl | ⟨e, rfl⟩
    · exact absurd rfl (hexit ())
    · exact absurd rfl (hfailed e)

variable (engine firstSql secondSql) in
/-- Without a transaction the statements are run one after the other, as far as they go. -/
theorem bothStatements_ready (h : s.Ready) (es : List Event) :
    let o := runMigrationPair engine firstSql secondSql true s es
    let data := s.client.server.data
    o.state.Ready ∧
      (o.state.client.server.data = engine.effect ⟨secondSql, []⟩ (engine.effect ⟨firstSql, []⟩ data) ∨
        o.exit ≠ .returned () ∧ (o.state.client.server.data = data ∨
          o.state.client.server.data = engine.effect ⟨firstSql, []⟩ data)) := by
  intro o data
  have hran : s.RanBoth engine firstSql secondSql o.exit.isReturned o.state :=
    bothStatements_ran engine firstSql secondSql h.reset h.settled es
  have hreset : o.state.needsReset = false := runMigrationPair_within_unmarkedFrame firstSql secondSql true s es h.reset
  have hstopped (hexit : o.exit.isReturned = false) : o.exit ≠ .returned () := by
    intro hreturned
    rw [hreturned] at hexit
    cases hexit
  have hopen {t : Session δ} (hdepth : t.transactionDepth = s.transactionDepth)
      (hserver : t.client.server.transaction.isSome = s.client.server.transaction.isSome) :
      t.client.server.transaction.isSome = true ↔ t.transactionDepth ≠ 0 := by
    rw [hserver, hdepth]
    exact h.isOpen
  rcases hran.server with hserver | ⟨hexit, hserver | hserver⟩
  · refine ⟨⟨hreset, hran.settled, hopen hran.depth ?_⟩, .inl ?_⟩
    · rw [hserver, Store.isSome_run, Store.isSome_run]
    · rw [hserver, Store.data_run, Store.data_run]
  · refine ⟨⟨hreset, hran.settled, hopen hran.depth ?_⟩, .inr ⟨hstopped hexit, .inl ?_⟩⟩
    · rw [hserver]
    · rw [hserver]
  · refine ⟨⟨hreset, hran.settled, hopen hran.depth ?_⟩, .inr ⟨hstopped hexit, .inr ?_⟩⟩
    · rw [hserver, Store.isSome_run]
    · rw [hserver, Store.data_run]

variable (engine) in
theorem execSql_ready (h : s.Ready) (sql : Text) (es : List Event) :
    let o := execSql engine sql s es
    o.state.Ready ∧
      (o.state.client.server.data = engine.effect ⟨sql, []⟩ s.client.server.data ∨
        o.exit ≠ .returned () ∧ o.state.client.server.data = s.client.server.data) := by
  intro o
  have hran : s.Ran engine sql o.exit.isReturned o.state := execSql_ran engine sql h.reset h.settled es
  rcases hran.server with hserver | ⟨hexit, hserver⟩
  · refine ⟨⟨hran.reset, hran.settled, ?_⟩, .inl ?_⟩
    · rw [hserver, Store.isSome_run, hran.depth]
      exact h.isOpen
    · rw [hserver, Store.data_run]
  · refine ⟨⟨hran.reset, hran.settled, ?_⟩, .inr ⟨fun hreturned => ?_, ?_⟩⟩
    · rw [hserver, hran.depth]
      exact h.isOpen
    · rw [hreturned] at hexit
      cases hexit
    · rw [hserver]

end Steps

section Booking
variable {tableName : Text} {server : LedgerServer δ tableName} {s : Session δ} {es : List Event}

/-- What a step with its record comes to: the ledger is booked, or it is as before. -/
def Booked (server : LedgerServer δ tableName) (step : MigratorStep) (s : Session δ)
    (o : Outcome Event (Session δ) MigrateError Unit) : Prop :=
  o.state.Ready ∧
    (server.ledger o.state.client.server.data = step.book (server.ledger s.client.server.data) ∧
        (o.exit.isReturned = true ∨ ¬ step.InTransaction) ∨
      o.exit.isReturned = false ∧ server.ledger o.state.client.server.data = server.ledger s.client.server.data)

theorem mapErr_isReturned {ε ε' σ φ : Type} (f : ε → ε') (m : Process φ σ ε α) (s : σ) (es : List φ) :
    (Process.mapErr f m s es).exit.isReturned = (m s es).exit.isReturned := by
  unfold Process.mapErr
  rcases m s es with ⟨exit, t, rest⟩
  cases exit <;> rfl

/-- A migration with the statement that books it. -/
theorem booked_pair {step : MigratorStep} {firstSql secondSql : Text} {noTx : Bool} {f : SqlxError → MigrateError}
    (h : s.Ready) (hmode : step.InTransaction ↔ noTx = false)
    (hfirst : ∀ d, server.ledger (server.engine.effect ⟨firstSql, []⟩ d) = server.ledger d)
    (hsecond : ∀ d, server.ledger (server.engine.effect ⟨secondSql, []⟩ d) = step.book (server.ledger d))
    {o : Outcome Event (Session δ) MigrateError Unit}
    (hrun : o = Process.mapErr f (runMigrationPair server.engine firstSql secondSql noTx) s es)
    (hended : o.exit = .returned () ∨ ∃ e, o.exit = .failed e)
    (hclean : step.InTransaction → CleanedUp s o.state ∧ BeginReported es) : Booked server step s o := by
  have hstate : o.state = (runMigrationPair server.engine firstSql secondSql noTx s es).state := by
    rw [hrun, Process.mapErr_state]
  have hexit : o.exit.isReturned = (runMigrationPair server.engine firstSql secondSql noTx s es).exit.isReturned := by
    rw [hrun, mapErr_isReturned]
  rw [Booked, hstate, hexit]
  cases noTx with
  | false =>
    have htransaction := hmode.mpr rfl
    obtain ⟨hcleaned, hbegin⟩ := hclean htransaction
    rw [hstate] at hcleaned
    have hended' : (runMigrationPair server.engine firstSql secondSql false s es).exit = .returned () ∨
        ∃ e, (runMigrationPair server.engine firstSql secondSql false s es).exit = .failed e := by
      rw [hrun] at hended
      exact hended.imp mapErr_returned fun ⟨_, he⟩ => mapErr_failed he
    obtain ⟨hready, hreturned, hfailed⟩ := runMigrationPair_ready h (runMigrationPair_ends firstSql secondSql h es)
      (runMigrationPair_within_unmarkedFrame firstSql secondSql false s es h.reset) hended' hcleaned hbegin
    refine ⟨hready, ?_⟩
    rcases hended' with hexit' | ⟨e, hexit'⟩
    · left
      rw [hreturned hexit', hsecond, hfirst, hexit']
      exact ⟨rfl, .inl rfl⟩
    · right
      rw [hfailed e hexit', hexit']
      exact ⟨rfl, rfl⟩
  | true =>
    have houtside : ¬ step.InTransaction := fun htransaction => Bool.noConfusion (hmode.mp htransaction)
    obtain ⟨hready, hdata | ⟨hstopped, hdata⟩⟩ :=
      bothStatements_ready server.engine firstSql secondSql h es
    · refine ⟨hready, .inl ⟨?_, .inr houtside⟩⟩
      rw [hdata, hsecond, hfirst]
    · refine ⟨hready, .inr ⟨?_, ?_⟩⟩
      · cases hreturned : (runMigrationPair server.engine firstSql secondSql true s es).exit with
        | returned a => exact absurd hreturned hstopped
        | failed | dropped | aborted => rfl
      · rcases hdata with hdata | hdata
        · rw [hdata]
        · rw [hdata, hfirst]

/-- Each step books its record in the ledger, or fails and leaves the ledger as it was, or
fails outside a transaction. -/
theorem step_booked (step : MigratorStep) (h : s.Ready) (hleaves : step.LeavesLedger server)
    (hended : (step.operation server.engine tableName s es).exit = .returned () ∨
      ∃ e, (step.operation server.engine tableName s es).exit = .failed e)
    (hclean : step.InTransaction →
      CleanedUp s (step.operation server.engine tableName s es).state ∧ BeginReported es) :
    Booked server step s (step.operation server.engine tableName s es) := by
  cases step with
  | apply migration =>
    obtain ⟨sql, checksum, hsql, hlex, hchecksum⟩ := insertMigrationSql_lexes tableName migration true
    refine booked_pair (f := (.executeMigration · migration.version)) h Iff.rfl hleaves
      (server.inserts hlex hchecksum) ?_ hended hclean
    change applyMigration server.engine tableName migration s es = _
    rw [applyMigration, hsql]
    rfl
  | revert migration =>
    obtain ⟨sql, hsql, hlex⟩ := deleteMigrationSql_lexes tableName migration
    refine booked_pair (f := (.executeMigration · migration.version)) h Iff.rfl hleaves (server.deletes hlex) ?_
      hended hclean
    change revertMigration server.engine tableName migration s es = _
    rw [revertMigration, hsql]
    rfl
  | skip migration =>
    obtain ⟨sql, checksum, hsql, hlex, hchecksum⟩ := insertMigrationSql_lexes tableName migration false
    have hrun : (MigratorStep.skip migration).operation server.engine tableName s es =
        Process.mapErr (.executeMigration · migration.version) (execSql server.engine sql) s es := by
      change skipMigration server.engine tableName migration s es = _
      rw [skipMigration, hsql]
      rfl
    obtain ⟨hready, hdata⟩ := execSql_ready server.engine h sql es
    rw [Booked, hrun, Process.mapErr_state, mapErr_isReturned]
    refine ⟨hready, ?_⟩
    rcases hdata with hdata | ⟨hstopped, hdata⟩
    · left
      rw [hdata, server.inserts hlex hchecksum]
      exact ⟨rfl, .inr id⟩
    · right
      rw [hdata]
      refine ⟨?_, rfl⟩
      cases hreturned : (execSql server.engine sql s es).exit with
      | returned a => exact absurd hreturned hstopped
      | failed | dropped | aborted => rfl

/-- Over a run the ledger follows the reports of its steps. -/
theorem run_booked (run : List (MigratorStep × List Event)) (h : s.Ready)
    (hleaves : ∀ u ∈ run, u.1.LeavesLedger server) (hattended : Attended server run s) :
    (migrated server run s).Ready ∧ Books (reports server run s) (server.ledger s.client.server.data)
      (server.ledger (migrated server run s).client.server.data) := by
  induction run generalizing s with
  | nil => exact ⟨h, .nil _⟩
  | cons u run ih =>
    obtain ⟨step, es⟩ := u
    obtain ⟨hended, hclean, hattended⟩ := hattended
    obtain ⟨hready, hbooked⟩ := step_booked step h (hleaves _ List.mem_cons_self) hended hclean
    obtain ⟨hlast, hbooks⟩ := ih hready (fun u hu => hleaves u (List.mem_cons_of_mem _ hu)) hattended
    refine ⟨hlast, ?_⟩
    change Books ((step, _) :: _) _ _
    rcases hbooked with ⟨hledger, hreport⟩ | ⟨hreport, hledger⟩
    · rw [hledger] at hbooks
      cases hreturned : (step.operation server.engine tableName s es).exit.isReturned with
      | true => exact .booked hbooks
      | false =>
        rw [hreturned] at hreport
        exact .unknown (hreport.resolve_left Bool.false_ne_true) hbooks
    · rw [hledger] at hbooks
      rw [hreport]
      exact .undone hbooks

end Booking

section Listing

theorem Ledger.listing_sorted (ledger : Ledger) : ledger.listing.Pairwise fun a b => a.version < b.version := by
  apply List.pairwise_map.mpr
  apply Std.ExtTreeMap.ordered_keys_toList.imp
  intro a b hlt
  exact Std.compare_eq_lt.mp hlt

theorem Ledger.mem_listing {ledger : Ledger} {applied : AppliedMigration} :
    applied ∈ ledger.listing ↔ ledger[applied.version]? = some applied.checksum := by
  rw [Ledger.listing, List.mem_map, ← Std.ExtTreeMap.mem_toList_iff_getElem?_eq_some]
  constructor
  · rintro ⟨record, hmem, rfl⟩
    exact hmem
  · exact fun hmem => ⟨_, hmem, rfl⟩

variable {tableName : Text} (server : LedgerServer δ tableName) (tds : TdsNumbers)

/-- The record that a row of the listing is read as. -/
def appliedOf (row : List MssqlValue) : AppliedMigration :=
  ⟨Int64.ofInt ((row.head?.bind (·.asI64 tds)).getD 0), (row[1]?.bind (·.asBytes tds)).getD []⟩

/-- A record is read from its row as it is. -/
theorem appliedOf_row {metadata : List ColumnMetadata} (hcolumns : metadata.length = 2) (version : Int64)
    (checksum : List UInt8) :
    appliedOf tds (rowValues metadata [.bigInt version, .bytes checksum]) = ⟨version, checksum⟩ := by
  obtain ⟨first, second, rfl⟩ := List.length_eq_two.mp hcolumns
  exact congrArg (AppliedMigration.mk · checksum) (Int64.ofInt_toInt version)

theorem listing_of_rows {metadata : List ColumnMetadata} (hcolumns : metadata.length = 2) (ledger : Ledger) :
    ((ledger.toList.map fun (version, checksum) => [.bigInt version, .bytes checksum]).map
      (rowValues metadata)).map (appliedOf tds) = ledger.listing := by
  rw [Ledger.listing, List.map_map, List.map_map]
  apply List.map_congr_left
  intro record _
  exact appliedOf_row tds hcolumns record.1 record.2

/-- The listing reads the rows of one query. -/
theorem listAppliedMigrations_exit {sql : Text} (hsql : listMigrationsSql tableName = .ok sql) {s : Session δ}
    {es : List Event} (listed : List AppliedMigration) :
    (listAppliedMigrations server.engine tds tableName s es).exit = .returned listed ↔
      ∃ rows, (queryRows server.engine sql s es).exit = .returned rows ∧ rows.map (appliedOf tds) = listed := by
  have hrun : listAppliedMigrations server.engine tds tableName s es =
      Process.andThen (Process.mapErr .execute (listMigrations server.engine tds sql) s es) fun rows =>
        pure (rows.map fun (version, checksum) => ⟨Int64.ofInt version, checksum⟩) := by
    rw [listAppliedMigrations, hsql]
    rfl
  have hlist : listMigrations server.engine tds sql s es = Process.andThen (queryRows server.engine sql s es)
      fun rows => pure (rows.map fun row =>
        ((row.head?.bind (·.asI64 tds)).getD 0, (row[1]?.bind (·.asBytes tds)).getD [])) := rfl
  rw [hrun, Process.mapErr, hlist]
  rcases queryRows server.engine sql s es with ⟨exit, t, rest⟩
  cases exit with
  | returned rows =>
    simp only [Process.andThen_returned, Process.pure_run, List.map_map, Exit.returned.injEq, exists_eq_left']
    exact Iff.rfl
  | failed | dropped | aborted =>
    simp only [Process.andThen_failed, Process.andThen_dropped, Process.andThen_aborted, reduceCtorEq, false_and,
      exists_false]

variable {tds}

/-- What the table records is what is listed. -/
theorem listed_ledger {s : Session δ} (h : s.Ready) :
    let ledger := server.ledger s.client.server.data
    (∀ es listed, (listAppliedMigrations server.engine tds tableName s es).exit = .returned listed →
      listed = ledger.listing) ∧
    (listAppliedMigrations server.engine tds tableName s
      (List.replicate (ledger.listing.length + 3) .answered)).exit = .returned ledger.listing := by
  intro ledger
  obtain ⟨sql, hsql, hlex⟩ := listMigrationsSql_lexes tableName
  obtain ⟨metadata, hcolumns, hreplies⟩ := server.lists hlex s.client.server.data
  constructor
  · intro es listed hlisted
    obtain ⟨rows, hrows, rfl⟩ := (listAppliedMigrations_exit server tds hsql listed).mp hlisted
    have hread := queryRows_returned h.reset h.settled hrows
    rw [hreplies] at hread
    rw [hread]
    exact listing_of_rows tds hcolumns ledger
  · have hread := queryRows_answered server.engine h.reset h.settled hreplies
    rw [List.length_map] at hread
    apply (listAppliedMigrations_exit server tds hsql ledger.listing).mpr
    refine ⟨_, ?_, listing_of_rows tds hcolumns ledger⟩
    rw [Ledger.listing, List.length_map]
    exact hread

variable {server}

/-- After any run of applying, reverting and skipping from a session that is ready, in transactions
and outside, over any failures that are waited for, the listing is a ledger in which the steps
that returned are booked. A step that failed in its transaction has left no record, and one that
failed outside may have been booked. The commits and rollbacks have to be answered, no begin that
the server carried out is reported as failed, and what a migration executes leaves the table alone. -/
theorem applied_migrations_listed (tds : TdsNumbers) (run : List (MigratorStep × List Event)) {s : Session δ}
    (h : s.Ready) (hleaves : ∀ u ∈ run, u.1.LeavesLedger server) (hattended : Attended server run s) :
    ∃ ledger, Books (reports server run s) (server.ledger s.client.server.data) ledger ∧
      (∀ es listed, (listAppliedMigrations server.engine tds tableName (migrated server run s) es).exit =
        .returned listed → listed = ledger.listing) ∧
      (listAppliedMigrations server.engine tds tableName (migrated server run s)
        (List.replicate (ledger.listing.length + 3) .answered)).exit = .returned ledger.listing := by
  obtain ⟨hready, hbooks⟩ := run_booked run h hleaves hattended
  exact ⟨_, hbooks, listed_ledger server hready⟩

end Listing

section Example

theorem readFixedPoint_decimalInt (n : ℤ) : (readFixedPoint (decimalInt n)).1 = n := by
  have htext : decimalInt n = fixedPoint (decide (n < 0)) n.natAbs 0 := by
    simp only [decimalInt, fixedPoint, unsignedFixedPoint, pow_zero, Nat.div_one, if_true, List.append_nil,
      decide_eq_true_eq]
    split
    · rfl
    · rfl
  rw [htext, readFixedPoint_fixedPoint]
  by_cases hn : n < 0
  · rw [decide_eq_true hn, if_pos rfl, Int.ofNat_natAbs_of_nonpos hn.le, neg_neg]
  · rw [decide_eq_false hn, if_neg Bool.false_ne_true, Int.natAbs_of_nonneg (not_lt.mp hn)]

def versionOf (word : Text) : Int64 := Int64.ofInt (readFixedPoint word).1

theorem versionOf_decimalInt (version : Int64) : versionOf (decimalInt version.toInt) = version := by
  rw [versionOf, readFixedPoint_decimalInt, Int64.ofInt_toInt]

/-- What a statement makes of a ledger, read off its tokens from the last one on. -/
def bookedBy (ledger : Ledger) : List Token → Ledger
  | .symbol ')' :: .word _ :: .symbol ',' :: .word checksum :: .symbol ',' :: .quoted _ sql :: .symbol ',' ::
      .quoted _ migrationType :: .symbol ',' :: .quoted _ description :: .symbol ',' :: .word version :: _ =>
    ledger.record ⟨versionOf version, description, migrationType, sql, (binaryLiteral checksum).getD [], false⟩
  | .word version :: .symbol '=' :: _ => ledger.erase (versionOf version)
  | _ => ledger

/-- A server that keeps nothing but the ledger. -/
def recordsServer (tableName : Text) : LedgerServer Ledger tableName where
  engine := {
    effect := fun r ledger => bookedBy ledger ((lex r.sql).getD []).reverse
    replies := fun r ledger =>
      if lex r.sql = some (listingTokens tableName) then
        [.rows (List.replicate 2 ⟨[], .int8, [], 8, none, none, none, false⟩)
          (ledger.toList.map fun (version, checksum) => [.bigInt version, .bytes checksum])]
      else []
    rejection := fun _ => .other [] }
  ledger := id
  inserts := by
    intro sql checksum migration recordSql hlex hchecksum ledger
    simp only [hlex, Option.getD_some, recordTokens, List.reverse_append, List.reverse_cons, List.reverse_nil,
      List.nil_append, List.cons_append, bookedBy, versionOf_decimalInt, hchecksum, id]
    rfl
  deletes := by
    intro sql version hlex ledger
    simp only [hlex, Option.getD_some, deletionTokens, List.reverse_append, List.reverse_cons, List.reverse_nil,
      List.nil_append, List.cons_append, bookedBy, versionOf_decimalInt, id]
  lists := by
    intro sql hlex ledger
    refine ⟨List.replicate 2 ⟨[], .int8, [], 8, none, none, none, false⟩, rfl, ?_⟩
    exact if_pos hlex

/-- A migration is applied, and its reverting is refused and rolled back. -/
def keptRun : List (MigratorStep × List Event) :=
  [(.apply (addColumn false), List.replicate 6 .answered),
    (.revert (addColumn false), [.answered, .refused (.other []) true, .answered])]

theorem keptRun_listed : ∃ ledger,
    Books (reports (recordsServer "m".toList) keptRun (Session.connected ∅)) ∅ ledger ∧
      (∀ es listed, (listAppliedMigrations (recordsServer "m".toList).engine .fixedPoint "m".toList
        (migrated (recordsServer "m".toList) keptRun (Session.connected ∅)) es).exit = .returned listed →
          listed = ledger.listing) ∧
      (listAppliedMigrations (recordsServer "m".toList).engine .fixedPoint "m".toList
        (migrated (recordsServer "m".toList) keptRun (Session.connected ∅))
        (List.replicate (ledger.listing.length + 3) .answered)).exit = .returned ledger.listing := by
  have hsql : ((lex (addColumn false).sql).getD []).reverse = [.word "INT".toList, .word "c".toList, .word "ADD".toList,
      .word "t".toList, .word "TABLE".toList, .word "ALTER".toList] := by decide +kernel
  have hleaves (ledger : Ledger) : bookedBy ledger ((lex (addColumn false).sql).getD []).reverse = ledger := by
    rw [hsql]
    rfl
  apply applied_migrations_listed .fixedPoint keptRun (connected_ready _)
  · intro u hu
    rcases List.mem_pair.mp hu with rfl | rfl
    · exact hleaves
    · exact hleaves
  · refine ⟨.inl ?_, fun _ => ⟨?_, ?_⟩,
      .inr ⟨.executeMigration (databaseErrorWithContext (.other []) "query failed".toList) 1, ?_⟩,
      fun _ => ⟨?_, ?_⟩, trivial⟩
    · decide +kernel
    · decide +kernel
    · simp [BeginReported]
    · decide +kernel
    · decide +kernel
    · simp [BeginReported]

end Example

end SqlxMssql
