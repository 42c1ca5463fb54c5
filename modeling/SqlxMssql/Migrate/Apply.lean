import SqlxMssql.Migrate.MigrationPair
import SqlxMssql.Migrate.Statements

/-! # Applying a migration

A migration is applied together with the row that records it, and the migrator asks for a
dirty version before it runs again. Outside a transaction the migration can stay without
its row, and no version is ever dirty.
-/
namespace SqlxMssql
open Loops Utf8 Interaction Savepoints

variable {δ α : Type} (engine : SqlEngine δ)

inductive MigrateError where
  | execute (error : SqlxError)
  | executeMigration (error : SqlxError) (version : Int64)
  deriving DecidableEq, Repr

abbrev MigrateOperation (δ α : Type) := Process Event (Session δ) MigrateError α

def applyMigration (tableName : Text) (migration : Migration) : MigrateOperation δ Unit := do
  let insertSql ← Process.lift (insertMigrationSql tableName migration true)
  (runMigrationPair engine migration.sql insertSql migration.noTx).mapErr
    (.executeMigration · migration.version)

/-- No version is reported, whatever the table holds. -/
def dirtyVersion (_tableName : Text) : MigrateOperation δ (Option Int64) := return none

instance : (call : ClientCall) → Decidable call.IsControl
  | .beginTransaction | .saveTransaction _ | .commitTransaction | .rollbackTransaction _ => isTrue trivial
  | .closeQuery | .execute _ | .executeSpExecutesql _ | .advance | .advanceToRows | .nextRow
  | .createClient _ _ | .closeConnection => isFalse id

/-- Each call about the transaction was answered. -/
def ControlsAnswered (s t : Session δ) : Prop := ∀ c ∈ calls (s.since t), c.1.IsControl → c.2 = .answered

instance (s t : Session δ) : Decidable (ControlsAnswered s t) :=
  inferInstanceAs (Decidable (∀ c ∈ calls (s.since t), c.1.IsControl → c.2 = .answered))

/-- The effects of the migration are absent, or its row is in the table, or its version is
reported as dirty. -/
def Announced (recorded : δ → Prop) (tableName : Text) (migration : Migration) (s t : Session δ) : Prop :=
  t.client.server.data = s.client.server.data ∨ recorded t.client.server.data ∨
    ∃ es, (dirtyVersion tableName t es).exit = .returned (some migration.version)

/-- The server carries out the migration, and then its record. -/
abbrev RunsFirst (es : List Event) : Prop := es.head?.any Event.carriedOut = true

def RunsSecond (sql : Text) (s : Session δ) (es : List Event) : Prop :=
  (execSql engine sql s es).exit.isReturned = true ∧ RunsFirst (execSql engine sql s es).rest

theorem dirtyVersion_none (tableName : Text) (version : Int64) (t : Session δ) (es : List Event) :
    (dirtyVersion tableName t es).exit ≠ .returned (some version) := by
  simp [dirtyVersion]

theorem mapErr_returned {ε ε' σ φ : Type} {f : ε → ε'} {m : Process φ σ ε α} {s : σ} {es : List φ} {a : α}
    (h : (Process.mapErr f m s es).exit = .returned a) : (m s es).exit = .returned a := by
  unfold Process.mapErr at h
  rcases hm : m s es with ⟨exit, t, rest⟩
  rw [hm] at h
  cases exit with
  | returned b => exact congrArg Exit.returned (Exit.returned.inj h)
  | failed | dropped | aborted => cases h

theorem mapErr_failed {ε ε' σ φ : Type} {f : ε → ε'} {m : Process φ σ ε α} {s : σ} {es : List φ} {e' : ε'}
    (h : (Process.mapErr f m s es).exit = .failed e') : ∃ e, (m s es).exit = .failed e := by
  unfold Process.mapErr at h
  rcases hm : m s es with ⟨exit, t, rest⟩
  rw [hm] at h
  cases exit with
  | returned | dropped | aborted => cases h
  | failed e => exact ⟨e, rfl⟩

section Modes
variable {engine} {s : Session δ} {es : List Event} {firstSql secondSql : Text} {recorded : δ → Prop}
  {tableName : Text} {migration : Migration}

/-- In a transaction of its own the migration is recorded or undone. -/
theorem announced_in_transaction (h : s.Ready) (hrow : ∀ d, recorded (engine.effect ⟨secondSql, []⟩ d))
    (hended : (runMigrationPair engine firstSql secondSql false s es).exit = .returned () ∨
      ∃ e, (runMigrationPair engine firstSql secondSql false s es).exit = .failed e)
    (hworks : ControlsAnswered s (runMigrationPair engine firstSql secondSql false s es).state) :
    Announced recorded tableName migration s (runMigrationPair engine firstSql secondSql false s es).state := by
  have hends : s.MigrationEnds firstSql secondSql engine es _ _ := runMigrationPair_ends firstSql secondSql h es
  generalize (runMigrationPair engine firstSql secondSql false s es).state = t at hends hworks ⊢
  generalize (runMigrationPair engine firstSql secondSql false s es).exit = exit at hends hended
  have hrecorded {w : Session δ} (hran : s.inLevel.RanBoth engine firstSql secondSql true w) :
      recorded w.client.server.data := by
    rw [h.data_ran hran]
    exact hrow _
  cases hends with
  | unbegun outcome hexit hrefused =>
    left
    change (if es.head?.any Event.carriedOut then s.begun else s.client.server).data = _
    split
    · exact h.begun_data
    · rfl
  | committed hran hdepth =>
    have hrow := hrecorded hran
    exact .inr (.inl hrow)
  | kept hran hdepth =>
    have hrow := hrecorded hran
    exact .inr (.inl hrow)
  | rolledBack hran hbegun e => exact .inl h.restored_data
  | @stuck w _ hran c hc server outcome houtcome hexit =>
    have hclean : ¬ CleanedUp s (w.controlled c server outcome) := not_cleanedUp hran hc houtcome
    exact absurd (fun c hc hends => hworks c hc hends.isControl) hclean
  | dropped w hexit hfailed =>
    rcases hended with rfl | ⟨e, rfl⟩
    · exact absurd rfl (hexit ())
    · exact absurd rfl (hfailed e)

/-- Without a transaction the migration can stay without its row. -/
theorem announced_without_transaction (h : s.Ready) (hrow : ∀ d, recorded (engine.effect ⟨secondSql, []⟩ d)) :
    Announced recorded tableName migration s (runMigrationPair engine firstSql secondSql true s es).state ↔
      ¬ RunsFirst es ∨ RunsSecond engine firstSql s es ∨
        engine.effect ⟨firstSql, []⟩ s.client.server.data = s.client.server.data ∨
        recorded (engine.effect ⟨firstSql, []⟩ s.client.server.data) := by
  have hannounced (t : Session δ) : Announced recorded tableName migration s t ↔
      t.client.server.data = s.client.server.data ∨ recorded t.client.server.data := by
    simp only [Announced, dirtyVersion_none, exists_const, or_false]
  rw [hannounced]
  change (Process.andThen (execSql engine firstSql s es) _).state.client.server.data = _ ∨
    recorded (Process.andThen (execSql engine firstSql s es) _).state.client.server.data ↔ _
  have hserver := execSql_server engine firstSql h.reset h.settled es
  have hran := execSql_ran engine firstSql h.reset h.settled es
  have hreturned := @execSql_returned _ engine firstSql s h.reset h.settled es
  rw [RunsSecond]
  generalize execSql engine firstSql s es = o at hserver hran hreturned ⊢
  rcases o with ⟨exit, t, rest⟩
  dsimp only at hserver hran hreturned ⊢
  by_cases hexit : ∀ a, exit ≠ .returned a
  · have hstopped : exit.isReturned = false := by
      cases exit with
      | returned a => exact absurd rfl (hexit a)
      | failed | dropped | aborted => rfl
    rw [Process.andThen_stopped hexit, hserver, hstopped]
    by_cases hfirst : RunsFirst es
    · rw [if_pos hfirst, Store.data_run]
      simp [hfirst]
    · rw [if_neg hfirst]
      simp [hfirst]
  · obtain ⟨a, ha⟩ := not_forall.mp hexit
    obtain rfl := not_not.mp ha
    have hfirst : RunsFirst es := by simp [RunsFirst, hreturned rfl, Event.carriedOut]
    rw [if_pos hfirst] at hserver
    rw [Process.andThen_returned, execSql_server engine secondSql hran.reset hran.settled rest]
    by_cases hsecond : RunsFirst rest
    · rw [if_pos hsecond, Store.data_run]
      exact iff_of_true (.inr (hrow _)) (.inr (.inl ⟨rfl, hsecond⟩))
    · rw [if_neg hsecond, hserver, Store.data_run]
      simp [hfirst, hsecond]

/-- A migration that has been applied in part is announced exactly unless it ran outside a
transaction, the server carried it out but not its record, and it changed the data without
writing its row itself. -/
theorem partly_applied_announced_iff (tableName : Text) (migration : Migration) (es : List Event) (h : s.Ready)
    (hinsert : insertMigrationSql tableName migration true = .ok secondSql)
    (hrow : ∀ d, recorded (engine.effect ⟨secondSql, []⟩ d))
    (hended : (applyMigration engine tableName migration s es).exit = .returned () ∨
      ∃ e, (applyMigration engine tableName migration s es).exit = .failed e)
    (hworks : ControlsAnswered s (applyMigration engine tableName migration s es).state) :
    Announced recorded tableName migration s (applyMigration engine tableName migration s es).state ↔
      migration.noTx = false ∨ ¬ RunsFirst es ∨ RunsSecond engine migration.sql s es ∨
        engine.effect ⟨migration.sql, []⟩ s.client.server.data = s.client.server.data ∨
        recorded (engine.effect ⟨migration.sql, []⟩ s.client.server.data) := by
  have hrun : applyMigration engine tableName migration s es = Process.mapErr
      (.executeMigration · migration.version)
      (runMigrationPair engine migration.sql secondSql migration.noTx) s es := by
    rw [applyMigration, hinsert]
    rfl
  rw [hrun] at hended hworks ⊢
  rw [Process.mapErr_state] at hworks ⊢
  cases hmode : migration.noTx with
  | false =>
    rw [hmode] at hended hworks
    refine iff_of_true (announced_in_transaction h hrow ?_ hworks) (.inl rfl)
    rcases hended with hreturned | ⟨e, hfailed⟩
    · exact .inl (mapErr_returned hreturned)
    · exact .inr (mapErr_failed hfailed)
  | true =>
    rw [announced_without_transaction h hrow]
    simp

end Modes

/-- A server that keeps a log of the statements it has run. -/
def loggingEngine : SqlEngine (List Text) where
  effect r log := log ++ [r.sql]
  replies _ _ := []
  rejection _ := .other []

def addColumn (noTx : Bool) : Migration :=
  { version := 1
    description := "add".toList
    migrationType := "Simple".toList
    sql := "ALTER TABLE t ADD c INT".toList
    checksum := []
    noTx }

def addColumnRecord (noTx : Bool) : Text :=
  ((insertMigrationSql "m".toList (addColumn noTx) true).toOption).getD []

/-- The record is refused, and the rollback undoes the migration. -/
def addColumnUndone : List Event := [.answered, .answered, .answered, .refused (.other []) true, .answered]

theorem addColumn_announced :
    Announced (addColumnRecord false ∈ ·) "m".toList (addColumn false) (Session.connected [])
      (applyMigration loggingEngine "m".toList (addColumn false) (Session.connected []) addColumnUndone).state := by
  have hinsert : insertMigrationSql "m".toList (addColumn false) true = .ok (addColumnRecord false) := by
    decide +kernel
  have hrow (log : List Text) : addColumnRecord false ∈ loggingEngine.effect ⟨addColumnRecord false, []⟩ log :=
    List.mem_append_right _ List.mem_cons_self
  have hfailed : ∃ e, (applyMigration loggingEngine "m".toList (addColumn false) (Session.connected [])
      addColumnUndone).exit = .failed e :=
    ⟨.executeMigration (databaseErrorWithContext (.other []) "query failed".toList) 1, by decide +kernel⟩
  exact (partly_applied_announced_iff "m".toList (addColumn false) addColumnUndone (connected_ready []) hinsert
    hrow (.inr hfailed) (by decide +kernel)).mpr (.inl rfl)

/-- Outside a transaction the migration is applied and its record refused. No version is
dirty, and the next run applies the migration again. -/
theorem addColumn_applied_twice :
    let first := applyMigration loggingEngine "m".toList (addColumn true) (Session.connected [])
      [.answered, .answered, .refused (.other []) false]
    let again := applyMigration loggingEngine "m".toList (addColumn true) first.state
      [.answered, .answered, .answered, .answered]
    first.state.client.server.durable = [(addColumn true).sql] ∧
      addColumnRecord true ∉ first.state.client.server.durable ∧
      (dirtyVersion "m".toList first.state []).exit = .returned none ∧
      again.state.client.server.durable = [(addColumn true).sql, (addColumn true).sql, addColumnRecord true] := by
  decide +kernel

end SqlxMssql
