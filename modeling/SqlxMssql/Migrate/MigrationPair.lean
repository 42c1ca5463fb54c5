import SqlxMssql.Connection.Recovery

/-! # Running a migration with its bookkeeping

A migration and the statement that records it run in a transaction of their own, or in a
level of the transaction around them. A failure of either statement rolls the level back.
-/
namespace SqlxMssql
open Loops Utf8 Interaction ParamMarkers Savepoints

variable {δ α β : Type} (engine : SqlEngine δ)

/-- An error of the statements is what is reported, also when the rollback fails. -/
def runMigrationPair (firstSql secondSql : Text) (noTx : Bool) : Operation δ Unit := do
  if noTx then
    execSql engine firstSql
    execSql engine secondSql
  else
    beginTransaction engine
    let outcome ← (do execSql engine firstSql; execSql engine secondSql : Operation δ Unit).attempt
    match outcome with
    | .ok () => commitTransaction engine
    | .error error =>
      let _ ← (rollbackTransaction engine).attempt
      Process.fail error

/-- Nothing is pending, and the server has a transaction open exactly over a level. -/
structure Session.Ready (s : Session δ) : Prop where
  reset : s.needsReset = false
  settled : s.pendingRollback = false
  isOpen : s.client.server.transaction.isSome = true ↔ s.transactionDepth ≠ 0

/-- The bookkeeping is as before, and the trace has grown by reading only. -/
def readingFrame (δ : Type) : Frame (Session δ) where
  rel s t := t.client.server = s.client.server ∧ t.transactionDepth = s.transactionDepth ∧
    t.needsReset = s.needsReset ∧ t.pendingRollback = s.pendingRollback ∧
    ∃ made, t.trace = s.trace ++ made ∧ ∀ c ∈ calls made, c.1.Reads
  refl s := ⟨rfl, rfl, rfl, rfl, [], (List.append_nil _).symm, by simp [calls]⟩
  trans := by
    rintro s t u ⟨h1, h2, h3, h4, made, hmade, hreads⟩ ⟨k1, k2, k3, k4, more, hmore, kreads⟩
    refine ⟨k1.trans h1, k2.trans h2, k3.trans h3, k4.trans h4, made ++ more, ?_, ?_⟩
    · rw [hmore, hmade, List.append_assoc]
    · intro c hc
      rw [calls_append] at hc
      exact (List.mem_append.mp hc).elim (hreads c) (kreads c)

theorem reading_within_readingFrame {c : ClientCall} (hc : c.Reads)
    {receive : TdsClient δ → α × TdsClient δ} (hreceive : TdsClient.ReadsOn receive) (context : String) :
    Within (readingFrame δ) (call engine (TdsClient.reading c receive) context) := by
  have hmade (outcome : CallOutcome) : ∀ made ∈ calls [.called c outcome], made.1.Reads := by
    simpa [calls] using hc
  apply Within.of_reading
  · intro s
    exact ⟨(hreceive s.client).1, rfl, rfl, rfl, _, rfl, hmade .answered⟩
  · intro s outcome
    exact ⟨rfl, rfl, rfl, rfl, _, rfl, hmade outcome⟩

theorem skipResults_within_readingFrame (result : StatementResult) :
    Within (readingFrame δ) (skipResults engine result) := by
  refine Within.bind (Within.loop (fun result => ?_) _) fun _ => ?_
  · apply Within.ite (Within.pure _)
    refine Within.bind ?_ fun _ => Within.pure _
    exact reading_within_readingFrame engine (c := .advance) trivial
      (fun c => ⟨rfl, fun h => by simp [TdsClient.moveTo, h]⟩) _
  · exact reading_within_readingFrame engine (c := .closeQuery) trivial (fun _ => ⟨rfl, fun _ => rfl⟩) _

/-- What a statement leaves of a session with nothing pending: it has been run, or it has
failed and may have been run. -/
structure Session.Ran (sql : Text) (returned : Bool) (s t : Session δ) : Prop where
  depth : t.transactionDepth = s.transactionDepth
  reset : t.needsReset = false
  settled : t.pendingRollback = false
  server : t.client.server = s.client.server.run (engine.effect ⟨sql, []⟩) ∨
    returned = false ∧ t.client.server = s.client.server
  trace : ∃ outcome made, t.trace = s.trace ++ .called (.execute sql) outcome :: made ∧
    (returned = true → outcome = .answered) ∧ ∀ c ∈ calls made, c.1.Reads

theorem drainPending_idle {s : Session δ} {es : List Event} (hreset : s.needsReset = false)
    (hsettled : s.pendingRollback = false) : drainPending engine s es = ⟨.returned (), s, es⟩ := by
  rw [drainPending, Process.bind_run, closeUnfinished_idle engine s es hreset, Process.andThen_returned,
    rollBackAbandoned_idle engine s es hsettled]

/-- A statement is run exactly when the server carries out its call. -/
theorem execSql_server (sql : Text) {s : Session δ} (hreset : s.needsReset = false)
    (hsettled : s.pendingRollback = false) (es : List Event) :
    (execSql engine sql s es).state.client.server = if es.head?.any Event.carriedOut then
      s.client.server.run (engine.effect ⟨sql, []⟩) else s.client.server := by
  rw [execSql, Process.bind_run, drainPending_idle engine hreset hsettled, Process.andThen_returned,
    Process.bind_run]
  rcases es with _ | ⟨event, rest⟩
  · rfl
  cases event with
  | answered =>
    rw [call_answered engine (TdsClient.execute engine sql) "query failed" s rest rfl, Process.andThen_returned]
    exact (skipResults_within_readingFrame engine _ _ rest).1
  | refused error applied => cases applied <;> rfl
  | cut applied => cases applied <;> rfl

theorem execSql_returned (sql : Text) {s : Session δ} (hreset : s.needsReset = false)
    (hsettled : s.pendingRollback = false) {es : List Event}
    (h : (execSql engine sql s es).exit.isReturned = true) : es.head? = some .answered := by
  rw [execSql, Process.bind_run, drainPending_idle engine hreset hsettled, Process.andThen_returned,
    Process.bind_run] at h
  rcases es with _ | ⟨event, rest⟩
  · cases h
  cases event with
  | answered => rfl
  | refused error applied => cases h
  | cut applied => cases h

theorem execSql_ran (sql : Text) {s : Session δ} (hreset : s.needsReset = false)
    (hsettled : s.pendingRollback = false) (es : List Event) :
    s.Ran engine sql (execSql engine sql s es).exit.isReturned (execSql engine sql s es).state := by
  rw [execSql, Process.bind_run, drainPending_idle engine hreset hsettled, Process.andThen_returned,
    Process.bind_run]
  rcases call_cases engine (TdsClient.execute engine sql) "query failed" s es with
    ⟨rest, server, -, hserve, hrun⟩ | ⟨exit, applied, outcome, rest, hexit, -, -, hrun⟩
  · obtain rfl : s.client.server.run (engine.effect ⟨sql, []⟩) = server := Option.some_injective _ hserve
    rw [hrun, Process.andThen_returned]
    generalize ((TdsClient.execute engine sql).receive _).1 = result
    obtain ⟨hserver, hdepth, hreset', hsettled', made, hmade, hreads⟩ :=
      skipResults_within_readingFrame engine result (s.answer (TdsClient.execute engine sql) _) rest
    refine ⟨hdepth, hreset'.trans hreset, hsettled'.trans hsettled, .inl hserver, .answered, made, ?_,
      fun _ => rfl, hreads⟩
    rw [hmade, Session.answer, Session.record, List.append_assoc]
    rfl
  · rw [hrun, Process.andThen_stopped_exit hexit, Process.andThen_stopped hexit]
    refine ⟨rfl, hreset, hsettled, ?_, outcome, [], rfl, fun h => absurd h (by decide), by simp [calls]⟩
    cases applied with
    | false => exact .inr ⟨rfl, rfl⟩
    | true => exact .inl rfl

/-- The call begins, marks or ends a transaction. -/
def ClientCall.IsControl : ClientCall → Prop
  | beginTransaction | saveTransaction _ | commitTransaction | rollbackTransaction _ => True
  | _ => False

/-- The call commits or rolls back. -/
def ClientCall.EndsLevel : ClientCall → Prop
  | commitTransaction | rollbackTransaction _ => True
  | _ => False

instance : (call : ClientCall) → Decidable call.EndsLevel
  | .commitTransaction | .rollbackTransaction _ => isTrue trivial
  | .closeQuery | .beginTransaction | .saveTransaction _ | .execute _ | .executeSpExecutesql _ | .advance
  | .advanceToRows | .nextRow | .createClient _ _ | .closeConnection => isFalse id

theorem ClientCall.EndsLevel.isControl {c : ClientCall} (h : c.EndsLevel) : c.IsControl := by
  cases c <;> trivial

/-- The statements that a trace of calls has run. -/
def statementsIn (made : List (ClientCall × CallOutcome)) : List (ClientCall × CallOutcome) :=
  made.filter fun c => decide c.1.IsRequest

theorem statementsIn_reads {made : List (ClientCall × CallOutcome)} (h : ∀ c ∈ made, c.1.Reads) :
    statementsIn made = [] := by
  apply List.filter_eq_nil_iff.mpr
  intro c hc hrequest
  have hreads := h c hc
  rw [decide_eq_true_eq] at hrequest
  rcases c with ⟨call, outcome⟩
  cases call <;> first | exact hreads | exact hrequest

theorem ClientCall.Reads.not_control {c : ClientCall} (h : c.Reads) : ¬ c.IsControl := by
  intro hcontrol
  cases c <;> first | exact h | exact hcontrol

section Pair
variable (firstSql secondSql : Text)

/-- What the two statements leave of a session with nothing pending. -/
structure Session.RanBoth (returned : Bool) (s t : Session δ) : Prop where
  depth : t.transactionDepth = s.transactionDepth
  settled : t.pendingRollback = false
  server : t.client.server =
      (s.client.server.run (engine.effect ⟨firstSql, []⟩)).run (engine.effect ⟨secondSql, []⟩) ∨
    returned = false ∧ (t.client.server = s.client.server ∨
      t.client.server = s.client.server.run (engine.effect ⟨firstSql, []⟩))
  trace : ∃ made, t.trace = s.trace ++ made ∧ (∀ c ∈ calls made, ¬ c.1.IsControl) ∧
    (returned = true → statementsIn (calls made) =
      [(.execute firstSql, .answered), (.execute secondSql, .answered)])

variable {engine firstSql} in
theorem Session.Ran.calls {returned : Bool} {s t : Session δ} (h : s.Ran engine firstSql returned t) :
    ∃ made, t.trace = s.trace ++ made ∧ (∀ c ∈ calls made, ¬ c.1.IsControl) ∧
      (returned = true → statementsIn (SqlxMssql.calls made) = [(.execute firstSql, .answered)]) := by
  obtain ⟨outcome, made, hmade, hanswered, hreads⟩ := h.trace
  have hcalls : SqlxMssql.calls (.called (.execute firstSql) outcome :: made) =
    (.execute firstSql, outcome) :: SqlxMssql.calls made := rfl
  refine ⟨_, hmade, ?_, ?_⟩
  · intro c hc
    rw [hcalls] at hc
    rcases List.mem_cons.mp hc with rfl | hc
    · exact id
    · exact (hreads c hc).not_control
  · intro hreturned
    have hrequest : (ClientCall.execute firstSql).IsRequest := trivial
    rw [hcalls, statementsIn, List.filter_cons_of_pos (by simpa using hrequest), hanswered hreturned]
    exact congrArg _ (statementsIn_reads hreads)

theorem bothStatements_ran {s : Session δ} (hreset : s.needsReset = false)
    (hsettled : s.pendingRollback = false) (es : List Event) :
    s.RanBoth engine firstSql secondSql
      ((do execSql engine firstSql; execSql engine secondSql : Operation δ Unit) s es).exit.isReturned
      ((do execSql engine firstSql; execSql engine secondSql : Operation δ Unit) s es).state := by
  rw [Process.bind_run]
  have hfirst := execSql_ran engine firstSql hreset hsettled es
  rcases hrun : execSql engine firstSql s es with ⟨exit, t, rest⟩
  rw [hrun] at hfirst
  obtain ⟨made, hmade, hquiet, hstatements⟩ := hfirst.calls
  by_cases hexit : ∀ a, exit ≠ .returned a
  · rw [Process.andThen_stopped_exit hexit, Process.andThen_stopped hexit]
    refine ⟨hfirst.depth, hfirst.settled, .inr ⟨rfl, ?_⟩, made, hmade, hquiet, fun h => absurd h (by decide)⟩
    rcases hfirst.server with h | ⟨-, h⟩
    · exact .inr h
    · exact .inl h
  · obtain ⟨a, ha⟩ := not_forall.mp hexit
    obtain rfl := not_not.mp ha
    rw [Process.andThen_returned]
    have hsecond := execSql_ran engine secondSql hfirst.reset hfirst.settled rest
    obtain ⟨more, hmore, hquiet', hstatements'⟩ := hsecond.calls
    have hserver : t.client.server = s.client.server.run (engine.effect ⟨firstSql, []⟩) := by
      rcases hfirst.server with h | ⟨h, -⟩
      · exact h
      · exact absurd h (by simp [Exit.isReturned])
    refine ⟨hsecond.depth.trans hfirst.depth, hsecond.settled, ?_, made ++ more, ?_, ?_, ?_⟩
    · rcases hsecond.server with h | ⟨hstopped, h⟩
      · exact .inl (by rw [h, hserver])
      · exact .inr ⟨hstopped, .inr (h.trans hserver)⟩
    · rw [hmore, hmade, List.append_assoc]
    · intro c hc
      rw [SqlxMssql.calls_append] at hc
      exact (List.mem_append.mp hc).elim (hquiet c) (hquiet' c)
    · intro hreturned
      rw [SqlxMssql.calls_append, statementsIn, List.filter_append]
      exact congrArg₂ (· ++ ·) (hstatements rfl) (hstatements' hreturned)

end Pair

/-- The call that begins a level. -/
def Session.beginCall (s : Session δ) : ClientCall :=
  if s.transactionDepth = 0 then .beginTransaction else .saveTransaction (savepointName s.transactionDepth)

theorem Session.beginCall_endsLevel (s : Session δ) : ¬ s.beginCall.EndsLevel := by
  unfold beginCall
  split <;> exact id

/-- The server after a level has been begun. -/
def Session.begun (s : Session δ) : Store Text δ :=
  if s.transactionDepth = 0 then s.client.server.begin
  else (s.client.server.save (savepointName s.transactionDepth)).getD s.client.server

/-- The server after the level has been rolled back: the savepoint of an inner level stays. -/
def Session.restored (s : Session δ) : Store Text δ :=
  if s.transactionDepth = 0 then s.client.server else s.begun

/-- The call that rolls the level back. -/
def Session.rollbackCall (s : Session δ) : ClientCall :=
  .rollbackTransaction (if s.transactionDepth = 0 then none else some (savepointName s.transactionDepth))

/-- A call that takes the depth down by one level when it is answered. -/
theorem lowering_cases {w : Session δ} {c : ClientCall} {serve : Store Text δ → Option (Store Text δ)}
    (context : String) {server : Store Text δ} (hserve : serve w.client.server = some server) {depth : ℕ}
    (hdepth : w.transactionDepth = depth + 1) (es : List Event) {lowering : Outcome Event (Session δ) SqlxError Unit}
    (hlowering : lowering = (call engine (TdsClient.control c serve) context >>= fun _ =>
      Process.update fun t => { t with transactionDepth := t.transactionDepth - 1 }) w es) :
    (∃ rest, lowering = ⟨.returned (), { w.controlled c server .answered with transactionDepth := depth }, rest⟩) ∨
    ∃ exit outcome server rest, (∀ a, exit ≠ .returned a) ∧ outcome ≠ .answered ∧
      lowering = ⟨exit, w.controlled c server outcome, rest⟩ := by
  rw [hlowering, Process.bind_run]
  rcases control_cases engine w es (c := c) context hserve with
    ⟨rest, rfl, hrun⟩ | ⟨exit, outcome, hexit, houtcome, -, -, hrun⟩
  · rw [hrun]
    refine .inl ⟨rest, ?_⟩
    have hlower : w.transactionDepth - 1 = depth := by omega
    rw [← hlower]
    rfl
  · obtain ⟨exit', hexit', -, hstops⟩ := Process.andThen_stops hexit (w.controlled c
      (if es.head?.any Event.carriedOut then server else w.client.server) outcome) es.tail _
    rw [hrun]
    exact .inr ⟨exit', outcome, _, es.tail, hexit', houtcome, hstops⟩

namespace Session.Ready
variable {s : Session δ} (h : s.Ready)
include h

theorem transaction_none (hdepth : s.transactionDepth = 0) : s.client.server.transaction = none := by
  simpa using mt h.isOpen.mp (not_not.mpr hdepth)

theorem save_eq (hdepth : s.transactionDepth ≠ 0) :
    s.client.server.save (savepointName s.transactionDepth) = some s.begun := by
  obtain ⟨transaction, htransaction⟩ := Option.isSome_iff_exists.mp (h.isOpen.mpr hdepth)
  rw [begun, if_neg hdepth, Store.save, htransaction]
  rfl

theorem begun_open : s.begun.transaction.isSome = true := by
  by_cases hdepth : s.transactionDepth = 0
  · rw [begun, if_pos hdepth]
    exact s.client.server.isSome_begin
  · exact Store.isSome_save (h.save_eq hdepth)

theorem begun_data : s.begun.data = s.client.server.data := by
  by_cases hdepth : s.transactionDepth = 0
  · rw [begun, if_pos hdepth, Store.data_begin]
  · exact Store.data_save (h.save_eq hdepth)

theorem begun_durable : s.begun.durable = s.client.server.durable := by
  by_cases hdepth : s.transactionDepth = 0
  · rw [begun, if_pos hdepth, Store.durable_begin]
  · exact Store.durable_save (h.save_eq hdepth)

theorem restored_data : s.restored.data = s.client.server.data := by
  unfold restored
  split
  · rfl
  · exact h.begun_data

theorem restored_durable : s.restored.durable = s.client.server.durable := by
  unfold restored
  split
  · rfl
  · exact h.begun_durable

theorem restored_open : s.restored.transaction.isSome = true ↔ s.transactionDepth ≠ 0 := by
  unfold restored
  split
  · exact h.isOpen
  · exact iff_of_true h.begun_open ‹_›

/-- Beginning a level is a single call. -/
theorem beginTransaction_cases (es : List Event) :
    (∃ rest, es = .answered :: rest ∧ beginTransaction engine s es = ⟨.returned (),
      { s.controlled s.beginCall s.begun .answered with transactionDepth := s.transactionDepth + 1 }, rest⟩) ∨
    ∃ exit outcome, (∀ a, exit ≠ .returned a) ∧
      ((∃ e, exit = .failed e) → ∃ error applied, es.head? = some (.refused error applied)) ∧
      beginTransaction engine s es = ⟨exit, s.controlled s.beginCall
        (if es.head?.any Event.carriedOut then s.begun else s.client.server) outcome, es.tail⟩ := by
  have hcall : ∃ serve : Store Text δ → Option (Store Text δ), serve s.client.server = some s.begun ∧
      (if s.transactionDepth = 0 then TdsClient.beginTransaction
        else TdsClient.saveTransaction (savepointName s.transactionDepth)) =
        TdsClient.control s.beginCall serve := by
    by_cases hdepth : s.transactionDepth = 0
    · refine ⟨fun server => some server.begin, by rw [begun, if_pos hdepth], ?_⟩
      rw [if_pos hdepth, beginCall, if_pos hdepth]
      rfl
    · refine ⟨fun server => server.save (savepointName s.transactionDepth), h.save_eq hdepth, ?_⟩
      rw [if_neg hdepth, beginCall, if_neg hdepth]
      rfl
  obtain ⟨serve, hserve, hcall⟩ := hcall
  rw [beginTransaction, Process.bind_run, drainPending_idle engine h.reset h.settled, Process.andThen_returned,
    Process.bind_run, Process.get_run, Process.andThen_returned, hcall, Process.bind_run]
  rcases control_cases engine s es (c := s.beginCall) "failed to begin a transaction" hserve with
    ⟨rest, rfl, hrun⟩ | ⟨exit, outcome, hexit, -, -, hrefused, hrun⟩
  · rw [hrun]
    exact .inl ⟨rest, rfl, rfl⟩
  · obtain ⟨exit', hexit', hfailed, hstops⟩ := Process.andThen_stops hexit (s.controlled s.beginCall
      (if es.head?.any Event.carriedOut then s.begun else s.client.server) outcome) es.tail _
    rw [hrun]
    exact .inr ⟨exit', outcome, hexit', fun he => hrefused (hfailed he), hstops⟩

/-- Rolling back the level in which work has been done is a single call. -/
theorem rollbackTransaction_cases {w : Session δ} (hw : s.begun.Worked w.client.server)
    (hdepth : w.transactionDepth = s.transactionDepth + 1) (es : List Event) :
    (∃ rest, rollbackTransaction engine w es = ⟨.returned (),
      { w.controlled s.rollbackCall s.restored .answered with transactionDepth := s.transactionDepth }, rest⟩) ∨
    ∃ exit outcome server rest, (∀ a, exit ≠ .returned a) ∧ outcome ≠ .answered ∧
      rollbackTransaction engine w es = ⟨exit, w.controlled s.rollbackCall server outcome, rest⟩ := by
  have hcall : ∃ (serve : Store Text δ → Option (Store Text δ)) (context : String),
      serve w.client.server = some s.restored ∧ rollbackTransaction engine w es =
        (call engine (TdsClient.control s.rollbackCall serve) context >>= fun _ =>
          Process.update fun t => { t with transactionDepth := t.transactionDepth - 1 }) w es := by
    by_cases h0 : s.transactionDepth = 0
    · refine ⟨Store.rollback, "failed to roll back the transaction", ?_, ?_⟩
      · rw [restored, if_pos h0]
        rw [begun, if_pos h0] at hw
        exact hw.rollback_begin (h.transaction_none h0)
      · simp [rollbackTransaction, Process.when, hdepth, h0, rollbackCall]
        rfl
    · refine ⟨Store.rollbackTo (savepointName s.transactionDepth),
        "failed to roll back to the nested transaction savepoint", ?_, ?_⟩
      · rw [restored, if_neg h0]
        exact hw.rollbackTo_save (h.save_eq h0)
      · simp [rollbackTransaction, Process.when, hdepth, h0, rollbackCall]
        rfl
  obtain ⟨serve, context, hserve, hcall⟩ := hcall
  exact lowering_cases engine context hserve hdepth es hcall

end Session.Ready

/-- Committing the level sends a call only for the outermost one. -/
theorem commitTransaction_cases {w : Session δ} (hw : w.client.server.transaction.isSome = true) {depth : ℕ}
    (hdepth : w.transactionDepth = depth + 1) (es : List Event) :
    (∃ rest, depth = 0 ∧ commitTransaction engine w es = ⟨.returned (),
      { w.controlled .commitTransaction ⟨w.client.server.data, none⟩ .answered with transactionDepth := 0 }, rest⟩) ∨
    (depth ≠ 0 ∧ commitTransaction engine w es =
      ⟨.returned (), { w with transactionDepth := depth }, es⟩) ∨
    ∃ exit outcome server rest, depth = 0 ∧ (∀ a, exit ≠ .returned a) ∧ outcome ≠ .answered ∧
      commitTransaction engine w es = ⟨exit, w.controlled .commitTransaction server outcome, rest⟩ := by
  by_cases h0 : depth = 0
  · have hcommit : w.client.server.commit = some ⟨w.client.server.data, none⟩ := by
      obtain ⟨transaction, htransaction⟩ := Option.isSome_iff_exists.mp hw
      rw [Store.commit, Store.data, htransaction]
      rfl
    have hcall : commitTransaction engine w es =
        (call engine (TdsClient.control .commitTransaction Store.commit) "failed to commit the transaction"
          >>= fun _ => Process.update fun t => { t with transactionDepth := t.transactionDepth - 1 }) w es := by
      simp [commitTransaction, Process.when, hdepth, h0]
      rfl
    rcases lowering_cases engine _ hcommit hdepth es hcall with ⟨rest, hrun⟩ | ⟨exit, outcome, server, rest, hstops⟩
    · exact .inl ⟨rest, h0, h0 ▸ hrun⟩
    · exact .inr (.inr ⟨exit, outcome, server, rest, h0, hstops⟩)
  · refine .inr (.inl ⟨h0, ?_⟩)
    simp [commitTransaction, Process.when, hdepth, h0]

section Ends
variable {engine} {s : Session δ} (firstSql secondSql : Text)

/-- The session in which the statements of a migration start. -/
def Session.inLevel (s : Session δ) : Session δ :=
  { s.controlled s.beginCall s.begun .answered with transactionDepth := s.transactionDepth + 1 }

/-- How a migration in a level of its own ends: its begin stops, it is done, it has been
rolled back, its commit or rollback stops, or it is dropped within its statements. -/
inductive Session.MigrationEnds (engine : SqlEngine δ) (s : Session δ) (es : List Event) :
    Exit SqlxError Unit → Session δ → Prop
  | unbegun {exit : Exit SqlxError Unit} (outcome : CallOutcome) (hexit : ∀ a, exit ≠ .returned a)
      (hrefused : (∃ e, exit = .failed e) → ∃ error applied, es.head? = some (.refused error applied)) :
      MigrationEnds engine s es exit (s.controlled s.beginCall
        (if es.head?.any Event.carriedOut then s.begun else s.client.server) outcome)
  | committed {w : Session δ} (hran : s.inLevel.RanBoth engine firstSql secondSql true w)
      (hdepth : s.transactionDepth = 0) :
      MigrationEnds engine s es (.returned ()) { w.controlled .commitTransaction
        ⟨w.client.server.data, none⟩ .answered with transactionDepth := 0 }
  | kept {w : Session δ} (hran : s.inLevel.RanBoth engine firstSql secondSql true w)
      (hdepth : s.transactionDepth ≠ 0) :
      MigrationEnds engine s es (.returned ()) { w with transactionDepth := s.transactionDepth }
  | rolledBack {w : Session δ} (hran : s.inLevel.RanBoth engine firstSql secondSql false w)
      (hbegun : es.head? = some .answered) (e : SqlxError) :
      MigrationEnds engine s es (.failed e) { w.controlled s.rollbackCall s.restored .answered with
        transactionDepth := s.transactionDepth }
  | stuck {w : Session δ} {returned : Bool}
      (hran : s.inLevel.RanBoth engine firstSql secondSql returned w) (c : ClientCall)
      (hc : c = s.rollbackCall ∨ c = .commitTransaction) (server : Store Text δ) (outcome : CallOutcome)
      (houtcome : outcome ≠ .answered) {exit : Exit SqlxError Unit} (hexit : ∀ a, exit ≠ .returned a) :
      MigrationEnds engine s es exit (w.controlled c server outcome)
  | dropped (w : Session δ) {exit : Exit SqlxError Unit} (hexit : ∀ a, exit ≠ .returned a)
      (hfailed : ∀ e, exit ≠ .failed e) : MigrationEnds engine s es exit w

/-- The statements work in the level that has been begun. -/
theorem Session.Ready.worked (h : s.Ready) {returned : Bool} {w : Session δ}
    (hran : s.inLevel.RanBoth engine firstSql secondSql returned w) : s.begun.Worked w.client.server := by
  have hstart : s.begun.Worked s.begun := .refl h.begun_open
  rcases hran.server with hserver | ⟨-, hserver | hserver⟩
  · rw [hserver]
    exact (hstart.run _).run _
  · rw [hserver]
    exact hstart
  · rw [hserver]
    exact hstart.run _

theorem runMigrationPair_ends (h : s.Ready) (es : List Event) :
    s.MigrationEnds firstSql secondSql engine es
      (runMigrationPair engine firstSql secondSql false s es).exit
      (runMigrationPair engine firstSql secondSql false s es).state := by
  simp only [runMigrationPair, Bool.false_eq_true, if_false]
  rw [Process.bind_run]
  rcases h.beginTransaction_cases engine es with
    ⟨rest, rfl, hbegin⟩ | ⟨exit, outcome, hexit, hrefused, hbegin⟩
  swap
  · obtain ⟨exit', hexit', hfailed, hstops⟩ := Process.andThen_stops hexit (s.controlled s.beginCall
      (if es.head?.any Event.carriedOut then s.begun else s.client.server) outcome) es.tail _
    rw [hbegin, hstops]
    exact .unbegun outcome hexit' fun he => hrefused (hfailed he)
  rw [hbegin, Process.andThen_returned, Process.bind_run]
  change s.MigrationEnds firstSql secondSql engine _ (Process.andThen (Process.attempt _ s.inLevel rest) _).exit
    (Process.andThen (Process.attempt _ s.inLevel rest) _).state
  have hran := bothStatements_ran engine firstSql secondSql (s := s.inLevel) h.reset h.settled rest
  rcases hboth : (do execSql engine firstSql; execSql engine secondSql : Operation δ Unit) s.inLevel rest with
    ⟨exit, w, rest'⟩
  replace hran : s.inLevel.RanBoth engine firstSql secondSql exit.isReturned w := by simpa only [hboth] using hran
  simp only [Process.attempt, hboth]
  have hdepth : w.transactionDepth = s.transactionDepth + 1 := hran.depth
  cases exit with
  | returned a =>
    change s.MigrationEnds firstSql secondSql engine _ (commitTransaction engine w rest').exit
      (commitTransaction engine w rest').state
    rcases commitTransaction_cases engine (h.worked firstSql secondSql hran).isSome hdepth rest' with
      ⟨rest'', h0, hcommit⟩ | ⟨h0, hcommit⟩ | ⟨exit, outcome, server, rest'', h0, hexit, houtcome, hcommit⟩
    · rw [hcommit]
      exact .committed hran h0
    · rw [hcommit]
      exact .kept hran h0
    · rw [hcommit]
      exact .stuck hran _ (.inr rfl) server outcome houtcome hexit
  | failed e =>
    change s.MigrationEnds firstSql secondSql engine _
      (Process.andThen (Process.attempt (rollbackTransaction engine) w rest') fun _ => Process.fail e).exit
      (Process.andThen (Process.attempt (rollbackTransaction engine) w rest') fun _ => Process.fail e).state
    rw [Process.attempt]
    rcases h.rollbackTransaction_cases engine (h.worked firstSql secondSql hran) hdepth rest' with
      ⟨rest'', hrollback⟩ | ⟨exit, outcome, server, rest'', hexit, houtcome, hrollback⟩
    · rw [hrollback]
      exact .rolledBack hran rfl e
    · rw [hrollback]
      cases exit with
      | returned a => exact absurd rfl (hexit a)
      | failed e' => exact .stuck hran _ (.inl rfl) server outcome houtcome (by simp [Process.fail])
      | dropped p => exact .stuck hran _ (.inl rfl) server outcome houtcome (by simp)
      | aborted a => exact .stuck hran _ (.inl rfl) server outcome houtcome (by simp)
  | dropped p => exact .dropped w (by simp) (by simp)
  | aborted a => exact .dropped w (by simp) (by simp)

end Ends

/-- Each commit and rollback of a use was answered. -/
def CleanedUp (s t : Session δ) : Prop := ∀ c ∈ calls (s.since t), c.1.EndsLevel → c.2 = .answered

instance (s t : Session δ) : Decidable (CleanedUp s t) :=
  inferInstanceAs (Decidable (∀ c ∈ calls (s.since t), c.1.EndsLevel → c.2 = .answered))

/-- A begin that is reported as failed has not been carried out. -/
def BeginReported (es : List Event) : Prop := ∀ error, es.head? ≠ some (.refused error true)

section Outcomes
variable {engine} {s : Session δ} {firstSql secondSql : Text}

theorem Session.Ready.data_ran (h : s.Ready) {w : Session δ}
    (hran : s.inLevel.RanBoth engine firstSql secondSql true w) : w.client.server.data =
      engine.effect ⟨secondSql, []⟩ (engine.effect ⟨firstSql, []⟩ s.client.server.data) := by
  have hserver : w.client.server =
      (s.begun.run (engine.effect ⟨firstSql, []⟩)).run (engine.effect ⟨secondSql, []⟩) := by
    rcases hran.server with hserver | ⟨hstopped, -⟩
    · exact hserver
    · exact absurd hstopped (by simp)
  rw [hserver, Store.data_run, Store.data_run, h.begun_data]

/-- The calls of a migration: its begin, its statements, and what came after them. -/
theorem Session.RanBoth.calls_since {w t : Session δ} {returned : Bool}
    (hran : s.inLevel.RanBoth engine firstSql secondSql returned w) {later : List Happening}
    (ht : t.trace = w.trace ++ later) :
    ∃ made, calls (s.since t) = (s.beginCall, .answered) :: (made ++ calls later) ∧
      (∀ c ∈ made, ¬ c.1.IsControl) ∧ (returned = true →
        statementsIn made = [(.execute firstSql, .answered), (.execute secondSql, .answered)]) := by
  obtain ⟨made, hmade, hquiet, hstatements⟩ := hran.trace
  refine ⟨calls made, ?_, hquiet, hstatements⟩
  have htrace : t.trace = s.trace ++ (.called s.beginCall .answered :: (made ++ later)) := by
    rw [ht, hmade, inLevel, controlled, record]
    simp
  rw [SqlxMssql.calls_since _ htrace, ← calls_append]
  rfl

theorem Session.RanBoth.statements {w t : Session δ}
    (hran : s.inLevel.RanBoth engine firstSql secondSql true w) (later : List Happening)
    (hlater : statementsIn (calls later) = []) (ht : t.trace = w.trace ++ later) :
    statementsIn (calls (s.since t)) = [(.execute firstSql, .answered), (.execute secondSql, .answered)] := by
  obtain ⟨made, hmade, -, hstatements⟩ := hran.calls_since ht
  have hbegin : decide s.beginCall.IsRequest = false := by
    unfold beginCall
    split <;> rfl
  have hsplit : statementsIn (made ++ calls later) = statementsIn made ++ statementsIn (calls later) :=
    List.filter_append _ _
  rw [hmade, statementsIn, List.filter_cons_of_neg (by simp [hbegin]), ← statementsIn, hsplit, hstatements rfl,
    hlater, List.append_nil]

/-- A stuck commit or rollback shows in the trace. -/
theorem not_cleanedUp {w : Session δ} {returned : Bool}
    (hran : s.inLevel.RanBoth engine firstSql secondSql returned w) {c : ClientCall}
    (hc : c = s.rollbackCall ∨ c = .commitTransaction) {server : Store Text δ} {outcome : CallOutcome}
    (houtcome : outcome ≠ .answered) : ¬ CleanedUp s (w.controlled c server outcome) := by
  obtain ⟨made, hmade, -, -⟩ := hran.calls_since (t := w.controlled c server outcome) rfl
  intro hclean
  refine houtcome (hclean (c, outcome) ?_ ?_)
  · rw [hmade]
    simp [calls]
  · rcases hc with rfl | rfl
    · trivial
    · trivial

/-- A level whose rollback is answered is cleaned up. -/
theorem cleanedUp_rolledBack {w t : Session δ} {returned : Bool}
    (hran : s.inLevel.RanBoth engine firstSql secondSql returned w)
    (ht : t.trace = w.trace ++ [.called s.rollbackCall .answered]) : CleanedUp s t := by
  obtain ⟨made, hmade, hquiet, -⟩ := hran.calls_since ht
  intro c hc hends
  rw [hmade] at hc
  rcases List.mem_cons.mp hc with rfl | hc
  · exact absurd hends s.beginCall_endsLevel
  rcases List.mem_append.mp hc with hc | hc
  · exact absurd hends.isControl (hquiet c hc)
  · obtain rfl := List.mem_singleton.mp hc
    rfl

/-- A begin that stops leaves nothing to clean up. -/
theorem cleanedUp_unbegun (server : Store Text δ) (outcome : CallOutcome) :
    CleanedUp s (s.controlled s.beginCall server outcome) := by
  intro c hc hends
  rw [SqlxMssql.calls_since [.called s.beginCall outcome] rfl] at hc
  obtain rfl := List.mem_singleton.mp hc
  exact absurd hends s.beginCall_endsLevel

/-- The migration has returned, or it has failed and neither its commit nor its rollback has. -/
def Settled (s : Session δ) (o : Outcome Event (Session δ) SqlxError Unit) : Prop :=
  o.exit = .returned () ∨ (∃ e, o.exit = .failed e) ∧ CleanedUp s o.state

/-- A migration that returns has been applied whole, with both statements run once and in order.
One that fails, with its rollback carried out, has not been applied at all. Either way its level
is closed, and no transaction stays open over no level. -/
structure WholeOrNothing (engine : SqlEngine δ) (firstSql secondSql : Text) (s : Session δ)
    (o : Outcome Event (Session δ) SqlxError Unit) : Prop where
  whole : o.exit = .returned () →
    o.state.client.server.data =
        engine.effect ⟨secondSql, []⟩ (engine.effect ⟨firstSql, []⟩ s.client.server.data) ∧
      statementsIn (calls (s.since o.state)) = [(.execute firstSql, .answered), (.execute secondSql, .answered)]
  nothing : ∀ e, o.exit = .failed e → CleanedUp s o.state →
    o.state.client.server.data = s.client.server.data ∧ o.state.client.server.durable = s.client.server.durable
  depth : Settled s o → o.state.transactionDepth = s.transactionDepth
  closed : Settled s o → s.transactionDepth = 0 → o.state.client.server.transaction = none

theorem WholeOrNothing.of_unsettled {o : Outcome Event (Session δ) SqlxError Unit} (h : ¬ Settled s o) :
    WholeOrNothing engine firstSql secondSql s o where
  whole hreturned := absurd (.inl hreturned) h
  nothing e hfailed hclean := absurd (.inr ⟨⟨e, hfailed⟩, hclean⟩) h
  depth hsettled := absurd hsettled h
  closed hsettled := absurd hsettled h

theorem wholeOrNothing_of_reported (h : s.Ready) (firstSql secondSql : Text) {es : List Event}
    (hreported : s.transactionDepth ≠ 0 ∨ BeginReported es) :
    WholeOrNothing engine firstSql secondSql s (runMigrationPair engine firstSql secondSql false s es) := by
  have hends : s.MigrationEnds firstSql secondSql engine es _ _ := runMigrationPair_ends firstSql secondSql h es
  generalize runMigrationPair engine firstSql secondSql false s es = o at hends ⊢
  rcases o with ⟨exit, t, rest⟩
  change s.MigrationEnds firstSql secondSql engine es exit t at hends
  cases hends with
  | unbegun outcome hexit hrefused =>
    have hunsettled {P : Prop} (hreturned : exit = .returned ()) : P := absurd hreturned (hexit ())
    have hdata : (if es.head?.any Event.carriedOut then s.begun else s.client.server).data =
        s.client.server.data ∧ (if es.head?.any Event.carriedOut then s.begun else s.client.server).durable =
        s.client.server.durable := by
      split
      · exact ⟨h.begun_data, h.begun_durable⟩
      · exact ⟨rfl, rfl⟩
    refine ⟨hunsettled, fun _ _ _ => hdata, fun _ => rfl, fun hsettled hdepth => ?_⟩
    obtain ⟨error, applied, hhead⟩ := hrefused (hsettled.elim hunsettled And.left)
    obtain rfl : applied = false := by
      rw [← Bool.not_eq_true]
      rintro rfl
      exact hreported.resolve_left (not_not.mpr hdepth) error hhead
    change (if es.head?.any Event.carriedOut then s.begun else s.client.server).transaction = none
    rw [hhead]
    exact h.transaction_none hdepth
  | committed hran hdepth =>
    have hdata := h.data_ran hran
    refine ⟨fun _ => ⟨hdata, ?_⟩, nofun, fun _ => hdepth.symm, fun _ _ => rfl⟩
    exact hran.statements [.called .commitTransaction .answered] rfl rfl
  | kept hran hdepth =>
    have hdata := h.data_ran hran
    refine ⟨fun _ => ⟨hdata, ?_⟩, nofun, fun _ => rfl, fun _ h0 => absurd h0 hdepth⟩
    exact hran.statements [] rfl (List.append_nil _).symm
  | rolledBack hran hbegun e =>
    refine ⟨nofun, fun _ _ _ => ⟨h.restored_data, h.restored_durable⟩, fun _ => rfl, fun _ hdepth => ?_⟩
    exact Option.not_isSome_iff_eq_none.mp fun hopen => h.restored_open.mp hopen hdepth
  | stuck hran c hc server outcome houtcome hexit =>
    refine .of_unsettled ?_
    rintro (hreturned | ⟨-, hclean⟩)
    · exact hexit () hreturned
    · exact not_cleanedUp hran hc houtcome hclean
  | dropped w hexit hfailed =>
    refine .of_unsettled ?_
    rintro (hreturned | ⟨⟨e, he⟩, -⟩)
    · exact hexit () hreturned
    · exact hfailed e he

/-- A begin that is carried out and reported as failed ends the migration with an error, and
its transaction stays open. -/
theorem runMigrationPair_begin_refused (h : s.Ready) (hdepth : s.transactionDepth = 0) (firstSql secondSql : Text)
    (error : TdsError) (rest : List Event) :
    runMigrationPair engine firstSql secondSql false s (.refused error true :: rest) =
      ⟨.failed (databaseErrorWithContext error "failed to begin a transaction".toList),
        s.controlled s.beginCall s.begun .refused, rest⟩ := by
  have hbegin : beginTransaction engine s (.refused error true :: rest) =
      ⟨.failed (databaseErrorWithContext error "failed to begin a transaction".toList),
        s.controlled s.beginCall s.begun .refused, rest⟩ := by
    rw [beginTransaction, Process.bind_run, drainPending_idle engine h.reset h.settled, Process.andThen_returned,
      Process.bind_run, Process.get_run, Process.andThen_returned, if_pos hdepth, Process.bind_run, call_refused,
      Process.andThen_failed, Session.beginCall, Session.begun, if_pos hdepth, if_pos hdepth]
    rfl
  simp only [runMigrationPair, Bool.false_eq_true, if_false]
  rw [Process.bind_run, hbegin, Process.andThen_failed]

/-- A migration is applied whole or not at all, and leaves no transaction open, exactly when it
starts within a transaction or its begin is not reported as failed after it was carried out. -/
theorem migration_whole_or_nothing_iff (h : s.Ready) (firstSql secondSql : Text) (es : List Event) :
    WholeOrNothing engine firstSql secondSql s (runMigrationPair engine firstSql secondSql false s es) ↔
      s.transactionDepth ≠ 0 ∨ BeginReported es := by
  refine ⟨fun hwhole => or_iff_not_imp_left.mpr fun hdepth error hhead => ?_, wholeOrNothing_of_reported h _ _⟩
  obtain ⟨rest, rfl⟩ : ∃ rest, es = .refused error true :: rest := ⟨_, List.eq_cons_of_mem_head? hhead⟩
  rw [runMigrationPair_begin_refused h (not_not.mp hdepth)] at hwhole
  have hnone : s.begun.transaction = none :=
    hwhole.closed (.inr ⟨⟨_, rfl⟩, cleanedUp_unbegun s.begun .refused⟩) (not_not.mp hdepth)
  have hopen := h.begun_open
  rw [hnone] at hopen
  cases hopen

/-- The next draining rolls the transaction back, or none is open and no level is counted. -/
def Recoverable (t : Session δ) : Prop :=
  (t.client.server.transaction = none ∧ t.transactionDepth = 0) ∨ t.pendingRollback = true

/-- A migration that fails outside every transaction leaves a session that the next use can
recover exactly when no begin was carried out that is reported as failed, and no commit or
rollback failed. Then no transaction is open that a later statement could join. -/
theorem failed_migration_recoverable_iff (h : s.Ready) (hdepth : s.transactionDepth = 0)
    (firstSql secondSql : Text) (es : List Event) {e : SqlxError}
    (hfailed : (runMigrationPair engine firstSql secondSql false s es).exit = .failed e) :
    let t := (runMigrationPair engine firstSql secondSql false s es).state
    (Recoverable t ↔ BeginReported es ∧ CleanedUp s t) ∧
      (BeginReported es → CleanedUp s t → t.client.server.transaction = none) := by
  have hends : s.MigrationEnds firstSql secondSql engine es _ _ := runMigrationPair_ends firstSql secondSql h es
  rw [hfailed] at hends
  generalize (runMigrationPair engine firstSql secondSql false s es).state = t at hends ⊢
  change (Recoverable t ↔ BeginReported es ∧ CleanedUp s t) ∧
    (BeginReported es → CleanedUp s t → t.client.server.transaction = none)
  cases hends with
  | unbegun outcome hexit hrefused =>
    obtain ⟨error, applied, hhead⟩ := hrefused ⟨e, rfl⟩
    have hclean : CleanedUp s (s.controlled s.beginCall
        (if es.head?.any Event.carriedOut then s.begun else s.client.server) outcome) :=
      cleanedUp_unbegun _ outcome
    have hreported : BeginReported es ↔ applied = false := by
      cases applied <;> simp [BeginReported, hhead]
    have hserver : (if es.head?.any Event.carriedOut then s.begun else s.client.server).transaction = none ↔
        applied = false := by
      rw [hhead]
      cases applied with
      | false => exact iff_of_true (h.transaction_none hdepth) rfl
      | true =>
        refine iff_of_false (fun hnone => ?_) (by simp)
        have hopen := h.begun_open
        rw [show s.begun.transaction = none from hnone] at hopen
        exact absurd hopen Bool.false_ne_true
    have hsettled : ¬ s.pendingRollback = true := by simp [h.settled]
    constructor
    · constructor
      · rintro (⟨hnone, -⟩ | hpending)
        · exact ⟨hreported.mpr (hserver.mp hnone), hclean⟩
        · exact absurd hpending hsettled
      · intro hcond
        exact .inl ⟨hserver.mpr (hreported.mp hcond.1), hdepth⟩
    · intro hbegin _
      exact hserver.mpr (hreported.mp hbegin)
  | @rolledBack w hran hbegun e =>
    have hnone : s.restored.transaction = none :=
      Option.not_isSome_iff_eq_none.mp fun hopen => h.restored_open.mp hopen hdepth
    have hreported : BeginReported es := by simp [BeginReported, hbegun]
    have hclean : CleanedUp s { w.controlled s.rollbackCall s.restored .answered with
        transactionDepth := s.transactionDepth } := cleanedUp_rolledBack hran rfl
    exact ⟨iff_of_true (.inl ⟨hnone, hdepth⟩) ⟨hreported, hclean⟩, fun _ _ => hnone⟩
  | @stuck w _ hran c hc server outcome houtcome hexit =>
    have hclean : ¬ CleanedUp s (w.controlled c server outcome) := not_cleanedUp hran hc houtcome
    refine ⟨iff_of_false ?_ fun h => hclean h.2, fun _ h => absurd h hclean⟩
    rintro (⟨-, hlevel⟩ | hpending)
    · exact absurd (hran.depth.symm.trans hlevel) (by simp [Session.inLevel])
    · exact absurd (hran.settled.symm.trans hpending) Bool.false_ne_true
  | dropped w hexit hfailed => exact absurd rfl (hfailed e)

end Outcomes

def migrationSql : Text := "UPDATE counter".toList

def recordSql : Text := "INSERT INTO migrations".toList

/-- A level in which the migration is run, and its record refused. -/
def recordRefused : List Event := [.answered, .answered, .answered, .answered, .refused (.other []) true, .answered]

theorem connected_ready (data : δ) : (Session.connected data).Ready :=
  ⟨rfl, rfl, by simp [Session.connected]⟩

theorem recordRefused_undone :
    let o := runMigrationPair countingEngine migrationSql recordSql false (Session.connected 0) recordRefused
    o.exit = .failed (databaseErrorWithContext (.other []) "query failed".toList) ∧
      o.state.client.server.data = 0 ∧ o.state.transactionDepth = 0 ∧ o.state.client.server.transaction = none := by
  intro o
  have hfailed : o.exit = .failed (databaseErrorWithContext (.other []) "query failed".toList) := by decide
  have hclean : CleanedUp (Session.connected 0) o.state := by decide
  have hreported : BeginReported recordRefused := by simp [BeginReported, recordRefused]
  have hwhole : WholeOrNothing countingEngine migrationSql recordSql (Session.connected 0) o :=
    (migration_whole_or_nothing_iff (connected_ready 0) migrationSql recordSql recordRefused).mpr (.inr hreported)
  have hsettled : Settled (Session.connected 0) o := .inr ⟨⟨_, hfailed⟩, hclean⟩
  exact ⟨hfailed, (hwhole.nothing _ hfailed hclean).1, hwhole.depth hsettled, hwhole.closed hsettled rfl⟩

/-- A begin that is carried out and reported as failed: the migration fails, and its transaction
is open over no level. -/
theorem refused_begin_left_open : ¬ WholeOrNothing countingEngine migrationSql recordSql (Session.connected 0)
    (runMigrationPair countingEngine migrationSql recordSql false (Session.connected 0)
      [.refused (.other []) true]) := by
  intro h
  have hclean : CleanedUp (Session.connected 0) (runMigrationPair countingEngine migrationSql recordSql false
      (Session.connected 0) [.refused (.other []) true]).state := by decide
  have hclosed := h.closed (.inr ⟨⟨databaseErrorWithContext (.other []) "failed to begin a transaction".toList,
    by decide⟩, hclean⟩) rfl
  revert hclosed
  decide

theorem recordRefused_recoverable : Recoverable (runMigrationPair countingEngine migrationSql recordSql false
    (Session.connected 0) recordRefused).state := by
  have hfailed : (runMigrationPair countingEngine migrationSql recordSql false (Session.connected 0)
      recordRefused).exit = .failed (databaseErrorWithContext (.other []) "query failed".toList) := by decide
  have hreported : BeginReported recordRefused := by simp [BeginReported, recordRefused]
  have hrecoverable :=
    failed_migration_recoverable_iff (connected_ready 0) rfl migrationSql recordSql recordRefused hfailed
  exact hrecoverable.1.mpr ⟨hreported, by decide⟩

/-- The migration and its rollback are refused. The transaction stays open without a mark,
and a later statement joins it. -/
theorem refused_rollback_joined :
    let failed := runMigrationPair countingEngine migrationSql recordSql false (Session.connected 0)
      [.answered, .refused (.other []) false, .refused (.other []) false]
    let later := execSql countingEngine "UPDATE counter".toList failed.state [.answered, .answered, .answered]
    failed.exit = .failed (databaseErrorWithContext (.other []) "query failed".toList) ∧
      failed.state.client.server.transaction.isSome = true ∧ failed.state.transactionDepth = 1 ∧
      failed.state.pendingRollback = false ∧ later.exit = .returned () ∧
      later.state.client.server.data = 1 ∧ later.state.client.server.durable = 0 := by
  decide

end SqlxMssql
