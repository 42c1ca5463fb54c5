import SqlxMssql.Connection.Recovery

/-! # Which transaction a queued rollback is for

A rollback is queued whenever an unfinished handle is dropped. It belongs to the open
transaction only when there is one, and when no handle around the dropped one still uses it.
-/
namespace SqlxMssql
open Loops Utf8 Interaction ParamMarkers Savepoints

variable {δ α : Type} (engine : SqlEngine δ) (features : Features)

/-- A session with the transaction handles that are not finished, innermost first. A handle
exists from the call of its begin on, and has begun when the begin has returned. -/
structure Owned (δ : Type) where
  session : Session δ
  handles : List Bool

/-- A commit or rollback that returns finishes its handle, and a handle that is dropped
starts a rollback. -/
def Owned.step (w : Owned δ) (u : Use × List Event) : Owned δ :=
  let o := u.1.operation engine features w.session u.2
  ⟨o.state, match u.1 with
    | .begin => o.exit.isReturned :: w.handles
    | .commit | .rollback => if o.exit.isReturned then w.handles.tail else w.handles
    | .startRollback => w.handles.tail
    | _ => w.handles⟩

def Owned.after (run : List (Use × List Event)) (w : Owned δ) : Owned δ :=
  run.foldl (Owned.step engine features) w

def Owned.connected (data : δ) : Owned δ := ⟨.connected data, []⟩

/-- The server has an open transaction, and no handle that has begun is left. -/
def Ownerless (s : Session δ) (handles : List Bool) : Prop :=
  s.client.server.transaction.isSome = true ∧ true ∉ handles

instance (s : Session δ) (handles : List Bool) : Decidable (Ownerless s handles) :=
  inferInstanceAs (Decidable (_ ∧ _))

/-- A pending rollback has a transaction to roll back that no handle owns. -/
def Owned.Matched (w : Owned δ) : Prop :=
  w.session.pendingRollback = true → Ownerless w.session w.handles

/-- A rollback is pending over no level only. -/
def Owned.Level (w : Owned δ) : Prop := w.session.pendingRollback = true → w.session.transactionDepth = 0

/-- Where a rollback is still pending after draining, nothing else has been done. -/
theorem drainPending_pending {s : Session δ} {es : List Event}
    (h : (drainPending engine s es).state.pendingRollback = true) :
    s.pendingRollback = true ∧ ∃ exit outcome rest, (∀ a, exit ≠ .returned a) ∧
      drainPending engine s es = ⟨exit, s.closing outcome, rest⟩ := by
  have hpending : s.pendingRollback = true := by
    by_contra hnone
    have hsettled := (admits_settledFrame engine).drainPending s es (by simpa using hnone)
    exact absurd (hsettled.symm.trans h) Bool.false_ne_true
  refine ⟨hpending, ?_⟩
  rcases drainPending_cases engine es hpending with
    ⟨exit, outcome, rest, hexit, -, hrun⟩ | ⟨exit, outcome, rest, -, -, hrun⟩ | ⟨rest, -, hrun⟩
  · exact ⟨exit, outcome, rest, hexit, hrun⟩
  · rw [hrun] at h
    exact absurd h Bool.false_ne_true
  · rw [hrun] at h
    exact absurd h Bool.false_ne_true

theorem Drained.still_pending {m : Operation δ α} (hm : Drained engine m) {s : Session δ} {es : List Event}
    (h : (m s es).state.pendingRollback = true) :
    s.pendingRollback = true ∧ (m s es).exit.isReturned = false ∧
      ∃ outcome, (m s es).state = s.closing outcome := by
  obtain ⟨f, rfl, hf⟩ := hm
  rw [Process.bind_run] at h ⊢
  by_cases hdrain : (drainPending engine s es).state.pendingRollback = true
  · obtain ⟨hpending, exit, outcome, rest, hexit, hrun⟩ := drainPending_pending engine hdrain
    rw [hrun]
    cases exit with
    | returned a => exact absurd rfl (hexit a)
    | failed e => exact ⟨hpending, rfl, outcome, rfl⟩
    | dropped p => exact ⟨hpending, rfl, outcome, rfl⟩
    | aborted a => exact ⟨hpending, rfl, outcome, rfl⟩
  · have hsettled : (Process.andThen (drainPending engine s es) f).state.pendingRollback = false := by
      apply Process.andThen_state (P := fun t : Session δ => t.pendingRollback = false)
      · simpa using hdrain
      · intro a
        exact hf _ (admits_settledFrame engine) a _ _ (by simpa using hdrain)
    exact absurd (hsettled.symm.trans h) Bool.false_ne_true

/-- Nothing has been begun, and the server and the level are as before. -/
structure Owned.Unmoved (w w' : Owned δ) : Prop where
  server : w'.session.client.server = w.session.client.server
  depth : w'.session.transactionDepth = w.session.transactionDepth
  handles : true ∈ w'.handles → true ∈ w.handles

theorem Owned.step_handles {w : Owned δ} {use : Use} {es : List Event} (hstart : use ≠ .startRollback)
    (hbegin : use = .begin → (use.operation engine features w.session es).exit.isReturned = false)
    (hmem : true ∈ (w.step engine features (use, es)).handles) : true ∈ w.handles := by
  cases use with
  | begin =>
    simp only [Owned.step, hbegin rfl] at hmem
    simpa using hmem
  | startRollback => exact absurd rfl hstart
  | commit | rollback =>
    simp only [Owned.step] at hmem
    split at hmem
    · exact List.mem_of_mem_tail hmem
    · exact hmem
  | fetchMany | describe | ping | collectRows | queryRows | execSql => exact hmem

/-- A use that leaves a rollback pending has found it pending, and has begun nothing. -/
theorem Owned.Level.still_pending {w : Owned δ} (h : w.Level) {u : Use × List Event}
    (hstart : u.1 ≠ .startRollback) (hpending : (w.step engine features u).session.pendingRollback = true) :
    w.session.pendingRollback = true ∧ w.Unmoved (w.step engine features u) := by
  rcases u with ⟨use, es⟩
  have hbefore : w.session.pendingRollback = true := by
    by_contra hnone
    have hsettled := (admits_settledFrame engine).operation features use hstart w.session es (by simpa using hnone)
    exact absurd (hsettled.symm.trans hpending) Bool.false_ne_true
  refine ⟨hbefore, ?_⟩
  have hsame (hstate : (use.operation engine features w.session es).state = w.session)
      (hbegin : use ≠ .begin) : w.Unmoved (w.step engine features (use, es)) := by
    refine ⟨congrArg (·.client.server) hstate, congrArg (·.transactionDepth) hstate, ?_⟩
    exact step_handles engine features hstart fun h => absurd h hbegin
  have hdrained (hm : Drained engine (use.operation engine features)) :
      w.Unmoved (w.step engine features (use, es)) := by
    obtain ⟨-, hexit, outcome, hstate⟩ := hm.still_pending engine hpending
    refine ⟨congrArg (·.client.server) hstate, congrArg (·.transactionDepth) hstate, ?_⟩
    exact step_handles engine features hstart fun _ => hexit
  by_cases hbegin : use = .begin
  · subst hbegin
    exact hdrained (drained_begin engine)
  by_cases hdrains : use.Drains
  · rcases operation_drains engine features use hdrains with hsilent | hm
    · exact hsame (hsilent w.session es) hbegin
    · exact hdrained hm
  · exact hsame (operation_idle engine features hdrains hstart (h hbefore) es) hbegin

theorem Owned.Level.step {w : Owned δ} (h : w.Level) (u : Use × List Event) :
    (w.step engine features u).Level := by
  by_cases hstart : u.1 = .startRollback
  · rcases u with ⟨use, es⟩
    obtain rfl : use = .startRollback := hstart
    exact fun _ => rfl
  · intro hpending
    obtain ⟨hbefore, hunmoved⟩ := h.still_pending engine features hstart hpending
    exact hunmoved.depth.trans (h hbefore)

theorem Owned.matched_startRollback (w : Owned δ) (es : List Event) :
    (w.step engine features (.startRollback, es)).Matched ↔ Ownerless w.session w.handles.tail := by
  constructor
  · intro h
    exact h rfl
  · intro h _
    exact h

theorem Owned.Matched.step {w : Owned δ} (h : w.Matched) (hlevel : w.Level) {u : Use × List Event}
    (hstart : u.1 ≠ .startRollback) : (w.step engine features u).Matched := by
  intro hpending
  obtain ⟨hbefore, hunmoved⟩ := hlevel.still_pending engine features hstart hpending
  obtain ⟨hopen, hhandles⟩ := h hbefore
  exact ⟨hunmoved.server ▸ hopen, fun hmem => hhandles (hunmoved.handles hmem)⟩

theorem Owned.Level.after (data : δ) (run : List (Use × List Event)) :
    ((Owned.connected data).after engine features run).Level := by
  induction run using List.reverseRecOn with
  | nil => exact fun _ => rfl
  | append_singleton run u ih =>
    rw [Owned.after, List.foldl_append]
    exact ih.step engine features u

theorem closeUnfinished_calls (s : Session δ) (es : List Event) :
    (closeUnfinished engine s es).state.pendingRollback = s.pendingRollback ∧
      ∃ made, (closeUnfinished engine s es).state.trace = s.trace ++ made ∧
        ∀ c ∈ calls made, c.1 = .closeQuery := by
  cases hreset : s.needsReset with
  | false =>
    rw [closeUnfinished_idle engine s es hreset]
    exact ⟨rfl, [], (List.append_nil _).symm, by simp [calls]⟩
  | true =>
    rcases closeUnfinished_cases engine s es hreset with
      ⟨rest, -, hrun⟩ | ⟨exit, outcome, -, -, -, -, hrun⟩
    · rw [hrun]
      exact ⟨s.closed_pendingRollback, closed_calls s⟩
    · rw [hrun]
      exact ⟨rfl, [.called .closeQuery outcome], rfl, by simp [calls]⟩

/-- Draining rolls back only what is pending. -/
theorem pending_of_drainPending_rollback {s : Session δ} {es : List Event} {outcome : CallOutcome}
    (h : (.rollbackTransaction none, outcome) ∈ calls (s.since (drainPending engine s es).state)) :
    s.pendingRollback = true := by
  by_contra hnone
  obtain ⟨hpending, made, hmade, hcloses⟩ := closeUnfinished_calls engine s es
  have hrun : (drainPending engine s es).state = (closeUnfinished engine s es).state := by
    rw [drainPending, Process.bind_run]
    rcases hclose : closeUnfinished engine s es with ⟨exit, t, rest⟩
    rw [hclose] at hpending
    cases exit with
    | returned a =>
      rw [Process.andThen_returned, rollBackAbandoned_idle engine t rest (hpending.trans (by simpa using hnone))]
    | failed e => rfl
    | dropped p => rfl
    | aborted a => rfl
  rw [hrun, calls_since _ hmade] at h
  exact absurd (hcloses _ h) (by simp)

/-- Whenever a rollback is pending there is a transaction to roll back that no handle owns,
and draining rolls back no other, exactly in the runs in which every handle is dropped over
an open transaction that no handle around it owns. -/
theorem queued_rollbacks_matched_iff (data : δ) (run : List (Use × List Event)) :
    (∀ before later, run = before ++ later →
      let w := (Owned.connected data).after engine features before
      w.Matched ∧ ∀ es outcome, (.rollbackTransaction none, outcome) ∈
        calls (w.session.since (drainPending engine w.session es).state) → Ownerless w.session w.handles) ↔
    ∀ before es later, run = before ++ (.startRollback, es) :: later →
      let w := (Owned.connected data).after engine features before
      Ownerless w.session w.handles.tail := by
  constructor
  · rintro h before es later rfl w
    have hafter := (h (before ++ [(.startRollback, es)]) later (by simp)).1
    rw [Owned.after, List.foldl_append] at hafter
    exact (w.matched_startRollback engine features es).mp hafter
  · intro h before later hrun w
    suffices hmatched : w.Matched from
      ⟨hmatched, fun es outcome hsends => hmatched (pending_of_drainPending_rollback engine hsends)⟩
    induction before using List.reverseRecOn generalizing later with
    | nil => exact fun hpending => absurd hpending Bool.false_ne_true
    | append_singleton before u ih =>
      subst hrun
      have hbefore := ih (u :: later) (by simp)
      have hw : w = ((Owned.connected data).after engine features before).step engine features u := by
        simp [w, Owned.after]
      rw [hw]
      by_cases hstart : u.1 = .startRollback
      · rcases u with ⟨use, es⟩
        obtain rfl : use = .startRollback := hstart
        rw [Owned.matched_startRollback]
        exact h before es later (by simp)
      · exact hbefore.step engine features (Owned.Level.after engine features data before) hstart

/-- A begin that is refused, and an inner level that is dropped inside a live one. -/
theorem dropped_handles_unmatched :
    let refused := (Owned.connected 0).after countingEngine allFeatures
      [(.begin, [.refused (.other []) false]), (.startRollback, [])]
    let inner := (Owned.connected 0).after countingEngine allFeatures
      [(.begin, [.answered]), countOnce, (.begin, [.refused (.other []) false]), (.startRollback, [])]
    let drained := (ping countingEngine inner.session [.answered]).state
    refused.session.pendingRollback = true ∧ refused.session.client.server.transaction = none ∧
      inner.session.pendingRollback = true ∧ inner.handles = [true] ∧
      drained.client.server.transaction = none ∧ drained.client.server.durable = 0 := by
  decide

end SqlxMssql
