import SqlxMssql.Connection.Uses

/-! # What is sent over a half-read result set

Every use that starts by draining the connection closes the unfinished result set before
it sends anything else. Committing and rolling back do not drain.
-/
namespace SqlxMssql
open Loops Utf8 Interaction ParamMarkers

variable {δ α β : Type} {engine : SqlEngine δ}

/-- The first call closes the result set, and nothing else is sent before it is answered. -/
def ClosesFirst : List (ClientCall × CallOutcome) → Prop
  | [] => True
  | (call, outcome) :: later => call = .closeQuery ∧ (outcome = .answered ∨ later = [])

instance : (made : List (ClientCall × CallOutcome)) → Decidable (ClosesFirst made)
  | [] => isTrue trivial
  | (call, outcome) :: later =>
    inferInstanceAs (Decidable (call = .closeQuery ∧ (outcome = .answered ∨ later = [])))

/-- Over a half-read result set the operation first closes it, and does nothing more when
the close is not answered. -/
def DrainsFirst (m : Operation δ α) : Prop := ∀ s es, s.needsReset = true →
  (∃ later, (m s es).state.trace = s.trace ++ .called .closeQuery .answered :: later) ∨
  ∃ outcome, (m s es).state.trace = s.trace ++ [.called .closeQuery outcome] ∧
    ∀ a, (m s es).exit ≠ .returned a

theorem DrainsFirst.bind {m : Operation δ α} {f : α → Operation δ β} (hm : DrainsFirst m)
    (hf : ∀ a, Within (traceFrame δ) (f a)) : DrainsFirst (m >>= f) := by
  intro s es hs
  have h := hm s es hs
  rw [Process.bind_run]
  rcases hrun : m s es with ⟨exit, t, rest⟩
  rw [hrun] at h
  cases exit with
  | returned a =>
    left
    rcases h with ⟨later, ht⟩ | ⟨outcome, ht, hexit⟩
    · obtain ⟨more, hmore⟩ := hf a t rest
      refine ⟨later ++ more, ?_⟩
      rw [Process.andThen_returned, ← hmore, ht]
      simp
    · exact absurd rfl (hexit a)
  | failed e => simpa using h
  | dropped p => simpa using h
  | aborted a => simpa using h

theorem DrainsFirst.drainPending : DrainsFirst (drainPending engine) := by
  refine DrainsFirst.bind (m := closeUnfinished engine) ?_ fun _ => admits_traceFrame.rollBackAbandoned
  intro s es hs
  rcases closeUnfinished_cases engine s es hs with ⟨rest, -, hrun⟩ | ⟨exit, outcome, hexit, -, -, -, hrun⟩
  · rw [hrun, Session.closed, if_pos hs]
    exact .inl ⟨[], rfl⟩
  · rw [hrun]
    exact .inr ⟨outcome, rfl, hexit⟩

def DrainsOrSilent (m : Operation δ α) : Prop := ∀ (s : Session δ) es, s.needsReset = true →
  ClosesFirst (calls (s.since (m s es).state))

theorem DrainsFirst.drainsOrSilent {m : Operation δ α} (hm : DrainsFirst m) : DrainsOrSilent m := by
  intro s es hs
  rcases hm s es hs with ⟨later, ht⟩ | ⟨outcome, ht, -⟩
  · simp [Session.since, ht, calls, ClosesFirst]
  · simp [Session.since, ht, calls, ClosesFirst]

def Silent (m : Operation δ α) : Prop := ∀ s es, (m s es).state = s

theorem Silent.drainsOrSilent {m : Operation δ α} (hm : Silent m) : DrainsOrSilent m := by
  intro s es _
  simp [Session.since, hm s es, calls, ClosesFirst]

def Use.Drains : Use → Prop
  | commit | rollback | startRollback | fetchMany _ (.error _) => False
  | _ => True

instance : (use : Use) → Decidable use.Drains
  | .commit | .rollback | .startRollback | .fetchMany _ (.error _) => isFalse id
  | .begin | .fetchMany _ (.ok _) | .describe _ | .ping | .collectRows _ | .queryRows _ | .execSql _ =>
    isTrue trivial

/-- The operation first drains, and then keeps within every frame that the single steps of
the operations keep within. -/
def Drained (engine : SqlEngine δ) (m : Operation δ α) : Prop :=
  ∃ f : Unit → Operation δ α, m = (drainPending engine >>= f) ∧ ∀ F, Admits engine F → ∀ a, Within F (f a)

theorem Drained.bind {m : Operation δ α} {g : α → Operation δ β} (h : Drained engine m)
    (hg : ∀ F, Admits engine F → ∀ a, Within F (g a)) : Drained engine (m >>= g) := by
  obtain ⟨f, rfl, hf⟩ := h
  exact ⟨_, Process.bind_assoc _ _ _, fun F hF a => Within.bind (hf F hF a) (hg F hF)⟩

theorem Drained.drainsFirst {m : Operation δ α} (h : Drained engine m) : DrainsFirst m := by
  obtain ⟨f, rfl, hf⟩ := h
  exact .bind .drainPending fun a => hf (traceFrame δ) admits_traceFrame a

section Operations
variable (engine) (features : Features)

theorem drained_collectRows (request : Request) : Drained engine (collectRows engine request) :=
  ⟨_, rfl, fun _ hF _ => Within.bind (hF.call _ _) fun _ => hF.readFirstRows _ _ _ _⟩

theorem drained_describe (sql : Text) : Silent ((Use.describe sql).operation engine features) ∨
    Drained engine ((Use.describe sql).operation engine features) := by
  cases hrewrite : rewriteParamMarkers sql with
  | error a =>
    left
    intro s es
    simp only [Use.operation, describeStatement, hrewrite]
    rfl
  | ok result =>
    right
    simp only [Use.operation, describeStatement, hrewrite]
    change Drained engine (((if 0 < result.2 then inferParameters engine features result.1
      else pure ⟨[], some []⟩) >>= _) >>= _)
    apply Drained.bind _ fun _ _ _ => Within.pure _
    by_cases hmarkers : 0 < result.2
    · rw [if_pos hmarkers]
      apply Drained.bind
      · exact (drained_collectRows engine _).bind fun _ _ _ => Within.lift _
      · intro F hF _
        exact Within.bind (hF.collectRows _) fun _ => Within.bind (Within.lift _) fun _ => Within.pure _
    · rw [if_neg hmarkers]
      change Drained engine (collectRows engine (firstResultSetRequest result.1 []) >>= _)
      apply (drained_collectRows engine _).bind
      intro F _ _
      exact Within.bind (Within.lift _) fun _ => Within.pure _

theorem drained_begin : Drained engine (beginTransaction engine) := by
  refine ⟨_, rfl, fun F hF _ => ?_⟩
  exact Within.bind Within.get fun _ => Within.bind (hF.call _ _) fun _ =>
    Within.update fun s => hF.transactionDepth _ s

theorem operation_drains (use : Use) (hdrains : use.Drains) :
    Silent (use.operation engine features : Operation δ Unit) ∨
      Drained engine (use.operation engine features) := by
  cases use with
  | begin => exact .inr (drained_begin engine)
  | commit | rollback | startRollback => exact absurd hdrains id
  | fetchMany sql arguments =>
    cases arguments with
    | error message => exact absurd hdrains id
    | ok arguments =>
      refine .inr ⟨_, rfl, fun F hF _ => ?_⟩
      exact Within.bind (Within.lift_request _) fun _ => Within.bind (hF.call _ _) fun _ =>
        hF.fetchResults _
  | describe sql => exact drained_describe engine features sql
  | ping => exact .inr ⟨_, rfl, fun F hF _ => Within.bind (hF.call _ _) fun _ => hF.closeQuery _⟩
  | collectRows request => exact .inr ((drained_collectRows engine request).bind fun _ _ _ => Within.pure _)
  | queryRows sql =>
    refine .inr (Drained.bind ⟨_, rfl, fun F hF _ => ?_⟩ fun _ _ _ => Within.pure _)
    exact Within.bind (hF.call _ _) fun _ => Within.bind (hF.readFirstRows _ _ _ _) fun _ => Within.pure _
  | execSql sql =>
    exact .inr ⟨_, rfl, fun F hF _ => Within.bind (hF.call _ _) fun _ => hF.skipResults _⟩

/-- Every use that neither commits nor rolls back a level drains before it sends. -/
theorem drainsOrSilent_operation (use : Use) (hcommit : use ≠ .commit) (hrollback : use ≠ .rollback) :
    DrainsOrSilent (δ := δ) (use.operation engine features) := by
  by_cases hdrains : use.Drains
  · rcases operation_drains engine features use hdrains with hsilent | hdrained
    · exact hsilent.drainsOrSilent
    · exact hdrained.drainsFirst.drainsOrSilent
  · cases use with
    | begin | describe | ping | collectRows | queryRows | execSql => exact absurd trivial hdrains
    | commit => exact absurd rfl hcommit
    | rollback => exact absurd rfl hrollback
    | startRollback =>
      intro s es _
      simp [Use.operation, queueRollback, Session.since, calls, ClosesFirst]
    | fetchMany sql arguments =>
      cases arguments with
      | error message => exact Silent.drainsOrSilent fun _ _ => rfl
      | ok arguments => exact absurd trivial hdrains

theorem not_closesFirst_of_first {s t : Session δ} {call : ClientCall} {outcome : CallOutcome}
    (hcall : call ≠ .closeQuery) (h : s.trace ++ [.called call outcome] <+: t.trace) :
    ¬ ClosesFirst (calls (s.since t)) := by
  obtain ⟨later, hlater⟩ := h
  simp [Session.since, ← hlater, calls, ClosesFirst, hcall]

theorem not_closesFirst_of_call {p : PendingCall δ α} {context : String} {f : α → Operation δ β}
    (hcall : p.call ≠ .closeQuery) (hf : ∀ a, Within (traceFrame δ) (f a)) (s : Session δ)
    (es : List Event) : ¬ ClosesFirst (calls (s.since ((call engine p context >>= f) s es).state)) := by
  rw [Process.bind_run]
  rcases call_cases engine p context s es with
    ⟨rest, server, -, -, hrun⟩ | ⟨exit, applied, outcome, rest, hexit, -, -, hrun⟩
  · rw [hrun]
    exact not_closesFirst_of_first hcall (hf _ (s.answer p server) rest)
  · rw [hrun, Process.andThen_stopped hexit]
    exact not_closesFirst_of_first hcall List.prefix_rfl

end Operations

section Levels
variable (engine) (features : Features) (s : Session δ) (es : List Event)

theorem commitTransaction_trace (h : s.transactionDepth ≠ 1) :
    (commitTransaction engine s es).state.trace = s.trace := by
  by_cases h0 : s.transactionDepth = 0
  · rw [commitTransaction_idle engine s es h0]
  · simp [commitTransaction, Process.when, h0, h]

theorem commitTransaction_sends (h : s.transactionDepth = 1) :
    ¬ ClosesFirst (calls (s.since (commitTransaction engine s es).state)) := by
  have hrun : commitTransaction engine s es =
      (call engine TdsClient.commitTransaction "failed to commit the transaction" >>= fun _ =>
        Process.update fun s => { s with transactionDepth := s.transactionDepth - 1 }) s es := by
    simp [commitTransaction, Process.when, h]
  rw [hrun]
  have hcall : (TdsClient.commitTransaction : PendingCall δ Unit).call ≠ .closeQuery := by
    simp [TdsClient.commitTransaction, TdsClient.control]
  refine not_closesFirst_of_call engine hcall (fun _ => ?_) s es
  exact Within.update fun _ => List.prefix_rfl

theorem rollbackTransaction_trace (h : s.transactionDepth = 0) :
    (rollbackTransaction engine s es).state.trace = s.trace := by
  rw [rollbackTransaction_idle engine s es h]

theorem rollbackTransaction_sends (h : s.transactionDepth ≠ 0) :
    ¬ ClosesFirst (calls (s.since (rollbackTransaction engine s es).state)) := by
  simp only [rollbackTransaction, Process.bind_run, Process.get_run, Process.andThen_returned,
    Process.when, h, ne_eq, not_false_eq_true, ↓reduceIte]
  have hcall (name : Option Text) :
      (TdsClient.rollbackTransaction name : PendingCall δ Unit).call ≠ .closeQuery := by
    simp [TdsClient.rollbackTransaction, TdsClient.control]
  refine not_closesFirst_of_call engine (hcall _) (fun _ => ?_) s es
  exact Within.update fun _ => List.prefix_rfl

/-- Over a half-read result set, a use closes it before it sends anything else, unless it
commits the outermost level or rolls back a level: these never do. -/
theorem closesFirst_iff (hs : s.needsReset = true) (use : Use) :
    ClosesFirst (calls (s.since (use.operation engine features s es).state)) ↔
      ¬ (use = .commit ∧ s.transactionDepth = 1 ∨ use = .rollback ∧ s.transactionDepth ≠ 0) := by
  by_cases hcommit : use = .commit
  · subst hcommit
    by_cases hdepth : s.transactionDepth = 1
    · simpa [hdepth, Use.operation] using commitTransaction_sends engine s es hdepth
    · simp [Use.operation, Session.since, commitTransaction_trace engine s es hdepth, calls, ClosesFirst,
        hdepth]
  by_cases hrollback : use = .rollback
  · subst hrollback
    by_cases hdepth : s.transactionDepth = 0
    · simp [Use.operation, Session.since, rollbackTransaction_trace engine s es hdepth, calls, ClosesFirst,
        hdepth]
    · simpa [hdepth, Use.operation] using rollbackTransaction_sends engine s es hdepth
  · simpa [hcommit, hrollback] using drainsOrSilent_operation engine features use hcommit hrollback s es hs

end Levels

/-- A transaction whose only query is dropped at its first row, as reading an optional row
drops it. -/
def partialFetch : List (Use × List Event) :=
  [(.begin, [.answered]), (.fetchMany "SELECT 1".toList (.ok none), [.answered, .answered])]

theorem closesFirst_iff_ping :
    let s := (Session.connected 0).after countingEngine allFeatures partialFetch
    ClosesFirst (calls (s.since (Use.ping.operation countingEngine allFeatures s []).state)) :=
  (closesFirst_iff countingEngine allFeatures _ _ (by decide) .ping).mpr (by simp)

/-- The commit is sent over the rows that are still unread. -/
theorem commit_over_unread_rows :
    let s := (Session.connected 0).after countingEngine allFeatures partialFetch
    s.needsReset = true ∧ s.client.unread = true ∧
      ¬ ClosesFirst (calls (s.since (Use.commit.operation countingEngine allFeatures s [.answered]).state)) := by
  decide

end SqlxMssql
