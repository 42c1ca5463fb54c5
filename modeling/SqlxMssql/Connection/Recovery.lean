import SqlxMssql.Connection.EarlyStops

/-! # What a drain leaves behind when it stops

Draining clears each mark before it makes the call that the mark asks for. When the call
fails, the mark is lost with it: the response stays unread, or the abandoned transaction
stays open, and nothing asks for another try.
-/
namespace SqlxMssql
open Loops Utf8 Interaction ParamMarkers Savepoints

variable {δ α β : Type} (engine : SqlEngine δ) (features : Features)

/-- What the marks asked for and is not done is still marked. -/
structure StillMarked (s t : Session δ) : Prop where
  reset : s.needsReset = true → t.client.unread = true → t.needsReset = true
  rollback : s.pendingRollback = true → t.client.server.transaction.isSome = true → t.pendingRollback = true

/-- The close is refused over an unread response. -/
def LosesReset (s : Session δ) (es : List Event) : Prop :=
  s.needsReset = true ∧ s.client.unread = true ∧
    ∃ error applied, es.head? = some (.refused error applied)

/-- The event that the rollback of an abandoned transaction meets, behind the close. -/
def rollbackEvent (s : Session δ) (es : List Event) : Option Event :=
  if s.needsReset then if es.head? = some .answered then es.tail.head? else none else es.head?

/-- The rollback is refused, and the server has not carried it out. -/
def LosesRollback (s : Session δ) (es : List Event) : Prop :=
  s.pendingRollback = true ∧ s.client.server.transaction.isSome = true ∧
    ∃ error, rollbackEvent s es = some (.refused error false)

theorem rollBackAbandoned_marks (s : Session δ) (es : List Event) :
    (markFrame δ).rel s (rollBackAbandoned engine s es).state := by
  refine Within.bind Within.get (fun _ => Within.when (Within.bind (Within.update fun _ => ?_) fun _ => ?_)) s es
  · exact ⟨rfl, rfl⟩
  · exact control_within_markFrame _ _ _

/-- A rollback that fails loses its mark, which matters exactly when it has been refused
over an open transaction and not been carried out. -/
theorem rollback_marked_iff {s : Session δ} {es : List Event} {e : SqlxError}
    (hfail : (rollBackAbandoned engine s es).exit = .failed e) :
    (s.pendingRollback = true →
      (rollBackAbandoned engine s es).state.client.server.transaction.isSome = true →
      (rollBackAbandoned engine s es).state.pendingRollback = true) ↔
    ¬ (s.pendingRollback = true ∧ s.client.server.transaction.isSome = true ∧
      ∃ error, es.head? = some (.refused error false)) := by
  cases hpending : s.pendingRollback with
  | false => simp [rollBackAbandoned_idle engine s es hpending] at hfail
  | true =>
    rcases rollBackAbandoned_cases engine s es hpending with
      ⟨rest, -, -, hrun⟩ | ⟨exit, outcome, -, -, hnone, hevent, hrun⟩
    · simp [hrun] at hfail
    rw [hrun] at hfail ⊢
    obtain ⟨event, hhead, hcut⟩ := hevent ⟨e, hfail⟩
    cases event with
    | answered => simp [hnone hhead, hhead, Session.rolledBack, Session.record, Event.carriedOut]
    | refused error applied =>
      cases applied with
      | false => simp [hhead, Session.rolledBack, Session.record, Event.carriedOut]
      | true => simp [hhead, Session.rolledBack, Session.record, Event.carriedOut]
    | cut applied => exact absurd rfl (hcut applied)

/-- When draining fails, exactly the refused calls whose work is not done have lost their
marks. -/
theorem stillMarked_iff {s : Session δ} {es : List Event} {e : SqlxError}
    (hfail : (drainPending engine s es).exit = .failed e) :
    StillMarked s (drainPending engine s es).state ↔ ¬ LosesReset s es ∧ ¬ LosesRollback s es := by
  cases hreset : s.needsReset with
  | false =>
    have hrun : drainPending engine s es = rollBackAbandoned engine s es := by
      rw [drainPending, Process.bind_run, closeUnfinished_idle engine s es hreset, Process.andThen_returned]
    rw [hrun] at hfail ⊢
    have hmarked := rollback_marked_iff engine hfail
    simp only [LosesReset, LosesRollback, rollbackEvent, hreset, Bool.false_eq_true, false_and,
      not_false_eq_true, true_and, ↓reduceIte, ← hmarked]
    exact ⟨fun h => h.rollback, fun h => ⟨by simp [hreset], h⟩⟩
  | true =>
    rcases closeUnfinished_cases engine s es hreset with
      ⟨rest, rfl, hclose⟩ | ⟨exit, outcome, hexit, -, hhead, hrefused, hclose⟩
    · have hrun : drainPending engine s (.answered :: rest) = rollBackAbandoned engine s.closed rest := by
        rw [drainPending, Process.bind_run, hclose, Process.andThen_returned]
      rw [hrun] at hfail ⊢
      have hmarked := rollback_marked_iff engine hfail
      rw [Session.closed_pendingRollback, Session.closed_server] at hmarked
      have hread : (rollBackAbandoned engine s.closed rest).state.client.unread = false := by
        rw [(rollBackAbandoned_marks engine s.closed rest).1, Session.closed, if_pos hreset]
        rfl
      have hreset' : ¬ LosesReset s (.answered :: rest) := by simp [LosesReset]
      have hrollback : rollbackEvent s (.answered :: rest) = rest.head? := by simp [rollbackEvent, hreset]
      rw [LosesRollback, hrollback, ← hmarked]
      constructor
      · intro h
        exact ⟨hreset', h.rollback⟩
      · rintro ⟨-, h⟩
        exact ⟨fun _ hunread => absurd (hread.symm.trans hunread) Bool.false_ne_true, h⟩
    · obtain ⟨exit', -, hfailed, hstop⟩ :=
        Process.andThen_stops hexit (s.closing outcome) es.tail fun _ => rollBackAbandoned engine
      rw [drainPending, Process.bind_run, hclose, hstop] at hfail ⊢
      have hrefused := hrefused (hfailed ⟨e, hfail⟩)
      have hrollback : ¬ LosesRollback s es := by
        simp [LosesRollback, rollbackEvent, hreset, hhead]
      simp only [LosesReset, hreset, hrefused, hrollback, and_true, true_and, not_false_eq_true]
      constructor
      · intro h hunread
        exact absurd (h.reset hreset hunread) Bool.false_ne_true
      · intro h
        exact ⟨fun _ hunread => absurd hunread h, fun hpending _ => hpending⟩

/-- How draining goes on a session with a pending rollback: it stops at the close, it stops
at the rollback, or it has rolled back. -/
theorem drainPending_cases {s : Session δ} (es : List Event) (hpending : s.pendingRollback = true) :
    (∃ exit outcome rest, (∀ a, exit ≠ .returned a) ∧ s.needsReset = true ∧
      drainPending engine s es = ⟨exit, s.closing outcome, rest⟩) ∨
    (∃ exit outcome rest, (∀ a, exit ≠ .returned a) ∧
      (s.needsReset = true → es.head? = some .answered) ∧
      drainPending engine s es =
        ⟨exit, s.closed.rolledBack ((rollbackEvent s es).any Event.carriedOut) outcome, rest⟩) ∨
    ∃ rest, s.client.server.transaction.isSome = true ∧
      drainPending engine s es = ⟨.returned (), s.closed.rolledBack true .answered, rest⟩ := by
  have hbehind {rest : List Event} (hclose : closeUnfinished engine s es = ⟨.returned (), s.closed, rest⟩)
      (hanswered : s.needsReset = true → es.head? = some .answered)
      (hevent : rollbackEvent s es = rest.head?) :
      (∃ exit outcome rest, (∀ a, exit ≠ .returned a) ∧
        (s.needsReset = true → es.head? = some .answered) ∧
        drainPending engine s es =
          ⟨exit, s.closed.rolledBack ((rollbackEvent s es).any Event.carriedOut) outcome, rest⟩) ∨
      ∃ rest, s.client.server.transaction.isSome = true ∧
        drainPending engine s es = ⟨.returned (), s.closed.rolledBack true .answered, rest⟩ := by
    rw [drainPending, Process.bind_run, hclose, Process.andThen_returned, hevent]
    rcases rollBackAbandoned_cases engine s.closed rest (s.closed_pendingRollback.trans hpending) with
      ⟨rest, rfl, hopen, hrun⟩ | ⟨exit, outcome, hexit, -, -, -, hrun⟩
    · rw [Session.closed_server] at hopen
      exact .inr ⟨rest, hopen, hrun⟩
    · exact .inl ⟨exit, outcome, _, hexit, hanswered, hrun⟩
  cases hreset : s.needsReset with
  | false =>
    rw [hreset] at hbehind
    right
    apply @hbehind es
    · rw [closeUnfinished_idle engine s es hreset, s.closed_idle hreset]
    · simp
    · simp [rollbackEvent, hreset]
  | true =>
    rcases closeUnfinished_cases engine s es hreset with
      ⟨rest, rfl, hclose⟩ | ⟨exit, outcome, hexit, -, -, -, hclose⟩
    · rw [hreset] at hbehind
      right
      apply hbehind hclose
      · simp
      · simp [rollbackEvent, hreset]
    · obtain ⟨exit', hexit', -, hstop⟩ :=
        Process.andThen_stops hexit (s.closing outcome) es.tail fun _ => rollBackAbandoned engine
      refine .inl ⟨exit', outcome, es.tail, hexit', rfl, ?_⟩
      rw [drainPending, Process.bind_run, hclose, hstop]

/-- The call runs a statement. -/
def ClientCall.IsRequest : ClientCall → Prop
  | execute _ | executeSpExecutesql _ => True
  | _ => False

instance : (call : ClientCall) → Decidable call.IsRequest
  | .execute _ | .executeSpExecutesql _ => isTrue trivial
  | .closeQuery | .beginTransaction | .saveTransaction _ | .commitTransaction | .rollbackTransaction _
  | .advance | .advanceToRows | .nextRow | .createClient _ _ | .closeConnection => isFalse id

/-- No statement is run before a rollback of the whole transaction has been answered. -/
def RollsBackFirst : List (ClientCall × CallOutcome) → Prop
  | [] => True
  | (call, outcome) :: later =>
    (call = .rollbackTransaction none ∧ outcome = .answered) ∨ (¬ call.IsRequest ∧ RollsBackFirst later)

instance RollsBackFirst.decidable :
    (made : List (ClientCall × CallOutcome)) → Decidable (RollsBackFirst made)
  | [] => isTrue trivial
  | (call, outcome) :: later =>
    have := RollsBackFirst.decidable later
    inferInstanceAs (Decidable ((call = .rollbackTransaction none ∧ outcome = .answered) ∨
      (¬ call.IsRequest ∧ RollsBackFirst later)))

/-- The call has ended the transaction of the server. -/
def EndsTransaction (made : ClientCall × CallOutcome) : Prop :=
  made = (.commitTransaction, .answered) ∨ made = (.rollbackTransaction none, .answered)

instance (made : ClientCall × CallOutcome) : Decidable (EndsTransaction made) :=
  inferInstanceAs (Decidable (_ ∨ _))

/-- The transaction that the server had open before a use is still open after it. -/
def Outlasts (s t : Session δ) : Prop :=
  t.client.server.transaction.isSome = true ∧ ∀ made ∈ calls (s.since t), ¬ EndsTransaction made

instance (s t : Session δ) : Decidable (Outlasts s t) := inferInstanceAs (Decidable (_ ∧ _))

/-- A session, and whether the transaction that the server has open was abandoned. -/
structure Watched (δ : Type) where
  session : Session δ
  abandoned : Bool

def Watched.step (w : Watched δ) (u : Use × List Event) : Watched δ :=
  let t := (u.1.operation engine features w.session u.2).state
  ⟨t, match u.1 with
    | .startRollback => t.client.server.transaction.isSome
    | _ => w.abandoned && decide (Outlasts w.session t)⟩

def Watched.after (run : List (Use × List Event)) (w : Watched δ) : Watched δ :=
  run.foldl (Watched.step engine features) w

/-- A rollback of the abandoned transaction that the use comes to is carried out. -/
def RollbackReaches (use : Use) (s : Session δ) (es : List Event) : Prop :=
  use.Drains → s.pendingRollback = true → s.client.server.transaction.isSome = true →
    (s.needsReset = true → es.head? = some .answered) →
      (rollbackEvent s es).any Event.carriedOut = true

/-- An abandoned transaction that is still open is marked, and no level is open over it. -/
def Watched.Marked (w : Watched δ) : Prop := w.abandoned = true →
  w.session.client.server.transaction.isSome = true ∧ w.session.pendingRollback = true ∧
    w.session.transactionDepth = 0

theorem operation_idle {use : Use} (hdrains : ¬ use.Drains) (hstart : use ≠ .startRollback)
    {s : Session δ} (hdepth : s.transactionDepth = 0) (es : List Event) :
    (use.operation engine features s es).state = s := by
  cases use with
  | begin | describe | ping | collectRows | queryRows | execSql => exact absurd trivial hdrains
  | commit => rw [Use.operation, commitTransaction_idle engine s es hdepth]
  | rollback => rw [Use.operation, rollbackTransaction_idle engine s es hdepth]
  | startRollback => exact absurd rfl hstart
  | fetchMany sql arguments =>
    cases arguments with
    | error message => rfl
    | ok arguments => exact absurd trivial hdrains

theorem calls_since {s t : Session δ} (later : List Happening) (h : t.trace = s.trace ++ later) :
    calls (s.since t) = calls later := by
  rw [Session.since, h, List.drop_left]

/-- With a rollback pending, a drained operation stops with the rollback still pending, or
has made the rollback before anything else. -/
theorem Drained.pending {m : Operation δ α} (hm : Drained engine m) {s : Session δ} (es : List Event)
    (hpending : s.pendingRollback = true) :
    (∃ outcome, (m s es).state = s.closing outcome) ∨
    (∃ outcome, (s.needsReset = true → es.head? = some .answered) ∧
      (m s es).state = s.closed.rolledBack ((rollbackEvent s es).any Event.carriedOut) outcome) ∨
    ∃ later, (m s es).state.trace = (s.closed.rolledBack true .answered).trace ++ later := by
  obtain ⟨f, rfl, hf⟩ := hm
  rw [Process.bind_run]
  rcases drainPending_cases engine es hpending with
    ⟨exit, outcome, rest, hexit, -, hrun⟩ | ⟨exit, outcome, rest, hexit, hanswered, hrun⟩ |
    ⟨rest, -, hrun⟩
  · left
    rw [hrun, Process.andThen_stopped hexit]
    exact ⟨outcome, rfl⟩
  · right; left
    rw [hrun, Process.andThen_stopped hexit]
    exact ⟨outcome, hanswered, rfl⟩
  · right; right
    rw [hrun, Process.andThen_returned]
    obtain ⟨later, hlater⟩ := hf _ admits_traceFrame () _ rest
    exact ⟨later, hlater.symm⟩

theorem closed_calls (s : Session δ) : ∃ made, s.closed.trace = s.trace ++ made ∧
    ∀ c ∈ calls made, c.1 = .closeQuery := by
  unfold Session.closed
  split
  · exact ⟨_, rfl, by simp [calls]⟩
  · exact ⟨[], (List.append_nil _).symm, by simp [calls]⟩

theorem RollsBackFirst.of_forall {made later : List (ClientCall × CallOutcome)}
    (hmade : ∀ c ∈ made, ¬ c.1.IsRequest) (h : RollsBackFirst later) : RollsBackFirst (made ++ later) := by
  induction made with
  | nil => exact h
  | cons c made ih =>
    right
    constructor
    · exact hmade c List.mem_cons_self
    · exact ih fun c' hc' => hmade c' (List.mem_cons_of_mem c hc')

theorem Drained.rollsBackFirst {m : Operation δ α} (hm : Drained engine m) {s : Session δ}
    (hpending : s.pendingRollback = true) (es : List Event) :
    RollsBackFirst (calls (s.since (m s es).state)) := by
  obtain ⟨made, hmade, hcloses⟩ := closed_calls s
  have hquiet : ∀ c ∈ calls made, ¬ c.1.IsRequest := by
    intro c hc hrequest
    rw [hcloses c hc] at hrequest
    exact hrequest
  rcases Drained.pending engine hm es hpending with
    ⟨outcome, hstate⟩ | ⟨outcome, -, hstate⟩ | ⟨later, htrace⟩
  · rw [hstate, calls_since [.called .closeQuery outcome] rfl]
    exact .inr ⟨id, trivial⟩
  · rw [hstate, calls_since (made ++ [.called (.rollbackTransaction none) outcome])]
    · rw [calls_append]
      exact .of_forall hquiet (.inr ⟨id, trivial⟩)
    · rw [Session.rolledBack, Session.record, hmade, List.append_assoc]
  · rw [calls_since (made ++ .called (.rollbackTransaction none) .answered :: later)]
    · rw [calls_append]
      exact .of_forall hquiet (.inl ⟨rfl, rfl⟩)
    · rw [htrace, Session.rolledBack, Session.record, hmade]
      simp

/-- A use keeps the mark of an abandoned transaction that outlasts it. -/
theorem Watched.Marked.step {w : Watched δ} (h : w.Marked) {u : Use × List Event}
    (hreaches : RollbackReaches u.1 w.session u.2) : (w.step engine features u).Marked := by
  rcases u with ⟨use, es⟩
  by_cases hstart : use = .startRollback
  · subst hstart
    intro hopen
    exact ⟨hopen, rfl, rfl⟩
  have hstep : (w.step engine features (use, es)).abandoned =
      (w.abandoned && decide (Outlasts w.session (use.operation engine features w.session es).state)) := by
    cases use <;> first | rfl | exact absurd rfl hstart
  intro habandoned
  rw [hstep, Bool.and_eq_true, decide_eq_true_eq] at habandoned
  obtain ⟨hw, hopen, hends⟩ := habandoned
  obtain ⟨hopen₀, hpending, hdepth⟩ := h hw
  change (use.operation engine features w.session es).state.client.server.transaction.isSome = true ∧
    (use.operation engine features w.session es).state.pendingRollback = true ∧
    (use.operation engine features w.session es).state.transactionDepth = 0
  by_cases hdrains : use.Drains
  swap
  · rw [operation_idle engine features hdrains hstart hdepth]
    exact ⟨hopen₀, hpending, hdepth⟩
  rcases operation_drains engine features use hdrains with hsilent | hdrained
  · rw [hsilent w.session es]
    exact ⟨hopen₀, hpending, hdepth⟩
  rcases Drained.pending engine hdrained es hpending with
    ⟨outcome, hstate⟩ | ⟨outcome, hanswered, hstate⟩ | ⟨later, htrace⟩
  · -- the close stopped, and the rollback is still to come
    rw [hstate]
    exact ⟨hopen₀, hpending, hdepth⟩
  · have hcarried := hreaches hdrains hpending hopen₀ hanswered
    rw [hstate, hcarried] at hopen
    exact absurd hopen (by simp [Session.rolledBack, Session.record])
  · obtain ⟨made, hmade, -⟩ := closed_calls w.session
    refine absurd (.inr rfl) (hends (.rollbackTransaction none, .answered) ?_)
    rw [calls_since (made ++ .called (.rollbackTransaction none) .answered :: later)]
    · simp [calls]
    · rw [htrace, Session.rolledBack, Session.record, hmade]
      simp

def Watched.connected (data : δ) : Watched δ := ⟨.connected data, false⟩

theorem Watched.Marked.after (data : δ) (run : List (Use × List Event))
    (hreaches : ∀ before use es later, run = before ++ (use, es) :: later →
      RollbackReaches use ((Watched.connected data).after engine features before).session es) :
    ((Watched.connected data).after engine features run).Marked := by
  induction run using List.reverseRecOn with
  | nil =>
    intro habandoned
    exact absurd habandoned Bool.false_ne_true
  | append_singleton run u ih =>
    have hrun : ((Watched.connected data).after engine features run).Marked := by
      apply ih
      intro before use es later hbefore
      exact hreaches before use es (later ++ [u]) (by simp [hbefore])
    rw [Watched.after, List.foldl_append]
    apply hrun.step engine features
    exact hreaches run u.1 u.2 [] rfl

theorem rollsBackFirst_operation {s : Session δ} (hpending : s.pendingRollback = true)
    (hdepth : s.transactionDepth = 0) (use : Use) (es : List Event) :
    RollsBackFirst (calls (s.since (use.operation engine features s es).state)) := by
  have hsilent {t : Session δ} (ht : t.trace = s.trace) : RollsBackFirst (calls (s.since t)) := by
    rw [calls_since [] (ht.trans (List.append_nil _).symm)]
    trivial
  by_cases hstart : use = .startRollback
  · subst hstart
    exact hsilent rfl
  by_cases hdrains : use.Drains
  · rcases operation_drains engine features use hdrains with hnothing | hdrained
    · exact hsilent (congrArg Session.trace (hnothing s es))
    · exact hdrained.rollsBackFirst engine hpending es
  · exact hsilent (congrArg Session.trace (operation_idle engine features hdrains hstart hdepth es))

/-- Draining that fails keeps the marks of what it has not done unless a call was refused
that its mark stood for, also at the start of a stream. In a run whose rollbacks of abandoned
transactions are all carried out, an abandoned transaction that is still open stays marked,
and no statement runs in it. -/
theorem recovery_survives_iff (data : δ) (run : List (Use × List Event)) :
    (∀ (s : Session δ) (es : List Event) (e : SqlxError), (drainPending engine s es).exit = .failed e →
      (StillMarked s (drainPending engine s es).state ↔ ¬ LosesReset s es ∧ ¬ LosesRollback s es) ∧
        ∀ sql arguments, fetchMany engine sql (.ok arguments) s es =
          ⟨.failed e, (drainPending engine s es).state, (drainPending engine s es).rest⟩) ∧
    ((∀ before use es later, run = before ++ (use, es) :: later →
        RollbackReaches use ((Watched.connected data).after engine features before).session es) →
      ∀ before later, run = before ++ later →
        let w := (Watched.connected data).after engine features before
        w.abandoned = true → w.session.pendingRollback = true ∧
          ∀ (use : Use) (es : List Event),
            RollsBackFirst (calls (w.session.since (use.operation engine features w.session es).state))) := by
  constructor
  · intro s es e hfail
    refine ⟨stillMarked_iff engine hfail, fun sql arguments => ?_⟩
    change (drainPending engine >>= _) s es = _
    rw [Process.bind_run]
    rcases hrun : drainPending engine s es with ⟨exit, t, rest⟩
    obtain rfl : exit = .failed e := by simpa [hrun] using hfail
    rfl
  · rintro hreaches before later rfl w habandoned
    have hmarked : w.Marked := by
      apply Watched.Marked.after
      intro before' use es later' hbefore
      exact hreaches before' use es (later' ++ later) (by simp [hbefore])
    obtain ⟨-, hpending, hdepth⟩ := hmarked habandoned
    exact ⟨hpending, rollsBackFirst_operation engine features hpending hdepth⟩

/-- A transaction that is dropped with a statement in it. -/
def droppedTransaction : List (Use × List Event) :=
  [(.begin, [.answered]), countOnce, (.startRollback, [])]

theorem droppedTransaction_marked :
    ((Watched.connected 0).after countingEngine allFeatures droppedTransaction).session.pendingRollback =
      true :=
  ((recovery_survives_iff countingEngine allFeatures 0 droppedTransaction).2
    (by
      rintro before use es later hrun hdrains hpending - -
      rcases before with _ | ⟨u, _ | ⟨v, before⟩⟩
      · exact absurd hpending Bool.false_ne_true
      · obtain ⟨rfl, -⟩ := List.cons_eq_cons.mp hrun
        exact absurd hpending (by decide)
      · have huse : use = .startRollback := by
          rcases before with _ | ⟨w, before⟩
          · simp_all [droppedTransaction]
          · simp [droppedTransaction] at hrun
        exact absurd hdrains (by simp [huse, Use.Drains]))
    droppedTransaction [] (List.append_nil _).symm (by decide)).1

/-- A refused rollback leaves the dropped transaction open without a mark, and the next
statement runs in it. A refused close leaves an unread response without a mark. -/
theorem refused_rollback_forgotten :
    let lost := ((Watched.connected 0).after countingEngine allFeatures
      (droppedTransaction ++ [(.ping, [.refused (.other []) false])]))
    let next := (Use.execSql "UPDATE counter".toList).operation countingEngine allFeatures lost.session
      [.answered, .answered, .answered]
    let read := (Session.connected 0).after countingEngine allFeatures
      (partialFetch ++ [(.ping, [.refused (.other []) false])])
    lost.abandoned = true ∧ lost.session.pendingRollback = false ∧ next.exit = .returned () ∧
      ¬ RollsBackFirst (calls (lost.session.since next.state)) ∧
      next.state.client.server.data = 2 ∧ next.state.client.server.durable = 0 ∧
      read.client.unread = true ∧ read.needsReset = false := by
  decide

end SqlxMssql
