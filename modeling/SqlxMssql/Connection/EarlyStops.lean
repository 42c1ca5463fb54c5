import SqlxMssql.Connection.NestedTransactions
import Mathlib.Data.List.Induction

/-! # Which early stops are recorded

An operation that stops before the response has been read to its end has to leave a mark,
so that the next one drains the connection. A stop is recorded when the schedule answers
the calls up to the point from which the guard of a stream, or the end of the response,
covers it.
-/
namespace SqlxMssql
open Loops Utf8 Interaction ParamMarkers Savepoints

variable {δ α β : Type}

/-- An unread response is marked to be drained. -/
def Recorded (s : Session δ) : Prop := s.client.unread = true → s.needsReset = true

instance (s : Session δ) : Decidable (Recorded s) :=
  inferInstanceAs (Decidable (s.client.unread = true → s.needsReset = true))

/-- The number of events before the first that is not an answer. -/
def lead (es : List Event) : ℕ := (es.takeWhile (· = .answered)).length

@[simp] theorem lead_answered (es : List Event) : lead (.answered :: es) = lead es + 1 := rfl

theorem lead_eq_zero {es : List Event} (h : es.head? ≠ some .answered) : lead es = 0 := by
  cases es with
  | nil => rfl
  | cons e es =>
    have he : ¬ e = .answered := fun he => h (by rw [he]; rfl)
    simp [lead, he]

section Reading
variable (engine : SqlEngine δ)

/-- A stop in a call over an unread response is not recorded. Behind the call, `k` more
answers are needed. -/
theorem recorded_call_bind (server : Store Text δ) {p : PendingCall δ α} {context : String}
    {f : α → Operation δ β} {t : Session δ} {es : List Event} {k : ℕ}
    (hunread : (p.sent t.client).unread = true) (hreset : t.needsReset = false)
    (hserve : p.serve (p.sent t.client).server = some server)
    (hf : ∀ rest, es = .answered :: rest →
      (Recorded (f (p.receive { p.sent t.client with server }).1 (t.answer p server) rest).state ↔
        k ≤ lead rest)) :
    Recorded ((call engine p context >>= f) t es).state ↔ k + 1 ≤ lead es := by
  rcases call_cases engine p context t es with
    ⟨rest, server', hes, hserve', hrun⟩ | ⟨exit, applied, outcome, rest, hexit, -, hnone, hrun⟩
  · obtain rfl : server = server' := Option.some_injective _ (hserve.symm.trans hserve')
    rw [Process.bind_run, hrun, Process.andThen_returned, hf rest hes, hes, lead_answered]
    omega
  · have hzero : lead es = 0 := lead_eq_zero fun h => by simp [hnone h] at hserve
    have hstopped : ¬ Recorded ((t.calling p applied).record (.called p.call outcome)) := fun h => by
      have := h hunread
      simp [Session.calling, Session.record, hreset] at this
    rw [Process.bind_run, hrun, Process.andThen_stopped hexit, hzero]
    simp [hstopped]

/-- Once nothing is unread, reading on leaves nothing unread. -/
def readFrame (δ : Type) : Frame (Session δ) where
  rel s t := s.client.unread = false → t.client.unread = false
  refl _ h := h
  trans h k := k ∘ h

theorem recorded_of_read {m : Operation δ α} (hm : Within (readFrame δ) m) {t : Session δ}
    {es : List Event} (ht : t.client.unread = false) : Recorded (m t es).state := by
  intro h
  rw [hm t es ht] at h
  exact absurd h (by simp)

theorem admitsReading_readFrame : AdmitsReading engine (readFrame δ) where
  reading _ _ _ hreceive _ := Within.of_reading (fun s hs => (hreceive s.client).2 hs) fun _ _ hs => hs
  yieldItem item := by
    refine Within.suspend (fun s hs => hs) fun event s hs => ?_
    cases event <;> exact hs
  needsReset _ _ h := h

/-- The cursor stands in a response that has been sent and not been marked. -/
structure Open (t : Session δ) (replies : List StatementReply) : Prop where
  response : t.client.response = replies
  unread : t.client.unread = !replies.isEmpty
  reset : t.needsReset = false

theorem Open.of_answer {p : PendingCall δ α} {t : Session δ} {server : Store Text δ}
    {replies : List StatementReply}
    (hresponse : (p.receive { p.sent t.client with server }).2.response = replies)
    (hunread : (p.receive { p.sent t.client with server }).2.unread = !replies.isEmpty)
    (hreset : t.needsReset = false) : Open (t.answer p server) replies := ⟨hresponse, hunread, hreset⟩

theorem Open.boundary_done {t : Session δ} {replies : List StatementReply} (ht : Open t replies) :
    t.client.boundary = .done ↔ replies = [] := by
  rcases t with ⟨⟨⟨server, response, unread⟩, depth, reset, pending⟩, trace⟩
  obtain rfl := ht.response
  rcases response with _ | ⟨_ | _, _⟩ <;> simp [TdsClient.boundary]

theorem Open.advance {t : Session δ} {reply : StatementReply} {replies : List StatementReply}
    (ht : Open t (reply :: replies)) (server : Store Text δ) :
    Open (t.answer TdsClient.advance server) replies := by
  refine .of_answer ?_ ?_ ht.reset
  · simp [TdsClient.advance, TdsClient.reading, TdsClient.moveTo, ht.response]
  · simp [TdsClient.advance, TdsClient.reading, TdsClient.moveTo, ht.response, ht.unread]

theorem recorded_skipResults (replies : List StatementReply) {t : Session δ} {es : List Event}
    (ht : Open t replies) :
    Recorded (skipResults engine t.client.boundary t es).state ↔ replies.length ≤ lead es := by
  induction replies generalizing t es with
  | nil =>
    rw [ht.boundary_done.mpr rfl, skipResults, Process.loop_bind_run]
    simpa using recorded_of_read ((admitsReading_readFrame engine).closeQuery _) ht.unread
  | cons reply replies ih =>
    have hdone : ¬ t.client.boundary = .done := fun h => by simp [ht.boundary_done] at h
    rw [skipResults, Process.loop_bind_run, if_neg hdone, Process.bind_run, Process.andThen_andThen]
    refine recorded_call_bind engine t.client.server ?_ ht.reset rfl ?_
    · exact ht.unread
    · intro rest hes
      have hlt : rest.length < es.length := by simp [hes]
      simp only [Process.bind_run, Process.pure_run, Process.andThen_returned, if_pos hlt]
      exact ih (ht.advance _)

theorem Open.nextRow {t : Session δ} {metadata : List ColumnMetadata} {row : List ColumnValues}
    {rows : List (List ColumnValues)} {left : List StatementReply}
    (ht : Open t (.rows metadata (row :: rows) :: left)) (server : Store Text δ) :
    Open (t.answer TdsClient.nextRow server) (.rows metadata rows :: left) := by
  refine .of_answer ?_ ?_ ht.reset
  · simp [TdsClient.nextRow, TdsClient.reading, ht.response]
  · simp [TdsClient.nextRow, TdsClient.reading, ht.response, ht.unread]

theorem Open.endOfRows {t : Session δ} {metadata : List ColumnMetadata} {left : List StatementReply}
    (ht : Open t (.rows metadata [] :: left)) (server : Store Text δ) :
    Open (t.answer TdsClient.nextRow server) (.rows metadata [] :: left) := by
  refine .of_answer ?_ ?_ ht.reset
  · simp [TdsClient.nextRow, TdsClient.reading, ht.response]
  · simp [TdsClient.nextRow, TdsClient.reading, ht.response, ht.unread]

theorem recorded_close {replies : List StatementReply} {context : String} {t : Session δ} {es : List Event}
    (ht : Open t replies) (hreplies : replies ≠ []) (a : α) :
    Recorded ((call engine TdsClient.closeQuery context >>= fun _ => (pure a : Operation δ α)) t es).state ↔
      1 ≤ lead es := by
  refine recorded_call_bind engine t.client.server (k := 0) ?_ ht.reset rfl fun rest hes => ?_
  · exact ht.unread.trans (by simp [hreplies])
  · simp [Recorded, Session.answer, Session.record, TdsClient.closeQuery, TdsClient.reading]

/-- Reading a result set and closing the response takes one answer for each row, one for
their end and one for the close. -/
theorem recorded_readRows {metadata : List ColumnMetadata} (rows : List (List ColumnValues))
    {left : List StatementReply} {rowContext closeContext : String}
    (g : List (List ColumnValues) → α) (read : List (List ColumnValues)) {t : Session δ} {es : List Event}
    (ht : Open t (.rows metadata rows :: left)) :
    Recorded ((Process.loop (fun rows => do
        match ← call engine TdsClient.nextRow rowContext with
        | some values => return .inl (rows ++ [values])
        | none => return .inr rows) read >>= fun rows => do
      call engine TdsClient.closeQuery closeContext
      return g rows) t es).state ↔ rows.length + 2 ≤ lead es := by
  induction rows generalizing read t es with
  | nil =>
    rw [Process.loop_bind_run, Process.bind_run, Process.andThen_andThen]
    refine recorded_call_bind engine t.client.server (k := 1) ?_ ht.reset rfl fun rest hes => ?_
    · exact ht.unread
    · have hnone : (TdsClient.nextRow.receive { TdsClient.nextRow.sent t.client with
          server := t.client.server }).1 = none := by
        simp [TdsClient.nextRow, TdsClient.reading, ht.response]
      rw [hnone]
      exact recorded_close engine (ht.endOfRows _) (by simp) (g read)
  | cons row rows ih =>
    rw [Process.loop_bind_run, Process.bind_run, Process.andThen_andThen]
    refine recorded_call_bind engine t.client.server ?_ ht.reset rfl fun rest hes => ?_
    · exact ht.unread
    · have hlt : rest.length < es.length := by simp [hes]
      have hsome : (TdsClient.nextRow.receive { TdsClient.nextRow.sent t.client with
          server := t.client.server }).1 = some row := by
        simp [TdsClient.nextRow, TdsClient.reading, ht.response]
      rw [hsome]
      simp only [Process.bind_run, Process.pure_run, Process.andThen_returned, if_pos hlt]
      exact ih (read ++ [row]) (ht.nextRow _)

/-- The answers it takes to read the rows at the cursor and to close the response. -/
def answersForRows : List StatementReply → ℕ
  | .rows _ rows :: _ => rows.length + 2
  | _ => 0

/-- The answers it takes to read the first rows of a response and to close it. A response
without rows is read to its end by the search for them. -/
def answersForFirstRows : List StatementReply → ℕ
  | .noRows _ :: left => answersForRows (left.dropWhile (!·.hasRows)) + 1
  | replies => answersForRows replies

theorem Open.advanceToRows {t : Session δ} {reply : StatementReply} {left : List StatementReply}
    (ht : Open t (reply :: left)) (server : Store Text δ) :
    Open (t.answer TdsClient.advanceToRows server) (left.dropWhile (!·.hasRows)) := by
  refine .of_answer ?_ ?_ ht.reset
  · simp [TdsClient.advanceToRows, TdsClient.reading, TdsClient.moveTo, ht.response]
  · simp [TdsClient.advanceToRows, TdsClient.reading, TdsClient.moveTo, ht.response, ht.unread]

theorem dropWhile_hasRows (left : List StatementReply) :
    left.dropWhile (!·.hasRows) = [] ∨
      ∃ metadata rows later, left.dropWhile (!·.hasRows) = .rows metadata rows :: later := by
  induction left with
  | nil => exact .inl rfl
  | cons reply left ih =>
    cases reply with
    | rows metadata rows => exact .inr ⟨metadata, rows, left, rfl⟩
    | noRows rowsAffected => exact ih

section FirstRows
variable (rowContext closeContext : String)

/-- What follows once the cursor is known to stand at rows, or nowhere. -/
def readPositioned (positioned : Bool) : Operation δ (List ColumnMetadata × List (List ColumnValues)) := do
  match positioned with
  | true =>
    let metadata := (← Process.get).client.metadata
    let rows ← readRows engine rowContext
    call engine TdsClient.closeQuery closeContext
    return (metadata, rows)
  | false =>
    let _ ← (call engine TdsClient.closeQuery closeContext).attempt
    return ([], [])

theorem recorded_readPositioned {replies : List StatementReply} {t : Session δ} {es : List Event}
    (ht : Open t replies) (hreplies : replies = [] ∨ ∃ metadata rows left, replies = .rows metadata rows :: left) :
    Recorded (readPositioned engine rowContext closeContext (!replies.isEmpty) t es).state ↔
      answersForRows replies ≤ lead es := by
  rcases hreplies with rfl | ⟨metadata, rows, left, rfl⟩
  · have hread : Within (readFrame δ) (readPositioned engine rowContext closeContext false) :=
      Within.bind (Within.attempt ((admitsReading_readFrame engine).closeQuery _)) fun _ => Within.pure _
    simpa [answersForRows] using recorded_of_read hread ht.unread
  · exact recorded_readRows engine rows (fun rows => (t.client.metadata, rows)) [] ht

end FirstRows

theorem recorded_readFirstRows {replies : List StatementReply} {t : Session δ} {es : List Event}
    (ht : Open t replies) (advanceContext rowContext closeContext : String) :
    Recorded (readFirstRows engine t.client.boundary advanceContext rowContext closeContext t es).state ↔
      answersForFirstRows replies ≤ lead es := by
  have hsplit : readFirstRows engine t.client.boundary advanceContext rowContext closeContext =
      ((if t.client.boundary = .rows then pure true
        else call engine TdsClient.advanceToRows advanceContext) >>=
          readPositioned engine rowContext closeContext) := rfl
  rw [hsplit]
  cases replies with
  | nil =>
    rw [← hsplit]
    simpa [answersForFirstRows, answersForRows] using
      recorded_of_read ((admitsReading_readFrame engine).readFirstRows _ _ _ _) ht.unread
  | cons reply left =>
    cases reply with
    | rows metadata rows =>
      have hrows : t.client.boundary = .rows := by simp [TdsClient.boundary, ht.response]
      rw [if_pos hrows]
      exact recorded_readPositioned engine rowContext closeContext ht (.inr ⟨metadata, rows, left, rfl⟩)
    | noRows rowsAffected =>
      have hrows : ¬ t.client.boundary = .rows := by simp [TdsClient.boundary, ht.response]
      rw [if_neg hrows]
      refine recorded_call_bind engine t.client.server ?_ ht.reset rfl fun rest hes => ?_
      · exact ht.unread
      · have hreceive : (TdsClient.advanceToRows.receive { TdsClient.advanceToRows.sent t.client with
            server := t.client.server }).1 = !(left.dropWhile (!·.hasRows)).isEmpty := by
          simp [TdsClient.advanceToRows, TdsClient.reading, ht.response]
        rw [hreceive]
        exact recorded_readPositioned engine rowContext closeContext (ht.advanceToRows _)
          (dropWhile_hasRows left)

theorem recorded_request {c : ClientCall} {r : Request} {context : String}
    {f : StatementResult → Operation δ β} {t : Session δ} {es : List Event} {k : ℕ}
    (hreset : t.needsReset = false)
    (hf : ∀ u rest, Open u (engine.replies r t.client.server.data) →
      (Recorded (f u.client.boundary u rest).state ↔ k ≤ lead rest)) :
    Recorded ((call engine (TdsClient.request engine c r) context >>= f) t es).state ↔ k + 1 ≤ lead es :=
  recorded_call_bind engine (t.client.server.run (engine.effect r)) rfl hreset rfl fun rest _ =>
    hf (t.answer (TdsClient.request engine c r) (t.client.server.run (engine.effect r))) rest
      ⟨rfl, rfl, hreset⟩

/-- The results of a stream are read under the guard: whatever ends them, the end of the
response has been reached or the connection is marked. -/
theorem recorded_fetchResults {result : StatementResult} {t : Session δ} {es : List Event}
    (ht : result = .done → t.client.unread = false) :
    Recorded (fetchResults engine result t es).state := by
  -- the invariant of the loop: at the end nothing is unread
  let I (result : StatementResult) (u : Session δ) : Prop := result = .done → u.client.unread = false
  let Q (_ : Unit) (u : Session δ) : Prop := u.client.unread = false
  have hadvance : Returns (fun _ => True)
      (call engine TdsClient.advance "failed to advance to the next result set") I :=
    returns_call engine fun _ _ _ _ => TdsClient.moveTo_done
  have hnext : Returns (fun _ => True) (nextResult engine) (Sum.elim I Q) :=
    Returns.bind hadvance fun next => Returns.pure fun u hu => hu
  have hturn (result : StatementResult) :
      Returns (I result) (fetchTurn engine result) (Sum.elim I Q) := by
    cases result with
    | rows =>
      exact Returns.bind Returns.any fun _ => Returns.bind Returns.any fun _ =>
        Returns.bind Returns.any fun _ => hnext
    | noRows rowsAffected => exact Returns.bind Returns.any fun _ => hnext
    | done => exact Returns.pure fun u hu => hu rfl
  have hloop := Returns.loop hturn result
  rcases hrun : Process.loop (fetchTurn engine) result t es with ⟨exit, u, rest⟩
  simp only [fetchResults, Process.guarded, hrun]
  cases exit with
  | returned a =>
    intro hunread
    rw [hloop t es a u rest ht hrun] at hunread
    exact absurd hunread (by simp)
  | failed e => exact fun _ => rfl
  | dropped p => exact fun _ => rfl
  | aborted a => exact fun _ => rfl

end Reading

section Draining
variable (engine : SqlEngine δ)

def drainCalls (s : Session δ) : ℕ :=
  (if s.needsReset then 1 else 0) + (if s.pendingRollback then 1 else 0)

def drainedServer (s : Session δ) : Store Text δ :=
  if s.pendingRollback then s.client.server.rollback.getD s.client.server else s.client.server

theorem drainCalls_idle {s : Session δ} (hreset : s.needsReset = false) (hsettled : s.pendingRollback = false) :
    drainCalls s = 0 := by
  simp [drainCalls, hreset, hsettled]

theorem drainedServer_idle {s : Session δ} (h : s.pendingRollback = false) : drainedServer s = s.client.server := by
  rw [drainedServer, h, if_neg Bool.false_ne_true]

theorem drainCalls_closed {s : Session δ} (h : s.needsReset = true) : drainCalls s = drainCalls s.closed + 1 := by
  simp [drainCalls, h, Nat.add_comm]

@[simp] theorem drainedServer_closed (s : Session δ) : drainedServer s.closed = drainedServer s := by
  simp only [drainedServer, Session.closed_pendingRollback, Session.closed_server]

/-- The schedule answers the draining, and there is a transaction to roll back if one is
to be. -/
def DrainCompletes (s : Session δ) (es : List Event) : Prop :=
  drainCalls s ≤ lead es ∧ (s.pendingRollback = true → s.client.server.transaction.isSome = true)

instance (s : Session δ) (es : List Event) : Decidable (DrainCompletes s es) :=
  inferInstanceAs (Decidable (_ ∧ _))

theorem recorded_rollBackAbandoned {f : Unit → Operation δ β} {t : Session δ} {es : List Event} {k : ℕ}
    (hreset : t.needsReset = false) (hread : t.client.unread = false)
    (hf : ∀ u rest, u.needsReset = false → u.client.unread = false →
      u.client.server = drainedServer t → (Recorded (f () u rest).state ↔ k ≤ lead rest)) :
    Recorded ((rollBackAbandoned engine >>= f) t es).state ↔
      (DrainCompletes t es → drainCalls t + k ≤ lead es) := by
  cases hpending : t.pendingRollback with
  | false =>
    rw [Process.bind_run, rollBackAbandoned_idle engine t es hpending, Process.andThen_returned,
      hf t es hreset hread (drainedServer_idle hpending).symm]
    simp [DrainCompletes, drainCalls, hreset, hpending]
  | true =>
    rw [Process.bind_run]
    rcases rollBackAbandoned_cases engine t es hpending with
      ⟨rest, hes, hopen, hrun⟩ | ⟨exit, outcome, hexit, -, hnone, -, hrun⟩
    · have hserver : (t.rolledBack true .answered).client.server = drainedServer t := by
        rw [drainedServer, hpending, if_pos rfl, Store.getD_rollback]
        rfl
      rw [hrun, Process.andThen_returned, hf (t.rolledBack true .answered) rest hreset hread hserver]
      simp [DrainCompletes, drainCalls, hreset, hpending, hopen, hes]
      omega
    · rw [hrun, Process.andThen_stopped hexit]
      refine iff_of_true (fun h => ?_) ?_
      · exact absurd (hread.symm.trans h) (by simp)
      · rintro ⟨hlead, hopen⟩
        have hzero : lead es = 0 := lead_eq_zero fun h => by simpa [hnone h] using hopen hpending
        simp [drainCalls, hpending, hzero] at hlead

/-- Draining an unread response needs the answer of the close. Behind it, `k` answers are
needed when the draining completes. -/
theorem recorded_drain_bind {f : Unit → Operation δ β} {s : Session δ} {es : List Event} {k : ℕ}
    (hs : Recorded s)
    (hf : ∀ u rest, u.needsReset = false → u.client.unread = false →
      u.client.server = drainedServer s → (Recorded (f () u rest).state ↔ k ≤ lead rest)) :
    Recorded ((drainPending engine >>= f) s es).state ↔
      (s.needsReset = true ∧ s.client.unread = true → 1 ≤ lead es) ∧
        (DrainCompletes s es → drainCalls s + k ≤ lead es) := by
  have hassoc : (drainPending engine >>= f) s es =
      (closeUnfinished engine >>= fun _ => rollBackAbandoned engine >>= f) s es := by
    simp only [drainPending, Process.bind_run, Process.andThen_andThen]
  rw [hassoc]
  cases hreset : s.needsReset with
  | false =>
    have hread : s.client.unread = false := by
      cases hunread : s.client.unread with
      | false => rfl
      | true => exact absurd (hs hunread) (by simp [hreset])
    rw [Process.bind_run, closeUnfinished_idle engine s es hreset, Process.andThen_returned,
      recorded_rollBackAbandoned engine hreset hread hf]
    simp
  | true =>
    rw [Process.bind_run]
    rcases closeUnfinished_cases engine s es hreset with
      ⟨rest, hes, hrun⟩ | ⟨exit, outcome, hexit, -, hhead, -, hrun⟩
    · have hread : s.closed.client.unread = false := by
        rw [Session.closed, if_pos hreset]
        rfl
      rw [← drainedServer_closed] at hf
      rw [hrun, Process.andThen_returned,
        recorded_rollBackAbandoned engine s.closed_needsReset hread hf]
      have hcalls := drainCalls_closed hreset
      have hcompletes : DrainCompletes s es ↔ DrainCompletes s.closed rest := by
        rw [DrainCompletes, DrainCompletes, hcalls, hes, lead_answered, Nat.add_le_add_iff_right,
          Session.closed_pendingRollback, Session.closed_server]
      rw [hcompletes, hcalls, hes, lead_answered, Nat.add_right_comm, Nat.add_le_add_iff_right]
      simp
    · have hzero : lead es = 0 := lead_eq_zero hhead
      rw [hrun, Process.andThen_stopped hexit, hzero]
      have hdrain : ¬ DrainCompletes s es := by
        rintro ⟨hlead, -⟩
        simp [drainCalls, hreset, hzero] at hlead
      refine ⟨fun h => ⟨fun hunread => ?_, fun h => absurd h hdrain⟩, fun h hunread => ?_⟩
      · exact absurd (h hunread.2) Bool.false_ne_true
      · exact absurd (h.1 ⟨rfl, hunread⟩) (by omega)

end Draining

def markFrame (δ : Type) : Frame (Session δ) where
  rel s t := t.client.unread = s.client.unread ∧ t.needsReset = s.needsReset
  refl _ := ⟨rfl, rfl⟩
  trans := fun ⟨h1, h2⟩ ⟨k1, k2⟩ => ⟨k1.trans h1, k2.trans h2⟩

theorem control_within_markFrame {engine : SqlEngine δ} (c : ClientCall)
    (serve : Store Text δ → Option (Store Text δ)) (context : String) :
    Within (markFrame δ) (call engine (TdsClient.control c serve) context) :=
  Within.of_call (fun _ _ _ => ⟨rfl, rfl⟩) fun _ _ _ => ⟨rfl, rfl⟩

theorem Recorded.of_frame {s t : Session δ} (h : Recorded s) (ht : (markFrame δ).rel s t) : Recorded t := by
  intro hunread
  rw [ht.2]
  exact h (ht.1 ▸ hunread)

/-- The answers that a use needs behind its draining, until the response of its request has
been read or the guard of a stream is in place. -/
def Use.answersNeeded (engine : SqlEngine δ) (use : Use) (data : δ) : ℕ :=
  match use.request with
  | none => 0
  | some request =>
    let replies := engine.replies request data
    match use with
    | fetchMany _ _ => 1
    | ping => if replies.isEmpty then 1 else 2
    | execSql _ => replies.length + 1
    | _ => answersForFirstRows replies + 1

/-- The schedule carries the use past every point at which a stop is not recorded. -/
def Covered (engine : SqlEngine δ) (use : Use) (s : Session δ) (es : List Event) : Prop :=
  use.Drains →
    (s.needsReset = true ∧ s.client.unread = true → 1 ≤ lead es) ∧
      (DrainCompletes s es → drainCalls s + use.answersNeeded engine (drainedServer s).data ≤ lead es)

instance (engine : SqlEngine δ) (use : Use) (s : Session δ) (es : List Event) :
    Decidable (Covered engine use s es) := inferInstanceAs (Decidable (_ → _ ∧ _))

section Uses
variable (engine : SqlEngine δ) (features : Features) {s : Session δ} {es : List Event}

theorem recorded_of_unread_false {t : Session δ} (ht : t.client.unread = false) : Recorded t :=
  fun h => absurd (ht.symm.trans h) Bool.false_ne_true

theorem recorded_beginTransaction (hs : Recorded s) :
    Recorded (beginTransaction engine s es).state ↔ Covered engine .begin s es := by
  have htail : Within (markFrame δ) (do
      let depth := (← Process.get).transactionDepth
      call engine
        (if depth = 0 then TdsClient.beginTransaction else TdsClient.saveTransaction (savepointName depth))
        "failed to begin a transaction"
      Process.update fun s => { s with transactionDepth := s.transactionDepth + 1 } : Operation δ Unit) := by
    refine Within.bind Within.get fun u => Within.bind ?_ fun _ => Within.update fun _ => ⟨rfl, rfl⟩
    by_cases hdepth : u.transactionDepth = 0
    · rw [if_pos hdepth]
      exact control_within_markFrame _ _ _
    · rw [if_neg hdepth]
      exact control_within_markFrame _ _ _
  refine (recorded_drain_bind engine hs (k := 0) fun u rest _ hread _ => ?_).trans ?_
  · exact iff_of_true (recorded_of_unread_false ((htail u rest).1.trans hread)) (Nat.zero_le _)
  · simp [Covered, Use.Drains, Use.answersNeeded, Use.request]

theorem recorded_fetchMany (hs : Recorded s) (sql : Text)
    (arguments : Except Text (Option (List SqlType))) :
    Recorded (fetchMany engine sql arguments s es).state ↔
      Covered engine (.fetchMany sql arguments) s es := by
  cases arguments with
  | error message => exact iff_of_true hs fun h => h.elim
  | ok arguments =>
    change Recorded ((drainPending engine >>= _) s es).state ↔ _
    rcases hbuild : buildRequest sql arguments with a | e | request
    · refine (recorded_drain_bind engine hs (k := 0) fun u rest _ hread _ => ?_).trans ?_
      · exact iff_of_true (recorded_of_unread_false hread) (Nat.zero_le _)
      · simp [Covered, Use.Drains, Use.answersNeeded, Use.request, hbuild]
    · refine (recorded_drain_bind engine hs (k := 0) fun u rest _ hread _ => ?_).trans ?_
      · exact iff_of_true (recorded_of_unread_false hread) (Nat.zero_le _)
      · simp [Covered, Use.Drains, Use.answersNeeded, Use.request, hbuild]
    · have hresults {replies : List StatementReply} (u : Session δ) (rest : List Event)
          (hu : Open u replies) :
          Recorded (fetchResults engine u.client.boundary u rest).state ↔ 0 ≤ lead rest :=
        iff_of_true (recorded_fetchResults engine fun h => by
          rw [hu.unread, hu.boundary_done.mp h]; rfl) (Nat.zero_le _)
      refine (recorded_drain_bind engine hs (k := 1) fun u rest hreset _ _ => ?_).trans ?_
      · rw [Process.bind_run, lift_ok, Process.andThen_returned]
        by_cases hparams : request.params.isEmpty
        · rw [if_pos hparams]
          exact recorded_request engine hreset hresults
        · rw [if_neg hparams]
          exact recorded_request engine hreset hresults
      · simp [Covered, Use.Drains, Use.answersNeeded, Use.request, hbuild]

theorem recorded_ping (hs : Recorded s) :
    Recorded (ping engine s es).state ↔ Covered engine .ping s es := by
  let replies := engine.replies ⟨"SELECT 1".toList, []⟩ (drainedServer s).data
  let k := if replies.isEmpty then 0 else 1
  have hneeded : Use.answersNeeded engine .ping (drainedServer s).data = k + 1 := by
    change (if replies.isEmpty then 1 else 2) = k + 1
    cases h : replies.isEmpty <;> simp [k, h]
  refine (recorded_drain_bind engine hs (k := k + 1) fun u rest hreset _ hserver => ?_).trans ?_
  · apply recorded_request engine hreset
    intro v rest hv
    rw [hserver] at hv
    cases h : replies.isEmpty with
    | true =>
      have hread : v.client.unread = false := hv.unread.trans (by simp [replies] at h; simp [h])
      exact iff_of_true (recorded_of_read ((admitsReading_readFrame engine).closeQuery _) hread)
        (by simp [k, h])
    | false =>
      have hreplies : replies ≠ [] := fun hnil => by simp [hnil] at h
      have hclose : Recorded ((call engine TdsClient.closeQuery "failed to close the result set" >>=
          fun _ => pure ()) v rest).state ↔ 1 ≤ lead rest := recorded_close engine hv hreplies ()
      rw [Process.bind_run, Process.andThen_pure_state] at hclose
      simpa [k, h] using hclose
  · simp [Covered, Use.Drains, hneeded]

theorem recorded_execSql (hs : Recorded s) (sql : Text) :
    Recorded (execSql engine sql s es).state ↔ Covered engine (.execSql sql) s es := by
  refine (recorded_drain_bind engine hs
    (k := Use.answersNeeded engine (.execSql sql) (drainedServer s).data)
    fun u rest hreset _ hserver => ?_).trans ?_
  · apply recorded_request engine hreset
    intro v rest hv
    rw [hserver] at hv
    exact recorded_skipResults engine _ hv
  · simp [Covered, Use.Drains]

theorem recorded_collectRows (hs : Recorded s) (request : Request) :
    Recorded (collectRows engine request s es).state ↔ Covered engine (.collectRows request) s es := by
  refine (recorded_drain_bind engine hs
    (k := Use.answersNeeded engine (.collectRows request) (drainedServer s).data)
    fun u rest hreset _ hserver => ?_).trans ?_
  · apply recorded_request engine hreset
    intro v rest hv
    rw [hserver] at hv
    exact recorded_readFirstRows engine hv _ _ _
  · simp [Covered, Use.Drains]

theorem recorded_queryRows (hs : Recorded s) (sql : Text) :
    Recorded (queryRows engine sql s es).state ↔ Covered engine (.queryRows sql) s es := by
  refine (recorded_drain_bind engine hs
    (k := Use.answersNeeded engine (.queryRows sql) (drainedServer s).data)
    fun u rest hreset _ hserver => ?_).trans ?_
  · apply recorded_request engine hreset
    intro v rest hv
    rw [hserver] at hv
    rw [Process.bind_run, Process.andThen_pure_state]
    exact recorded_readFirstRows engine hv _ _ _
  · simp [Covered, Use.Drains]

theorem recorded_operation (hs : Recorded s) (use : Use) (huse : use.IsStep) :
    Recorded (use.operation engine features s es).state ↔ Covered engine use s es := by
  cases use with
  | begin => exact recorded_beginTransaction engine hs
  | commit =>
    have hcommit : Within (markFrame δ) (commitTransaction engine) :=
      Within.bind Within.get fun _ => Within.when <| Within.bind (Within.when (control_within_markFrame _ _ _))
        fun _ => Within.update fun _ => ⟨rfl, rfl⟩
    exact iff_of_true (hs.of_frame (hcommit s es)) fun h => h.elim
  | rollback =>
    have hrollback : Within (markFrame δ) (rollbackTransaction engine) :=
      Within.bind Within.get fun _ => Within.when <| Within.bind (control_within_markFrame _ _ _)
        fun _ => Within.update fun _ => ⟨rfl, rfl⟩
    exact iff_of_true (hs.of_frame (hrollback s es)) fun h => h.elim
  | startRollback => exact iff_of_true hs fun h => h.elim
  | describe sql => exact huse.elim
  | fetchMany sql arguments => exact recorded_fetchMany engine hs sql arguments
  | ping => exact recorded_ping engine hs
  | collectRows request =>
    rw [Use.operation, Process.bind_run, Process.andThen_pure_state]
    exact recorded_collectRows engine hs request
  | queryRows sql =>
    rw [Use.operation, Process.bind_run, Process.andThen_pure_state]
    exact recorded_queryRows engine hs sql
  | execSql sql => exact recorded_execSql engine hs sql

/-- In a run, every early stop is recorded exactly when the schedule of every use covers it. -/
theorem early_stops_recorded_iff (data : δ) (run : List (Use × List Event))
    (hsteps : ∀ u ∈ run, u.1.IsStep) :
    (∀ before later, run = before ++ later →
      Recorded ((Session.connected data).after engine features before)) ↔
    ∀ before use es later, run = before ++ (use, es) :: later →
      Covered engine use ((Session.connected data).after engine features before) es := by
  constructor
  · rintro h before use es later rfl
    have hbefore := h before _ rfl
    have hafter := h (before ++ [(use, es)]) later (by simp)
    rw [Session.after_append, Session.after_singleton] at hafter
    exact (recorded_operation engine features hbefore use (hsteps (use, es) (by simp))).mp hafter
  · intro h before
    induction before using List.reverseRecOn with
    | nil => exact fun _ _ hunread => absurd hunread Bool.false_ne_true
    | append_singleton before u ih =>
      rintro later rfl
      have hcovered := h before u.1 u.2 later (by simp)
      have hbefore := ih (u :: later) (by simp)
      rw [Session.after_append, Session.after_singleton]
      exact (recorded_operation engine features hbefore u.1 (hsteps u (by simp))).mpr hcovered

/-- The session has been used to collect rows, and for nothing else. -/
def collectFrame : Frame (Session δ) where
  rel s t := ∃ run : List (Use × List Event), (∀ u ∈ run, ∃ request, u.1 = .collectRows request) ∧
    t = s.after engine features run
  refl _ := ⟨[], by simp, rfl⟩
  trans := by
    rintro s t u ⟨run, hrun, rfl⟩ ⟨run', hrun', rfl⟩
    refine ⟨run ++ run', fun v hv => ?_, (Session.after_append engine features run run' s).symm⟩
    exact (List.mem_append.mp hv).elim (hrun v) (hrun' v)

theorem collectRows_within (request : Request) :
    Within (collectFrame engine features) (collectRows engine request) := by
  refine fun s es => ⟨[(.collectRows request, es)], by simp, ?_⟩
  rw [Session.after_singleton, Use.operation, Process.bind_run, Process.andThen_pure_state]

theorem describe_within (sql : Text) :
    Within (collectFrame engine features) ((Use.describe sql).operation engine features) := by
  refine Within.bind (Within.bind (Within.lift _) fun _ => Within.bind (Within.ite ?_ (Within.pure _))
    fun _ => Within.bind (collectRows_within engine features _) fun _ =>
      Within.bind (Within.lift _) fun _ => Within.pure _) fun _ => Within.pure _
  exact Within.bind (collectRows_within engine features _) fun _ => Within.lift _

end Uses

/-- A stream that is dropped at its first row, and a query that drains it. -/
def dropAndDrain : List (Use × List Event) :=
  [(.fetchMany "SELECT 1".toList (.ok none), [.answered, .answered]),
    (.queryRows "SELECT 1".toList, [.answered, .answered, .answered, .answered, .answered])]

theorem dropAndDrain_recorded :
    Recorded ((Session.connected 0).after countingEngine allFeatures dropAndDrain) := by
  refine (early_stops_recorded_iff countingEngine allFeatures 0 dropAndDrain ?_).mpr ?_ dropAndDrain [] (by simp)
  · simp [dropAndDrain, Use.IsStep]
  · rintro (_ | ⟨first, _ | ⟨second, before⟩⟩) use es later h
    · obtain ⟨⟨rfl, rfl⟩, -⟩ : (_ ∧ _) ∧ _ := by simpa [dropAndDrain] using h
      decide
    · obtain ⟨rfl, ⟨rfl, rfl⟩, -⟩ : _ ∧ (_ ∧ _) ∧ _ := by simpa [dropAndDrain] using h
      decide
    · simp [dropAndDrain] at h

/-- A query that is dropped while its first row is awaited leaves no mark, and so does a ping
that is dropped while it closes an earlier result set. -/
theorem early_stop_unrecorded :
    ¬ Recorded ((Session.connected 0).after countingEngine allFeatures
      [(.queryRows "SELECT 1".toList, [.answered])]) ∧
    ¬ Recorded ((Session.connected 0).after countingEngine allFeatures
      [(.fetchMany "SELECT 1".toList (.ok none), [.answered, .answered]), (.ping, [])]) := by
  decide

end SqlxMssql
