import SqlxMssql.Connection.Draining

/-! # Nested transactions

Begin, commit and rollback emulate nested transactions on the savepoints of the server.
When every call of a run is answered, the server and the depth of the connection follow an
ideal store, use by use. An abandoned inner transaction leaves that store.
-/
namespace SqlxMssql
open Loops Utf8 Interaction ParamMarkers Savepoints

variable {δ α β : Type} {engine : SqlEngine δ}

theorem savepointName_injective : Function.Injective savepointName := fun _ _ h =>
  decimal_injective (List.append_cancel_left h)

/-- No call of the session has failed or was dropped. -/
def AllAnswered (s : Session δ) : Prop := ∀ c ∈ calls s.trace, c.2 = .answered

instance (s : Session δ) : Decidable (AllAnswered s) :=
  inferInstanceAs (Decidable (∀ c ∈ calls s.trace, c.2 = .answered))

theorem AllAnswered.of_record {s : Session δ} {c : ClientCall} {outcome : CallOutcome}
    (h : AllAnswered (s.record (.called c outcome))) : outcome = .answered :=
  h (c, outcome) (by simp [Session.record, calls])

/-- A call that is not the last step of an operation with answered calls only was answered. -/
theorem AllAnswered.call_bind {p : PendingCall δ α} {context : String} {f : α → Operation δ β}
    {s : Session δ} {es : List Event}
    (h : AllAnswered ((call engine p context >>= f) s es).state) :
    ∃ rest server, p.serve (p.sent s.client).server = some server ∧
      (call engine p context >>= f) s es =
        f (p.receive { p.sent s.client with server }).1 (s.answer p server) rest := by
  rw [Process.bind_run] at h ⊢
  rcases call_cases engine p context s es with
    ⟨rest, server, -, hserve, hrun⟩ | ⟨exit, applied, outcome, rest, hexit, houtcome, -, hrun⟩
  · exact ⟨rest, server, hserve, by rw [hrun, Process.andThen_returned]⟩
  · rw [hrun, Process.andThen_stopped hexit] at h
    exact absurd h.of_record houtcome

/-- The transaction is left alone: nothing changes on the server, and the connection keeps
its level. -/
def transactionFrame (δ : Type) : Frame (Session δ) where
  rel s t := t.client.server = s.client.server ∧ t.transactionDepth = s.transactionDepth ∧
    t.pendingRollback = s.pendingRollback
  refl _ := ⟨rfl, rfl, rfl⟩
  trans := fun ⟨h1, h2, h3⟩ ⟨k1, k2, k3⟩ => ⟨k1.trans h1, k2.trans h2, k3.trans h3⟩

theorem admitsReading_transactionFrame : AdmitsReading engine (transactionFrame δ) where
  reading _ _ _ hreceive _ :=
    Within.of_reading (fun s => ⟨(hreceive s.client).1, rfl, rfl⟩) fun _ _ => ⟨rfl, rfl, rfl⟩
  yieldItem item := by
    refine Within.suspend (fun s => ⟨rfl, rfl, rfl⟩) fun event s => ?_
    cases event <;> exact ⟨rfl, rfl, rfl⟩
  needsReset _ _ := ⟨rfl, rfl, rfl⟩

def depthFrame (δ : Type) : Frame (Session δ) where
  rel s t := t.transactionDepth = s.transactionDepth
  refl _ := rfl
  trans h k := k.trans h

theorem call_within_depthFrame (p : PendingCall δ α) (context : String) :
    Within (depthFrame δ) (call engine p context) := Within.of_call (fun _ _ _ => rfl) fun _ _ _ => rfl

theorem admitsStatements_depthFrame : AdmitsStatements engine (depthFrame δ) where
  call := call_within_depthFrame
  reading _ _ _ _ := call_within_depthFrame _
  yieldItem item := by
    refine Within.suspend (fun s => rfl) fun event s => ?_
    cases event <;> rfl
  needsReset _ _ := rfl
  pendingRollback _ := rfl

theorem AllAnswered.closeUnfinished {f : Unit → Operation δ β} {s : Session δ} {es : List Event}
    (h : AllAnswered ((SqlxMssql.closeUnfinished engine >>= f) s es).state) :
    ∃ rest, (SqlxMssql.closeUnfinished engine >>= f) s es = f () s.closed rest := by
  rw [Process.bind_run] at h ⊢
  cases hreset : s.needsReset with
  | false =>
    refine ⟨es, ?_⟩
    rw [closeUnfinished_idle engine s es hreset, Process.andThen_returned, s.closed_idle hreset]
  | true =>
    rcases closeUnfinished_cases engine s es hreset with
      ⟨rest, -, hrun⟩ | ⟨exit, outcome, hexit, houtcome, -, -, hrun⟩
    · exact ⟨rest, by rw [hrun, Process.andThen_returned]⟩
    · rw [hrun, Process.andThen_stopped hexit] at h
      exact absurd (AllAnswered.of_record h) houtcome

/-- The connection stands at the level of the ideal store, on a server that represents it. -/
structure Tracks (s : Session δ) (n : Nested δ) : Prop where
  represents : Represents savepointName s.client.server n
  depth : s.transactionDepth = n.depth
  settled : s.pendingRollback = false

theorem Tracks.of_frame {s t : Session δ} {n : Nested δ} (h : Tracks s n)
    (ht : (transactionFrame δ).rel s t) : Tracks t n := by
  obtain ⟨hserver, hdepth, hpending⟩ := ht
  exact ⟨hserver ▸ h.represents, hdepth.trans h.depth, hpending.trans h.settled⟩

/-- A transaction has been abandoned, and its rollback is to undo everything. -/
structure Abandoned (s : Session δ) (n : Nested δ) : Prop where
  pending : s.pendingRollback = true
  depth : s.transactionDepth = 0
  ideal : n = Nested.idle s.client.server.durable

/-- The connection stands where the ideal store stands once it has been drained. -/
def Follows (s : Session δ) (n : Nested δ) : Prop := Tracks s n ∨ Abandoned s n

variable {s : Session δ} {n : Nested δ} {es : List Event}

theorem Abandoned.of_frame {s t : Session δ} {n : Nested δ} (h : Abandoned s n)
    (ht : (transactionFrame δ).rel s t) : Abandoned t n := by
  obtain ⟨hserver, hdepth, hpending⟩ := ht
  exact ⟨hpending.trans h.pending, hdepth.trans h.depth, by rw [hserver]; exact h.ideal⟩

theorem Follows.drain {f : Unit → Operation δ β} (h : Follows s n)
    (hanswered : AllAnswered ((drainPending engine >>= f) s es).state) :
    ∃ t rest, (drainPending engine >>= f) s es = f () t rest ∧ Tracks t n := by
  have hassoc : (drainPending engine >>= f) s es =
      (closeUnfinished engine >>= fun _ => rollBackAbandoned engine >>= f) s es := by
    simp only [drainPending, Process.bind_run, Process.andThen_andThen]
  rw [hassoc] at hanswered ⊢
  obtain ⟨rest, hclose⟩ := hanswered.closeUnfinished
  have hclosed : (transactionFrame δ).rel s s.closed :=
    ⟨s.closed_server, s.closed_transactionDepth, s.closed_pendingRollback⟩
  rw [hclose, Process.bind_run] at hanswered ⊢
  rcases h with h | h
  · replace h := h.of_frame hclosed
    refine ⟨s.closed, rest, ?_, h⟩
    rw [rollBackAbandoned_idle engine s.closed rest h.settled, Process.andThen_returned]
  · replace h := h.of_frame hclosed
    rcases rollBackAbandoned_cases engine s.closed rest h.pending with
      ⟨rest', -, -, hrun⟩ | ⟨exit, outcome, hexit, houtcome, -, -, hrun⟩
    · refine ⟨s.closed.rolledBack true .answered, rest', ?_, ?_, ?_, rfl⟩
      · rw [hrun, Process.andThen_returned]
      · rw [h.ideal]
        exact .idle _
      · rw [h.ideal]
        exact h.depth
    · rw [hrun, Process.andThen_stopped hexit] at hanswered
      exact absurd (AllAnswered.of_record hanswered) houtcome

theorem Tracks.control {c : ClientCall} {serve : Store Text δ → Option (Store Text δ)} {context : String}
    (level : ℕ → ℕ) {n' : Nested δ} (h : Tracks s n)
    (hserve : ∃ server, serve s.client.server = some server ∧ Represents savepointName server n')
    (hlevel : n'.depth = level n.depth)
    (hanswered : AllAnswered ((call engine (TdsClient.control c serve) context >>= fun _ =>
      Process.update fun s => { s with transactionDepth := level s.transactionDepth }) s es).state) :
    Tracks ((call engine (TdsClient.control c serve) context >>= fun _ =>
      Process.update fun s => { s with transactionDepth := level s.transactionDepth }) s es).state n' := by
  obtain ⟨rest, server, hserver, hrun⟩ := hanswered.call_bind
  obtain ⟨server', hserver', hrepresents⟩ := hserve
  obtain rfl : server' = server := Option.some_injective _ (hserver'.symm.trans hserver)
  rw [hrun]
  refine ⟨hrepresents, ?_, h.settled⟩
  rw [hlevel, ← h.depth]
  rfl

theorem Follows.begin (h : Follows s n) (hanswered : AllAnswered (beginTransaction engine s es).state) :
    Tracks (beginTransaction engine s es).state n.begin := by
  obtain ⟨t, rest, hrun, h⟩ := h.drain hanswered
  rw [beginTransaction, hrun] at hanswered ⊢
  simp only [Process.bind_run, Process.get_run, Process.andThen_returned] at hanswered ⊢
  by_cases hdepth : n.depth = 0
  · rw [if_pos (h.depth.trans hdepth)] at hanswered ⊢
    exact h.control (· + 1) ⟨_, rfl, h.represents.begin hdepth⟩ n.begin_depth hanswered
  · rw [if_neg (by rw [h.depth]; exact hdepth)] at hanswered ⊢
    obtain ⟨server, hsave, hserver⟩ := h.represents.save (Nat.pos_of_ne_zero hdepth)
    exact h.control (· + 1) ⟨server, by rw [h.depth]; exact hsave, hserver⟩ n.begin_depth hanswered

theorem Tracks.commit (h : Tracks s n) (hanswered : AllAnswered (commitTransaction engine s es).state) :
    Tracks (commitTransaction engine s es).state n.commit := by
  simp only [commitTransaction, Process.bind_run, Process.get_run, Process.andThen_returned,
    Process.when, h.depth] at hanswered ⊢
  by_cases h0 : n.depth = 0
  · rw [if_neg (by simpa using h0), n.commit_idle h0]
    exact h
  rw [if_pos h0] at hanswered ⊢
  by_cases h1 : n.depth = 1
  · rw [if_pos h1] at hanswered ⊢
    exact h.control (· - 1) (h.represents.commit_outer h1) n.commit_depth hanswered
  · -- an inner commit only lowers the level
    rw [if_neg h1]
    refine ⟨h.represents.commit_inner savepointName_injective (by omega), ?_, h.settled⟩
    rw [n.commit_depth, ← h.depth]
    rfl

theorem Tracks.rollback (h : Tracks s n)
    (hanswered : AllAnswered (rollbackTransaction engine s es).state) :
    Tracks (rollbackTransaction engine s es).state n.rollback := by
  simp only [rollbackTransaction, Process.bind_run, Process.get_run, Process.andThen_returned,
    Process.when, h.depth] at hanswered ⊢
  by_cases h0 : n.depth = 0
  · rw [if_neg (by simpa using h0), n.rollback_idle h0]
    exact h
  rw [if_pos h0] at hanswered ⊢
  refine h.control (· - 1) ?_ n.rollback_depth hanswered
  by_cases h1 : n.depth = 1
  · rw [if_pos h1]
    exact h.represents.rollback_outer h1
  · rw [if_neg h1]
    exact h.represents.rollback_inner savepointName_injective (by omega)

theorem Tracks.request {c : ClientCall} {r : Request} {context : String}
    {f : StatementResult → Operation δ β} (hf : ∀ result, Within (transactionFrame δ) (f result))
    (h : Tracks s n)
    (hanswered : AllAnswered ((call engine (TdsClient.request engine c r) context >>= f) s es).state) :
    Tracks ((call engine (TdsClient.request engine c r) context >>= f) s es).state
      (n.run (engine.effect r)) := by
  obtain ⟨rest, server, hserver, hrun⟩ := hanswered.call_bind
  obtain rfl : s.client.server.run (engine.effect r) = server := Option.some_injective _ hserver
  rw [hrun]
  refine Tracks.of_frame ⟨?_, ?_, ?_⟩ (hf _ _ _)
  · exact h.represents.run _
  · rw [n.run_depth, ← h.depth]
    rfl
  · exact h.settled

def Use.request : Use → Option Request
  | fetchMany sql (.ok arguments) =>
    match buildRequest sql arguments with
    | .ok (.ok request) => some request
    | _ => none
  | ping => some ⟨"SELECT 1".toList, []⟩
  | collectRows request => some request
  | queryRows sql => some ⟨sql, []⟩
  | execSql sql => some ⟨sql, []⟩
  | _ => none

/-- What a use does to the ideal store. Abandoning a transaction undoes every level. -/
def Use.ideal (engine : SqlEngine δ) (use : Use) (n : Nested δ) : Nested δ :=
  match use with
  | begin => n.begin
  | commit => n.commit
  | rollback => n.rollback
  | startRollback => Nested.idle n.durable
  | _ =>
    match use.request with
    | some request => n.run (engine.effect request)
    | none => n

/-- A use other than describing, whose requests depend on the answers of the server. -/
def Use.IsStep : Use → Prop
  | describe _ => False
  | _ => True

instance : (use : Use) → Decidable use.IsStep
  | .describe _ => isFalse id
  | .begin | .commit | .rollback | .startRollback | .fetchMany _ _ | .ping | .collectRows _
  | .queryRows _ | .execSql _ => isTrue trivial

theorem Follows.fetchMany {sql : Text} {arguments : Except Text (Option (List SqlType))} (h : Follows s n)
    (hanswered : AllAnswered (SqlxMssql.fetchMany engine sql arguments s es).state) :
    Follows (SqlxMssql.fetchMany engine sql arguments s es).state
      (Use.ideal engine (.fetchMany sql arguments) n) := by
  cases arguments with
  | error message => exact h
  | ok arguments =>
    change AllAnswered ((drainPending engine >>= _) s es).state at hanswered
    obtain ⟨t, rest, hrun, h⟩ := h.drain hanswered
    change Follows ((drainPending engine >>= _) s es).state _
    refine .inl ?_
    rw [hrun] at hanswered ⊢
    have hresults := (admitsReading_transactionFrame : AdmitsReading engine (transactionFrame δ)).fetchResults
    rcases hbuild : buildRequest sql arguments with a | e | request
    · simpa [Use.ideal, Use.request, hbuild] using h
    · simpa [Use.ideal, Use.request, hbuild] using h
    · rw [Process.bind_run, hbuild, lift_ok, Process.andThen_returned] at hanswered
      rw [Process.bind_run, lift_ok, Process.andThen_returned]
      simp only [Use.ideal, Use.request, hbuild]
      by_cases hparams : request.params.isEmpty
      · rw [if_pos hparams] at hanswered ⊢
        have hrequest : request = ⟨request.sql, []⟩ := by
          rw [← List.isEmpty_iff.mp hparams]
        rw [hrequest]
        exact h.request hresults hanswered
      · rw [if_neg hparams] at hanswered ⊢
        exact h.request hresults hanswered

theorem Abandoned.commit (h : Abandoned s n) : (commitTransaction engine s es).state = s := by
  rw [commitTransaction_idle engine s es h.depth]

theorem Abandoned.rollback (h : Abandoned s n) : (rollbackTransaction engine s es).state = s := by
  rw [rollbackTransaction_idle engine s es h.depth]

theorem Follows.startRollback (h : Follows s n) :
    Abandoned (δ := δ) (queueRollback s es).state (Nested.idle n.durable) := by
  refine ⟨rfl, rfl, ?_⟩
  rcases h with h | h
  · exact congrArg Nested.idle h.represents.durable_eq.symm
  · rw [h.ideal]
    rfl

theorem Follows.operation (features : Features) {use : Use} (huse : use.IsStep) (h : Follows s n)
    (hanswered : AllAnswered (use.operation engine features s es).state) :
    Follows (use.operation engine features s es).state (use.ideal engine n) := by
  cases use with
  | begin => exact .inl (h.begin hanswered)
  | commit =>
    rcases h with h | h
    · exact .inl (h.commit hanswered)
    · rw [Use.operation, h.commit, Use.ideal, n.commit_idle (by rw [h.ideal]; rfl)]
      exact .inr h
  | rollback =>
    rcases h with h | h
    · exact .inl (h.rollback hanswered)
    · rw [Use.operation, h.rollback, Use.ideal, n.rollback_idle (by rw [h.ideal]; rfl)]
      exact .inr h
  | startRollback => exact .inr h.startRollback
  | describe sql => exact huse.elim
  | fetchMany sql arguments => exact h.fetchMany hanswered
  | ping =>
    obtain ⟨t, rest, hrun, h⟩ := h.drain hanswered
    simp only [Use.operation, ping, executeSimple, hrun] at hanswered ⊢
    exact .inl (h.request (fun _ => admitsReading_transactionFrame.closeQuery _) hanswered)
  | collectRows request =>
    rw [Use.operation, Process.bind_run, Process.andThen_pure_state] at hanswered ⊢
    obtain ⟨t, rest, hrun, h⟩ := h.drain hanswered
    simp only [SqlxMssql.collectRows, hrun] at hanswered ⊢
    exact .inl (h.request (fun _ => admitsReading_transactionFrame.readFirstRows _ _ _ _) hanswered)
  | queryRows sql =>
    rw [Use.operation, Process.bind_run, Process.andThen_pure_state] at hanswered ⊢
    obtain ⟨t, rest, hrun, h⟩ := h.drain hanswered
    simp only [SqlxMssql.queryRows, hrun] at hanswered ⊢
    refine .inl (h.request (fun _ => ?_) hanswered)
    exact Within.bind (admitsReading_transactionFrame.readFirstRows _ _ _ _) fun _ => Within.pure _
  | execSql sql =>
    obtain ⟨t, rest, hrun, h⟩ := h.drain hanswered
    simp only [Use.operation, execSql, hrun] at hanswered ⊢
    exact .inl (h.request admitsReading_transactionFrame.skipResults hanswered)

section Runs
variable (engine) (features : Features)

theorem AllAnswered.of_after {run : List (Use × List Event)}
    (h : AllAnswered (s.after engine features run)) : AllAnswered s := by
  obtain ⟨later, hlater⟩ : s.trace <+: (s.after engine features run).trace :=
    Session.after_induction engine features (P := fun t => s.trace <+: t.trace) run
      (fun u _ t ht => ht.trans (operation_extends_trace features u.1 t u.2)) List.prefix_rfl
  exact fun c hc => h c (by rw [← hlater, calls_append]; exact List.mem_append_left _ hc)

def idealAfter (run : List (Use × List Event)) (n : Nested δ) : Nested δ :=
  run.foldl (fun n u => u.1.ideal engine n) n

/-- In every run whose calls are all answered the connection follows the ideal store. -/
theorem Follows.after {run : List (Use × List Event)} (hsteps : ∀ u ∈ run, u.1.IsStep)
    (h : Follows s n) (hanswered : AllAnswered (s.after engine features run)) :
    Follows (s.after engine features run) (idealAfter engine run n) := by
  induction run generalizing s n with
  | nil => exact h
  | cons u run ih =>
    have hu : Follows (u.1.operation engine features s u.2).state (u.1.ideal engine n) :=
      h.operation features (hsteps u List.mem_cons_self) (AllAnswered.of_after engine features hanswered)
    exact ih (fun u' hu' => hsteps u' (List.mem_cons_of_mem u hu')) hu hanswered

theorem Follows.connected (data : δ) : Follows (Session.connected data) (Nested.idle data) :=
  .inl ⟨.idle data, rfl, rfl⟩

/-- No rollback is pending, now or later. -/
def settledFrame (δ : Type) : Frame (Session δ) where
  rel s t := s.pendingRollback = false → t.pendingRollback = false
  refl _ h := h
  trans h k := k ∘ h

theorem call_within_settledFrame {α : Type} (p : PendingCall δ α) (context : String) :
    Within (settledFrame δ) (call engine p context) :=
  Within.of_call (fun _ _ _ hs => hs) fun _ _ _ hs => hs

theorem admits_settledFrame : Admits engine (settledFrame δ) where
  call := call_within_settledFrame engine
  reading _ _ _ _ := call_within_settledFrame engine _
  yieldItem item := by
    refine Within.suspend (fun s hs => hs) fun event s hs => ?_
    cases event <;> exact hs
  needsReset _ _ h := h
  pendingRollback _ _ := rfl
  transactionDepth _ _ h := h

def NoneAbandoned (run : List (Use × List Event)) : Prop :=
  ∀ u ∈ run, u.1.IsStep ∧ u.1 ≠ .startRollback

theorem Tracks.after_connected (data : δ) {run : List (Use × List Event)} (hrun : NoneAbandoned run)
    (hanswered : AllAnswered ((Session.connected data).after engine features run)) :
    Tracks ((Session.connected data).after engine features run)
      (idealAfter engine run (Nested.idle data)) := by
  have hsettled : ((Session.connected data).after engine features run).pendingRollback = false :=
    Session.after_induction engine features (P := fun s => s.pendingRollback = false) run
      (fun u hu s hs => (admits_settledFrame engine).operation features u.1 (hrun u hu).2 s u.2 hs) rfl
  rcases (Follows.connected data).after engine features (fun u hu => (hrun u hu).1) hanswered with h | h
  · exact h
  · exact absurd h.pending (by simp [hsettled])

/-- What the server and the connection show of an ideal store: the data that a statement
sees, the durable data, whether a transaction is open, and the level. -/
structure Agrees (s : Session δ) (n : Nested δ) : Prop where
  data : s.client.server.data = n.data
  durable : s.client.server.durable = n.durable
  isOpen : s.client.server.transaction.isSome ↔ 0 < n.depth
  depth : s.transactionDepth = n.depth

/-- Nested transactions refine an ideal stack of them, in every run of begins, commits,
rollbacks and statements whose calls are all answered. -/
theorem nested_transactions_refine (data : δ) (run : List (Use × List Event)) (hrun : NoneAbandoned run)
    (hanswered : AllAnswered ((Session.connected data).after engine features run)) :
    Agrees ((Session.connected data).after engine features run)
      (idealAfter engine run (Nested.idle data)) := by
  have h := Tracks.after_connected engine features data hrun hanswered
  exact ⟨h.represents.data_eq, h.represents.durable_eq, h.represents.open_iff, h.depth⟩

theorem beginTransaction_depth (s : Session δ) (es : List Event) :
    (beginTransaction engine s es).state.transactionDepth ≤ s.transactionDepth + 1 := by
  have hdrain : (drainPending engine s es).state.transactionDepth = s.transactionDepth :=
    admitsStatements_depthFrame.drainPending s es
  refine Process.andThen_state (P := fun t : Session δ => t.transactionDepth ≤ s.transactionDepth + 1) (by omega)
    fun _ => ?_
  set t := (drainPending engine s es).state
  have hcall (p : PendingCall δ Unit) (context : String) :
      (call engine p context t (drainPending engine s es).rest).state.transactionDepth =
        t.transactionDepth := call_within_depthFrame p context t _
  simp only [Process.bind_run, Process.get_run, Process.andThen_returned]
  refine Process.andThen_state (P := fun t : Session δ => t.transactionDepth ≤ s.transactionDepth + 1) ?_
    fun _ => ?_
  · rw [hcall]
    omega
  · simp only [Process.update_run]
    rw [hcall]
    omega

theorem Use.ideal_depth {use : Use} (huse : use.IsStatement) (n : Nested δ) :
    (use.ideal engine n).depth = n.depth := by
  cases use with
  | begin | commit | rollback | startRollback => exact absurd huse id
  | fetchMany | describe | ping | collectRows | queryRows | execSql =>
    simp only [Use.ideal]
    split
    · exact n.run_depth _
    · rfl

/-- After an inner transaction is abandoned, whatever the connection is used for next, it
does not stand where the ideal store stands after rolling back the inner level: its level
has dropped to zero, or the transaction of the server has been left open. -/
theorem abandoned_inner_never_agrees (data : δ) (run : List (Use × List Event)) (hrun : NoneAbandoned run)
    (hanswered : AllAnswered ((Session.connected data).after engine features run))
    (hdepth : 2 ≤ ((Session.connected data).after engine features run).transactionDepth)
    (use : Use) (huse : use ≠ .startRollback) (es : List Event) :
    ¬ Agrees ((Session.connected data).after engine features (run ++ [(.startRollback, []), (use, es)]))
      (use.ideal engine (idealAfter engine run (Nested.idle data)).rollback) := by
  have h := Tracks.after_connected engine features data hrun hanswered
  rw [Session.after_append]
  set s := (Session.connected data).after engine features run
  set n := idealAfter engine run (Nested.idle data)
  have hn : 2 ≤ n.depth := h.depth ▸ hdepth
  have hopen : s.client.server.transaction.isSome := h.represents.open_iff.mpr (by omega)
  set t : Session δ := { s with pendingRollback := true, transactionDepth := 0 }
  have ht : t.transactionDepth = 0 := rfl
  -- at the lost level nothing agrees with a transaction that is still open
  have hlost (n' : Nested δ) : ¬ Agrees t n' := by
    intro hagrees
    have hlevel := hagrees.depth
    have := hagrees.isOpen.mp hopen
    omega
  change ¬ Agrees (use.operation engine features t es).state _
  intro hagrees
  by_cases hstatement : use.IsStatement
  · have hlevel : (use.operation engine features t es).state.transactionDepth = 0 :=
      admitsStatements_depthFrame.operation features use hstatement t es
    have := hagrees.depth
    rw [hlevel, Use.ideal_depth engine hstatement, n.rollback_depth] at this
    omega
  cases use with
  | begin =>
    have hlevel : (beginTransaction engine t es).state.transactionDepth ≤ 0 + 1 :=
      beginTransaction_depth engine t es
    have := hagrees.depth
    simp only [Use.operation, Use.ideal, Nested.begin_depth, Nested.rollback_depth] at this
    omega
  | commit =>
    rw [Use.operation, commitTransaction_idle engine t es ht] at hagrees
    exact hlost _ hagrees
  | rollback =>
    rw [Use.operation, rollbackTransaction_idle engine t es ht] at hagrees
    exact hlost _ hagrees
  | startRollback => exact huse rfl
  | fetchMany | describe | ping | collectRows | queryRows | execSql => exact hstatement trivial

end Runs

def countOnce : Use × List Event :=
  (.execSql "UPDATE counter".toList, [.answered, .answered, .answered])

/-- Two levels in a row use the same savepoint name; the second one is rolled back. -/
def reusedSavepoint : List (Use × List Event) :=
  [(.begin, [.answered]), countOnce, (.begin, [.answered]), countOnce, (.commit, []),
    (.begin, [.answered]), countOnce, (.rollback, [.answered]), (.commit, [.answered])]

theorem reusedSavepoint_agrees :
    Agrees ((Session.connected 0).after countingEngine allFeatures reusedSavepoint) ⟨2, 2, []⟩ :=
  nested_transactions_refine countingEngine allFeatures 0 reusedSavepoint
    (by simp [NoneAbandoned, reusedSavepoint, countOnce, Use.IsStep]) (by decide)

def outerAndInner : List (Use × List Event) :=
  [(.begin, [.answered]), countOnce, (.begin, [.answered]), countOnce]

theorem outerAndInner_abandoned :
    ¬ Agrees ((Session.connected 0).after countingEngine allFeatures
      (outerAndInner ++ [(.startRollback, []), (.commit, [])])) ⟨1, 1, []⟩ :=
  abandoned_inner_never_agrees countingEngine allFeatures 0 outerAndInner
    (by simp [NoneAbandoned, outerAndInner, countOnce, Use.IsStep]) (by decide) (by decide) .commit (by simp) []

/-- The abandoned inner level takes the work of the outer one with it, and the commit of the
outer level reports success without sending anything. -/
theorem abandoned_inner_loses_outer_work :
    let s := (Session.connected 0).after countingEngine allFeatures
      (outerAndInner ++ [(.startRollback, []), (.execSql "UPDATE counter".toList,
        [.answered, .answered, .answered, .answered])])
    let done := commitTransaction countingEngine s []
    let ideal := idealAfter countingEngine [countOnce, (.commit, [])]
      (idealAfter countingEngine outerAndInner (Nested.idle 0)).rollback
    AllAnswered s ∧ done.exit = .returned () ∧ done.state.trace = s.trace ∧
      done.state.client.server.durable = 1 ∧ ideal.durable = 2 := by
  decide

end SqlxMssql
