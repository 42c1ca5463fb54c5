import SqlxMssql.Connection.ParameterOrder
import SqlxMssql.Migrate.MigrationsTable
import SqlxMssql.Types.Decoding

/-! # What a query returns

The rows of a query are those of the first result set of its response, whatever comes before
and behind it. Reading them takes one answer for each row and for each of the calls around
them.
-/
namespace SqlxMssql
open Loops Utf8 Interaction Savepoints

variable {δ α : Type} (engine : SqlEngine δ)

section Returned
variable {engine}

theorem returns_readRows (metadata : List ColumnMetadata) (rows : List (List ColumnValues))
    (left : List StatementReply) (context : String) :
    Returns (fun t : Session δ => t.client.response = .rows metadata rows :: left) (readRows engine context)
      fun read _ => read = rows := by
  -- what has been read and what is left make up the rows
  let I (read : List (List ColumnValues)) (t : Session δ) : Prop :=
    ∃ unread, t.client.response = .rows metadata unread :: left ∧ rows = read ++ unread
  let next (read : List (List ColumnValues)) (row : Option (List ColumnValues)) (t : Session δ) : Prop :=
    row.elim (read = rows) fun values => I (read ++ [values]) t
  have hcall (read : List (List ColumnValues)) :
      Returns (I read) (call engine TdsClient.nextRow context) (next read) := by
    refine returns_call engine ?_
    rintro s server ⟨unread, hresponse, hrows⟩ -
    cases unread with
    | nil =>
      simp only [TdsClient.nextRow, TdsClient.reading, hresponse]
      exact (hrows.trans (List.append_nil read)).symm
    | cons row unread =>
      simp only [TdsClient.nextRow, TdsClient.reading, hresponse]
      refine ⟨unread, ?_, ?_⟩
      · simp only [Session.answer, Session.record, hresponse]
      · rw [hrows, List.append_assoc]
        rfl
  intro s es read t rest hs hrun
  refine Returns.loop (I := I) (Q := fun read _ => read = rows) (fun read => ?_) [] s es read t rest ⟨rows, hs, rfl⟩ hrun
  refine Returns.bind (hcall read) fun row => ?_
  cases row with
  | none => exact Returns.pure fun _ h => h
  | some values => exact Returns.pure fun _ h => h

/-- What has been read is the first result set of the response, or nothing. -/
theorem returns_readFirstRows (replies : List StatementReply) (result : StatementResult)
    (advanceContext rowContext closeContext : String) :
    Returns (fun t : Session δ => t.client.response = replies ∧ t.client.boundary = result)
      (readFirstRows engine result advanceContext rowContext closeContext) fun read _ => read = firstRows replies := by
  let positioned (found : Bool) (t : Session δ) : Prop :=
    t.client.response = replies.dropWhile (!·.hasRows) ∧ found = !(replies.dropWhile (!·.hasRows)).isEmpty
  have hposition : Returns (fun t : Session δ => t.client.response = replies ∧ t.client.boundary = result)
      (if result = .rows then pure true else call engine TdsClient.advanceToRows advanceContext) positioned := by
    by_cases hresult : result = .rows
    · rw [if_pos hresult]
      apply Returns.pure
      rintro t ⟨rfl, rfl⟩
      rw [TdsClient.boundary] at hresult
      refine ⟨(dropWhile_of_boundary hresult).symm, ?_⟩
      rw [dropWhile_of_boundary hresult]
      rcases hresponse : t.client.response with _ | ⟨reply, left⟩
      · rw [hresponse] at hresult
        cases hresult
      · rfl
    · rw [if_neg hresult]
      refine returns_call engine ?_
      rintro t server ⟨rfl, rfl⟩ -
      have hleft := dropWhile_drop_of_boundary hresult
      exact ⟨hleft, congrArg (fun left : List StatementReply => !left.isEmpty) hleft⟩
  have hread (found : Bool) : Returns (positioned found) (readPositioned engine rowContext closeContext found)
      fun read _ => read = firstRows replies := by
    rintro s es read t rest ⟨hresponse, hfound⟩ hrun
    rcases dropWhile_hasRows replies with hnone | ⟨metadata, rows, left, hsome⟩
    · rw [hnone] at hfound
      obtain rfl : found = false := hfound
      have hempty : Returns (fun _ : Session δ => True) (readPositioned engine rowContext closeContext false)
          fun read _ => read = ([], []) :=
        Returns.bind Returns.any fun _ => Returns.pure fun _ _ => rfl
      rw [firstRows, hnone]
      exact hempty s es read t rest trivial hrun
    · rw [hsome] at hfound hresponse
      obtain rfl : found = true := hfound
      have hmetadata : s.client.metadata = metadata := by rw [TdsClient.metadata, hresponse]
      have hrows : Returns (fun t : Session δ => t.client.response = .rows metadata rows :: left)
          (do
            let rows ← readRows engine rowContext
            call engine TdsClient.closeQuery closeContext
            return (metadata, rows) : Operation δ (List ColumnMetadata × List (List ColumnValues)))
          fun read _ => read = (metadata, rows) := by
        refine Returns.bind (returns_readRows metadata rows left rowContext) fun read => ?_
        refine Returns.bind (Q := fun _ _ => read = rows) ?_ fun _ => Returns.pure fun _ h => by rw [h]
        exact returns_call engine fun _ _ h _ => h
      rw [firstRows, hsome]
      subst hmetadata
      exact hrows s es read t rest hresponse hrun
  exact Returns.bind hposition hread

/-- A query returns the first result set that the server replied with. -/
theorem queryRows_returned {sql : Text} {s : Session δ} {es : List Event} (hreset : s.needsReset = false)
    (hsettled : s.pendingRollback = false) {read : List (List MssqlValue)}
    (h : (queryRows engine sql s es).exit = .returned read) :
    let first := firstRows (engine.replies ⟨sql, []⟩ s.client.server.data)
    read = first.2.map (rowValues first.1) := by
  let replied (result : StatementResult) (t : Session δ) : Prop :=
    t.client.response = engine.replies ⟨sql, []⟩ s.client.server.data ∧ t.client.boundary = result
  have hrequest : Returns (· = s) (call engine (TdsClient.execute engine sql) "query failed") replied := by
    refine returns_call engine ?_
    rintro _ server rfl -
    exact ⟨rfl, rfl⟩
  have hquery : Returns (· = s)
      (do
        let result ← call engine (TdsClient.execute engine sql) "query failed"
        let first ← readFirstRows engine result "failed to read the result set" "failed to read a row"
          "failed to close the result set"
        return first.2.map (rowValues first.1) : Operation δ (List (List MssqlValue)))
      fun read _ => read = (firstRows (engine.replies ⟨sql, []⟩ s.client.server.data)).2.map
        (rowValues (firstRows (engine.replies ⟨sql, []⟩ s.client.server.data)).1) := by
    refine Returns.bind hrequest fun result => Returns.bind (returns_readFirstRows _ result _ _ _) fun first => ?_
    exact Returns.pure fun _ h => by rw [h]
  rw [queryRows, Process.bind_run, drainPending_idle engine hreset hsettled, Process.andThen_returned] at h
  generalize hrun : (call engine (TdsClient.execute engine sql) "query failed" >>= _) s es = o at h
  rcases o with ⟨exit, t, rest⟩
  obtain rfl : exit = .returned read := h
  exact hquery s es read t rest rfl hrun

end Returned

section Answered
variable {metadata : List ColumnMetadata} {left : List StatementReply}

theorem nextRow_answered (context : String) {t : Session δ} (es : List Event) {rows : List (List ColumnValues)}
    (ht : t.client.response = .rows metadata rows :: left) :
    ∃ u, call engine TdsClient.nextRow context t (.answered :: es) = ⟨.returned rows.head?, u, es⟩ ∧
      u.client.response = .rows metadata rows.tail :: left := by
  have hserve : TdsClient.nextRow.serve (TdsClient.nextRow.sent t.client).server = some t.client.server := rfl
  refine ⟨t.answer TdsClient.nextRow t.client.server, ?_, ?_⟩
  · rw [call_answered engine TdsClient.nextRow context t es hserve]
    cases rows with
    | nil => simp [TdsClient.nextRow, TdsClient.reading, ht]
    | cons row rows => simp [TdsClient.nextRow, TdsClient.reading, ht]
  · cases rows with
    | nil => simp [Session.answer, Session.record, TdsClient.nextRow, TdsClient.reading, ht]
    | cons row rows => simp [Session.answer, Session.record, TdsClient.nextRow, TdsClient.reading, ht]

theorem readRows_answered (rows read : List (List ColumnValues)) (context : String) (rest : List Event)
    {t : Session δ} (ht : t.client.response = .rows metadata rows :: left) :
    ∃ u, Process.loop (fun rows => do
        match ← call engine TdsClient.nextRow context with
        | some values => return .inl (rows ++ [values])
        | none => return .inr rows) read t (List.replicate (rows.length + 1) .answered ++ rest) =
      ⟨.returned (read ++ rows), u, rest⟩ := by
  induction rows generalizing read t with
  | nil =>
    obtain ⟨u, hcall, -⟩ := nextRow_answered engine context (List.replicate 0 .answered ++ rest) ht
    rw [Process.loop_run, Process.bind_run, Process.andThen_andThen, List.length_nil, List.replicate_succ,
      List.cons_append, hcall, Process.andThen_returned, List.append_nil]
    exact ⟨u, rfl⟩
  | cons row rows ih =>
    obtain ⟨u, hcall, hnext⟩ :=
      nextRow_answered engine context (List.replicate (rows.length + 1) .answered ++ rest) ht
    obtain ⟨v, hv⟩ := ih (read ++ [row]) hnext
    rw [Process.loop_run, Process.bind_run, Process.andThen_andThen, List.length_cons, List.replicate_succ,
      List.cons_append, hcall, Process.andThen_returned]
    simp only [List.head?_cons, Process.bind_run, Process.pure_run, Process.andThen_returned, List.length_cons,
      Nat.lt_add_one, if_true]
    rw [hv, List.append_assoc]
    exact ⟨v, rfl⟩

/-- A query whose response begins with rows takes an answer for itself, one for each row, one
for their end and one for the close. -/
theorem queryRows_answered {sql : Text} {s : Session δ} (hreset : s.needsReset = false)
    (hsettled : s.pendingRollback = false) {rows : List (List ColumnValues)}
    (hreplies : engine.replies ⟨sql, []⟩ s.client.server.data = .rows metadata rows :: left) :
    (queryRows engine sql s (List.replicate (rows.length + 3) .answered)).exit =
      .returned (rows.map (rowValues metadata)) := by
  let t := s.answer (TdsClient.execute engine sql) (s.client.server.run (engine.effect ⟨sql, []⟩))
  have hresponse : t.client.response = .rows metadata rows :: left := hreplies
  have hboundary : t.client.boundary = .rows := by rw [TdsClient.boundary, hresponse]
  have hmetadata : t.client.metadata = metadata := by rw [TdsClient.metadata, hresponse]
  obtain ⟨u, hu⟩ := readRows_answered engine rows [] "failed to read a row" [.answered] hresponse
  rw [queryRows, Process.bind_run, drainPending_idle engine hreset hsettled, Process.andThen_returned,
    Process.bind_run, List.replicate_succ, call_answered engine (TdsClient.execute engine sql) "query failed" s _ rfl,
    Process.andThen_returned]
  change (Process.andThen (readFirstRows engine t.client.boundary _ _ _ t _) _).exit = _
  have hread : ∃ v, readFirstRows engine .rows "failed to read the result set" "failed to read a row"
      "failed to close the result set" t (List.replicate (rows.length + 1) .answered ++ [.answered]) =
      ⟨.returned (metadata, rows), v, []⟩ := by
    refine ⟨u.answer TdsClient.closeQuery u.client.server, ?_⟩
    have hrows : readRows engine "failed to read a row" t (List.replicate (rows.length + 1) .answered ++ [.answered]) =
        ⟨.returned rows, u, [.answered]⟩ := hu
    change Process.andThen (readRows engine "failed to read a row" t _) _ = _
    rw [hrows, Process.andThen_returned, Process.bind_run,
      call_answered engine TdsClient.closeQuery _ u [] (rfl : _ = some u.client.server), hmetadata]
    rfl
  obtain ⟨v, hv⟩ := hread
  rw [← List.replicate_succ', List.replicate_succ, ← List.replicate_succ] at hv
  rw [hboundary, hv]
  rfl

end Answered

section Values
variable (tds : TdsNumbers)

/-- The accessors of an owned value are those of a reference to it. -/
def MssqlValue.asI64 (self : MssqlValue) : Option ℤ := (self.asRef tds).asI64

def MssqlValue.asBytes (self : MssqlValue) : Option (List UInt8) := (self.asRef tds).asBytes

/-- The first column of the first row. -/
def scalarI64 (sql : Text) : Operation δ (Option ℤ) := do
  let rows ← queryRows engine sql
  return rows.head?.bind fun row => row.head?.bind (·.asI64 tds)

/-- The pairs of version and checksum of the migrations table. -/
def listMigrations (sql : Text) : Operation δ (List (ℤ × List UInt8)) := do
  let rows ← queryRows engine sql
  return rows.map fun row =>
    ((row.head?.bind (·.asI64 tds)).getD 0, (row[1]?.bind (·.asBytes tds)).getD [])

end Values

end SqlxMssql
