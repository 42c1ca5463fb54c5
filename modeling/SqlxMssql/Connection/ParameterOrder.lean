import SqlxMssql.Connection.Describe
import SqlxMssql.Foundations.Lockstep
import SqlxMssql.Text.Lexing
import SqlxMssql.Types.DeclaredSizes

/-! # The order of the described parameters

The rows that describe the parameters of a statement may arrive in any order. They are sorted
by their ordinals, so the declarations and the types line up with the markers, and two servers
that send the same rows in different orders have the same statement described.
-/
namespace SqlxMssql
open Loops Utf8 Interaction ParamMarkers

section Keys
variable {α κ : Type} [LinearOrder κ] (key : α → κ)

def sortByKey (l : List α) : List α := l.mergeSort fun a b => decide (key a ≤ key b)

theorem sortByKey_perm (l : List α) : (sortByKey key l).Perm l := List.mergeSort_perm l _

variable {key}

theorem pairwise_sortByKey {l : List α} (h : (l.map key).Nodup) :
    (sortByKey key l).Pairwise fun a b => key a < key b := by
  have hle : (sortByKey key l).Pairwise fun a b => key a ≤ key b := by
    have hsorted : (sortByKey key l).Pairwise fun a b => decide (key a ≤ key b) = true := by
      apply List.pairwise_mergeSort
      · simpa using fun a b c => le_trans
      · simpa using fun a b => le_total _ _
    simpa using hsorted
  have hne : (sortByKey key l).Pairwise fun a b => key a ≠ key b :=
    List.pairwise_map.mp (((sortByKey_perm key l).map key).nodup_iff.mpr h)
  exact hle.imp₂ (fun a b hab hne => lt_of_le_of_ne hab hne) hne

/-- With distinct keys, the order before sorting does not matter. -/
theorem sortByKey_eq_of_perm {l l' : List α} (hperm : l.Perm l') (h : (l.map key).Nodup) :
    sortByKey key l = sortByKey key l' := by
  have h' : (l'.map key).Nodup := (hperm.map key).nodup_iff.mp h
  refine List.Perm.eq_of_pairwise (fun a b _ _ hab hba => absurd hba hab.asymm) (pairwise_sortByKey h)
    (pairwise_sortByKey h') ?_
  exact (sortByKey_perm key l).trans (hperm.trans (sortByKey_perm key l').symm)

end Keys

section Rows
variable (features : Features) (metadata : List ColumnMetadata)

def parameterOrdinal (values : List ColumnValues) : ℤ := (inferredParameter metadata values).1

def parameterTypeName (values : List ColumnValues) : Text := (inferredParameter metadata values).2.2

/-- The name of a parameter and its type. -/
def parameterDeclaration (values : List ColumnValues) : Text :=
  (inferredParameter metadata values).2.1 ++ ' ' :: parameterTypeName metadata values

/-- What is reported of the parameters of a statement with the given number of markers. -/
def InferredParameters.report (inferred : InferredParameters) (markerCount : ℕ) : List MssqlTypeInfo ⊕ ℕ :=
  match inferred.types with
  | some types => if types.length = markerCount then .inl types else .inr markerCount
  | none => .inr markerCount

/-- The type name of the row is modelled, as a type with an exact Rust mapping. -/
def HasExactType (values : List ColumnValues) (info : MssqlTypeInfo) : Prop :=
  fromSystemTypeName (parameterTypeName metadata values) = .ok (some info) ∧
    info.hasExactRustMapping features = true

/-- The parameters line up with the rows in the order of their ordinals. -/
structure LinesUp (rows sorted : List (List ColumnValues)) (inferred : InferredParameters) : Prop where
  rearranged : sorted.Perm rows
  increasing : sorted.Pairwise fun a b => parameterOrdinal metadata a < parameterOrdinal metadata b
  declarations : inferred.declarations =
    List.intercalate ", ".toList (sorted.map (parameterDeclaration metadata))
  types : ∀ markerCount types, inferred.report markerCount = .inl types ↔
    rows.length = markerCount ∧ List.Forall₂ (HasExactType features metadata) sorted types
  count : ∀ markerCount, (∀ types, inferred.report markerCount ≠ .inl types) →
    inferred.report markerCount = .inr markerCount

variable {rows rows' : List (List ColumnValues)}

/-- The rows are sorted as they are. -/
theorem inferredParameters_eq (rows : List (List ColumnValues)) :
    inferredParameters features metadata rows = do
      let sorted := sortByKey (parameterOrdinal metadata) rows
      let infos ← sorted.mapM fun values => fromSystemTypeName (parameterTypeName metadata values)
      let known := infos.filterMap fun info => info.filter (·.hasExactRustMapping features)
      return { declarations := List.intercalate ", ".toList (sorted.map (parameterDeclaration metadata))
               types := if known.length = infos.length then some known else none } := by
  have hsorted : (rows.map (inferredParameter metadata)).mergeSort (fun a b => decide (a.1 ≤ b.1)) =
      (sortByKey (parameterOrdinal metadata) rows).map (inferredParameter metadata) := by
    rw [sortByKey]
    refine (List.map_mergeSort ?_).symm
    intro a _ b _
    rfl
  rw [inferredParameters, hsorted]
  simp only [List.mapM_map, List.map_map]
  rfl

theorem inferredParameters_of_perm (hperm : rows.Perm rows') (h : (rows.map (parameterOrdinal metadata)).Nodup) :
    inferredParameters features metadata rows' = inferredParameters features metadata rows := by
  rw [inferredParameters_eq, inferredParameters_eq, sortByKey_eq_of_perm hperm h]

theorem hasExactType_iff {values : List ColumnValues} {info : Option MssqlTypeInfo}
    (hinfo : fromSystemTypeName (parameterTypeName metadata values) = .ok info) (exact : MssqlTypeInfo) :
    HasExactType features metadata values exact ↔ info.filter (·.hasExactRustMapping features) = some exact := by
  rw [HasExactType, hinfo, Except.ok.injEq, Option.filter_eq_some_iff]

/-- No row is skipped exactly when every row has an exact type. -/
theorem exactTypes_iff {sorted : List (List ColumnValues)} {infos : List (Option MssqlTypeInfo)}
    (hinfos : List.Forall₂ (fun values info => fromSystemTypeName (parameterTypeName metadata values) = .ok info)
      sorted infos) (types : List MssqlTypeInfo) :
    (infos.filterMap fun info => info.filter (·.hasExactRustMapping features)) = types ∧
        types.length = infos.length ↔
      List.Forall₂ (HasExactType features metadata) sorted types := by
  rw [filterMap_full_iff]
  induction hinfos generalizing types with
  | nil => simp only [List.forall₂_nil_left_iff]
  | cons hinfo hinfos ih =>
    simp only [List.forall₂_cons_left_iff, hasExactType_iff features metadata hinfo, ih]

theorem InferredParameters.report_eq_inl {inferred : InferredParameters} {markerCount : ℕ}
    {types : List MssqlTypeInfo} :
    inferred.report markerCount = .inl types ↔ inferred.types = some types ∧ types.length = markerCount := by
  rw [InferredParameters.report]
  cases inferred.types with
  | none => exact iff_of_false (fun h => by cases h) fun h => by cases h.1
  | some known =>
    by_cases hcount : known.length = markerCount
    · simp only [hcount, ↓reduceIte, Sum.inl.injEq, Option.some.injEq]
      constructor
      · rintro rfl
        exact ⟨rfl, hcount⟩
      · exact fun h => h.1
    · simp only [hcount, ↓reduceIte, reduceCtorEq, Option.some.injEq, false_iff, not_and]
      rintro rfl
      exact hcount

theorem InferredParameters.report_eq_inr {inferred : InferredParameters} {markerCount : ℕ}
    (h : ∀ types, inferred.report markerCount ≠ .inl types) : inferred.report markerCount = .inr markerCount := by
  cases hreport : inferred.report markerCount with
  | inl types => exact absurd hreport (h types)
  | inr count =>
    rw [InferredParameters.report] at hreport
    split at hreport
    · split at hreport
      · cases hreport
      · exact hreport.symm
    · exact hreport.symm

/-- The rows line up, unless some type name makes its parser panic. -/
theorem exists_linesUp (rows : List (List ColumnValues)) (h : (rows.map (parameterOrdinal metadata)).Nodup) :
    (∃ values ∈ rows, ClosedBeforeOpened (parameterTypeName metadata values)) ∨
      ∃ inferred, inferredParameters features metadata rows = .ok inferred ∧
        ∃ sorted, LinesUp features metadata rows sorted inferred := by
  by_cases hcloses : ∃ values ∈ rows, ClosedBeforeOpened (parameterTypeName metadata values)
  · exact .inl hcloses
  have hperm := sortByKey_perm (parameterOrdinal metadata) rows
  obtain ⟨infos, hrun⟩ := mapM_returns fun values hmem =>
    (fromSystemTypeName_returns_iff _).mpr fun h => hcloses ⟨values, hperm.subset hmem, h⟩
  have hinfos := mapM_eq_ok.mp hrun
  have hlength : infos.length = rows.length := hinfos.length_eq.symm.trans hperm.length_eq
  have hinferred := inferredParameters_eq features metadata rows
  simp only [hrun, ok_bind, pure_eq_ok] at hinferred
  refine .inr ⟨_, hinferred, sortByKey (parameterOrdinal metadata) rows, hperm, pairwise_sortByKey h, rfl,
    fun markerCount types => ?_, fun markerCount => InferredParameters.report_eq_inr⟩
  rw [InferredParameters.report_eq_inl, ← exactTypes_iff features metadata hinfos types]
  simp only [Option.ite_none_right_eq_some, Option.some.injEq]
  constructor
  · rintro ⟨⟨hknown, rfl⟩, hcount⟩
    exact ⟨by rw [← hlength, ← hknown, hcount], rfl, hknown⟩
  · rintro ⟨hcount, rfl, hknown⟩
    exact ⟨⟨hknown, rfl⟩, by rw [hknown, hlength, hcount]⟩

end Rows

/-- The metadata and the rows of the first result set. -/
def firstRows (replies : List StatementReply) : List ColumnMetadata × List (List ColumnValues) :=
  match replies.dropWhile (!·.hasRows) with
  | .rows metadata rows :: _ => (metadata, rows)
  | _ => ([], [])

/-- Where one reply has rows, the other has as many, with the same metadata. -/
inductive StatementReply.SameShape : StatementReply → StatementReply → Prop where
  | rows (metadata : List ColumnMetadata) {rows rows' : List (List ColumnValues)} (h : rows.length = rows'.length) :
    SameShape (.rows metadata rows) (.rows metadata rows')
  | noRows (rowsAffected : Option UInt64) : SameShape (.noRows rowsAffected) (.noRows rowsAffected)

/-- The rows arrive in another order, and their ordinals are distinct. -/
inductive StatementReply.Reordered : StatementReply → StatementReply → Prop where
  | rows {metadata : List ColumnMetadata} {rows rows' : List (List ColumnValues)} (hperm : rows.Perm rows')
    (hdistinct : (rows.map (parameterOrdinal metadata)).Nodup) :
    Reordered (.rows metadata rows) (.rows metadata rows')
  | noRows (rowsAffected : Option UInt64) : Reordered (.noRows rowsAffected) (.noRows rowsAffected)

theorem StatementReply.Reordered.sameShape {reply reply' : StatementReply} (h : reply.Reordered reply') :
    reply.SameShape reply' := by
  cases h with
  | rows hperm hdistinct => exact .rows _ hperm.length_eq
  | noRows n => exact .noRows n

theorem StatementReply.SameShape.refl (reply : StatementReply) : reply.SameShape reply := by
  cases reply with
  | rows metadata rows => exact .rows metadata rfl
  | noRows n => exact .noRows n

theorem StatementReply.SameShape.hasRows_eq {reply reply' : StatementReply} (h : reply.SameShape reply') :
    reply'.hasRows = reply.hasRows := by
  cases h with
  | rows | noRows => rfl

section Reading
variable {δ α : Type} {engine : SqlEngine δ}

def SqlEngine.withReplies (engine : SqlEngine δ) (replies : Request → δ → List StatementReply) : SqlEngine δ :=
  { engine with replies }

def Session.withResponse (response : List StatementReply) (s : Session δ) : Session δ :=
  { s with client := { s.client with response } }

def DiffersInResponse (s s' : Session δ) : Prop := ∃ response, s' = s.withResponse response

/-- A call that reads on keeps all but the response the same. -/
theorem lockstep_reading {c : ClientCall} {receive : TdsClient δ → α × TdsClient δ} {P : Session δ → Session δ → Prop}
    {Q : α → α → Session δ → Session δ → Prop} (context : String) (hP : ∀ s s', P s s' → DiffersInResponse s s')
    (hQ : ∀ s s', P s s' → Q (receive s.client).1 (receive s'.client).1
      ({ s with client := (receive s.client).2 }.record (.called c .answered))
      ({ s' with client := (receive s'.client).2 }.record (.called c .answered))) :
    Lockstep P (call engine (TdsClient.reading c receive) context)
      (call engine (TdsClient.reading c receive) context) Q DiffersInResponse := by
  have hkept (applied : Bool) (outcome : CallOutcome) (s s' : Session δ) (hs : P s s') : DiffersInResponse
      ((s.calling (TdsClient.reading c receive) applied).record (.called c outcome))
      ((s'.calling (TdsClient.reading c receive) applied).record (.called c outcome)) := by
    obtain ⟨response, rfl⟩ := hP s s' hs
    refine ⟨response, ?_⟩
    cases applied with
    | true | false => rfl
  refine Lockstep.mapErr _ (Lockstep.suspend (fun s s' hs => hkept false .pending s s' hs) fun e s s' hs rest => ?_)
  cases e with
  | answered => exact .returned (hQ s s' hs) rest
  | refused error applied => exact .stopped (fun a h => by cases h) (hkept applied .refused s s' hs) rest
  | cut applied => exact .stopped (fun a h => by cases h) (hkept applied .pending s s' hs) rest

/-- The responses of the two sessions begin with result sets that are read alike: the rows that
have been read and those that are left make up all rows. -/
def ReadingOn (metadata : List ColumnMetadata) (all all' read read' : List (List ColumnValues)) (s s' : Session δ) :
    Prop :=
  ∃ rest rest' left left', s.client.response = .rows metadata rest :: left ∧
    s' = s.withResponse (.rows metadata rest' :: left') ∧ rest.length = rest'.length ∧
      read ++ rest = all ∧ read' ++ rest' = all'

theorem ReadingOn.differs {metadata : List ColumnMetadata} {all all' read read' : List (List ColumnValues)}
    {s s' : Session δ} (h : ReadingOn metadata all all' read read' s s') : DiffersInResponse s s' := by
  obtain ⟨rest, rest', left, left', -, hs, -⟩ := h
  exact ⟨_, hs⟩

theorem lockstep_readRows (metadata : List ColumnMetadata) (all all' : List (List ColumnValues)) (context : String) :
    Lockstep (ReadingOn metadata all all' [] []) (readRows engine context) (readRows engine context)
      (fun rows rows' s s' => rows = all ∧ rows' = all' ∧ DiffersInResponse (δ := δ) s s') DiffersInResponse := by
  refine Lockstep.loop (I := ReadingOn metadata all all') (fun _ _ _ _ h => h.differs) (fun read read' => ?_) [] []
  refine Lockstep.bind (lockstep_reading (Q := fun row row' s s' =>
    (∃ values values', row = some values ∧ row' = some values' ∧
        ReadingOn metadata all all' (read ++ [values]) (read' ++ [values']) s s') ∨
      row = none ∧ row' = none ∧ read = all ∧ read' = all' ∧ DiffersInResponse s s')
    context (fun s s' hs => hs.differs) fun s s' hs => ?_) fun row row' s s' es hs => ?_
  · obtain ⟨rest, rest', left, left', hresponse, rfl, hlength, rfl, rfl⟩ := hs
    rcases s with ⟨⟨⟨server, response, unread⟩, depth, needsReset, pendingRollback⟩, trace⟩
    obtain rfl : response = .rows metadata rest :: left := hresponse
    cases rest with
    | nil =>
      obtain rfl : rest' = [] := List.length_eq_zero_iff.mp hlength.symm
      exact .inr ⟨rfl, rfl, (List.append_nil read).symm, (List.append_nil read').symm, ⟨_, rfl⟩⟩
    | cons values rest =>
      obtain ⟨values', rest', rfl⟩ := List.exists_cons_of_length_eq_add_one hlength.symm
      exact .inl ⟨values, values', rfl, rfl, rest, rest', left, left', rfl, rfl, Nat.succ.inj hlength,
        List.append_cons read values rest ▸ rfl, List.append_cons read' values' rest' ▸ rfl⟩
  · obtain ⟨values, values', rfl, rfl, hreading⟩ | ⟨rfl, rfl, rfl, rfl, hdiffers⟩ := hs
    · have hturn : Lockstep.Turns (ReadingOn metadata all all')
          (fun rows rows' s s' => rows = all ∧ rows' = all' ∧ DiffersInResponse s s')
          (.inl (read ++ [values])) (.inl (read' ++ [values'])) s s' := hreading
      exact .returned hturn es
    · have hturn : Lockstep.Turns (ReadingOn metadata read read')
          (fun rows rows' s s' => rows = read ∧ rows' = read' ∧ DiffersInResponse s s')
          (.inr read) (.inr read') s s' := ⟨rfl, rfl, hdiffers⟩
      exact .returned hturn es

theorem forall₂_dropWhile {R : StatementReply → StatementReply → Prop}
    (hR : ∀ reply reply', R reply reply' → reply'.hasRows = reply.hasRows) {replies replies' : List StatementReply}
    (h : List.Forall₂ R replies replies') :
    List.Forall₂ R (replies.dropWhile (!·.hasRows)) (replies'.dropWhile (!·.hasRows)) := by
  induction h with
  | nil => exact .nil
  | @cons reply reply' replies replies' hreply h ih =>
    have hsame := hR reply reply' hreply
    cases hrows : reply.hasRows with
    | true =>
      rw [List.dropWhile_cons_of_neg (by simp [hrows]), List.dropWhile_cons_of_neg (by simp [hsame, hrows])]
      exact .cons hreply h
    | false =>
      rw [List.dropWhile_cons_of_pos (by simp [hrows]), List.dropWhile_cons_of_pos (by simp [hsame, hrows])]
      exact ih

theorem isEmpty_eq {replies replies' : List StatementReply}
    (h : List.Forall₂ StatementReply.SameShape replies replies') : replies'.isEmpty = replies.isEmpty := by
  cases h with
  | nil | cons => rfl

theorem moveTo_response {left left' : List StatementReply} (h : left'.isEmpty = left.isEmpty) (c : TdsClient δ)
    (response : List StatementReply) :
    TdsClient.moveTo left' { c with response } = { c.moveTo left with response := left' } := by
  rw [TdsClient.moveTo, TdsClient.moveTo, h]

theorem boundary_eq {c : TdsClient δ} {response : List StatementReply}
    (h : List.Forall₂ StatementReply.SameShape c.response response) :
    TdsClient.boundary { c with response } = c.boundary := by
  rcases c with ⟨server, replies, unread⟩
  cases h with
  | nil => rfl
  | cons hreply h =>
    cases hreply with
    | rows | noRows => rfl

theorem dropWhile_of_boundary {c : TdsClient δ} (h : c.boundary = .rows) :
    c.response.dropWhile (!·.hasRows) = c.response := by
  rw [TdsClient.boundary] at h
  rcases hresponse : c.response with _ | ⟨_ | _, _⟩
  · rfl
  · rfl
  · rw [hresponse] at h
    cases h

theorem dropWhile_drop_of_boundary {c : TdsClient δ} (h : c.boundary ≠ .rows) :
    (c.response.drop 1).dropWhile (!·.hasRows) = c.response.dropWhile (!·.hasRows) := by
  rw [TdsClient.boundary] at h
  rcases hresponse : c.response with _ | ⟨_ | _, _⟩
  · rfl
  · rw [hresponse] at h
    exact absurd rfl h
  · rfl

/-- The sessions stand at the first result sets, or there are none. -/
def Positioned (replies replies' : List StatementReply) (positioned positioned' : Bool) (s s' : Session δ) : Prop :=
  s.client.response = replies.dropWhile (!·.hasRows) ∧ s' = s.withResponse (replies'.dropWhile (!·.hasRows)) ∧
    positioned = !(replies.dropWhile (!·.hasRows)).isEmpty ∧ positioned' = positioned

theorem lockstep_atRows {replies replies' : List StatementReply}
    (h : List.Forall₂ StatementReply.SameShape replies replies') :
    Lockstep (fun s s' => s.client.response = replies ∧ s' = s.withResponse replies' ∧ s.client.boundary = .rows)
      (pure true : Operation δ Bool) (pure true) (Positioned replies replies') DiffersInResponse := by
  refine Lockstep.pure ?_
  rintro s _ ⟨hresponse, rfl, hrows⟩
  have hhead := dropWhile_of_boundary hrows
  have hhead' := dropWhile_of_boundary (c := { s.client with response := replies' })
    ((boundary_eq (hresponse ▸ h)).trans hrows)
  rw [hresponse] at hhead
  have hne : replies ≠ [] := by
    rintro rfl
    rw [TdsClient.boundary, hresponse] at hrows
    cases hrows
  exact ⟨by rw [hhead, hresponse], congrArg (s.withResponse ·) hhead'.symm,
    by rw [hhead, List.isEmpty_eq_false_iff.mpr hne, Bool.not_false], rfl⟩

theorem lockstep_advanceToRows {replies replies' : List StatementReply}
    (h : List.Forall₂ StatementReply.SameShape replies replies') (context : String) :
    Lockstep (fun s s' => s.client.response = replies ∧ s' = s.withResponse replies' ∧ s.client.boundary ≠ .rows)
      (call engine TdsClient.advanceToRows context) (call engine TdsClient.advanceToRows context)
      (Positioned replies replies') (DiffersInResponse (δ := δ)) := by
  refine lockstep_reading context (fun s s' hs => ⟨_, hs.2.1⟩) ?_
  rintro s _ ⟨hresponse, rfl, hrows⟩
  have hdrop := dropWhile_drop_of_boundary hrows
  have hdrop' : (replies'.drop 1).dropWhile (!·.hasRows) = replies'.dropWhile (!·.hasRows) :=
    dropWhile_drop_of_boundary (c := { s.client with response := replies' })
      fun hb => hrows ((boundary_eq (hresponse ▸ h)).symm.trans hb)
  have hempty : ((replies'.drop 1).dropWhile (!·.hasRows)).isEmpty =
      ((s.client.response.drop 1).dropWhile (!·.hasRows)).isEmpty := by
    rw [hdrop, hdrop', hresponse, isEmpty_eq (forall₂_dropWhile (fun _ _ => StatementReply.SameShape.hasRows_eq) h)]
  have hclient := moveTo_response hempty s.client replies'
  rw [← hresponse]
  refine ⟨hdrop, ?_, congrArg (!·.isEmpty) hdrop, congrArg Bool.not hempty⟩
  rw [← hdrop']
  exact congrArg (fun client => Session.record (.called .advanceToRows .answered) { s with client }) hclient

theorem lockstep_position {replies replies' : List StatementReply} (result : StatementResult)
    (h : List.Forall₂ StatementReply.SameShape replies replies') (context : String) :
    Lockstep (fun s s' => s.client.response = replies ∧ s' = s.withResponse replies' ∧ result = s.client.boundary)
      (if result = .rows then pure true else call engine TdsClient.advanceToRows context)
      (if result = .rows then pure true else call engine TdsClient.advanceToRows context)
      (Positioned replies replies') (DiffersInResponse (δ := δ)) := by
  by_cases hrows : result = .rows
  · rw [if_pos hrows]
    refine (lockstep_atRows h).mono (fun s s' hs => ?_) fun _ _ _ _ hq => hq
    exact ⟨hs.1, hs.2.1, hs.2.2.symm.trans hrows⟩
  · rw [if_neg hrows]
    refine (lockstep_advanceToRows h context).mono (fun s s' hs => ?_) fun _ _ _ _ hq => hq
    exact ⟨hs.1, hs.2.1, fun hb => hrows (hs.2.2.trans hb)⟩

theorem ReadingOn.metadata_eq {metadata : List ColumnMetadata} {all all' read read' : List (List ColumnValues)}
    {s s' : Session δ} (h : ReadingOn metadata all all' read read' s s') :
    s.client.metadata = metadata ∧ s'.client.metadata = metadata := by
  obtain ⟨rest, rest', left, left', hresponse, rfl, -⟩ := h
  exact ⟨by rw [TdsClient.metadata, hresponse], rfl⟩

/-- Once the response is closed, the sessions are the same. -/
theorem lockstep_closeQuery (context : String) :
    Lockstep (DiffersInResponse (δ := δ)) (call engine TdsClient.closeQuery context)
      (call engine TdsClient.closeQuery context) (fun _ _ s s' => s = s') DiffersInResponse := by
  refine lockstep_reading context (fun s s' hs => hs) ?_
  rintro s _ ⟨response, rfl⟩
  rfl

theorem lockstep_readAndClose (metadata : List ColumnMetadata) (rows rows' : List (List ColumnValues))
    (row close : String) :
    Lockstep (ReadingOn metadata rows rows' [] [])
      (do
        let metadata := (← Process.get).client.metadata
        let rows ← readRows engine row
        call engine TdsClient.closeQuery close
        return (metadata, rows))
      (do
        let metadata := (← Process.get).client.metadata
        let rows ← readRows engine row
        call engine TdsClient.closeQuery close
        return (metadata, rows))
      (fun read read' s s' => s = s' ∧ read = (metadata, rows) ∧ read' = (metadata, rows'))
      (DiffersInResponse (δ := δ)) := by
  refine Lockstep.bind Lockstep.get ?_
  rintro t t' _ _ es ⟨rfl, rfl, ht⟩
  obtain ⟨hmetadata, hmetadata'⟩ := ht.metadata_eq
  refine Lockstep.bind (lockstep_readRows metadata rows rows' row) ?_ _ _ es ht
  rintro _ _ u u' es ⟨rfl, rfl, hdiffers⟩
  refine Lockstep.bind (lockstep_closeQuery close) (fun _ _ => Lockstep.pure fun v v' hv => ?_) u u' es hdiffers
  exact ⟨hv, by rw [hmetadata], by rw [hmetadata']⟩

/-- From related responses, the first result sets are read in lockstep. -/
theorem lockstep_readFirstRows {replies replies' : List StatementReply} (result : StatementResult)
    (h : List.Forall₂ StatementReply.SameShape replies replies') (advance row close : String) :
    Lockstep (fun s s' => s.client.response = replies ∧ s' = s.withResponse replies' ∧ result = s.client.boundary)
      (readFirstRows engine result advance row close) (readFirstRows engine result advance row close)
      (fun read read' s s' => s = s' ∧ read = firstRows replies ∧ read' = firstRows replies')
      (DiffersInResponse (δ := δ)) := by
  refine Lockstep.bind (lockstep_position result h advance) ?_
  rintro _ positioned s _ es ⟨hresponse, rfl, hpositioned, rfl⟩
  rw [firstRows, firstRows]
  have hleft := forall₂_dropWhile (fun _ _ => StatementReply.SameShape.hasRows_eq) h
  have hhead := List.head?_dropWhile_not (!·.hasRows) replies
  generalize replies.dropWhile (!·.hasRows) = left, replies'.dropWhile (!·.hasRows) = left' at *
  cases hleft with
  | nil =>
    obtain rfl : positioned = false := hpositioned
    have hsame : s.withResponse [] = s := by
      rw [Session.withResponse, ← hresponse]
    rw [hsame]
    exact Lockstep.bind (Lockstep.same _ fun s => ⟨_, rfl⟩) (fun _ _ => Lockstep.pure fun s s' hs => ⟨hs.2, rfl, rfl⟩)
      s s es rfl
  | @cons reply reply' left left' hreply hleft =>
    obtain rfl : positioned = true := hpositioned
    cases hreply with
    | noRows n => simp [StatementReply.hasRows] at hhead
    | @rows metadata rows rows' hlength =>
      exact lockstep_readAndClose metadata rows rows' row close s _ es
        ⟨rows, rows', left, left', hresponse, rfl, hlength, rfl, rfl⟩

theorem lockstep_request {replies : Request → δ → List StatementReply} {request : Request} (context : String)
    (h : ∀ data, List.Forall₂ StatementReply.SameShape (engine.replies request data) (replies request data)) :
    Lockstep Eq (call engine (TdsClient.executeSpExecutesql engine request) context)
      (call engine (TdsClient.executeSpExecutesql (engine.withReplies replies) request) context)
      (fun result result' s s' => ∃ data, s.client.response = engine.replies request data ∧
        s' = s.withResponse (replies request data) ∧ result = s.client.boundary ∧ result' = result)
      DiffersInResponse := by
  refine Lockstep.mapErr _ (Lockstep.suspend ?_ ?_)
  · rintro s _ rfl
    exact ⟨_, rfl⟩
  · rintro e s _ rfl rest
    cases e with
    | answered =>
      refine .returned ⟨s.client.server.data, rfl, ?_, rfl, ?_⟩ rest
      · have hclient := moveTo_response (isEmpty_eq (h s.client.server.data))
          ⟨s.client.server.run (engine.effect request), engine.replies request s.client.server.data, true⟩
          (replies request s.client.server.data)
        exact congrArg (fun client => Session.record (.called (.executeSpExecutesql request) .answered) { s with client })
          hclient
      · exact boundary_eq (c := ⟨s.client.server.run (engine.effect request),
          engine.replies request s.client.server.data, true⟩) (h s.client.server.data)
    | refused error applied =>
      refine .stopped (fun a h => by cases h) ?_ rest
      cases applied with
      | true | false => exact ⟨_, rfl⟩
    | cut applied =>
      refine .stopped (fun a h => by cases h) ?_ rest
      cases applied with
      | true | false => exact ⟨_, rfl⟩

theorem lockstep_collectRows {replies : Request → δ → List StatementReply} {request : Request}
    (h : ∀ data, List.Forall₂ StatementReply.SameShape (engine.replies request data) (replies request data)) :
    Lockstep Eq (collectRows engine request) (collectRows (engine.withReplies replies) request)
      (fun read read' s s' => s = s' ∧ ∃ data, read = firstRows (engine.replies request data) ∧
        read' = firstRows (replies request data)) DiffersInResponse := by
  change Lockstep Eq (drainPending engine >>= fun _ =>
      call engine (TdsClient.executeSpExecutesql engine request) "failed to describe the statement" >>= fun result =>
        readFirstRows engine result _ _ _)
    (drainPending engine >>= fun _ =>
      call engine (TdsClient.executeSpExecutesql (engine.withReplies replies) request)
        "failed to describe the statement" >>= fun result => readFirstRows engine result _ _ _) _ _
  refine Lockstep.bind (Lockstep.same _ fun s => ⟨_, rfl⟩) fun _ _ => ?_
  refine Lockstep.bind ((lockstep_request _ h).mono (fun s s' hs => hs.2) fun _ _ _ _ hq => hq) fun result result' => ?_
  rintro s s' es ⟨data, hresponse, rfl, hboundary, rfl⟩
  refine Lockstep.mono (lockstep_readFirstRows result' (h data) _ _ _) (fun _ _ hs => hs) ?_ s _ es
    ⟨hresponse, rfl, hboundary⟩
  exact fun read read' t t' hread => ⟨hread.1, data, hread.2⟩

theorem collectRows_withReplies {replies : Request → δ → List StatementReply} {request : Request}
    (h : replies request = engine.replies request) :
    collectRows (engine.withReplies replies) request = collectRows engine request := by
  have hrequest : TdsClient.executeSpExecutesql (engine.withReplies replies) request =
      TdsClient.executeSpExecutesql engine request := by
    have hreplies : (engine.withReplies replies).replies request = engine.replies request := h
    simp only [TdsClient.executeSpExecutesql, TdsClient.request, hreplies]
    rfl
  rw [collectRows, hrequest]
  rfl

end Reading

/-- The rows that describe parameters arrive in another order; all else is answered alike. -/
structure RowsReordered {δ : Type} (engine : SqlEngine δ) (replies : Request → δ → List StatementReply) : Prop where
  described : ∀ rewritten data, List.Forall₂ StatementReply.Reordered
    (engine.replies (undeclaredParametersRequest rewritten) data) (replies (undeclaredParametersRequest rewritten) data)
  other : ∀ request, (∀ rewritten, request ≠ undeclaredParametersRequest rewritten) →
    replies request = engine.replies request

theorem firstRows_reordered {replies replies' : List StatementReply}
    (h : List.Forall₂ StatementReply.Reordered replies replies') :
    (firstRows replies').1 = (firstRows replies).1 ∧ (firstRows replies).2.Perm (firstRows replies').2 ∧
      ((firstRows replies).2.map (parameterOrdinal (firstRows replies).1)).Nodup := by
  have hleft := forall₂_dropWhile (fun _ _ h => h.sameShape.hasRows_eq) h
  rw [firstRows, firstRows]
  generalize replies.dropWhile (!·.hasRows) = left, replies'.dropWhile (!·.hasRows) = left' at *
  cases hleft with
  | nil => exact ⟨rfl, .nil, .nil⟩
  | cons hreply hleft =>
    cases hreply with
    | rows hperm hdistinct => exact ⟨rfl, hperm, hdistinct⟩
    | noRows n => exact ⟨rfl, .nil, .nil⟩

section Describe
variable {δ : Type} {engine : SqlEngine δ} (features : Features) {replies : Request → δ → List StatementReply}

/-- The parameters have been inferred from rows the server has sent for the text. -/
def InferredFrom (engine : SqlEngine δ) (features : Features) (rewritten : Text) (inferred : InferredParameters) :
    Prop :=
  ∃ data metadata rows, firstRows (engine.replies (undeclaredParametersRequest rewritten) data) = (metadata, rows) ∧
    inferredParameters features metadata rows = .ok inferred

theorem lockstep_inferParameters (h : RowsReordered engine replies) (rewritten : Text) :
    Lockstep Eq (inferParameters engine features rewritten)
      (inferParameters (engine.withReplies replies) features rewritten)
      (fun inferred inferred' s s' => s = s' ∧ inferred = inferred' ∧ InferredFrom engine features rewritten inferred)
      DiffersInResponse := by
  have hshape (data : δ) := (h.described rewritten data).imp fun _ _ h => h.sameShape
  refine Lockstep.bind (lockstep_collectRows hshape) ?_
  rintro _ _ s _ es ⟨rfl, data, rfl, rfl⟩
  obtain ⟨hmetadata, hperm, hdistinct⟩ := firstRows_reordered (h.described rewritten data)
  have hsame := inferredParameters_of_perm features (firstRows _).1 hperm hdistinct
  change Alike _ _ (Process.lift (inferredParameters features (firstRows _).1 (firstRows _).2) s es)
    (Process.lift (inferredParameters features (firstRows _).1 (firstRows _).2) s es)
  rw [hmetadata, hsame]
  cases hrun : inferredParameters features (firstRows (engine.replies (undeclaredParametersRequest rewritten) data)).1
      (firstRows (engine.replies (undeclaredParametersRequest rewritten) data)).2 with
  | error a => exact .stopped (fun a h => by cases h) ⟨_, rfl⟩ es
  | ok inferred => exact .returned ⟨rfl, rfl, data, _, _, rfl, hrun⟩ es

theorem firstResultSetRequest_ne (rewritten declarations rewritten' : Text) :
    firstResultSetRequest rewritten declarations ≠ undeclaredParametersRequest rewritten' := by
  have hsql : (firstResultSetRequest rewritten declarations).sql[17]? = some 'f' := by
    rw [firstResultSetRequest]
    split
    · rfl
    · rfl
  have hsql' : (undeclaredParametersRequest rewritten').sql[17]? = some 'u' := rfl
  intro h
  rw [h, hsql', Option.some.injEq] at hsql
  exact absurd hsql (by decide)

theorem lockstep_describeStatement (h : RowsReordered engine replies) {sql rewritten : Text} {markers : ℕ}
    (hrewrite : rewriteParamMarkers sql = .ok (rewritten, markers)) :
    Lockstep Eq (describeStatement engine features sql) (describeStatement (engine.withReplies replies) features sql)
      (fun d d' s s' => s = s' ∧ d = d' ∧ (0 < markers →
        ∃ inferred, InferredFrom engine features rewritten inferred ∧ d.parameters = inferred.report markers))
      DiffersInResponse := by
  simp only [describeStatement, hrewrite]
  change Lockstep Eq ((if 0 < markers then inferParameters engine features rewritten
      else pure ⟨[], some []⟩) >>= _)
    ((if 0 < markers then inferParameters (engine.withReplies replies) features rewritten
      else pure ⟨[], some []⟩) >>= _) _ _
  have hinferred : Lockstep Eq
      (if 0 < markers then inferParameters engine features rewritten else pure ⟨[], some []⟩)
      (if 0 < markers then inferParameters (engine.withReplies replies) features rewritten else pure ⟨[], some []⟩)
      (fun inferred inferred' s s' => s = s' ∧ inferred = inferred' ∧
        (0 < markers → InferredFrom engine features rewritten inferred)) DiffersInResponse := by
    by_cases hmarkers : 0 < markers
    · rw [if_pos hmarkers, if_pos hmarkers]
      exact (lockstep_inferParameters features h rewritten).mono (fun _ _ hs => hs)
        fun _ _ _ _ hq => ⟨hq.1, hq.2.1, fun _ => hq.2.2⟩
    · rw [if_neg hmarkers, if_neg hmarkers]
      exact Lockstep.pure fun s s' hs => ⟨hs, rfl, fun hpos => absurd hpos hmarkers⟩
  refine Lockstep.bind hinferred ?_
  rintro inferred _ s _ es ⟨rfl, rfl, hfrom⟩
  have hother := h.other _ (firstResultSetRequest_ne rewritten inferred.declarations)
  change Alike _ _ ((collectRows engine (firstResultSetRequest rewritten inferred.declarations) >>= _) s es)
    ((collectRows (engine.withReplies replies) (firstResultSetRequest rewritten inferred.declarations) >>= _) s es)
  rw [collectRows_withReplies hother]
  refine Lockstep.bind (Lockstep.same _ fun s => ⟨_, rfl⟩) ?_ s s es rfl
  rintro read _ t _ es ⟨rfl, rfl⟩
  refine Lockstep.bind (Lockstep.same (Process.lift (describedColumns read.1 read.2)) fun s => ⟨_, rfl⟩) ?_ t t es rfl
  rintro columns _ u _ es ⟨rfl, rfl⟩
  exact .returned ⟨rfl, rfl, fun hmarkers => ⟨inferred, hfrom hmarkers, rfl⟩⟩ es

theorem trace_eq_of_alike {α : Type} {Q : α → α → Session δ → Session δ → Prop}
    {o o' : Outcome Event (Session δ) SqlxError α} (h : Alike Q DiffersInResponse o o')
    (hQ : ∀ a a' s s', Q a a' s s' → s = s') : o'.state.trace = o.state.trace := by
  refine h.state (R := fun s s' => s'.trace = s.trace) (fun a a' s s' hq => ?_) fun s s' hdiffers => ?_
  · rw [hQ a a' s s' hq]
  · obtain ⟨response, rfl⟩ := hdiffers
    rfl

end Describe

/-- Described parameters do not depend on the order of the rows, and line up with the markers. -/
theorem parameters_line_up (features : Features) :
    (∀ (metadata : List ColumnMetadata) (rows : List (List ColumnValues)),
      (rows.map (parameterOrdinal metadata)).Nodup →
        (∀ rows', rows.Perm rows' →
          inferredParameters features metadata rows' = inferredParameters features metadata rows) ∧
        ((∃ values ∈ rows, ClosedBeforeOpened (parameterTypeName metadata values)) ∨
          ∃ inferred, inferredParameters features metadata rows = .ok inferred ∧
            ∃ sorted, LinesUp features metadata rows sorted inferred)) ∧
    ∀ {δ : Type} (engine : SqlEngine δ) (replies : Request → δ → List StatementReply), RowsReordered engine replies →
      ∀ (s : Session δ) (es : List Event),
        (∀ rewritten,
          let o := inferParameters engine features rewritten s es
          let o' := inferParameters (engine.withReplies replies) features rewritten s es
          (o'.exit = o.exit ∧ o'.state.trace = o.state.trace) ∧
            ∀ inferred, o.exit = .returned inferred → InferredFrom engine features rewritten inferred) ∧
        ∀ sql, ∃ rewritten markers, rewriteParamMarkers sql = .ok (rewritten, markers) ∧
          let o := describeStatement engine features sql s es
          let o' := describeStatement (engine.withReplies replies) features sql s es
          (o'.exit = o.exit ∧ o'.state.trace = o.state.trace) ∧
            ∀ d, o.exit = .returned d → 0 < markers →
              ∃ inferred, InferredFrom engine features rewritten inferred ∧ d.parameters = inferred.report markers := by
  refine ⟨fun metadata rows h => ⟨fun rows' hperm => inferredParameters_of_perm features metadata hperm h,
    exists_linesUp features metadata rows h⟩, fun engine replies h s es => ⟨fun rewritten => ?_, fun sql => ?_⟩⟩
  · have halike := lockstep_inferParameters features h rewritten s s es rfl
    refine ⟨⟨halike.exit_eq fun _ _ _ _ hq => hq.2.1, trace_eq_of_alike halike fun _ _ _ _ hq => hq.1⟩,
      fun inferred hreturned => ?_⟩
    obtain ⟨_, _, _, -, -, hfrom⟩ := halike.of_returned hreturned
    exact hfrom
  · have hrewrite := rewriteParamMarkers_eq sql
    have halike := lockstep_describeStatement features h hrewrite s s es rfl
    refine ⟨_, _, hrewrite, ⟨halike.exit_eq fun _ _ _ _ hq => hq.2.1, trace_eq_of_alike halike fun _ _ _ _ hq => hq.1⟩,
      fun d hreturned => ?_⟩
    obtain ⟨_, _, _, -, -, hreport⟩ := halike.of_returned hreturned
    exact hreport

theorem swapped_rows_described :
    let column (name : String) : ColumnMetadata := ⟨name.toList, .nVarChar, [], 0, none, none, none, true⟩
    let metadata := [column "parameter_ordinal", column "name", column "suggested_system_type_name"]
    let row (ordinal : Int32) (name typeName : String) : List ColumnValues :=
      [.int ordinal, .string name.toList, .string typeName.toList]
    inferredParameters ⟨false, false, false, false, false⟩ metadata [row 2 "@P2" "nvarchar(50)", row 1 "@P1" "int"] =
      .ok ⟨"@P1 int, @P2 nvarchar(50)".toList, some [.integer, .plain "nvarchar" .nVarChar 100]⟩ := by
  intro column metadata row
  have hsorted : sortByKey (parameterOrdinal metadata) [row 1 "@P1" "int", row 2 "@P2" "nvarchar(50)"] =
      [row 1 "@P1" "int", row 2 "@P2" "nvarchar(50)"] := List.mergeSort_of_pairwise (by decide)
  rw [((parameters_line_up ⟨false, false, false, false, false⟩).1 metadata
    [row 1 "@P1" "int", row 2 "@P2" "nvarchar(50)"] (by decide)).1 _ (.swap _ _ []), inferredParameters_eq, hsorted]
  decide +kernel

end SqlxMssql
