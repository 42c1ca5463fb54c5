import SqlxMssql.Connection.OptionalRow
import SqlxMssql.Connection.Requests
import SqlxMssql.Types.Exchange

/-! # Bound values

Values that are bound to the markers of a statement, and the row in which the server hands
its parameters back.
-/
namespace SqlxMssql
open Loops Utf8 Interaction ParamMarkers

variable {δ : Type} (engine : SqlEngine δ)

/-- `Error::ColumnIndexOutOfBounds` -/
structure ColumnIndexOutOfBounds where
  index : ℕ
  len : ℕ
  deriving DecidableEq, Repr

namespace MssqlRow

/-- `ColumnIndex::index` of a position. -/
def position (row : MssqlRow) (index : ℕ) : Except ColumnIndexOutOfBounds ℕ :=
  if row.columns.length ≤ index then .error ⟨index, row.columns.length⟩ else .ok index

/-- `Row::try_get_raw` at a position. -/
def tryGetRaw (row : MssqlRow) (index : ℕ) : Except ColumnIndexOutOfBounds MssqlValue := do
  let index ← row.position index
  match row.values[index]? with
  | some value => .ok value
  | none => .error ⟨index, row.values.length⟩

end MssqlRow

theorem tryGetRaw_rowValues {metadata : List ColumnMetadata} {values : List ColumnValues} {i : ℕ}
    {column : ColumnMetadata} {value : ColumnValues} (hcolumn : metadata[i]? = some column)
    (hvalue : values[i]? = some value) :
    (MssqlRow.mk (resultColumns metadata) (rowValues metadata values)).tryGetRaw i =
      .ok (.fromColumnValue value column) := by
  have hlength : ¬ (resultColumns metadata).length ≤ i := by
    obtain ⟨hlt, -⟩ := List.getElem?_eq_some_iff.mp hcolumn
    simpa [resultColumns] using hlt
  have hget : (rowValues metadata values)[i]? = some (.fromColumnValue value column) := by
    simp [rowValues, hvalue, hcolumn]
  rw [MssqlRow.tryGetRaw, MssqlRow.position, if_neg hlength]
  simp only [bind, Except.bind, hget]

section Binding
variable (crates : Crates)

/-- A statement with its bound arguments, of which the first row is fetched. -/
def bindAndFetch (sql : Text) (arguments : List (Argument crates)) : Operation δ (Option MssqlRow) := do
  let added ← Process.lift (addArguments crates [] arguments)
  fetchOptional engine sql (added.1.map fun _ => some added.2)

def Request.valueOf (request : Request) (name : Text) : Option SqlType :=
  (request.params.find? (·.name = name)).map (·.value)

variable {crates}

namespace Argument

def Storable (argument : Argument crates) : Prop := ∀ value, argument.value = some value → argument.type.Storable crates value

/-- A column that the argument is kept in. Every column can hold a `NULL`. -/
def KeptIn (argument : Argument crates) (parameter : SqlType) (column : ColumnMetadata) : Prop :=
  argument.value.isSome → argument.type.KeptIn parameter column

/-- The value reads back as the type of the argument, and a `NULL` as `NULL`. -/
def ReadBack (argument : Argument crates) (value : MssqlValue) : Prop :=
  match argument.value with
  | some written => argument.type.compatible value.typeInfo ∧
      ∃ read, argument.type.decode crates (value.asRef crates.numbers) = .ok read ∧ argument.type.Kept crates written read
  | none => value.raw = .null

/-- A parameter for the argument, which every column that keeps it gives back. -/
structure Sent (argument : Argument crates) (parameter : SqlType) : Prop where
  returned : ∀ column, argument.KeptIn parameter column → argument.ReadBack (.fromColumnValue parameter.cell column)

end Argument

/-- Whatever request with this text carries `@P1` to `@Pn`, the server answers with a row of
them, in columns that keep the arguments. -/
def SelectsParameters (engine : SqlEngine δ) (arguments : List (Argument crates)) (text : Text) (data : δ) : Prop :=
  ∀ (request : Request) (parameters : List SqlType), request.sql = text → parameters.length = arguments.length →
    (∀ i parameter, parameters[i]? = some parameter → request.valueOf (parameterName (i + 1)) = some parameter) →
    ∃ columns more left, engine.replies request data = .rows columns (parameters.map (·.cell) :: more) :: left ∧
      columns.length = parameters.length ∧
      ∀ (i : ℕ) argument parameter column, arguments[i]? = some argument → parameters[i]? = some parameter →
        columns[i]? = some column → argument.KeptIn parameter column

theorem nullSqlType_cell (typeInfo : MssqlTypeInfo) : (nullSqlType typeInfo).cell = .null := by
  unfold nullSqlType
  split <;> rfl

theorem encode_sent (hkeep : crates.KeepTime) (hgeo : crates.geo.Lawful) {argument : Argument crates}
    (h : argument.Storable) : ∃ parameter isNull,
      argument.encode = .ok (fun buf => (.ok isNull, buf ++ [parameter])) ∧ argument.Sent parameter := by
  obtain ⟨type, value⟩ := argument
  cases value with
  | none => exact ⟨nullSqlType type.typeInfo, .yes, rfl, ⟨fun column _ => nullSqlType_cell _⟩⟩
  | some written =>
    obtain ⟨parameter, hencode, hreturned⟩ := RustType.exchanges hkeep hgeo (h written rfl)
    exact ⟨parameter, .no, hencode, ⟨fun column hcolumn => hreturned column (hcolumn rfl)⟩⟩

theorem addArguments_sent (hkeep : crates.KeepTime) (hgeo : crates.geo.Lawful) {arguments : List (Argument crates)}
    (h : ∀ argument ∈ arguments, argument.Storable) (values : List SqlType) : ∃ parameters,
      addArguments crates values arguments = .ok (.ok (), values ++ parameters) ∧
        List.Forall₂ Argument.Sent arguments parameters := by
  induction arguments generalizing values with
  | nil => exact ⟨[], by rw [List.append_nil]; rfl, .nil⟩
  | cons argument arguments ih =>
    obtain ⟨hhead, htail⟩ := List.forall_mem_cons.mp h
    obtain ⟨parameter, isNull, hencode, hsent⟩ := encode_sent hkeep hgeo hhead
    obtain ⟨parameters, hadd, hall⟩ := ih htail (values ++ [parameter])
    refine ⟨parameter :: parameters, ?_, .cons hsent hall⟩
    have hone : addArgument crates values argument = .ok (.ok (), values ++ [parameter]) := by
      rw [addArgument, hencode]
      rfl
    rw [addArguments, hone, ok_bind]
    change addArguments crates (values ++ [parameter]) arguments = _
    rw [hadd, List.append_assoc, List.singleton_append]

/-- The request that is built for as many markers as there are parameters. -/
def Request.naming (rewritten : Text) (parameters : List SqlType) : Request :=
  ⟨rewritten, parameters.zipIdx.map fun (value, index) => ⟨parameterName (index + 1), value⟩⟩

theorem valueOf_naming (rewritten : Text) {parameters : List SqlType} {i : ℕ} {parameter : SqlType}
    (h : parameters[i]? = some parameter) :
    (Request.naming rewritten parameters).valueOf (parameterName (i + 1)) = some parameter := by
  rw [Request.valueOf, Option.map_eq_some_iff]
  have hmem : ⟨parameterName (i + 1), parameter⟩ ∈ (Request.naming rewritten parameters).params :=
    List.mem_map.mpr ⟨(parameter, i), List.mem_zipIdx_iff_getElem?.mpr h, rfl⟩
  cases hfind : (Request.naming rewritten parameters).params.find? (·.name = parameterName (i + 1)) with
  | none => exact absurd (decide_eq_true rfl) (List.find?_eq_none.mp hfind _ hmem)
  | some found =>
    refine ⟨found, rfl, ?_⟩
    have hname : found.name = parameterName (i + 1) := by simpa using List.find?_some hfind
    obtain ⟨⟨value, j⟩, hj, rfl⟩ := List.mem_map.mp (List.mem_of_find?_eq_some hfind)
    have hindex : j = i := Nat.succ.inj (decimal_injective (List.append_cancel_left hname))
    have hvalue := List.mem_zipIdx_iff_getElem?.mp hj
    rw [hindex, h] at hvalue
    exact (Option.some.inj hvalue).symm

theorem buildRequest_bound {sql rewritten : Text} {parameters : List SqlType}
    (h : rewriteParamMarkers sql = .ok (rewritten, parameters.length)) :
    buildRequest sql (some parameters) = .ok (.ok (.naming rewritten parameters)) := by
  cases parameters with
  | nil =>
    obtain ⟨rewritten', markers, hrewrite, hrenumbered⟩ := rewriteParamMarkers_returns sql
    obtain ⟨rfl, rfl⟩ := Prod.mk.inj (Except.ok.inj (h.symm.trans hrewrite))
    rw [hrenumbered.unchanged rfl]
    rfl
  | cons parameter parameters =>
    rw [buildRequest]
    simp only [Option.getD_some, h, ok_bind]
    exact if_neg fun hne => hne rfl

/-- Each argument reads back from the column of its position. -/
def MssqlRow.Returns (row : MssqlRow) (arguments : List (Argument crates)) : Prop :=
  row.columns.length = arguments.length ∧ ∀ (i : ℕ) argument, arguments[i]? = some argument →
    ∃ value, row.tryGetRaw i = .ok value ∧ argument.ReadBack value

variable {engine}

theorem firstRow_returns {arguments : List (Argument crates)} {parameters : List SqlType}
    (hsent : List.Forall₂ Argument.Sent arguments parameters) {rewritten : Text} {data : δ} {request : Request}
    (htext : request.sql = rewritten)
    (hvalues : ∀ i parameter, parameters[i]? = some parameter → request.valueOf (parameterName (i + 1)) = some parameter)
    (hselects : SelectsParameters engine arguments rewritten data) :
    answersToFirstRow (engine.replies request data) = 1 ∧
      ∃ found, firstRow (engine.replies request data) = some found ∧ found.Returns arguments := by
  obtain ⟨columns, more, left, hreplies, hlength, hkept⟩ := hselects request parameters htext hsent.length_eq.symm hvalues
  rw [hreplies]
  refine ⟨rfl, _, firstRow_row columns (parameters.map (·.cell)) more left, ?_, fun i argument hargument => ?_⟩
  · rw [resultColumns, List.length_map, List.length_zipIdx, hlength, hsent.length_eq]
  · have hi : i < arguments.length := (List.getElem?_eq_some_iff.mp hargument).1
    have hi' : i < parameters.length := hsent.length_eq ▸ hi
    have hparameter : parameters[i]? = some parameters[i] := List.getElem?_eq_getElem hi'
    have hcolumn : columns[i]? = some columns[i] := List.getElem?_eq_getElem (hlength ▸ hi')
    have hvalue : (parameters.map SqlType.cell)[i]? = some parameters[i].cell := by
      rw [List.getElem?_map, hparameter]
      rfl
    have hone : arguments[i].Sent parameters[i] := hsent.get hi hi'
    rw [(List.getElem?_eq_some_iff.mp hargument).2] at hone
    exact ⟨_, tryGetRaw_rowValues hcolumn hvalue, hone.returned _ (hkept i argument _ _ hargument hparameter hcolumn)⟩

variable (engine)

/-- A statement with as many markers as arguments, all of which can be stored, over a connection
with no rollback queued: the first row of what selects its parameters comes back as soon as the
calls have been answered, and every argument reads back from it in its own place. -/
theorem fetched_as_bound (hkeep : crates.KeepTime) (hgeo : crates.geo.Lawful) {arguments : List (Argument crates)}
    (hstorable : ∀ argument ∈ arguments, argument.Storable) {sql rewritten : Text}
    (hmarkers : rewriteParamMarkers sql = .ok (rewritten, arguments.length)) {s : Session δ}
    (hsettled : s.pendingRollback = false)
    (hselects : SelectsParameters engine arguments rewritten s.client.server.data) (es : List Event) :
    let o := bindAndFetch engine crates sql arguments s es
    ((∃ row, o.exit = .returned row) ↔ (if s.needsReset then 3 else 2) ≤ lead es) ∧
      ∀ row, o.exit = .returned row → ∃ found, row = some found ∧ found.Returns arguments := by
  obtain ⟨parameters, hadd, hsent⟩ := addArguments_sent hkeep hgeo hstorable []
  have hbuilt := buildRequest_bound (hsent.length_eq ▸ hmarkers)
  obtain ⟨hanswers, found, hfound, hreturns⟩ :=
    firstRow_returns hsent rfl (fun _ _ => valueOf_naming rewritten) hselects
  have hrun : bindAndFetch engine crates sql arguments s es = fetchOptional engine sql (.ok (some parameters)) s es := by
    rw [bindAndFetch, hadd]
    rfl
  have hreturned (row : Option MssqlRow) : (bindAndFetch engine crates sql arguments s es).exit = .returned row ↔
      row = some found ∧ (if s.needsReset then 3 else 2) ≤ lead es := by
    have hplays := plays_fetchOptional engine hbuilt s.needsReset s.client.server.data
    rw [hrun, hplays.returned_iff ⟨hsettled, rfl, rfl⟩, List.length_replicate, hfound, hanswers]
    cases s.needsReset <;> rfl
  refine ⟨⟨?_, fun hlead => ⟨some found, (hreturned _).mpr ⟨rfl, hlead⟩⟩⟩, fun row hrow => ?_⟩
  · rintro ⟨row, hrow⟩
    exact ((hreturned row).mp hrow).2
  · exact ⟨found, ((hreturned row).mp hrow).1, hreturns⟩

end Binding

section Echo

def echoColumn (parameter : SqlType) : ColumnMetadata :=
  ⟨[], parameter.wireType, [], 0, none, none, none, true⟩

/-- A server that selects `@P1` to `@Pn`. -/
def echoEngine (n : ℕ) : SqlEngine ℕ where
  effect _ data := data
  replies request _ :=
    let selected := (List.range n).filterMap fun i => request.valueOf (parameterName (i + 1))
    [.rows (selected.map echoColumn) [selected.map (·.cell)]]
  rejection := countingEngine.rejection

theorem echoEngine_selects {crates : Crates} {arguments : List (Argument crates)}
    (h : ∀ argument ∈ arguments, argument.type ≠ .mssqlGeometry ∧ argument.type ≠ .mssqlGeography) (text : Text)
    (data : ℕ) : SelectsParameters (echoEngine arguments.length) arguments text data := by
  intro request parameters _ hlength hvalues
  have hselected : (List.range arguments.length).filterMap
      (fun i => request.valueOf (parameterName (i + 1))) = parameters := by
    have hall : List.Forall₂ (fun i parameter => request.valueOf (parameterName (i + 1)) = some parameter)
        (List.range arguments.length) parameters := by
      rw [List.forall₂_iff_get]
      refine ⟨by rw [List.length_range, hlength], ?_⟩
      intro i hi hi'
      rw [List.get_eq_getElem, List.getElem_range]
      exact hvalues i _ (List.getElem?_eq_getElem hi')
    exact (filterMap_full_iff.mpr hall).1
  refine ⟨parameters.map echoColumn, [], [], ?_, List.length_map _, fun i argument parameter column hi hp hc _ => ?_⟩
  · rw [← hselected]
    rfl
  · rw [List.getElem?_map, hp] at hc
    obtain rfl := Option.some.inj hc
    obtain ⟨hgeometry, hgeography⟩ := h argument (List.mem_of_getElem? hi)
    obtain ⟨type, value⟩ := argument
    cases type with
    | mssqlGeometry => exact absurd rfl hgeometry
    | mssqlGeography => exact absurd rfl hgeography
    | _ => rfl

/-- A number, a point in time and a `NULL`. -/
def mixedArguments : List (Argument Crates.calendar) :=
  [⟨.integer .u64, some (⟨7, by decide⟩ : IntegerType.u64.Value)⟩,
    ⟨.temporal .chronoDateTimeUtc, some (⟨Chrono.startOfEpoch⟩ : Chrono.calendar.DateTimeUtc)⟩, ⟨.string, none⟩]

theorem mixedArguments_fetched : ∃ found, (bindAndFetch (echoEngine 3) Crates.calendar "SELECT ?, ?, ?".toList
    mixedArguments (Session.connected 0) [.answered, .answered]).exit = .returned (some found) ∧
      found.Returns mixedArguments := by
  have hmoment : TemporalType.chronoDateTimeUtc.moment Crates.calendar
      (⟨Chrono.startOfEpoch⟩ : Chrono.calendar.DateTimeUtc) = ⟨719162, 1234⟩ := by decide
  have hinstant : RustType.Storable Crates.calendar (.temporal .chronoDateTimeUtc)
      (⟨Chrono.startOfEpoch⟩ : Chrono.calendar.DateTimeUtc) := by
    refine ⟨?_, ?_⟩
    · rw [hmoment]
      exact ⟨by decide, by decide, by decide⟩
    · rw [hmoment]
      exact ⟨fun _ _ => by decide, fun h => absurd h (by decide)⟩
  have hstorable : ∀ argument ∈ mixedArguments, argument.Storable := by
    intro argument hargument value hvalue
    simp only [mixedArguments, List.mem_cons, List.not_mem_nil, or_false] at hargument
    rcases hargument with rfl | rfl | rfl
    · cases hvalue
      exact (by decide : (7 : ℤ) ≤ 9223372036854775807)
    · cases hvalue
      exact hinstant
    · cases hvalue
  have hselects : SelectsParameters (echoEngine 3) mixedArguments "SELECT @P1, @P2, @P3".toList 0 := by
    refine echoEngine_selects (fun argument hargument => ?_) _ _
    simp only [mixedArguments, List.mem_cons, List.not_mem_nil, or_false] at hargument
    rcases hargument with rfl | rfl | rfl <;> exact ⟨by decide, by decide⟩
  have hmarkers : rewriteParamMarkers "SELECT ?, ?, ?".toList = .ok ("SELECT @P1, @P2, @P3".toList, 3) := by
    decide +kernel
  obtain ⟨hreturns, hfound⟩ := fetched_as_bound (echoEngine 3) Crates.calendar_keepTime closingGeoTypes_lawful hstorable
    hmarkers (s := Session.connected 0) rfl hselects [.answered, .answered]
  obtain ⟨row, hrow⟩ := hreturns.mpr (by decide)
  obtain ⟨found, rfl, hsame⟩ := hfound row hrow
  exact ⟨found, hrow, hsame⟩

end Echo

end SqlxMssql
