import SqlxMssql.Connection.OptionalRow
import SqlxMssql.Connection.ParameterOrder

/-! # Prepared statements

What the server knows of the parameters and the columns of a statement, and the rows that it
presents this in. A prepared statement has all of it, however the columns of these rows are
arranged and in whatever order the parameters come.
-/
namespace SqlxMssql
open Loops Utf8 Interaction ParamMarkers

/-- A description that outlives its connection. -/
structure Describe where
  columns : List MssqlColumn
  parameters : Option (List MssqlTypeInfo ⊕ ℕ)
  nullable : List (Option Bool)
  deriving DecidableEq, Repr

variable {δ α : Type} (engine : SqlEngine δ) (features : Features)

def prepareWith (sql : Text) : Operation δ MssqlStatement := do
  let described ← describeStatement engine features sql
  return ⟨sql, described.columns, some described.parameters⟩

def describe (sql : Text) : Operation δ Describe := do
  let described ← describeStatement engine features sql
  return ⟨described.columns, some described.parameters, described.columns.map (·.nullable)⟩

/-- Connects for one description, on a runtime that has to be started first. That the connection
fails to close is no matter. -/
def describeWithRuntime (runtime : Except Text Unit) (options : MssqlConnectOptions) (query : Text) :
    Operation δ MssqlStatement := do
  lift (.ok (runtime.mapError fun error =>
    .configuration ("failed to start a runtime to describe the query: ".toList ++ error)))
  connectWith engine options
  let statement ← prepareWith engine features query
  let _ ← (close engine).attempt
  return statement

def describeBlocking (runtime : Except Text Unit) (parse : UrlParser) (query databaseUrl : Text) :
    Operation δ Describe := do
  let options ← lift ((MssqlConnectOptions.fromStr parse databaseUrl).map (·.mapError .configuration))
  let statement ← describeWithRuntime engine features runtime options query
  return ⟨statement.columns, statement.parameters, statement.columns.map (·.nullable)⟩

section Cells
variable {metadata : List ColumnMetadata} {values : List ColumnValues} {name : String}

/-- The row has the value in the column of this name, in any letter case. -/
def Shows (metadata : List ColumnMetadata) (values : List ColumnValues) (name : String) (value : ColumnValues) :
    Prop :=
  ∃ (i : ℕ) (column : ColumnMetadata), metadata[i]? = some column ∧
    eqIgnoreAsciiCase column.columnName name.toList = true ∧ values[i]? = some value

def DistinctNames (metadata : List ColumnMetadata) : Prop :=
  (metadata.map fun column => toAsciiLowercase column.columnName).Nodup

/-- With distinct names it does not matter where the column stands. -/
theorem Shows.at_indexOf {value : ColumnValues} (h : Shows metadata values name value)
    (hdistinct : DistinctNames metadata) : (indexOf metadata name).bind (values[·]?) = some value := by
  obtain ⟨i, column, hcolumn, hname, hvalue⟩ := h
  have hindex : indexOf metadata name = some i := by
    rw [indexOf, List.findIdx?_eq_some_iff_getElem]
    obtain ⟨hi, rfl⟩ := List.getElem?_eq_some_iff.mp hcolumn
    refine ⟨hi, hname, fun j hj hsame => ?_⟩
    have hlower := (of_decide_eq_true hsame).trans (of_decide_eq_true hname).symm
    have hpairs := List.pairwise_iff_getElem.mp (List.pairwise_map.mp hdistinct)
    exact hpairs j i (hj.trans hi) hi hj hlower
  rw [hindex, Option.bind_some, hvalue]

theorem Shows.textAt_eq {text : Text} (h : Shows metadata values name (.string text))
    (hdistinct : DistinctNames metadata) : textAt values (indexOf metadata name) = some text := by
  rw [textAt, h.at_indexOf hdistinct]

theorem Shows.integerAt_eq {value : ColumnValues} {n : ℤ} (h : Shows metadata values name value)
    (hdistinct : DistinctNames metadata) (hvalue : integerAt [value] (some 0) = some n) :
    integerAt values (indexOf metadata name) = some n := by
  rw [integerAt, h.at_indexOf hdistinct]
  exact hvalue

theorem Shows.boolAt_eq {value : Bool} (h : Shows metadata values name (.bit value))
    (hdistinct : DistinctNames metadata) : boolAt values (indexOf metadata name) = some value := by
  rw [boolAt, h.at_indexOf hdistinct]

/-- A text that may be `NULL`. -/
def textCell (text : Option Text) : ColumnValues := text.elim .null .string

theorem Shows.textAt_cell {text : Option Text} (h : Shows metadata values name (textCell text))
    (hdistinct : DistinctNames metadata) : textAt values (indexOf metadata name) = text := by
  rw [textAt, h.at_indexOf hdistinct]
  cases text with
  | none => rfl
  | some text => rfl

end Cells

/-- What the server knows of a parameter that a statement does not declare. -/
structure UndeclaredParameter where
  ordinal : Int32
  name : Text
  /-- `none` where it can suggest no type. -/
  suggestedTypeName : Option Text
  deriving DecidableEq, Repr

/-- What the server knows of a column of a statement's result. -/
structure ResultColumn where
  name : Option Text
  systemTypeName : Option Text
  isNullable : Bool
  /-- The column was added for browsing, and the statement does not return it. -/
  isHidden : Bool
  precision : UInt8
  scale : UInt8
  tdsTypeId : Int32
  tdsLength : Int32
  deriving DecidableEq, Repr

section Rows
variable (metadata : List ColumnMetadata) (values : List ColumnValues)

namespace UndeclaredParameter
variable (parameter : UndeclaredParameter)

/-- What cannot be inferred is declared as text. -/
def typeName : Text := parameter.suggestedTypeName.getD "nvarchar(4000)".toList

def declaration : Text := parameter.name ++ ' ' :: parameter.typeName

structure Row : Prop where
  ordinal : Shows metadata values "parameter_ordinal" (.int parameter.ordinal)
  name : Shows metadata values "name" (.string parameter.name)
  typeName : Shows metadata values "suggested_system_type_name" (textCell parameter.suggestedTypeName)

/-- The type has a Rust type of its own. -/
def Typed (info : MssqlTypeInfo) : Prop :=
  fromSystemTypeName parameter.typeName = .ok (some info) ∧ info.hasExactRustMapping features = true

end UndeclaredParameter

namespace ResultColumn
variable (column : ResultColumn)

def typeName : Text := column.systemTypeName.getD "unknown".toList

structure Row : Prop where
  name : Shows metadata values "name" (textCell column.name)
  systemTypeName : Shows metadata values "system_type_name" (textCell column.systemTypeName)
  isNullable : Shows metadata values "is_nullable" (.bit column.isNullable)
  isHidden : Shows metadata values "is_hidden" (.bit column.isHidden)
  precision : Shows metadata values "precision" (.tinyInt column.precision)
  scale : Shows metadata values "scale" (.tinyInt column.scale)
  tdsTypeId : Shows metadata values "tds_type_id" (.int column.tdsTypeId)
  tdsLength : Shows metadata values "tds_length" (.int column.tdsLength)

/-- The column as the driver reports it: with the type of its name, or else the wire type. -/
structure ReportedAs (reported : MssqlColumn) : Prop where
  name : reported.name = column.name.getD []
  nullable : reported.nullable = some column.isNullable
  typeInfo : ∃ info, fromSystemTypeName column.typeName = .ok info ∧ reported.typeInfo =
    (info.getD ⟨column.typeName, (toU8 column.tdsTypeId.toInt).getD 0, (toU32 column.tdsLength.toInt).getD 0,
      some column.precision, some column.scale⟩).withPrecisionScale (some column.precision) (some column.scale)

end ResultColumn

theorem toU8_toNat (n : UInt8) : toU8 n.toNat = some n := by
  have hbound : (0 : ℤ) ≤ n.toNat ∧ (n.toNat : ℤ) < 256 := ⟨Int.natCast_nonneg _, by exact_mod_cast n.toNat_lt⟩
  rw [toU8, if_pos hbound, Int.toNat_natCast, UInt8.ofNat_toNat]

variable {metadata values} (hdistinct : DistinctNames metadata)
include hdistinct

theorem UndeclaredParameter.Row.inferred {parameter : UndeclaredParameter} (h : parameter.Row metadata values) :
    inferredParameter metadata values = (parameter.ordinal.toInt, parameter.name, parameter.typeName) := by
  rw [inferredParameter, h.ordinal.integerAt_eq hdistinct rfl, h.name.textAt_eq hdistinct,
    h.typeName.textAt_cell hdistinct]
  rfl

theorem ResultColumn.Row.described {column : ResultColumn} (h : column.Row metadata values) (ordinal : ℕ)
    (hname : ¬ ClosedBeforeOpened column.typeName) : ∃ reported,
      describedColumn metadata ordinal values = .ok reported ∧ reported.ordinal = ordinal ∧
        column.ReportedAs reported := by
  obtain ⟨info, hinfo⟩ := (fromSystemTypeName_returns_iff column.typeName).mpr hname
  rw [describedColumn]
  simp only [h.name.textAt_cell hdistinct, h.systemTypeName.textAt_cell hdistinct, h.isNullable.boolAt_eq hdistinct,
    h.precision.integerAt_eq hdistinct rfl, h.scale.integerAt_eq hdistinct rfl,
    h.tdsTypeId.integerAt_eq hdistinct rfl, h.tdsLength.integerAt_eq hdistinct rfl, Option.bind_some, toU8_toNat]
  have hread : fromSystemTypeName (column.systemTypeName.getD "unknown".toList) = .ok info := hinfo
  rw [hread, ok_bind]
  exact ⟨_, rfl, rfl, rfl, rfl, info, hinfo, rfl⟩

end Rows

section Tables
variable {metadata : List ColumnMetadata} {rows : List (List ColumnValues)}

/-- The types of all parameters in the order of their ordinals, or else their number. -/
structure TypedOrCounted (parameters : List UndeclaredParameter) (markers : ℕ) (reported : List MssqlTypeInfo ⊕ ℕ) :
    Prop where
  types : ∀ types, reported = .inl types ↔
    parameters.length = markers ∧ List.Forall₂ (UndeclaredParameter.Typed features) parameters types
  count : (∀ types, reported ≠ .inl types) → reported = .inr markers

theorem forall₂_congr_left {α β γ : Type} {R : α → β → Prop} {A : α → γ → Prop} {B : β → γ → Prop} {as : List α}
    {bs : List β} (h : List.Forall₂ R as bs) (hsame : ∀ a b c, R a b → (A a c ↔ B b c)) (cs : List γ) :
    List.Forall₂ A as cs ↔ List.Forall₂ B bs cs := by
  induction h generalizing cs with
  | nil => simp only [List.forall₂_nil_left_iff]
  | cons hab _ ih => simp only [List.forall₂_cons_left_iff, ih, hsame _ _ _ hab]

theorem map_eq_map_of_forall₂ {α β κ : Type} {R : α → β → Prop} {f : α → κ} {g : β → κ} {as : List α} {bs : List β}
    (h : List.Forall₂ R as bs) (hsame : ∀ a b, R a b → f a = g b) : as.map f = bs.map g := by
  induction h with
  | nil => rfl
  | cons hab _ ih => rw [List.map_cons, List.map_cons, hsame _ _ hab, ih]

/-- Sorting the rows arranges the parameters as the server counts them. -/
theorem forall₂_arranged {parameters shuffled : List UndeclaredParameter} {sorted : List (List ColumnValues)}
    (hdistinct : DistinctNames metadata)
    (hrows : List.Forall₂ (fun (p : UndeclaredParameter) values => p.Row metadata values) shuffled rows)
    (hperm : shuffled.Perm parameters) (hordinals : parameters.Pairwise fun p q => p.ordinal.toInt < q.ordinal.toInt)
    (hrearranged : sorted.Perm rows)
    (hsorted : sorted.Pairwise fun a b => parameterOrdinal metadata a < parameterOrdinal metadata b) :
    List.Forall₂ (fun (p : UndeclaredParameter) values => p.Row metadata values) parameters sorted := by
  have hcomp : Relation.Comp List.Perm
      (List.Forall₂ fun (p : UndeclaredParameter) values => p.Row metadata values) shuffled sorted := by
    rw [← List.forall₂_comp_perm_eq_perm_comp_forall₂]
    exact ⟨rows, hrows, hrearranged.symm⟩
  obtain ⟨arranged, hshuffled, harranged⟩ := hcomp
  have hkeys : arranged.map (·.ordinal.toInt) = sorted.map (parameterOrdinal metadata) :=
    map_eq_map_of_forall₂ harranged fun p values h => by rw [parameterOrdinal, h.inferred hdistinct]
  have hincreasing : arranged.Pairwise fun p q => p.ordinal.toInt < q.ordinal.toInt := by
    rw [← List.pairwise_map (R := (· < ·)) (f := fun p : UndeclaredParameter => p.ordinal.toInt), hkeys]
    exact List.pairwise_map.mpr hsorted
  have hsame : arranged = parameters :=
    List.Perm.eq_of_pairwise (fun a b _ _ hab hba => absurd hba hab.asymm) hincreasing hordinals
      (hshuffled.symm.trans hperm)
  rwa [← hsame]

/-- From the rows of the parameters, in whatever order, come their declarations and types. -/
theorem inferredParameters_known {parameters shuffled : List UndeclaredParameter} (hdistinct : DistinctNames metadata)
    (hrows : List.Forall₂ (fun (p : UndeclaredParameter) values => p.Row metadata values) shuffled rows)
    (hperm : shuffled.Perm parameters) (hordinals : parameters.Pairwise fun p q => p.ordinal.toInt < q.ordinal.toInt)
    (hnames : ∀ p ∈ parameters, ¬ ClosedBeforeOpened p.typeName) : ∃ inferred,
      inferredParameters features metadata rows = .ok inferred ∧
      inferred.declarations = List.intercalate ", ".toList (parameters.map (·.declaration)) ∧
      ∀ markers, TypedOrCounted features parameters markers (inferred.report markers) := by
  have hread (p : UndeclaredParameter) (values : List ColumnValues) (h : p.Row metadata values) :
      parameterTypeName metadata values = p.typeName := by rw [parameterTypeName, h.inferred hdistinct]
  have hkeys : shuffled.map (·.ordinal.toInt) = rows.map (parameterOrdinal metadata) :=
    map_eq_map_of_forall₂ hrows fun p values h => by rw [parameterOrdinal, h.inferred hdistinct]
  have hnodup : (rows.map (parameterOrdinal metadata)).Nodup := by
    rw [← hkeys, (hperm.map _).nodup_iff, List.Nodup, List.pairwise_map]
    exact hordinals.imp fun h => h.ne
  rcases exists_linesUp features metadata rows hnodup with hreversed | ⟨inferred, hinferred, sorted, hlines⟩
  · obtain ⟨values, hmem, hreversed⟩ := hreversed
    have htypes : shuffled.map (·.typeName) = rows.map (parameterTypeName metadata) :=
      map_eq_map_of_forall₂ hrows fun p values h => (hread p values h).symm
    obtain ⟨p, hp, hname⟩ := List.mem_map.mp (htypes ▸ List.mem_map_of_mem hmem)
    exact absurd (hname ▸ hreversed) (hnames p (hperm.subset hp))
  · have harranged := forall₂_arranged hdistinct hrows hperm hordinals hlines.rearranged hlines.increasing
    refine ⟨inferred, hinferred, ?_, fun markers => ⟨fun types => ?_, hlines.count markers⟩⟩
    · rw [hlines.declarations]
      refine congrArg _ (map_eq_map_of_forall₂ harranged fun p values h => ?_).symm
      rw [UndeclaredParameter.declaration, parameterDeclaration, hread p values h, h.inferred hdistinct]
    · rw [hlines.types, ← hlines.rearranged.length_eq, ← harranged.length_eq]
      refine and_congr_right fun _ => (forall₂_congr_left harranged (fun p values info h => ?_) types).symm
      rw [UndeclaredParameter.Typed, HasExactType, hread p values h]

theorem describedColumns_from {columns : List ResultColumn} (hdistinct : DistinctNames metadata)
    (hrows : List.Forall₂ (fun (c : ResultColumn) values => c.Row metadata values) columns rows)
    (hnames : ∀ c ∈ columns, ¬ ClosedBeforeOpened c.typeName) (first : ℕ) : ∃ reported,
      (rows.zipIdx first).mapM (fun row => describedColumn metadata row.2 row.1) = .ok reported ∧
      reported.map (·.ordinal) = List.range' first columns.length ∧
      List.Forall₂ ResultColumn.ReportedAs columns reported := by
  induction hrows generalizing first with
  | nil => exact ⟨[], rfl, rfl, .nil⟩
  | @cons column values columns rows hrow _ ih =>
    obtain ⟨hname, hnames⟩ := List.forall_mem_cons.mp hnames
    obtain ⟨reported, hdescribed, hordinal, hreported⟩ := hrow.described hdistinct first hname
    obtain ⟨later, hlater, hordinals, hall⟩ := ih hnames (first + 1)
    refine ⟨reported :: later, ?_, ?_, .cons hreported hall⟩
    · rw [List.zipIdx_cons, List.mapM_cons, hdescribed, ok_bind, hlater, ok_bind, pure_eq_ok]
    · rw [List.map_cons, hordinal, hordinals, List.length_cons, List.range'_succ]

/-- The columns that the statement returns, counted from 0. -/
theorem describedColumns_known {columns : List ResultColumn} (hdistinct : DistinctNames metadata)
    (hrows : List.Forall₂ (fun (c : ResultColumn) values => c.Row metadata values) columns rows)
    (hnames : ∀ c ∈ columns, ¬ ClosedBeforeOpened c.typeName) : ∃ reported,
      describedColumns metadata rows = .ok reported ∧ reported.map (·.ordinal) = List.range reported.length ∧
      List.Forall₂ ResultColumn.ReportedAs (columns.filter (!·.isHidden)) reported := by
  have hvisible : List.Forall₂ (fun (c : ResultColumn) values => c.Row metadata values) (columns.filter (!·.isHidden))
      (rows.filter fun values => !(boolAt values (indexOf metadata "is_hidden")).getD false) := by
    refine List.rel_filter (fun c values hrow => ?_) hrows
    have hhidden : boolAt values (indexOf metadata "is_hidden") = some c.isHidden := hrow.isHidden.boolAt_eq hdistinct
    simp only [hhidden, Option.getD_some]
  obtain ⟨reported, hdescribed, hordinals, hreported⟩ :=
    describedColumns_from hdistinct hvisible (fun c hc => hnames c (List.mem_of_mem_filter hc)) 0
  refine ⟨reported, hdescribed, ?_, hreported⟩
  rw [hordinals, hreported.length_eq, List.range_eq_range']

end Tables

/-- What the server knows of a statement. -/
structure KnownStatement where
  parameters : List UndeclaredParameter
  columns : List ResultColumn
  deriving DecidableEq, Repr

namespace KnownStatement
variable (known : KnownStatement)

def declarations : Text := List.intercalate ", ".toList (known.parameters.map (·.declaration))

def visible : List ResultColumn := known.columns.filter (!·.isHidden)

/-- The parameters are counted in their order, and every type name can be read. -/
structure WellFormed : Prop where
  ordinals : known.parameters.Pairwise fun p q => p.ordinal.toInt < q.ordinal.toInt
  parameterTypes : ∀ p ∈ known.parameters, ¬ ClosedBeforeOpened p.typeName
  columnTypes : ∀ c ∈ known.columns, ¬ ClosedBeforeOpened c.typeName

/-- The server presents what it knows of the statement. The columns of the rows are arranged in
any way and the parameters in any order, and asking for parameters changes no data. -/
structure PresentedBy (engine : SqlEngine δ) (rewritten : Text) (markers : ℕ) (data : δ) : Prop where
  asked : known.parameters = [] ↔ markers = 0
  parameters : known.parameters ≠ [] → ∃ metadata rows left shuffled,
    engine.replies (undeclaredParametersRequest rewritten) data = .rows metadata rows :: left ∧
      DistinctNames metadata ∧ shuffled.Perm known.parameters ∧
      List.Forall₂ (fun (p : UndeclaredParameter) values => p.Row metadata values) shuffled rows
  unchanged : engine.effect (undeclaredParametersRequest rewritten) data = data
  columns : ∃ metadata rows left,
    engine.replies (firstResultSetRequest rewritten known.declarations) data = .rows metadata rows :: left ∧
      DistinctNames metadata ∧
      List.Forall₂ (fun (c : ResultColumn) values => c.Row metadata values) known.columns rows

/-- All that the server knows of the parameters and of the columns that are returned. -/
structure DescribedAs (markers : ℕ) (described : DescribedStatement) : Prop where
  parameters : TypedOrCounted features known.parameters markers described.parameters
  ordinals : described.columns.map (·.ordinal) = List.range described.columns.length
  columns : List.Forall₂ ResultColumn.ReportedAs known.visible described.columns

/-- The answers that the procedures take. -/
def answers : ℕ :=
  (if known.parameters = [] then 0 else known.parameters.length + 3) + (known.columns.length + 3)

end KnownStatement

section Run
variable {metadata : List ColumnMetadata} {left : List StatementReply} {data : δ}

theorem plays_readRows (rows read : List (List ColumnValues)) (context : String) :
    Plays (StandsIn (.rows metadata rows :: left) data) (List.replicate (rows.length + 1) none)
      (fun all t => all = read ++ rows ∧ StandsIn (.rows metadata [] :: left) data t)
      (Process.loop (fun rows => do
        match ← call engine TdsClient.nextRow context with
        | some values => return .inl (rows ++ [values])
        | none => return .inr rows) read) := by
  induction rows generalizing read with
  | nil =>
    change Plays _ ([none] ++ []) _ _
    refine Plays.loop (Q := fun r t => r = .inr read ∧ StandsIn (.rows metadata [] :: left) data t)
      ((plays_nextRow engine metadata [] left data context).bind (.of_value (.pure fun t ht => ⟨rfl, ht⟩)))
      (.inl (by simp)) (.of_value (.pure fun t ht => ⟨(List.append_nil read).symm, ht⟩))
  | cons values rows ih =>
    have hscript : List.replicate ((values :: rows).length + 1) (none : Option StreamItem) =
        [none] ++ List.replicate (rows.length + 1) none := rfl
    rw [hscript, List.append_cons]
    refine Plays.loop (Q := fun r t => r = .inl (read ++ [values]) ∧ StandsIn (.rows metadata rows :: left) data t)
      ?_ (.inl (by simp)) (.of_value (ih (read ++ [values])))
    exact (plays_nextRow engine metadata (values :: rows) left data context).bind
      (.of_value (.pure fun t ht => ⟨rfl, ht⟩))

/-- The rows that the cursor stands in front of are read, and the response is closed. -/
theorem plays_readFirstRows (rows : List (List ColumnValues)) (advanceContext rowContext closeContext : String) :
    Plays (StandsIn (.rows metadata rows :: left) data) (List.replicate (rows.length + 2) none)
      (fun read t => read = (metadata, rows) ∧ Stands false data t)
      (readFirstRows engine .rows advanceContext rowContext closeContext) := by
  have hscript : List.replicate (rows.length + 2) (none : Option StreamItem) =
      [] ++ (List.replicate (rows.length + 1) none ++ ([none] ++ [])) := by
    rw [List.nil_append, List.append_nil, ← List.replicate_succ']
  rw [hscript]
  refine Plays.bind (Q := fun found t => found = true ∧ StandsIn (.rows metadata rows :: left) data t)
    (.pure fun t ht => ⟨rfl, ht⟩) (.of_value ?_)
  refine .get_bind fun s hs => ?_
  have hmetadata : s.client.metadata = metadata := by rw [TdsClient.metadata, hs.response]
  rw [hmetadata]
  refine .of_imp (fun _ h => h ▸ hs) ((plays_readRows engine rows [] _).bind (.of_value ?_))
  refine Plays.bind (Q := fun _ t => Stands false data t) ?_ fun _ => .pure fun t ht => ⟨rfl, ht⟩
  exact .reading engine _ fun t ht => ⟨ht.settled, ht.reset, ht.data⟩

/-- A request that is answered with rows has them read and the response closed. -/
theorem plays_collectRows {request : Request} {rows : List (List ColumnValues)} (unread : Bool)
    (h : engine.replies request data = .rows metadata rows :: left) :
    Plays (Stands unread data) (List.replicate ((if unread then 1 else 0) + (rows.length + 3)) none)
      (fun read t => read = (metadata, rows) ∧ Stands false (engine.effect request data) t)
      (collectRows engine request) := by
  have hscript : List.replicate ((if unread then 1 else 0) + (rows.length + 3)) (none : Option StreamItem) =
      List.replicate (if unread then 1 else 0) none ++ ([none] ++ List.replicate (rows.length + 2) none) := by
    rw [List.replicate_add]
    rfl
  rw [hscript]
  refine (plays_drainPending engine unread data).bind fun _ => ?_
  refine (plays_request engine _ request data _).bind (.of_value ?_)
  rw [h]
  exact plays_readFirstRows engine rows _ _ _

theorem plays_inferParameters {known : KnownStatement} (hknown : known.WellFormed) {rewritten : Text} {markers : ℕ}
    (h : known.PresentedBy engine rewritten markers data) (hasked : known.parameters ≠ []) :
    ∃ inferred : InferredParameters,
      inferred.declarations = known.declarations ∧
      (∀ count, TypedOrCounted features known.parameters count (inferred.report count)) ∧ ∀ unread,
      Plays (Stands unread data) (List.replicate ((if unread then 1 else 0) + (known.parameters.length + 3)) none)
        (fun read t => read = inferred ∧ Stands false data t) (inferParameters engine features rewritten) := by
  obtain ⟨metadata, rows, left, shuffled, hreplies, hdistinct, hperm, hrows⟩ := h.parameters hasked
  obtain ⟨inferred, hinferred, hdeclarations, htyped⟩ :=
    inferredParameters_known features hdistinct hrows hperm hknown.ordinals hknown.parameterTypes
  refine ⟨inferred, hdeclarations, htyped, fun unread => ?_⟩
  have hcollect := plays_collectRows engine unread hreplies
  rw [h.unchanged, ← hrows.length_eq, hperm.length_eq] at hcollect
  rw [← List.append_nil (List.replicate _ _)]
  refine hcollect.bind (.of_value ?_)
  change Plays _ _ _ (Process.lift (inferredParameters features metadata rows))
  rw [hinferred]
  exact .pure fun t ht => ⟨rfl, ht⟩

/-- The parameters are asked for where there are any, over a response that may be unread. -/
theorem plays_askParameters {known : KnownStatement} (hknown : known.WellFormed) {rewritten : Text} {markers : ℕ}
    (h : known.PresentedBy engine rewritten markers data) : ∃ inferred : InferredParameters,
      inferred.declarations = known.declarations ∧
      TypedOrCounted features known.parameters markers (inferred.report markers) ∧ ∀ unread, ∃ asked still,
      asked + (if still then 1 else 0) + (known.columns.length + 3) = (if unread then 1 else 0) + known.answers ∧
      Plays (Stands unread data) (List.replicate asked none) (fun read t => read = inferred ∧ Stands still data t)
        (if 0 < markers then inferParameters engine features rewritten else pure ⟨[], some []⟩) := by
  by_cases hnone : known.parameters = []
  · obtain rfl : markers = 0 := h.asked.mp hnone
    rw [KnownStatement.declarations, KnownStatement.answers, if_pos hnone, if_neg (lt_irrefl 0), hnone]
    refine ⟨⟨[], some []⟩, rfl, ⟨fun types => ?_, fun hne => absurd rfl (hne [])⟩,
      fun unread => ⟨0, unread, by omega, ?_⟩⟩
    · rw [List.forall₂_nil_left_iff]
      exact ⟨fun htypes => ⟨rfl, (Sum.inl.inj htypes).symm⟩, fun htypes => congrArg Sum.inl htypes.2.symm⟩
    · exact .pure fun t ht => ⟨rfl, ht⟩
  · have hpos : 0 < markers := Nat.pos_of_ne_zero fun hzero => hnone (h.asked.mpr hzero)
    obtain ⟨inferred, hdeclarations, htyped, hplays⟩ := plays_inferParameters engine features hknown h hnone
    rw [KnownStatement.answers, if_neg hnone, if_pos hpos]
    refine ⟨inferred, hdeclarations, htyped markers, fun unread => ⟨_, false, ?_, hplays unread⟩⟩
    rw [if_neg Bool.false_ne_true]
    omega

/-- A statement is described once its procedures have been answered. -/
theorem plays_describeStatement {known : KnownStatement} (hknown : known.WellFormed) {sql rewritten : Text}
    {markers : ℕ} (hmarkers : rewriteParamMarkers sql = .ok (rewritten, markers))
    (h : known.PresentedBy engine rewritten markers data) :
    ∃ described, known.DescribedAs features markers described ∧ ∀ unread,
      Plays (Stands unread data) (List.replicate ((if unread then 1 else 0) + known.answers) none)
        (fun read t => read = described ∧ t.pendingRollback = false) (describeStatement engine features sql) := by
  obtain ⟨metadata, rows, left, hreplies, hdistinct, hrows⟩ := h.columns
  obtain ⟨columns, hcolumns, hordinals, hreported⟩ := describedColumns_known hdistinct hrows hknown.columnTypes
  obtain ⟨inferred, hdeclarations, htyped, hasks⟩ := plays_askParameters engine features hknown h
  refine ⟨⟨columns, inferred.report markers⟩, ⟨htyped, hordinals, hreported⟩, fun unread => ?_⟩
  obtain ⟨asked, still, hanswers, hplays⟩ := hasks unread
  have hcollect := plays_collectRows engine still hreplies
  rw [← hrows.length_eq, ← hdeclarations] at hcollect
  have hscript : List.replicate ((if unread then 1 else 0) + known.answers) (none : Option StreamItem) =
      [] ++ (List.replicate asked none ++
        (List.replicate ((if still then 1 else 0) + (known.columns.length + 3)) none ++ [])) := by
    rw [← hanswers, Nat.add_assoc, List.replicate_add, List.append_nil, List.nil_append]
  rw [hscript, describeStatement, hmarkers]
  refine Plays.bind (Q := fun read t => read = (rewritten, markers) ∧ Stands unread data t)
    (.pure fun t ht => ⟨rfl, ht⟩) (.of_value ?_)
  refine hplays.bind (.of_value (hcollect.bind (.of_value ?_)))
  change Plays _ _ _ (Process.lift (describedColumns metadata rows) >>= _)
  rw [hcolumns]
  exact .pure fun t ht => ⟨rfl, ht.settled⟩

/-- Connecting rolls back whatever the server still has open. -/
theorem plays_connectWith (data : δ) (options : MssqlConnectOptions) :
    Plays (fun s : Session δ => s.client.server.durable = data) [none] (fun _ t => Stands false data t)
      (connectWith engine options) := by
  change Plays _ ([none] ++ []) _ _
  refine Plays.bind (Q := fun _ t => t.client.server.data = data) (.call engine _ fun s hs => ⟨_, rfl, hs⟩)
    fun _ => ?_
  exact .update (fun _ => rfl) fun t ht => ⟨rfl, rfl, ht⟩

/-- The call comes back, with its answer or with an error. -/
def Event.ComesBack : Event → Prop
  | .answered | .refused _ _ => True
  | .cut _ => False

theorem attempt_close_returned_iff (t : Session δ) (es : List Event) :
    ((close engine).attempt t es).exit.isReturned = true ↔ ∃ e, es[0]? = some e ∧ e.ComesBack := by
  rcases es with _ | ⟨e, es⟩
  · exact iff_of_false Bool.false_ne_true (by simp)
  · simp only [List.getElem?_cons_zero, Option.some.injEq, exists_eq_left']
    cases e with
    | answered => exact iff_of_true rfl trivial
    | refused error applied => exact iff_of_true rfl trivial
    | cut applied => exact iff_of_false Bool.false_ne_true id

/-- What follows a script and a call whose result is dropped. -/
theorem Plays.returned_iff_attempt {P Q : Session δ → Prop} {β : Type} {script : Script} {a : α} {m : Operation δ α}
    (hm : Plays P script (fun b t => b = a ∧ Q t) m) {s : Session δ} (hs : P s) (es : List Event) (f : α → β)
    (b : β) :
    ((m >>= fun a => (close engine).attempt >>= fun _ => Pure.pure (f a)) s es).exit = .returned b ↔
      b = f a ∧ script.length ≤ lead es ∧ ∃ e, es[script.length]? = some e ∧ e.ComesBack := by
  by_cases hlead : script.length ≤ lead es
  · obtain ⟨_, t, hrun, ⟨rfl, -⟩, -⟩ := hm.completes hs hlead
    have hclose := attempt_close_returned_iff engine t (es.drop script.length)
    rw [List.getElem?_drop, Nat.add_zero] at hclose
    rw [Process.bind_run, hrun, Process.andThen_returned, Process.bind_run, ← hclose]
    rcases (close engine).attempt t (es.drop script.length) with ⟨exit, u, rest⟩
    cases exit with
    | returned closed => simp [Exit.isReturned, hlead, eq_comm]
    | failed e => simp [Exit.isReturned]
    | dropped p => simp [Exit.isReturned]
    | aborted a => simp [Exit.isReturned]
  · obtain ⟨exit, t, rest, hrun, hreturned, -, -⟩ := hm.stops hs (Nat.lt_of_not_le hlead)
    rw [Process.bind_run, hrun]
    refine iff_of_false ?_ fun h => hlead h.2.1
    cases exit with
    | returned a => exact absurd rfl (hreturned a)
    | failed e => nofun
    | dropped p => nofun
    | aborted a => nofun

end Run

def DescribedStatement.toDescribe (described : DescribedStatement) : Describe :=
  ⟨described.columns, some described.parameters, described.columns.map (·.nullable)⟩

section Described
variable {sql : Text} {answers : ℕ} {described : DescribedStatement} {data : δ}
  (hplays : ∀ unread, Plays (Stands unread data) (List.replicate ((if unread then 1 else 0) + answers) none)
    (fun read t => read = described ∧ t.pendingRollback = false) (describeStatement engine features sql))
include hplays

theorem plays_described {β : Type} (unread : Bool) (f : DescribedStatement → β) :
    Plays (Stands unread data) (List.replicate ((if unread then 1 else 0) + answers) none)
      (fun b t => b = f described ∧ t.pendingRollback = false)
      (do let read ← describeStatement engine features sql; return f read) := by
  rw [← List.append_nil (List.replicate _ _)]
  exact (hplays unread).bind (.of_value (.pure fun t ht => ⟨rfl, ht⟩))

theorem describeBlocking_returned_iff (runtime : Except Text Unit) {parse : UrlParser} {url : Text}
    {options : MssqlConnectOptions} (hoptions : MssqlConnectOptions.fromStr parse url = .ok (.ok options))
    {s : Session δ} (hdurable : s.client.server.durable = data) (es : List Event) (d : Describe) :
    (describeBlocking engine features runtime parse sql url s es).exit = .returned d ↔
      runtime = .ok () ∧ d = described.toDescribe ∧ answers + 1 ≤ lead es ∧
        ∃ e, es[answers + 1]? = some e ∧ e.ComesBack := by
  have hlift : (MssqlConnectOptions.fromStr parse url).map (·.mapError SqlxError.configuration) =
      .ok (.ok options) := by
    rw [hoptions]
    rfl
  have hconnected := (plays_connectWith engine data options).bind fun _ =>
    plays_described engine features hplays false
      fun read => (⟨sql, read.columns, some read.parameters⟩ : MssqlStatement)
  have hreturned := hconnected.returned_iff_attempt engine hdurable es
    (fun statement => (⟨statement.columns, statement.parameters, statement.columns.map (·.nullable)⟩ : Describe)) d
  rw [List.length_append, List.length_replicate, if_neg Bool.false_ne_true, Nat.zero_add, Nat.add_comm] at hreturned
  rw [describeBlocking, hlift]
  cases runtime with
  | error e => exact iff_of_false (fun h => by cases h) fun h => by cases h.1
  | ok started =>
    rw [eq_self_iff_true, true_and]
    simp only [describeWithRuntime, prepareWith, Process.bind_assoc] at hreturned ⊢
    exact hreturned

end Described

/-- With no rollback queued, preparing and describing a statement return all that the server knows
of it, and nothing else, as soon as the calls have been answered. A description with a connection
of its own needs a runtime that starts and one answer more, and does not mind how closing goes as
long as it comes back. -/
theorem prepared_as_known {known : KnownStatement} (hknown : known.WellFormed) {sql rewritten : Text} {markers : ℕ}
    (hmarkers : rewriteParamMarkers sql = .ok (rewritten, markers)) {data : δ}
    (h : known.PresentedBy engine rewritten markers data) : ∃ described,
      known.DescribedAs features markers described ∧
      (∀ (s : Session δ) (es : List Event), s.client.server.data = data → s.pendingRollback = false →
        (∀ statement, (prepareWith engine features sql s es).exit = .returned statement ↔
          statement = ⟨sql, described.columns, some described.parameters⟩ ∧
            (if s.needsReset then 1 else 0) + known.answers ≤ lead es) ∧
        ∀ d, (describe engine features sql s es).exit = .returned d ↔
          d = described.toDescribe ∧ (if s.needsReset then 1 else 0) + known.answers ≤ lead es) ∧
      ∀ runtime parse url options, MssqlConnectOptions.fromStr parse url = .ok (.ok options) →
        ∀ (s : Session δ) (es : List Event), s.client.server.durable = data → ∀ d,
          (describeBlocking engine features runtime parse sql url s es).exit = .returned d ↔
            runtime = .ok () ∧ d = described.toDescribe ∧ known.answers + 1 ≤ lead es ∧
              ∃ e, es[known.answers + 1]? = some e ∧ e.ComesBack := by
  obtain ⟨described, hdescribed, hplays⟩ := plays_describeStatement engine features hknown hmarkers h
  refine ⟨described, hdescribed, fun s es hdata hsettled => ⟨fun statement => ?_, fun d => ?_⟩,
    fun runtime parse url options hoptions s es hdurable d =>
      describeBlocking_returned_iff engine features hplays runtime hoptions hdurable es d⟩
  · have hprepared := plays_described engine features hplays s.needsReset
      fun read => (⟨sql, read.columns, some read.parameters⟩ : MssqlStatement)
    have hreturned := hprepared.returned_iff ⟨hsettled, rfl, hdata⟩ es statement
    rwa [List.length_replicate] at hreturned
  · have hreturned := (plays_described engine features hplays s.needsReset DescribedStatement.toDescribe).returned_iff
      ⟨hsettled, rfl, hdata⟩ es d
    rwa [List.length_replicate] at hreturned

section Numbers

def metadataNamed (names : List String) : List ColumnMetadata :=
  names.map fun name => ⟨name.toList, .nVarChar, [], 0, none, none, none, true⟩

/-- One number, handed in and returned. -/
def numberKnown : KnownStatement where
  parameters := [⟨1, "@P1".toList, some "int".toList⟩]
  columns := [⟨some "n".toList, some "int".toList, true, false, 10, 0, 56, 4⟩]

def numberColumn : ColumnMetadata := ⟨"n".toList, .intN, "int".toList, 4, none, some 10, some 0, true⟩

/-- A server that knows the statement of one number, and answers it with a 7. -/
def numberEngine : SqlEngine ℕ where
  effect _ data := data
  replies request _ :=
    if request.sql = "SELECT @P1 AS n".toList then [.rows [numberColumn] [[.int 7]]]
    else if request = undeclaredParametersRequest "SELECT @P1 AS n".toList then
      [.rows (metadataNamed ["parameter_ordinal", "name", "suggested_system_type_name"])
        [[.int 1, .string "@P1".toList, .string "int".toList]]]
    else
      [.rows (metadataNamed ["is_hidden", "name", "is_nullable", "SYSTEM_TYPE_NAME", "precision", "scale",
          "tds_type_id", "tds_length"])
        [[.bit false, .string "n".toList, .bit true, .string "int".toList, .tinyInt 10, .tinyInt 0, .int 56, .int 4]]]
  rejection := countingEngine.rejection

theorem numberKnown_presented : numberKnown.PresentedBy numberEngine "SELECT @P1 AS n".toList 1 0 where
  asked := by decide
  parameters _ := by
    refine ⟨_, _, [], _, rfl, by unfold DistinctNames; decide, .rfl, .cons ⟨?_, ?_, ?_⟩ .nil⟩
    · exact ⟨0, _, rfl, by decide, rfl⟩
    · exact ⟨1, _, rfl, by decide, rfl⟩
    · exact ⟨2, _, rfl, by decide, rfl⟩
  unchanged := rfl
  columns := by
    refine ⟨_, _, [], rfl, by unfold DistinctNames; decide, .cons ⟨?_, ?_, ?_, ?_, ?_, ?_, ?_, ?_⟩ .nil⟩
    · exact ⟨1, _, rfl, by decide, rfl⟩
    · exact ⟨3, _, rfl, by decide, rfl⟩
    · exact ⟨2, _, rfl, by decide, rfl⟩
    · exact ⟨0, _, rfl, by decide, rfl⟩
    · exact ⟨4, _, rfl, by decide, rfl⟩
    · exact ⟨5, _, rfl, by decide, rfl⟩
    · exact ⟨6, _, rfl, by decide, rfl⟩
    · exact ⟨7, _, rfl, by decide, rfl⟩

theorem numberKnown_wellFormed : numberKnown.WellFormed where
  ordinals := List.pairwise_singleton _ _
  parameterTypes p hp := by
    rw [List.mem_singleton.mp hp]
    exact (fromSystemTypeName_returns_iff _).mp ⟨some .integer, rfl⟩
  columnTypes c hc := by
    rw [List.mem_singleton.mp hc]
    exact (fromSystemTypeName_returns_iff _).mp ⟨some .integer, rfl⟩

def localParser : UrlParser := fun _ => .ok ⟨"mssql".toList, [], none, some "localhost".toList, none, [], []⟩

/-- The description of one number, over a connection that fails to close. -/
theorem numberKnown_described : ∃ described, numberKnown.DescribedAs allFeatures 1 described ∧
    (describeBlocking numberEngine allFeatures (.ok ()) localParser "SELECT ? AS n".toList "mssql://localhost".toList
      (Session.connected 0) (List.replicate 9 .answered ++ [.refused (.other []) false])).exit =
        .returned described.toDescribe := by
  have hmarkers : rewriteParamMarkers "SELECT ? AS n".toList = .ok ("SELECT @P1 AS n".toList, 1) := by decide +kernel
  obtain ⟨described, hdescribed, -, hblocking⟩ :=
    prepared_as_known numberEngine allFeatures numberKnown_wellFormed hmarkers numberKnown_presented
  refine ⟨described, hdescribed, ?_⟩
  exact (hblocking (.ok ()) localParser _ {} rfl _ _ rfl _).mpr ⟨rfl, rfl, by decide, _, rfl, trivial⟩

end Numbers

end SqlxMssql
