import SqlxMssql.Connection.Session

/-! # Describing a statement

A statement is described by one or two system procedures, whose rows are read by the
names of their columns.
-/
namespace SqlxMssql
open Loops Utf8 Interaction ParamMarkers

def textAt (values : List ColumnValues) (index : Option ℕ) : Option Text :=
  match index.bind (values[·]?) with
  | some (.string value) => some value
  | _ => none

def integerAt (values : List ColumnValues) (index : Option ℕ) : Option ℤ :=
  match index.bind (values[·]?) with
  | some (.tinyInt value) => some value.toNat
  | some (.smallInt value) => some value.toInt
  | some (.int value) => some value.toInt
  | some (.bigInt value) => some value.toInt
  | _ => none

def boolAt (values : List ColumnValues) (index : Option ℕ) : Option Bool :=
  match index.bind (values[·]?) with
  | some (.bit value) => some value
  | _ => none

def indexOf (metadata : List ColumnMetadata) (name : String) : Option ℕ :=
  metadata.findIdx? fun column => eqIgnoreAsciiCase column.columnName name.toList

structure InferredParameters where
  declarations : Text
  /-- One entry per parameter, or none when some type could not be pinned down. -/
  types : Option (List MssqlTypeInfo)
  deriving DecidableEq, Repr

def inferredParameter (metadata : List ColumnMetadata) (values : List ColumnValues) : ℤ × Text × Text :=
  let ordinal := (integerAt values (indexOf metadata "parameter_ordinal")).getD 0
  (ordinal, (textAt values (indexOf metadata "name")).getD ("@P".toList ++ decimalInt ordinal),
    (textAt values (indexOf metadata "suggested_system_type_name")).getD "nvarchar(4000)".toList)

/-- The declarations do not depend on the order in which the rows arrive. -/
def inferredParameters (features : Features) (metadata : List ColumnMetadata)
    (rows : List (List ColumnValues)) : Run InferredParameters := do
  let inferred := (rows.map (inferredParameter metadata)).mergeSort (fun a b => decide (a.1 ≤ b.1))
  let infos ← inferred.mapM fun (_, _, typeName) => fromSystemTypeName typeName
  let known := infos.filterMap fun info => info.filter (·.hasExactRustMapping features)
  return { declarations := (inferred.map fun (_, name, typeName) => name ++ ' ' :: typeName).intersperse
             ", ".toList |>.flatten
           types := if known.length = infos.length then some known else none }

structure DescribedStatement where
  columns : List MssqlColumn
  /-- The types of the parameters, or only their number. -/
  parameters : List MssqlTypeInfo ⊕ ℕ
  deriving DecidableEq, Repr

/-- The column a row of `sp_describe_first_result_set` describes, after `ordinal` others. -/
def describedColumn (metadata : List ColumnMetadata) (ordinal : ℕ) (values : List ColumnValues) :
    Run MssqlColumn := do
  let typeName := (textAt values (indexOf metadata "system_type_name")).getD "unknown".toList
  let tdsType := (integerAt values (indexOf metadata "tds_type_id")).getD 0
  let length := (integerAt values (indexOf metadata "tds_length")).getD 0
  let rawPrecision := (integerAt values (indexOf metadata "precision")).bind toU8
  let rawScale := (integerAt values (indexOf metadata "scale")).bind toU8
  -- the logical type is preferred to the storage type of `tds_type_id`
  let info := (← fromSystemTypeName typeName).getD
    ⟨typeName, (toU8 tdsType).getD 0, (toU32 length).getD 0, rawPrecision, rawScale⟩
  return { ordinal
           name := (textAt values (indexOf metadata "name")).getD []
           typeInfo := info.withPrecisionScale rawPrecision rawScale
           nullable := some ((boolAt values (indexOf metadata "is_nullable")).getD true) }

def describedColumns (metadata : List ColumnMetadata) (rows : List (List ColumnValues)) :
    Run (List MssqlColumn) :=
  let visible := rows.filter fun values => !(boolAt values (indexOf metadata "is_hidden")).getD false
  visible.zipIdx.mapM fun (values, ordinal) => describedColumn metadata ordinal values

def nvarcharParameter (name : String) (value : Text) : RpcParameter :=
  ⟨name.toList, .nVarcharMax (some value)⟩

def undeclaredParametersRequest (rewritten : Text) : Request :=
  ⟨"EXEC sp_describe_undeclared_parameters @tsql = @P1".toList, [nvarcharParameter "@P1" rewritten]⟩

def firstResultSetRequest (rewritten declarations : Text) : Request :=
  if declarations.isEmpty then
    ⟨"EXEC sp_describe_first_result_set @tsql = @P1, @params = NULL, @options = 0".toList,
      [nvarcharParameter "@P1" rewritten]⟩
  else
    ⟨"EXEC sp_describe_first_result_set @tsql = @P1, @params = @P2, @options = 0".toList,
      [nvarcharParameter "@P1" rewritten, nvarcharParameter "@P2" declarations]⟩

variable {δ : Type} (engine : SqlEngine δ) (features : Features)

def inferParameters (rewritten : Text) : Operation δ InferredParameters := do
  let (metadata, rows) ← collectRows engine (undeclaredParametersRequest rewritten)
  Process.lift (inferredParameters features metadata rows)

def describeStatement (sql : Text) : Operation δ DescribedStatement := do
  let (rewritten, markerCount) ← Process.lift (rewriteParamMarkers sql)
  let inferred ←
    (if 0 < markerCount then inferParameters engine features rewritten else pure ⟨[], some []⟩)
  let (metadata, rows) ← collectRows engine (firstResultSetRequest rewritten inferred.declarations)
  let columns ← Process.lift (describedColumns metadata rows)
  return { columns
           parameters := match inferred.types with
             | some types => if types.length = markerCount then .inl types else .inr markerCount
             | none => .inr markerCount }

end SqlxMssql
