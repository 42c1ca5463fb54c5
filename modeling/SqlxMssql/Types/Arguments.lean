import SqlxMssql.Types.RustTypes

/-! # Arguments

The buffer of bound values with its typed `NULL`s, and the cells that the server hands back
for parameters.
-/
namespace SqlxMssql
open Loops Utf8

/-- The parameter that declares a `NULL` of the type. -/
def nullSqlType (typeInfo : MssqlTypeInfo) : SqlType :=
  match typeInfo.dataType with
  | some .int1 => .tinyInt none
  | some .int2 => .smallInt none
  | some .int4 => .int none
  | some .int8 | some .intN => .bigInt none
  | some .flt4 => .real none
  | some .flt8 | some .fltN => .float none
  | some .bit | some .bitN => .bit none
  | some .decimal | some .decimalN => .decimal none
  | some .numeric | some .numericN => .numeric none
  | some .money => .money none
  | some .money4 => .smallMoney none
  | some .char => .char none 0
  | some .nChar => .nChar none 0
  | some .text => .text none
  | some .nText => .nText none
  | some .bigChar | some .bigVarChar | some .varChar => .varcharMax none
  -- a spatial value is sent as its serialization
  | some .bigBinary | some .bigVarBinary | some .binary | some .varBinary | some .image | some .udt =>
    .varBinaryMax none
  | some .guid => .uuid none
  | some .dateN => .date none
  | some .timeN => .time none
  | some .dateTime2N => .dateTime2 none
  | some .dateTimeOffsetN => .dateTimeOffset none
  | some .dateTime | some .dateTimeN => .dateTime none
  | some .dateTim4 => .smallDateTime none
  | some .xml => .xml none
  | some .json => .json none
  | _ => .nVarcharMax none

namespace SqlType

/-- What a column holds that the parameter has been put in. -/
def cell : SqlType → ColumnValues
  | .tinyInt value => value.elim .null .tinyInt
  | .smallInt value => value.elim .null .smallInt
  | .int value => value.elim .null .int
  | .bigInt value => value.elim .null .bigInt
  | .bit value => value.elim .null .bit
  | .real bits => bits.elim .null .real
  | .float bits => bits.elim .null .float
  | .decimal parts => parts.elim .null .decimal
  | .numeric parts => parts.elim .null .numeric
  | .money value => value.elim .null .money
  | .smallMoney value => value.elim .null .smallMoney
  | .char value _ | .nChar value _ | .text value | .nText value | .varcharMax value | .nVarcharMax value =>
    value.elim .null .string
  | .varBinaryMax value => value.elim .null .bytes
  | .xml value => value.elim .null .xml
  | .json value => value.elim .null .json
  | .uuid bytes => bytes.elim .null .uuid
  | .date value => value.elim .null .date
  | .time value => value.elim .null .time
  | .dateTime value => value.elim .null .dateTime
  | .smallDateTime value => value.elim .null .smallDateTime
  | .dateTime2 value => value.elim .null .dateTime2
  | .dateTimeOffset value => value.elim .null .dateTimeOffset

/-- The wire type of such a column, which can hold `NULL`. -/
def wireType : SqlType → TdsDataType
  | .tinyInt _ | .smallInt _ | .int _ | .bigInt _ => .intN
  | .bit _ => .bitN
  | .real _ | .float _ => .fltN
  | .decimal _ => .decimalN
  | .numeric _ => .numericN
  | .money _ | .smallMoney _ => .moneyN
  | .char _ _ => .bigChar
  | .nChar _ _ => .nChar
  | .text _ => .text
  | .nText _ => .nText
  | .varcharMax _ => .bigVarChar
  | .nVarcharMax _ => .nVarChar
  | .varBinaryMax _ => .bigVarBinary
  | .xml _ => .xml
  | .json _ => .json
  | .uuid _ => .guid
  | .date _ => .dateN
  | .time _ => .timeN
  | .dateTime _ | .smallDateTime _ => .dateTimeN
  | .dateTime2 _ => .dateTime2N
  | .dateTimeOffset _ => .dateTimeOffsetN

end SqlType

/-- A value of a Rust type, or the `None` of its `Option`. -/
structure Argument (crates : Crates) where
  type : RustType
  value : Option (type.Value crates)

section Arguments
variable (crates : Crates)

/-- `Encode::encode` of an `Option`. -/
def Argument.encode (argument : Argument crates) : Run Encoding :=
  match argument.value with
  | some value => argument.type.encode crates value
  | none => .ok fun buf => (.ok .yes, buf ++ [nullSqlType argument.type.typeInfo])

/-- `MssqlArguments::add` -/
def addArgument (values : List SqlType) (argument : Argument crates) : Run (Except Text Unit × List SqlType) := do
  let (isNull, values) := (← argument.encode) values
  return (isNull.map fun _ => (), values)

/-- One argument after the other, up to the first that cannot be encoded. -/
def addArguments : List SqlType → List (Argument crates) → Run (Except Text Unit × List SqlType)
  | values, [] => .ok (.ok (), values)
  | values, argument :: arguments => do
    match ← addArgument crates values argument with
    | (.ok _, values) => addArguments values arguments
    | (.error e, values) => return (.error e, values)

end Arguments

end SqlxMssql
