import SqlxMssql.Types.Values

/-! # Type information

The driver's description of a column's type, and its reading of the type names that the
server reports for described columns and parameters.
-/
namespace SqlxMssql
open Loops Utf8

inductive TdsDataType where
  | none | image | text | guid | varBinary | intN | varChar | dateN | timeN | dateTime2N
  | dateTimeOffsetN | binary | char | int1 | bit | int2 | decimal | int4 | dateTim4 | flt4
  | money | dateTime | flt8 | numeric | ssVariant | nText | bitN | decimalN | numericN | fltN
  | moneyN | dateTimeN | money4 | int8 | bigVarBinary | bigVarChar | bigBinary | bigChar
  | nVarChar | nChar | udt | xml | json | vector
  deriving DecidableEq, Repr

namespace TdsDataType

/-- `data_type as u8` -/
def code : TdsDataType → UInt8
  | none => 0x00 | image => 0x22 | text => 0x23 | guid => 0x24 | varBinary => 0x25
  | intN => 0x26 | varChar => 0x27 | dateN => 0x28 | timeN => 0x29 | dateTime2N => 0x2A
  | dateTimeOffsetN => 0x2B | binary => 0x2D | char => 0x2F | int1 => 0x30 | bit => 0x32
  | int2 => 0x34 | decimal => 0x37 | int4 => 0x38 | dateTim4 => 0x3A | flt4 => 0x3B
  | money => 0x3C | dateTime => 0x3D | flt8 => 0x3E | numeric => 0x3F | ssVariant => 0x62
  | nText => 0x63 | bitN => 0x68 | decimalN => 0x6A | numericN => 0x6C | fltN => 0x6D
  | moneyN => 0x6E | dateTimeN => 0x6F | money4 => 0x7A | int8 => 0x7F | bigVarBinary => 0xA5
  | bigVarChar => 0xA7 | bigBinary => 0xAD | bigChar => 0xAF | nVarChar => 0xE7 | nChar => 0xEF
  | udt => 0xF0 | xml => 0xF1 | json => 0xF4 | vector => 0xF5

def all : List TdsDataType :=
  [none, image, text, guid, varBinary, intN, varChar, dateN, timeN, dateTime2N, dateTimeOffsetN,
    binary, char, int1, bit, int2, decimal, int4, dateTim4, flt4, money, dateTime, flt8, numeric,
    ssVariant, nText, bitN, decimalN, numericN, fltN, moneyN, dateTimeN, money4, int8, bigVarBinary,
    bigVarChar, bigBinary, bigChar, nVarChar, nChar, udt, xml, json, vector]

/-- `TdsDataType::try_from(code).ok()` -/
def ofCode (n : UInt8) : Option TdsDataType := all.find? fun t => t.code = n

theorem mem_all (t : TdsDataType) : t ∈ all := by cases t <;> decide

theorem ofCode_code (t : TdsDataType) : ofCode t.code = some t := by cases t <;> decide

end TdsDataType

structure MssqlTypeInfo where
  typeName : Text
  sqlDataType : UInt8
  length : UInt32
  precision : Option UInt8
  scale : Option UInt8
  deriving DecidableEq, Repr

/-- The metadata of a result column, with the answers of the client's accessors. -/
structure ColumnMetadata where
  columnName : Text
  dataType : TdsDataType
  /-- `get_meta_type_name`, or the lowercased debug name where it has none. -/
  dataTypeName : Text
  length : ℕ
  /-- The name and maximal size of a CLR UDT. -/
  udtInfo : Option (Text × UInt16)
  precision : Option UInt8
  scale : Option UInt8
  isNullable : Bool
  deriving DecidableEq, Repr

/-- The cargo features that decide which Rust types exist. -/
structure Features where
  spatial : Bool
  chrono : Bool
  time : Bool
  jiff : Bool
  uuid : Bool
  deriving DecidableEq, Repr

def reportsPrecision (sqlDataType : UInt8) : Bool :=
  TdsDataType.ofCode sqlDataType ∈ [some .decimalN, some .numericN, some .money, some .money4,
    some .moneyN]

def reportsScale (sqlDataType : UInt8) : Bool :=
  TdsDataType.ofCode sqlDataType ∈ [some .decimalN, some .numericN, some .timeN, some .dateTime2N,
    some .dateTimeOffsetN]

namespace MssqlTypeInfo

def plain (name : String) (dataType : TdsDataType) (length : UInt32) : MssqlTypeInfo :=
  ⟨name.toList, dataType.code, length, none, none⟩

def unknown := plain "unknown" .none 0
def tinyint := plain "tinyint" .int1 1
def smallint := plain "smallint" .int2 2
def integer := plain "int" .int4 4
def bigint := plain "bigint" .int8 8
def real := plain "real" .flt4 4
def double := plain "float" .flt8 8
def bit := plain "bit" .bit 1
def nvarcharMax := plain "nvarchar" .nVarChar 0
def varbinaryMax := plain "varbinary" .bigVarBinary 0
def geometry := plain "geometry" .udt 0
def geography := plain "geography" .udt 0
def uuid := plain "uniqueidentifier" .guid 16
def decimal := plain "decimal" .decimalN 17
def date := plain "date" .dateN 3
def time := plain "time" .timeN 5
def datetime2 := plain "datetime2" .dateTime2N 8
def datetimeoffset := plain "datetimeoffset" .dateTimeOffsetN 10
def json := plain "json" .json 0

variable (self : MssqlTypeInfo)

def dataType : Option TdsDataType := TdsDataType.ofCode self.sqlDataType

def isGeometry : Bool :=
  self.dataType = some .udt ∧ eqIgnoreAsciiCase self.typeName "geometry".toList

def isGeography : Bool :=
  self.dataType = some .udt ∧ eqIgnoreAsciiCase self.typeName "geography".toList

def acceptsCharacterData : Bool :=
  self.dataType ∈ [some .bigChar, some .bigVarChar, some .char, some .varChar, some .text,
    some .nChar, some .nVarChar, some .nText, some .xml, some .json]

/-- This leaves out CLR UDTs, whose payload is opaque to the driver. -/
def acceptsBinaryData : Bool :=
  self.dataType ∈ [some .bigBinary, some .bigVarBinary, some .binary, some .varBinary, some .image,
    some .vector]

def acceptsNumericData : Bool :=
  self.dataType ∈ [some .int1, some .int2, some .int4, some .int8, some .intN, some .decimal, some .decimalN,
    some .numeric, some .numericN, some .money, some .money4, some .moneyN, some .flt4, some .flt8, some .fltN]

def acceptsDatetimeData : Bool :=
  self.dataType ∈ [some .dateN, some .timeN, some .dateTime2N, some .dateTimeOffsetN,
    some .dateTime, some .dateTim4, some .dateTimeN]

/-- A calendar date without a time of day. -/
def acceptsDateData : Bool := self.dataType = some .dateN

def acceptsTimeData : Bool := self.dataType = some .timeN

/-- `datetime2`, `datetime` and `smalldatetime`, with their nullable wire variants. -/
def acceptsNaiveDatetimeData : Bool :=
  self.dataType ∈ [some .dateTime2N, some .dateTime, some .dateTim4, some .dateTimeN]

def acceptsDatetimeoffsetData : Bool := self.dataType = some .dateTimeOffsetN

def acceptsBooleanData : Bool := self.dataType ∈ [some .bit, some .bitN]

/-- `==`, the identity of the SQL type. The name is a part of it for CLR UDTs only. -/
def eq (other : MssqlTypeInfo) : Bool :=
  self.sqlDataType = other.sqlDataType ∧
    (self.sqlDataType ≠ TdsDataType.udt.code ∨ eqIgnoreAsciiCase self.typeName other.typeName)

/-- Keeps the reported precision and scale only where the type carries them. -/
def withPrecisionScale (precision scale : Option UInt8) : MssqlTypeInfo :=
  { self with
    precision := if reportsPrecision self.sqlDataType then precision.or self.precision else self.precision
    scale := if reportsScale self.sqlDataType then scale.or self.scale else self.scale }

/-- Whether the type resolves to exactly one Rust type. -/
def hasExactRustMapping (features : Features) : Bool :=
  if self.isGeometry || self.isGeography then features.spatial
  else if self.acceptsCharacterData || self.acceptsBinaryData then true
  else if self.acceptsDatetimeData then features.chrono || features.time || features.jiff
  else match self.dataType with
    | some .guid => features.uuid
    | some .int1 | some .int2 | some .int4 | some .int8 | some .flt4 | some .flt8 | some .bit => true
    | _ => false

def fromColumnMetadata (column : ColumnMetadata) : MssqlTypeInfo :=
  match column.dataType, column.udtInfo with
  | .udt, some (udtName, maxByteSize) =>
    let name := toAsciiLowercase udtName
    let info :=
      if name = "geometry".toList then geometry
      else if name = "geography".toList then geography
      else ⟨name, TdsDataType.udt.code, 0, none, none⟩
    { info with length := maxByteSize.toUInt32 }
  | _, _ =>
    ⟨column.dataTypeName, column.dataType.code,
      -- `u32::try_from(length).unwrap_or(u32::MAX)`
      UInt32.ofNat (min column.length (2 ^ 32 - 1)), column.precision, column.scale⟩

/-- The wire type of a column is kept, whatever a UDT is called. -/
theorem fromColumnMetadata_dataType (column : ColumnMetadata) :
    (fromColumnMetadata column).dataType = some column.dataType := by
  have hcode : (fromColumnMetadata column).sqlDataType = column.dataType.code := by
    unfold fromColumnMetadata
    split
    · rename_i hudt _
      rw [hudt]
      dsimp only
      split
      · rfl
      · split
        · rfl
        · rfl
    · rfl
  rw [dataType, hcode, TdsDataType.ofCode_code]

end MssqlTypeInfo

/-- `s.split(c)` -/
def splitOn (c : Char) (s : Text) : List Text := List.splitOn c s

/-- The `index`th comma-separated argument of a type name's parentheses. -/
def parseArgument (args : Text) (index : ℕ) : Option UInt8 := do
  let argument ← (splitOn ',' args)[index]?
  return UInt8.ofNat (← parseUnsigned 8 (trim argument))

/-- The type a name such as `decimal(18,2)` stands for, when the driver models it. The
slice between the parentheses panics where the last `)` lies before the first `(`. -/
def fromSystemTypeName (systemTypeName : Text) : Run (Option MssqlTypeInfo) := do
  let trimmed := trim systemTypeName
  match find ['('] trimmed with
  | some start =>
    match rfind ')' trimmed with
    | none => return none
    | some stop =>
      return known (← sliceTo trimmed start) (some (trim (← slice trimmed (start + 1) stop)))
  | none => return known trimmed none
where
  known (base : Text) (args : Option Text) : Option MssqlTypeInfo :=
    let base := toAsciiLowercase (trim base)
    let firstNumber := args.bind (parseArgument · 0)
    let secondNumber := args.bind (parseArgument · 1)
    let isMax := args.any (eqIgnoreAsciiCase · "max".toList)
    -- an argument is a `u8`, so the product stays far below the saturation at `u32::MAX`
    let lengthOf (bytesPerChar : UInt32) : UInt32 :=
      if isMax then 65535 else ((firstNumber.map UInt8.toUInt32).getD 0) * bytesPerChar
    match String.ofList base with
    | "tinyint" => some .tinyint
    | "smallint" => some .smallint
    | "int" => some .integer
    | "bigint" => some .bigint
    | "bit" => some .bit
    | "real" => some .real
    | "float" => some .double
    | "uniqueidentifier" => some .uuid
    | "date" => some .date
    | "time" => some .time
    | "datetime2" => some .datetime2
    | "datetimeoffset" => some .datetimeoffset
    | "datetime" => some (.plain "datetime" .dateTime 8)
    | "smalldatetime" => some (.plain "smalldatetime" .dateTim4 4)
    | "money" => some (.plain "money" .money 8)
    | "smallmoney" => some (.plain "smallmoney" .money4 4)
    | "decimal" | "numeric" =>
      some ⟨base, TdsDataType.decimalN.code, 17, firstNumber, secondNumber⟩
    | "char" => some (.plain "char" .bigChar (lengthOf 1))
    | "varchar" => some (.plain "varchar" .bigVarChar (lengthOf 1))
    | "nchar" => some (.plain "nchar" .nChar (lengthOf 2))
    | "nvarchar" => some (.plain "nvarchar" .nVarChar (lengthOf 2))
    | "binary" => some (.plain "binary" .bigBinary (lengthOf 1))
    | "varbinary" => some (.plain "varbinary" .bigVarBinary (lengthOf 1))
    | "text" => some (.plain "text" .text 65535)
    | "ntext" => some (.plain "ntext" .nText 65535)
    | "image" => some (.plain "image" .image 65535)
    | "xml" => some (.plain "xml" .xml 65535)
    | "json" => some (.plain "json" .json 65535)
    | "geometry" => some .geometry
    | "geography" => some .geography
    | _ => none

end SqlxMssql
