import SqlxMssql.Types.Decoding
import SqlxMssql.Temporal.Claimed
import SqlxMssql.Spatial.AxisOrder

/-! # The Rust types of the driver

Every Rust type that the driver integrates, with its values and its `Type`, `Encode` and
`Decode`. The crates that the types come from are parameters.
-/
namespace SqlxMssql
open Loops Utf8

/-- A crate of decimal numbers, which are exchanged as texts. -/
structure DecimalCrate where
  Number : Type
  toString : Number → Text
  fromStr : Text → Except Text Number

/-- The documents of a type that `serde_json` reads and writes. -/
structure JsonCrate where
  Document : Type
  toString : Document → Except Text Text
  fromStr : Text → Except Text Document

structure WkbCrate where
  writeGeometry : Geometry → Except Text (List UInt8)
  readWkb : List UInt8 → Except Text Geometry

structure Crates where
  values : TdsValues
  numbers : TdsNumbers
  chrono : Chrono
  jiff : Jiff
  time : TimeCrate
  geo : GeoTypes
  wkb : WkbCrate
  bigDecimal : DecimalCrate
  rustDecimal : DecimalCrate
  json : JsonCrate
  /-- `to_string` of an `f64`. -/
  displayFloat : UInt64 → Text
  /-- The text of the error of `String::from_utf8`. -/
  utf8Error : List UInt8 → Text

inductive IntegerType where
  | i8
  | i16
  | i32
  | i64
  | u8
  | u16
  | u32
  | u64
  deriving DecidableEq, Repr

namespace IntegerType

def name : IntegerType → String
  | i8 => "i8"
  | i16 => "i16"
  | i32 => "i32"
  | i64 => "i64"
  | u8 => "u8"
  | u16 => "u16"
  | u32 => "u32"
  | u64 => "u64"

def low : IntegerType → ℤ
  | i8 => -128
  | i16 => -32768
  | i32 => -2147483648
  | i64 => -9223372036854775808
  | u8 | u16 | u32 | u64 => 0

def high : IntegerType → ℤ
  | i8 => 127
  | i16 => 32767
  | i32 => 2147483647
  | i64 => 9223372036854775807
  | u8 => 255
  | u16 => 65535
  | u32 => 4294967295
  | u64 => 18446744073709551615

/-- `integer_type_info_for` -/
def typeInfo : IntegerType → MssqlTypeInfo
  | i8 | u8 => .tinyint
  | i16 | u16 => .smallint
  | i32 | u32 => .integer
  | i64 | u64 => .bigint

abbrev Value (type : IntegerType) : Type := { n : ℤ // type.low ≤ n ∧ n ≤ type.high }

/-- `impl_encode_integer!` for all but `u64`, whose upper half no SQL integer can hold. -/
def encode (type : IntegerType) (n : ℤ) : Encoding :=
  if type = u64 ∧ 9223372036854775807 < n then
    .fail ("u64 value ".toList ++ decimalInt n ++ " exceeds BIGINT range (max 9223372036854775807) and cannot be ".toList ++
      "encoded for MSSQL; use NUMERIC/DECIMAL via rust_decimal for larger values".toList)
  else .push (.bigInt (some (Int64.ofInt n)))

/-- `decodeInteger`, whose result is a value of the type. -/
def decode (type : IntegerType) (value : MssqlValueRef) : Except Text type.Value :=
  match value.asI64 with
  | none => .error (decodeError value type.name "source value is not an integer".toList)
  | some integer =>
    if h : type.low ≤ integer ∧ integer ≤ type.high then .ok ⟨integer, h⟩
    else .error (decodeError value type.name
      ("integer value ".toList ++ decimalInt integer ++ " is outside the target range".toList))

theorem map_decode (type : IntegerType) (value : MssqlValueRef) :
    (type.decode value).map Subtype.val = decodeInteger value type.name type.low type.high := by
  unfold decode decodeInteger
  cases value.asI64 with
  | none => rfl
  | some integer =>
    by_cases h : type.low ≤ integer ∧ integer ≤ type.high
    · simp only [h, and_self, dite_true, if_true]
      rfl
    · simp only [dif_neg h, if_neg h]
      rfl

theorem decode_eq_ok {type : IntegerType} {value : MssqlValueRef} {n : ℤ} (h : value.asI64 = some n)
    (hrange : type.low ≤ n ∧ n ≤ type.high) : type.decode value = .ok ⟨n, hrange⟩ := by
  unfold decode
  rw [h]
  exact dif_pos hrange

end IntegerType

section Decoders
variable (crates : Crates)

def encodeDecimal (crate : DecimalCrate) (number : crate.Number) : Encoding :=
  .push (.nVarcharMax (some (crate.toString number)))

/-- Exact numerics have a text; integers and floats are rendered first. -/
def decodeDecimal (crate : DecimalCrate) (target : String) (value : MssqlValueRef) : Except Text crate.Number := do
  let text ←
    match value.asStr with
    | some text => pure text
    | none =>
      match value.asI64, value.asF64 crates.numbers with
      | some integer, _ => pure (decimalInt integer)
      | none, some float => pure (crates.displayFloat float)
      | none, none => .error ("cannot decode value into " ++ target).toList
  crate.fromStr (trim text)

def encodeJson (document : crates.json.Document) : Encoding := fun buf =>
  match crates.json.toString document with
  | .ok json => Encoding.push (.nVarcharMax (some json)) buf
  | .error message => Encoding.fail message buf

/-- A `varbinary` column that holds JSON comes back as bytes. -/
def decodeJson (value : MssqlValueRef) : Except Text crates.json.Document := do
  let text ←
    match value.asStr with
    | some text => pure text
    | none =>
      match value.asBytes with
      | some bytes =>
        match Utf8Bytes.fromUtf8 bytes with
        | some text => pure text
        | none => .error (crates.utf8Error bytes)
      | none => .error "cannot decode value into JSON".toList
  crates.json.fromStr text

def encodeUuid (uuid : Vector UInt8 16) : Encoding := .push (.uuid (some uuid))

def decodeUuid (value : MssqlValueRef) : Except Text (Vector UInt8 16) :=
  match value.raw with
  | .uuid uuid => .ok uuid
  | other => .error ("cannot decode MSSQL ".toList ++ crates.values.debug other ++ " value into uuid::Uuid".toList)

/-- WKB in a `varbinary` column. -/
def encodeWkb (geometry : Geometry) : Encoding := fun buf =>
  match crates.wkb.writeGeometry geometry with
  | .ok bytes => Encoding.push (.varBinaryMax (some bytes)) buf
  | .error message => Encoding.fail message buf

def decodeWkb (value : MssqlValueRef) : Except Text Geometry :=
  if value.typeInfo.dataType = some .udt then
    .error ("SQL Server geometry/geography values are not WKB; use MssqlGeometry/MssqlGeography, or select " ++
      "STAsBinary() into a varbinary column").toList
  else
    match value.asBytes with
    | some bytes => crates.wkb.readWkb bytes
    | none => .error "cannot decode value into a geometry: expected binary".toList

end Decoders

namespace TemporalType
variable (crates : Crates)

def typeInfo : TemporalType → MssqlTypeInfo
  | chronoNaiveDate | jiffDate | timeDate => .date
  | chronoNaiveTime | jiffTime | timeTime => .time
  | chronoNaiveDateTime | jiffDateTime | timePrimitiveDateTime => .datetime2
  | chronoDateTimeUtc | jiffTimestamp | timeOffsetDateTime => .datetimeoffset

def Value : TemporalType → Type
  | chronoNaiveDate => crates.chrono.NaiveDate
  | chronoNaiveTime => crates.chrono.NaiveTime
  | chronoNaiveDateTime => crates.chrono.NaiveDateTime
  | chronoDateTimeUtc => crates.chrono.DateTimeUtc
  | jiffDate => crates.jiff.Date
  | jiffTime => crates.jiff.Time
  | jiffDateTime => crates.jiff.DateTime
  | jiffTimestamp => crates.jiff.Timestamp
  | timeDate => crates.time.Date
  | timeTime => crates.time.Time
  | timePrimitiveDateTime => crates.time.PrimitiveDateTime
  | timeOffsetDateTime => crates.time.OffsetDateTime

def encode : (type : TemporalType) → type.Value crates → Run Encoding
  | chronoNaiveDate, date => .ok (crates.chrono.encodeNaiveDate crates.values date)
  | chronoNaiveTime, time => .ok (crates.chrono.encodeNaiveTime time)
  | chronoNaiveDateTime, value => .ok (crates.chrono.encodeNaiveDateTime value)
  | chronoDateTimeUtc, value => .ok (crates.chrono.encodeDateTimeUtc value)
  | jiffDate, date => .ok (crates.jiff.encodeDate crates.values date)
  | jiffTime, time => .ok (crates.jiff.encodeTime time)
  | jiffDateTime, value => .ok (crates.jiff.encodeDateTime value)
  | jiffTimestamp, timestamp => .ok (crates.jiff.encodeTimestamp timestamp)
  | timeDate, date => .ok (crates.time.encodeDate crates.values date)
  | timeTime, time => .ok (crates.time.encodeTime time)
  | timePrimitiveDateTime, value => .ok (crates.time.encodePrimitiveDateTime value)
  | timeOffsetDateTime, value => crates.time.encodeOffsetDateTime value

def decode (value : ColumnValues) : (type : TemporalType) → Except Text (type.Value crates)
  | chronoNaiveDate => Chrono.decodeNaiveDate crates.values value
  | chronoNaiveTime => Chrono.decodeNaiveTime crates.values value
  | chronoNaiveDateTime => Chrono.decodeNaiveDateTime crates.values value
  | chronoDateTimeUtc => Chrono.decodeDateTimeUtc crates.values value
  | jiffDate => Jiff.decodeDate crates.values value
  | jiffTime => Jiff.decodeTime crates.values value
  | jiffDateTime => Jiff.decodeDateTime crates.values value
  | jiffTimestamp => Jiff.decodeTimestamp crates.values value
  | timeDate => TimeCrate.decodeDate crates.values value
  | timeTime => TimeCrate.decodeTime crates.values value
  | timePrimitiveDateTime => TimeCrate.decodePrimitiveDateTime crates.values value
  | timeOffsetDateTime => TimeCrate.decodeOffsetDateTime crates.values value

theorem exists_decode_iff (value : ColumnValues) (type : TemporalType) :
    (∃ v, type.decode crates value = .ok v) ↔ type.Decodes crates.values crates.chrono crates.jiff crates.time value := by
  cases type <;> exact Iff.rfl

end TemporalType

inductive RustType where
  | bool
  | integer (type : IntegerType)
  | f32
  | f64
  | string
  | bytes
  | mssqlGeometry
  | mssqlGeography
  | geometry
  | uuid
  | bigDecimal
  | rustDecimal
  | json
  | temporal (type : TemporalType)
  deriving DecidableEq, Repr

namespace RustType
variable (crates : Crates)

/-- A floating-point number is its bit pattern. -/
def Value : RustType → Type
  | bool => Bool
  | integer type => type.Value
  | f32 => UInt32
  | f64 => UInt64
  | string => Text
  | bytes => List UInt8
  | mssqlGeometry => MssqlGeometry
  | mssqlGeography => MssqlGeography
  | geometry => Geometry
  | uuid => Vector UInt8 16
  | bigDecimal => crates.bigDecimal.Number
  | rustDecimal => crates.rustDecimal.Number
  | json => crates.json.Document
  | temporal type => type.Value crates

/-- `Type::type_info` -/
def typeInfo : RustType → MssqlTypeInfo
  | bool => .bit
  | integer type => type.typeInfo
  | f32 => .real
  | f64 => .double
  | string => .nvarcharMax
  | bytes | geometry => .varbinaryMax
  | mssqlGeometry => .geometry
  | mssqlGeography => .geography
  | uuid => .uuid
  | bigDecimal | rustDecimal => .decimal
  | json => .json
  | temporal type => type.typeInfo

/-- `Type::compatible` -/
def compatible (ty : MssqlTypeInfo) : RustType → Bool
  | bool => ty.acceptsBooleanData
  | integer _ | f32 | f64 => ty.acceptsNumericData
  | string => ty.acceptsCharacterData
  | bytes | geometry => ty.acceptsBinaryData
  | mssqlGeometry => ty.isGeometry
  | mssqlGeography => ty.isGeography
  | uuid => ty.dataType = some .guid
  | bigDecimal | rustDecimal => ty.acceptsNumericData || ty.acceptsCharacterData
  | json => ty.acceptsCharacterData || ty.acceptsBinaryData
  | temporal type => type.compatible ty

/-- `Encode::encode_by_ref` -/
def encode : (type : RustType) → type.Value crates → Run Encoding
  | bool, value => .ok (.push (.bit (some value)))
  | integer type, value => .ok (type.encode value.val)
  | f32, bits => .ok (.push (.real (some bits)))
  | f64, bits => .ok (.push (.float (some bits)))
  | string, text => .ok (.push (.nVarcharMax (some text)))
  | bytes, value => .ok (.push (.varBinaryMax (some value)))
  | mssqlGeometry, value => .ok (MssqlGeometry.encodeByRef crates.geo value)
  | mssqlGeography, value => .ok (MssqlGeography.encodeByRef crates.geo value)
  | geometry, value => .ok (encodeWkb crates value)
  | uuid, value => .ok (encodeUuid value)
  | bigDecimal, number => .ok (encodeDecimal crates.bigDecimal number)
  | rustDecimal, number => .ok (encodeDecimal crates.rustDecimal number)
  | json, document => .ok (encodeJson crates document)
  | temporal type, value => type.encode crates value

/-- `Decode::decode` -/
def decode (value : MssqlValueRef) : (type : RustType) → Decoded (type.Value crates)
  | bool => (decodeBool value).mapError .error
  | integer type => (type.decode value).mapError .error
  | f32 => (decodeF32 value crates.numbers).mapError .error
  | f64 => (decodeF64 value crates.numbers).mapError .error
  | string => (decodeString value).mapError .error
  | bytes => (decodeBytes value).mapError .error
  | mssqlGeometry => MssqlGeometry.decode crates.geo value
  | mssqlGeography => MssqlGeography.decode crates.geo value
  | geometry => (decodeWkb crates value).mapError .error
  | uuid => (decodeUuid crates value).mapError .error
  | bigDecimal => (decodeDecimal crates crates.bigDecimal "BigDecimal" value).mapError .error
  | rustDecimal => (decodeDecimal crates crates.rustDecimal "Decimal" value).mapError .error
  | json => (decodeJson crates value).mapError .error
  | temporal type => (type.decode crates value.raw).mapError .error

end RustType

section Examples

/-- Numbers of a coefficient and a scale, in their plain notation. -/
def DecimalCrate.plain : DecimalCrate where
  Number := ℤ × ℕ
  toString number := NumberTexts.fixedPoint (number.1 < 0) number.1.natAbs number.2
  fromStr text :=
    let number := NumberTexts.readFixedPoint text
    if NumberTexts.fixedPoint (number.1 < 0) number.1.natAbs number.2 = text then .ok number
    else .error "invalid decimal".toList

/-- The documents `true` and `false`. -/
def JsonCrate.booleans : JsonCrate where
  Document := Bool
  toString document := .ok (if document then "true" else "false").toList
  fromStr text :=
    if text = "true".toList then .ok true
    else if text = "false".toList then .ok false
    else .error "invalid type".toList

/-- The points of well-known binary, in little-endian byte order. -/
def WkbCrate.points : WkbCrate where
  writeGeometry
    | .point c => .ok ([1, 1, 0, 0, 0] ++ ByteFormats.leBytes 8 c.x.toNat ++ ByteFormats.leBytes 8 c.y.toNat)
    | _ => .error "not a point".toList
  readWkb bytes :=
    if bytes.take 5 = [1, 1, 0, 0, 0] ∧ bytes.length = 21 then
      .ok (.point ⟨UInt64.ofNat (ByteFormats.ofLeBytes ((bytes.drop 5).take 8)),
        UInt64.ofNat (ByteFormats.ofLeBytes (bytes.drop 13))⟩)
    else .error "not a point".toList

def Crates.calendar : Crates where
  values := .checked
  numbers := .fixedPoint
  chrono := .calendar
  jiff := .calendar
  time := .calendar
  geo := closingGeoTypes
  wkb := .points
  bigDecimal := .plain
  rustDecimal := .plain
  json := .booleans
  displayFloat bits := decimal bits.toNat
  utf8Error _ := "invalid utf-8 sequence".toList

end Examples

end SqlxMssql
