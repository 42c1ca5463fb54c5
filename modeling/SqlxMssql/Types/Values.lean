import SqlxMssql.Foundations.Utf8

/-! # The values of the TDS client

Cells of a result set and parameters of a request, as the client library hands them over
and takes them. A floating-point number is its bit pattern and a string its text.
-/
namespace SqlxMssql
open Utf8

structure SqlDate where
  days : UInt32
  deriving DecidableEq, Repr

/-- Ticks of 100 nanoseconds since midnight. -/
structure SqlTime where
  timeNanoseconds : UInt64
  scale : UInt8
  deriving DecidableEq, Repr

structure SqlDateTime2 where
  days : UInt32
  time : SqlTime
  deriving DecidableEq, Repr

structure SqlDateTimeOffset where
  datetime2 : SqlDateTime2
  /-- In minutes. -/
  offset : Int16
  deriving DecidableEq, Repr

/-- Days since 1900-01-01 and 1/300ths of a second since midnight. -/
structure SqlDateTime where
  days : Int32
  time : UInt32
  deriving DecidableEq, Repr

/-- Days since 1900-01-01 and minutes since midnight. -/
structure SqlSmallDateTime where
  days : UInt16
  time : UInt16
  deriving DecidableEq, Repr

structure DecimalParts where
  isPositive : Bool
  precision : UInt8
  scale : UInt8
  coefficient : ℕ
  deriving DecidableEq, Repr

structure SqlMoney where
  lsbPart : Int32
  msbPart : Int32
  deriving DecidableEq, Repr

structure SqlSmallMoney where
  intVal : Int32
  deriving DecidableEq, Repr

inductive ColumnValues where
  | null
  | tinyInt (value : UInt8)
  | smallInt (value : Int16)
  | int (value : Int32)
  | bigInt (value : Int64)
  | bit (value : Bool)
  | real (bits : UInt32)
  | float (bits : UInt64)
  | decimal (parts : DecimalParts)
  | numeric (parts : DecimalParts)
  | money (value : SqlMoney)
  | smallMoney (value : SqlSmallMoney)
  | string (value : Text)
  | xml (bytes : List UInt8)
  | json (bytes : List UInt8)
  | bytes (value : List UInt8)
  | uuid (bytes : Vector UInt8 16)
  | date (value : SqlDate)
  | time (value : SqlTime)
  | dateTime (value : SqlDateTime)
  | smallDateTime (value : SqlSmallDateTime)
  | dateTime2 (value : SqlDateTime2)
  | dateTimeOffset (value : SqlDateTimeOffset)
  deriving DecidableEq, Repr

/-- `u8::try_from(value).ok()` -/
def toU8 (value : ℤ) : Option UInt8 :=
  if 0 ≤ value ∧ value < 256 then some (UInt8.ofNat value.toNat) else none

/-- `u32::try_from(value).ok()` -/
def toU32 (value : ℤ) : Option UInt32 :=
  if 0 ≤ value ∧ value < 4294967296 then some (UInt32.ofNat value.toNat) else none

/-- `i8::try_from(value).ok()` -/
def toI8 (value : ℤ) : Option ℤ := if -128 ≤ value ∧ value < 128 then some value else none

/-- `i16::try_from(value).ok()` -/
def toI16 (value : ℤ) : Option ℤ := if -32768 ≤ value ∧ value < 32768 then some value else none

/-- A parameter; `none` is a `NULL` declared with the type. -/
inductive SqlType where
  | tinyInt (value : Option UInt8)
  | smallInt (value : Option Int16)
  | int (value : Option Int32)
  | bigInt (value : Option Int64)
  | bit (value : Option Bool)
  | real (bits : Option UInt32)
  | float (bits : Option UInt64)
  | decimal (parts : Option DecimalParts)
  | numeric (parts : Option DecimalParts)
  | money (value : Option SqlMoney)
  | smallMoney (value : Option SqlSmallMoney)
  | char (value : Option Text) (length : UInt16)
  | nChar (value : Option Text) (length : UInt16)
  | text (value : Option Text)
  | nText (value : Option Text)
  | varcharMax (value : Option Text)
  | nVarcharMax (value : Option Text)
  | varBinaryMax (value : Option (List UInt8))
  | xml (value : Option (List UInt8))
  | json (value : Option (List UInt8))
  | uuid (bytes : Option (Vector UInt8 16))
  | date (value : Option SqlDate)
  | time (value : Option SqlTime)
  | dateTime (value : Option SqlDateTime)
  | smallDateTime (value : Option SqlSmallDateTime)
  | dateTime2 (value : Option SqlDateTime2)
  | dateTimeOffset (value : Option SqlDateTimeOffset)
  deriving DecidableEq, Repr

end SqlxMssql
