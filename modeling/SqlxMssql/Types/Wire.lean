import SqlxMssql.Types.TypeInfo
import SqlxMssql.Foundations.BinaryFloats
import SqlxMssql.Foundations.Utf16

/-! # What a column holds

The protocol fixes the values that a column of each wire type carries. The nullable types
carry one width each, which their length tells.
-/
namespace SqlxMssql
open Utf8 BinaryFloats

def IsNaN32 (bits : UInt32) : Prop := binary32.infinity < bits.toNat % binary32.signBit

instance (bits : UInt32) : Decidable (IsNaN32 bits) := inferInstanceAs (Decidable (_ < _))

namespace MssqlTypeInfo
variable (ty : MssqlTypeInfo)

/-- The wire type, or the nullable one of the given length. -/
def Is (dataType nullable : TdsDataType) (length : UInt32) : Prop :=
  ty.dataType = some dataType ∨ ty.dataType = some nullable ∧ ty.length = length

instance (dataType nullable : TdsDataType) (length : UInt32) : Decidable (ty.Is dataType nullable length) :=
  inferInstanceAs (Decidable (_ ∨ _))

def HoldsCharacters : Prop :=
  ty.dataType ∈ [some .bigChar, some .bigVarChar, some .char, some .varChar, some .text, some .nChar,
    some .nVarChar, some .nText]

instance : Decidable ty.HoldsCharacters := inferInstanceAs (Decidable (_ ∈ _))

def HoldsBytes : Prop :=
  ty.dataType ∈ [some .bigBinary, some .bigVarBinary, some .binary, some .varBinary, some .image, some .udt,
    some .vector]

instance : Decidable ty.HoldsBytes := inferInstanceAs (Decidable (_ ∈ _))

/-- The values other than `NULL` of a column whose wire type is fixed. -/
def HoldsFixed : ColumnValues → Prop
  | .null => False
  | .tinyInt _ => ty.Is .int1 .intN 1
  | .smallInt _ => ty.Is .int2 .intN 2
  | .int _ => ty.Is .int4 .intN 4
  | .bigInt _ => ty.Is .int8 .intN 8
  | .bit _ => ty.Is .bit .bitN 1
  | .real bits => ty.Is .flt4 .fltN 4 ∧ ¬ IsNaN32 bits
  | .float _ => ty.Is .flt8 .fltN 8
  | .decimal _ => ty.dataType = some .decimal ∨ ty.dataType = some .decimalN
  | .numeric _ => ty.dataType = some .numeric ∨ ty.dataType = some .numericN
  | .money _ => ty.Is .money .moneyN 8
  | .smallMoney _ => ty.Is .money4 .moneyN 4
  | .string _ => ty.HoldsCharacters
  -- a document is well formed, in the encoding of its type
  | .xml bytes => ty.dataType = some .xml ∧ ∃ text, bytes = Utf16.encodeLe text
  | .json bytes => ty.dataType = some .json ∧ ∃ text, bytes = Utf8Bytes.encode text
  | .bytes _ => ty.HoldsBytes
  | .uuid _ => ty.dataType = some .guid
  | .date _ => ty.dataType = some .dateN
  | .time _ => ty.dataType = some .timeN
  | .dateTime _ => ty.Is .dateTime .dateTimeN 8
  | .smallDateTime _ => ty.Is .dateTim4 .dateTimeN 4
  | .dateTime2 _ => ty.dataType = some .dateTime2N
  -- an offset is at most 14 hours
  | .dateTimeOffset value =>
    ty.dataType = some .dateTimeOffsetN ∧ -840 ≤ value.offset.toInt ∧ value.offset.toInt ≤ 840

/-- The values that a `sql_variant` can wrap. -/
def HoldsVariant : ColumnValues → Prop
  | .null | .xml _ | .json _ => False
  | _ => ty.dataType = some .ssVariant

/-- A column of the type can hold the value, which is not `NULL`. -/
def Holds (value : ColumnValues) : Prop := ty.HoldsFixed value ∨ ty.HoldsVariant value

end MssqlTypeInfo

end SqlxMssql
