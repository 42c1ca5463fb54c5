import SqlxMssql.Types.TypeInfo
import SqlxMssql.Foundations.Utf8Bytes

/-! # Values of columns

A decoded cell with the type it was read as, and the reference to it that is decoded further.
-/
namespace SqlxMssql
open Utf8

/-- The cached textual form of the source is a function of the raw value. -/
structure MssqlValue where
  raw : ColumnValues
  typeInfo : MssqlTypeInfo
  deriving DecidableEq, Repr

def MssqlValue.fromColumnValue (value : ColumnValues) (column : ColumnMetadata) : MssqlValue :=
  ⟨value, .fromColumnMetadata column⟩

/-- A reference to a value, with its cached text. -/
structure MssqlValueRef extends MssqlValue where
  text : Option Text
  deriving DecidableEq, Repr

def MssqlValueRef.asBytes (self : MssqlValueRef) : Option (List UInt8) :=
  match self.raw with
  | .bytes value => some value
  | .uuid bytes => some bytes.toList
  | _ => self.text.map Utf8Bytes.encode

end SqlxMssql
