import SqlxMssql.Types.MssqlValue
import SqlxMssql.Foundations.NumberTexts
import SqlxMssql.Foundations.Utf16

/-! # Decoding of numbers, texts and bytes

The accessors of a value and the decoders of the basic types over them. A value without a
number, text or bytes of its own is read through its textual form, when it has one.
-/
namespace SqlxMssql
open Utf8 BinaryFloats NumberTexts

/-- What the driver uses of the client's numbers. -/
structure TdsNumbers where
  /-- `parts.to_string()` -/
  displayDecimal : DecimalParts → Text
  /-- The bits of the `f64` that a `money` converts to. -/
  moneyToF64 : SqlMoney → Option UInt64

/-- The coefficient with its sign. -/
def DecimalParts.signed (parts : DecimalParts) : ℤ :=
  if parts.isPositive then parts.coefficient else -parts.coefficient

/-- Decimals in fixed-point notation, and a `money` as the number nearest to its ten-thousandths. -/
def TdsNumbers.fixedPoint : TdsNumbers where
  displayDecimal parts :=
    NumberTexts.fixedPoint (!parts.isPositive) parts.coefficient parts.scale.toNat
  moneyToF64 value :=
    let amount := value.msbPart.toInt * 4294967296 + value.lsbPart.toUInt32.toNat
    some (UInt64.ofNat (binary64.signed (amount < 0) (binary64.ratio amount.natAbs 10000)))

example : TdsNumbers.fixedPoint.displayDecimal ⟨false, 9, 2, 1250⟩ = "-12.50".toList := by decide

/-- UTF-16LE without panicking on malformed input. -/
def utf16leToString (bytes : List UInt8) : Text := Utf16.fromUtf16Lossy (Utf16.units bytes)

theorem utf16leToString_encodeLe (text : Text) : utf16leToString (Utf16.encodeLe text) = text := by
  rw [utf16leToString, Utf16.encodeLe, Utf16.units_flatMap, Utf16.fromUtf16Lossy_encode]

/-- The textual form of a value, when it has one worth caching. -/
def textualForm (tds : TdsNumbers) : ColumnValues → Option Text
  | .string value => some value
  | .xml bytes => some (utf16leToString bytes)
  | .json bytes => some (Utf8Bytes.fromUtf8Lossy bytes)
  | .decimal parts | .numeric parts => some (tds.displayDecimal parts)
  | _ => none

def MssqlValue.asRef (tds : TdsNumbers) (self : MssqlValue) : MssqlValueRef :=
  ⟨self, textualForm tds self.raw⟩

/-- `value as i64` of an integral number, which saturates. -/
def saturateI64 (n : ℤ) : ℤ := max (-9223372036854775808) (min n 9223372036854775807)

def parseIntegerText (text : Text) : Option ℤ :=
  (parseSigned 64 (trim text)).or <|
    -- a decimal read as an integer is only valid when it has no fraction
    (parseFloat binary64 (trim text)).bind fun value => (binary64.toInt? value).map saturateI64

def parseBoolText (text : Text) : Option Bool :=
  match String.ofList (toAsciiLowercase (trim text)) with
  | "1" | "true" => some true
  | "0" | "false" => some false
  | _ => none

namespace MssqlValueRef
variable (self : MssqlValueRef)

def asI64 : Option ℤ :=
  match self.raw with
  | .tinyInt value => some value.toNat
  | .smallInt value => some value.toInt
  | .int value => some value.toInt
  | .bigInt value => some value.toInt
  | .bit value => some (if value then 1 else 0)
  | _ => self.text.bind parseIntegerText

/-- The bits of an `f64`. -/
def asF64 (tds : TdsNumbers) : Option UInt64 :=
  match self.raw with
  | .real bits => some (UInt64.ofNat (binary32.convert binary64 bits.toNat))
  | .float bits => some bits
  | .tinyInt value => some (UInt64.ofNat (binary64.ofInt value.toNat))
  | .smallInt value => some (UInt64.ofNat (binary64.ofInt value.toInt))
  | .int value => some (UInt64.ofNat (binary64.ofInt value.toInt))
  | .bigInt value => some (UInt64.ofNat (binary64.ofInt value.toInt))
  | .money value => tds.moneyToF64 value
  | .smallMoney value =>
    let amount := value.intVal.toInt
    some (UInt64.ofNat (binary64.signed (amount < 0) (binary64.ratio amount.natAbs 10000)))
  | _ => self.text.bind fun text => (parseFloat binary64 (trim text)).map UInt64.ofNat

/-- The borrowed text: a `uniqueidentifier` has none. -/
def asStr : Option Text := self.text

def asBool : Option Bool :=
  match self.raw with
  | .bit value => some value
  | .tinyInt value => some (value ≠ 0)
  | .smallInt value => some (value ≠ 0)
  | .int value => some (value ≠ 0)
  | .bigInt value => some (value ≠ 0)
  | .real bits => some (!binary32.isZero bits.toNat)
  | .float bits => some (!binary64.isZero bits.toNat)
  | _ => self.text.bind parseBoolText

end MssqlValueRef

def decodeError (value : MssqlValueRef) (target : String) (reason : Text) : Text :=
  "cannot decode MSSQL ".toList ++ value.typeInfo.typeName ++ " value into ".toList ++ target.toList ++
    ": ".toList ++ reason

section Decode
variable (value : MssqlValueRef)

/-- `impl_decode_integer!` for a type with the given range. -/
def decodeInteger (target : String) (low high : ℤ) : Except Text ℤ :=
  match value.asI64 with
  | none => .error (decodeError value target "source value is not an integer".toList)
  | some integer =>
    if low ≤ integer ∧ integer ≤ high then .ok integer
    else .error (decodeError value target
      ("integer value ".toList ++ decimalInt integer ++ " is outside the target range".toList))

def decodeI8 : Except Text ℤ := decodeInteger value "i8" (-128) 127
def decodeI16 : Except Text ℤ := decodeInteger value "i16" (-32768) 32767
def decodeI32 : Except Text ℤ := decodeInteger value "i32" (-2147483648) 2147483647
def decodeI64 : Except Text ℤ := decodeInteger value "i64" (-9223372036854775808) 9223372036854775807
def decodeU8 : Except Text ℤ := decodeInteger value "u8" 0 255
def decodeU16 : Except Text ℤ := decodeInteger value "u16" 0 65535
def decodeU32 : Except Text ℤ := decodeInteger value "u32" 0 4294967295
def decodeU64 : Except Text ℤ := decodeInteger value "u64" 0 18446744073709551615

def decodeBool : Except Text Bool :=
  match value.asBool with
  | some value => .ok value
  | none => .error (decodeError value "bool" "source value is not boolean-compatible".toList)

/-- `value as f32` -/
def decodeF32 (tds : TdsNumbers) : Except Text UInt32 :=
  match value.asF64 tds with
  | some bits => .ok (UInt32.ofNat (binary64.convert binary32 bits.toNat))
  | none => .error (decodeError value "f32" "source value is not numeric".toList)

def decodeF64 (tds : TdsNumbers) : Except Text UInt64 :=
  match value.asF64 tds with
  | some bits => .ok bits
  | none => .error (decodeError value "f64" "source value is not numeric".toList)

def decodeString : Except Text Text :=
  match value.asStr with
  | some text => .ok text
  | none =>
    match value.asBytes with
    | some bytes => .ok (Utf8Bytes.fromUtf8Lossy bytes)
    | none => .error (decodeError value "String" "source value is not text-compatible".toList)

def decodeBytes : Except Text (List UInt8) :=
  match value.asBytes with
  | some bytes => .ok bytes
  | none => .error (decodeError value "Vec<u8>" "source value is not bytes".toList)

end Decode

end SqlxMssql
