import SqlxMssql.Types.Decoding
import SqlxMssql.Types.Wire
import SqlxMssql.Foundations.LossyUtf8

/-! # The carriers of the `Any` driver

The type of a column picks one of the kinds of the `Any` driver, and its values are decoded
into the Rust type of that kind. A value survives when its carrier is that of no other value
of the column.
-/
namespace SqlxMssql
open Utf8 BinaryFloats NumberTexts

section Carriers
variable (tds : TdsNumbers) (ty : MssqlTypeInfo)

end Carriers

section Forms

/-- The form of the values that a column carries, as the index of its constructor. Only the
values of a `sql_variant` have several. -/
def TdsDataType.carriedForm (length : UInt32) : TdsDataType → ℕ
  | .int1 => 1
  | .int2 => 2
  | .int4 => 3
  | .int8 => 4
  | .intN => if length = 1 then 1 else if length = 2 then 2 else if length = 4 then 3 else 4
  | .bit | .bitN => 5
  | .flt4 => 6
  | .flt8 => 7
  | .fltN => if length = 4 then 6 else 7
  | .decimal | .decimalN => 8
  | .numeric | .numericN => 9
  | .money => 10
  | .money4 => 11
  | .moneyN => if length = 8 then 10 else 11
  | .bigChar | .bigVarChar | .char | .varChar | .text | .nChar | .nVarChar | .nText => 12
  | .xml => 13
  | .json => 14
  | .bigBinary | .bigVarBinary | .binary | .varBinary | .image | .udt | .vector => 15
  | .guid => 16
  | .dateN => 17
  | .timeN => 18
  | .dateTime => 19
  | .dateTim4 => 20
  | .dateTimeN => if length = 8 then 19 else 20
  | .dateTime2N => 21
  | .dateTimeOffsetN => 22
  | .none | .ssVariant => 0

variable {ty : MssqlTypeInfo} {value other : ColumnValues}

theorem exists_form_of_holdsFixed (h : ty.HoldsFixed value) :
    ∃ dataType, ty.dataType = some dataType ∧ dataType ≠ .ssVariant ∧
      dataType.carriedForm ty.length = value.ctorIdx := by
  cases value with
  | null => exact h.elim
  | tinyInt v | smallInt v | int v | bigInt v | bit v | float v | money v | smallMoney v | dateTime v
  | smallDateTime v =>
    rcases h with h | ⟨h, hlength⟩
    · exact ⟨_, h, by decide, rfl⟩
    · exact ⟨_, h, by decide, by rw [hlength]; rfl⟩
  | real v =>
    rcases h.1 with h | ⟨h, hlength⟩
    · exact ⟨_, h, by decide, rfl⟩
    · exact ⟨_, h, by decide, by rw [hlength]; rfl⟩
  | decimal v | numeric v => rcases h with h | h <;> exact ⟨_, h, by decide, rfl⟩
  | string v =>
    simp only [MssqlTypeInfo.HoldsFixed, MssqlTypeInfo.HoldsCharacters, List.mem_cons, List.not_mem_nil,
      or_false] at h
    rcases h with h | h | h | h | h | h | h | h <;> exact ⟨_, h, by decide, rfl⟩
  | bytes v =>
    simp only [MssqlTypeInfo.HoldsFixed, MssqlTypeInfo.HoldsBytes, List.mem_cons, List.not_mem_nil,
      or_false] at h
    rcases h with h | h | h | h | h | h | h <;> exact ⟨_, h, by decide, rfl⟩
  | xml v | json v | dateTimeOffset v => exact ⟨_, h.1, by decide, rfl⟩
  | uuid v | date v | time v | dateTime2 v => exact ⟨_, h, by decide, rfl⟩

theorem holdsFixed_of_holds (hty : ty.dataType ≠ some .ssVariant) (h : ty.Holds value) : ty.HoldsFixed value := by
  refine h.resolve_right fun hvariant => ?_
  cases value <;> first | exact hvariant | exact hty hvariant

end Forms

section Kinds
variable {tds : TdsNumbers} {ty : MssqlTypeInfo} {value : ColumnValues}

end Kinds

section Survivors
variable {tds : TdsNumbers} {ty : MssqlTypeInfo}

section Integers

end Integers

section Floats

/-- A `real` is exact as an `f64`, from which it is read back. -/
theorem real_of_f64 {bits : UInt32} (h : ¬ IsNaN32 bits) :
    UInt32.ofNat (binary64.convert binary32 (UInt64.ofNat (binary32.convert binary64 bits.toNat)).toNat) =
      bits := by
  have hbits : bits.toNat < 2 * binary32.signBit := bits.toNat_lt
  have hwide : binary32.convert binary64 bits.toNat < 18446744073709551616 := convert_lt binary32 binary64 _
  rw [UInt64.toNat_ofNat_of_lt' hwide, convert_convert binary32_widens hbits (Nat.not_lt.mp h), UInt32.ofNat_toNat]

end Floats

section Texts

end Texts

end Survivors

section Main
variable {tds : TdsNumbers} {ty : MssqlTypeInfo}

end Main

end SqlxMssql
