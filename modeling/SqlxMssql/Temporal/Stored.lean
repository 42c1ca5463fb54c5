import SqlxMssql.Types.Values
import SqlxMssql.Foundations.ProlepticCalendar

/-! # Dates and times of the server

What the three date libraries share: the epoch and the ticks of the wire format, and the
instant that a stored date and time denotes when it is read as UTC.
-/
namespace SqlxMssql
open Utf8 ProlepticCalendar

def daysFromYearOneToEpoch : ℤ := 719162

def nanosPerSecond : ℕ := 1000000000
def secondsPerMinute : ℕ := 60
def secondsPerHour : ℕ := 60 * secondsPerMinute

/-- The ticks that TDS stores, and their scale. The nanoseconds are a `u64`. -/
def nanosToTicks (nanoseconds : ℕ) : UInt64 × UInt8 := (UInt64.ofNat (nanoseconds / 100), 7)

/-- `ticks.saturating_mul(100)` -/
def ticksToNanos (ticks : UInt64) : ℕ := min (ticks.toNat * 100) 18446744073709551615

/-- What the driver uses of the client's values: their debug texts and the checked
constructor of a date. -/
structure TdsValues where
  debug : ColumnValues → Text
  createDate : UInt32 → Except Text SqlDate

/-- The client's values, with the bound that it sets on a date. -/
def TdsValues.checked : TdsValues where
  debug _ := "ColumnValues".toList
  createDate days :=
    if days ≤ 3652058 then .ok ⟨days⟩ else .error "Days value is out of range".toList

inductive IsNull where
  | yes
  | no
  deriving DecidableEq, Repr

/-- What `encode_by_ref` returns, and the argument buffer that it leaves. -/
abbrev Encoding := List SqlType → Except Text IsNull × List SqlType

/-- `buf.push(value)` and `Ok(IsNull::No)` -/
def Encoding.push (value : SqlType) : Encoding := fun buf => (.ok .no, buf ++ [value])

def Encoding.fail (message : Text) : Encoding := fun buf => (.error message, buf)

theorem Encoding.push_injective : Function.Injective Encoding.push := by
  intro a b h
  have hbuf := congrArg Prod.snd (congrFun h [])
  exact (List.cons.inj hbuf).1

/-- `ok_or_else` with a fixed message. -/
def okOrElse {α : Type} (message : String) : Option α → Except Text α
  | some a => .ok a
  | none => .error message.toList

@[simp] theorem okOrElse_eq_ok {α : Type} {message : String} {value : Option α} {a : α} :
    okOrElse message value = .ok a ↔ value = some a := by
  cases value <;> simp [okOrElse]

theorem exists_okOrElse_eq_ok {α : Type} {message : String} {value : Option α} :
    (∃ a, okOrElse message value = .ok a) ↔ value.isSome := by
  simp only [okOrElse_eq_ok, Option.isSome_iff_exists]

def cannotDecode {α : Type} (tds : TdsValues) (value : ColumnValues) (type : String) : Except Text α :=
  .error ("cannot decode ".toList ++ tds.debug value ++ (" into " ++ type).toList)

theorem cannotDecode_ne_ok {α : Type} (tds : TdsValues) (value : ColumnValues) (type : String) :
    ¬ ∃ a : α, cannotDecode tds value type = .ok a := by
  rintro ⟨a, h⟩
  cases h

/-- `n` in `width` digits and more. -/
def padded (width n : ℕ) : Text := List.replicate (width - (decimal n).length) '0' ++ decimal n

def isoDate (d : Civil) : Text :=
  (if d.year < 0 then ['-'] else if 9999 < d.year then ['+'] else []) ++
    padded 4 d.year.natAbs ++ '-' :: padded 2 d.month ++ '-' :: padded 2 d.day

def unixNanos (dayNumber : ℤ) (nanosOfDay : ℕ) : ℤ :=
  (dayNumber - daysFromYearOneToEpoch) * nanosPerDay + nanosOfDay

def SqlDateTime2.unixNanos (value : SqlDateTime2) : ℤ :=
  SqlxMssql.unixNanos value.days.toNat (value.time.timeNanoseconds.toNat * 100)

/-- A stored value of the server's range: up to 9999-12-31, and less than a day of ticks. -/
def SqlDateTime2.InRange (value : SqlDateTime2) : Prop :=
  value.days.toNat ≤ 3652058 ∧ value.time.timeNanoseconds.toNat < 864000000000

theorem ticksToNanos_of_lt {ticks : UInt64} (h : ticks.toNat < 864000000000) :
    ticksToNanos ticks = ticks.toNat * 100 := by
  unfold ticksToNanos
  omega

theorem mul_hundred_lt_of_lt {ticks : ℕ} (h : ticks < 864000000000) : ticks * 100 < 86400000000000 := by
  omega

theorem toU8_natCast {n : ℕ} (h : n < 256) : toU8 n = some (UInt8.ofNat n) := by
  unfold toU8
  rw [if_pos (by omega), Int.toNat_natCast]

theorem toU32_natCast {n : ℕ} (h : n < 4294967296) : toU32 n = some (UInt32.ofNat n) := by
  unfold toU32
  rw [if_pos (by omega), Int.toNat_natCast]

theorem toU32_eq_some {value : ℤ} {n : UInt32} : toU32 value = some n ↔ value = n.toNat := by
  constructor
  · intro h
    unfold toU32 at h
    split at h
    · rename_i hrange
      cases h
      rw [UInt32.toNat_ofNat', Nat.mod_eq_of_lt] <;> omega
    · cases h
  · rintro rfl
    rw [toU32_natCast n.toNat_lt, UInt32.ofNat_toNat]

theorem toU8_eq_some {value : ℤ} {n : UInt8} : toU8 value = some n ↔ value = n.toNat := by
  constructor
  · intro h
    unfold toU8 at h
    split at h
    · rename_i hrange
      cases h
      rw [UInt8.toNat_ofNat', Nat.mod_eq_of_lt] <;> omega
    · cases h
  · rintro rfl
    rw [toU8_natCast n.toNat_lt, UInt8.ofNat_toNat]

theorem toI8_eq_some {value n : ℤ} : toI8 value = some n ↔ value = n ∧ -128 ≤ n ∧ n < 128 := by
  unfold toI8
  split <;> simp <;> omega

theorem toI16_eq_some {value n : ℤ} : toI16 value = some n ↔ value = n ∧ -32768 ≤ n ∧ n < 32768 := by
  unfold toI16
  split <;> simp <;> omega

end SqlxMssql
