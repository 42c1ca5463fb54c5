import SqlxMssql.Temporal.Stored

/-! # The `chrono` integration

The crate is a parameter: its types, the operations that the driver calls on them, and what
their documentation promises.
-/
namespace SqlxMssql
open Utf8 ProlepticCalendar

structure Chrono where
  NaiveDate : Type
  NaiveTime : Type
  /-- `year()`, `month()` and `day()` -/
  civil : NaiveDate → Civil
  fromYmdOpt : ℤ → ℕ → ℕ → Option NaiveDate
  checkedAddDays : NaiveDate → ℕ → Option NaiveDate
  checkedSubDays : NaiveDate → ℕ → Option NaiveDate
  /-- `signed_duration_since(_).num_days()` -/
  daysSince : NaiveDate → NaiveDate → ℤ
  /-- `NaiveTime::MIN` -/
  midnight : NaiveTime
  fromNumSecondsFromMidnightOpt : ℕ → ℕ → Option NaiveTime
  numSecondsFromMidnight : NaiveTime → ℕ
  /-- A leap second has a nanosecond of 1,000,000,000 and more. -/
  nanosecond : NaiveTime → ℕ
  displayDate : NaiveDate → Text
  displayDateTime : NaiveDate → NaiveTime → Text
  displayUtc : NaiveDate → NaiveTime → Text

namespace Chrono

structure NaiveDateTime (chrono : Chrono) where
  date : chrono.NaiveDate
  time : chrono.NaiveTime

/-- `DateTime<Utc>`, built from and read as its UTC date and time. -/
structure DateTimeUtc (chrono : Chrono) where
  naiveUtc : chrono.NaiveDateTime

/-- The date arithmetic of the crate is that of the calendar. -/
structure Gregorian (chrono : Chrono) : Prop where
  exists_date (d : Civil) : 1 ≤ d.year → d.year ≤ 9999 → ∃ date, chrono.civil date = d
  fromYmdOpt_iff (y : ℤ) (m d : ℕ) (date : chrono.NaiveDate) : chrono.fromYmdOpt y m d = some date ↔
    (chrono.civil date).year = y ∧ (chrono.civil date).month = m ∧ (chrono.civil date).day = d
  checkedAddDays_iff (date later : chrono.NaiveDate) (n : ℕ) : chrono.checkedAddDays date n = some later ↔
    (chrono.civil later).dayNumber = (chrono.civil date).dayNumber + n
  checkedSubDays_iff (date earlier : chrono.NaiveDate) (n : ℕ) :
    chrono.checkedSubDays date n = some earlier ↔
      (chrono.civil earlier).dayNumber = (chrono.civil date).dayNumber - n
  daysSince_eq (date other : chrono.NaiveDate) :
    chrono.daysSince date other = (chrono.civil date).dayNumber - (chrono.civil other).dayNumber

/-- A time is the seconds since midnight and a nanosecond within them. -/
structure Clock (chrono : Chrono) : Prop where
  seconds_lt (t : chrono.NaiveTime) : chrono.numSecondsFromMidnight t < 86400
  nanosecond_lt (t : chrono.NaiveTime) : chrono.nanosecond t < 2000000000
  time_ext (t u : chrono.NaiveTime) : chrono.numSecondsFromMidnight t = chrono.numSecondsFromMidnight u →
    chrono.nanosecond t = chrono.nanosecond u → t = u
  fromNumSeconds_some (s n : ℕ) (t : chrono.NaiveTime) :
    chrono.fromNumSecondsFromMidnightOpt s n = some t →
      chrono.numSecondsFromMidnight t = s ∧ chrono.nanosecond t = n
  fromNumSeconds_isSome (s n : ℕ) : s < 86400 → n < 1000000000 →
    (chrono.fromNumSecondsFromMidnightOpt s n).isSome

section Functions
variable (chrono : Chrono)

def epoch : Option chrono.NaiveDate := chrono.fromYmdOpt 1970 1 1

def dateFromDays (days : UInt32) : Option chrono.NaiveDate := do
  let unixDays := (days.toNat : ℤ) - daysFromYearOneToEpoch
  let epoch ← chrono.epoch
  -- `u64::try_from`
  chrono.checkedAddDays epoch (← unixDays.toNat?)

def daysFromDate (date : chrono.NaiveDate) : Option UInt32 := do
  let epoch ← chrono.epoch
  let unixDays := chrono.daysSince date epoch
  toU32 (unixDays + daysFromYearOneToEpoch)

def timeFromNanos (nanoseconds : ℕ) : Option chrono.NaiveTime := do
  let seconds ← toU32 (nanoseconds / nanosPerSecond : ℕ)
  let subsecond ← toU32 (nanoseconds % nanosPerSecond : ℕ)
  chrono.fromNumSecondsFromMidnightOpt seconds.toNat subsecond.toNat

def nanosFromTime (time : chrono.NaiveTime) : ℕ :=
  chrono.numSecondsFromMidnight time * nanosPerSecond + chrono.nanosecond time

def sqlTimeFromTime (time : chrono.NaiveTime) : SqlTime :=
  let (timeNanoseconds, scale) := nanosToTicks (chrono.nanosFromTime time)
  ⟨timeNanoseconds, scale⟩

def datetimeFromSqlDateTime (value : SqlDateTime) : Option chrono.NaiveDateTime := do
  let epoch ← chrono.fromYmdOpt 1900 1 1
  let date ←
    if 0 ≤ value.days.toInt then chrono.checkedAddDays epoch (← value.days.toInt.toNat?)
    else chrono.checkedSubDays epoch (← (-value.days).toInt.toNat?)
  -- `datetime` counts 1/300ths of a second since midnight
  let nanoseconds := value.time.toNat * nanosPerSecond / 300
  return ⟨date, ← chrono.timeFromNanos nanoseconds⟩

def datetimeFromSmallDateTime (value : SqlSmallDateTime) : Option chrono.NaiveDateTime := do
  let epoch ← chrono.fromYmdOpt 1900 1 1
  let date ← chrono.checkedAddDays epoch value.days.toNat
  let time ← chrono.fromNumSecondsFromMidnightOpt (value.time.toNat * 60) 0
  return ⟨date, time⟩

def naiveFromDatetime2 (value : SqlDateTime2) : Option chrono.NaiveDateTime := do
  return ⟨← chrono.dateFromDays value.days,
    ← chrono.timeFromNanos (ticksToNanos value.time.timeNanoseconds)⟩

def datetime2FromNaive (value : chrono.NaiveDateTime) : Option SqlDateTime2 := do
  return ⟨← chrono.daysFromDate value.date, chrono.sqlTimeFromTime value.time⟩

end Functions

section Codecs
variable {chrono : Chrono} (tds : TdsValues)

def encodeNaiveDate (date : chrono.NaiveDate) : Encoding :=
  match chrono.daysFromDate date with
  | none => .fail ("date ".toList ++ chrono.displayDate date ++
      " is outside the range SQL Server DATE accepts".toList)
  | some days =>
    match tds.createDate days with
    | .error e => .fail e
    | .ok value => .push (.date (some value))

def decodeNaiveDate : ColumnValues → Except Text chrono.NaiveDate
  | .date date => okOrElse "DATE value is out of range for chrono" (chrono.dateFromDays date.days)
  | .dateTime datetime =>
    okOrElse "DATETIME value is out of range for chrono"
      ((chrono.datetimeFromSqlDateTime datetime).map (·.date))
  | .smallDateTime datetime =>
    okOrElse "SMALLDATETIME value is out of range for chrono"
      ((chrono.datetimeFromSmallDateTime datetime).map (·.date))
  | .dateTime2 datetime =>
    okOrElse "DATETIME2 value is out of range for chrono"
      ((chrono.naiveFromDatetime2 datetime).map (·.date))
  | .dateTimeOffset datetime =>
    okOrElse "DATETIMEOFFSET value is out of range for chrono"
      ((chrono.naiveFromDatetime2 datetime.datetime2).map (·.date))
  | other => cannotDecode tds other "NaiveDate"

def encodeNaiveTime (time : chrono.NaiveTime) : Encoding :=
  .push (.time (some (chrono.sqlTimeFromTime time)))

def decodeNaiveTime : ColumnValues → Except Text chrono.NaiveTime
  | .time time =>
    okOrElse "TIME value is out of range for chrono"
      (chrono.timeFromNanos (ticksToNanos time.timeNanoseconds))
  | .dateTime datetime =>
    okOrElse "DATETIME value is out of range for chrono"
      ((chrono.datetimeFromSqlDateTime datetime).map (·.time))
  | .smallDateTime datetime =>
    okOrElse "SMALLDATETIME value is out of range for chrono"
      ((chrono.datetimeFromSmallDateTime datetime).map (·.time))
  | .dateTime2 datetime =>
    okOrElse "DATETIME2 value is out of range for chrono"
      ((chrono.naiveFromDatetime2 datetime).map (·.time))
  | .dateTimeOffset datetime =>
    okOrElse "DATETIMEOFFSET value is out of range for chrono"
      ((chrono.naiveFromDatetime2 datetime.datetime2).map (·.time))
  | other => cannotDecode tds other "NaiveTime"

def encodeNaiveDateTime (value : chrono.NaiveDateTime) : Encoding :=
  match chrono.datetime2FromNaive value with
  | none => .fail (chrono.displayDateTime value.date value.time ++
      " is outside the range SQL Server DATETIME2 accepts".toList)
  | some value => .push (.dateTime2 (some value))

def decodeNaiveDateTime : ColumnValues → Except Text chrono.NaiveDateTime
  | .dateTime2 datetime =>
    okOrElse "DATETIME2 value is out of range for chrono" (chrono.naiveFromDatetime2 datetime)
  | .dateTimeOffset datetime =>
    okOrElse "DATETIMEOFFSET value is out of range for chrono"
      (chrono.naiveFromDatetime2 datetime.datetime2)
  | .dateTime datetime =>
    okOrElse "DATETIME value is out of range for chrono" (chrono.datetimeFromSqlDateTime datetime)
  | .smallDateTime datetime =>
    okOrElse "SMALLDATETIME value is out of range for chrono"
      (chrono.datetimeFromSmallDateTime datetime)
  | .date date =>
    okOrElse "DATE value is out of range for chrono"
      ((chrono.dateFromDays date.days).map (⟨·, chrono.midnight⟩))
  | other => cannotDecode tds other "NaiveDateTime"

def encodeDateTimeUtc (value : chrono.DateTimeUtc) : Encoding :=
  match chrono.datetime2FromNaive value.naiveUtc with
  | none => .fail (chrono.displayUtc value.naiveUtc.date value.naiveUtc.time ++
      " is outside the range SQL Server DATETIMEOFFSET accepts".toList)
  | some datetime2 => .push (.dateTimeOffset (some ⟨datetime2, 0⟩))

def decodeDateTimeUtc : ColumnValues → Except Text chrono.DateTimeUtc
  -- the time part is already UTC, so the offset is not applied
  | .dateTimeOffset datetime =>
    okOrElse "DATETIMEOFFSET value is out of range for chrono"
      ((chrono.naiveFromDatetime2 datetime.datetime2).map (⟨·⟩))
  | .dateTime2 datetime =>
    okOrElse "DATETIME2 value is out of range for chrono"
      ((chrono.naiveFromDatetime2 datetime).map (⟨·⟩))
  | .dateTime datetime =>
    okOrElse "DATETIME value is out of range for chrono"
      ((chrono.datetimeFromSqlDateTime datetime).map (⟨·⟩))
  | .smallDateTime datetime =>
    okOrElse "SMALLDATETIME value is out of range for chrono"
      ((chrono.datetimeFromSmallDateTime datetime).map (⟨·⟩))
  | other => cannotDecode tds other "DateTime<Utc>"

end Codecs

section Calendar

def isoTime (seconds nanosecond : ℕ) : Text :=
  padded 2 (seconds / 3600) ++ ':' :: padded 2 (seconds / 60 % 60) ++
    ':' :: padded 2 (seconds % 60 + nanosecond / 1000000000) ++
    (if nanosecond % 1000000000 = 0 then [] else '.' :: padded 9 (nanosecond % 1000000000))

/-- The crate, on the calendar itself. -/
def calendar : Chrono where
  NaiveDate := CivilIn (-262143) 262142
  NaiveTime := {t : ℕ × ℕ // t.1 < 86400 ∧ t.2 < 2000000000 ∧ (t.2 < 1000000000 ∨ t.1 % 60 = 59)}
  civil := Subtype.val
  fromYmdOpt y m d := CivilIn.ofParts y m d
  checkedAddDays date n := CivilIn.addDays date n
  checkedSubDays date n := CivilIn.addDays date (-n)
  daysSince date other := date.val.dayNumber - other.val.dayNumber
  midnight := ⟨(0, 0), by decide⟩
  fromNumSecondsFromMidnightOpt s n :=
    if h : s < 86400 ∧ n < 2000000000 ∧ (n < 1000000000 ∨ s % 60 = 59) then some ⟨(s, n), h⟩ else none
  numSecondsFromMidnight t := t.val.1
  nanosecond t := t.val.2
  displayDate date := isoDate date.val
  displayDateTime date time := isoDate date.val ++ ' ' :: isoTime time.val.1 time.val.2
  displayUtc date time := isoDate date.val ++ ' ' :: isoTime time.val.1 time.val.2 ++ " UTC".toList

theorem calendar_gregorian : calendar.Gregorian where
  exists_date d hfrom hto := ⟨⟨d, by omega, by omega⟩, rfl⟩
  fromYmdOpt_iff y m d date := by
    refine CivilIn.ofParts_eq_some.trans ?_
    rw [Int.natCast_inj, Int.natCast_inj]
    exact Iff.rfl
  checkedAddDays_iff _ _ _ := CivilIn.addDays_eq_some
  checkedSubDays_iff _ _ _ := CivilIn.addDays_eq_some
  daysSince_eq _ _ := rfl

theorem calendar_clock : calendar.Clock where
  seconds_lt t := t.property.1
  nanosecond_lt t := t.property.2.1
  time_ext t u hs hn := Subtype.ext (Prod.ext hs hn)
  fromNumSeconds_some s n t h := by
    simp only [calendar] at h
    split at h
    · cases h
      exact ⟨rfl, rfl⟩
    · cases h
  fromNumSeconds_isSome s n hs hn := by
    simp only [calendar]
    rw [dif_pos ⟨hs, by omega, Or.inl hn⟩]
    exact rfl

end Calendar

end Chrono
end SqlxMssql
