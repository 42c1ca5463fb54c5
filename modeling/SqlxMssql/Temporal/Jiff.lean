import SqlxMssql.Temporal.Stored

/-! # The `jiff` integration

The crate is a parameter. Its own day numbers are not public, so the driver computes them
from the year, month and day of a date.
-/
namespace SqlxMssql
open Utf8 ProlepticCalendar

structure Jiff where
  Date : Type
  Time : Type
  Timestamp : Type
  /-- `year()`, `month()` and `day()` -/
  civil : Date → Civil
  /-- `hour()`, `minute()`, `second()` and `subsec_nanosecond()` -/
  clock : Time → TimeOfDay
  /-- `Date::new(_).ok()` -/
  dateNew : ℤ → ℤ → ℤ → Option Date
  /-- `Time::new(_).ok()` -/
  timeNew : ℤ → ℤ → ℤ → ℤ → Option Time
  /-- `DateTime::new(_).ok()`, as its date and time -/
  dateTimeNew : ℤ → ℤ → ℤ → ℤ → ℤ → ℤ → ℤ → Option (Date × Time)
  /-- `to_zoned(TimeZone::UTC).ok()` and its `timestamp()` -/
  toZonedUtc : Date × Time → Option Timestamp
  /-- `to_zoned(TimeZone::UTC).datetime()` -/
  utcDatetime : Timestamp → Date × Time
  /-- Nanoseconds since the Unix epoch. -/
  asNanosecond : Timestamp → ℤ
  displayDate : Date → Text
  displayTime : Time → Text
  displayDateTime : Date × Time → Text
  displayTimestamp : Timestamp → Text

namespace Jiff

/-- A civil date and time, which the crate builds from and reads as the two. -/
abbrev DateTime (jiff : Jiff) : Type := jiff.Date × jiff.Time

/-- The crate has exactly the valid dates of its years, and the times of a day. -/
structure Gregorian (jiff : Jiff) : Prop where
  exists_date (d : Civil) : -9999 ≤ d.year → d.year ≤ 9999 → ∃ date, jiff.civil date = d
  civil_year (date : jiff.Date) : -9999 ≤ (jiff.civil date).year ∧ (jiff.civil date).year ≤ 9999
  dateNew_iff (y m d : ℤ) (date : jiff.Date) : jiff.dateNew y m d = some date ↔
    (jiff.civil date).year = y ∧ (jiff.civil date).month = m ∧ (jiff.civil date).day = d
  exists_time (t : TimeOfDay) : ∃ time, jiff.clock time = t
  timeNew_iff (h m s n : ℤ) (time : jiff.Time) : jiff.timeNew h m s n = some time ↔
    (jiff.clock time).hour = h ∧ (jiff.clock time).minute = m ∧ (jiff.clock time).second = s ∧
      (jiff.clock time).nanosecond = n
  dateTimeNew_eq (date : jiff.Date) (time : jiff.Time) :
    jiff.dateTimeNew (jiff.civil date).year (jiff.civil date).month (jiff.civil date).day
      (jiff.clock time).hour (jiff.clock time).minute (jiff.clock time).second
      (jiff.clock time).nanosecond = some (date, time)

/-- A date and time in UTC is the timestamp of its instant. -/
structure Instants (jiff : Jiff) : Prop where
  toZonedUtc_eq (date : jiff.Date) (time : jiff.Time) (timestamp : jiff.Timestamp) :
    jiff.toZonedUtc (date, time) = some timestamp →
      jiff.asNanosecond timestamp = unixNanos (jiff.civil date).dayNumber (jiff.clock time).nanos

/-- The number of days from 1970-01-01, by the days-from-civil calculation. -/
def unixDaysFromDate (date : Civil) : ℤ :=
  let year := date.year
  let month : ℤ := date.month
  let day : ℤ := date.day
  let adjustedYear := year - (if month ≤ 2 then 1 else 0)
  let era := adjustedYear / 400
  let yearOfEra := adjustedYear - era * 400
  let monthShift := if month > 2 then month - 3 else month + 9
  let dayOfYear := (153 * monthShift + 2) / 5 + day - 1
  let dayOfEra := yearOfEra * 365 + yearOfEra / 4 - yearOfEra / 100 + dayOfYear
  era * 146097 + dayOfEra - 719468

/-- The year, month and day that `date_from_unix_days` computes. -/
def civilFromUnixDays (unixDays : ℤ) : ℤ × ℤ × ℤ :=
  let shifted := unixDays + 719468
  let era := shifted / 146097
  let dayOfEra := shifted - era * 146097
  let yearOfEra := (dayOfEra - dayOfEra / 1460 + dayOfEra / 36524 - dayOfEra / 146096) / 365
  let year := yearOfEra + era * 400
  let dayOfYear := dayOfEra - (365 * yearOfEra + yearOfEra / 4 - yearOfEra / 100)
  let monthShift := (5 * dayOfYear + 2) / 153
  let day := dayOfYear - (153 * monthShift + 2) / 5 + 1
  let month := if monthShift < 10 then monthShift + 3 else monthShift - 9
  let year := year + (if month ≤ 2 then 1 else 0)
  (year, month, day)

section Functions
variable (jiff : Jiff)

def dateFromUnixDays (unixDays : ℤ) : Option jiff.Date := do
  let (year, month, day) := civilFromUnixDays unixDays
  jiff.dateNew (← toI16 year) (← toI8 month) (← toI8 day)

def dateFromDays (days : UInt32) : Option jiff.Date :=
  jiff.dateFromUnixDays (days.toNat - daysFromYearOneToEpoch)

def daysFromDate (date : jiff.Date) : Option UInt32 :=
  toU32 (unixDaysFromDate (jiff.civil date) + daysFromYearOneToEpoch)

def nanosFromTime (time : jiff.Time) : Option ℕ := do
  let clock := jiff.clock time
  let seconds := (← (clock.hour : ℤ).toNat?) * secondsPerHour +
    (← (clock.minute : ℤ).toNat?) * secondsPerMinute + (← (clock.second : ℤ).toNat?)
  return seconds * nanosPerSecond + (← (clock.nanosecond : ℤ).toNat?)

def timeFromNanos (nanoseconds : ℕ) : Option jiff.Time := do
  let totalSeconds := nanoseconds / nanosPerSecond
  -- the remainder of the division fits an `i32`
  let subsecond : ℤ := (nanoseconds % nanosPerSecond : ℕ)
  jiff.timeNew (← toI8 (totalSeconds / secondsPerHour : ℕ))
    (← toI8 (totalSeconds % secondsPerHour / secondsPerMinute : ℕ))
    (← toI8 (totalSeconds % secondsPerMinute : ℕ)) subsecond

def sqlTimeFromTime (time : jiff.Time) : Option SqlTime := do
  let (timeNanoseconds, scale) := nanosToTicks (← jiff.nanosFromTime time)
  return ⟨timeNanoseconds, scale⟩

def datetime2FromCivil (value : jiff.DateTime) : Option SqlDateTime2 := do
  return ⟨← jiff.daysFromDate value.1, ← jiff.sqlTimeFromTime value.2⟩

def civilFromDatetime2 (value : SqlDateTime2) : Option jiff.DateTime := do
  let date ← jiff.dateFromDays value.days
  let time ← jiff.timeFromNanos (ticksToNanos value.time.timeNanoseconds)
  jiff.dateTimeNew (jiff.civil date).year (jiff.civil date).month (jiff.civil date).day
    (jiff.clock time).hour (jiff.clock time).minute (jiff.clock time).second
    (jiff.clock time).nanosecond

def timestampFromDatetime2 (value : SqlDateTime2) : Option jiff.Timestamp := do
  jiff.toZonedUtc (← jiff.civilFromDatetime2 value)

end Functions

section Codecs
variable {jiff : Jiff} (tds : TdsValues)

def encodeDate (date : jiff.Date) : Encoding :=
  match jiff.daysFromDate date with
  | none => .fail ("date ".toList ++ jiff.displayDate date ++
      " is outside the range SQL Server DATE accepts".toList)
  | some days =>
    match tds.createDate days with
    | .error e => .fail e
    | .ok value => .push (.date (some value))

def decodeDate : ColumnValues → Except Text jiff.Date
  | .date date =>
    okOrElse "DATE value is out of range for jiff::civil::Date" (jiff.dateFromDays date.days)
  | .dateTime2 datetime =>
    okOrElse "DATETIME2 value is out of range for jiff::civil::Date"
      ((jiff.civilFromDatetime2 datetime).map (·.1))
  | .dateTimeOffset datetime =>
    okOrElse "DATETIMEOFFSET value is out of range for jiff::civil::Date"
      ((jiff.civilFromDatetime2 datetime.datetime2).map (·.1))
  | other => cannotDecode tds other "jiff::civil::Date"

def encodeTime (time : jiff.Time) : Encoding :=
  match jiff.sqlTimeFromTime time with
  | none => .fail (jiff.displayTime time ++ " is outside the range SQL Server TIME accepts".toList)
  | some value => .push (.time (some value))

def decodeTime : ColumnValues → Except Text jiff.Time
  | .time time =>
    okOrElse "TIME value is out of range for jiff::civil::Time"
      (jiff.timeFromNanos (ticksToNanos time.timeNanoseconds))
  | .dateTime2 datetime =>
    okOrElse "DATETIME2 value is out of range for jiff::civil::Time"
      ((jiff.civilFromDatetime2 datetime).map (·.2))
  | .dateTimeOffset datetime =>
    okOrElse "DATETIMEOFFSET value is out of range for jiff::civil::Time"
      ((jiff.civilFromDatetime2 datetime.datetime2).map (·.2))
  | other => cannotDecode tds other "jiff::civil::Time"

def encodeDateTime (value : jiff.DateTime) : Encoding :=
  match jiff.datetime2FromCivil value with
  | none => .fail (jiff.displayDateTime value ++
      " is outside the range SQL Server DATETIME2 accepts".toList)
  | some value => .push (.dateTime2 (some value))

def decodeDateTime : ColumnValues → Except Text jiff.DateTime
  | .dateTime2 datetime =>
    okOrElse "DATETIME2 value is out of range for jiff::civil::DateTime"
      (jiff.civilFromDatetime2 datetime)
  | .dateTimeOffset datetime =>
    okOrElse "DATETIMEOFFSET value is out of range for jiff::civil::DateTime"
      (jiff.civilFromDatetime2 datetime.datetime2)
  | other => cannotDecode tds other "jiff::civil::DateTime"

/-- A timestamp is an instant, so it is stored as UTC. -/
def encodeTimestamp (timestamp : jiff.Timestamp) : Encoding :=
  match jiff.datetime2FromCivil (jiff.utcDatetime timestamp) with
  | none => .fail (jiff.displayTimestamp timestamp ++
      " is outside the range SQL Server DATETIMEOFFSET accepts".toList)
  | some value => .push (.dateTimeOffset (some ⟨value, 0⟩))

def decodeTimestamp : ColumnValues → Except Text jiff.Timestamp
  -- the time part is already UTC, so the offset is not applied
  | .dateTimeOffset datetime =>
    okOrElse "DATETIMEOFFSET value is out of range for jiff::Timestamp"
      (jiff.timestampFromDatetime2 datetime.datetime2)
  | .dateTime2 datetime =>
    okOrElse "DATETIME2 value is out of range for jiff::Timestamp" (jiff.timestampFromDatetime2 datetime)
  | other => cannotDecode tds other "jiff::Timestamp"

end Codecs

section Calendar

def isoClock (t : TimeOfDay) : Text :=
  padded 2 t.hour ++ ':' :: padded 2 t.minute ++ ':' :: padded 2 t.second ++
    (if t.nanosecond = 0 then [] else '.' :: padded 9 t.nanosecond)

/-- The crate, on the calendar itself. A timestamp is its nanoseconds. -/
def calendar : Jiff where
  Date := CivilIn (-9999) 9999
  Time := TimeOfDay
  Timestamp := ℤ
  civil := Subtype.val
  clock := id
  dateNew := CivilIn.ofParts
  timeNew := TimeOfDay.ofParts
  dateTimeNew y mo d h mi s n := do return (← CivilIn.ofParts y mo d, ← TimeOfDay.ofParts h mi s n)
  toZonedUtc value :=
    let nanos := unixNanos value.1.val.dayNumber value.2.nanos
    -- timestamps leave out the first and the last day, so that every time zone can hold them
    if -377705023201000000000 ≤ nanos ∧ nanos < 253402207201000000000 then some nanos else none
  utcDatetime nanos :=
    let d := Civil.ofDayNumber (nanos / nanosPerDay + daysFromYearOneToEpoch)
    ((CivilIn.ofCivil d).getD (CivilIn.origin (by decide)), TimeOfDay.ofInstant nanos)
  asNanosecond nanos := nanos
  displayDate date := isoDate date.val
  displayTime := isoClock
  displayDateTime value := isoDate value.1.val ++ 'T' :: isoClock value.2
  displayTimestamp nanos := decimal nanos.natAbs

theorem calendar_gregorian : calendar.Gregorian where
  exists_date d hfrom hto := ⟨⟨d, hfrom, hto⟩, rfl⟩
  civil_year date := date.property
  dateNew_iff _ _ _ _ := CivilIn.ofParts_eq_some
  exists_time t := ⟨t, rfl⟩
  timeNew_iff _ _ _ _ _ := TimeOfDay.ofParts_eq_some
  dateTimeNew_eq date time := by
    have hdate := CivilIn.ofParts_eq_some.mpr ⟨rfl, rfl, (rfl : (date.val.day : ℤ) = _)⟩
    have htime := TimeOfDay.ofParts_eq_some.mpr ⟨rfl, rfl, rfl, (rfl : (time.nanosecond : ℤ) = _)⟩
    simp only [calendar, id, hdate, htime]
    exact rfl

theorem calendar_instants : calendar.Instants where
  toZonedUtc_eq date time timestamp h := by
    simp only [calendar] at h
    split at h
    · cases h
      exact rfl
    · cases h

end Calendar

end Jiff
end SqlxMssql
