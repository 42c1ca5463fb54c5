import SqlxMssql.Temporal.Stored

/-! # The integration of the `time` crate

The crate is a parameter: its types, the operations that the driver calls on them, and what
their documentation promises.
-/
namespace SqlxMssql
open Loops Utf8 ProlepticCalendar

structure TimeCrate where
  Date : Type
  Time : Type
  UtcOffset : Type
  OffsetDateTime : Type
  /-- `year()`, `month()` and `day()` -/
  civil : Date → Civil
  /-- `Date::from_calendar_date(_).ok()` -/
  fromCalendarDate : ℤ → ℕ → ℕ → Option Date
  /-- `checked_add(Duration::days(_))` -/
  checkedAddDays : Date → ℤ → Option Date
  /-- `(date - other).whole_days()` -/
  daysSince : Date → Date → ℤ
  /-- `hour()`, `minute()`, `second()` and `nanosecond()` -/
  clock : Time → TimeOfDay
  /-- `Time::from_hms_nano(_).ok()` -/
  fromHmsNano : ℕ → ℕ → ℕ → ℕ → Option Time
  /-- `UtcOffset::from_whole_seconds` -/
  offsetFromWholeSeconds : ℤ → Except Text UtcOffset
  wholeSeconds : UtcOffset → ℤ
  assumeOffset : Date × Time → UtcOffset → OffsetDateTime
  assumeUtc : Date × Time → OffsetDateTime
  /-- The date and time of `to_offset(UtcOffset::UTC)`, which panics out of range. -/
  toUtc : OffsetDateTime → Run (Date × Time)
  /-- Nanoseconds since the Unix epoch. -/
  unixTimestampNanos : OffsetDateTime → ℤ
  displayDate : Date → Text
  displayPrimitive : Date × Time → Text
  displayOffset : OffsetDateTime → Text

namespace TimeCrate

/-- A date and time without an offset, which the crate builds from and reads as the two. -/
abbrev PrimitiveDateTime (crate : TimeCrate) : Type := crate.Date × crate.Time

/-- The crate has the valid dates of its years and the times of a day, and its date
arithmetic is that of the calendar. -/
structure Gregorian (crate : TimeCrate) : Prop where
  exists_date (d : Civil) : -9999 ≤ d.year → d.year ≤ 9999 → ∃ date, crate.civil date = d
  fromCalendarDate_iff (y : ℤ) (m d : ℕ) (date : crate.Date) : crate.fromCalendarDate y m d = some date ↔
    (crate.civil date).year = y ∧ (crate.civil date).month = m ∧ (crate.civil date).day = d
  checkedAddDays_iff (date later : crate.Date) (n : ℤ) : crate.checkedAddDays date n = some later ↔
    (crate.civil later).dayNumber = (crate.civil date).dayNumber + n
  daysSince_eq (date other : crate.Date) :
    crate.daysSince date other = (crate.civil date).dayNumber - (crate.civil other).dayNumber
  exists_time (t : TimeOfDay) : ∃ time, crate.clock time = t
  fromHmsNano_iff (h m s n : ℕ) (time : crate.Time) : crate.fromHmsNano h m s n = some time ↔
    (crate.clock time).hour = h ∧ (crate.clock time).minute = m ∧ (crate.clock time).second = s ∧
      (crate.clock time).nanosecond = n

/-- An offset is taken off the local date and time. -/
structure Offsets (crate : TimeCrate) : Prop where
  offset_ok (s : ℤ) : -86400 < s → s < 86400 → ∃ offset, crate.offsetFromWholeSeconds s = .ok offset
  wholeSeconds_eq (s : ℤ) (offset : crate.UtcOffset) :
    crate.offsetFromWholeSeconds s = .ok offset → crate.wholeSeconds offset = s
  assumeOffset_eq (date : crate.Date) (time : crate.Time) (offset : crate.UtcOffset) :
    crate.unixTimestampNanos (crate.assumeOffset (date, time) offset) =
      unixNanos (crate.civil date).dayNumber (crate.clock time).nanos -
        crate.wholeSeconds offset * 1000000000

section Functions
variable (crate : TimeCrate)

/-- `Date::from_calendar_date(1970, Month::January, 1)` -/
def epoch : Option crate.Date := crate.fromCalendarDate 1970 1 1

def dateFromDays (days : UInt32) : Option crate.Date := do
  let unixDays := (days.toNat : ℤ) - daysFromYearOneToEpoch
  let epoch ← crate.epoch
  crate.checkedAddDays epoch unixDays

def daysFromDate (date : crate.Date) : Option UInt32 := do
  let epoch ← crate.epoch
  let unixDays := crate.daysSince date epoch
  toU32 (unixDays + daysFromYearOneToEpoch)

def timeFromNanos (nanoseconds : ℕ) : Option crate.Time := do
  let totalSeconds := nanoseconds / nanosPerSecond
  let subsecond ← toU32 (nanoseconds % nanosPerSecond : ℕ)
  let hour ← toU8 (totalSeconds / secondsPerHour : ℕ)
  let minute ← toU8 (totalSeconds % secondsPerHour / secondsPerMinute : ℕ)
  let second ← toU8 (totalSeconds % secondsPerMinute : ℕ)
  crate.fromHmsNano hour.toNat minute.toNat second.toNat subsecond.toNat

def nanosFromTime (time : crate.Time) : ℕ :=
  let clock := crate.clock time
  let seconds := clock.hour * secondsPerHour + clock.minute * secondsPerMinute + clock.second
  seconds * nanosPerSecond + clock.nanosecond

def sqlTimeFromTime (time : crate.Time) : SqlTime :=
  let (timeNanoseconds, scale) := nanosToTicks (crate.nanosFromTime time)
  ⟨timeNanoseconds, scale⟩

def datetime2FromPrimitive (value : crate.PrimitiveDateTime) : Option SqlDateTime2 := do
  return ⟨← crate.daysFromDate value.1, crate.sqlTimeFromTime value.2⟩

def primitiveFromDatetime2 (value : SqlDateTime2) : Option crate.PrimitiveDateTime := do
  return (← crate.dateFromDays value.days,
    ← crate.timeFromNanos (ticksToNanos value.time.timeNanoseconds))

end Functions

section Codecs
variable {crate : TimeCrate} (tds : TdsValues)

def encodeDate (date : crate.Date) : Encoding :=
  match crate.daysFromDate date with
  | none => .fail ("date ".toList ++ crate.displayDate date ++
      " is outside the range SQL Server DATE accepts".toList)
  | some days =>
    match tds.createDate days with
    | .error e => .fail e
    | .ok value => .push (.date (some value))

def decodeDate : ColumnValues → Except Text crate.Date
  | .date date => okOrElse "DATE value is out of range for time::Date" (crate.dateFromDays date.days)
  | .dateTime2 datetime =>
    okOrElse "DATETIME2 value is out of range for time::Date"
      ((crate.primitiveFromDatetime2 datetime).map (·.1))
  | .dateTimeOffset datetime =>
    okOrElse "DATETIMEOFFSET value is out of range for time::Date"
      ((crate.primitiveFromDatetime2 datetime.datetime2).map (·.1))
  | other => cannotDecode tds other "time::Date"

def encodeTime (time : crate.Time) : Encoding := .push (.time (some (crate.sqlTimeFromTime time)))

def decodeTime : ColumnValues → Except Text crate.Time
  | .time time =>
    okOrElse "TIME value is out of range for time::Time"
      (crate.timeFromNanos (ticksToNanos time.timeNanoseconds))
  | .dateTime2 datetime =>
    okOrElse "DATETIME2 value is out of range for time::Time"
      ((crate.primitiveFromDatetime2 datetime).map (·.2))
  | .dateTimeOffset datetime =>
    okOrElse "DATETIMEOFFSET value is out of range for time::Time"
      ((crate.primitiveFromDatetime2 datetime.datetime2).map (·.2))
  | other => cannotDecode tds other "time::Time"

def encodePrimitiveDateTime (value : crate.PrimitiveDateTime) : Encoding :=
  match crate.datetime2FromPrimitive value with
  | none => .fail (crate.displayPrimitive value ++
      " is outside the range SQL Server DATETIME2 accepts".toList)
  | some value => .push (.dateTime2 (some value))

def decodePrimitiveDateTime : ColumnValues → Except Text crate.PrimitiveDateTime
  | .dateTime2 datetime =>
    okOrElse "DATETIME2 value is out of range for time::PrimitiveDateTime"
      (crate.primitiveFromDatetime2 datetime)
  | .dateTimeOffset datetime =>
    okOrElse "DATETIMEOFFSET value is out of range for time::PrimitiveDateTime"
      (crate.primitiveFromDatetime2 datetime.datetime2)
  | other => cannotDecode tds other "time::PrimitiveDateTime"

/-- The offset is always written as UTC. -/
def encodeOffsetDateTime (value : crate.OffsetDateTime) : Run Encoding := do
  let utc ← crate.toUtc value
  match crate.datetime2FromPrimitive utc with
  | none => return .fail (crate.displayOffset value ++
      " is outside the range SQL Server DATETIMEOFFSET accepts".toList)
  | some datetime2 => return .push (.dateTimeOffset (some ⟨datetime2, 0⟩))

def decodeOffsetDateTime : ColumnValues → Except Text crate.OffsetDateTime
  | .dateTimeOffset datetime => do
    let naive ← okOrElse "DATETIMEOFFSET value is out of range for time::OffsetDateTime"
      (crate.primitiveFromDatetime2 datetime.datetime2)
    -- here the offset is applied to the stored time, which is already UTC
    let offset ← crate.offsetFromWholeSeconds (datetime.offset.toInt * 60)
    return crate.assumeOffset naive offset
  | .dateTime2 datetime =>
    okOrElse "DATETIME2 value is out of range for time::OffsetDateTime"
      ((crate.primitiveFromDatetime2 datetime).map crate.assumeUtc)
  | other => cannotDecode tds other "time::OffsetDateTime"

end Codecs

section Calendar

/-- The crate, on the calendar itself. -/
def calendar : TimeCrate where
  Date := CivilIn (-9999) 9999
  Time := TimeOfDay
  UtcOffset := ℤ
  OffsetDateTime := (CivilIn (-9999) 9999 × TimeOfDay) × ℤ
  civil := Subtype.val
  clock := id
  fromCalendarDate y m d := CivilIn.ofParts y m d
  checkedAddDays := CivilIn.addDays
  daysSince date other := date.val.dayNumber - other.val.dayNumber
  fromHmsNano h m s n := TimeOfDay.ofParts h m s n
  offsetFromWholeSeconds s :=
    if -93599 ≤ s ∧ s ≤ 93599 then .ok s else .error "seconds must be in the range -93599..=93599".toList
  wholeSeconds s := s
  assumeOffset value offset := (value, offset)
  assumeUtc value := (value, 0)
  toUtc value := do
    let nanos := value.1.2.nanos - value.2 * 1000000000
    let date ← orPanic (value.1.1.addDays (nanos / nanosPerDay))
    return (date, TimeOfDay.ofInstant nanos)
  unixTimestampNanos value := unixNanos value.1.1.val.dayNumber value.1.2.nanos - value.2 * 1000000000
  displayDate date := isoDate date.val
  displayPrimitive value := isoDate value.1.val
  displayOffset value := isoDate value.1.1.val

theorem calendar_gregorian : calendar.Gregorian where
  exists_date d hfrom hto := ⟨⟨d, hfrom, hto⟩, rfl⟩
  fromCalendarDate_iff y m d date := by
    refine CivilIn.ofParts_eq_some.trans ?_
    rw [Int.natCast_inj, Int.natCast_inj]
    exact Iff.rfl
  checkedAddDays_iff _ _ _ := CivilIn.addDays_eq_some
  daysSince_eq _ _ := rfl
  exists_time t := ⟨t, rfl⟩
  fromHmsNano_iff h m s n time := by
    refine TimeOfDay.ofParts_eq_some.trans ?_
    rw [Int.natCast_inj, Int.natCast_inj, Int.natCast_inj, Int.natCast_inj]
    exact Iff.rfl

theorem calendar_offsets : calendar.Offsets where
  offset_ok s hfrom hto := by
    refine ⟨s, ?_⟩
    simp only [calendar]
    rw [if_pos (by omega)]
  wholeSeconds_eq s offset h := by
    simp only [calendar] at h ⊢
    split at h
    · cases h
      exact rfl
    · cases h
  assumeOffset_eq _ _ _ := rfl

end Calendar

end TimeCrate
end SqlxMssql
