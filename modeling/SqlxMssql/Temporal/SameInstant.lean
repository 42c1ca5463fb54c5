import SqlxMssql.Temporal.ChronoRange
import SqlxMssql.Temporal.CivilDays
import SqlxMssql.Temporal.TimeCrate

/-! # One instant for the three libraries

A stored `DATETIMEOFFSET` holds its date and time in UTC. Two of the integrations read the
instant from these alone, and the third takes the offset off once more.
-/
namespace SqlxMssql
open Utf8 ProlepticCalendar

namespace Jiff
variable {jiff : Jiff}

theorem timeFromNanos_eq_some (hg : jiff.Gregorian) {nanos : ℕ} {time : jiff.Time} :
    jiff.timeFromNanos nanos = some time ↔ (jiff.clock time).nanos = nanos := by
  unfold timeFromNanos
  simp only [Option.bind_eq_bind, Option.bind_eq_some_iff, toI8_eq_some, hg.timeNew_iff,
    TimeOfDay.nanos_eq_iff]
  have hhour := (jiff.clock time).hour_lt
  have hminute := (jiff.clock time).minute_lt
  have hsecond := (jiff.clock time).second_lt
  unfold nanosPerSecond secondsPerHour secondsPerMinute
  constructor
  · rintro ⟨h, ⟨rfl, -⟩, m, ⟨rfl, -⟩, s, ⟨rfl, -⟩, hparts⟩
    omega
  · rintro ⟨hh, hm, hs, hn⟩
    refine ⟨_, ⟨rfl, by omega, by omega⟩, _, ⟨rfl, by omega, by omega⟩, _, ⟨rfl, by omega, by omega⟩, ?_⟩
    omega

theorem timestampFromDatetime2_unixNanos (hg : jiff.Gregorian) (hi : jiff.Instants) {value : SqlDateTime2}
    (hv : value.InRange) {timestamp : jiff.Timestamp}
    (h : jiff.timestampFromDatetime2 value = some timestamp) :
    jiff.asNanosecond timestamp = value.unixNanos := by
  unfold timestampFromDatetime2 civilFromDatetime2 at h
  simp only [Option.bind_eq_bind, Option.bind_eq_some_iff, hg.dateTimeNew_eq, Option.some.injEq] at h
  obtain ⟨-, ⟨date, hdate, time, htime, rfl⟩, hzoned⟩ := h
  rw [dateFromDays, dateFromUnixDays_eq_some hg, sub_add_cancel] at hdate
  rw [timeFromNanos_eq_some hg, ticksToNanos_of_lt hv.2] at htime
  rw [hi.toZonedUtc_eq date time timestamp hzoned, hdate, htime]
  exact rfl

end Jiff

namespace TimeCrate
variable {crate : TimeCrate}

theorem exists_epoch (hg : crate.Gregorian) :
    ∃ date, crate.epoch = some date ∧ (crate.civil date).dayNumber = daysFromYearOneToEpoch := by
  obtain ⟨date, hdate⟩ := hg.exists_date (Civil.ofDayNumber 719162) (by decide) (by decide)
  have hday : (crate.civil date).dayNumber = daysFromYearOneToEpoch := by
    rw [hdate]
    exact Civil.dayNumber_ofDayNumber _
  refine ⟨date, ?_, hday⟩
  apply (hg.fromCalendarDate_iff 1970 1 1 date).mpr
  rw [hdate]
  exact ⟨by decide, by decide, by decide⟩

theorem dateFromDays_eq_some (hg : crate.Gregorian) {days : UInt32} {date : crate.Date} :
    crate.dateFromDays days = some date ↔ (crate.civil date).dayNumber = days.toNat := by
  obtain ⟨epoch, hepoch, hday⟩ := exists_epoch hg
  have hrun : crate.dateFromDays days =
      crate.checkedAddDays epoch (days.toNat - daysFromYearOneToEpoch) := by
    simp only [dateFromDays, hepoch]
    rfl
  rw [hrun, hg.checkedAddDays_iff, hday]
  omega

theorem timeFromNanos_eq_some (hg : crate.Gregorian) {nanos : ℕ} {time : crate.Time} :
    crate.timeFromNanos nanos = some time ↔ (crate.clock time).nanos = nanos := by
  unfold timeFromNanos
  simp only [Option.bind_eq_bind, Option.bind_eq_some_iff, toU8_eq_some, toU32_eq_some,
    hg.fromHmsNano_iff, TimeOfDay.nanos_eq_iff]
  have hhour := (crate.clock time).hour_lt
  have hminute := (crate.clock time).minute_lt
  have hsecond := (crate.clock time).second_lt
  have hnano := (crate.clock time).nanosecond_lt
  unfold nanosPerSecond secondsPerHour secondsPerMinute
  constructor
  · rintro ⟨n, hn, h, hh, m, hm, s, hs, hparts⟩
    omega
  · rintro ⟨hh, hm, hs, hn⟩
    have hour : (UInt8.ofNat (crate.clock time).hour).toNat = (crate.clock time).hour :=
      UInt8.toNat_ofNat_of_lt' (hhour.trans (by decide))
    have minute : (UInt8.ofNat (crate.clock time).minute).toNat = (crate.clock time).minute :=
      UInt8.toNat_ofNat_of_lt' (hminute.trans (by decide))
    have second : (UInt8.ofNat (crate.clock time).second).toNat = (crate.clock time).second :=
      UInt8.toNat_ofNat_of_lt' (hsecond.trans (by decide))
    have nanosecond : (UInt32.ofNat (crate.clock time).nanosecond).toNat =
        (crate.clock time).nanosecond := UInt32.toNat_ofNat_of_lt' (hnano.trans (by decide))
    refine ⟨UInt32.ofNat (crate.clock time).nanosecond, ?_, UInt8.ofNat (crate.clock time).hour, ?_,
      UInt8.ofNat (crate.clock time).minute, ?_, UInt8.ofNat (crate.clock time).second, ?_,
      hour.symm, minute.symm, second.symm, nanosecond.symm⟩
    all_goals omega

theorem exists_dateFromDays (hg : crate.Gregorian) {days : UInt32} (h : days.toNat ≤ 3652058) :
    ∃ date, crate.dateFromDays days = some date ∧ (crate.civil date).dayNumber = days.toNat := by
  obtain ⟨hfirst, hlast⟩ := ofDayNumber_year_mem (n := days.toNat) (by omega) (by unfold lastDay; omega)
  obtain ⟨date, hdate⟩ := hg.exists_date (Civil.ofDayNumber days.toNat) (by omega) hlast
  have hday : (crate.civil date).dayNumber = days.toNat := by
    rw [hdate, Civil.dayNumber_ofDayNumber]
  exact ⟨date, (dateFromDays_eq_some hg).mpr hday, hday⟩

theorem exists_timeFromNanos (hg : crate.Gregorian) {nanos : ℕ} (h : nanos < 86400000000000) :
    ∃ time, crate.timeFromNanos nanos = some time ∧ (crate.clock time).nanos = nanos := by
  obtain ⟨time, htime⟩ := hg.exists_time (TimeOfDay.ofNanos nanos h)
  have hclock : (crate.clock time).nanos = nanos := by
    rw [htime, TimeOfDay.nanos_ofNanos]
  exact ⟨time, (timeFromNanos_eq_some hg).mpr hclock, hclock⟩

theorem exists_primitive (hg : crate.Gregorian) {value : SqlDateTime2} (hv : value.InRange) :
    ∃ date time, crate.primitiveFromDatetime2 value = some (date, time) ∧
      unixNanos (crate.civil date).dayNumber (crate.clock time).nanos = value.unixNanos := by
  obtain ⟨date, hdate, hday⟩ := exists_dateFromDays hg hv.1
  obtain ⟨time, htime, hclock⟩ := exists_timeFromNanos hg (mul_hundred_lt_of_lt hv.2)
  refine ⟨date, time, ?_, ?_⟩
  · simp only [primitiveFromDatetime2, ticksToNanos_of_lt hv.2, hdate, htime]
    rfl
  · rw [hday, hclock]
    exact rfl

/-- The instant that is read lies off the stored one by the offset. -/
theorem exists_offsetDateTime (hg : crate.Gregorian) (ho : crate.Offsets) (tds : TdsValues)
    {value : SqlDateTimeOffset} (hv : value.datetime2.InRange)
    (hoffset : -840 ≤ value.offset.toInt ∧ value.offset.toInt ≤ 840) :
    ∃ read : crate.OffsetDateTime, decodeOffsetDateTime tds (.dateTimeOffset value) = .ok read ∧
      crate.unixTimestampNanos read = value.datetime2.unixNanos - value.offset.toInt * 60 * 1000000000 := by
  obtain ⟨date, time, hprimitive, hnanos⟩ := exists_primitive hg hv
  obtain ⟨offset, hok⟩ := ho.offset_ok (value.offset.toInt * 60) (by omega) (by omega)
  refine ⟨crate.assumeOffset (date, time) offset, ?_, ?_⟩
  · simp only [decodeOffsetDateTime, hprimitive, okOrElse, hok]
    rfl
  · rw [ho.assumeOffset_eq, hnanos, ho.wholeSeconds_eq _ _ hok]

end TimeCrate

namespace Chrono
variable {chrono : Chrono}

def DateTimeUtc.unixNanos (v : chrono.DateTimeUtc) : ℤ :=
  SqlxMssql.unixNanos (chrono.civil v.naiveUtc.date).dayNumber (chrono.nanosFromTime v.naiveUtc.time)

theorem naiveFromDatetime2_unixNanos (hg : chrono.Gregorian) (hk : chrono.Clock) {value : SqlDateTime2}
    (hv : value.InRange) {naive : chrono.NaiveDateTime} (h : chrono.naiveFromDatetime2 value = some naive) :
    DateTimeUtc.unixNanos ⟨naive⟩ = value.unixNanos := by
  obtain ⟨time, htime, hseconds, hnanosecond⟩ := exists_timeFromNanos hk (mul_hundred_lt_of_lt hv.2)
  unfold naiveFromDatetime2 at h
  rw [ticksToNanos_of_lt hv.2, htime] at h
  cases hdate : chrono.dateFromDays value.days with
  | none =>
    rw [hdate] at h
    cases h
  | some date =>
    rw [hdate] at h
    cases h
    have hday := ((dateFromDays_eq_some hg).mp hdate).2
    have hclock : chrono.nanosFromTime time = value.time.timeNanoseconds.toNat * 100 := by
      unfold nanosFromTime nanosPerSecond
      omega
    unfold DateTimeUtc.unixNanos
    rw [hday, hclock]
    exact rfl

end Chrono

section SameInstant
variable (tds : TdsValues) (chrono : Chrono) (jiff : Jiff) (crate : TimeCrate)

/-- Whatever the libraries read from a value is the instant of its stored date and time. -/
structure SameInstant (value : SqlDateTimeOffset) : Prop where
  chrono (v : chrono.DateTimeUtc) : Chrono.decodeDateTimeUtc tds (.dateTimeOffset value) = .ok v →
    v.unixNanos = value.datetime2.unixNanos
  jiff (v : jiff.Timestamp) : Jiff.decodeTimestamp tds (.dateTimeOffset value) = .ok v →
    jiff.asNanosecond v = value.datetime2.unixNanos
  time (v : crate.OffsetDateTime) : TimeCrate.decodeOffsetDateTime tds (.dateTimeOffset value) = .ok v →
    crate.unixTimestampNanos v = value.datetime2.unixNanos

variable {chrono jiff crate}

theorem same_instant_iff (hcg : chrono.Gregorian) (hck : chrono.Clock) (hjg : jiff.Gregorian)
    (hji : jiff.Instants) (htg : crate.Gregorian) (hto : crate.Offsets) (value : SqlDateTimeOffset)
    (hv : value.datetime2.InRange) (hoffset : -840 ≤ value.offset.toInt ∧ value.offset.toInt ≤ 840) :
    SameInstant tds chrono jiff crate value ↔ value.offset = 0 := by
  obtain ⟨read, hread, hnanos⟩ := TimeCrate.exists_offsetDateTime htg hto tds hv hoffset
  have hzero : value.offset = 0 ↔ value.offset.toInt = 0 := by
    rw [← Int16.toInt_inj]
    exact Iff.rfl
  rw [hzero]
  constructor
  · intro h
    have := h.time read hread
    omega
  · intro h
    constructor
    · intro v hv'
      simp only [Chrono.decodeDateTimeUtc, okOrElse_eq_ok, Option.map_eq_some_iff] at hv'
      obtain ⟨naive, hnaive, rfl⟩ := hv'
      exact Chrono.naiveFromDatetime2_unixNanos hcg hck hv hnaive
    · intro v hv'
      simp only [Jiff.decodeTimestamp, okOrElse_eq_ok] at hv'
      exact Jiff.timestampFromDatetime2_unixNanos hjg hji hv hv'
    · intro v hv'
      rw [hread] at hv'
      cases hv'
      omega

/-- 2026-09-21T10:34:56 in UTC, beside an offset in minutes. -/
def autumnMorning (offset : Int16) : SqlDateTimeOffset := ⟨⟨739879, 380960000000, 7⟩, offset⟩

theorem autumnMorning_sameInstant :
    SameInstant TdsValues.checked .calendar .calendar .calendar (autumnMorning 0) :=
  (same_instant_iff TdsValues.checked Chrono.calendar_gregorian Chrono.calendar_clock
    Jiff.calendar_gregorian Jiff.calendar_instants TimeCrate.calendar_gregorian
    TimeCrate.calendar_offsets (autumnMorning 0) ⟨by decide, by decide⟩ ⟨by decide, by decide⟩).mpr rfl

/-- Read with an offset of two hours, the third library is two hours early. -/
theorem autumnMorning_apart :
    ¬ SameInstant TdsValues.checked .calendar .calendar .calendar (autumnMorning 120) := by
  intro h
  obtain ⟨read, hread, hnanos⟩ := TimeCrate.exists_offsetDateTime TimeCrate.calendar_gregorian
    TimeCrate.calendar_offsets TdsValues.checked
    (show (autumnMorning 120).datetime2.InRange from ⟨by decide, by decide⟩) ⟨by decide, by decide⟩
  have hoffset : (autumnMorning 120).offset.toInt = 120 := by decide
  have hsame := h.time read hread
  omega

end SameInstant

end SqlxMssql
