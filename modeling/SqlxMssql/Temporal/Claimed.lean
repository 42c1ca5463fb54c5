import SqlxMssql.Temporal.SameInstant
import SqlxMssql.Types.Wire

/-! # The columns that the date and time types claim

Each type claims columns by a predicate on their type and decodes values by cases of its
own. The legacy types of the server are claimed by all three libraries and decoded by one.
-/
namespace SqlxMssql
open Utf8 ProlepticCalendar

/-- The date and time types of the three libraries. -/
inductive TemporalType where
  | chronoNaiveDate
  | chronoNaiveTime
  | chronoNaiveDateTime
  | chronoDateTimeUtc
  | jiffDate
  | jiffTime
  | jiffDateTime
  | jiffTimestamp
  | timeDate
  | timeTime
  | timePrimitiveDateTime
  | timeOffsetDateTime
  deriving DecidableEq, Repr

/-- `Type::compatible` -/
def TemporalType.compatible (ty : MssqlTypeInfo) : TemporalType → Bool
  | chronoNaiveDate | jiffDate | timeDate => ty.acceptsDateData
  | chronoNaiveTime | jiffTime | timeTime => ty.acceptsTimeData
  | chronoNaiveDateTime | jiffDateTime | timePrimitiveDateTime => ty.acceptsNaiveDatetimeData
  | chronoDateTimeUtc | jiffTimestamp | timeOffsetDateTime =>
    ty.acceptsNaiveDatetimeData || ty.acceptsDatetimeoffsetData

def TemporalType.OfChrono (type : TemporalType) : Prop :=
  type ∈ [chronoNaiveDate, chronoNaiveTime, chronoNaiveDateTime, chronoDateTimeUtc]

instance (type : TemporalType) : Decidable type.OfChrono := inferInstanceAs (Decidable (_ ∈ _))

namespace ColumnValues

/-- The date lies between 0001-01-01 and 9999-12-31, and the time is less than a day. -/
def InTemporalRange : ColumnValues → Prop
  | .date value => value.days.toNat ≤ 3652058
  | .time value => value.timeNanoseconds.toNat < 864000000000
  | .dateTime value =>
    -693595 ≤ value.days.toInt ∧ value.days.toInt ≤ 2958463 ∧ value.time.toNat < 25920000
  | .smallDateTime value => value.time.toNat < 1440
  | .dateTime2 value => value.InRange
  | .dateTimeOffset value => value.datetime2.InRange
  | _ => True

/-- A `datetime` or a `smalldatetime`. -/
def IsLegacy : ColumnValues → Prop
  | .dateTime _ | .smallDateTime _ => True
  | _ => False

/-- The days are those from 0001-01-01, and reach 1970. -/
def FromEpoch : ColumnValues → Prop
  | .date value => 719162 ≤ value.days.toNat
  | .dateTime2 value => 719162 ≤ value.days.toNat
  | .dateTimeOffset value => 719162 ≤ value.datetime2.days.toNat
  | _ => True

/-- The instant is not after the last timestamp of `jiff`, 9999-12-30T22:00:00.999999999Z. -/
def ByLastTimestamp : ColumnValues → Prop
  | .dateTime2 value => value.unixNanos ≤ 253402207200999999999
  | .dateTimeOffset value => value.datetime2.unixNanos ≤ 253402207200999999999
  | _ => True

end ColumnValues

/-- The legacy values are read through `chrono` alone, the dates before 1970 not through
`chrono`, and the end of the year 9999 not as a timestamp of `jiff`. -/
def TemporalType.Reads (type : TemporalType) (value : ColumnValues) : Prop :=
  (value.IsLegacy → type.OfChrono) ∧ (type.OfChrono → value.FromEpoch) ∧
    (type = jiffTimestamp → value.ByLastTimestamp)

namespace Chrono
variable {chrono : Chrono}

theorem dateFromDays_isSome_iff (hg : chrono.Gregorian) {days : UInt32} (h : days.toNat ≤ 3652058) :
    (chrono.dateFromDays days).isSome ↔ 719162 ≤ days.toNat := by
  simp only [Option.isSome_iff_exists, dateFromDays_eq_some hg, exists_and_left, and_iff_left_iff_imp]
  intro
  obtain ⟨date, -, hday⟩ := exists_day hg (n := days.toNat) (by omega) (by unfold lastDay; omega)
  exact ⟨date, hday⟩

theorem naiveFromDatetime2_isSome_iff (hg : chrono.Gregorian) (hk : chrono.Clock) {value : SqlDateTime2}
    (hv : value.InRange) : (chrono.naiveFromDatetime2 value).isSome ↔ 719162 ≤ value.days.toNat := by
  obtain ⟨time, htime, -⟩ := exists_timeFromNanos hk (mul_hundred_lt_of_lt hv.2)
  rw [← dateFromDays_isSome_iff hg hv.1]
  simp only [naiveFromDatetime2, ticksToNanos_of_lt hv.2, htime]
  cases chrono.dateFromDays value.days <;> exact Iff.rfl

/-- 1900-01-01, from which the legacy types count. -/
theorem exists_legacyEpoch (hg : chrono.Gregorian) :
    ∃ epoch, chrono.fromYmdOpt 1900 1 1 = some epoch ∧ (chrono.civil epoch).dayNumber = 693595 :=
  exists_fromYmdOpt hg (n := 693595) (by decide) (by decide)

theorem isSome_datetimeFromSqlDateTime (hg : chrono.Gregorian) (hk : chrono.Clock) {value : SqlDateTime}
    (hv : (ColumnValues.dateTime value).InTemporalRange) :
    (chrono.datetimeFromSqlDateTime value).isSome := by
  obtain ⟨hfrom, hto, hticks⟩ := hv
  obtain ⟨epoch, hepoch, hday⟩ := exists_legacyEpoch hg
  obtain ⟨date, -, hdate⟩ := exists_day hg (n := 693595 + value.days.toInt) (by omega)
    (by unfold lastDay; omega)
  have hnanos : value.time.toNat * nanosPerSecond / 300 < 86400000000000 := by
    unfold nanosPerSecond
    omega
  obtain ⟨time, htime, -⟩ := exists_timeFromNanos hk hnanos
  unfold datetimeFromSqlDateTime
  by_cases hsign : 0 ≤ value.days.toInt
  · have hadd : chrono.checkedAddDays epoch value.days.toInt.toNat = some date := by
      rw [hg.checkedAddDays_iff]
      omega
    have hdays : value.days.toInt.toNat? = some value.days.toInt.toNat := Int.mem_toNat?.mpr (by omega)
    simp only [hepoch, if_pos hsign, hdays, hadd, htime, Option.bind_eq_bind, Option.bind_some]
    exact rfl
  · -- the least day count is far from the least `i32`, which alone has no negation
    have hneg : (-value.days).toInt = -value.days.toInt := by
      rw [Int32.toInt_neg, Int.bmod_eq_of_le] <;> omega
    have hsub : chrono.checkedSubDays epoch (-value.days).toInt.toNat = some date := by
      rw [hg.checkedSubDays_iff]
      omega
    have hdays : (-value.days).toInt.toNat? = some (-value.days).toInt.toNat :=
      Int.mem_toNat?.mpr (by omega)
    simp only [hepoch, if_neg hsign, hdays, hsub, htime, Option.bind_eq_bind, Option.bind_some]
    exact rfl

theorem isSome_datetimeFromSmallDateTime (hg : chrono.Gregorian) (hk : chrono.Clock)
    {value : SqlSmallDateTime} (hv : (ColumnValues.smallDateTime value).InTemporalRange) :
    (chrono.datetimeFromSmallDateTime value).isSome := by
  have hminutes : value.time.toNat < 1440 := hv
  have hdays := value.days.toNat_lt
  obtain ⟨epoch, hepoch, hday⟩ := exists_legacyEpoch hg
  obtain ⟨date, -, hdate⟩ := exists_day hg (n := 693595 + value.days.toNat) (by omega)
    (by unfold lastDay; omega)
  have hadd : chrono.checkedAddDays epoch value.days.toNat = some date := by
    rw [hg.checkedAddDays_iff]
    omega
  obtain ⟨time, htime⟩ := Option.isSome_iff_exists.mp
    (hk.fromNumSeconds_isSome (value.time.toNat * 60) 0 (by omega) (by omega))
  unfold datetimeFromSmallDateTime
  simp only [hepoch, hadd, htime, Option.bind_eq_bind, Option.bind_some]
  exact rfl

end Chrono

namespace Jiff
variable {jiff : Jiff}

/-- The crate's timestamps end two hours before the last day of its dates begins in the west. -/
structure Bounded (jiff : Jiff) : Prop where
  toZonedUtc_isSome (date : jiff.Date) (time : jiff.Time) : (jiff.toZonedUtc (date, time)).isSome ↔
    -377705023201000000000 ≤ unixNanos (jiff.civil date).dayNumber (jiff.clock time).nanos ∧
      unixNanos (jiff.civil date).dayNumber (jiff.clock time).nanos ≤ 253402207200999999999

theorem calendar_bounded : calendar.Bounded where
  toZonedUtc_isSome date time := by
    simp only [calendar, id]
    split
    · simp
      omega
    · simp
      omega

theorem exists_dateFromDays (hg : jiff.Gregorian) {days : UInt32} (h : days.toNat ≤ 3652058) :
    ∃ date, jiff.dateFromDays days = some date ∧ (jiff.civil date).dayNumber = days.toNat := by
  obtain ⟨hfirst, hlast⟩ := ofDayNumber_year_mem (n := days.toNat) (by omega) (by unfold lastDay; omega)
  obtain ⟨date, hdate⟩ := hg.exists_date (Civil.ofDayNumber days.toNat) (by omega) hlast
  have hday : (jiff.civil date).dayNumber = days.toNat := hdate ▸ Civil.dayNumber_ofDayNumber _
  refine ⟨date, ?_, hday⟩
  rw [dateFromDays, dateFromUnixDays_eq_some hg, sub_add_cancel, hday]

theorem exists_timeFromNanos (hg : jiff.Gregorian) {nanos : ℕ} (h : nanos < 86400000000000) :
    ∃ time, jiff.timeFromNanos nanos = some time ∧ (jiff.clock time).nanos = nanos := by
  obtain ⟨time, htime⟩ := hg.exists_time (TimeOfDay.ofNanos nanos h)
  have hclock : (jiff.clock time).nanos = nanos := by rw [htime, TimeOfDay.nanos_ofNanos]
  exact ⟨time, (timeFromNanos_eq_some hg).mpr hclock, hclock⟩

theorem exists_civilFromDatetime2 (hg : jiff.Gregorian) {value : SqlDateTime2} (hv : value.InRange) :
    ∃ date time, jiff.civilFromDatetime2 value = some (date, time) ∧
      unixNanos (jiff.civil date).dayNumber (jiff.clock time).nanos = value.unixNanos := by
  obtain ⟨date, hdate, hday⟩ := exists_dateFromDays hg hv.1
  obtain ⟨time, htime, hclock⟩ := exists_timeFromNanos hg (mul_hundred_lt_of_lt hv.2)
  refine ⟨date, time, ?_, ?_⟩
  · simp only [civilFromDatetime2, ticksToNanos_of_lt hv.2, hdate, htime, Option.bind_eq_bind,
      Option.bind_some]
    exact hg.dateTimeNew_eq date time
  · rw [hday, hclock]
    exact rfl

theorem timestampFromDatetime2_isSome_iff (hg : jiff.Gregorian) (hb : jiff.Bounded) {value : SqlDateTime2}
    (hv : value.InRange) :
    (jiff.timestampFromDatetime2 value).isSome ↔ value.unixNanos ≤ 253402207200999999999 := by
  obtain ⟨date, time, hcivil, hnanos⟩ := exists_civilFromDatetime2 hg hv
  have hrun : jiff.timestampFromDatetime2 value = jiff.toZonedUtc (date, time) := by
    simp only [timestampFromDatetime2, hcivil]
    exact rfl
  rw [hrun, hb.toZonedUtc_isSome, hnanos]
  -- the server's first date is far from the first timestamp
  have hfirst : -62135596800000000000 ≤ value.unixNanos := by
    unfold SqlDateTime2.unixNanos unixNanos daysFromYearOneToEpoch nanosPerDay
    omega
  omega

end Jiff

section Shapes
variable {ty : MssqlTypeInfo} {value : ColumnValues}

theorem exists_date_of_holds (hv : ty.Holds value) (hty : ty.acceptsDateData) : ∃ v, value = .date v := by
  unfold MssqlTypeInfo.acceptsDateData at hty
  cases value <;> simp_all [MssqlTypeInfo.Holds, MssqlTypeInfo.HoldsFixed, MssqlTypeInfo.HoldsVariant,
    MssqlTypeInfo.Is, MssqlTypeInfo.HoldsCharacters, MssqlTypeInfo.HoldsBytes]

theorem exists_time_of_holds (hv : ty.Holds value) (hty : ty.acceptsTimeData) : ∃ v, value = .time v := by
  unfold MssqlTypeInfo.acceptsTimeData at hty
  cases value <;> simp_all [MssqlTypeInfo.Holds, MssqlTypeInfo.HoldsFixed, MssqlTypeInfo.HoldsVariant,
    MssqlTypeInfo.Is, MssqlTypeInfo.HoldsCharacters, MssqlTypeInfo.HoldsBytes]

theorem exists_datetime_of_holds (hv : ty.Holds value) (hty : ty.acceptsNaiveDatetimeData) :
    (∃ v, value = .dateTime v) ∨ (∃ v, value = .smallDateTime v) ∨ ∃ v, value = .dateTime2 v := by
  unfold MssqlTypeInfo.acceptsNaiveDatetimeData at hty
  simp only [decide_eq_true_eq, List.mem_cons, List.not_mem_nil, or_false] at hty
  rcases hty with h | h | h | h <;> cases value <;>
    simp_all [MssqlTypeInfo.Holds, MssqlTypeInfo.HoldsFixed, MssqlTypeInfo.HoldsVariant,
      MssqlTypeInfo.Is, MssqlTypeInfo.HoldsCharacters, MssqlTypeInfo.HoldsBytes]

theorem exists_offset_of_holds (hv : ty.Holds value) (hty : ty.acceptsDatetimeoffsetData) :
    ∃ v, value = .dateTimeOffset v ∧ -840 ≤ v.offset.toInt ∧ v.offset.toInt ≤ 840 := by
  unfold MssqlTypeInfo.acceptsDatetimeoffsetData at hty
  cases value <;> simp_all [MssqlTypeInfo.Holds, MssqlTypeInfo.HoldsFixed, MssqlTypeInfo.HoldsVariant,
    MssqlTypeInfo.Is, MssqlTypeInfo.HoldsCharacters, MssqlTypeInfo.HoldsBytes]

end Shapes

section Claimed
variable (tds : TdsValues) (chrono : Chrono) (jiff : Jiff) (crate : TimeCrate)

/-- `Decode::decode` returns a value. -/
def TemporalType.Decodes (value : ColumnValues) : TemporalType → Prop
  | chronoNaiveDate => ∃ v : chrono.NaiveDate, Chrono.decodeNaiveDate tds value = .ok v
  | chronoNaiveTime => ∃ v : chrono.NaiveTime, Chrono.decodeNaiveTime tds value = .ok v
  | chronoNaiveDateTime => ∃ v : chrono.NaiveDateTime, Chrono.decodeNaiveDateTime tds value = .ok v
  | chronoDateTimeUtc => ∃ v : chrono.DateTimeUtc, Chrono.decodeDateTimeUtc tds value = .ok v
  | jiffDate => ∃ v : jiff.Date, Jiff.decodeDate tds value = .ok v
  | jiffTime => ∃ v : jiff.Time, Jiff.decodeTime tds value = .ok v
  | jiffDateTime => ∃ v : jiff.DateTime, Jiff.decodeDateTime tds value = .ok v
  | jiffTimestamp => ∃ v : jiff.Timestamp, Jiff.decodeTimestamp tds value = .ok v
  | timeDate => ∃ v : crate.Date, TimeCrate.decodeDate tds value = .ok v
  | timeTime => ∃ v : crate.Time, TimeCrate.decodeTime tds value = .ok v
  | timePrimitiveDateTime => ∃ v : crate.PrimitiveDateTime, TimeCrate.decodePrimitiveDateTime tds value = .ok v
  | timeOffsetDateTime => ∃ v : crate.OffsetDateTime, TimeCrate.decodeOffsetDateTime tds value = .ok v

variable {chrono jiff crate} {ty : MssqlTypeInfo} {value : ColumnValues}

theorem decodes_date_iff (hcg : chrono.Gregorian) (hjg : jiff.Gregorian) (htg : crate.Gregorian)
    {type : TemporalType} (htype : type ∈ [.chronoNaiveDate, .jiffDate, .timeDate]) {v : SqlDate}
    (hr : (ColumnValues.date v).InTemporalRange) :
    type.Decodes tds chrono jiff crate (.date v) ↔ type.Reads (.date v) := by
  simp only [List.mem_cons, List.not_mem_nil, or_false] at htype
  rcases htype with rfl | rfl | rfl
  · simp only [TemporalType.Decodes, Chrono.decodeNaiveDate, exists_okOrElse_eq_ok,
      Chrono.dateFromDays_isSome_iff hcg hr]
    simp [TemporalType.Reads, TemporalType.OfChrono, ColumnValues.IsLegacy, ColumnValues.FromEpoch,
      ColumnValues.ByLastTimestamp]
  · obtain ⟨date, hdate, -⟩ := Jiff.exists_dateFromDays hjg hr
    simp [TemporalType.Decodes, Jiff.decodeDate, hdate, TemporalType.Reads, TemporalType.OfChrono,
      ColumnValues.IsLegacy]
  · obtain ⟨date, hdate, -⟩ := TimeCrate.exists_dateFromDays htg hr
    simp [TemporalType.Decodes, TimeCrate.decodeDate, hdate, TemporalType.Reads, TemporalType.OfChrono,
      ColumnValues.IsLegacy]

theorem decodes_time_iff (hck : chrono.Clock) (hjg : jiff.Gregorian) (htg : crate.Gregorian)
    {type : TemporalType} (htype : type ∈ [.chronoNaiveTime, .jiffTime, .timeTime]) {v : SqlTime}
    (hr : (ColumnValues.time v).InTemporalRange) :
    type.Decodes tds chrono jiff crate (.time v) ↔ type.Reads (.time v) := by
  have hticks : v.timeNanoseconds.toNat < 864000000000 := hr
  have hnanos := mul_hundred_lt_of_lt hticks
  rw [← ticksToNanos_of_lt hticks] at hnanos
  refine iff_of_true ?_ ?_
  · simp only [List.mem_cons, List.not_mem_nil, or_false] at htype
    rcases htype with rfl | rfl | rfl
    · obtain ⟨time, htime, -⟩ := Chrono.exists_timeFromNanos hck hnanos
      simp only [TemporalType.Decodes, Chrono.decodeNaiveTime, exists_okOrElse_eq_ok, htime, Option.isSome_some]
    · obtain ⟨time, htime, -⟩ := Jiff.exists_timeFromNanos hjg hnanos
      simp only [TemporalType.Decodes, Jiff.decodeTime, exists_okOrElse_eq_ok, htime, Option.isSome_some]
    · obtain ⟨time, htime, -⟩ := TimeCrate.exists_timeFromNanos htg hnanos
      simp only [TemporalType.Decodes, TimeCrate.decodeTime, exists_okOrElse_eq_ok, htime, Option.isSome_some]
  · simp [TemporalType.Reads, ColumnValues.IsLegacy, ColumnValues.FromEpoch, ColumnValues.ByLastTimestamp]

theorem decodes_legacy_iff (hcg : chrono.Gregorian) (hck : chrono.Clock) {type : TemporalType}
    (hr : value.InTemporalRange) (hv : value.IsLegacy)
    (htype : type ∈ [.chronoNaiveDateTime, .chronoDateTimeUtc, .jiffDateTime, .jiffTimestamp,
      .timePrimitiveDateTime, .timeOffsetDateTime]) :
    type.Decodes tds chrono jiff crate value ↔ type.Reads value := by
  have hreads : type.Reads value ↔ type.OfChrono := by
    cases value with
    | dateTime v | smallDateTime v =>
      simp [TemporalType.Reads, ColumnValues.IsLegacy, ColumnValues.FromEpoch, ColumnValues.ByLastTimestamp]
    | _ => exact hv.elim
  rw [hreads]
  have hread : (∃ naive : chrono.NaiveDateTime, Chrono.decodeNaiveDateTime tds value = .ok naive) ∧
      ∃ v : chrono.DateTimeUtc, Chrono.decodeDateTimeUtc tds value = .ok v := by
    cases value with
    | dateTime v =>
      simp only [Chrono.decodeNaiveDateTime, Chrono.decodeDateTimeUtc, exists_okOrElse_eq_ok,
        Option.isSome_map, Chrono.isSome_datetimeFromSqlDateTime hcg hck hr, and_self]
    | smallDateTime v =>
      simp only [Chrono.decodeNaiveDateTime, Chrono.decodeDateTimeUtc, exists_okOrElse_eq_ok,
        Option.isSome_map, Chrono.isSome_datetimeFromSmallDateTime hcg hck hr, and_self]
    | _ => exact hv.elim
  have hother : ∀ (α : Type) (name : String), ¬ ∃ a : α, cannotDecode tds value name = .ok a :=
    fun _ name => cannotDecode_ne_ok tds value name
  simp only [List.mem_cons, List.not_mem_nil, or_false] at htype
  rcases htype with rfl | rfl | rfl | rfl | rfl | rfl
  · exact iff_of_true hread.1 (by decide)
  · exact iff_of_true hread.2 (by decide)
  all_goals
    refine iff_of_false ?_ (by decide)
    cases value with
    | dateTime v => exact hother _ _
    | smallDateTime v => exact hother _ _
    | _ => exact hv.elim

theorem decodes_datetime2_iff (hcg : chrono.Gregorian) (hck : chrono.Clock) (hjg : jiff.Gregorian)
    (hjb : jiff.Bounded) (htg : crate.Gregorian) {type : TemporalType} {v : SqlDateTime2} (hr : v.InRange)
    (htype : type ∈ [.chronoNaiveDateTime, .chronoDateTimeUtc, .jiffDateTime, .jiffTimestamp,
      .timePrimitiveDateTime, .timeOffsetDateTime]) :
    type.Decodes tds chrono jiff crate (.dateTime2 v) ↔ type.Reads (.dateTime2 v) := by
  obtain ⟨date, time, hcivil, -⟩ := Jiff.exists_civilFromDatetime2 hjg hr
  obtain ⟨day, clock, hprimitive, -⟩ := TimeCrate.exists_primitive htg hr
  simp only [List.mem_cons, List.not_mem_nil, or_false] at htype
  rcases htype with rfl | rfl | rfl | rfl | rfl | rfl
  · simp only [TemporalType.Decodes, Chrono.decodeNaiveDateTime, exists_okOrElse_eq_ok,
      Chrono.naiveFromDatetime2_isSome_iff hcg hck hr]
    simp [TemporalType.Reads, TemporalType.OfChrono, ColumnValues.IsLegacy, ColumnValues.FromEpoch,
      ColumnValues.ByLastTimestamp]
  · simp only [TemporalType.Decodes, Chrono.decodeDateTimeUtc, exists_okOrElse_eq_ok, Option.isSome_map,
      Chrono.naiveFromDatetime2_isSome_iff hcg hck hr]
    simp [TemporalType.Reads, TemporalType.OfChrono, ColumnValues.IsLegacy, ColumnValues.FromEpoch,
      ColumnValues.ByLastTimestamp]
  · simp [TemporalType.Decodes, Jiff.decodeDateTime, hcivil, TemporalType.Reads, TemporalType.OfChrono,
      ColumnValues.IsLegacy]
  · simp only [TemporalType.Decodes, Jiff.decodeTimestamp, exists_okOrElse_eq_ok,
      Jiff.timestampFromDatetime2_isSome_iff hjg hjb hr]
    simp [TemporalType.Reads, TemporalType.OfChrono, ColumnValues.IsLegacy, ColumnValues.FromEpoch,
      ColumnValues.ByLastTimestamp]
  · simp [TemporalType.Decodes, TimeCrate.decodePrimitiveDateTime, hprimitive, TemporalType.Reads,
      TemporalType.OfChrono, ColumnValues.IsLegacy]
  · simp [TemporalType.Decodes, TimeCrate.decodeOffsetDateTime, hprimitive, TemporalType.Reads,
      TemporalType.OfChrono, ColumnValues.IsLegacy]

theorem decodes_offset_iff (hcg : chrono.Gregorian) (hck : chrono.Clock) (hjg : jiff.Gregorian)
    (hjb : jiff.Bounded) (htg : crate.Gregorian) (hto : crate.Offsets) {type : TemporalType}
    {v : SqlDateTimeOffset} (hr : v.datetime2.InRange)
    (hoffset : -840 ≤ v.offset.toInt ∧ v.offset.toInt ≤ 840)
    (htype : type ∈ [.chronoDateTimeUtc, .jiffTimestamp, .timeOffsetDateTime]) :
    type.Decodes tds chrono jiff crate (.dateTimeOffset v) ↔ type.Reads (.dateTimeOffset v) := by
  obtain ⟨read, hread, -⟩ := TimeCrate.exists_offsetDateTime htg hto tds hr hoffset
  simp only [List.mem_cons, List.not_mem_nil, or_false] at htype
  rcases htype with rfl | rfl | rfl
  · simp only [TemporalType.Decodes, Chrono.decodeDateTimeUtc, exists_okOrElse_eq_ok, Option.isSome_map,
      Chrono.naiveFromDatetime2_isSome_iff hcg hck hr]
    simp [TemporalType.Reads, TemporalType.OfChrono, ColumnValues.IsLegacy, ColumnValues.FromEpoch,
      ColumnValues.ByLastTimestamp]
  · simp only [TemporalType.Decodes, Jiff.decodeTimestamp, exists_okOrElse_eq_ok,
      Jiff.timestampFromDatetime2_isSome_iff hjg hjb hr]
    simp [TemporalType.Reads, TemporalType.OfChrono, ColumnValues.IsLegacy, ColumnValues.FromEpoch,
      ColumnValues.ByLastTimestamp]
  · refine iff_of_true ⟨read, hread⟩ ?_
    simp [TemporalType.Reads, TemporalType.OfChrono, ColumnValues.IsLegacy]

theorem decodes_iff (hcg : chrono.Gregorian) (hck : chrono.Clock) (hjg : jiff.Gregorian)
    (hjb : jiff.Bounded) (htg : crate.Gregorian) (hto : crate.Offsets) {type : TemporalType}
    (hty : type.compatible ty) (hv : ty.Holds value) (hr : value.InTemporalRange) :
    type.Decodes tds chrono jiff crate value ↔ type.Reads value := by
  have hdatetime (h : ty.acceptsNaiveDatetimeData)
      (htype : type ∈ [.chronoNaiveDateTime, .chronoDateTimeUtc, .jiffDateTime, .jiffTimestamp,
        .timePrimitiveDateTime, .timeOffsetDateTime]) :
      type.Decodes tds chrono jiff crate value ↔ type.Reads value := by
    obtain ⟨v, rfl⟩ | ⟨v, rfl⟩ | ⟨v, rfl⟩ := exists_datetime_of_holds hv h
    · exact decodes_legacy_iff tds hcg hck hr trivial htype
    · exact decodes_legacy_iff tds hcg hck hr trivial htype
    · exact decodes_datetime2_iff tds hcg hck hjg hjb htg hr htype
  cases type with
  | chronoNaiveDate | jiffDate | timeDate =>
    obtain ⟨v, rfl⟩ := exists_date_of_holds hv hty
    exact decodes_date_iff tds hcg hjg htg (by decide) hr
  | chronoNaiveTime | jiffTime | timeTime =>
    obtain ⟨v, rfl⟩ := exists_time_of_holds hv hty
    exact decodes_time_iff tds hck hjg htg (by decide) hr
  | chronoNaiveDateTime | jiffDateTime | timePrimitiveDateTime => exact hdatetime hty (by decide)
  | chronoDateTimeUtc | jiffTimestamp | timeOffsetDateTime =>
    rcases Bool.or_eq_true_iff.mp hty with h | h
    · exact hdatetime h (by decide)
    · obtain ⟨v, rfl, hoffset⟩ := exists_offset_of_holds hv h
      exact decodes_offset_iff tds hcg hck hjg hjb htg hto hr hoffset (by decide)

/-- Beside the legacy values of the other libraries and the early dates of `chrono`, every
type decodes what it claims, and a timestamp of `jiff` what it can represent. -/
theorem claimed_decodes_iff (hcg : chrono.Gregorian) (hck : chrono.Clock) (hjg : jiff.Gregorian)
    (hjb : jiff.Bounded) (htg : crate.Gregorian) (hto : crate.Offsets) {type : TemporalType}
    (hty : type.compatible ty) (hv : ty.Holds value) (hr : value.InTemporalRange)
    (hlegacy : value.IsLegacy → type.OfChrono) (hepoch : type.OfChrono → value.FromEpoch) :
    type.Decodes tds chrono jiff crate value ↔ (type = .jiffTimestamp → value.ByLastTimestamp) := by
  rw [decodes_iff tds hcg hck hjg hjb htg hto hty hv hr]
  exact ⟨fun h => h.2.2, fun h => ⟨hlegacy, hepoch, h⟩⟩

theorem autumnMorning_decodes : TemporalType.jiffTimestamp.Decodes TdsValues.checked .calendar .calendar
    .calendar (.dateTimeOffset (autumnMorning 120)) := by
  have hholds : MssqlTypeInfo.datetimeoffset.Holds (.dateTimeOffset (autumnMorning 120)) :=
    Or.inl ⟨by decide, by decide, by decide⟩
  have hrange : (ColumnValues.dateTimeOffset (autumnMorning 120)).InTemporalRange :=
    ⟨by decide, by decide⟩
  have hchrono (h : TemporalType.jiffTimestamp.OfChrono) :
      (ColumnValues.dateTimeOffset (autumnMorning 120)).FromEpoch := absurd h (by decide)
  have hlast : (autumnMorning 120).datetime2.unixNanos ≤ 253402207200999999999 := by decide
  exact (claimed_decodes_iff TdsValues.checked Chrono.calendar_gregorian Chrono.calendar_clock
    Jiff.calendar_gregorian Jiff.calendar_bounded TimeCrate.calendar_gregorian TimeCrate.calendar_offsets
    (by decide) hholds hrange False.elim hchrono).mpr fun _ => hlast

/-- The midnight that begins 9999-12-31. -/
def lastMidnight : SqlDateTime2 := ⟨3652058, 0, 7⟩

theorem lastMidnight_not_timestamp :
    TemporalType.jiffTimestamp.compatible .datetime2 ∧ MssqlTypeInfo.datetime2.Holds (.dateTime2 lastMidnight) ∧
      (ColumnValues.dateTime2 lastMidnight).InTemporalRange ∧
      ¬ TemporalType.jiffTimestamp.Decodes TdsValues.checked .calendar .calendar .calendar
        (.dateTime2 lastMidnight) := by
  have hholds : MssqlTypeInfo.datetime2.Holds (.dateTime2 lastMidnight) := Or.inl (by decide : _ = some _)
  have hrange : (ColumnValues.dateTime2 lastMidnight).InTemporalRange := ⟨by decide, by decide⟩
  refine ⟨by decide, hholds, hrange, ?_⟩
  rw [decodes_iff TdsValues.checked Chrono.calendar_gregorian Chrono.calendar_clock
    Jiff.calendar_gregorian Jiff.calendar_bounded TimeCrate.calendar_gregorian TimeCrate.calendar_offsets
    (by decide) hholds hrange]
  rintro ⟨-, -, h⟩
  have hlast : lastMidnight.unixNanos ≤ 253402207200999999999 := h rfl
  revert hlast
  decide

end Claimed

end SqlxMssql
