import SqlxMssql.Temporal.SameInstant

/-! # Times of day

A time of day is stored in ticks of 100 nanoseconds. Two of the integrations take it apart
with the same arithmetic, in 64 bits.
-/
namespace SqlxMssql
open Utf8 ProlepticCalendar

/-- The `u64` values that `nanos_from_time` computes, in their order. -/
def encodeSteps (clock : TimeOfDay) : List ℕ :=
  [clock.hour * secondsPerHour, clock.minute * secondsPerMinute,
    clock.hour * secondsPerHour + clock.minute * secondsPerMinute,
    clock.hour * secondsPerHour + clock.minute * secondsPerMinute + clock.second,
    (clock.hour * secondsPerHour + clock.minute * secondsPerMinute + clock.second) * nanosPerSecond,
    (clock.hour * secondsPerHour + clock.minute * secondsPerMinute + clock.second) * nanosPerSecond +
      clock.nanosecond]

theorem nanos_eq_steps (clock : TimeOfDay) :
    (clock.hour * secondsPerHour + clock.minute * secondsPerMinute + clock.second) * nanosPerSecond +
      clock.nanosecond = clock.nanos := by
  unfold TimeOfDay.nanos secondsPerHour secondsPerMinute nanosPerSecond
  omega

/-- The ticks of a time of day. -/
def ticksOf (clock : TimeOfDay) : UInt64 := UInt64.ofNat (clock.nanos / 100)

/-- The conversions of a library lose nothing but what lies below the resolution. -/
structure Lossless {Time : Type} (clock : Time → TimeOfDay) (encode : Time → Option SqlTime)
    (decode : UInt64 → Option Time) : Prop where
  encodes (time : Time) : ∃ value, encode time = some value ∧ value.scale = 7 ∧
    value.timeNanoseconds.toNat = (clock time).nanos / 100
  decode_encode (time : Time) (value : SqlTime) : encode time = some value →
    ∃ time', decode value.timeNanoseconds = some time' ∧ clock time' = (clock time).truncate 100
  ordered (time time' : Time) (value value' : SqlTime) : encode time = some value → encode time' = some value' →
    (clock time).Before (clock time') → value.timeNanoseconds ≤ value'.timeNanoseconds
  decode_iff (ticks : UInt64) : (∃ time, decode ticks = some time) ↔ ticks.toNat < 864000000000
  encode_decode (ticks : UInt64) (time : Time) : decode ticks = some time → encode time = some ⟨ticks, 7⟩
  no_overflow (time : Time) : ∀ step ∈ encodeSteps (clock time), step < 18446744073709551616
  /-- The remainders fit every type that they are narrowed to, whatever the product is. -/
  remainders_fit (ticks : UInt64) : ticksToNanos ticks % nanosPerSecond < 2147483648 ∧
    ticksToNanos ticks / nanosPerSecond % secondsPerHour / secondsPerMinute < 128 ∧
    ticksToNanos ticks / nanosPerSecond % secondsPerMinute < 128

section General
variable {Time : Type} {clock : Time → TimeOfDay} {encode : Time → Option SqlTime} {decode : UInt64 → Option Time}

theorem toNat_ticksOf (t : TimeOfDay) : (ticksOf t).toNat = t.nanos / 100 := by
  have hlt : t.nanos / 100 < 864000000000 := Nat.div_lt_of_lt_mul t.nanos_lt
  exact UInt64.toNat_ofNat_of_lt' (hlt.trans (by decide))

/-- The saturated product is beyond the end of the day as well. -/
theorem ticksToNanos_lt_iff (ticks : UInt64) : ticksToNanos ticks < 86400000000000 ↔ ticks.toNat < 864000000000 := by
  unfold ticksToNanos
  omega

theorem ticksToNanos_ticksOf (t : TimeOfDay) : ticksToNanos (ticksOf t) = (t.truncate 100).nanos := by
  have hlt := t.nanos_lt
  rw [TimeOfDay.nanos_truncate (by decide), ticksToNanos_of_lt, toNat_ticksOf]
  rw [toNat_ticksOf]
  omega

theorem ticksOf_of_nanos {t : TimeOfDay} {ticks : UInt64} (h : t.nanos = ticksToNanos ticks) : ticksOf t = ticks := by
  have hlt := t.nanos_lt
  rw [h, ticksToNanos_lt_iff] at hlt
  apply UInt64.toNat_inj.mp
  rw [toNat_ticksOf, h, ticksToNanos_of_lt hlt]
  omega

theorem encodeSteps_fit (t : TimeOfDay) : ∀ step ∈ encodeSteps t, step < 18446744073709551616 := by
  have hhour := t.hour_lt
  have hminute := t.minute_lt
  have hsecond := t.second_lt
  have hnano := t.nanosecond_lt
  unfold encodeSteps nanosPerSecond secondsPerHour secondsPerMinute
  simp only [List.forall_mem_cons]
  refine ⟨by omega, by omega, by omega, by omega, by omega, by omega, nofun⟩

/-- What the two functions of a library compute decides all the rest. -/
theorem lossless_of (hclock : ∀ t, ∃ time, clock time = t) (hencode : ∀ time, encode time = some ⟨ticksOf (clock time), 7⟩)
    (hdecode : ∀ ticks time, decode ticks = some time ↔ (clock time).nanos = ticksToNanos ticks) :
    Lossless clock encode decode where
  encodes time := ⟨_, hencode time, rfl, toNat_ticksOf _⟩
  decode_encode time value h := by
    rw [hencode] at h
    cases h
    obtain ⟨time', htime'⟩ := hclock ((clock time).truncate 100)
    refine ⟨time', (hdecode _ _).mpr ?_, htime'⟩
    rw [ticksToNanos_ticksOf, htime']
  ordered time time' value value' h h' hbefore := by
    rw [hencode] at h h'
    cases h
    cases h'
    rw [UInt64.le_iff_toNat_le, toNat_ticksOf, toNat_ticksOf]
    exact Nat.div_le_div_right (le_of_lt ((TimeOfDay.nanos_lt_iff _ _).mpr hbefore))
  decode_iff ticks := by
    simp only [hdecode]
    rw [← ticksToNanos_lt_iff]
    constructor
    · rintro ⟨time, htime⟩
      rw [← htime]
      exact TimeOfDay.nanos_lt _
    · intro hlt
      obtain ⟨time, htime⟩ := hclock (TimeOfDay.ofNanos _ hlt)
      exact ⟨time, by rw [htime, TimeOfDay.nanos_ofNanos]⟩
  encode_decode ticks time h := by
    rw [hencode, ticksOf_of_nanos ((hdecode _ _).mp h)]
  no_overflow time := encodeSteps_fit (clock time)
  remainders_fit ticks := by
    unfold nanosPerSecond secondsPerHour secondsPerMinute
    omega

end General

theorem Jiff.sqlTimeFromTime_eq (jiff : Jiff) (time : jiff.Time) :
    jiff.sqlTimeFromTime time = some ⟨ticksOf (jiff.clock time), 7⟩ := by
  have hnanos : jiff.nanosFromTime time = some (jiff.clock time).nanos := by
    rw [← nanos_eq_steps]
    rfl
  rw [sqlTimeFromTime, hnanos]
  rfl

theorem TimeCrate.sqlTimeFromTime_eq (crate : TimeCrate) (time : crate.Time) :
    crate.sqlTimeFromTime time = ⟨ticksOf (crate.clock time), 7⟩ := by
  have hnanos : crate.nanosFromTime time = (crate.clock time).nanos := nanos_eq_steps _
  rw [sqlTimeFromTime, hnanos]
  rfl

theorem times_lossless {jiff : Jiff} {crate : TimeCrate} (hjiff : jiff.Gregorian) (hcrate : crate.Gregorian) :
    Lossless jiff.clock jiff.sqlTimeFromTime (fun ticks => jiff.timeFromNanos (ticksToNanos ticks)) ∧
      Lossless crate.clock (fun time => some (crate.sqlTimeFromTime time))
        (fun ticks => crate.timeFromNanos (ticksToNanos ticks)) := by
  constructor
  · exact lossless_of hjiff.exists_time jiff.sqlTimeFromTime_eq fun _ _ => Jiff.timeFromNanos_eq_some hjiff
  · apply lossless_of hcrate.exists_time
    · intro time
      rw [crate.sqlTimeFromTime_eq]
    · exact fun _ _ => TimeCrate.timeFromNanos_eq_some hcrate

theorem calendar_times_lossless :
    Lossless Jiff.calendar.clock Jiff.calendar.sqlTimeFromTime
        (fun ticks => Jiff.calendar.timeFromNanos (ticksToNanos ticks)) ∧
      Lossless TimeCrate.calendar.clock (fun time => some (TimeCrate.calendar.sqlTimeFromTime time))
        (fun ticks => TimeCrate.calendar.timeFromNanos (ticksToNanos ticks)) :=
  times_lossless Jiff.calendar_gregorian TimeCrate.calendar_gregorian

end SqlxMssql
