import SqlxMssql.Spatial.Payload

/-! # What the reader reserves

Room for a table is reserved by the count in front of it, before any entry is read. The
payload backs every reservation exactly when no table in it is cut short.
-/
namespace SqlxMssql
open ByteFormats OffsetTables Utf8

/-- The unread rest of the payload can hold what is reserved. -/
def Reservation.Backed (r : Reservation) : Prop := r.count * r.entryBytes ≤ r.unread

instance (r : Reservation) : Decidable r.Backed := inferInstanceAs (Decidable (_ ≤ _))

/-- Behind each count that is there, all the entries are there. The tables are given by the
sizes of their entries. -/
def tablesWhole : List ℕ → List UInt8 → Prop
  | [], _ => True
  | entryBytes :: tables, bytes =>
    4 ≤ bytes.length →
      ofLeBytes (bytes.take 4) * entryBytes ≤ (bytes.drop 4).length ∧
        tablesWhole tables (bytes.drop (4 + ofLeBytes (bytes.take 4) * entryBytes))

/-- The points of a single point or line have no count. -/
def restWhole (properties : UInt8) (rest : List UInt8) : Prop :=
  if properties &&& propSinglePoint ≠ 0 then 16 ≤ rest.length
  else if properties &&& propSingleLine ≠ 0 then 32 ≤ rest.length
  else tablesWhole [16, 5, 9] rest

/-- The payload is refused before its tables, or none of them is cut short. -/
def payloadWhole (bytes : List UInt8) : Prop :=
  match bytes.drop 4 with
  | version :: properties :: rest => version = 1 → properties &&& (propZ ||| propM) = 0 → restWhole properties rest
  | _ => True

section Widths

theorem fixedWidth_take (count : ℕ) : FixedWidth (Reader.take count) count := by
  intro c hposition hc
  unfold Reader.take
  dsimp only
  rw [if_pos hc, getRange]
  split
  · rw [if_pos ⟨Nat.le_add_right _ _, by assumption⟩]
    exact ⟨_, rfl⟩
  · rw [if_neg (fun h => by omega)]
    exact ⟨_, _, rfl, rfl⟩

theorem fixedWidth_u8 : FixedWidth Reader.u8 1 := (fixedWidth_take 1).map _
theorem fixedWidth_i32 : FixedWidth Reader.i32 4 := (fixedWidth_take 4).map _
theorem fixedWidth_u32 : FixedWidth Reader.u32 4 := (fixedWidth_take 4).map _
theorem fixedWidth_f64 : FixedWidth Reader.f64 8 := (fixedWidth_take 8).map _

theorem fixedWidth_coord : FixedWidth Reader.coord 16 := fixedWidth_f64.bind fun x => fixedWidth_f64.map (Coord.mk x)

theorem fixedWidth_figure : FixedWidth Reader.figure 5 :=
  fixedWidth_u8.bind fun attr => fixedWidth_u32.map (Figure.mk attr)

theorem fixedWidth_shape : FixedWidth Reader.shape 9 :=
  fixedWidth_i32.bind fun parent => fixedWidth_i32.bind fun figureOffset =>
    fixedWidth_u8.map (Shape.mk parent figureOffset)

theorem take_ok {c : Cursor Reservation} {count : ℕ} (hc : c.position + count < 18446744073709551616)
    (hle : c.position + count ≤ c.bytes.length) :
    Reader.take count c = (.ok ((c.bytes.drop c.position).take count), { c with position := c.position + count }) := by
  unfold Reader.take
  dsimp only
  rw [if_pos hc, getRange, if_pos ⟨Nat.le_add_right _ _, hle⟩, Nat.add_sub_cancel_left]

theorem ofLeBytes_lt (bytes : List UInt8) : ofLeBytes bytes < 256 ^ bytes.length := by
  induction bytes with
  | nil => exact Nat.one_pos
  | cons b bs ih =>
    have hb := b.toNat_lt
    rw [ofLeBytes, List.length_cons, Nat.pow_succ]
    omega

theorem count_ok {c : Cursor Reservation} (hc : c.position + 4 < 18446744073709551616)
    (hle : c.position + 4 ≤ c.bytes.length) :
    (do return (← Reader.u32).toNat : Reader ℕ) c =
      (.ok (ofLeBytes ((c.bytes.drop c.position).take 4)), { c with position := c.position + 4 }) := by
  have hlt : ofLeBytes ((c.bytes.drop c.position).take 4) < 4294967296 := by
    have hbound := ofLeBytes_lt ((c.bytes.drop c.position).take 4)
    have hlength : ((c.bytes.drop c.position).take 4).length = 4 := by
      rw [List.length_take, List.length_drop]
      omega
    rwa [hlength] at hbound
  have hu32 : Reader.u32 c = (.ok (UInt32.ofNat (ofLeBytes ((c.bytes.drop c.position).take 4))),
      { c with position := c.position + 4 }) := Reading.bind_ok (take_ok hc hle)
  rw [Reading.bind_ok hu32]
  change (Except.ok (UInt32.ofNat _).toNat, _) = _
  rw [UInt32.toNat_ofNat', Nat.mod_eq_of_lt (by omega)]

theorem count_short {c : Cursor Reservation} (hposition : c.position ≤ c.bytes.length)
    (hc : c.position + 4 < 18446744073709551616) (hlt : c.bytes.length < c.position + 4) :
    ∃ e d, (do return (← Reader.u32).toNat : Reader ℕ) c = (.error e, d) ∧ d.notes = c.notes :=
  (fixedWidth_u32.map UInt32.toNat).short hposition hc hlt

/-- The room is reserved in any case, and then the entries are read if they are there. -/
theorem entries_run {α : Type} {entry : Reader α} {width : ℕ} (hentry : FixedWidth entry width) (count : ℕ)
    {c : Cursor Reservation} (hposition : c.position ≤ c.bytes.length)
    (hc : c.position + count * width < 18446744073709551616) :
    if c.position + count * width ≤ c.bytes.length then
      ∃ as, Reader.entries width entry count c = (.ok as,
        ⟨c.bytes, c.position + count * width, c.notes ++ [⟨count, width, c.unread⟩]⟩)
    else ∃ e d, Reader.entries width entry count c = (.error e, d) ∧
      d.notes = c.notes ++ [⟨count, width, c.unread⟩] :=
  hentry.times count { c with notes := c.notes ++ [⟨count, width, c.unread⟩] } hposition hc

end Widths

section Judgement

/-- From its place on, the reader has all its reservations backed exactly when the tables that
it comes to are whole. The places of so many tables can be counted. -/
def ReservesFor {α : Type} (m : Reader α) (tables : List ℕ) : Prop :=
  ∀ c, c.position ≤ c.bytes.length → c.position + tables.length * 137438953472 < 18446744073709551616 →
    ((∀ r ∈ (m c).2.notes, r.Backed) ↔
      (∀ r ∈ c.notes, r.Backed) ∧ tablesWhole tables (c.bytes.drop c.position))

variable {α β γ : Type}

theorem reservesFor_pure (a : α) : ReservesFor (pure a) [] := fun _ _ _ => (and_iff_left trivial).symm

theorem ReservesFor.map {m : Reader α} {tables : List ℕ} (h : ReservesFor m tables) (f : α → β) :
    ReservesFor (do return f (← m)) tables := by
  intro c hposition hc
  rw [← h c hposition hc]
  rcases hm : m c with ⟨result, d⟩
  cases result with
  | ok a =>
    rw [Reading.bind_ok hm]
    rfl
  | error e => rw [Reading.bind_error hm]

theorem backed_of_nil {notes : List Reservation} (h : notes = []) : ∀ r ∈ notes, r.Backed := by
  rw [h]
  exact fun _ hr => absurd hr List.not_mem_nil

theorem backed_append {notes : List Reservation} {count width unread : ℕ} :
    (∀ r ∈ notes ++ [⟨count, width, unread⟩], r.Backed) ↔ (∀ r ∈ notes, r.Backed) ∧ count * width ≤ unread := by
  rw [List.forall_mem_append, List.forall_mem_singleton]
  rfl

/-- A table with its count in front of it. -/
theorem ReservesFor.table {entry : Reader α} {width : ℕ} (hentry : FixedWidth entry width) (hwidth : width ≤ 16)
    {next : List α → Reader β} {tables : List ℕ} (hnext : ∀ as, ReservesFor (next as) tables) :
    ReservesFor (do next (← Reader.entries width entry (← (do return (← Reader.u32).toNat)))) (width :: tables) := by
  intro c hposition hc
  rw [List.length_cons, Nat.succ_mul] at hc
  rw [tablesWhole, List.length_drop]
  by_cases hcount : c.position + 4 ≤ c.bytes.length
  · have hlt := ofLeBytes_lt ((c.bytes.drop c.position).take 4)
    rw [List.length_take, List.length_drop, Nat.min_eq_left (by omega)] at hlt
    rw [Reading.bind_ok (count_ok (by omega) hcount)]
    generalize ofLeBytes ((c.bytes.drop c.position).take 4) = count at hlt ⊢
    have hsize : count * width ≤ 68719476736 := Nat.mul_le_mul (Nat.le_of_lt hlt) hwidth
    have hrun := entries_run hentry count (c := { c with position := c.position + 4 }) hcount
      (by dsimp only; omega)
    have hunread : Cursor.unread { c with position := c.position + 4 } = c.bytes.length - (c.position + 4) := rfl
    rw [List.length_drop, List.length_drop, List.drop_drop, ← Nat.add_assoc]
    split at hrun
    · rename_i hfits
      obtain ⟨as, has⟩ := hrun
      rw [Reading.bind_ok has]
      have hlater := hnext as ⟨c.bytes, c.position + 4 + count * width,
        c.notes ++ [⟨count, width, c.bytes.length - (c.position + 4)⟩]⟩ hfits (by dsimp only; omega)
      rw [hunread, hlater, backed_append]
      dsimp only at hfits ⊢
      constructor
      · rintro ⟨⟨hnotes, -⟩, hwhole⟩
        exact ⟨hnotes, fun _ => ⟨by omega, hwhole⟩⟩
      · rintro ⟨hnotes, hwhole⟩
        exact ⟨⟨hnotes, by omega⟩, (hwhole (by omega)).2⟩
    · rename_i hfits
      obtain ⟨e, d, he, hd⟩ := hrun
      rw [Reading.bind_error he, hd, hunread, backed_append]
      dsimp only at hfits
      constructor
      · rintro ⟨-, hbacked⟩
        omega
      · rintro ⟨-, hwhole⟩
        have := (hwhole (by omega)).1
        omega
  · obtain ⟨e, d, he, hd⟩ := count_short hposition (by omega) (Nat.not_le.mp hcount)
    rw [Reading.bind_error he, hd]
    exact ⟨fun hnotes => ⟨hnotes, fun hlength => by omega⟩, fun h => h.1⟩

end Judgement

section Payload

theorem reservesFor_figuresAndShapes {properties : UInt8}
    (h : properties &&& (propSinglePoint ||| propSingleLine) = 0) :
    ReservesFor (Reader.figuresAndShapes properties) [5, 9] := by
  have hshapes (figures : List Figure) : ReservesFor (do
      let shapes ← Reader.entries 9 Reader.shape (← Reader.u32).toNat
      return (figures, shapes)) [9] := by
    have htable := ReservesFor.table fixedWidth_shape (by decide) fun shapes => reservesFor_pure (figures, shapes)
    rwa [Reading.map_bind] at htable
  have htable := ReservesFor.table fixedWidth_figure (by decide) hshapes
  rw [Reading.map_bind] at htable
  unfold Reader.figuresAndShapes
  rwa [if_neg (not_not.mpr h)]

theorem single_iff (properties : UInt8) : properties &&& (propSinglePoint ||| propSingleLine) = 0 ↔
    properties &&& propSinglePoint = 0 ∧ properties &&& propSingleLine = 0 := by
  have hdistrib : properties &&& (propSinglePoint ||| propSingleLine) =
      (properties &&& propSinglePoint) ||| (properties &&& propSingleLine) :=
    UInt8.toBitVec_inj.mp BitVec.and_or_distrib_left
  rw [hdistrib, UInt8.or_eq_zero_iff]

/-- The second half of the payload, behind the properties. -/
def Reader.tables (srid : Int32) (properties : UInt8) : Reader (Int32 × Tables) := do
  let points ← Reader.entries 16 Reader.coord (← Reader.pointCount properties)
  let (figures, shapes) ← Reader.figuresAndShapes properties
  return (srid, ⟨points, figures, shapes⟩)

/-- The payload behind its version. -/
def Reader.planar (measured : Text) (srid : Int32) : Reader (Int32 × Tables) := do
  let properties ← Reader.u8
  if properties &&& (propZ ||| propM) ≠ 0 then Reading.fail measured else Reader.tables srid properties

theorem payload_eq : ∃ (unsupported : UInt8 → Text) (measured : Text), Reader.payload =
    Reader.i32 >>= fun srid => Reader.u8 >>= fun version =>
      if version ≠ 1 then Reading.fail (unsupported version) else Reader.planar measured srid :=
  ⟨_, _, rfl⟩

theorem reservesFor_tables (srid : Int32) {properties : UInt8} (hpoint : properties &&& propSinglePoint = 0)
    (hline : properties &&& propSingleLine = 0) : ReservesFor (Reader.tables srid properties) [16, 5, 9] := by
  have htable := ReservesFor.table fixedWidth_coord (Nat.le_refl 16) fun points =>
    (reservesFor_figuresAndShapes ((single_iff properties).mpr ⟨hpoint, hline⟩)).map
      fun tail => (srid, (⟨points, tail.1, tail.2⟩ : Tables))
  unfold Reader.tables Reader.pointCount
  rwa [if_neg (not_not.mpr hpoint), if_neg (not_not.mpr hline)]

theorem backed_single (count : ℕ) (hcount : count ≤ 2) (srid : Int32) {properties : UInt8}
    (hpoints : Reader.pointCount properties = pure count)
    (hproperties : properties &&& (propSinglePoint ||| propSingleLine) ≠ 0) {c : Cursor Reservation}
    (hposition : c.position ≤ c.bytes.length) (hc : c.position + 32 < 18446744073709551616) (hnotes : c.notes = []) :
    (∀ r ∈ (Reader.tables srid properties c).2.notes, r.Backed) ↔ count * 16 ≤ (c.bytes.drop c.position).length := by
  have hrun := entries_run fixedWidth_coord count hposition (by omega)
  have hbacked : (∀ r ∈ c.notes ++ [⟨count, 16, c.unread⟩], r.Backed) ↔
      count * 16 ≤ (c.bytes.drop c.position).length := by
    rw [backed_append, hnotes, List.length_drop]
    exact and_iff_right fun _ h => absurd h List.not_mem_nil
  have htables : Reader.tables srid properties = do
      let points ← Reader.entries 16 Reader.coord count
      return (srid, ⟨points, [⟨figureStroke, 0⟩],
        [⟨-1, 0, if properties &&& propSinglePoint ≠ 0 then shapePoint else shapeLineString⟩]⟩) := by
    unfold Reader.tables Reader.figuresAndShapes
    rw [hpoints, if_pos hproperties]
    rfl
  rw [htables, ← hbacked]
  split at hrun
  · obtain ⟨as, has⟩ := hrun
    rw [Reading.bind_ok has]
    rfl
  · obtain ⟨e, d, he, hd⟩ := hrun
    rw [Reading.bind_error he, hd]

theorem tables_backed_iff (srid : Int32) (properties : UInt8) {bytes : List UInt8} (hsix : 6 ≤ bytes.length) :
    (∀ r ∈ (Reader.tables srid properties ⟨bytes, 6, []⟩).2.notes, r.Backed) ↔
      restWhole properties (bytes.drop 6) := by
  unfold restWhole
  split
  · rename_i hpoint
    refine backed_single 1 (by decide) srid (if_pos hpoint) (fun hzero => ?_) hsix (by dsimp only; omega) rfl
    exact hpoint ((single_iff properties).mp hzero).1
  · rename_i hpoint
    split
    · rename_i hline
      refine backed_single 2 (by decide) srid ((if_neg hpoint).trans (if_pos hline)) (fun hzero => ?_) hsix
        (by dsimp only; omega) rfl
      exact hline ((single_iff properties).mp hzero).2
    · rename_i hline
      rw [reservesFor_tables srid (not_not.mp hpoint) (not_not.mp hline) ⟨bytes, 6, []⟩ hsix (by simp)]
      exact and_iff_right fun _ h => absurd h List.not_mem_nil

theorem u8_cons {c : Cursor Reservation} {b : UInt8} {rest : List UInt8} (h : c.bytes.drop c.position = b :: rest)
    (hc : c.position + 1 < 18446744073709551616) :
    Reader.u8 c = (.ok b, { c with position := c.position + 1 }) ∧ c.position + 1 ≤ c.bytes.length ∧
      c.bytes.drop (c.position + 1) = rest := by
  have hle : c.position + 1 ≤ c.bytes.length := by
    have hlength := congrArg List.length h
    rw [List.length_drop, List.length_cons] at hlength
    omega
  refine ⟨?_, hle, ?_⟩
  · have hu8 : Reader.u8 c = (.ok (UInt8.ofNat (ofLeBytes ((c.bytes.drop c.position).take 1))),
        { c with position := c.position + 1 }) := Reading.bind_ok (take_ok hc hle)
    rw [hu8, h, List.take_succ_cons, List.take_zero, ofLeBytes, ofLeBytes, Nat.mul_zero, Nat.add_zero,
      UInt8.ofNat_toNat]
  · rw [← List.drop_drop, h, List.drop_succ_cons, List.drop_zero]

theorem u8_nil {c : Cursor Reservation} (hposition : c.position ≤ c.bytes.length)
    (h : c.bytes.drop c.position = []) (hc : c.position + 1 < 18446744073709551616) :
    ∃ e d, Reader.u8 c = (.error e, d) ∧ d.notes = c.notes :=
  fixedWidth_u8.short hposition hc (by have := List.drop_eq_nil_iff.mp h; omega)

theorem planar_backed_iff (measured : Text) (srid : Int32) {bytes : List UInt8} (hfive : 5 ≤ bytes.length) :
    (∀ r ∈ (Reader.planar measured srid ⟨bytes, 5, []⟩).2.notes, r.Backed) ↔
      match bytes.drop 5 with
      | properties :: rest => properties &&& (propZ ||| propM) = 0 → restWhole properties rest
      | [] => True := by
  unfold Reader.planar
  cases hproperties : bytes.drop 5 with
  | nil =>
    obtain ⟨e, d, he, hd⟩ := u8_nil (c := ⟨bytes, 5, []⟩) hfive hproperties (by dsimp only; omega)
    rw [Reading.bind_error he]
    exact iff_of_true (backed_of_nil hd) trivial
  | cons properties rest =>
    obtain ⟨hread, hsix, hrest⟩ := u8_cons (c := ⟨bytes, 5, []⟩) hproperties (by dsimp only; omega)
    rw [Reading.bind_ok hread]
    by_cases hplanar : properties &&& (propZ ||| propM) = 0
    · rw [if_neg (not_not.mpr hplanar), tables_backed_iff srid properties hsix, hrest]
      exact ⟨fun h _ => h, fun h => h hplanar⟩
    · rw [if_pos hplanar]
      exact iff_of_true (backed_of_nil rfl) fun h => absurd h hplanar

end Payload

/-- Every reservation is backed by the unread rest of the payload exactly when no table that
the reader comes to is cut short. -/
theorem reservations_backed_iff (bytes : List UInt8) :
    (∀ r ∈ (Reader.payload (.start bytes)).2.notes, r.Backed) ↔ payloadWhole bytes := by
  obtain ⟨unsupported, measured, hpayload⟩ := payload_eq
  unfold payloadWhole
  rw [hpayload]
  rcases Nat.lt_or_ge bytes.length 4 with hshort | hsrid
  · obtain ⟨e, d, he, hd⟩ := fixedWidth_i32.short (c := .start bytes) (Nat.zero_le _) (by simp [Cursor.start])
      (by simpa [Cursor.start] using hshort)
    rw [Reading.bind_error he, List.drop_eq_nil_of_le (Nat.le_of_lt hshort)]
    exact iff_of_true (backed_of_nil hd) trivial
  obtain ⟨srid, hread⟩ := fixedWidth_i32.enough (c := .start bytes) (by simp [Cursor.start])
    (by simpa [Cursor.start] using hsrid)
  have hi32 : Reader.i32 (.start bytes) = (.ok srid, ⟨bytes, 4, []⟩) := hread
  rw [Reading.bind_ok hi32]
  cases hversion : bytes.drop 4 with
  | nil =>
    obtain ⟨e, d, he, hd⟩ := u8_nil (c := ⟨bytes, 4, []⟩) hsrid hversion (by dsimp only; omega)
    rw [Reading.bind_error he]
    exact iff_of_true (backed_of_nil hd) trivial
  | cons version tail =>
    obtain ⟨hread, hfive, htail⟩ := u8_cons (c := ⟨bytes, 4, []⟩) hversion (by dsimp only; omega)
    rw [Reading.bind_ok hread]
    by_cases hone : version = 1
    · rw [if_neg (not_not.mpr hone), planar_backed_iff measured srid hfive, htail]
      cases tail with
      | nil => rfl
      | cons properties rest => exact ⟨fun h _ => h, fun h => h hone⟩
    · rw [if_pos hone]
      refine iff_of_true (backed_of_nil rfl) ?_
      cases tail with
      | nil => trivial
      | cons properties rest => exact fun h => absurd h hone

/-- Ten bytes have room for all the points that can be counted reserved. -/
theorem reservation_unbacked : ¬ ∀ r ∈ (Reader.payload (.start
    [0, 0, 0, 0, 1, 4, 255, 255, 255, 255])).2.notes, r.Backed := by
  decide +kernel

end SqlxMssql
