import SqlxMssql.Spatial.Wire

/-! # The bytes of the tables

The reader finds in an encoded payload the tables that were written into it.
-/
namespace SqlxMssql
open ByteFormats OffsetTables

/-- Every index and count fits into 31 bits. -/
structure Tables.Small (tables : Tables) : Prop where
  points : tables.points.length < 2147483648
  figures : tables.figures.length < 2147483648
  shapes : tables.shapes.length < 2147483648

section Fields

theorem reads_take (bytes : List UInt8) : Reads (Reader.take bytes.length) bytes bytes := by
  intro before after notes hlength
  have hrange : getRange (before ++ (bytes ++ after)) before.length (before.length + bytes.length) = some bytes :=
    getRange_middle _ _ _
  have hstop : before.length + bytes.length < 18446744073709551616 := by
    simp only [List.length_append] at hlength
    omega
  refine ⟨notes, ?_⟩
  unfold Reader.take
  dsimp only
  rw [if_pos hstop, hrange, List.length_append]

theorem reads_number {α : Type} (k : ℕ) {n : ℕ} (hn : n < 256 ^ k) (f : ℕ → α) :
    Reads (do return f (ofLeBytes (← Reader.take k)) : Reader α) (leBytes k n) (f n) := by
  have htake : Reads (Reader.take k) (leBytes k n) (leBytes k n) := by
    have h := reads_take (leBytes k n)
    rwa [length_leBytes] at h
  have h := htake.map fun bytes => f (ofLeBytes bytes)
  rwa [ofLeBytes_leBytes hn] at h

theorem reads_u8 (b : UInt8) : Reads Reader.u8 [b] b := by
  have h := reads_number 1 (n := b.toNat) (by have := b.toNat_lt; omega) UInt8.ofNat
  rwa [leBytes, leBytes, UInt8.ofNat_toNat] at h

theorem reads_u32 (n : UInt32) : Reads Reader.u32 (u32Bytes n) n := by
  have h := reads_number 4 (n := n.toNat) (by have := n.toNat_lt; omega) UInt32.ofNat
  rwa [UInt32.ofNat_toNat] at h

theorem reads_f64 (bits : UInt64) : Reads Reader.f64 (f64Bytes bits) bits := by
  have h := reads_number 8 (n := bits.toNat) (by have := bits.toNat_lt; omega) UInt64.ofNat
  rwa [UInt64.ofNat_toNat] at h

theorem reads_i32 (n : Int32) : Reads Reader.i32 (i32Bytes n) n := by
  have h := reads_number 4 (n := n.toUInt32.toNat) (by have := n.toUInt32.toNat_lt; omega) Int32.ofNat
  have hvalue : Int32.ofNat n.toUInt32.toNat = n := by
    rw [← Int32.toNat_toBitVec, Int32.ofNat_bitVecToNat, Int32.ofBitVec_toBitVec]
  rwa [hvalue] at h

theorem reads_coord (c : Coord) : Reads Reader.coord c.bytes c := by
  refine (reads_f64 c.x).bind ?_
  exact (reads_f64 c.y).map (Coord.mk c.x)

theorem reads_figure (f : Figure) : Reads Reader.figure f.bytes f := by
  refine (reads_u8 f.attr).bind ?_
  exact (reads_u32 f.pointOffset).map (Figure.mk f.attr)

theorem reads_shape (s : Shape) : Reads Reader.shape s.bytes s := by
  unfold Shape.bytes
  rw [List.append_assoc]
  refine (reads_i32 s.parent).bind ((reads_i32 s.figureOffset).bind ?_)
  exact (reads_u8 s.shapeType).map (Shape.mk s.parent s.figureOffset)

end Fields

theorem toNat_count {n : ℕ} (hn : n < 2147483648) : (UInt32.ofNat n).toNat = n := by
  rw [UInt32.toNat_ofNat', Nat.mod_eq_of_lt (by omega)]

theorem reads_entries {α : Type} (entryBytes : ℕ) {entry : Reader α} (write : α → List UInt8)
    (h : ∀ a, Reads entry (write a) a) (as : List α) :
    Reads (Reader.entries entryBytes entry as.length) (as.flatMap write) as :=
  (Reads.note _).bind (Reads.times write fun a _ => h a)

def Tables.bytes (tables : Tables) : List UInt8 :=
  u32Bytes (UInt32.ofNat tables.points.length) ++ (tables.points.flatMap Coord.bytes ++
    (u32Bytes (UInt32.ofNat tables.figures.length) ++ (tables.figures.flatMap Figure.bytes ++
      (u32Bytes (UInt32.ofNat tables.shapes.length) ++ tables.shapes.flatMap Shape.bytes))))

theorem wireEncode_eq (geo : GeoTypes) (srid : Int32) (g : Geometry) :
    wireEncode geo srid g = i32Bytes srid ++ ([1] ++ ([propValid] ++ (encodedTables geo g).bytes)) := by
  simp [wireEncode, Tables.bytes]

theorem reads_pointCount {n : ℕ} (hn : n < 2147483648) :
    Reads (Reader.pointCount propValid) (u32Bytes (UInt32.ofNat n)) n := by
  unfold Reader.pointCount
  rw [if_neg (by decide), if_neg (by decide)]
  have h := (reads_u32 (UInt32.ofNat n)).map UInt32.toNat
  rwa [toNat_count hn] at h

theorem reads_figuresAndShapes {figures : List Figure} {shapes : List Shape}
    (hfigures : figures.length < 2147483648) (hshapes : shapes.length < 2147483648) :
    Reads (Reader.figuresAndShapes propValid)
      (u32Bytes (UInt32.ofNat figures.length) ++ (figures.flatMap Figure.bytes ++
        (u32Bytes (UInt32.ofNat shapes.length) ++ shapes.flatMap Shape.bytes))) (figures, shapes) := by
  unfold Reader.figuresAndShapes
  rw [if_neg (by decide)]
  refine (reads_u32 _).bind ?_
  rw [toNat_count hfigures]
  refine (reads_entries 5 Figure.bytes reads_figure figures).bind ?_
  refine (reads_u32 _).bind ?_
  rw [toNat_count hshapes]
  exact (reads_entries 9 Shape.bytes reads_shape shapes).map (Prod.mk figures)

/-- The payload of small tables is read back as these tables. -/
theorem reads_payload (srid : Int32) {tables : Tables} (h : tables.Small) :
    Reads Reader.payload (i32Bytes srid ++ ([1] ++ ([propValid] ++ tables.bytes))) (srid, tables) := by
  refine (reads_i32 srid).bind ((reads_u8 1).bind ?_)
  rw [if_neg (by decide)]
  refine (reads_u8 propValid).bind ?_
  rw [if_neg (by decide)]
  refine (reads_pointCount h.points).bind ((reads_entries 16 Coord.bytes reads_coord tables.points).bind ?_)
  exact (reads_figuresAndShapes h.figures h.shapes).map
    fun tail => (srid, (⟨tables.points, tail.1, tail.2⟩ : Tables))

theorem length_u32Bytes (n : UInt32) : (u32Bytes n).length = 4 := length_leBytes 4 _
theorem length_i32Bytes (n : Int32) : (i32Bytes n).length = 4 := length_leBytes 4 _

theorem Coord.length_bytes (c : Coord) : c.bytes.length = 16 := by
  simp [Coord.bytes, f64Bytes]

theorem Figure.length_bytes (f : Figure) : f.bytes.length = 5 := by
  simp [Figure.bytes, length_u32Bytes]

theorem Shape.length_bytes (s : Shape) : s.bytes.length = 9 := by
  simp [Shape.bytes, length_i32Bytes]

theorem length_flatMap_bytes {α : Type} {write : α → List UInt8} {width : ℕ}
    (h : ∀ a, (write a).length = width) (as : List α) : (as.flatMap write).length = as.length * width := by
  simp [List.length_flatMap, h]

theorem Tables.length_bytes (tables : Tables) : tables.bytes.length =
    12 + tables.points.length * 16 + tables.figures.length * 5 + tables.shapes.length * 9 := by
  simp only [Tables.bytes, List.length_append, length_u32Bytes, length_flatMap_bytes Coord.length_bytes,
    length_flatMap_bytes Figure.length_bytes, length_flatMap_bytes Shape.length_bytes]
  omega

theorem payload_wireEncode (geo : GeoTypes) (srid : Int32) (g : Geometry) (h : (encodedTables geo g).Small) :
    (Reader.payload (.start (wireEncode geo srid g))).1 = .ok (srid, encodedTables geo g) := by
  rw [wireEncode_eq]
  refine (reads_payload srid h).run ?_
  have hpoints := h.points
  have hfigures := h.figures
  have hshapes := h.shapes
  simp only [List.length_append, length_i32Bytes, List.length_singleton, Tables.length_bytes]
  omega

end SqlxMssql
