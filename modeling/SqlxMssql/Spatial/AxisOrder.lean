import SqlxMssql.Spatial.Layout
import SqlxMssql.Spatial.Payload
import SqlxMssql.Temporal.Stored
import SqlxMssql.Types.MssqlValue

/-! # The order of the axes

The server stores the points of a `geometry` as x and y, and those of a `geography` as
latitude and longitude, which are y and x. The two wrappers of the driver share one codec.
-/
namespace SqlxMssql
open Utf8 ByteFormats ParentTables

structure MssqlGeometry where
  srid : Int32
  geometry : Geometry

structure MssqlGeography where
  srid : Int32
  geometry : Geometry

section Columns
variable (geo : GeoTypes)

/-- Decodes a UDT once its type is the expected spatial one. -/
def decodeSpatial (value : MssqlValueRef) (isExpected : MssqlTypeInfo → Bool) (expected : String) :
    Decoded (Int32 × Geometry) :=
  if isExpected value.typeInfo then
    match value.asBytes with
    | some bytes => wireDecode geo bytes
    | none => .error (.error ("cannot decode ".toList ++ expected.toList ++ " value: expected binary".toList))
  else
    .error (.error ("cannot decode MSSQL ".toList ++ value.typeInfo.typeName ++ " value into ".toList ++
      expected.toList ++ "; a ".toList ++ expected.toList ++ " column is required".toList))

def MssqlGeometry.encodeByRef (self : MssqlGeometry) : Encoding :=
  .push (.varBinaryMax (some (wireEncode geo self.srid self.geometry)))

def MssqlGeometry.decode (value : MssqlValueRef) : Decoded MssqlGeometry := do
  let (srid, geometry) ← decodeSpatial geo value MssqlTypeInfo.isGeometry "geometry"
  return ⟨srid, geometry⟩

def MssqlGeography.encodeByRef (self : MssqlGeography) : Encoding :=
  .push (.varBinaryMax (some (wireEncode geo self.srid self.geometry)))

def MssqlGeography.decode (value : MssqlValueRef) : Decoded MssqlGeography := do
  let (srid, geometry) ← decodeSpatial geo value MssqlTypeInfo.isGeography "geography"
  return ⟨srid, geometry⟩

end Columns

inductive AxisOrder where
  | xFirst
  | latitudeFirst
  deriving DecidableEq, Repr

def AxisOrder.doubles : AxisOrder → Coord → UInt64 × UInt64
  | xFirst, c => (c.x, c.y)
  | latitudeFirst, c => (c.y, c.x)

section Coordinates
variable (geo : GeoTypes)

def Polygon.coords (p : Polygon) : List Coord := p.exterior ++ p.interiors.flatten

mutual
def Geometry.coords : Geometry → List Coord
  | .point c => [c]
  | .line start stop => [start, stop]
  | .lineString cs => cs
  | .polygon p => p.coords
  | .multiPoint cs => cs
  | .multiLineString lines => lines.flatten
  | .multiPolygon ps => ps.flatMap Polygon.coords
  | .geometryCollection gs => Geometry.coordsAll gs
  | .rect min max => (geo.rectToPolygon min max).coords
  | .triangle v0 v1 v2 => (geo.triangleToPolygon v0 v1 v2).coords

def Geometry.coordsAll : List Geometry → List Coord
  | [] => []
  | g :: gs => g.coords ++ Geometry.coordsAll gs
end

/-- The points that a tree of shapes brings along. -/
def pointsOf (t : OrderedTree Form) : List Coord := (outlinesOf t).flatMap Outline.coords

theorem pointsOf_node (form : Form) (ts : List (OrderedTree Form)) :
    pointsOf (.node form ts) = form.outlines.flatMap Outline.coords ++ ts.flatMap pointsOf := by
  have hall : (outlinesOfAll ts).flatMap Outline.coords = ts.flatMap pointsOf := by
    induction ts with
    | nil => rfl
    | cons t ts ih => rw [outlinesOfAll, List.flatMap_append, ih, List.flatMap_cons, pointsOf]
  rw [pointsOf, outlinesOf, List.flatMap_append, hall]

theorem pointsOf_lineString (cs : LineString) : pointsOf (lineStringForm cs) = cs := by
  unfold lineStringForm
  split
  · rename_i h
    rw [emptyForm, pointsOf_node, List.isEmpty_iff.mp h]
    rfl
  · rw [strokeForm, pointsOf_node]
    simp

theorem flatMap_holes (interiors : List LineString) :
    (holes interiors).flatMap Outline.coords = interiors.flatten := by
  induction interiors with
  | nil => rfl
  | cons ring interiors ih =>
    cases ring with
    | nil => exact ih
    | cons c cs =>
      rw [List.flatten_cons, ← ih]
      rfl

theorem pointsOf_polygon (p : Polygon) : pointsOf (polygonForm p) = p.coords := by
  unfold polygonForm
  split
  · rename_i h
    have hexterior : p.exterior = [] := by
      have h := (Bool.and_eq_true _ _ ▸ h).1
      exact List.isEmpty_iff.mp h
    have hinteriors : p.interiors.flatten = [] := by
      have h := (Bool.and_eq_true _ _ ▸ h).2
      exact List.flatten_eq_nil_iff.mpr fun ring hring => List.isEmpty_iff.mp (List.all_eq_true.mp h ring hring)
    rw [emptyForm, pointsOf_node, Polygon.coords, hexterior, hinteriors]
    rfl
  · rw [pointsOf_node, List.flatMap_cons, flatMap_holes, List.flatMap_nil, List.append_nil, Polygon.coords]

mutual
theorem pointsOf_form (g : Geometry) : pointsOf (g.form geo) = g.coords geo := by
  cases g with
  | point c => rfl
  | line start stop => rfl
  | lineString cs => exact pointsOf_lineString cs
  | polygon p => exact pointsOf_polygon p
  | multiPoint cs =>
    rw [Geometry.form, pointsOf_node, List.flatMap_nil, List.nil_append, List.flatMap_map]
    exact List.flatMap_singleton' cs
  | multiLineString lines =>
    rw [Geometry.form, pointsOf_node, List.flatMap_nil, List.nil_append, List.flatMap_map]
    simp only [pointsOf_lineString, Geometry.coords, List.flatMap_id']
  | multiPolygon ps =>
    rw [Geometry.form, pointsOf_node, List.flatMap_nil, List.nil_append, List.flatMap_map]
    simp only [pointsOf_polygon, Geometry.coords]
  | geometryCollection gs =>
    rw [Geometry.form, pointsOf_node, List.flatMap_nil, List.nil_append, pointsOf_forms gs, Geometry.coords]
  | rect min max => exact pointsOf_polygon _
  | triangle v0 v1 v2 => exact pointsOf_polygon _

theorem pointsOf_forms (gs : List Geometry) :
    (Geometry.forms geo gs).flatMap pointsOf = Geometry.coordsAll geo gs := by
  cases gs with
  | nil => rfl
  | cons g gs => rw [Geometry.forms, List.flatMap_cons, pointsOf_form g, pointsOf_forms gs, Geometry.coordsAll]
end

/-- The point table holds the coordinates in order, each of them once. -/
theorem points_encodedTables (g : Geometry) : (encodedTables geo g).points = g.coords geo := by
  rw [encodedTables_eq]
  exact pointsOf_form geo g

end Coordinates

section Writing

/-- The bytes at the place of the `i`th point of an encoded value. -/
def pointBytes (bytes : List UInt8) (i : ℕ) : List UInt8 := (bytes.drop (10 + 16 * i)).take 16

/-- Each point of the emitted table holds the doubles of its coordinate in the order. -/
def WrittenIn (order : AxisOrder) (coords : List Coord) (bytes : List UInt8) : Prop :=
  ∀ i c, coords[i]? = some c → pointBytes bytes i = f64Bytes (order.doubles c).1 ++ f64Bytes (order.doubles c).2

/-- The argument that is pushed is a payload with its points in the order. -/
def Encoding.WritesIn (order : AxisOrder) (coords : List Coord) (encoding : Encoding) : Prop :=
  ∀ buf, ∃ bytes, encoding buf = (.ok .no, buf ++ [.varBinaryMax (some bytes)]) ∧ WrittenIn order coords bytes

theorem take_drop_flatMap {α : Type} {write : α → List UInt8} {width : ℕ} (h : ∀ a, (write a).length = width)
    {as : List α} {i : ℕ} {a : α} (hi : as[i]? = some a) (rest : List UInt8) :
    ((as.flatMap write ++ rest).drop (width * i)).take width = write a := by
  induction as generalizing i with
  | nil => cases hi
  | cons b as ih =>
    rw [List.flatMap_cons, List.append_assoc]
    cases i with
    | zero =>
      cases hi
      rw [Nat.mul_zero, List.drop_zero, List.take_left' (h a)]
    | succ i =>
      rw [Nat.mul_succ, Nat.add_comm, ← List.drop_drop, List.drop_left' (h b)]
      exact ih hi

theorem pointBytes_wireEncode (geo : GeoTypes) (srid : Int32) {g : Geometry} {i : ℕ} {c : Coord}
    (h : (g.coords geo)[i]? = some c) : pointBytes (wireEncode geo srid g) i = c.bytes := by
  rw [← points_encodedTables] at h
  unfold pointBytes
  rw [wireEncode_eq, Tables.bytes, ← List.drop_drop]
  have hheader : (i32Bytes srid ++ ([1] ++ ([propValid] ++
      u32Bytes (UInt32.ofNat (encodedTables geo g).points.length)))).length = 10 := by
    simp [length_i32Bytes, length_u32Bytes]
  have hsplit (rest : List UInt8) : i32Bytes srid ++ ([1] ++ ([propValid] ++
      (u32Bytes (UInt32.ofNat (encodedTables geo g).points.length) ++ rest))) =
      (i32Bytes srid ++ ([1] ++ ([propValid] ++
        u32Bytes (UInt32.ofNat (encodedTables geo g).points.length)))) ++ rest := by
    simp
  rw [hsplit, List.drop_left' hheader]
  exact take_drop_flatMap Coord.length_bytes h _

theorem f64Bytes_injective : Function.Injective f64Bytes := by
  intro a b h
  have hvalue := leBytes_injective (k := 8) (by have := a.toNat_lt; omega) (by have := b.toNat_lt; omega) h
  exact UInt64.toNat_inj.mp hvalue

theorem writesIn_xFirst (geo : GeoTypes) (srid : Int32) (g : Geometry) :
    Encoding.WritesIn .xFirst (g.coords geo) (.push (.varBinaryMax (some (wireEncode geo srid g)))) :=
  fun _ => ⟨_, rfl, fun _ _ h => pointBytes_wireEncode geo srid h⟩

theorem writesIn_latitudeFirst_iff (geo : GeoTypes) (srid : Int32) (g : Geometry) :
    Encoding.WritesIn .latitudeFirst (g.coords geo) (.push (.varBinaryMax (some (wireEncode geo srid g)))) ↔
      ∀ c ∈ g.coords geo, c.x = c.y := by
  constructor
  · intro h c hc
    obtain ⟨bytes, hpush, hwritten⟩ := h []
    have hbytes : wireEncode geo srid g = bytes := by
      have hbuf := congrArg Prod.snd hpush
      have hargument := (List.cons.inj hbuf).1
      exact Option.some.inj (SqlType.varBinaryMax.inj hargument)
    obtain ⟨i, hi⟩ := List.mem_iff_getElem?.mp hc
    have hpoint := hwritten i c hi
    rw [← hbytes, pointBytes_wireEncode geo srid hi] at hpoint
    have hfirst : f64Bytes c.x = f64Bytes c.y :=
      (List.append_inj hpoint ((length_leBytes 8 _).trans (length_leBytes 8 _).symm)).1
    exact f64Bytes_injective hfirst
  · intro h _
    refine ⟨_, rfl, fun i c hi => ?_⟩
    have hc := h c (List.mem_of_getElem? hi)
    rw [pointBytes_wireEncode geo srid hi, Coord.bytes, AxisOrder.doubles, hc]

end Writing

section Reading

def Reader.doubles : Reader (UInt64 × UInt64) := do return (← f64, ← f64)

/-- The point table of a payload, as pairs of doubles. -/
def Reader.pointTable : Reader (List (UInt64 × UInt64)) := do
  let _ ← i32
  let _ ← u8
  let properties ← u8
  entries 16 doubles (← pointCount properties)

/-- The result was built from the point table of the payload, read in the order. -/
def DecodedIn (order : AxisOrder) (geo : GeoTypes) (bytes : List UInt8) (srid : Int32) (g : Geometry) : Prop :=
  ∃ tables, (Reader.payload (.start bytes)).1 = .ok (srid, tables) ∧ tables.rebuild geo = .ok g ∧
    (Reader.pointTable (.start bytes)).1 = .ok (tables.points.map order.doubles)

theorem image_doubles : Reading.Image (AxisOrder.doubles .xFirst) Reader.coord Reader.doubles := by
  intro c p d h
  obtain ⟨x, e, hx, h⟩ := Reading.bind_eq_ok h
  obtain ⟨y, e', hy, h⟩ := Reading.bind_eq_ok h
  obtain ⟨rfl, rfl⟩ := Reading.pure_eq_ok h
  rw [Reader.doubles, Reading.bind_ok hx, Reading.bind_ok hy]
  rfl

/-- The decoder takes the first double of each point for x and the second for y. -/
theorem pointTable_payload {c d : Cursor Reservation} {srid : Int32} {tables : Tables}
    (h : Reader.payload c = (.ok (srid, tables), d)) :
    (Reader.pointTable c).1 = .ok (tables.points.map (AxisOrder.doubles .xFirst)) := by
  obtain ⟨_, c1, hsrid, h⟩ := Reading.bind_eq_ok h
  obtain ⟨version, c2, hversion, h⟩ := Reading.bind_eq_ok h
  split at h
  · cases h
  · obtain ⟨properties, c3, hproperties, h⟩ := Reading.bind_eq_ok h
    split at h
    · cases h
    · obtain ⟨count, c4, hcount, h⟩ := Reading.bind_eq_ok h
      obtain ⟨points, c5, hpoints, h⟩ := Reading.bind_eq_ok h
      obtain ⟨⟨figures, shapes⟩, c6, -, h⟩ := Reading.bind_eq_ok h
      obtain ⟨hpair, -⟩ := Reading.pure_eq_ok h
      obtain ⟨-, rfl⟩ := Prod.mk.inj hpair
      obtain ⟨_, c4', hreserve, hpoints⟩ := Reading.bind_eq_ok hpoints
      have htable := Reading.image_times image_doubles count c4' points c5 hpoints
      rw [Reader.pointTable, Reading.bind_ok hsrid, Reading.bind_ok hversion, Reading.bind_ok hproperties,
        Reading.bind_ok hcount, Reader.entries, Reading.bind_ok hreserve, htable]

/-- What `decode` returns was rebuilt from the tables of the payload. -/
theorem wireDecode_eq_ok {geo : GeoTypes} {bytes : List UInt8} {srid : Int32} {g : Geometry}
    (h : wireDecode geo bytes = .ok (srid, g)) :
    ∃ tables, (Reader.payload (.start bytes)).1 = .ok (srid, tables) ∧ tables.rebuild geo = .ok g := by
  unfold wireDecode at h
  cases hpayload : (Reader.payload (.start bytes)).1 with
  | error e =>
    rw [hpayload] at h
    cases h
  | ok found =>
    obtain ⟨srid', tables⟩ := found
    rw [hpayload] at h
    dsimp only at h
    cases hrebuild : tables.rebuild geo with
    | error e =>
      rw [hrebuild] at h
      cases h
    | ok g' =>
      rw [hrebuild] at h
      cases h
      exact ⟨tables, rfl, hrebuild⟩

theorem pointTable_of_payload {bytes : List UInt8} {srid : Int32} {tables : Tables}
    (h : (Reader.payload (.start bytes)).1 = .ok (srid, tables)) :
    (Reader.pointTable (.start bytes)).1 = .ok (tables.points.map (AxisOrder.doubles .xFirst)) := by
  rcases hrun : Reader.payload (.start bytes) with ⟨result, d⟩
  rw [hrun] at h
  obtain rfl : result = .ok (srid, tables) := h
  exact pointTable_payload hrun

theorem decodedIn_xFirst {geo : GeoTypes} {bytes : List UInt8} {srid : Int32} {g : Geometry}
    (h : wireDecode geo bytes = .ok (srid, g)) : DecodedIn .xFirst geo bytes srid g := by
  obtain ⟨tables, hpayload, hrebuild⟩ := wireDecode_eq_ok h
  exact ⟨tables, hpayload, hrebuild, pointTable_of_payload hpayload⟩

/-- The points of the payload are each two equal doubles. -/
def OnDiagonal (bytes : List UInt8) : Prop :=
  ∀ table, (Reader.pointTable (.start bytes)).1 = .ok table → ∀ p ∈ table, p.1 = p.2

theorem map_doubles_eq_iff (points : List Coord) :
    points.map (AxisOrder.doubles .xFirst) = points.map (AxisOrder.doubles .latitudeFirst) ↔
      ∀ p ∈ points.map (AxisOrder.doubles .xFirst), p.1 = p.2 := by
  rw [List.map_inj_left]
  constructor
  · intro h p hp
    obtain ⟨c, hc, rfl⟩ := List.mem_map.mp hp
    exact congrArg Prod.fst (h c hc)
  · intro h c hc
    have hequal : c.x = c.y := h _ (List.mem_map_of_mem hc)
    rw [AxisOrder.doubles, AxisOrder.doubles, hequal]

theorem decodedIn_latitudeFirst_iff {geo : GeoTypes} {bytes : List UInt8} {srid : Int32} {g : Geometry}
    (h : wireDecode geo bytes = .ok (srid, g)) :
    DecodedIn .latitudeFirst geo bytes srid g ↔ OnDiagonal bytes := by
  obtain ⟨tables, hpayload, hrebuild⟩ := wireDecode_eq_ok h
  have htable := pointTable_of_payload hpayload
  have hdiagonal : OnDiagonal bytes ↔ ∀ p ∈ tables.points.map (AxisOrder.doubles .xFirst), p.1 = p.2 := by
    constructor
    · intro hall
      exact hall _ htable
    · intro hall table hfound
      rw [htable] at hfound
      cases hfound
      exact hall
  rw [hdiagonal, ← map_doubles_eq_iff]
  constructor
  · rintro ⟨tables', hpayload', -, hlatitude⟩
    rw [hpayload] at hpayload'
    cases hpayload'
    rw [htable] at hlatitude
    exact Except.ok.inj hlatitude
  · intro hequal
    exact ⟨tables, hpayload, hrebuild, by rw [htable, hequal]⟩

theorem decodeSpatial_eq_ok {geo : GeoTypes} {value : MssqlValueRef} {isExpected : MssqlTypeInfo → Bool}
    {expected : String} {v : Int32 × Geometry} (h : decodeSpatial geo value isExpected expected = .ok v) :
    ∃ bytes, value.asBytes = some bytes ∧ wireDecode geo bytes = .ok v := by
  unfold decodeSpatial at h
  split at h
  · cases hbytes : value.asBytes with
    | none =>
      rw [hbytes] at h
      cases h
    | some bytes =>
      rw [hbytes] at h
      exact ⟨bytes, rfl, h⟩
  · cases h

theorem wrapped_eq_ok {α β : Type} {decoded : Decoded α} {f : α → β} {b : β}
    (h : (decoded >>= fun a => pure (f a)) = .ok b) : ∃ a, decoded = .ok a ∧ f a = b := by
  cases decoded with
  | error e => cases h
  | ok a => exact ⟨a, rfl, Except.ok.inj h⟩

end Reading

section Wrappers
variable (geo : GeoTypes)

theorem MssqlGeography.decode_eq_ok {value : MssqlValueRef} {v : MssqlGeography}
    (h : MssqlGeography.decode geo value = .ok v) :
    ∃ bytes, value.asBytes = some bytes ∧ wireDecode geo bytes = .ok (v.srid, v.geometry) := by
  obtain ⟨found, hfound, rfl⟩ := wrapped_eq_ok (f := fun found : Int32 × Geometry => MssqlGeography.mk found.1 found.2) h
  exact decodeSpatial_eq_ok hfound

theorem MssqlGeometry.decode_eq_ok {value : MssqlValueRef} {v : MssqlGeometry}
    (h : MssqlGeometry.decode geo value = .ok v) :
    ∃ bytes, value.asBytes = some bytes ∧ wireDecode geo bytes = .ok (v.srid, v.geometry) := by
  obtain ⟨found, hfound, rfl⟩ := wrapped_eq_ok (f := fun found : Int32 × Geometry => MssqlGeometry.mk found.1 found.2) h
  exact decodeSpatial_eq_ok hfound

/-- A geography is written and read with its latitude first exactly when it makes no
difference; a geometry has its x first in both directions. -/
theorem latitudeFirst_iff :
    (∀ value : MssqlGeography,
      (value.encodeByRef geo).WritesIn .latitudeFirst (value.geometry.coords geo) ↔
        ∀ c ∈ value.geometry.coords geo, c.x = c.y) ∧
    (∀ (value : MssqlValueRef) (v : MssqlGeography), MssqlGeography.decode geo value = .ok v →
      ∃ bytes, value.asBytes = some bytes ∧
        (DecodedIn .latitudeFirst geo bytes v.srid v.geometry ↔ OnDiagonal bytes)) ∧
    (∀ value : MssqlGeometry, (value.encodeByRef geo).WritesIn .xFirst (value.geometry.coords geo)) ∧
    ∀ (value : MssqlValueRef) (v : MssqlGeometry), MssqlGeometry.decode geo value = .ok v →
      ∃ bytes, value.asBytes = some bytes ∧ DecodedIn .xFirst geo bytes v.srid v.geometry := by
  refine ⟨fun value => ?_, fun value v h => ?_, fun value => ?_, fun value v h => ?_⟩
  · exact writesIn_latitudeFirst_iff geo value.srid value.geometry
  · obtain ⟨bytes, hbytes, hdecode⟩ := MssqlGeography.decode_eq_ok geo h
    exact ⟨bytes, hbytes, decodedIn_latitudeFirst_iff hdecode⟩
  · exact writesIn_xFirst geo value.srid value.geometry
  · obtain ⟨bytes, hbytes, hdecode⟩ := MssqlGeometry.decode_eq_ok geo h
    exact ⟨bytes, hbytes, decodedIn_xFirst hdecode⟩

end Wrappers

section Points

def geographyPoint (x y : UInt64) : MssqlGeography := ⟨4326, .point ⟨x, y⟩⟩

/-- The cell of a `geography` column with the payload of a single point, as the server sends it. -/
def pointCell (first second : UInt64) : MssqlValueRef where
  raw := .bytes ([0xE6, 0x10, 0, 0, 1, 0x0C] ++ (f64Bytes first ++ f64Bytes second))
  typeInfo := .geography
  text := none

theorem diagonalPoint_latitudeFirst :
    ((geographyPoint f64One f64One).encodeByRef closingGeoTypes).WritesIn .latitudeFirst
        [⟨f64One, f64One⟩] ∧
      ∃ bytes, (pointCell f64One f64One).asBytes = some bytes ∧
        (DecodedIn .latitudeFirst closingGeoTypes bytes 4326 (.point ⟨f64One, f64One⟩) ↔ OnDiagonal bytes) := by
  have h := latitudeFirst_iff closingGeoTypes
  constructor
  · refine (h.1 (geographyPoint f64One f64One)).mpr ?_
    intro c hc
    rw [List.mem_singleton.mp hc]
  · exact h.2.1 (pointCell f64One f64One) (geographyPoint f64One f64One) rfl

/-- Longitude 1 and latitude 2 are written with the longitude first, and the doubles 1 and 2
are read as x and y. -/
theorem onePointTwo_xFirst :
    ¬ ((geographyPoint f64One f64Two).encodeByRef closingGeoTypes).WritesIn .latitudeFirst
        [⟨f64One, f64Two⟩] ∧
      MssqlGeography.decode closingGeoTypes (pointCell f64One f64Two) = .ok (geographyPoint f64One f64Two) ∧
      ∀ bytes, (pointCell f64One f64Two).asBytes = some bytes →
        ¬ DecodedIn .latitudeFirst closingGeoTypes bytes 4326 (.point ⟨f64One, f64Two⟩) := by
  have hne : ¬ f64One = f64Two := by decide
  refine ⟨fun h => ?_, rfl, fun bytes hbytes h => ?_⟩
  · have hall := (writesIn_latitudeFirst_iff closingGeoTypes 4326 (.point ⟨f64One, f64Two⟩)).mp h
    exact hne (hall ⟨f64One, f64Two⟩ List.mem_cons_self)
  · have hdecode : wireDecode closingGeoTypes bytes = .ok (4326, .point ⟨f64One, f64Two⟩) := by
      cases hbytes
      rfl
    have htable : (Reader.pointTable (.start bytes)).1 = .ok [(f64One, f64Two)] := by
      cases hbytes
      rfl
    have hdiagonal := (decodedIn_latitudeFirst_iff hdecode).mp h
    exact hne (hdiagonal _ htable _ List.mem_cons_self)

end Points

end SqlxMssql
