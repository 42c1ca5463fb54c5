import Mathlib.Data.List.Basic
import Mathlib.Tactic.Common

/-! # Geometries

The geometries of `geo-types`. A coordinate is two bit patterns of floating-point numbers,
and what the library computes on polygons is a parameter.
-/
namespace SqlxMssql

/-- `f64::is_nan` -/
def isNan (bits : UInt64) : Bool := 0x7FF0000000000000 < bits &&& 0x7FFFFFFFFFFFFFFF

/-- `==` of floating-point numbers, for which the two zeros are equal. -/
def floatEq (a b : UInt64) : Bool :=
  !isNan a && !isNan b && (a == b || (a ||| b) &&& 0x7FFFFFFFFFFFFFFF == 0)

def f64One : UInt64 := 0x3FF0000000000000
def f64Two : UInt64 := 0x4000000000000000
def f64Three : UInt64 := 0x4008000000000000

structure Coord where
  x : UInt64
  y : UInt64
  deriving DecidableEq, Repr

def Coord.beq (a b : Coord) : Bool := floatEq a.x b.x && floatEq a.y b.y

def Coord.NotNan (c : Coord) : Prop := isNan c.x = false ∧ isNan c.y = false

instance (c : Coord) : Decidable c.NotNan :=
  inferInstanceAs (Decidable (isNan c.x = false ∧ isNan c.y = false))

theorem floatEq_self {bits : UInt64} (h : isNan bits = false) : floatEq bits bits = true := by
  simp [floatEq, h]

theorem Coord.beq_self {c : Coord} (h : c.NotNan) : c.beq c = true := by
  simp [Coord.beq, floatEq_self h.1, floatEq_self h.2]

abbrev LineString : Type := List Coord

/-- `first() == last()` -/
def isClosed (ring : LineString) : Bool :=
  match ring.head?, ring.getLast? with
  | some first, some last => first.beq last
  | none, none => true
  | _, _ => false

structure Polygon where
  exterior : LineString
  interiors : List LineString
  deriving DecidableEq, Repr

inductive Geometry where
  | point (point : Coord)
  | line (start stop : Coord)
  | lineString (lineString : LineString)
  | polygon (polygon : Polygon)
  | multiPoint (points : List Coord)
  | multiLineString (lineStrings : List LineString)
  | multiPolygon (polygons : List Polygon)
  | geometryCollection (geometries : List Geometry)
  | rect (min max : Coord)
  | triangle (v0 v1 v2 : Coord)

/-- `Polygon::new` and the two `to_polygon`. -/
structure GeoTypes where
  polygonNew : LineString → List LineString → Polygon
  rectToPolygon : Coord → Coord → Polygon
  triangleToPolygon : Coord → Coord → Coord → Polygon

def RingSound (ring : LineString) : Prop := isClosed ring = true ∧ ∀ c ∈ ring, c.NotNan

structure Polygon.Sound (p : Polygon) : Prop where
  exterior : RingSound p.exterior
  interiors : ∀ ring ∈ p.interiors, RingSound ring
  /-- A hole is a hole in something. -/
  hole : (∃ ring ∈ p.interiors, ring ≠ []) → p.exterior ≠ []

/-- What the driver relies on: closed rings are kept, and the polygon of a rectangle or a
triangle is a closed ring around it. -/
structure GeoTypes.Lawful (geo : GeoTypes) : Prop where
  polygonNew : ∀ exterior interiors, isClosed exterior = true → (∀ ring ∈ interiors, isClosed ring = true) →
    geo.polygonNew exterior interiors = ⟨exterior, interiors⟩
  rectToPolygon : ∀ min max, min.NotNan → max.NotNan →
    ∃ ring, geo.rectToPolygon min max = ⟨ring, []⟩ ∧ RingSound ring
  triangleToPolygon : ∀ v0 v1 v2, v0.NotNan → v1.NotNan → v2.NotNan →
    ∃ ring, geo.triangleToPolygon v0 v1 v2 = ⟨ring, []⟩ ∧ RingSound ring

mutual
/-- The coordinates are numbers, the rings are closed, and holes are holes in something. -/
def Geometry.Sound : Geometry → Prop
  | .point c => c.NotNan
  | .line start stop => start.NotNan ∧ stop.NotNan
  | .lineString cs => ∀ c ∈ cs, c.NotNan
  | .polygon p => p.Sound
  | .multiPoint cs => ∀ c ∈ cs, c.NotNan
  | .multiLineString lines => ∀ cs ∈ lines, ∀ c ∈ cs, c.NotNan
  | .multiPolygon ps => ∀ p ∈ ps, p.Sound
  | .geometryCollection gs => Geometry.AllSound gs
  | .rect min max => min.NotNan ∧ max.NotNan
  | .triangle v0 v1 v2 => v0.NotNan ∧ v1.NotNan ∧ v2.NotNan

def Geometry.AllSound : List Geometry → Prop
  | [] => True
  | g :: gs => g.Sound ∧ Geometry.AllSound gs
end

def Polygon.dropEmptyHoles (p : Polygon) : Polygon := { p with interiors := p.interiors.filter (· ≠ []) }

mutual
/-- The form of a geometry that the server's serialization can express. -/
def Geometry.native (geo : GeoTypes) : Geometry → Geometry
  | .line start stop => .lineString [start, stop]
  | .polygon p => .polygon p.dropEmptyHoles
  | .multiPolygon ps => .multiPolygon (ps.map Polygon.dropEmptyHoles)
  | .geometryCollection gs => .geometryCollection (Geometry.natives geo gs)
  | .rect min max => .polygon (geo.rectToPolygon min max).dropEmptyHoles
  | .triangle v0 v1 v2 => .polygon (geo.triangleToPolygon v0 v1 v2).dropEmptyHoles
  | .point c => .point c
  | .lineString cs => .lineString cs
  | .multiPoint cs => .multiPoint cs
  | .multiLineString lines => .multiLineString lines

def Geometry.natives (geo : GeoTypes) : List Geometry → List Geometry
  | [] => []
  | g :: gs => g.native geo :: Geometry.natives geo gs
end

theorem Polygon.Sound.of_ring {ring : LineString} (h : RingSound ring) : Polygon.Sound ⟨ring, []⟩ where
  exterior := h
  interiors _ h := by cases h
  hole := by
    rintro ⟨_, h, -⟩
    cases h

theorem Polygon.Sound.dropEmptyHoles {p : Polygon} (h : p.Sound) : p.dropEmptyHoles.Sound where
  exterior := h.exterior
  interiors ring hring := h.interiors ring (List.mem_of_mem_filter hring)
  hole := by
    rintro ⟨ring, hring, hne⟩
    exact h.hole ⟨ring, List.mem_of_mem_filter hring, hne⟩

theorem GeoTypes.Lawful.polygonNew_eq {geo : GeoTypes} (hgeo : geo.Lawful) {p : Polygon} (h : p.Sound) :
    geo.polygonNew p.exterior p.interiors = p :=
  hgeo.polygonNew _ _ h.exterior.1 fun ring hring => (h.interiors ring hring).1

section Closing

/-- `LineString::close` -/
def closeRing (ring : LineString) : LineString := if isClosed ring then ring else ring ++ ring.take 1

def closedPolygon (exterior : LineString) (interiors : List LineString) : Polygon :=
  ⟨closeRing exterior, interiors.map closeRing⟩

/-- A library that closes open rings and goes round rectangles from their lower right corner. -/
def closingGeoTypes : GeoTypes where
  polygonNew := closedPolygon
  rectToPolygon min max :=
    closedPolygon [⟨max.x, min.y⟩, ⟨max.x, max.y⟩, ⟨min.x, max.y⟩, ⟨min.x, min.y⟩, ⟨max.x, min.y⟩] []
  triangleToPolygon v0 v1 v2 := closedPolygon [v0, v1, v2, v0] []

theorem closeRing_of_isClosed {ring : LineString} (h : isClosed ring = true) : closeRing ring = ring := if_pos h

theorem closedPolygon_of_isClosed {exterior : LineString} {interiors : List LineString}
    (hexterior : isClosed exterior = true) (hinteriors : ∀ ring ∈ interiors, isClosed ring = true) :
    closedPolygon exterior interiors = ⟨exterior, interiors⟩ := by
  unfold closedPolygon
  rw [closeRing_of_isClosed hexterior,
    List.map_congr_left (fun ring hring => closeRing_of_isClosed (hinteriors ring hring)), List.map_id']

theorem closedPolygon_round {start : Coord} (cs : List Coord) (hstart : start.NotNan) (hcs : ∀ c ∈ cs, c.NotNan) :
    ∃ ring, closedPolygon (start :: (cs ++ [start])) [] = ⟨ring, []⟩ ∧ RingSound ring := by
  have hclosed : isClosed (start :: (cs ++ [start])) = true := by
    have hlast : (start :: (cs ++ [start])).getLast? = some start := by
      rw [← List.cons_append, List.getLast?_concat]
    simp only [isClosed, List.head?_cons, hlast, Coord.beq_self hstart]
  refine ⟨_, closedPolygon_of_isClosed hclosed (fun _ h => by cases h), hclosed, fun c hc => ?_⟩
  rcases List.mem_cons.mp hc with rfl | hc
  · exact hstart
  · rcases List.mem_append.mp hc with hc | hc
    · exact hcs c hc
    · rwa [List.mem_singleton.mp hc]

theorem closingGeoTypes_lawful : closingGeoTypes.Lawful where
  polygonNew _ _ := closedPolygon_of_isClosed
  rectToPolygon min max hmin hmax := by
    refine closedPolygon_round [⟨max.x, max.y⟩, ⟨min.x, max.y⟩, ⟨min.x, min.y⟩] ⟨hmax.1, hmin.2⟩ ?_
    intro c hc
    simp only [List.mem_cons, List.not_mem_nil, or_false] at hc
    rcases hc with rfl | rfl | rfl
    · exact hmax
    · exact ⟨hmin.1, hmax.2⟩
    · exact hmin
  triangleToPolygon v0 v1 v2 h0 h1 h2 := by
    refine closedPolygon_round [v1, v2] h0 ?_
    intro c hc
    simp only [List.mem_cons, List.not_mem_nil, or_false] at hc
    rcases hc with rfl | rfl
    · exact h1
    · exact h2

end Closing

end SqlxMssql
