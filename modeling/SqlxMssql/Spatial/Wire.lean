import SqlxMssql.Foundations.ByteFormats
import SqlxMssql.Foundations.Loops
import SqlxMssql.Foundations.OffsetTables
import SqlxMssql.Foundations.Utf8
import SqlxMssql.Spatial.Geometry

/-! # The server's serialization of spatial values

Points, figures and shapes are three tables: a figure is a run of points, and a shape points
to its first figure and to its parent. The encoder appends to the tables as it goes through a
geometry; the decoder searches them for the children of a shape and the points of a figure.
-/
namespace SqlxMssql
open Loops Utf8 ByteFormats OffsetTables

def propZ : UInt8 := 0x01
def propM : UInt8 := 0x02
def propValid : UInt8 := 0x04
def propSinglePoint : UInt8 := 0x08
def propSingleLine : UInt8 := 0x10

def figureInteriorRing : UInt8 := 0x00
def figureStroke : UInt8 := 0x01
def figureExteriorRing : UInt8 := 0x02

def shapePoint : UInt8 := 1
def shapeLineString : UInt8 := 2
def shapePolygon : UInt8 := 3
def shapeMultiPoint : UInt8 := 4
def shapeMultiLineString : UInt8 := 5
def shapeMultiPolygon : UInt8 := 6
def shapeGeometryCollection : UInt8 := 7
def shapeCircularString : UInt8 := 8
def shapeCompoundCurve : UInt8 := 9
def shapeCurvePolygon : UInt8 := 10
def shapeFullGlobe : UInt8 := 11

structure Figure where
  attr : UInt8
  pointOffset : UInt32
  deriving DecidableEq, Repr

structure Shape where
  parent : Int32
  figureOffset : Int32
  shapeType : UInt8
  deriving DecidableEq, Repr

structure Tables where
  points : List Coord
  figures : List Figure
  shapes : List Shape
  deriving DecidableEq, Repr

/-- `Vec::with_capacity(count)` for entries of `entryBytes` bytes, with what is left of the
payload by then. -/
structure Reservation where
  count : ℕ
  entryBytes : ℕ
  unread : ℕ
  deriving DecidableEq, Repr

abbrev Reader (α : Type) := Reading Reservation Text α

namespace Reader

def take (count : ℕ) : Reader (List UInt8) := fun self =>
  let stop := self.position + count
  if stop < 18446744073709551616 then
    match getRange self.bytes self.position stop with
    | some slice => (.ok slice, { self with position := stop })
    | none => (.error "truncated spatial payload".toList, self)
  else (.error "spatial payload length overflow".toList, self)

def u8 : Reader UInt8 := do return UInt8.ofNat (ofLeBytes (← take 1))
def i32 : Reader Int32 := do return Int32.ofNat (ofLeBytes (← take 4))
def u32 : Reader UInt32 := do return UInt32.ofNat (ofLeBytes (← take 4))
def f64 : Reader UInt64 := do return UInt64.ofNat (ofLeBytes (← take 8))

def reserve (entryBytes count : ℕ) : Reader Unit := Reading.note fun self => ⟨count, entryBytes, self.unread⟩

def coord : Reader Coord := do return ⟨← f64, ← f64⟩
def figure : Reader Figure := do return ⟨← u8, ← u32⟩
def shape : Reader Shape := do return ⟨← i32, ← i32, ← u8⟩

/-- `for _ in 0..count { entries.push(entry) }` -/
def entries {α : Type} (entryBytes : ℕ) (entry : Reader α) (count : ℕ) : Reader (List α) := do
  reserve entryBytes count
  Reading.times entry count

/-- The figures and shapes behind the points. Those of a single point or line are not stored. -/
def figuresAndShapes (properties : UInt8) : Reader (List Figure × List Shape) :=
  if properties &&& (propSinglePoint ||| propSingleLine) ≠ 0 then
    let shapeType := if properties &&& propSinglePoint ≠ 0 then shapePoint else shapeLineString
    pure ([⟨figureStroke, 0⟩], [⟨-1, 0, shapeType⟩])
  else do
    let figures ← entries 5 figure (← u32).toNat
    let shapes ← entries 9 shape (← u32).toNat
    return (figures, shapes)

def pointCount (properties : UInt8) : Reader ℕ :=
  if properties &&& propSinglePoint ≠ 0 then pure 1
  else if properties &&& propSingleLine ≠ 0 then pure 2
  else do return (← u32).toNat

/-- The first half of `wire::decode`: the SRID and the tables. -/
def payload : Reader (Int32 × Tables) := do
  let srid ← i32
  let version ← u8
  if version ≠ 1 then
    Reading.fail ("unsupported SQL Server spatial serialization version ".toList ++
      decimal version.toNat ++
      "; only version 1 (planar, two-dimensional, non-curved) is supported".toList)
  else
    let properties ← u8
    if properties &&& (propZ ||| propM) ≠ 0 then
      Reading.fail ("three-dimensional or measured spatial values are not supported; " ++
        "geo-types coordinates are two-dimensional").toList
    else
      let points ← entries 16 coord (← pointCount properties)
      let (figures, shapes) ← figuresAndShapes properties
      return (srid, ⟨points, figures, shapes⟩)

end Reader

/-- The decoder returns an error, or it does not return at all. -/
inductive Failure where
  | error (message : Text)
  | aborted (abort : Abort)
  deriving DecidableEq, Repr

abbrev Decoded (α : Type) := Except Failure α

def failWith {α : Type} (message : String) : Decoded α := .error (.error message.toList)

/-- `slice[index]` -/
def indexed {α : Type} (xs : List α) (index : ℕ) : Decoded α :=
  match xs[index]? with
  | some x => .ok x
  | none => .error (.aborted .panic)

/-- `usize::try_from(value).ok()` -/
def toUsize (value : Int32) : Option ℕ := if value < 0 then none else some value.toInt.toNat

namespace Tables
variable (geo : GeoTypes) (self : Tables)

/-- A figure owns the points from its offset up to the next larger offset in the table. -/
def figureCoords (figureOffset : Int32) : Decoded (List Coord) :=
  if figureOffset < 0 then .ok []
  else
    match toUsize figureOffset with
    | none => failWith "negative figure offset"
    | some index =>
      match self.figures[index]? with
      | none => failWith "figure offset is outside the figure table"
      | some figure =>
        let start := figure.pointOffset.toNat
        let stop := spanEnd (self.figures.map (·.pointOffset.toNat)) self.points.length start
        match getRange self.points start stop with
        | some coords => .ok coords
        | none => failWith "figure point range is outside the point table"

def firstCoord (figureOffset : Int32) : Decoded Coord := do
  match (← self.figureCoords figureOffset).head? with
  | some coord => return coord
  | none => failWith "an empty point cannot be represented by geo-types"

/-- The interior rings among figures with their indices, up to the next exterior ring. -/
def interiorRings : List (Figure × ℕ) → Decoded (List LineString)
  | [] => .ok []
  | (figure, index) :: rest =>
    if figure.attr = figureExteriorRing then .ok []
    else if figure.attr = figureInteriorRing then do
      let ring ← self.figureCoords (Int32.ofNat index)
      return ring :: (← interiorRings rest)
    else interiorRings rest

def buildPolygon (figureOffset : Int32) : Decoded Polygon :=
  if figureOffset < 0 then .ok (geo.polygonNew [] [])
  else do
    let exterior ← self.figureCoords figureOffset
    let start := (toUsize figureOffset).getD 18446744073709551615
    let interiors ← self.interiorRings (self.figures.zipIdx.drop (start + 1))
    return geo.polygonNew exterior interiors

def children (index : ℕ) : List ℕ := self.shapes.findIdxs fun shape => shape.parent = Int32.ofNat index

/-- Reads each child of a shape by its figure. -/
def eachChild {α : Type} (index : ℕ) (read : Int32 → Decoded α) : Decoded (List α) :=
  (self.children index).mapM fun child => do read (← indexed self.shapes child).figureOffset

/-- `build_shape`, cut off at a depth of `fuel` shapes. -/
def buildShape : ℕ → ℕ → Decoded Geometry
  | 0, _ => .error (.aborted .diverge)
  | fuel + 1, index => do
    let shape ← indexed self.shapes index
    if shape.shapeType = shapePoint then
      return .point (← self.firstCoord shape.figureOffset)
    else if shape.shapeType = shapeLineString then
      return .lineString (← self.figureCoords shape.figureOffset)
    else if shape.shapeType = shapePolygon then
      return .polygon (← self.buildPolygon geo shape.figureOffset)
    else if shape.shapeType = shapeMultiPoint then
      return .multiPoint (← self.eachChild index self.firstCoord)
    else if shape.shapeType = shapeMultiLineString then
      return .multiLineString (← self.eachChild index self.figureCoords)
    else if shape.shapeType = shapeMultiPolygon then
      return .multiPolygon (← self.eachChild index (self.buildPolygon geo))
    else if shape.shapeType = shapeGeometryCollection then
      return .geometryCollection (← (self.children index).mapM (buildShape fuel))
    else if shape.shapeType ∈ [shapeCircularString, shapeCompoundCurve, shapeCurvePolygon, shapeFullGlobe] then
      .error (.error ("SQL Server spatial shape type ".toList ++ decimal shape.shapeType.toNat ++
        " (curved or globe geometry) is not supported by geo-types".toList))
    else
      .error (.error ("unknown SQL Server spatial shape type ".toList ++ decimal shape.shapeType.toNat))

end Tables

/-- The second half of `wire::decode`: the geometry of the top-level shape. No chain of shapes
below it is longer than the table. -/
def Tables.rebuild (geo : GeoTypes) (self : Tables) : Decoded Geometry :=
  match self.shapes.findIdx? fun shape => shape.parent = -1 with
  | none => failWith "spatial payload has no top-level shape"
  | some top => self.buildShape geo self.shapes.length top

/-- `wire::decode` -/
def wireDecode (geo : GeoTypes) (bytes : List UInt8) : Decoded (Int32 × Geometry) :=
  match (Reader.payload (.start bytes)).1 with
  | .error message => .error (.error message)
  | .ok (srid, tables) => do return (srid, ← tables.rebuild geo)

namespace Tables

def pushPoints (coords : List Coord) (self : Tables) : Tables := { self with points := self.points ++ coords }

def pushFigure (attr : UInt8) (pointOffset : UInt32) (self : Tables) : Tables :=
  { self with figures := self.figures ++ [⟨attr, pointOffset⟩] }

def pushShape (parent figureOffset : Int32) (shapeType : UInt8) (self : Tables) : Int32 × Tables :=
  (Int32.ofNat self.shapes.length, { self with shapes := self.shapes ++ [⟨parent, figureOffset, shapeType⟩] })

def pushEmptyShape (parent : Int32) (shapeType : UInt8) (self : Tables) : Int32 × Tables :=
  self.pushShape parent (-1) shapeType

/-- A run of points as a figure of its own, and a shape for it. -/
def pushStroke (coords : List Coord) (parent : Int32) (shapeType : UInt8) (self : Tables) : Int32 × Tables :=
  let pointOffset := UInt32.ofNat self.points.length
  let self := self.pushPoints coords
  let figureOffset := Int32.ofNat self.figures.length
  let self := self.pushFigure figureStroke pointOffset
  self.pushShape parent figureOffset shapeType

/-- The arms of the multi-part shapes: the shape itself, and then its parts below it. -/
def pushParts (isEmpty : Bool) (shapeType : UInt8) (pushAll : Int32 → Tables → Tables) (parent : Int32)
    (self : Tables) : Int32 × Tables :=
  if isEmpty then self.pushEmptyShape parent shapeType
  else
    let (shapeIndex, self) := self.pushShape parent (Int32.ofNat self.figures.length) shapeType
    (shapeIndex, pushAll shapeIndex self)

end Tables

def encodeLineString (lineString : LineString) (parent : Int32) (tables : Tables) : Int32 × Tables :=
  if lineString.isEmpty then tables.pushEmptyShape parent shapeLineString
  else tables.pushStroke lineString parent shapeLineString

/-- One hole of a polygon; empty ones are left out. -/
def encodeInterior (tables : Tables) (interior : LineString) : Tables :=
  if interior.isEmpty then tables
  else (tables.pushPoints interior).pushFigure figureInteriorRing (UInt32.ofNat tables.points.length)

def encodePolygon (polygon : Polygon) (parent : Int32) (tables : Tables) : Int32 × Tables :=
  if polygon.exterior.isEmpty && polygon.interiors.all (·.isEmpty) then
    tables.pushEmptyShape parent shapePolygon
  else
    let pointOffset := UInt32.ofNat tables.points.length
    let tables := tables.pushPoints polygon.exterior
    let figureOffset := Int32.ofNat tables.figures.length
    let tables := tables.pushFigure figureExteriorRing pointOffset
    let tables := polygon.interiors.foldl encodeInterior tables
    tables.pushShape parent figureOffset shapePolygon

mutual
def encodeGeometry (geo : GeoTypes) : Geometry → Int32 → Tables → Int32 × Tables
  | .point c, parent, tables => tables.pushStroke [c] parent shapePoint
  | .line start stop, parent, tables => tables.pushStroke [start, stop] parent shapeLineString
  | .lineString cs, parent, tables => encodeLineString cs parent tables
  | .polygon p, parent, tables => encodePolygon p parent tables
  | .multiPoint cs, parent, tables =>
    tables.pushParts cs.isEmpty shapeMultiPoint (fun shapeIndex tables =>
      cs.foldl (fun tables c => (tables.pushStroke [c] shapeIndex shapePoint).2) tables) parent
  | .multiLineString lines, parent, tables =>
    tables.pushParts lines.isEmpty shapeMultiLineString (fun shapeIndex tables =>
      lines.foldl (fun tables cs => (encodeLineString cs shapeIndex tables).2) tables) parent
  | .multiPolygon ps, parent, tables =>
    tables.pushParts ps.isEmpty shapeMultiPolygon (fun shapeIndex tables =>
      ps.foldl (fun tables p => (encodePolygon p shapeIndex tables).2) tables) parent
  | .geometryCollection gs, parent, tables =>
    tables.pushParts gs.isEmpty shapeGeometryCollection (encodeGeometries geo gs) parent
  | .rect min max, parent, tables => encodePolygon (geo.rectToPolygon min max) parent tables
  | .triangle v0 v1 v2, parent, tables => encodePolygon (geo.triangleToPolygon v0 v1 v2) parent tables

/-- `for child in &collection.0` -/
def encodeGeometries (geo : GeoTypes) : List Geometry → Int32 → Tables → Tables
  | [], _, tables => tables
  | g :: gs, parent, tables => encodeGeometries geo gs parent (encodeGeometry geo g parent tables).2
end

def encodedTables (geo : GeoTypes) (geometry : Geometry) : Tables :=
  (encodeGeometry geo geometry (-1) ⟨[], [], []⟩).2

def u32Bytes (n : UInt32) : List UInt8 := leBytes 4 n.toNat
def i32Bytes (n : Int32) : List UInt8 := leBytes 4 n.toUInt32.toNat
def f64Bytes (bits : UInt64) : List UInt8 := leBytes 8 bits.toNat

def Coord.bytes (c : Coord) : List UInt8 := f64Bytes c.x ++ f64Bytes c.y
def Figure.bytes (f : Figure) : List UInt8 := f.attr :: u32Bytes f.pointOffset
def Shape.bytes (s : Shape) : List UInt8 := i32Bytes s.parent ++ i32Bytes s.figureOffset ++ [s.shapeType]

/-- `wire::encode` -/
def wireEncode (geo : GeoTypes) (srid : Int32) (geometry : Geometry) : List UInt8 :=
  let tables := encodedTables geo geometry
  i32Bytes srid ++ [1, propValid] ++
    u32Bytes (UInt32.ofNat tables.points.length) ++ tables.points.flatMap Coord.bytes ++
    u32Bytes (UInt32.ofNat tables.figures.length) ++ tables.figures.flatMap Figure.bytes ++
    u32Bytes (UInt32.ofNat tables.shapes.length) ++ tables.shapes.flatMap Shape.bytes

end SqlxMssql
