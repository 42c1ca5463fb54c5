import SqlxMssql.Foundations.ParentTables
import SqlxMssql.Spatial.Wire

/-! # What the encoder lays out

A geometry is a tree of shapes, each with the runs of points that are its own. Laid out, the
runs stand one behind the other and the shapes in preorder. The encoder, which appends to
three tables with offsets into each other, builds the tables of this layout.
-/
namespace SqlxMssql
open ByteFormats OffsetTables ParentTables

/-- A figure with the points that it is to own. -/
structure Outline where
  attr : UInt8
  coords : List Coord
  deriving DecidableEq, Repr

/-- A shape with the figures that are its own. -/
structure Form where
  shapeType : UInt8
  outlines : List Outline

/-- What the table says of a shape besides its parent. -/
structure Label where
  figure : Option ℕ
  shapeType : UInt8
  deriving DecidableEq, Repr

section Forms

def emptyForm (shapeType : UInt8) : OrderedTree Form := .node ⟨shapeType, []⟩ []

def strokeForm (shapeType : UInt8) (coords : List Coord) : OrderedTree Form :=
  .node ⟨shapeType, [⟨figureStroke, coords⟩]⟩ []

def lineStringForm (cs : LineString) : OrderedTree Form :=
  if cs.isEmpty then emptyForm shapeLineString else strokeForm shapeLineString cs

def Polygon.isEmpty (p : Polygon) : Bool := p.exterior.isEmpty && p.interiors.all (·.isEmpty)

def holes (interiors : List LineString) : List Outline :=
  (interiors.filter (· ≠ [])).map (⟨figureInteriorRing, ·⟩)

def polygonForm (p : Polygon) : OrderedTree Form :=
  if p.isEmpty then emptyForm shapePolygon
  else .node ⟨shapePolygon, ⟨figureExteriorRing, p.exterior⟩ :: holes p.interiors⟩ []

mutual
def Geometry.form (geo : GeoTypes) : Geometry → OrderedTree Form
  | .point c => strokeForm shapePoint [c]
  | .line start stop => strokeForm shapeLineString [start, stop]
  | .lineString cs => lineStringForm cs
  | .polygon p => polygonForm p
  | .multiPoint cs => .node ⟨shapeMultiPoint, []⟩ (cs.map fun c => strokeForm shapePoint [c])
  | .multiLineString lines => .node ⟨shapeMultiLineString, []⟩ (lines.map lineStringForm)
  | .multiPolygon ps => .node ⟨shapeMultiPolygon, []⟩ (ps.map polygonForm)
  | .geometryCollection gs => .node ⟨shapeGeometryCollection, []⟩ (Geometry.forms geo gs)
  | .rect min max => polygonForm (geo.rectToPolygon min max)
  | .triangle v0 v1 v2 => polygonForm (geo.triangleToPolygon v0 v1 v2)

def Geometry.forms (geo : GeoTypes) : List Geometry → List (OrderedTree Form)
  | [] => []
  | g :: gs => g.form geo :: Geometry.forms geo gs
end

mutual
def outlinesOf : OrderedTree Form → List Outline
  | .node form ts => form.outlines ++ outlinesOfAll ts

def outlinesOfAll : List (OrderedTree Form) → List Outline
  | [] => []
  | t :: ts => outlinesOf t ++ outlinesOfAll ts
end

mutual
/-- Numbers the figures from `k` on. A shape refers to the next figure, whether or not it is
one of its own, unless there can be none. -/
def number (k : ℕ) : OrderedTree Form → OrderedTree Label
  | .node form ts =>
    .node ⟨if form.outlines.isEmpty && ts.isEmpty then none else some k, form.shapeType⟩
      (numberAll (k + form.outlines.length) ts)

def numberAll (k : ℕ) : List (OrderedTree Form) → List (OrderedTree Label)
  | [] => []
  | t :: ts => number k t :: numberAll (k + (outlinesOf t).length) ts
end

mutual
theorem size_number (k : ℕ) (t : OrderedTree Form) : (number k t).size = t.size := by
  cases t with
  | node form ts => rw [number, OrderedTree.size, sizes_numberAll _ ts, OrderedTree.size]

theorem sizes_numberAll (k : ℕ) (ts : List (OrderedTree Form)) : sizes (numberAll k ts) = sizes ts := by
  cases ts with
  | nil => rfl
  | cons t ts => rw [numberAll, sizes, size_number k t, sizes_numberAll _ ts, sizes]
end

end Forms

/-- `-1` stands for no index. -/
def tableIndex : Option ℕ → Int32
  | none => -1
  | some n => Int32.ofNat n

def shapeOf (e : Entry Label) : Shape := ⟨tableIndex e.parent, tableIndex e.label.figure, e.label.shapeType⟩

def figuresFrom : ℕ → List Outline → List Figure
  | _, [] => []
  | base, o :: os => ⟨o.attr, UInt32.ofNat base⟩ :: figuresFrom (base + o.coords.length) os

/-- Figures with their points, and shapes with proper indices. -/
structure Layout where
  outlines : List Outline
  entries : List (Entry Label)

namespace Layout
variable (self : Layout)

def tables : Tables where
  points := self.outlines.flatMap Outline.coords
  figures := figuresFrom 0 self.outlines
  shapes := self.entries.map shapeOf

def empty : Layout := ⟨[], []⟩

def addOutlines (os : List Outline) : Layout := { self with outlines := self.outlines ++ os }

/-- Adds a tree of shapes below a parent. -/
def add (parent : Option ℕ) (t : OrderedTree Form) : Layout where
  outlines := self.outlines ++ outlinesOf t
  entries := self.entries ++ (number self.outlines.length t).entries parent self.entries.length

def addAll (parent : ℕ) (ts : List (OrderedTree Form)) : Layout where
  outlines := self.outlines ++ outlinesOfAll ts
  entries := self.entries ++ forest parent self.entries.length (numberAll self.outlines.length ts)

theorem addAll_nil (parent : ℕ) : self.addAll parent [] = self := by
  simp [addAll, outlinesOfAll, numberAll, forest]

theorem addAll_cons (parent : ℕ) (t : OrderedTree Form) (ts : List (OrderedTree Form)) :
    self.addAll parent (t :: ts) = (self.add (some parent) t).addAll parent ts := by
  simp [addAll, add, outlinesOfAll, numberAll, forest, length_entries]

theorem add_node (parent : Option ℕ) (shapeType : UInt8) (os : List Outline) (ts : List (OrderedTree Form)) :
    self.add parent (.node ⟨shapeType, os⟩ ts) =
      ({ outlines := self.outlines ++ os
         entries := self.entries ++
          [⟨parent, ⟨if os.isEmpty && ts.isEmpty then none else some self.outlines.length, shapeType⟩⟩] } :
        Layout).addAll self.entries.length ts := by
  simp [add, addAll, outlinesOf, number, OrderedTree.entries]

end Layout

theorem figuresFrom_append (base : ℕ) (os later : List Outline) :
    figuresFrom base (os ++ later) =
      figuresFrom base os ++ figuresFrom (base + (os.flatMap Outline.coords).length) later := by
  induction os generalizing base with
  | nil => simp [figuresFrom]
  | cons o os ih => simp [figuresFrom, ih, Nat.add_assoc]

@[simp] theorem length_figuresFrom (base : ℕ) (os : List Outline) : (figuresFrom base os).length = os.length := by
  induction os generalizing base with
  | nil => rfl
  | cons o os ih => rw [figuresFrom, List.length_cons, ih, List.length_cons]

section Pushing
variable (l : Layout)

theorem pushFigure_pushPoints (attr : UInt8) (coords : List Coord) :
    (l.tables.pushPoints coords).pushFigure attr (UInt32.ofNat l.tables.points.length) =
      (l.addOutlines [⟨attr, coords⟩]).tables := by
  simp [Layout.tables, Layout.addOutlines, Tables.pushPoints, Tables.pushFigure, figuresFrom_append, figuresFrom]

theorem pushShape_eq (parent figure : Option ℕ) (shapeType : UInt8) :
    l.tables.pushShape (tableIndex parent) (tableIndex figure) shapeType =
      (Int32.ofNat l.entries.length,
        ({ l with entries := l.entries ++ [⟨parent, ⟨figure, shapeType⟩⟩] } : Layout).tables) := by
  simp [Layout.tables, Tables.pushShape, shapeOf]

theorem pushEmptyShape_eq (parent : Option ℕ) (shapeType : UInt8) :
    l.tables.pushEmptyShape (tableIndex parent) shapeType =
      (Int32.ofNat l.entries.length, (l.add parent (emptyForm shapeType)).tables) := by
  have h := pushShape_eq l parent none shapeType
  rw [emptyForm, Layout.add_node, Layout.addAll_nil, List.append_nil]
  exact h

theorem pushStroke_eq (coords : List Coord) (parent : Option ℕ) (shapeType : UInt8) :
    l.tables.pushStroke coords (tableIndex parent) shapeType =
      (Int32.ofNat l.entries.length, (l.add parent (strokeForm shapeType coords)).tables) := by
  have hfigure := pushFigure_pushPoints l figureStroke coords
  have hshape := pushShape_eq (l.addOutlines [⟨figureStroke, coords⟩]) parent (some l.outlines.length) shapeType
  have hindex : Int32.ofNat (l.tables.pushPoints coords).figures.length = tableIndex (some l.outlines.length) := by
    simp [Tables.pushPoints, Layout.tables, tableIndex]
  rw [strokeForm, Layout.add_node, Layout.addAll_nil]
  unfold Tables.pushStroke
  dsimp only
  rw [hfigure, hindex, hshape]
  rfl

theorem pushParts_eq {ts : List (OrderedTree Form)} {pushAll : Int32 → Tables → Tables}
    (h : ∀ (l : Layout) base, pushAll (Int32.ofNat base) l.tables = (l.addAll base ts).tables)
    {isEmpty : Bool} (hempty : isEmpty = ts.isEmpty) (parent : Option ℕ) (shapeType : UInt8) :
    l.tables.pushParts isEmpty shapeType pushAll (tableIndex parent) =
      (Int32.ofNat l.entries.length, (l.add parent (.node ⟨shapeType, []⟩ ts)).tables) := by
  subst hempty
  unfold Tables.pushParts
  cases ts with
  | nil => exact pushEmptyShape_eq l parent shapeType
  | cons t ts =>
    have hindex : Int32.ofNat l.tables.figures.length = tableIndex (some l.outlines.length) := by
      simp [Layout.tables, tableIndex]
    rw [Layout.add_node, List.append_nil, List.isEmpty_cons, if_neg Bool.false_ne_true, hindex, pushShape_eq]
    dsimp only
    rw [h]
    rfl

theorem foldl_addAll {α : Type} (form : α → OrderedTree Form) (push : Int32 → Tables → α → Tables)
    (h : ∀ (l : Layout) base a, push (Int32.ofNat base) l.tables a = (l.add (some base) (form a)).tables)
    (parts : List α) (base : ℕ) :
    parts.foldl (push (Int32.ofNat base)) l.tables = (l.addAll base (parts.map form)).tables := by
  induction parts generalizing l with
  | nil => rw [List.map_nil, Layout.addAll_nil, List.foldl_nil]
  | cons a parts ih => rw [List.map_cons, Layout.addAll_cons, List.foldl_cons, h, ih]

theorem encodeLineString_eq (cs : LineString) (parent : Option ℕ) :
    encodeLineString cs (tableIndex parent) l.tables =
      (Int32.ofNat l.entries.length, (l.add parent (lineStringForm cs)).tables) := by
  unfold encodeLineString lineStringForm
  split
  · exact pushEmptyShape_eq l parent shapeLineString
  · exact pushStroke_eq l cs parent shapeLineString

theorem foldl_encodeInterior (interiors : List LineString) :
    interiors.foldl encodeInterior l.tables = (l.addOutlines (holes interiors)).tables := by
  induction interiors generalizing l with
  | nil => simp [holes, Layout.addOutlines]
  | cons ring interiors ih =>
    cases ring with
    | nil => exact ih l
    | cons c cs =>
      have hring : encodeInterior l.tables (c :: cs) =
          (l.addOutlines [⟨figureInteriorRing, c :: cs⟩]).tables :=
        pushFigure_pushPoints l figureInteriorRing (c :: cs)
      rw [List.foldl_cons, hring, ih]
      simp [Layout.addOutlines, holes]

theorem encodePolygon_eq (p : Polygon) (parent : Option ℕ) :
    encodePolygon p (tableIndex parent) l.tables =
      (Int32.ofNat l.entries.length, (l.add parent (polygonForm p)).tables) := by
  unfold encodePolygon polygonForm
  change (if p.isEmpty = true then _ else _) = _
  split
  · exact pushEmptyShape_eq l parent shapePolygon
  · have hindex : Int32.ofNat (l.tables.pushPoints p.exterior).figures.length =
        tableIndex (some l.outlines.length) := by
      simp [Tables.pushPoints, Layout.tables, tableIndex]
    have hshape := pushShape_eq
      ((l.addOutlines [⟨figureExteriorRing, p.exterior⟩]).addOutlines (holes p.interiors)) parent
      (some l.outlines.length) shapePolygon
    rw [Layout.add_node, Layout.addAll_nil]
    dsimp only
    rw [hindex, pushFigure_pushPoints, foldl_encodeInterior, hshape]
    simp [Layout.addOutlines]

end Pushing

mutual
/-- The encoder appends the layout of the geometry to the layout of what is there. -/
theorem encodeGeometry_eq (geo : GeoTypes) (g : Geometry) (parent : Option ℕ) (l : Layout) :
    encodeGeometry geo g (tableIndex parent) l.tables =
      (Int32.ofNat l.entries.length, (l.add parent (g.form geo)).tables) := by
  cases g with
  | point c => exact pushStroke_eq l [c] parent shapePoint
  | line start stop => exact pushStroke_eq l [start, stop] parent shapeLineString
  | lineString cs => exact encodeLineString_eq l cs parent
  | polygon p => exact encodePolygon_eq l p parent
  | multiPoint cs =>
    rw [encodeGeometry, Geometry.form]
    refine pushParts_eq l (fun l base => ?_) List.isEmpty_map.symm parent shapeMultiPoint
    exact foldl_addAll l (fun c => strokeForm shapePoint [c])
      (fun shapeIndex tables c => (tables.pushStroke [c] shapeIndex shapePoint).2)
      (fun l base c => congrArg Prod.snd (pushStroke_eq l [c] (some base) shapePoint)) cs base
  | multiLineString lines =>
    rw [encodeGeometry, Geometry.form]
    refine pushParts_eq l (fun l base => ?_) List.isEmpty_map.symm parent shapeMultiLineString
    exact foldl_addAll l lineStringForm (fun shapeIndex tables cs => (encodeLineString cs shapeIndex tables).2)
      (fun l base cs => congrArg Prod.snd (encodeLineString_eq l cs (some base))) lines base
  | multiPolygon ps =>
    rw [encodeGeometry, Geometry.form]
    refine pushParts_eq l (fun l base => ?_) List.isEmpty_map.symm parent shapeMultiPolygon
    exact foldl_addAll l polygonForm (fun shapeIndex tables p => (encodePolygon p shapeIndex tables).2)
      (fun l base p => congrArg Prod.snd (encodePolygon_eq l p (some base))) ps base
  | geometryCollection gs =>
    have hempty : gs.isEmpty = (Geometry.forms geo gs).isEmpty := by cases gs <;> rfl
    exact pushParts_eq l (fun l base => encodeGeometries_eq geo gs base l) hempty parent _
  | rect min max => exact encodePolygon_eq l (geo.rectToPolygon min max) parent
  | triangle v0 v1 v2 => exact encodePolygon_eq l (geo.triangleToPolygon v0 v1 v2) parent

theorem encodeGeometries_eq (geo : GeoTypes) (gs : List Geometry) (base : ℕ) (l : Layout) :
    encodeGeometries geo gs (Int32.ofNat base) l.tables = (l.addAll base (Geometry.forms geo gs)).tables := by
  cases gs with
  | nil => rw [encodeGeometries, Geometry.forms, Layout.addAll_nil]
  | cons g gs =>
    have hfirst : (encodeGeometry geo g (Int32.ofNat base) l.tables).2 =
        (l.add (some base) (g.form geo)).tables :=
      congrArg Prod.snd (encodeGeometry_eq geo g (some base) l)
    rw [encodeGeometries, hfirst, encodeGeometries_eq geo gs base, Geometry.forms, Layout.addAll_cons]
end

def layoutOf (geo : GeoTypes) (g : Geometry) : Layout := Layout.empty.add none (g.form geo)

theorem encodedTables_eq (geo : GeoTypes) (g : Geometry) : encodedTables geo g = (layoutOf geo g).tables :=
  congrArg Prod.snd (encodeGeometry_eq geo g none .empty)

end SqlxMssql
