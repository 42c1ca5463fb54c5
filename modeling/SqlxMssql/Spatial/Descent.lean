import SqlxMssql.Foundations.ParentWalks
import SqlxMssql.Spatial.Lookup

/-! # Decoding ends

The decoder goes from a shape to the shapes that name it as their parent, whatever the parents
of a payload are. It starts at a shape that names none, so it comes to no shape twice.
-/
namespace SqlxMssql
open Loops Utf8 ParentTables

/-- A run of the decoder that also keeps the indices of the shapes that it looks at. -/
abbrev Visiting (α : Type) := ExceptT Failure (StateM (List ℕ)) α

def visit (index : ℕ) : Visiting Unit := modify (· ++ [index])

namespace Tables
variable (geo : GeoTypes) (self : Tables)

/-- `eachChild`, with the shapes that it looks at. -/
def visitEachChild {α : Type} (index : ℕ) (read : Int32 → Decoded α) : Visiting (List α) :=
  (self.children index).mapM fun child => do
    visit child
    liftM (indexed self.shapes child >>= fun shape => read shape.figureOffset)

/-- `buildShape`, with the shapes that it looks at. -/
def visitShape : ℕ → ℕ → Visiting Geometry
  | 0, _ => throw (.aborted .diverge)
  | fuel + 1, index => do
    visit index
    let shape ← indexed self.shapes index
    if shape.shapeType = shapePoint then
      return .point (← self.firstCoord shape.figureOffset)
    else if shape.shapeType = shapeLineString then
      return .lineString (← self.figureCoords shape.figureOffset)
    else if shape.shapeType = shapePolygon then
      return .polygon (← self.buildPolygon geo shape.figureOffset)
    else if shape.shapeType = shapeMultiPoint then
      return .multiPoint (← self.visitEachChild index self.firstCoord)
    else if shape.shapeType = shapeMultiLineString then
      return .multiLineString (← self.visitEachChild index self.figureCoords)
    else if shape.shapeType = shapeMultiPolygon then
      return .multiPolygon (← self.visitEachChild index (self.buildPolygon geo))
    else if shape.shapeType = shapeGeometryCollection then
      return .geometryCollection (← (self.children index).mapM (visitShape fuel))
    else if shape.shapeType ∈ [shapeCircularString, shapeCompoundCurve, shapeCurvePolygon, shapeFullGlobe] then
      throw (.error ("SQL Server spatial shape type ".toList ++ decimal shape.shapeType.toNat ++
        " (curved or globe geometry) is not supported by geo-types".toList))
    else
      throw (.error ("unknown SQL Server spatial shape type ".toList ++ decimal shape.shapeType.toNat))

/-- `rebuild`, with the shapes that it looks at. -/
def visitTop : Visiting Geometry :=
  match self.shapes.findIdx? fun shape => shape.parent = -1 with
  | none => throw (.error "spatial payload has no top-level shape".toList)
  | some top => self.visitShape geo self.shapes.length top

def visited : List ℕ := ((self.visitTop geo).run.run []).2

end Tables

/-- The run returns what the decoder returns, and it looks at nothing but the trace. -/
structure Retraces {α : Type} (x : Visiting α) (y : Decoded α) (trace : List ℕ) : Prop where
  returns : ∀ abort, y ≠ .error (.aborted abort)
  run : ∀ seen, ∃ more, more.Sublist trace ∧ x.run.run seen = (y, seen ++ more)

namespace Retraces
variable {α β : Type} {x : Visiting α} {y : Decoded α} {trace : List ℕ}

theorem mono {longer : List ℕ} (h : Retraces x y trace) (hsub : trace.Sublist longer) : Retraces x y longer where
  returns := h.returns
  run seen := by
    obtain ⟨more, hmore, hrun⟩ := h.run seen
    exact ⟨more, hmore.trans hsub, hrun⟩

theorem lift (h : ∀ abort, y ≠ .error (.aborted abort)) : Retraces (liftM y) y [] where
  returns := h
  run seen := ⟨[], List.Sublist.refl [], by rw [List.append_nil]; rfl⟩

theorem ok (a : α) : Retraces (pure a) (.ok a) [] where
  returns _ := by simp
  run seen := ⟨[], List.Sublist.refl [], by rw [List.append_nil]; rfl⟩

theorem refused (message : Text) : Retraces (throw (.error message) : Visiting α) (.error (.error message)) [] where
  returns _ := by simp
  run seen := ⟨[], List.Sublist.refl [], by rw [List.append_nil]; rfl⟩

theorem bind {f : α → Visiting β} {g : α → Decoded β} {later : List ℕ} (h : Retraces x y trace)
    (hf : ∀ a, y = .ok a → Retraces (f a) (g a) later) : Retraces (x >>= f) (y >>= g) (trace ++ later) := by
  cases y with
  | error e =>
    refine ⟨fun abort heq => h.returns abort (congrArg Except.error (Except.error.inj heq)), fun seen => ?_⟩
    obtain ⟨more, hmore, hrun⟩ := h.run seen
    refine ⟨more, hmore.trans (List.sublist_append_left trace later), ?_⟩
    rw [ExceptT.run_bind, StateT.run_bind, hrun]
    rfl
  | ok a =>
    refine ⟨(hf a rfl).returns, fun seen => ?_⟩
    obtain ⟨more, hmore, hrun⟩ := h.run seen
    obtain ⟨rest, hrest, hlater⟩ := (hf a rfl).run (seen ++ more)
    refine ⟨more ++ rest, hmore.append hrest, ?_⟩
    rw [ExceptT.run_bind, StateT.run_bind, hrun, ← List.append_assoc]
    exact hlater

theorem map {f : α → β} (h : Retraces x y trace) :
    Retraces (do return f (← x)) (do return f (← y)) trace := by
  have hbind := h.bind fun a _ => ok (f a)
  rwa [List.append_nil] at hbind

/-- What is done behind a visit. -/
theorem visiting {i : ℕ} {f : Visiting α} (h : Retraces f y trace) : Retraces (do visit i; f) y (i :: trace) where
  returns := h.returns
  run seen := by
    obtain ⟨more, hmore, hrun⟩ := h.run (seen ++ [i])
    refine ⟨i :: more, hmore.cons_cons i, ?_⟩
    rw [List.append_assoc, List.singleton_append] at hrun
    exact hrun

theorem mapM {f : ℕ → Visiting β} {g : ℕ → Decoded β} {below : ℕ → List ℕ} {is : List ℕ}
    (h : ∀ i ∈ is, Retraces (f i) (g i) (below i)) : Retraces (is.mapM f) (is.mapM g) (is.flatMap below) := by
  induction is with
  | nil =>
    rw [List.mapM_nil, List.mapM_nil]
    exact ok []
  | cons i is ih =>
    rw [List.mapM_cons, List.mapM_cons, List.flatMap_cons]
    refine (h i List.mem_cons_self).bind fun b _ => ?_
    exact (ih fun j hj => h j (List.mem_cons_of_mem i hj)).map

end Retraces
section Table
variable (self : Tables)

def Tables.parentTable : List (Entry Shape) := self.shapes.map fun shape => ⟨toUsize shape.parent, shape⟩

theorem toUsize_eq_some {value : Int32} {n : ℕ} (hn : n < 2147483648) :
    toUsize value = some n ↔ value = Int32.ofNat n := by
  constructor
  · intro h
    unfold toUsize at h
    split at h
    · cases h
    · rename_i hneg
      have hpos : 0 ≤ value.toInt := Int32.le_iff_toInt_le.mp (Int32.not_lt.mp hneg)
      have hvalue : value.toInt = n := by
        rw [← Option.some.inj h]
        exact (Int.toNat_of_nonneg hpos).symm
      rw [← Int32.ofInt_toInt value, hvalue]
      rfl
  · rintro rfl
    exact toUsize_tableIndex hn

variable {self}

theorem children_parentTable {i : ℕ} (hi : i < 2147483648) : self.children i = children self.parentTable i := by
  unfold Tables.children children Tables.parentTable
  rw [List.findIdxs_map]
  exact findIdxs_congr (fun shape _ => decide_eq_decide.mpr (toUsize_eq_some hi).symm) 0

theorem orphan_of_findIdx? {top : ℕ} (h : self.shapes.findIdx? (fun shape => shape.parent = -1) = some top) :
    Orphan self.parentTable top := by
  obtain ⟨hlt, hparent, -⟩ := List.findIdx?_eq_some_iff_getElem.mp h
  refine ⟨⟨toUsize self.shapes[top].parent, self.shapes[top]⟩, ?_, ?_⟩
  · rw [Tables.parentTable, List.getElem?_map, List.getElem?_eq_getElem hlt]
    rfl
  · have hvalue : self.shapes[top].parent = -1 := of_decide_eq_true hparent
    simp only [hvalue]
    decide

theorem length_parentTable : self.parentTable.length = self.shapes.length := List.length_map _

end Table

section Returns
variable {α β : Type} {self : Tables} {geo : GeoTypes}

theorem returns_indexed {i : ℕ} (h : i < self.shapes.length) (abort : Abort) :
    indexed self.shapes i ≠ .error (.aborted abort) := by
  rw [indexed, List.getElem?_eq_getElem h]
  simp

theorem returns_bind {y : Decoded α} {g : α → Decoded β} (h : ∀ abort, y ≠ .error (.aborted abort))
    (hg : ∀ a, y = .ok a → ∀ abort, g a ≠ .error (.aborted abort)) (abort : Abort) :
    y >>= g ≠ .error (.aborted abort) := by
  cases y with
  | error e =>
    intro heq
    exact h abort (congrArg Except.error (Except.error.inj heq))
  | ok a => exact hg a rfl abort

theorem returns_figureCoords (figureOffset : Int32) (abort : Abort) :
    self.figureCoords figureOffset ≠ .error (.aborted abort) := by
  unfold Tables.figureCoords
  split
  · simp
  · split
    · simp [failWith]
    · split
      · simp [failWith]
      · dsimp only
        split
        · simp
        · simp [failWith]

theorem returns_firstCoord (figureOffset : Int32) (abort : Abort) :
    self.firstCoord figureOffset ≠ .error (.aborted abort) := by
  refine returns_bind (returns_figureCoords figureOffset) (fun coords _ abort => ?_) abort
  split
  · simp [pure, Except.pure]
  · simp [failWith]

theorem returns_interiorRings (figures : List (Figure × ℕ)) (abort : Abort) :
    self.interiorRings figures ≠ .error (.aborted abort) := by
  induction figures generalizing abort with
  | nil => simp [Tables.interiorRings]
  | cons entry rest ih =>
    obtain ⟨figure, index⟩ := entry
    rw [Tables.interiorRings]
    split
    · simp
    · split
      · refine returns_bind (returns_figureCoords _) (fun ring _ => returns_bind ih fun rings _ abort => ?_) abort
        simp [pure, Except.pure]
      · exact ih abort

theorem returns_buildPolygon (figureOffset : Int32) (abort : Abort) :
    self.buildPolygon geo figureOffset ≠ .error (.aborted abort) := by
  unfold Tables.buildPolygon
  split
  · simp
  · refine returns_bind (returns_figureCoords _)
      (fun exterior _ => returns_bind (returns_interiorRings _) fun interiors _ abort => ?_) abort
    simp [pure, Except.pure]

end Returns

section Descent
variable {self : Tables} {geo : GeoTypes}

theorem retraces_eachChild {α : Type} {i : ℕ} {read : Int32 → Decoded α} (hi : i < 2147483648)
    (hread : ∀ figureOffset abort, read figureOffset ≠ .error (.aborted abort)) :
    Retraces (self.visitEachChild i read) (self.eachChild i read) (self.children i) := by
  have h : Retraces (self.visitEachChild i read) (self.eachChild i read)
      ((self.children i).flatMap fun child => [child]) := by
    refine Retraces.mapM fun child hchild => Retraces.visiting (Retraces.lift (returns_bind (returns_indexed ?_) ?_))
    · rw [children_parentTable hi] at hchild
      exact length_parentTable ▸ lt_of_mem_children hchild
    · intro shape _
      exact hread shape.figureOffset
  rwa [List.flatMap_singleton'] at h

/-- Below a shape without a parent the fuel lasts, since no way down is longer than the table. -/
theorem retraces_buildShape {top : ℕ} (hsmall : self.shapes.length < 2147483648) (htop : Orphan self.parentTable top)
    {fuel depth i : ℕ} (h : Below self.parentTable top depth i) (hfuel : self.shapes.length ≤ depth + fuel) :
    Retraces (self.visitShape geo fuel i) (self.buildShape geo fuel i) (descendants self.parentTable fuel i) := by
  have hdepth := htop.depth_lt h
  have hlt := h.lt_length htop.lt_length
  rw [length_parentTable] at hdepth hlt
  induction fuel generalizing depth i with
  | zero => omega
  | succ fuel ih =>
    have hchildren : self.children i = children self.parentTable i := children_parentTable (hlt.trans hsmall)
    have hleaves : (self.children i).Sublist ((self.children i).flatMap (descendants self.parentTable fuel)) := by
      rw [hchildren]
      exact children_sublist_descendants fuel i
    have heach {α : Type} {read : Int32 → Decoded α} (wrap : List α → Geometry)
        (hread : ∀ figureOffset abort, read figureOffset ≠ .error (.aborted abort)) :
        Retraces (do return wrap (← self.visitEachChild i read)) (do return wrap (← self.eachChild i read))
          ((self.children i).flatMap (descendants self.parentTable fuel)) :=
      ((retraces_eachChild (hlt.trans hsmall) hread).mono hleaves).map
    have hown {α : Type} {y : Decoded α} (wrap : α → Geometry) (hy : ∀ abort, y ≠ .error (.aborted abort)) :
        Retraces (do return wrap (← y)) (do return wrap (← y))
          ((self.children i).flatMap (descendants self.parentTable fuel)) :=
      (Retraces.lift hy).map.mono (List.nil_sublist _)
    have hrefused (message : Text) : Retraces (throw (.error message) : Visiting Geometry) (.error (.error message))
        ((self.children i).flatMap (descendants self.parentTable fuel)) :=
      (Retraces.refused message).mono (List.nil_sublist _)
    have hbelow : Retraces ((self.children i).mapM (self.visitShape geo fuel))
        ((self.children i).mapM (self.buildShape geo fuel))
        ((self.children i).flatMap (descendants self.parentTable fuel)) := by
      refine Retraces.mapM fun c hc => ?_
      have hchild := h.child (hchildren ▸ hc)
      have hdepth := htop.depth_lt hchild
      have hlt := hchild.lt_length htop.lt_length
      rw [length_parentTable] at hdepth hlt
      exact ih hchild (by omega) hdepth hlt
    rw [Tables.visitShape, Tables.buildShape, descendants, ← hchildren]
    refine Retraces.visiting ((Retraces.lift (returns_indexed hlt)).bind fun shape _ => ?_)
    split
    · exact hown .point (returns_firstCoord _)
    split
    · exact hown .lineString (returns_figureCoords _)
    split
    · exact hown .polygon (returns_buildPolygon _)
    split
    · exact heach .multiPoint returns_firstCoord
    split
    · exact heach .multiLineString returns_figureCoords
    split
    · exact heach .multiPolygon returns_buildPolygon
    split
    · exact hbelow.map
    split
    · exact hrefused _
    · exact hrefused _

/-- Every index that is looked at is in the table, and no index is looked at twice. -/
theorem rebuild_retraces (geo : GeoTypes) (hsmall : self.shapes.length < 2147483648) :
    ∃ trace : List ℕ, trace.Nodup ∧ (∀ i ∈ trace, i < self.shapes.length) ∧
      Retraces (self.visitTop geo) (self.rebuild geo) trace := by
  unfold Tables.visitTop Tables.rebuild
  cases htop : self.shapes.findIdx? fun shape => shape.parent = -1 with
  | none => exact ⟨[], List.nodup_nil, fun _ hi => absurd hi List.not_mem_nil, Retraces.refused _⟩
  | some top =>
    have horphan := orphan_of_findIdx? htop
    refine ⟨_, horphan.nodup_descendants Below.top, fun i hi => ?_,
      retraces_buildShape hsmall horphan Below.top (by omega)⟩
    obtain ⟨n, hn⟩ := below_of_mem_descendants hi
    exact length_parentTable ▸ hn.lt_length horphan.lt_length

end Descent

/-- Whatever the parents in a shape table are, the decoder ends and looks at every shape at most
once; and on every payload it returns a geometry or an error. -/
theorem wireDecode_ends (geo : GeoTypes) (bytes : List UInt8)
    (hsmall : ∀ srid tables, (Reader.payload (.start bytes)).1 = .ok (srid, tables) → tables.shapes.length < 2147483648) :
    (∀ abort, wireDecode geo bytes ≠ .error (.aborted abort)) ∧
      ∀ tables : Tables, tables.shapes.length < 2147483648 →
        (∀ abort, tables.rebuild geo ≠ .error (.aborted abort)) ∧
          ((tables.visitTop geo).run.run []).1 = tables.rebuild geo ∧ (tables.visited geo).Nodup ∧
            ∀ i ∈ tables.visited geo, i < tables.shapes.length := by
  constructor
  · intro abort
    unfold wireDecode
    cases hpayload : (Reader.payload (.start bytes)).1 with
    | error message => simp
    | ok found =>
      obtain ⟨srid, tables⟩ := found
      obtain ⟨trace, -, -, hretraces⟩ := rebuild_retraces geo (hsmall srid tables hpayload)
      refine returns_bind hretraces.returns (fun geometry _ abort => ?_) abort
      simp [pure, Except.pure]
  · intro tables htables
    obtain ⟨trace, hnodup, hlt, hretraces⟩ := rebuild_retraces geo htables
    obtain ⟨more, hmore, hrun⟩ := hretraces.run []
    have hvisited : tables.visited geo = more := congrArg Prod.snd hrun
    refine ⟨hretraces.returns, congrArg Prod.fst hrun, ?_, fun i hi => ?_⟩
    · rw [hvisited]
      exact hnodup.sublist hmore
    · rw [hvisited] at hi
      exact hlt i (hmore.subset hi)

/-- A collection beside a shape that is its own parent, and one that points out of the table. -/
def strayParents : List UInt8 :=
  [0, 0, 0, 0, 1, 4, 0, 0, 0, 0, 0, 0, 0, 0, 3, 0, 0, 0, 255, 255, 255, 255, 255, 255, 255, 255, 7,
    1, 0, 0, 0, 255, 255, 255, 255, 7, 9, 0, 0, 0, 255, 255, 255, 255, 7]

theorem payload_strayParents : (Reader.payload (.start strayParents)).1 =
    .ok (0, ⟨[], [], [⟨-1, -1, 7⟩, ⟨1, -1, 7⟩, ⟨9, -1, 7⟩]⟩) := by
  decide +kernel

theorem wireDecode_ends_strayParents :
    wireDecode closingGeoTypes strayParents ≠ .error (.aborted .panic) ∧
      wireDecode closingGeoTypes strayParents ≠ .error (.aborted .diverge) := by
  have hends := wireDecode_ends closingGeoTypes strayParents (fun srid tables h => by
    rw [payload_strayParents] at h
    cases h
    decide)
  exact ⟨hends.1 .panic, hends.1 .diverge⟩

end SqlxMssql
