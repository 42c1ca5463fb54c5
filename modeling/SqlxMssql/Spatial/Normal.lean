import SqlxMssql.Spatial.RoundTrip

/-! # Reading back what was read

A geometry that the decoder has built can be written and read again. The library closes the
rings of its polygons, so all that a second reading drops are their empty holes.
-/
namespace SqlxMssql
open Loops ByteFormats ParentTables

/-- `Polygon::new` closes the rings that it is given. -/
def GeoTypes.Closing (geo : GeoTypes) : Prop :=
  ∀ exterior interiors, geo.polygonNew exterior interiors = closedPolygon exterior interiors

section Rings

theorem mem_closeRing {ring : LineString} {c : Coord} (h : c ∈ ring) : c ∈ closeRing ring := by
  unfold closeRing
  split
  · exact h
  · exact List.mem_append_left _ h

theorem ringSound_closeRing {ring : LineString} (h : ∀ c ∈ closeRing ring, c.NotNan) : RingSound (closeRing ring) := by
  refine ⟨?_, h⟩
  by_cases hclosed : isClosed ring = true
  · rwa [closeRing, if_pos hclosed]
  · cases ring with
    | nil => exact absurd rfl hclosed
    | cons c cs =>
      have hc : c.NotNan := h c (mem_closeRing List.mem_cons_self)
      have hlast : ((c :: cs) ++ [c]).getLast? = some c := List.getLast?_concat
      have hring : closeRing (c :: cs) = (c :: cs) ++ [c] := if_neg hclosed
      rw [hring]
      simp only [isClosed, hlast]
      exact Coord.beq_self hc

end Rings

/-- A polygon with numbers for coordinates, whose holes are holes in something. -/
structure Polygon.Drawn (p : Polygon) : Prop where
  exterior : ∀ c ∈ p.exterior, c.NotNan
  interiors : ∀ ring ∈ p.interiors, ∀ c ∈ ring, c.NotNan
  hole : (∃ ring ∈ p.interiors, ring ≠ []) → p.exterior ≠ []

mutual
/-- The coordinates are numbers and holes are holes in something. -/
def Geometry.Drawn : Geometry → Prop
  | .point c => c.NotNan
  | .line start stop => start.NotNan ∧ stop.NotNan
  | .lineString cs => ∀ c ∈ cs, c.NotNan
  | .polygon p => p.Drawn
  | .multiPoint cs => ∀ c ∈ cs, c.NotNan
  | .multiLineString lines => ∀ cs ∈ lines, ∀ c ∈ cs, c.NotNan
  | .multiPolygon ps => ∀ p ∈ ps, p.Drawn
  | .geometryCollection gs => Geometry.AllDrawn gs
  | .rect min max => min.NotNan ∧ max.NotNan
  | .triangle v0 v1 v2 => v0.NotNan ∧ v1.NotNan ∧ v2.NotNan

def Geometry.AllDrawn : List Geometry → Prop
  | [] => True
  | g :: gs => g.Drawn ∧ Geometry.AllDrawn gs
end

mutual
/-- A geometry of the kinds that the decoder has, with its polygons built by the library. -/
def Geometry.Built (geo : GeoTypes) : Geometry → Prop
  | .point _ | .lineString _ | .multiPoint _ | .multiLineString _ => True
  | .polygon p => ∃ exterior interiors, p = geo.polygonNew exterior interiors
  | .multiPolygon ps => ∀ p ∈ ps, ∃ exterior interiors, p = geo.polygonNew exterior interiors
  | .geometryCollection gs => Geometry.AllBuilt geo gs
  | .line _ _ | .rect _ _ | .triangle _ _ _ => False

def Geometry.AllBuilt (geo : GeoTypes) : List Geometry → Prop
  | [] => True
  | g :: gs => g.Built geo ∧ Geometry.AllBuilt geo gs
end

mutual
/-- No polygon has a hole without points. -/
def Geometry.Filled : Geometry → Prop
  | .polygon p => [] ∉ p.interiors
  | .multiPolygon ps => ∀ p ∈ ps, [] ∉ p.interiors
  | .geometryCollection gs => Geometry.AllFilled gs
  | _ => True

def Geometry.AllFilled : List Geometry → Prop
  | [] => True
  | g :: gs => g.Filled ∧ Geometry.AllFilled gs
end

variable {geo : GeoTypes}

section Built
variable {tables : Tables}

theorem decoded_bind {α β : Type} {decoded : Decoded α} {f : α → Decoded β} {b : β} (h : decoded >>= f = .ok b) :
    ∃ a, decoded = .ok a ∧ f a = .ok b := by
  cases decoded with
  | error e => cases h
  | ok a => exact ⟨a, rfl, h⟩

theorem exists_of_mapM {α β : Type} {f : α → Decoded β} {xs : List α} {ys : List β} (h : xs.mapM f = .ok ys) :
    ∀ y ∈ ys, ∃ x ∈ xs, f x = .ok y := by
  induction xs generalizing ys with
  | nil =>
    cases h
    exact fun y hy => absurd hy List.not_mem_nil
  | cons x xs ih =>
    rw [List.mapM_cons] at h
    obtain ⟨first, hfirst, h⟩ := decoded_bind h
    obtain ⟨others, hothers, h⟩ := decoded_bind h
    cases h
    intro y hy
    rcases List.mem_cons.mp hy with rfl | hy
    · exact ⟨x, List.mem_cons_self, hfirst⟩
    · obtain ⟨x', hx', hread⟩ := ih hothers y hy
      exact ⟨x', List.mem_cons_of_mem x hx', hread⟩

theorem built_of_buildPolygon {figureOffset : Int32} {p : Polygon} (h : tables.buildPolygon geo figureOffset = .ok p) :
    ∃ exterior interiors, p = geo.polygonNew exterior interiors := by
  unfold Tables.buildPolygon at h
  split at h
  · cases h
    exact ⟨[], [], rfl⟩
  · obtain ⟨exterior, -, h⟩ := decoded_bind h
    obtain ⟨interiors, -, h⟩ := decoded_bind h
    cases h
    exact ⟨exterior, interiors, rfl⟩

theorem allBuilt_of_forall {gs : List Geometry} (h : ∀ g ∈ gs, g.Built geo) : Geometry.AllBuilt geo gs := by
  induction gs with
  | nil => exact trivial
  | cons g gs ih => exact ⟨h g List.mem_cons_self, ih fun g' hg' => h g' (List.mem_cons_of_mem g hg')⟩

/-- At every depth the decoder builds only what it has kinds for. -/
theorem built_of_buildShape {fuel i : ℕ} {g : Geometry} (h : tables.buildShape geo fuel i = .ok g) : g.Built geo := by
  induction fuel generalizing i g with
  | zero => cases h
  | succ fuel ih =>
    rw [Tables.buildShape] at h
    obtain ⟨shape, -, h⟩ := decoded_bind h
    split at h
    · obtain ⟨c, -, h⟩ := decoded_bind h
      cases h
      exact trivial
    split at h
    · obtain ⟨cs, -, h⟩ := decoded_bind h
      cases h
      exact trivial
    split at h
    · obtain ⟨p, hp, h⟩ := decoded_bind h
      cases h
      exact built_of_buildPolygon hp
    split at h
    · obtain ⟨cs, -, h⟩ := decoded_bind h
      cases h
      exact trivial
    split at h
    · obtain ⟨lines, -, h⟩ := decoded_bind h
      cases h
      exact trivial
    split at h
    · obtain ⟨ps, hps, h⟩ := decoded_bind h
      cases h
      intro p hp
      obtain ⟨child, -, hchild⟩ := exists_of_mapM hps p hp
      obtain ⟨childShape, -, hbuilt⟩ := decoded_bind hchild
      exact built_of_buildPolygon hbuilt
    split at h
    · obtain ⟨gs, hgs, h⟩ := decoded_bind h
      cases h
      apply allBuilt_of_forall
      intro g hg
      obtain ⟨child, -, hchild⟩ := exists_of_mapM hgs g hg
      exact ih hchild
    split at h
    · cases h
    · cases h

theorem built_of_wireDecode {bytes : List UInt8} {srid : Int32} {g : Geometry}
    (h : wireDecode geo bytes = .ok (srid, g)) : g.Built geo := by
  unfold wireDecode at h
  split at h
  · cases h
  · obtain ⟨built, hbuilt, h⟩ := decoded_bind h
    cases h
    unfold Tables.rebuild at hbuilt
    split at hbuilt
    · cases hbuilt
    · exact built_of_buildShape hbuilt

end Built

section Sound

theorem Polygon.sound_of_drawn (hclosing : geo.Closing) {p : Polygon}
    (hbuilt : ∃ exterior interiors, p = geo.polygonNew exterior interiors) (h : p.Drawn) : p.Sound := by
  obtain ⟨exterior, interiors, rfl⟩ := hbuilt
  rw [hclosing] at h ⊢
  constructor
  · exact ringSound_closeRing h.exterior
  · intro ring hring
    obtain ⟨open', -, rfl⟩ := List.mem_map.mp hring
    exact ringSound_closeRing (h.interiors _ hring)
  · exact h.hole

mutual
theorem sound_of_drawn (hclosing : geo.Closing) (g : Geometry) (hbuilt : g.Built geo) (h : g.Drawn) : g.Sound := by
  cases g with
  | point c => exact h
  | lineString cs => exact h
  | multiPoint cs => exact h
  | multiLineString lines => exact h
  | polygon p => exact Polygon.sound_of_drawn hclosing hbuilt h
  | multiPolygon ps => exact fun p hp => Polygon.sound_of_drawn hclosing (hbuilt p hp) (h p hp)
  | geometryCollection gs => exact allSound_of_drawn hclosing gs hbuilt h
  | line start stop => exact hbuilt.elim
  | rect min max => exact hbuilt.elim
  | triangle v0 v1 v2 => exact hbuilt.elim

theorem allSound_of_drawn (hclosing : geo.Closing) (gs : List Geometry) (hbuilt : Geometry.AllBuilt geo gs)
    (h : Geometry.AllDrawn gs) : Geometry.AllSound gs := by
  cases gs with
  | nil => exact trivial
  | cons g gs => exact ⟨sound_of_drawn hclosing g hbuilt.1 h.1, allSound_of_drawn hclosing gs hbuilt.2 h.2⟩
end

theorem dropEmptyHoles_eq_iff (p : Polygon) : p.dropEmptyHoles = p ↔ [] ∉ p.interiors := by
  obtain ⟨exterior, interiors⟩ := p
  rw [Polygon.dropEmptyHoles, Polygon.mk.injEq, eq_self_iff_true, true_and, List.filter_eq_self]
  constructor
  · intro h hmem
    exact absurd rfl (of_decide_eq_true (h [] hmem))
  · intro h ring hring
    rw [decide_eq_true_eq]
    rintro rfl
    exact h hring

mutual
/-- Of what the decoder builds only the empty holes are not native. -/
theorem native_eq_iff (g : Geometry) (hbuilt : g.Built geo) : g.native geo = g ↔ g.Filled := by
  cases g with
  | point c => exact iff_of_true rfl trivial
  | lineString cs => exact iff_of_true rfl trivial
  | multiPoint cs => exact iff_of_true rfl trivial
  | multiLineString lines => exact iff_of_true rfl trivial
  | polygon p =>
    rw [Geometry.native, Geometry.polygon.injEq]
    exact dropEmptyHoles_eq_iff p
  | multiPolygon ps =>
    have hmap : ps.map Polygon.dropEmptyHoles = ps ↔ ∀ p ∈ ps, p.dropEmptyHoles = p := by
      conv_lhs => rhs; rw [← List.map_id ps]
      exact List.map_inj_left
    rw [Geometry.native, Geometry.multiPolygon.injEq, hmap]
    exact forall₂_congr fun p _ => dropEmptyHoles_eq_iff p
  | geometryCollection gs =>
    rw [Geometry.native, Geometry.geometryCollection.injEq]
    exact natives_eq_iff gs hbuilt
  | line start stop => exact hbuilt.elim
  | rect min max => exact hbuilt.elim
  | triangle v0 v1 v2 => exact hbuilt.elim

theorem natives_eq_iff (gs : List Geometry) (hbuilt : Geometry.AllBuilt geo gs) :
    Geometry.natives geo gs = gs ↔ Geometry.AllFilled gs := by
  cases gs with
  | nil => exact iff_of_true rfl trivial
  | cons g gs =>
    rw [Geometry.natives, List.cons.injEq]
    exact and_congr (native_eq_iff g hbuilt.1) (natives_eq_iff gs hbuilt.2)
end

end Sound

/-- What was read, with numbers for coordinates and no hole in nothing, is read again after it has
been written, but for its empty holes; from then on nothing changes any more. -/
theorem wireDecode_again (hgeo : geo.Lawful) (hclosing : geo.Closing) {bytes : List UInt8} {srid : Int32}
    {g : Geometry} (h : wireDecode geo bytes = .ok (srid, g)) (hdrawn : g.Drawn)
    (hsmall : (encodedTables geo g).Small) :
    wireDecode geo (wireEncode geo srid g) = .ok (srid, g.native geo) ∧
      wireEncode geo srid (g.native geo) = wireEncode geo srid g ∧ (g.native geo = g ↔ g.Filled) := by
  have hbuilt := built_of_wireDecode h
  have hsound := sound_of_drawn hclosing g hbuilt hdrawn
  exact ⟨wireDecode_sound hgeo srid hsound hsmall, wireEncode_native srid g, native_eq_iff g hbuilt⟩

/-- The payload of a polygon whose ring is open and which has a hole without points. -/
def openRing : List UInt8 :=
  i32Bytes 0 ++ [1, propValid] ++
    u32Bytes 2 ++ ([⟨f64One, f64One⟩, ⟨f64Two, f64One⟩] : List Coord).flatMap Coord.bytes ++
    u32Bytes 2 ++ ([⟨figureExteriorRing, 0⟩, ⟨figureInteriorRing, 2⟩] : List Figure).flatMap Figure.bytes ++
    u32Bytes 1 ++ Shape.bytes ⟨-1, 0, shapePolygon⟩

/-- The ring that the library has closed is kept, and the hole is gone. -/
theorem openRing_again :
    wireDecode closingGeoTypes openRing =
        .ok (0, .polygon ⟨[⟨f64One, f64One⟩, ⟨f64Two, f64One⟩, ⟨f64One, f64One⟩], [[]]⟩) ∧
      wireDecode closingGeoTypes (wireEncode closingGeoTypes 0
          (.polygon ⟨[⟨f64One, f64One⟩, ⟨f64Two, f64One⟩, ⟨f64One, f64One⟩], [[]]⟩)) =
        .ok (0, .polygon ⟨[⟨f64One, f64One⟩, ⟨f64Two, f64One⟩, ⟨f64One, f64One⟩], []⟩) := by
  have hread : wireDecode closingGeoTypes openRing =
      .ok (0, .polygon ⟨[⟨f64One, f64One⟩, ⟨f64Two, f64One⟩, ⟨f64One, f64One⟩], [[]]⟩) := by
    have hpayload : (Reader.payload (.start openRing)).1 = .ok (0, ⟨[⟨f64One, f64One⟩, ⟨f64Two, f64One⟩],
        [⟨figureExteriorRing, 0⟩, ⟨figureInteriorRing, 2⟩], [⟨-1, 0, shapePolygon⟩]⟩) := by decide +kernel
    rw [wireDecode, hpayload]
    rfl
  have hdrawn : Polygon.Drawn ⟨[⟨f64One, f64One⟩, ⟨f64Two, f64One⟩, ⟨f64One, f64One⟩], [[]]⟩ :=
    ⟨by decide, by decide, fun _ => List.cons_ne_nil _ _⟩
  exact ⟨hread, (wireDecode_again closingGeoTypes_lawful (fun _ _ => rfl) hread hdrawn
    ⟨by decide, by decide, by decide⟩).1⟩

end SqlxMssql
