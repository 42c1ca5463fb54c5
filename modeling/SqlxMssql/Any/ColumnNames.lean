import SqlxMssql.Connection.Session
import Mathlib.Data.List.Count

/-! # Columns by name

A row and a statement look a name up among their columns. The `Any` driver looks it up in a
table that is filled from the same columns, where a later column replaces an earlier one of
the same name.
-/
namespace SqlxMssql
open Utf8

structure MssqlRow where
  columns : List MssqlColumn
  values : List MssqlValue
  deriving DecidableEq, Repr

/-- The parameters are the types, or only their number. -/
structure MssqlStatement where
  sql : Text
  columns : List MssqlColumn
  parameters : Option (List MssqlTypeInfo ⊕ ℕ)
  deriving DecidableEq, Repr

/-- `Error::ColumnNotFound` -/
structure ColumnNotFound where
  name : Text
  deriving DecidableEq, Repr

/-- The first column of exactly this name, or else of this name in any letter case. -/
def columnIndex (columns : List MssqlColumn) (name : Text) : Except ColumnNotFound ℕ :=
  match columns.findIdx? (·.name = name) with
  | some index => .ok index
  | none =>
    match columns.findIdx? fun column => eqIgnoreAsciiCase column.name name with
    | some index => .ok index
    | none => .error ⟨name⟩

def MssqlRow.index (row : MssqlRow) (name : Text) : Except ColumnNotFound ℕ := columnIndex row.columns name

def MssqlStatement.index (statement : MssqlStatement) (name : Text) : Except ColumnNotFound ℕ :=
  columnIndex statement.columns name

/-- The table of the names, to which the columns are added in their order. -/
def columnNames (columns : List MssqlColumn) : Std.HashMap String ℕ :=
  columns.zipIdx.foldl (fun names (column, index) => names.insert (String.ofList column.name) index) ∅

/-- The table that `AnyRow::try_from` builds. -/
def MssqlRow.names (row : MssqlRow) : Std.HashMap String ℕ := columnNames row.columns

/-- The table that `AnyConnectionBackend::prepare_with` builds. -/
def MssqlStatement.names (statement : MssqlStatement) : Std.HashMap String ℕ := columnNames statement.columns

/-- The first column of exactly this name. -/
def FirstNamed (columns : List MssqlColumn) (name : Text) (index : ℕ) : Prop :=
  (columns.map (·.name))[index]? = some name ∧ ∀ i < index, (columns.map (·.name))[i]? ≠ some name

/-- A name among the columns stands for the same one of them in a row and in a statement,
natively and through the `Any` driver. -/
def SameColumn (columns : List MssqlColumn) (name : Text) : Prop :=
  name ∈ columns.map (·.name) → ∀ values sql parameters, ∃ index, FirstNamed columns name index ∧
    (MssqlRow.mk columns values).index name = .ok index ∧
    (MssqlStatement.mk sql columns parameters).index name = .ok index ∧
    (MssqlRow.mk columns values).names[String.ofList name]? = some index ∧
    (MssqlStatement.mk sql columns parameters).names[String.ofList name]? = some index

section Tables
variable {before after : List MssqlColumn} {column : MssqlColumn}

theorem columnNames_concat (columns : List MssqlColumn) (column : MssqlColumn) :
    columnNames (columns ++ [column]) = (columnNames columns).insert (String.ofList column.name) columns.length := by
  simp only [columnNames, List.zipIdx_append, List.foldl_append, Nat.zero_add]
  rfl

theorem columnNames_here (before : List MssqlColumn) (h : column.name ∉ after.map (·.name)) :
    (columnNames (before ++ column :: after))[String.ofList column.name]? = some before.length := by
  induction after using List.reverseRecOn with
  | nil => rw [columnNames_concat, Std.HashMap.getElem?_insert_self]
  | append_singleton after later ih =>
    rw [List.map_append, List.mem_append, not_or] at h
    have hlater : ¬ String.ofList later.name == String.ofList column.name := by
      rw [beq_iff_eq, String.ofList_inj]
      exact fun heq => h.2 (List.mem_singleton.mpr heq.symm)
    have hsplit : before ++ column :: (after ++ [later]) = (before ++ column :: after) ++ [later] := by simp
    rw [hsplit, columnNames_concat, Std.HashMap.getElem?_insert, if_neg hlater, ih h.1]

/-- A later column of the same name takes the place of an earlier one. -/
theorem columnNames_later (before : List MssqlColumn) {name : Text} (h : name ∈ after.map (·.name)) :
    ∃ index, before.length ≤ index ∧ (columnNames (before ++ after))[String.ofList name]? = some index := by
  induction after using List.reverseRecOn with
  | nil => cases h
  | append_singleton after later ih =>
    rw [← List.append_assoc, columnNames_concat, Std.HashMap.getElem?_insert]
    split
    · exact ⟨_, by simp, rfl⟩
    · rename_i hlater
      rw [List.map_append, List.mem_append] at h
      refine ih (h.resolve_right fun hmem => hlater ?_)
      rw [beq_iff_eq, String.ofList_inj]
      exact (List.mem_singleton.mp hmem).symm

theorem columnIndex_first (h : column.name ∉ before.map (·.name)) :
    columnIndex (before ++ column :: after) column.name = .ok before.length := by
  have hbefore : before.findIdx? (fun c => decide (c.name = column.name)) = none := by
    rw [List.findIdx?_eq_none_iff]
    exact fun c hc => decide_eq_false fun heq => h (heq ▸ List.mem_map_of_mem hc)
  have hfind : (before ++ column :: after).findIdx? (fun c => decide (c.name = column.name)) = some before.length := by
    rw [List.findIdx?_append, hbefore, Option.none_or, List.findIdx?_cons, if_pos (decide_eq_true rfl)]
    simp
  rw [columnIndex, hfind]

theorem firstNamed_iff (h : column.name ∉ before.map (·.name)) {index : ℕ} :
    FirstNamed (before ++ column :: after) column.name index ↔ index = before.length := by
  have hhere : ((before ++ column :: after).map (·.name))[before.length]? = some column.name := by simp
  constructor
  · rintro ⟨hindex, hfirst⟩
    rcases Nat.lt_trichotomy index before.length with hlt | heq | hgt
    · rw [List.map_append, List.getElem?_append_left (by rwa [List.length_map])] at hindex
      exact absurd (List.mem_of_getElem? hindex) h
    · exact heq
    · exact absurd hhere (hfirst _ hgt)
  · rintro rfl
    refine ⟨hhere, fun i hi hname => ?_⟩
    rw [List.map_append, List.getElem?_append_left (by rwa [List.length_map])] at hname
    exact h (List.mem_of_getElem? hname)

end Tables

/-- The two agree on the names that occur no more than once. -/
theorem sameColumn_iff (columns : List MssqlColumn) (name : Text) :
    SameColumn columns name ↔ (columns.map (·.name)).count name ≤ 1 := by
  by_cases hname : name ∈ columns.map (·.name)
  · obtain ⟨names, rest, hnames, hfirst⟩ := List.eq_append_cons_of_mem hname
    obtain ⟨before, tail, rfl, rfl, htail⟩ := List.map_eq_append_iff.mp hnames
    obtain ⟨column, after, rfl, rfl, rfl⟩ := List.map_eq_cons_iff.mp htail
    have hcount : ((before ++ column :: after).map (·.name)).count column.name =
        (after.map (·.name)).count column.name + 1 := by
      rw [List.map_append, List.map_cons, List.count_append, List.count_eq_zero.mpr hfirst, List.count_cons_self,
        Nat.zero_add]
    rw [hcount]
    constructor
    · intro hsame
      obtain ⟨index, hindex, -, -, htable, -⟩ := hsame hname [] [] none
      obtain rfl := (firstNamed_iff hfirst).mp hindex
      by_contra hagain
      have hmem : column.name ∈ after.map (·.name) := List.count_pos_iff.mp (by omega)
      obtain ⟨later, hle, hlater⟩ := columnNames_later (before ++ [column]) hmem
      rw [List.append_assoc, List.singleton_append] at hlater
      have heq : before.length = later := Option.some.inj (htable.symm.trans hlater)
      rw [List.length_append, List.length_singleton] at hle
      omega
    · intro hle _ values sql parameters
      have hlast : column.name ∉ after.map (·.name) := List.count_eq_zero.mp (by omega)
      exact ⟨before.length, (firstNamed_iff hfirst).mpr rfl, columnIndex_first hfirst, columnIndex_first hfirst,
        columnNames_here before hlast, columnNames_here before hlast⟩
  · refine iff_of_true (fun hmem => absurd hmem hname) ?_
    rw [List.count_eq_zero.mpr hname]
    exact Nat.zero_le 1

/-- A column of integers, as a join of two tables has two. -/
def idColumn (ordinal : ℕ) : MssqlColumn := ⟨ordinal, "id".toList, .integer, some false⟩

theorem joined_id_differs : ¬ SameColumn [idColumn 0, idColumn 1] "id".toList := by
  intro h
  obtain ⟨index, -, hnative, -, htable, -⟩ := h (by decide) [] [] none
  have hfirst : columnIndex [idColumn 0, idColumn 1] "id".toList = .ok 0 := by decide
  have hnone : (idColumn 1).name ∉ ([] : List MssqlColumn).map (·.name) := nofun
  have hlast : (columnNames [idColumn 0, idColumn 1])["id"]? = some 1 :=
    columnNames_here [idColumn 0] hnone
  have hzero : index = 0 := Except.ok.inj (hnative.symm.trans hfirst)
  have hone : index = 1 := Option.some.inj (htable.symm.trans hlast)
  omega

end SqlxMssql
