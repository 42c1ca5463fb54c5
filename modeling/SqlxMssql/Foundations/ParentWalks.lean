import Mathlib.Data.List.Nodup
import Mathlib.Data.List.Perm.Subperm
import SqlxMssql.Foundations.ParentTables

/-! # Walks down a parent table

A table of parents need not be a tree: entries may be their own parents, point forward, in
cycles or out of the table. From an entry without a parent no such place is ever reached,
because every entry has one parent at most. The walk down from it ends within the length of
the table, and it comes to no entry twice.
-/
namespace SqlxMssql.ParentTables

variable {α : Type} {table : List (Entry α)}

/-- The entry is found that many generations below the top. -/
inductive Below (table : List (Entry α)) (top : ℕ) : ℕ → ℕ → Prop where
  | top : Below table top 0 top
  | child {depth i c : ℕ} : Below table top depth i → c ∈ children table i → Below table top (depth + 1) c

theorem parent_of_mem_children {i c : ℕ} (h : c ∈ children table i) : ∃ e, table[c]? = some e ∧ e.parent = some i := by
  obtain ⟨hc, hparent⟩ := List.mem_findIdxs_iff_exists_getElem_pos.mp h
  exact ⟨table[c], List.getElem?_eq_getElem hc, of_decide_eq_true hparent⟩

theorem lt_of_mem_children {i c : ℕ} (h : c ∈ children table i) : c < table.length := by
  obtain ⟨e, he, -⟩ := parent_of_mem_children h
  exact (List.getElem?_eq_some_iff.mp he).1

theorem children_injective {i j c : ℕ} (hi : c ∈ children table i) (hj : c ∈ children table j) : i = j := by
  obtain ⟨e, he, hei⟩ := parent_of_mem_children hi
  obtain ⟨f, hf, hfj⟩ := parent_of_mem_children hj
  rw [he, Option.some.injEq] at hf
  rw [← hf, hei] at hfj
  exact Option.some.inj hfj

theorem nodup_children (i : ℕ) : (children table i).Nodup := List.nodup_findIdxs

namespace Below

theorem trans {top i c m n : ℕ} (h : Below table top m i) (hc : Below table i n c) : Below table top (m + n) c := by
  induction hc with
  | top => exact h
  | child _ hchild ih => exact ih.child hchild

theorem top_injective {i j c n : ℕ} (hi : Below table i n c) (hj : Below table j n c) : i = j := by
  induction n generalizing c with
  | zero =>
    cases hi
    cases hj
    rfl
  | succ n ih =>
    cases hi with
    | child hi hci =>
      cases hj with
      | child hj hcj =>
        rw [children_injective hcj hci] at hj
        exact ih hi hj

theorem lt_length {top c n : ℕ} (h : Below table top n c) (htop : top < table.length) : c < table.length := by
  cases h with
  | top => exact htop
  | child _ hc => exact lt_of_mem_children hc

end Below

/-- An entry of the table that names no parent. -/
def Orphan (table : List (Entry α)) (top : ℕ) : Prop := ∃ e, table[top]? = some e ∧ e.parent = none

namespace Orphan
variable {top : ℕ} (htop : Orphan table top)
include htop

theorem lt_length : top < table.length := by
  obtain ⟨e, he, -⟩ := htop
  exact (List.getElem?_eq_some_iff.mp he).1

theorem not_child (i : ℕ) : top ∉ children table i := by
  intro h
  obtain ⟨e, he, hnone⟩ := htop
  obtain ⟨f, hf, hsome⟩ := parent_of_mem_children h
  rw [he, Option.some.injEq] at hf
  rw [← hf, hnone] at hsome
  cases hsome

/-- There is one way down to an entry, so its depth is determined. -/
theorem depth_unique {c m n : ℕ} (hm : Below table top m c) (hn : Below table top n c) : m = n := by
  induction hm generalizing n with
  | top =>
    cases hn with
    | top => rfl
    | child _ hc => exact absurd hc (htop.not_child _)
  | child _ hc ih =>
    cases hn with
    | top => exact absurd hc (htop.not_child _)
    | child hn hc' =>
      rw [children_injective hc' hc] at hn
      rw [ih hn]

/-- The entries on the way down are all different. -/
theorem path {c n : ℕ} (h : Below table top n c) :
    ∃ path : List ℕ, path.length = n + 1 ∧ path.Nodup ∧
      ∀ i ∈ path, i < table.length ∧ ∃ m ≤ n, Below table top m i := by
  induction h with
  | top =>
    refine ⟨[top], rfl, List.nodup_singleton top, fun i hi => ?_⟩
    rw [List.mem_singleton.mp hi]
    exact ⟨htop.lt_length, 0, Nat.le_refl 0, .top⟩
  | @child n i c hi hc ih =>
    obtain ⟨path, hlength, hnodup, hpath⟩ := ih
    have hnew : c ∉ path := by
      intro hmem
      obtain ⟨-, m, hm, hbelow⟩ := hpath c hmem
      have := htop.depth_unique hbelow (hi.child hc)
      omega
    refine ⟨c :: path, by rw [List.length_cons, hlength], List.nodup_cons.mpr ⟨hnew, hnodup⟩, fun j hj => ?_⟩
    rcases List.mem_cons.mp hj with rfl | hj
    · exact ⟨lt_of_mem_children hc, n + 1, Nat.le_refl _, hi.child hc⟩
    · obtain ⟨hlt, m, hm, hbelow⟩ := hpath j hj
      exact ⟨hlt, m, by omega, hbelow⟩

/-- No way down is longer than the table. -/
theorem depth_lt {c n : ℕ} (h : Below table top n c) : n < table.length := by
  obtain ⟨path, hlength, hnodup, hpath⟩ := htop.path h
  have hsubset : path ⊆ List.range table.length := fun i hi => List.mem_range.mpr (hpath i hi).1
  have hle := (hnodup.subperm hsubset).length_le
  rw [hlength, List.length_range] at hle
  omega

end Orphan

/-- An entry with everything that is found at most `depth` generations below it, each entry in
front of its children. -/
def descendants (table : List (Entry α)) : ℕ → ℕ → List ℕ
  | 0, i => [i]
  | depth + 1, i => i :: (children table i).flatMap (descendants table depth)

theorem below_of_mem_descendants {depth i c : ℕ} (h : c ∈ descendants table depth i) : ∃ n, Below table i n c := by
  induction depth generalizing i with
  | zero =>
    rw [List.mem_singleton.mp h]
    exact ⟨0, .top⟩
  | succ depth ih =>
    rcases List.mem_cons.mp h with rfl | h
    · exact ⟨0, .top⟩
    · obtain ⟨j, hj, hc⟩ := List.mem_flatMap.mp h
      obtain ⟨n, hn⟩ := ih hc
      exact ⟨0 + 1 + n, (Below.top.child hj).trans hn⟩

theorem children_sublist_descendants (depth i : ℕ) :
    (children table i).Sublist ((children table i).flatMap (descendants table depth)) := by
  have hself (c : ℕ) : ∃ rest, descendants table depth c = c :: rest := by
    cases depth with
    | zero => exact ⟨_, rfl⟩
    | succ depth => exact ⟨_, rfl⟩
  induction children table i with
  | nil => exact List.nil_sublist _
  | cons c cs ih =>
    obtain ⟨rest, hrest⟩ := hself c
    rw [List.flatMap_cons, hrest, List.cons_append]
    exact (ih.trans (List.sublist_append_right rest _)).cons_cons c

/-- The walk below an orphan comes to no entry twice. -/
theorem Orphan.nodup_descendants {top : ℕ} (htop : Orphan table top) {depth i n : ℕ} (h : Below table top n i) :
    (descendants table depth i).Nodup := by
  induction depth generalizing i n with
  | zero => exact List.nodup_singleton i
  | succ depth ih =>
    refine List.nodup_cons.mpr ⟨fun hmem => ?_, List.nodup_flatMap.mpr ⟨fun c hc => ih (h.child hc), ?_⟩⟩
    · obtain ⟨c, hc, hi⟩ := List.mem_flatMap.mp hmem
      obtain ⟨m, hm⟩ := below_of_mem_descendants hi
      have := htop.depth_unique h ((h.child hc).trans hm)
      omega
    · refine (nodup_children i).imp_of_mem fun {c d} hc hd hne x hx hy => hne ?_
      obtain ⟨m, hm⟩ := below_of_mem_descendants hx
      obtain ⟨k, hk⟩ := below_of_mem_descendants hy
      have hdepth := htop.depth_unique ((h.child hc).trans hm) ((h.child hd).trans hk)
      rw [Nat.add_left_cancel hdepth] at hm
      exact hm.top_injective hk

end SqlxMssql.ParentTables
