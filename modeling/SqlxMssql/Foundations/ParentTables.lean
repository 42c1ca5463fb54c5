import Mathlib.Data.List.Basic

/-! # Parent tables

A tree is stored in preorder, and every entry names the index of its parent. The children
of an entry are searched for: they are the entries that name its index. A subtree fills a
range of the table that nothing else in the table points into, so the search finds the
children again, in their order.
-/
namespace SqlxMssql.ParentTables

inductive OrderedTree (α : Type) where
  | node (label : α) (children : List (OrderedTree α))

structure Entry (α : Type) where
  parent : Option ℕ
  label : α
  deriving DecidableEq, Repr

variable {α : Type}

mutual
def OrderedTree.size : OrderedTree α → ℕ
  | .node _ ts => sizes ts + 1

def sizes : List (OrderedTree α) → ℕ
  | [] => 0
  | t :: ts => t.size + sizes ts
end

mutual
/-- The entries of a tree that starts at index `base`. -/
def OrderedTree.entries (parent : Option ℕ) (base : ℕ) : OrderedTree α → List (Entry α)
  | .node a ts => ⟨parent, a⟩ :: forest base (base + 1) ts

def forest (parent base : ℕ) : List (OrderedTree α) → List (Entry α)
  | [] => []
  | t :: ts => t.entries (some parent) base ++ forest parent (base + t.size) ts
end

/-- The indices at which the trees of a forest start. -/
def roots : ℕ → List (OrderedTree α) → List ℕ
  | _, [] => []
  | base, t :: ts => base :: roots (base + t.size) ts

def children (table : List (Entry α)) (index : ℕ) : List ℕ := table.findIdxs fun e => e.parent = some index

mutual
/-- The tree is found from the index on by searching for children. -/
def Stored (table : List (Entry α)) : ℕ → OrderedTree α → Prop
  | index, .node a ts =>
    (∃ parent, table[index]? = some ⟨parent, a⟩) ∧ StoredAll table (children table index) ts

def StoredAll (table : List (Entry α)) : List ℕ → List (OrderedTree α) → Prop
  | [], [] => True
  | index :: indices, t :: ts => Stored table index t ∧ StoredAll table indices ts
  | [], _ :: _ => False
  | _ :: _, [] => False
end

section Shape

mutual
theorem length_entries (parent : Option ℕ) (base : ℕ) (t : OrderedTree α) :
    (t.entries parent base).length = t.size := by
  cases t with
  | node a ts => rw [OrderedTree.entries, List.length_cons, length_forest base (base + 1) ts, OrderedTree.size]

theorem length_forest (parent base : ℕ) (ts : List (OrderedTree α)) : (forest parent base ts).length = sizes ts := by
  cases ts with
  | nil => rfl
  | cons t ts =>
    rw [forest, List.length_append, length_entries (some parent) base t,
      length_forest parent (base + t.size) ts, sizes]
end

mutual
theorem parent_of_mem_entries {parent : Option ℕ} {base : ℕ} {t : OrderedTree α} {e : Entry α}
    (h : e ∈ t.entries parent base) :
    e.parent = parent ∨ ∃ j, e.parent = some j ∧ base ≤ j ∧ j < base + t.size := by
  cases t with
  | node a ts =>
    rw [OrderedTree.size]
    rcases List.mem_cons.mp h with rfl | h
    · exact .inl rfl
    · rcases parent_of_mem_forest h with h | ⟨j, hj, hlo, hhi⟩
      · exact .inr ⟨base, h, by omega, by omega⟩
      · exact .inr ⟨j, hj, by omega, by omega⟩

theorem parent_of_mem_forest {parent base : ℕ} {ts : List (OrderedTree α)} {e : Entry α}
    (h : e ∈ forest parent base ts) :
    e.parent = some parent ∨ ∃ j, e.parent = some j ∧ base ≤ j ∧ j < base + sizes ts := by
  cases ts with
  | nil => cases h
  | cons t ts =>
    rw [sizes]
    rcases List.mem_append.mp h with h | h
    · rcases parent_of_mem_entries h with h | ⟨j, hj, hlo, hhi⟩
      · exact .inl h
      · exact .inr ⟨j, hj, by omega, by omega⟩
    · rcases parent_of_mem_forest h with h | ⟨j, hj, hlo, hhi⟩
      · exact .inl h
      · exact .inr ⟨j, hj, by omega, by omega⟩
end

mutual
/-- In preorder, only the first entry can have its parent in front of the tree. -/
theorem parent_of_getElem? {parent : Option ℕ} {base i : ℕ} {t : OrderedTree α} {e : Entry α}
    (h : (t.entries parent base)[i]? = some e) :
    i = 0 ∧ e.parent = parent ∨ 0 < i ∧ ∃ j, e.parent = some j ∧ base ≤ j ∧ j < base + i := by
  cases t with
  | node a ts =>
    rw [OrderedTree.entries] at h
    cases i with
    | zero =>
      cases h
      exact .inl ⟨rfl, rfl⟩
    | succ i =>
      rw [List.getElem?_cons_succ] at h
      rcases parent_of_forest_getElem? h with h | ⟨j, hj, hlo, hhi⟩
      · exact .inr ⟨by omega, base, h, by omega, by omega⟩
      · exact .inr ⟨by omega, j, hj, by omega, by omega⟩

theorem parent_of_forest_getElem? {parent base i : ℕ} {ts : List (OrderedTree α)} {e : Entry α}
    (h : (forest parent base ts)[i]? = some e) :
    e.parent = some parent ∨ ∃ j, e.parent = some j ∧ base ≤ j ∧ j < base + i := by
  cases ts with
  | nil => cases h
  | cons t ts =>
    rw [forest, List.getElem?_append, length_entries] at h
    split at h
    · rcases parent_of_getElem? h with ⟨-, h⟩ | ⟨-, j, hj, hlo, hhi⟩
      · exact .inl h
      · exact .inr ⟨j, hj, hlo, hhi⟩
    · rcases parent_of_forest_getElem? h with h | ⟨j, hj, hlo, hhi⟩
      · exact .inl h
      · exact .inr ⟨j, hj, by omega, by omega⟩
end

end Shape

section Search

/-- Nothing among the entries points into the range. -/
def Outside (lo hi : ℕ) (es : List (Entry α)) : Prop :=
  ∀ e ∈ es, ∀ j, e.parent = some j → j < lo ∨ hi ≤ j

theorem Outside.append {lo hi : ℕ} {es fs : List (Entry α)} (he : Outside lo hi es) (hf : Outside lo hi fs) :
    Outside lo hi (es ++ fs) := by
  intro e h
  rcases List.mem_append.mp h with h | h
  · exact he e h
  · exact hf e h

theorem Outside.mono {lo hi lo' hi' : ℕ} {es : List (Entry α)} (h : Outside lo hi es) (hlo : lo ≤ lo')
    (hhi : hi' ≤ hi) : Outside lo' hi' es := by
  intro e he j hj
  rcases h e he j hj with h | h
  · exact .inl (by omega)
  · exact .inr (by omega)

theorem findIdxs_outside {lo hi index s : ℕ} {es : List (Entry α)} (h : Outside lo hi es) (hlo : lo ≤ index)
    (hhi : index < hi) : es.findIdxs (fun e => e.parent = some index) s = [] := by
  apply List.findIdxs_eq_nil_iff.mpr
  intro e he
  apply decide_eq_false
  intro hparent
  rcases h e he index hparent with h | h
  · omega
  · omega

theorem outside_of_parents {parent base n lo hi : ℕ} {entries : List (Entry α)}
    (hentries : ∀ e ∈ entries, e.parent = some parent ∨ ∃ j, e.parent = some j ∧ base ≤ j ∧ j < base + n)
    (hparent : parent < lo ∨ hi ≤ parent) (h : base + n ≤ lo ∨ hi ≤ base) : Outside lo hi entries := by
  intro e he j hj
  rcases hentries e he with h' | ⟨i, hi, hlo, hhi⟩
  · rw [hj] at h'
    cases h'
    exact hparent
  · rw [hj] at hi
    cases hi
    omega

theorem outside_forest {parent base lo hi : ℕ} {ts : List (OrderedTree α)} (hparent : parent < lo ∨ hi ≤ parent)
    (h : base + sizes ts ≤ lo ∨ hi ≤ base) : Outside lo hi (forest parent base ts) :=
  outside_of_parents (fun _ => parent_of_mem_forest) hparent h

theorem outside_entries {parent base lo hi : ℕ} {t : OrderedTree α} (hparent : parent < lo ∨ hi ≤ parent)
    (h : base + t.size ≤ lo ∨ hi ≤ base) : Outside lo hi (t.entries (some parent) base) :=
  outside_of_parents (fun _ => parent_of_mem_entries) hparent h

theorem findIdxs_entries {parent base s : ℕ} (t : OrderedTree α) (h : parent < base) :
    (t.entries (some parent) base).findIdxs (fun e => e.parent = some parent) s = [s] := by
  cases t with
  | node a ts =>
    have hrest : Outside 0 base (forest base (base + 1) ts) :=
      outside_forest (.inr (Nat.le_refl _)) (.inr (Nat.le_succ base))
    rw [OrderedTree.entries, List.findIdxs_cons, if_pos (decide_eq_true rfl),
      findIdxs_outside hrest (Nat.zero_le parent) h]

theorem findIdxs_forest {parent base s : ℕ} (ts : List (OrderedTree α)) (h : parent < base) :
    (forest parent base ts).findIdxs (fun e => e.parent = some parent) s = roots s ts := by
  induction ts generalizing base s with
  | nil => rfl
  | cons t ts ih =>
    rw [forest, List.findIdxs_append, findIdxs_entries t h, length_entries, ih (by omega)]
    rfl

end Search

mutual
theorem stored_entries (t : OrderedTree α) (parent : Option ℕ) (before after : List (Entry α))
    (hparent : ∀ j, parent = some j → j < before.length)
    (hbefore : Outside before.length (before.length + t.size) before)
    (hafter : Outside before.length (before.length + t.size) after) :
    Stored (before ++ (t.entries parent before.length ++ after)) before.length t := by
  cases t with
  | node a ts =>
    rw [OrderedTree.size] at hbefore hafter
    have hroot : Outside before.length (before.length + (sizes ts + 1)) ([⟨parent, a⟩] : List (Entry α)) := by
      intro e he j hj
      rw [List.mem_singleton.mp he] at hj
      exact .inl (hparent j hj)
    have hlength : (before ++ ([⟨parent, a⟩] : List (Entry α))).length = before.length + 1 := by
      rw [List.length_append, List.length_singleton]
    have htable : before ++ (OrderedTree.entries parent before.length (.node a ts) ++ after) =
        (before ++ ([⟨parent, a⟩] : List (Entry α))) ++ (forest before.length (before.length + 1) ts ++ after) := by
      rw [OrderedTree.entries, List.append_assoc]
      rfl
    have hchildren : children (before ++ (OrderedTree.entries parent before.length (.node a ts) ++ after))
        before.length = roots (before.length + 1) ts := by
      rw [children, htable, List.findIdxs_append,
        findIdxs_outside (hbefore.append hroot) (Nat.le_refl _) (by omega), List.findIdxs_append,
        findIdxs_forest ts (Nat.lt_succ_self _), findIdxs_outside hafter (Nat.le_refl _) (by omega),
        hlength, Nat.zero_add, List.nil_append, List.append_nil]
    have hforest := storedAll_forest ts before.length (before ++ ([⟨parent, a⟩] : List (Entry α))) after
      (by rw [hlength]; omega) (by rw [hlength]; exact (hbefore.append hroot).mono (by omega) (by omega))
      (by rw [hlength]; exact hafter.mono (by omega) (by omega))
    rw [hlength] at hforest
    rw [Stored, hchildren]
    constructor
    · refine ⟨parent, ?_⟩
      rw [OrderedTree.entries, List.getElem?_append_right (Nat.le_refl _), Nat.sub_self]
      rfl
    · rwa [htable]

theorem storedAll_forest (ts : List (OrderedTree α)) (parent : ℕ) (before after : List (Entry α))
    (hparent : parent < before.length)
    (hbefore : Outside before.length (before.length + sizes ts) before)
    (hafter : Outside before.length (before.length + sizes ts) after) :
    StoredAll (before ++ (forest parent before.length ts ++ after)) (roots before.length ts) ts := by
  cases ts with
  | nil =>
    rw [roots, StoredAll]
    exact trivial
  | cons t ts =>
    rw [sizes] at hbefore hafter
    have hlength : (before ++ t.entries (some parent) before.length).length = before.length + t.size := by
      rw [List.length_append, length_entries]
    rw [roots, forest, List.append_assoc, StoredAll]
    constructor
    · have hlater : Outside before.length (before.length + t.size)
          (forest parent (before.length + t.size) ts ++ after) :=
        (outside_forest (.inl hparent) (.inr (Nat.le_refl _))).append (hafter.mono (Nat.le_refl _) (by omega))
      exact stored_entries t (some parent) before _ (by rintro j ⟨rfl⟩; exact hparent)
        (hbefore.mono (Nat.le_refl _) (by omega)) hlater
    · have hearlier : Outside (before.length + t.size) (before.length + t.size + sizes ts)
          (before ++ t.entries (some parent) before.length) :=
        (hbefore.mono (by omega) (by omega)).append (outside_entries (.inl (by omega)) (.inl (Nat.le_refl _)))
      have hrest := storedAll_forest ts parent (before ++ t.entries (some parent) before.length) after
        (by rw [hlength]; omega) (by rwa [hlength]) (by rw [hlength]; exact hafter.mono (by omega) (by omega))
      rwa [hlength, List.append_assoc] at hrest
end

theorem stored (t : OrderedTree α) : Stored (t.entries none 0) 0 t := by
  have h := stored_entries t none [] [] (fun _ h => by cases h) (fun _ h => by cases h) (fun _ h => by cases h)
  rwa [List.nil_append, List.append_nil] at h

end SqlxMssql.ParentTables
