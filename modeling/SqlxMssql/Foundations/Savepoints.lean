import Mathlib.Data.List.Basic
import Mathlib.Logic.Function.Basic
import Mathlib.Tactic.Common

/-! # Nested transactions emulated with named savepoints

A store has one transaction at a time, with a stack of savepoints whose names may
repeat. The ideal store nests transactions to any depth. A client that tracks its own
depth can emulate the second on the first when it gives every depth a name of its own,
although an inner commit leaves its savepoint behind and the names come back.
-/
namespace SqlxMssql.Savepoints

/-- An open transaction: the data it sees, and its savepoints, most recent first. -/
structure Transaction (ν δ : Type*) where
  data : δ
  savepoints : List (ν × δ)
  deriving DecidableEq, Repr

structure Store (ν δ : Type*) where
  durable : δ
  transaction : Option (Transaction ν δ)
  deriving DecidableEq, Repr

variable {ν δ : Type*}

namespace Store

def data (s : Store ν δ) : δ := (s.transaction.map Transaction.data).getD s.durable

/-- A statement works in the open transaction, and commits by itself when there is none. -/
def run (f : δ → δ) (s : Store ν δ) : Store ν δ :=
  match s.transaction with
  | none => { s with durable := f s.durable }
  | some t => { s with transaction := some { t with data := f t.data } }

/-- Beginning inside an open transaction opens no second one. -/
def begin (s : Store ν δ) : Store ν δ :=
  match s.transaction with
  | none => { s with transaction := some ⟨s.durable, []⟩ }
  | some _ => s

def save (n : ν) (s : Store ν δ) : Option (Store ν δ) :=
  s.transaction.map fun t => { s with transaction := some { t with savepoints := (n, t.data) :: t.savepoints } }

def commit (s : Store ν δ) : Option (Store ν δ) := s.transaction.map fun t => ⟨t.data, none⟩

def rollback (s : Store ν δ) : Option (Store ν δ) := s.transaction.map fun _ => ⟨s.durable, none⟩

/-- Restores the most recent savepoint of the name, which stays, and forgets the later ones. -/
def rollbackTo [DecidableEq ν] (n : ν) (s : Store ν δ) : Option (Store ν δ) :=
  s.transaction.bind fun t =>
    match t.savepoints.dropWhile (fun e => e.1 ≠ n) with
    | [] => none
    | e :: older => some { s with transaction := some ⟨e.2, e :: older⟩ }

@[simp] theorem isSome_rollback (s : Store ν δ) : s.rollback.isSome = s.transaction.isSome := Option.isSome_map

theorem getD_rollback (s : Store ν δ) : s.rollback.getD s = { s with transaction := none } := by
  rcases s with ⟨durable, _ | transaction⟩ <;> rfl

/-- Work in an open transaction: its data have changed, and nothing else has. -/
def Worked (s t : Store ν δ) : Prop :=
  ∃ transaction data, s.transaction = some transaction ∧
    t = { s with transaction := some { transaction with data } }

namespace Worked

theorem refl {s : Store ν δ} (h : s.transaction.isSome = true) : s.Worked s := by
  obtain ⟨transaction, htransaction⟩ := Option.isSome_iff_exists.mp h
  exact ⟨transaction, transaction.data, htransaction, by rw [← htransaction]⟩

theorem isSome {s t : Store ν δ} (h : s.Worked t) : t.transaction.isSome = true := by
  obtain ⟨transaction, data, -, rfl⟩ := h
  rfl

theorem run {s t : Store ν δ} (h : s.Worked t) (f : δ → δ) : s.Worked (t.run f) := by
  obtain ⟨transaction, data, htransaction, rfl⟩ := h
  exact ⟨transaction, f data, htransaction, rfl⟩

/-- Rolling back undoes the work since the begin. -/
theorem rollback_begin {s t : Store ν δ} (hs : s.transaction = none) (h : s.begin.Worked t) :
    t.rollback = some s := by
  rcases s with ⟨durable, transaction⟩
  obtain rfl : transaction = none := hs
  obtain ⟨transaction, data, -, rfl⟩ := h
  rfl

/-- Rolling back to a name undoes the work since it was saved. -/
theorem rollbackTo_save [DecidableEq ν] {n : ν} {s saved t : Store ν δ} (hs : s.save n = some saved)
    (h : saved.Worked t) : t.rollbackTo n = some saved := by
  rcases s with ⟨durable, _ | transaction⟩
  · cases hs
  obtain rfl := Option.some.inj hs
  obtain ⟨transaction', data, htransaction, rfl⟩ := h
  obtain rfl := Option.some.inj htransaction
  simp [rollbackTo]

end Worked

@[simp] theorem data_begin (s : Store ν δ) : s.begin.data = s.data := by
  rcases s with ⟨durable, _ | transaction⟩ <;> rfl

@[simp] theorem durable_begin (s : Store ν δ) : s.begin.durable = s.durable := by
  rcases s with ⟨durable, _ | transaction⟩ <;> rfl

theorem durable_save {n : ν} {s saved : Store ν δ} (h : s.save n = some saved) :
    saved.durable = s.durable := by
  rcases s with ⟨durable, _ | transaction⟩
  · cases h
  · obtain rfl := Option.some.inj h
    rfl

@[simp] theorem isSome_run (f : δ → δ) (s : Store ν δ) :
    (s.run f).transaction.isSome = s.transaction.isSome := by
  rcases s with ⟨durable, _ | transaction⟩ <;> rfl

theorem isSome_save {n : ν} {s saved : Store ν δ} (h : s.save n = some saved) :
    saved.transaction.isSome = true := by
  rcases s with ⟨durable, _ | transaction⟩
  · cases h
  · obtain rfl := Option.some.inj h
    rfl

theorem isSome_begin (s : Store ν δ) : s.begin.transaction.isSome = true := by
  rcases s with ⟨durable, _ | transaction⟩ <;> rfl

theorem data_save {n : ν} {s saved : Store ν δ} (h : s.save n = some saved) : saved.data = s.data := by
  rcases s with ⟨durable, _ | transaction⟩
  · cases h
  · obtain rfl := Option.some.inj h
    rfl

@[simp] theorem data_run (f : δ → δ) (s : Store ν δ) : (s.run f).data = f s.data := by
  rcases s with ⟨durable, _ | transaction⟩ <;> rfl

end Store

/-- The ideal store: the snapshots taken by the begins still open, innermost first. -/
structure Nested (δ : Type*) where
  durable : δ
  data : δ
  snapshots : List δ
  deriving DecidableEq, Repr

namespace Nested

def idle (d : δ) : Nested δ := ⟨d, d, []⟩

def depth (n : Nested δ) : ℕ := n.snapshots.length

def begin (n : Nested δ) : Nested δ := { n with snapshots := n.data :: n.snapshots }

def commit (n : Nested δ) : Nested δ :=
  match n.snapshots with
  | [] => n
  | [_] => ⟨n.data, n.data, []⟩
  | _ :: outer => { n with snapshots := outer }

def rollback (n : Nested δ) : Nested δ :=
  match n.snapshots with
  | [] => n
  | snapshot :: outer => { n with data := snapshot, snapshots := outer }

def run (f : δ → δ) (n : Nested δ) : Nested δ :=
  match n.snapshots with
  | [] => ⟨f n.data, f n.data, []⟩
  | _ :: _ => { n with data := f n.data }

@[simp] theorem begin_depth (n : Nested δ) : n.begin.depth = n.depth + 1 := rfl

@[simp] theorem commit_depth (n : Nested δ) : n.commit.depth = n.depth - 1 := by
  rcases n with ⟨durable, data, _ | ⟨snapshot, _ | ⟨next, outer⟩⟩⟩ <;> rfl

@[simp] theorem rollback_depth (n : Nested δ) : n.rollback.depth = n.depth - 1 := by
  rcases n with ⟨durable, data, _ | ⟨snapshot, outer⟩⟩ <;> rfl

@[simp] theorem run_depth (f : δ → δ) (n : Nested δ) : (n.run f).depth = n.depth := by
  rcases n with ⟨durable, data, _ | ⟨snapshot, outer⟩⟩ <;> rfl

theorem commit_idle {n : Nested δ} (h : n.depth = 0) : n.commit = n := by
  rcases n with ⟨durable, data, _ | ⟨snapshot, outer⟩⟩
  · rfl
  · simp [depth] at h

theorem rollback_idle {n : Nested δ} (h : n.depth = 0) : n.rollback = n := by
  rcases n with ⟨durable, data, _ | ⟨snapshot, outer⟩⟩
  · rfl
  · simp [depth] at h

end Nested

section Emulation
variable (name : ℕ → ν)

/-- The savepoints hold the inner snapshots: below the savepoints of deeper levels lies
the one of the innermost level, and below it those of the levels around it. Savepoints
that inner commits left behind may lie anywhere above the level that reuses their name. -/
def Marks : List (ν × δ) → List δ → Prop
  | _, [] => True
  | savepoints, snapshot :: outer => ∃ newer older,
      savepoints = newer ++ (name (outer.length + 1), snapshot) :: older ∧
      (∀ e ∈ newer, ∀ j ≤ outer.length + 1, e.1 ≠ name j) ∧ Marks older outer

/-- A store that stands for an ideal one: without snapshots no transaction is open, and
otherwise the outermost snapshot is the durable data and the savepoints mark the rest. -/
inductive Represents : Store ν δ → Nested δ → Prop
  | idle (d : δ) : Represents ⟨d, none⟩ ⟨d, d, []⟩
  | inside {d data : δ} {savepoints : List (ν × δ)} (inner : List δ)
      (h : Marks name savepoints inner) :
      Represents ⟨d, some ⟨data, savepoints⟩⟩ ⟨d, data, inner ++ [d]⟩

variable {name}

theorem Marks.weaken {newer older : List (ν × δ)} {inner : List δ} (h : Marks name older inner)
    (hn : ∀ e ∈ newer, ∀ j ≤ inner.length, e.1 ≠ name j) : Marks name (newer ++ older) inner := by
  cases inner with
  | nil => trivial
  | cons snapshot outer =>
    obtain ⟨newer', older', rfl, hfresh, hmarks⟩ := h
    refine ⟨newer ++ newer', older', by simp, ?_, hmarks⟩
    intro e he j hj
    rcases List.mem_append.mp he with he | he
    · exact hn e he j hj
    · exact hfresh e he j hj

theorem Marks.leave (hname : name.Injective) {savepoints : List (ν × δ)} {snapshot : δ}
    {outer : List δ} (h : Marks name savepoints (snapshot :: outer)) :
    Marks name savepoints outer := by
  obtain ⟨newer, older, rfl, hfresh, hmarks⟩ := h
  rw [← List.singleton_append, ← List.append_assoc]
  apply hmarks.weaken
  intro e he j hj
  rcases List.mem_append.mp he with he | he
  · exact hfresh e he j (by omega)
  · obtain rfl := List.mem_singleton.mp he
    exact fun heq => by have := hname heq; omega

theorem Represents.data_eq {s : Store ν δ} {n : Nested δ} (h : Represents name s n) :
    s.data = n.data := by
  cases h <;> rfl

theorem Represents.durable_eq {s : Store ν δ} {n : Nested δ} (h : Represents name s n) :
    s.durable = n.durable := by
  cases h <;> rfl

theorem Represents.open_iff {s : Store ν δ} {n : Nested δ} (h : Represents name s n) :
    s.transaction.isSome ↔ 0 < n.depth := by
  cases h <;> simp [Nested.depth]

theorem Represents.run {s : Store ν δ} {n : Nested δ} (h : Represents name s n) (f : δ → δ) :
    Represents name (s.run f) (n.run f) := by
  cases h with
  | idle d => exact .idle (f d)
  | @inside d data savepoints inner h =>
    cases inner with
    | nil => exact .inside [] h
    | cons snapshot outer => exact .inside (snapshot :: outer) h

theorem Represents.begin {s : Store ν δ} {n : Nested δ} (h : Represents name s n)
    (hd : n.depth = 0) : Represents name s.begin n.begin := by
  cases h with
  | idle d => exact .inside [] trivial
  | inside inner h => simp [Nested.depth] at hd

theorem Represents.save {s : Store ν δ} {n : Nested δ} (h : Represents name s n)
    (hd : 0 < n.depth) : ∃ t, s.save (name n.depth) = some t ∧ Represents name t n.begin := by
  cases h with
  | idle d => simp [Nested.depth] at hd
  | @inside d data savepoints inner h =>
    refine ⟨_, rfl, .inside (data :: inner) ⟨[], savepoints, ?_, by simp, h⟩⟩
    simp [Nested.depth]

theorem Represents.commit_inner (hname : name.Injective) {s : Store ν δ} {n : Nested δ}
    (h : Represents name s n) (hd : 1 < n.depth) : Represents name s n.commit := by
  cases h with
  | idle d => simp [Nested.depth] at hd
  | @inside d data savepoints inner h =>
    cases inner with
    | nil => simp [Nested.depth] at hd
    | cons snapshot outer =>
      have hn : (⟨d, data, (snapshot :: outer) ++ [d]⟩ : Nested δ).commit =
          ⟨d, data, outer ++ [d]⟩ := by cases outer <;> rfl
      rw [hn]
      exact .inside outer (h.leave hname)

theorem Represents.commit_outer {s : Store ν δ} {n : Nested δ} (h : Represents name s n)
    (hd : n.depth = 1) : ∃ t, s.commit = some t ∧ Represents name t n.commit := by
  cases h with
  | idle d => simp [Nested.depth] at hd
  | @inside d data savepoints inner h =>
    cases inner with
    | nil => exact ⟨_, rfl, .idle data⟩
    | cons snapshot outer => simp [Nested.depth] at hd

theorem Represents.rollback_outer {s : Store ν δ} {n : Nested δ} (h : Represents name s n)
    (hd : n.depth = 1) : ∃ t, s.rollback = some t ∧ Represents name t n.rollback := by
  cases h with
  | idle d => simp [Nested.depth] at hd
  | @inside d data savepoints inner h =>
    cases inner with
    | nil => exact ⟨_, rfl, .idle d⟩
    | cons snapshot outer => simp [Nested.depth] at hd

variable [DecidableEq ν]

/-- Rolling back to the name of the level around finds the savepoint of the matching
begin: everything above it belongs to deeper levels. -/
theorem Represents.rollback_inner (hname : name.Injective) {s : Store ν δ} {n : Nested δ}
    (h : Represents name s n) (hd : 1 < n.depth) :
    ∃ t, s.rollbackTo (name (n.depth - 1)) = some t ∧ Represents name t n.rollback := by
  cases h with
  | idle d => simp [Nested.depth] at hd
  | @inside d data savepoints inner h =>
    cases inner with
    | nil => simp [Nested.depth] at hd
    | cons snapshot outer =>
      obtain ⟨newer, older, rfl, hfresh, hmarks⟩ := h
      have hdepth : (⟨d, data, (snapshot :: outer) ++ [d]⟩ : Nested δ).depth - 1 =
          outer.length + 1 := by simp [Nested.depth]
      have hdrop : (newer ++ (name (outer.length + 1), snapshot) :: older).dropWhile
          (fun e => e.1 ≠ name (outer.length + 1)) =
          (name (outer.length + 1), snapshot) :: older := by
        rw [List.dropWhile_append_of_pos]
        · simp
        · intro e he
          simpa using hfresh e he _ (Nat.le_refl _)
      refine ⟨⟨d, some ⟨snapshot, (name (outer.length + 1), snapshot) :: older⟩⟩, ?_, ?_⟩
      · simp only [Store.rollbackTo, Option.bind_some, hdepth, hdrop]
      · have hmarks' : Marks name ((name (outer.length + 1), snapshot) :: older)
            (snapshot :: outer) := ⟨[], older, rfl, by simp, hmarks⟩
        exact .inside outer (hmarks'.leave hname)

end Emulation

end SqlxMssql.Savepoints
