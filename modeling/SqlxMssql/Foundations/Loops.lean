import Mathlib.Data.List.Forall2
import Mathlib.Tactic.Common

/-! # Loops that may panic

A computation of the source ends with a value or it panics. A `while` loop is
unrolled on fuel, and running out of fuel is an outcome of its own: a theorem that
a loop returns a value shows that no turn panics and that the loop ends.
-/
namespace SqlxMssql.Loops

/-- The two ways in which a function fails to return at all. -/
inductive Abort where
  | panic
  | diverge
  deriving DecidableEq, Repr

abbrev Run (α : Type*) := Except Abort α

/-- The value of an expression that panics where it has none. -/
def orPanic {α : Type*} : Option α → Run α
  | some a => .ok a
  | none => .error .panic

section Bind
universe u
variable {α β : Type u}

@[simp] theorem ok_bind (a : α) (f : α → Run β) : (Except.ok a : Run α) >>= f = f a := rfl
@[simp] theorem pure_eq_ok (a : α) : (pure a : Run α) = .ok a := rfl

theorem mapM_eq_ok {f : α → Run β} {l : List α} {bs : List β} :
    l.mapM f = .ok bs ↔ List.Forall₂ (fun a b => f a = .ok b) l bs := by
  induction l generalizing bs with
  | nil =>
    rw [List.mapM_nil, pure_eq_ok, Except.ok.injEq, List.forall₂_nil_left_iff, eq_comm]
  | cons a l ih =>
    rw [List.mapM_cons, List.forall₂_cons_left_iff]
    cases ha : f a with
    | error e => exact iff_of_false (fun h => by cases h) (by rintro ⟨b, bs, ⟨⟩, -⟩)
    | ok b =>
      cases hl : l.mapM f with
      | error e =>
        refine iff_of_false (fun h => by cases h) ?_
        rintro ⟨b', bs', -, hbs, -⟩
        rw [← ih, hl] at hbs
        cases hbs
      | ok bs' =>
        have hbs : List.Forall₂ (fun a b => f a = .ok b) l bs' := ih.mp hl
        constructor
        · rintro ⟨⟩
          exact ⟨b, bs', rfl, hbs, rfl⟩
        · rintro ⟨c, cs, ⟨⟩, hcs, rfl⟩
          rw [← ih, hl] at hcs
          cases hcs
          rfl

theorem mapM_returns {f : α → Run β} {l : List α} (h : ∀ a ∈ l, ∃ b, f a = .ok b) : ∃ bs, l.mapM f = .ok bs := by
  simp only [mapM_eq_ok]
  induction l with
  | nil => exact ⟨[], .nil⟩
  | cons a l ih =>
    obtain ⟨ha, hl⟩ := List.forall_mem_cons.mp h
    obtain ⟨b, hb⟩ := ha
    obtain ⟨bs, hbs⟩ := ih hl
    exact ⟨b :: bs, .cons hb hbs⟩

/-- A search that keeps as many elements as there are has found one for each. -/
theorem filterMap_full_iff {f : α → Option β} {l : List α} {bs : List β} :
    l.filterMap f = bs ∧ bs.length = l.length ↔ List.Forall₂ (fun a b => f a = some b) l bs := by
  induction l generalizing bs with
  | nil => simp [eq_comm]
  | cons a l ih =>
    rw [List.forall₂_cons_left_iff]
    cases ha : f a with
    | none =>
      rw [List.filterMap_cons_none ha]
      refine iff_of_false ?_ (by rintro ⟨b, bs', ⟨⟩, -⟩)
      rintro ⟨rfl, hlength⟩
      have hle := List.length_filterMap_le f l
      rw [hlength, List.length_cons] at hle
      omega
    | some b =>
      rw [List.filterMap_cons_some ha]
      constructor
      · rintro ⟨rfl, hlength⟩
        exact ⟨b, _, rfl, ih.mp ⟨rfl, Nat.succ.inj hlength⟩, rfl⟩
      · rintro ⟨c, cs, ⟨⟩, hcs, rfl⟩
        obtain ⟨hkept, hlength⟩ := ih.mpr hcs
        exact ⟨by rw [hkept], congrArg Nat.succ hlength⟩

end Bind

@[simp] theorem orPanic_some {α : Type*} (a : α) : orPanic (some a) = .ok a := rfl

section While
variable {σ : Type*} (cond : σ → Bool) (body : σ → Run σ)

/-- `while cond { body }`, cut off after `fuel` turns. -/
def whileLoop : ℕ → σ → Run σ
  | 0, _ => .error .diverge
  | fuel + 1, s => if cond s then body s >>= whileLoop fuel else .ok s

variable {cond body}

/-- The rule of the variant. When every turn from a state of the invariant returns, keeps the
invariant and lowers the variant, the loop ends in a state of the invariant. -/
theorem whileLoop_ends {inv : σ → Prop} {variant : σ → ℕ}
    (hstep : ∀ s, inv s → cond s = true → ∃ t, body s = .ok t ∧ inv t ∧ variant t < variant s)
    (fuel : ℕ) {s : σ} (hs : inv s) (hfuel : variant s < fuel) :
    ∃ t, whileLoop cond body fuel s = .ok t ∧ inv t ∧ cond t = false := by
  induction fuel generalizing s with
  | zero => omega
  | succ fuel ih =>
    cases hc : cond s with
    | false => exact ⟨s, by simp [whileLoop, hc], hs, hc⟩
    | true =>
      obtain ⟨t, hb, ht, hv⟩ := hstep s hs hc
      obtain ⟨u, hu, hinv, hcu⟩ := ih ht (by omega)
      refine ⟨u, ?_, hinv, hcu⟩
      simp only [whileLoop, hc, ↓reduceIte, hb]
      exact hu

/-- When every turn keeps the value of `result` too, the loop ends with this value. -/
theorem whileLoop_returns {ρ : Type*} {inv : σ → Prop} {variant : σ → ℕ} {result : σ → ρ}
    (hstep : ∀ s, inv s → cond s = true →
      ∃ t, body s = .ok t ∧ inv t ∧ variant t < variant s ∧ result t = result s)
    (fuel : ℕ) {s : σ} (hs : inv s) (hfuel : variant s < fuel) :
    ∃ t, whileLoop cond body fuel s = .ok t ∧ inv t ∧ cond t = false ∧ result t = result s := by
  have hkeeps (u : σ) (hu : inv u ∧ result u = result s) (hcond : cond u = true) :
      ∃ t, body u = .ok t ∧ (inv t ∧ result t = result s) ∧ variant t < variant u := by
    obtain ⟨t, hbody, ht, hv, hr⟩ := hstep u hu.1 hcond
    exact ⟨t, hbody, ⟨ht, hr.trans hu.2⟩, hv⟩
  obtain ⟨t, hrun, ⟨ht, hr⟩, hcond⟩ := whileLoop_ends hkeeps fuel ⟨hs, rfl⟩ hfuel
  exact ⟨t, hrun, ht, hcond, hr⟩

/-- The states a loop is in before and after its turns. -/
inductive Reaches (cond : σ → Bool) (body : σ → Run σ) (s : σ) : σ → Prop where
  | start : Reaches cond body s s
  | turn {t u : σ} (h : Reaches cond body s t) (hcond : cond t = true) (hbody : body t = .ok u) :
    Reaches cond body s u

namespace Reaches
variable {s t u : σ}

theorem invariant {P : σ → Prop} (hstep : ∀ t u, P t → cond t = true → body t = .ok u → P u)
    (hs : P s) (h : Reaches cond body s t) : P t := by
  induction h with
  | start => exact hs
  | turn h hcond hbody ih => exact hstep _ _ ih hcond hbody

/-- A loop that returns passes through every state it reaches. -/
theorem resumes (h : Reaches cond body s t) {fuel : ℕ} (hrun : whileLoop cond body fuel s = .ok u) :
    ∃ fuel, whileLoop cond body fuel t = .ok u := by
  induction h with
  | start => exact ⟨fuel, hrun⟩
  | @turn t v h hcond hbody ih =>
    obtain ⟨fuel, hfuel⟩ := ih
    cases fuel with
    | zero => cases hfuel
    | succ fuel =>
      simp only [whileLoop, hcond, ↓reduceIte, hbody] at hfuel
      exact ⟨fuel, hfuel⟩

/-- A loop returns the state in which its condition fails. -/
theorem eq_of_returns (h : Reaches cond body s t) (hend : cond t = false) {fuel : ℕ}
    (hrun : whileLoop cond body fuel s = .ok u) : u = t := by
  obtain ⟨fuel, hfuel⟩ := h.resumes hrun
  cases fuel with
  | zero => cases hfuel
  | succ fuel =>
    simp only [whileLoop, hend] at hfuel
    exact (Except.ok.inj hfuel).symm

end Reaches

end While

end SqlxMssql.Loops
