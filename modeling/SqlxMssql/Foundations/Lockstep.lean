import SqlxMssql.Foundations.Interaction

/-! # Two processes in lockstep

The relational rules of processes. Two processes in lockstep that start in related states and
are driven by the same events end in the same way: where one returns, fails, is dropped or
aborts, so does the other, with the same events left.
-/
namespace SqlxMssql.Interaction
open Loops Process

variable {φ σ ε α β : Type}

/-- Two runs have ended alike: with related results in states of `Q`, or without a result, for
the same reason and in states of `G`. -/
inductive Alike (Q : α → α → σ → σ → Prop) (G : σ → σ → Prop) : Outcome φ σ ε α → Outcome φ σ ε α → Prop where
  | returned {a a' : α} {s s' : σ} (h : Q a a' s s') (es : List φ) :
    Alike Q G ⟨.returned a, s, es⟩ ⟨.returned a', s', es⟩
  | stopped {exit : Exit ε α} {s s' : σ} (hexit : ∀ a, exit ≠ .returned a) (h : G s s') (es : List φ) :
    Alike Q G ⟨exit, s, es⟩ ⟨exit, s', es⟩

def Lockstep (P : σ → σ → Prop) (m m' : Process φ σ ε α) (Q : α → α → σ → σ → Prop) (G : σ → σ → Prop) : Prop :=
  ∀ s s' es, P s s' → Alike Q G (m s es) (m' s' es)

theorem Alike.andThen {Q : α → α → σ → σ → Prop} {R : β → β → σ → σ → Prop} {G : σ → σ → Prop}
    {o o' : Outcome φ σ ε α} {f f' : α → Process φ σ ε β} (h : Alike Q G o o')
    (hf : ∀ a a' s s' es, Q a a' s s' → Alike R G (f a s es) (f' a' s' es)) :
    Alike R G (andThen o f) (andThen o' f') := by
  cases h with
  | returned hq es => exact hf _ _ _ _ es hq
  | @stopped exit s s' hexit hg es =>
    cases exit with
    | returned a => exact absurd rfl (hexit a)
    | failed e => exact .stopped (fun b h => by cases h) hg es
    | dropped p => exact .stopped (fun b h => by cases h) hg es
    | aborted a => exact .stopped (fun b h => by cases h) hg es

namespace Alike
variable {Q : α → α → σ → σ → Prop} {G : σ → σ → Prop} {o o' : Outcome φ σ ε α}

theorem exit_eq (h : Alike Q G o o') (hQ : ∀ a a' s s', Q a a' s s' → a = a') : o'.exit = o.exit := by
  cases h with
  | returned hq es => rw [hQ _ _ _ _ hq]
  | stopped hexit hg es => rfl

theorem state {R : σ → σ → Prop} (h : Alike Q G o o') (hQ : ∀ a a' s s', Q a a' s s' → R s s')
    (hG : ∀ s s', G s s' → R s s') : R o.state o'.state := by
  cases h with
  | returned hq es => exact hQ _ _ _ _ hq
  | stopped hexit hg es => exact hG _ _ hg

theorem of_returned (h : Alike Q G o o') {a : α} (ho : o.exit = .returned a) : ∃ a' s s', Q a a' s s' := by
  cases h with
  | returned hq es =>
    cases ho
    exact ⟨_, _, _, hq⟩
  | stopped hexit hg es => exact absurd ho (hexit a)

end Alike

namespace Lockstep
variable {P : σ → σ → Prop} {Q : α → α → σ → σ → Prop} {R : β → β → σ → σ → Prop} {G : σ → σ → Prop}

theorem pure {a a' : α} (h : ∀ s s', P s s' → Q a a' s s') :
    Lockstep P (pure a : Process φ σ ε α) (pure a') Q G :=
  fun s s' es hs => .returned (h s s' hs) es

theorem get : Lockstep P (get : Process φ σ ε σ) get (fun a a' s s' => a = s ∧ a' = s' ∧ P s s') G :=
  fun _ _ es hs => .returned ⟨rfl, rfl, hs⟩ es

/-- A process is in lockstep with itself. -/
theorem same (m : Process φ σ ε α) (hG : ∀ s, G s s) :
    Lockstep Eq m m (fun a a' s s' => a = a' ∧ s = s') G := by
  rintro s s' es rfl
  rcases m s es with ⟨exit, t, rest⟩
  by_cases hexit : ∃ a, exit = .returned a
  · obtain ⟨a, rfl⟩ := hexit
    exact .returned ⟨rfl, rfl⟩ rest
  · exact .stopped (fun a h => hexit ⟨a, h⟩) (hG t) rest

theorem mono {P' : σ → σ → Prop} {Q' : α → α → σ → σ → Prop} {m m' : Process φ σ ε α} (h : Lockstep P m m' Q G)
    (hP : ∀ s s', P' s s' → P s s') (hQ : ∀ a a' s s', Q a a' s s' → Q' a a' s s') :
    Lockstep P' m m' Q' G := by
  intro s s' es hs
  have halike := h s s' es (hP s s' hs)
  generalize m s es = o, m' s' es = o' at halike ⊢
  cases halike with
  | returned hq rest => exact .returned (hQ _ _ _ _ hq) rest
  | stopped hexit hg rest => exact .stopped hexit hg rest

theorem bind {m m' : Process φ σ ε α} {f f' : α → Process φ σ ε β} (hm : Lockstep P m m' Q G)
    (hf : ∀ a a', Lockstep (Q a a') (f a) (f' a') R G) : Lockstep P (m >>= f) (m' >>= f') R G :=
  fun s s' es hs => (hm s s' es hs).andThen fun a a' t t' rest hq => hf a a' t t' rest hq

theorem mapErr {ε' : Type} (f : ε → ε') {m m' : Process φ σ ε α} (hm : Lockstep P m m' Q G) :
    Lockstep P (mapErr f m) (mapErr f m') Q G := by
  intro s s' es hs
  have halike := hm s s' es hs
  simp only [Process.mapErr]
  generalize m s es = o, m' s' es = o' at halike ⊢
  cases halike with
  | returned hq rest => exact .returned hq rest
  | @stopped exit t t' hexit hg rest =>
    cases exit with
    | returned a => exact absurd rfl (hexit a)
    | failed e => exact .stopped (fun a h => by cases h) hg rest
    | dropped p => exact .stopped (fun a h => by cases h) hg rest
    | aborted a => exact .stopped (fun a h => by cases h) hg rest

theorem suspend {p : Suspension} {silent silent' : σ → σ} {answer answer' : φ → σ → Exit ε α × σ}
    (hsilent : ∀ s s', P s s' → G (silent s) (silent' s'))
    (hanswer : ∀ e s s', P s s' → ∀ rest : List φ,
      Alike Q G ⟨(answer e s).1, (answer e s).2, rest⟩ ⟨(answer' e s').1, (answer' e s').2, rest⟩) :
    Lockstep P (suspend p silent answer) (suspend p silent' answer') Q G := by
  intro s s' es hs
  cases es with
  | nil => exact .stopped (fun a h => by cases h) (hsilent s s' hs) []
  | cons e rest => exact hanswer e s s' hs rest

/-- The relation of two turns: both go on, or both have a result. -/
def Turns (I : β → β → σ → σ → Prop) (Q : α → α → σ → σ → Prop) : β ⊕ α → β ⊕ α → σ → σ → Prop
  | .inl b, .inl b' => I b b'
  | .inr a, .inr a' => Q a a'
  | _, _ => fun _ _ => False

/-- The rule of the invariant for two loops. -/
theorem loop {I : β → β → σ → σ → Prop} {body body' : β → Process φ σ ε (β ⊕ α)}
    (hI : ∀ b b' s s', I b b' s s' → G s s')
    (h : ∀ b b', Lockstep (I b b') (body b) (body' b') (Turns I Q) G) (b b' : β) :
    Lockstep (I b b') (loop body b) (loop body' b') Q G := by
  intro s s' es
  induction hn : es.length using Nat.strongRecOn generalizing b b' s s' es with
  | _ n ih =>
    intro hs
    rw [loop_run, loop_run]
    refine (h b b' s s' es hs).andThen fun r r' t t' rest hr => ?_
    match r, r', hr with
    | .inr a, .inr a', hr =>
      have hq : Q a a' t t' := hr
      exact .returned hq rest
    | .inl c, .inl c', hr =>
      by_cases hlt : rest.length < es.length
      · simp only [if_pos hlt]
        exact ih _ (hn ▸ hlt) c c' t t' rest rfl hr
      · simp only [if_neg hlt]
        exact .stopped (fun a h => by cases h) (hI _ _ _ _ hr) rest

end Lockstep

end SqlxMssql.Interaction
