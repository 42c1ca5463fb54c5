import SqlxMssql.Foundations.Loops

/-! # Computations that can be dropped where they wait

A process works on a state and waits for its environment at suspension points. The
environment is a finite list of events: each suspension point takes the next one, and
a process whose events have run out is dropped where it stands. Every way to
interleave answers, failures and cancellation is therefore one list of events.
-/
namespace SqlxMssql.Interaction
open Loops

/-- Where a process hands control back: it waits for an answer, or it has handed out
an item and waits to be asked for the next one. -/
inductive Suspension where
  | awaiting
  | yielding
  deriving DecidableEq, Repr

inductive Exit (ε α : Type) where
  | returned (a : α)
  | failed (e : ε)
  | dropped (p : Suspension)
  | aborted (a : Abort)
  deriving DecidableEq, Repr

def Exit.isReturned {ε α : Type} : Exit ε α → Bool
  | returned _ => true
  | _ => false

/-- The exit of a process, the state it leaves and the events it did not use. -/
structure Outcome (φ σ ε α : Type) where
  exit : Exit ε α
  state : σ
  rest : List φ
  deriving Repr

def Process (φ σ ε α : Type) := σ → List φ → Outcome φ σ ε α

variable {φ σ ε α β γ : Type}

namespace Process

/-- Hands a returned value on; every other exit ends the whole process. -/
def andThen (o : Outcome φ σ ε α) (f : α → Process φ σ ε β) : Outcome φ σ ε β :=
  match o with
  | ⟨.returned a, s, es⟩ => f a s es
  | ⟨.failed e, s, es⟩ => ⟨.failed e, s, es⟩
  | ⟨.dropped p, s, es⟩ => ⟨.dropped p, s, es⟩
  | ⟨.aborted a, s, es⟩ => ⟨.aborted a, s, es⟩

@[simp] theorem andThen_returned (a : α) (s : σ) (es : List φ) (f : α → Process φ σ ε β) :
    andThen ⟨.returned a, s, es⟩ f = f a s es := rfl
@[simp] theorem andThen_failed (e : ε) (s : σ) (es : List φ) (f : α → Process φ σ ε β) :
    andThen ⟨.failed e, s, es⟩ f = ⟨.failed e, s, es⟩ := rfl
@[simp] theorem andThen_dropped (p : Suspension) (s : σ) (es : List φ) (f : α → Process φ σ ε β) :
    andThen ⟨.dropped p, s, es⟩ f = ⟨.dropped p, s, es⟩ := rfl
@[simp] theorem andThen_aborted (a : Abort) (s : σ) (es : List φ) (f : α → Process φ σ ε β) :
    andThen ⟨.aborted a, s, es⟩ f = ⟨.aborted a, s, es⟩ := rfl

instance : Monad (Process φ σ ε) where
  pure a := fun s es => ⟨.returned a, s, es⟩
  bind m f := fun s es => andThen (m s es) f

@[simp] theorem pure_run (a : α) (s : σ) (es : List φ) :
    (pure a : Process φ σ ε α) s es = ⟨.returned a, s, es⟩ := rfl
@[simp] theorem bind_run (m : Process φ σ ε α) (f : α → Process φ σ ε β) (s : σ) (es : List φ) :
    (m >>= f) s es = andThen (m s es) f := rfl

/-- What does not return stops whatever follows it, with the same failure if it has failed. -/
theorem andThen_stops {exit : Exit ε α} (h : ∀ a, exit ≠ .returned a) (s : σ) (es : List φ)
    (f : α → Process φ σ ε β) : ∃ exit' : Exit ε β, (∀ b, exit' ≠ .returned b) ∧
      ((∃ e, exit' = .failed e) → ∃ e, exit = .failed e) ∧ andThen ⟨exit, s, es⟩ f = ⟨exit', s, es⟩ := by
  cases exit with
  | returned a => exact absurd rfl (h a)
  | failed e => exact ⟨.failed e, nofun, fun _ => ⟨e, rfl⟩, rfl⟩
  | dropped p => exact ⟨.dropped p, nofun, nofun, rfl⟩
  | aborted a => exact ⟨.aborted a, nofun, nofun, rfl⟩

theorem andThen_stopped {exit : Exit ε α} (h : ∀ a, exit ≠ .returned a) (s : σ) (es : List φ)
    (f : α → Process φ σ ε β) : (andThen ⟨exit, s, es⟩ f).state = s := by
  obtain ⟨exit', -, -, hstop⟩ := andThen_stops h s es f
  rw [hstop]

theorem andThen_stopped_exit {exit : Exit ε α} (h : ∀ a, exit ≠ .returned a) (s : σ) (es : List φ)
    (f : α → Process φ σ ε β) : (andThen ⟨exit, s, es⟩ f).exit.isReturned = false := by
  cases exit with
  | returned a => exact absurd rfl (h a)
  | failed e => rfl
  | dropped p => rfl
  | aborted a => rfl

theorem andThen_andThen (o : Outcome φ σ ε α) (f : α → Process φ σ ε β) (g : β → Process φ σ ε γ) :
    andThen (andThen o f) g = andThen o fun a => f a >>= g := by
  rcases o with ⟨exit, s, es⟩
  cases exit <;> rfl

theorem bind_assoc (m : Process φ σ ε α) (f : α → Process φ σ ε β) (g : β → Process φ σ ε γ) :
    (m >>= f) >>= g = m >>= fun a => f a >>= g := by
  funext s es
  exact andThen_andThen (m s es) f g

theorem andThen_state {P : σ → Prop} {o : Outcome φ σ ε α} {f : α → Process φ σ ε β}
    (ho : P o.state) (hf : ∀ a, P (f a o.state o.rest).state) : P (andThen o f).state := by
  rcases o with ⟨exit, s, es⟩
  cases exit with
  | returned a => exact hf a
  | failed e => exact ho
  | dropped p => exact ho
  | aborted a => exact ho

@[simp] theorem andThen_pure_state (o : Outcome φ σ ε α) (f : α → β) :
    (andThen o fun a => pure (f a)).state = o.state := by
  rcases o with ⟨exit, s, es⟩
  cases exit <;> rfl

def get : Process φ σ ε σ := fun s es => ⟨.returned s, s, es⟩
def update (f : σ → σ) : Process φ σ ε Unit := fun s es => ⟨.returned (), f s, es⟩
def fail (e : ε) : Process φ σ ε α := fun s es => ⟨.failed e, s, es⟩

/-- A pure part of the process that may panic. -/
def lift : Run α → Process φ σ ε α
  | .ok a => fun s es => ⟨.returned a, s, es⟩
  | .error a => fun s es => ⟨.aborted a, s, es⟩

/-- Waits once: without a further event the process is dropped in the state `silent`
leaves, otherwise `answer` says how the next event goes on. -/
def suspend (p : Suspension) (silent : σ → σ) (answer : φ → σ → Exit ε α × σ) :
    Process φ σ ε α := fun s es =>
  match es with
  | [] => ⟨.dropped p, silent s, []⟩
  | e :: rest => ⟨(answer e s).1, (answer e s).2, rest⟩

@[simp] theorem get_run (s : σ) (es : List φ) :
    (get : Process φ σ ε σ) s es = ⟨.returned s, s, es⟩ := rfl
@[simp] theorem update_run (f : σ → σ) (s : σ) (es : List φ) :
    (update f : Process φ σ ε Unit) s es = ⟨.returned (), f s, es⟩ := rfl
@[simp] theorem lift_ok (a : α) (s : σ) (es : List φ) :
    (lift (.ok a) : Process φ σ ε α) s es = ⟨.returned a, s, es⟩ := rfl
@[simp] theorem suspend_cons (p : Suspension) (silent : σ → σ) (answer : φ → σ → Exit ε α × σ)
    (s : σ) (e : φ) (es : List φ) :
    suspend p silent answer s (e :: es) = ⟨(answer e s).1, (answer e s).2, es⟩ := rfl

/-- Turns an error of `m` into a value, as a `match` on its result does. -/
def attempt (m : Process φ σ ε α) : Process φ σ ε (Except ε α) := fun s es =>
  match m s es with
  | ⟨.returned a, t, rest⟩ => ⟨.returned (.ok a), t, rest⟩
  | ⟨.failed e, t, rest⟩ => ⟨.returned (.error e), t, rest⟩
  | ⟨.dropped p, t, rest⟩ => ⟨.dropped p, t, rest⟩
  | ⟨.aborted a, t, rest⟩ => ⟨.aborted a, t, rest⟩

/-- Runs `m` under a guard that applies `onDrop` on every way out but a return. -/
def guarded (onDrop : σ → σ) (m : Process φ σ ε α) : Process φ σ ε α := fun s es =>
  match m s es with
  | ⟨.returned a, t, rest⟩ => ⟨.returned a, t, rest⟩
  | ⟨exit, t, rest⟩ => ⟨exit, onDrop t, rest⟩

/-- `if c { m }` -/
def when (c : Prop) [Decidable c] (m : Process φ σ ε Unit) : Process φ σ ε Unit :=
  if c then m else pure ()

/-- A loop whose turns each use at least one event. A turn that uses none would never
hand control back. -/
def loopFuel (body : β → Process φ σ ε (β ⊕ α)) : ℕ → β → Process φ σ ε α
  | 0, _ => lift (.error .diverge)
  | fuel + 1, b => fun s es => andThen (body b s es) fun
    | .inr a => pure a
    | .inl b' => fun t rest =>
      if rest.length < es.length then loopFuel body fuel b' t rest
      else ⟨.aborted .diverge, t, rest⟩

def loop (body : β → Process φ σ ε (β ⊕ α)) (b : β) : Process φ σ ε α := fun s es =>
  loopFuel body (es.length + 1) b s es

def mapErr {ε' : Type} (f : ε → ε') (m : Process φ σ ε α) : Process φ σ ε' α := fun s es =>
  match m s es with
  | ⟨.returned a, t, rest⟩ => ⟨.returned a, t, rest⟩
  | ⟨.failed e, t, rest⟩ => ⟨.failed (f e), t, rest⟩
  | ⟨.dropped p, t, rest⟩ => ⟨.dropped p, t, rest⟩
  | ⟨.aborted a, t, rest⟩ => ⟨.aborted a, t, rest⟩

@[simp] theorem mapErr_state {ε' : Type} (f : ε → ε') (m : Process φ σ ε α) (s : σ)
    (es : List φ) : (mapErr f m s es).state = (m s es).state := by
  simp only [mapErr]
  split <;> simp_all

@[simp] theorem attempt_state (m : Process φ σ ε α) (s : σ) (es : List φ) :
    (attempt m s es).state = (m s es).state := by
  simp only [attempt]
  split <;> simp_all

theorem guarded_returned {onDrop : σ → σ} {m : Process φ σ ε α} {s t : σ} {es rest : List φ} {a : α}
    (h : m s es = ⟨.returned a, t, rest⟩) : guarded onDrop m s es = ⟨.returned a, t, rest⟩ := by
  simp only [guarded, h]

theorem guarded_stopped {onDrop : σ → σ} {m : Process φ σ ε α} {s t : σ} {es rest : List φ} {exit : Exit ε α}
    (h : m s es = ⟨exit, t, rest⟩) (hexit : ∀ a, exit ≠ .returned a) :
    guarded onDrop m s es = ⟨exit, onDrop t, rest⟩ := by
  cases exit with
  | returned a => exact absurd rfl (hexit a)
  | failed e => simp only [guarded, h]
  | dropped p => simp only [guarded, h]
  | aborted a => simp only [guarded, h]

theorem loopFuel_eq (body : β → Process φ σ ε (β ⊕ α)) {n k : ℕ} {b : β} {s : σ} {es : List φ}
    (hn : es.length < n) (hk : es.length < k) :
    loopFuel body n b s es = loopFuel body k b s es := by
  induction n generalizing k b s es with
  | zero => omega
  | succ n ih =>
    cases k with
    | zero => omega
    | succ k =>
      simp only [loopFuel]
      congr 1
      funext r t rest
      cases r with
      | inr a => rfl
      | inl b' =>
        by_cases hlt : rest.length < es.length
        · simp only [if_pos hlt]
          exact ih (by omega) (by omega)
        · simp only [if_neg hlt]

theorem loop_run (body : β → Process φ σ ε (β ⊕ α)) (b : β) (s : σ) (es : List φ) :
    loop body b s es = andThen (body b s es) fun
      | .inr a => pure a
      | .inl b' => fun t rest =>
        if rest.length < es.length then loop body b' t rest
        else ⟨.aborted .diverge, t, rest⟩ := by
  rw [loop, loopFuel]
  refine congrArg (andThen (body b s es)) ?_
  funext r t rest
  cases r with
  | inr a => rfl
  | inl b' =>
    by_cases hlt : rest.length < es.length
    · simp only [if_pos hlt]
      exact loopFuel_eq body hlt (Nat.lt_succ_self _)
    · simp only [if_neg hlt]

theorem loop_bind_run (body : β → Process φ σ ε (β ⊕ α)) (f : α → Process φ σ ε γ) (b : β) (s : σ)
    (es : List φ) : (loop body b >>= f) s es = andThen (body b s es) fun
      | .inr a => f a
      | .inl b' => fun t rest =>
        if rest.length < es.length then (loop body b' >>= f) t rest
        else ⟨.aborted .diverge, t, rest⟩ := by
  rw [bind_run, loop_run, andThen_andThen]
  refine congrArg (andThen (body b s es)) ?_
  funext r t rest
  cases r with
  | inr a => rfl
  | inl b' =>
    rw [bind_run]
    by_cases hlt : rest.length < es.length
    · simp only [if_pos hlt]
      rfl
    · simp only [if_neg hlt]
      rfl

end Process

/-- Where the process returns, from a state of the precondition, the postcondition holds. -/
def Returns (P : σ → Prop) (m : Process φ σ ε α) (Q : α → σ → Prop) : Prop :=
  ∀ s es a t rest, P s → m s es = ⟨.returned a, t, rest⟩ → Q a t

namespace Returns
open Process

theorem pure {P : σ → Prop} {Q : α → σ → Prop} {a : α} (h : ∀ s, P s → Q a s) :
    Returns P (pure a : Process φ σ ε α) Q := by
  rintro s es b t rest hs hrun
  cases hrun
  exact h s hs

theorem bind {P : σ → Prop} {Q : α → σ → Prop} {R : β → σ → Prop} {m : Process φ σ ε α}
    {f : α → Process φ σ ε β} (hm : Returns P m Q) (hf : ∀ a, Returns (Q a) (f a) R) :
    Returns P (m >>= f) R := by
  intro s es b t rest hs hrun
  rw [bind_run] at hrun
  rcases hm' : m s es with ⟨exit, u, rest'⟩
  rw [hm'] at hrun
  cases exit with
  | returned a => exact hf a u rest' b t rest (hm s es a u rest' hs hm') hrun
  | failed e => simp at hrun
  | dropped p => simp at hrun
  | aborted a => simp at hrun

theorem any {P : σ → Prop} {m : Process φ σ ε α} : Returns P m fun _ _ => True :=
  fun _ _ _ _ _ _ _ => trivial

/-- The rule of the invariant: every turn hands it on, and the last one has the result. -/
theorem loop {I : β → σ → Prop} {Q : α → σ → Prop} {body : β → Process φ σ ε (β ⊕ α)}
    (h : ∀ b, Returns (I b) (body b) (Sum.elim I Q)) (b : β) : Returns (I b) (loop body b) Q := by
  intro s es
  induction hn : es.length using Nat.strongRecOn generalizing b s es with
  | _ n ih =>
    intro a t rest hs hrun
    rw [loop_run] at hrun
    rcases hbody : body b s es with ⟨exit, u, rest'⟩
    rw [hbody] at hrun
    cases exit with
    | returned r =>
      have hr := h b s es r u rest' hs hbody
      cases r with
      | inr a' =>
        obtain ⟨rfl, rfl⟩ : a' = a ∧ u = t := by
          simp only [andThen_returned, pure_run, Outcome.mk.injEq, Exit.returned.injEq] at hrun
          exact ⟨hrun.1, hrun.2.1⟩
        exact hr
      | inl b' =>
        by_cases hlt : rest'.length < es.length
        · simp only [andThen_returned, if_pos hlt] at hrun
          exact ih _ (hn ▸ hlt) b' u rest' rfl a t rest hr hrun
        · simp [if_neg hlt] at hrun
    | failed e => simp at hrun
    | dropped p => simp at hrun
    | aborted a => simp at hrun

end Returns

/-- What a process may do to the state: a preorder from the state before to the state
after, read at every exit of the process. -/
structure Frame (σ : Type) where
  rel : σ → σ → Prop
  refl : ∀ s, rel s s
  trans : ∀ {s t u}, rel s t → rel t u → rel s u

/-- However the process ends, it has moved the state along the frame only. -/
def Within (F : Frame σ) (m : Process φ σ ε α) : Prop := ∀ s es, F.rel s (m s es).state

namespace Within
open Process
variable {F : Frame σ}

theorem pure (a : α) : Within F (pure a : Process φ σ ε α) := fun s _ => F.refl s
theorem get : Within F (get : Process φ σ ε σ) := fun s _ => F.refl s
theorem fail (e : ε) : Within F (fail e : Process φ σ ε α) := fun s _ => F.refl s
theorem update {f : σ → σ} (h : ∀ s, F.rel s (f s)) : Within F (update f : Process φ σ ε Unit) :=
  fun s _ => h s

theorem lift (r : Run α) : Within F (lift r : Process φ σ ε α) := by
  intro s es
  cases r <;> exact F.refl s

theorem suspend {p : Suspension} {silent : σ → σ} {answer : φ → σ → Exit ε α × σ}
    (hs : ∀ s, F.rel s (silent s)) (ha : ∀ e s, F.rel s (answer e s).2) :
    Within F (suspend p silent answer) := by
  intro s es
  cases es with
  | nil => exact hs s
  | cons e rest => exact ha e s

theorem andThen {o : Outcome φ σ ε α} {f : α → Process φ σ ε β} {s : σ}
    (ho : F.rel s o.state) (hf : ∀ a, F.rel o.state (f a o.state o.rest).state) :
    F.rel s (andThen o f).state :=
  andThen_state (P := F.rel s) ho fun a => F.trans ho (hf a)

theorem bind {m : Process φ σ ε α} {f : α → Process φ σ ε β} (hm : Within F m)
    (hf : ∀ a, Within F (f a)) : Within F (m >>= f) := fun s es => andThen (hm s es) fun a => hf a _ _

theorem ite {p : Prop} [Decidable p] {m m' : Process φ σ ε α} (hm : Within F m)
    (hm' : Within F m') : Within F (if p then m else m') := by
  by_cases hp : p
  · rwa [if_pos hp]
  · rwa [if_neg hp]

theorem when {p : Prop} [Decidable p] {m : Process φ σ ε Unit} (hm : Within F m) :
    Within F (when p m) := ite hm (pure ())

theorem mapErr {ε' : Type} {f : ε → ε'} {m : Process φ σ ε α} (hm : Within F m) :
    Within F (mapErr f m) := by
  intro s es
  rw [mapErr_state]
  exact hm s es

theorem attempt {m : Process φ σ ε α} (hm : Within F m) : Within F (attempt m) := by
  intro s es
  rw [attempt_state]
  exact hm s es

theorem guarded {onDrop : σ → σ} {m : Process φ σ ε α} (hm : Within F m)
    (hd : ∀ s, F.rel s (onDrop s)) : Within F (guarded onDrop m) := by
  intro s es
  have h := hm s es
  simp only [Process.guarded]
  split
  · simp_all
  · next heq => exact F.trans (by simpa [heq] using h) (hd _)

theorem loop {body : β → Process φ σ ε (β ⊕ α)} (hb : ∀ b, Within F (body b)) (b : β) :
    Within F (loop body b) := by
  intro s es
  induction hn : es.length using Nat.strongRecOn generalizing b s es with
  | _ n ih =>
    rw [loop_run]
    apply andThen (hb b s es)
    intro r
    cases r with
    | inr a => exact F.refl _
    | inl b' =>
      by_cases hlt : (body b s es).rest.length < es.length
      · simp only [if_pos hlt]
        exact ih _ (hn ▸ hlt) _ _ _ rfl
      · simp only [if_neg hlt]
        exact F.refl _

end Within

end SqlxMssql.Interaction
