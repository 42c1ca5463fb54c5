import SqlxMssql.Foundations.Interaction

/-! # A consumer of a stream

One process waits for answers only, and another one hands out items besides. Whatever the first
does over its events, the second does over events of its own, which also say that its consumer
polls it on, until the consumer has seen enough and drops it.
-/
namespace SqlxMssql.Interaction
open Loops Process

variable {φ σ τ ε α β γ δ : Type}

/-- Two processes have stopped for the same reason, with no result. -/
inductive SameStop : Exit ε α → Exit ε β → Prop where
  | failed (e : ε) : SameStop (.failed e) (.failed e)
  | dropped (p : Suspension) : SameStop (.dropped p) (.dropped p)
  | aborted (a : Abort) : SameStop (.aborted a) (.aborted a)

/-- What a stream does over events of its own, where its consumer has ended in this outcome. It
returns, whatever follows its events, or it is dropped at an item that the consumer has waited
for, or it stops as the consumer does. -/
inductive Polled (V : α → β → σ → τ → Prop) (D : α → σ → τ → Prop) (G : σ → τ → Prop) (es : List φ)
    (stream : List φ → Outcome φ τ ε β) : Outcome φ σ ε α → Prop where
  | returned {a : α} {b : β} {s : σ} {t : τ} {rest : List φ} (used : List φ) (h : V a b s t)
    (hrun : ∀ later, stream (used ++ later) = ⟨.returned b, t, later⟩)
    (hused : es.length ≤ used.length + rest.length) : Polled V D G es stream ⟨.returned a, s, rest⟩
  | enough {a : α} {s : σ} {t : τ} {rest : List φ} (used : List φ) (h : D a s t)
    (hrun : stream used = ⟨.dropped .yielding, t, []⟩) : Polled V D G es stream ⟨.returned a, s, rest⟩
  | stopped {exit : Exit ε α} {exit' : Exit ε β} {s : σ} {t : τ} {rest : List φ} (used : List φ)
    (hexit : SameStop exit exit') (h : G s t) (hrun : stream used = ⟨exit', t, []⟩) : Polled V D G es stream ⟨exit, s, rest⟩

/-- The process does what a consumer does that polls the stream. -/
def Polls (P : σ → τ → Prop) (m : Process φ σ ε α) (n : Process φ τ ε β) (V : α → β → σ → τ → Prop)
    (D : α → σ → τ → Prop) (G : σ → τ → Prop) : Prop :=
  ∀ s t es, P s t → Polled V D G es (n t) (m s es)

/-- Each turn of the loop that is not the last uses an event. -/
def Advances (body : β → Process φ σ ε (β ⊕ α)) : Prop :=
  ∀ b s es b' s' rest, body b s es = ⟨.returned (.inl b'), s', rest⟩ → rest.length < es.length

theorem loop_unroll {body : β → Process φ σ ε (β ⊕ α)} (hbody : Advances body) (b : β) :
    loop body b = body b >>= fun
      | .inl b' => loop body b'
      | .inr a => pure a := by
  funext s es
  rw [loop_run, bind_run]
  rcases hrun : body b s es with ⟨exit, t, rest⟩
  cases exit with
  | returned r =>
    cases r with
    | inl b' => exact if_pos (hbody b s es b' t rest hrun)
    | inr a => rfl
  | failed e => rfl
  | dropped p => rfl
  | aborted a => rfl

namespace Polls
variable {P : σ → τ → Prop} {V : α → β → σ → τ → Prop} {D : α → σ → τ → Prop} {G : σ → τ → Prop}

theorem pure {a : α} {b : β} (h : ∀ s t, P s t → V a b s t) :
    Polls P (pure a : Process φ σ ε α) (pure b) V D G := by
  intro s t es hs
  exact .returned [] (h s t hs) (fun _ => rfl) (Nat.le_of_eq (Nat.zero_add _).symm)

theorem get : Polls P (get : Process φ σ ε σ) get (fun a b s t => a = s ∧ b = t ∧ P s t) (fun _ _ _ => False) G := by
  intro s t es hs
  exact .returned [] ⟨rfl, rfl, hs⟩ (fun _ => rfl) (Nat.le_of_eq (Nat.zero_add _).symm)

theorem update {f : σ → σ} {g : τ → τ} {Q : σ → τ → Prop} (h : ∀ s t, P s t → Q (f s) (g t)) :
    Polls P (update f : Process φ σ ε Unit) (update g) (fun _ _ s t => Q s t) (fun _ _ _ => False) G := by
  intro s t es hs
  exact .returned [] (h s t hs) (fun _ => rfl) (Nat.le_of_eq (Nat.zero_add _).symm)

/-- A process that has returned what its consumer has waited for does no more than return. -/
theorem bind {W : γ → δ → σ → τ → Prop} {E : γ → σ → τ → Prop} {m : Process φ σ ε α} {n : Process φ τ ε β}
    {f : α → Process φ σ ε γ} {g : β → Process φ τ ε δ} (hm : Polls P m n V D G)
    (hf : ∀ a b, Polls (V a b) (f a) (g b) W E G)
    (henough : ∀ a s t es, D a s t → ∃ c s', f a s es = ⟨.returned c, s', es⟩ ∧ E c s' t) :
    Polls P (m >>= f) (n >>= g) W E G := by
  intro s t es hs
  have hpolled := hm s t es hs
  rw [bind_run]
  generalize m s es = o at hpolled
  cases hpolled with
  | @returned a b u v rest used hv hrun hused =>
    have hbehind (later : List φ) : (n >>= g) t (used ++ later) = g b v later := by
      rw [bind_run, hrun, andThen_returned]
    have hnext := hf a b u v rest hv
    rw [andThen_returned]
    generalize f a u rest = o at hnext
    cases hnext with
    | @returned c d u' v' rest' used' hw hrun' hused' =>
      refine .returned (used ++ used') hw (fun later => ?_) ?_
      · rw [List.append_assoc, hbehind, hrun']
      · rw [List.length_append]
        omega
    | @enough c u' v' rest' used' he hrun' =>
      exact .enough (used ++ used') he ((hbehind used').trans hrun')
    | @stopped exit exit' u' v' rest' used' hexit hg hrun' =>
      exact .stopped (used ++ used') hexit hg ((hbehind used').trans hrun')
  | @enough a u v rest used hd hrun =>
    obtain ⟨c, u', hreturned, he⟩ := henough a u v rest hd
    rw [andThen_returned, hreturned]
    exact .enough used he (by rw [bind_run, hrun, andThen_dropped])
  | @stopped exit exit' u v rest used hexit hg hrun =>
    cases hexit with
    | failed e => exact .stopped used (.failed e) hg (by rw [bind_run, hrun, andThen_failed])
    | dropped p => exact .stopped used (.dropped p) hg (by rw [bind_run, hrun, andThen_dropped])
    | aborted a => exact .stopped used (.aborted a) hg (by rw [bind_run, hrun, andThen_aborted])

theorem mono {P' : σ → τ → Prop} {V' : α → β → σ → τ → Prop} {D' : α → σ → τ → Prop} {m : Process φ σ ε α}
    {n : Process φ τ ε β} (h : Polls P m n V D G) (hP : ∀ s t, P' s t → P s t)
    (hV : ∀ a b s t, V a b s t → V' a b s t) (hD : ∀ a s t, D a s t → D' a s t) : Polls P' m n V' D' G := by
  intro s t es hs
  have hpolled := h s t es (hP s t hs)
  generalize m s es = o at hpolled
  cases hpolled with
  | returned used hv hrun hused => exact .returned used (hV _ _ _ _ hv) hrun hused
  | enough used hd hrun => exact .enough used (hD _ _ _ hd) hrun
  | stopped used hexit hg hrun => exact .stopped used hexit hg hrun

theorem of_value {f : γ → Process φ σ ε α} {g : γ → Process φ τ ε β} (h : ∀ c, Polls P (f c) (g c) V D G)
    (c d : γ) : Polls (fun s t => c = d ∧ P s t) (f c) (g d) V D G := by
  rintro s t es ⟨rfl, hs⟩
  exact h c s t es hs

/-- The consumer polls the stream on behind an item. -/
theorem polledOn {Q : δ → σ → τ → Prop} {m : Process φ σ ε α} {p : Suspension} {silent : τ → τ}
    {answer : φ → τ → Exit ε δ × τ} {g : δ → Process φ τ ε β} (e : φ)
    (hanswer : ∀ s t, P s t → ∃ d t', answer e t = (.returned d, t') ∧ Q d s t')
    (h : ∀ d, Polls (Q d) m (g d) V D G) : Polls P m (suspend p silent answer >>= g) V D G := by
  intro s t es hs
  obtain ⟨d, t', hreturned, hq⟩ := hanswer s t hs
  have hbehind (later : List φ) : (suspend p silent answer >>= g) t (e :: later) = g d t' later := by
    rw [bind_run, suspend_cons, hreturned, andThen_returned]
  have hpolled := h d s t' es hq
  generalize m s es = o at hpolled
  cases hpolled with
  | @returned a b u v rest used hv hrun hused =>
    refine .returned (e :: used) hv (fun later => ?_) ?_
    · rw [List.cons_append, hbehind, hrun]
    · rw [List.length_cons]
      omega
  | @enough a u v rest used hd hrun => exact .enough (e :: used) hd ((hbehind used).trans hrun)
  | @stopped exit exit' u v rest used hexit hg hrun =>
    exact .stopped (e :: used) hexit hg ((hbehind used).trans hrun)

/-- The consumer drops the stream at an item. -/
theorem dropped {a : α} {silent : τ → τ} {answer : φ → τ → Exit ε δ × τ} {g : δ → Process φ τ ε β}
    (h : ∀ s t, P s t → D a s (silent t)) :
    Polls P (Pure.pure a : Process φ σ ε α) (suspend .yielding silent answer >>= g) V D G :=
  fun s t _ hs => .enough [] (h s t hs) rfl

/-- The relation of two turns: both go on, or both have a result. -/
def Turned (I : β → δ → σ → τ → Prop) (V : α → γ → σ → τ → Prop) : β ⊕ α → δ ⊕ γ → σ → τ → Prop
  | .inl b, .inl d => I b d
  | .inr a, .inr c => V a c
  | _, _ => fun _ _ => False

/-- A turn has found what its loop looks for. -/
def Found (D : α → σ → τ → Prop) : β ⊕ α → σ → τ → Prop
  | .inl _ => fun _ _ => False
  | .inr a => D a

theorem loop {I : β → δ → σ → τ → Prop} {V : α → γ → σ → τ → Prop} {body : β → Process φ σ ε (β ⊕ α)}
    {body' : δ → Process φ τ ε (δ ⊕ γ)} (hbody : Advances body)
    (h : ∀ b d, Polls (I b d) (body b) (body' d) (Turned I V) (Found D) G) (b : β) (d : δ) :
    Polls (I b d) (loop body b) (loop body' d) V D G := by
  intro s t es
  induction hn : es.length using Nat.strongRecOn generalizing b d s t es with
  | _ n ih =>
    intro hs
    have hpolled := h b d s t es hs
    rw [loop_run]
    rcases hrun : body b s es with ⟨exit, u, rest⟩
    rw [hrun] at hpolled
    cases hpolled with
    | @returned r r' u v rest used hv hrun' hused =>
      match r, r', hv with
      | .inr a, .inr c, hv =>
        refine .returned used hv (fun later => ?_) hused
        rw [loop_run, hrun']
        rfl
      | .inl b', .inl d', hv =>
        have hlt := hbody b s es b' u rest hrun
        have hbehind (later : List φ) : Process.loop body' d t (used ++ later) = Process.loop body' d' v later := by
          rw [loop_run, hrun']
          exact if_pos (by rw [List.length_append]; omega)
        have hnext := ih rest.length (hn ▸ hlt) b' d' u v rest rfl hv
        simp only [andThen_returned, if_pos hlt]
        generalize Process.loop body b' u rest = o at hnext
        cases hnext with
        | @returned a c u' v' rest' used' hw hrun'' hused' =>
          refine .returned (used ++ used') hw (fun later => ?_) ?_
          · rw [List.append_assoc, hbehind, hrun'']
          · rw [List.length_append]
            omega
        | @enough a u' v' rest' used' hd hrun'' =>
          exact .enough (used ++ used') hd ((hbehind used').trans hrun'')
        | @stopped exit exit' u' v' rest' used' hexit hg hrun'' =>
          exact .stopped (used ++ used') hexit hg ((hbehind used').trans hrun'')
    | @enough r u v rest used hd hrun' =>
      match r, hd with
      | .inr a, hd => exact .enough used hd (by rw [loop_run, hrun']; rfl)
    | @stopped exit exit' u v rest used hexit hg hrun' =>
      cases hexit with
      | failed e => exact .stopped used (.failed e) hg (by rw [loop_run, hrun']; rfl)
      | dropped p => exact .stopped used (.dropped p) hg (by rw [loop_run, hrun']; rfl)
      | aborted a => exact .stopped used (.aborted a) hg (by rw [loop_run, hrun']; rfl)

end Polls

end SqlxMssql.Interaction
