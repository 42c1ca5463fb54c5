import Mathlib.Data.List.Basic

/-! # Assignments in order

A list of names with raw values that is read into a state, one pair after the other. Whether a pair
is refused does not depend on the state, and of the values of one name the last one stays.
-/
namespace SqlxMssql.Assignments

variable {Name Raw State Error α : Type}

/-- The value that the list gives a name last. -/
def lastValue [DecidableEq Name] (name : Name) (pairs : List (Name × Raw)) : Option Raw :=
  ((pairs.filter (·.1 = name)).getLast?).map (·.2)

/-- The setting that the last value asks for, or the one there was before. -/
def SetBy (Reads : Raw → α → Prop) (before after : α) : Option Raw → Prop
  | some raw => Reads raw after
  | none => after = before

theorem SetBy.unique {Reads : Raw → α → Prop} (hread : ∀ {raw a b}, Reads raw a → Reads raw b → a = b)
    {before a b : α} {value : Option Raw} (ha : SetBy Reads before a value) (hb : SetBy Reads before b value) :
    a = b := by
  cases value with
  | some raw => exact hread ha hb
  | none => exact Eq.trans ha (Eq.symm hb)

theorem SetBy.eq_getD {before after : Raw} {value : Option Raw}
    (h : SetBy (fun raw a => a = raw) before after value) : after = value.getD before := by
  cases value with
  | some raw => exact h
  | none => exact h

/-- The refusal of the first pair that is refused. -/
def FirstRefusal (Refused : Name × Raw → Error → Prop) (pairs : List (Name × Raw)) (error : Error) : Prop :=
  ∃ front pair rest, pairs = front ++ pair :: rest ∧ (∀ earlier ∈ front, ∀ e, ¬ Refused earlier e) ∧
    Refused pair error

theorem firstRefusal_cons {Refused : Name × Raw → Error → Prop} {pair : Name × Raw} {pairs : List (Name × Raw)}
    {error : Error} : FirstRefusal Refused (pair :: pairs) error ↔
      Refused pair error ∨ (∀ e, ¬ Refused pair e) ∧ FirstRefusal Refused pairs error := by
  constructor
  · rintro ⟨front, refused, rest, hpairs, hfront, hrefused⟩
    cases front with
    | nil =>
      cases hpairs
      exact .inl hrefused
    | cons first front =>
      cases hpairs
      obtain ⟨hfirst, hfront⟩ := List.forall_mem_cons.mp hfront
      exact .inr ⟨hfirst, front, refused, rest, rfl, hfront, hrefused⟩
  · rintro (hrefused | ⟨hpair, front, refused, rest, rfl, hfront, hrefused⟩)
    · exact ⟨[], pair, pairs, rfl, List.forall_mem_nil _, hrefused⟩
    · exact ⟨pair :: front, refused, rest, rfl, List.forall_mem_cons.mpr ⟨hpair, hfront⟩, hrefused⟩

section LastValue
variable [DecidableEq Name]

theorem lastValue_cons_self (name : Name) (raw : Raw) (pairs : List (Name × Raw)) :
    lastValue name ((name, raw) :: pairs) = some ((lastValue name pairs).getD raw) := by
  unfold lastValue
  rw [List.filter_cons, if_pos (decide_eq_true rfl), List.getLast?_cons]
  cases (pairs.filter (·.1 = name)).getLast? <;> rfl

theorem lastValue_cons_of_ne {name other : Name} (h : other ≠ name) (raw : Raw) (pairs : List (Name × Raw)) :
    lastValue name ((other, raw) :: pairs) = lastValue name pairs := by
  unfold lastValue
  rw [List.filter_cons, if_neg fun heq => h (of_decide_eq_true heq)]

end LastValue

section Reading
variable {step : State → Name × Raw → Except Error State} {pairs : List (Name × Raw)} {s s' : State}

theorem foldlM_cons_ok {pair : Name × Raw} (h : (pair :: pairs).foldlM step s = .ok s') :
    ∃ next, step s pair = .ok next ∧ pairs.foldlM step next = .ok s' := by
  rw [List.foldlM_cons] at h
  cases hpair : step s pair with
  | error e =>
    rw [hpair] at h
    cases h
  | ok next =>
    rw [hpair] at h
    exact ⟨next, rfl, h⟩

/-- The setting of a name after the whole list. -/
theorem foldlM_setting [DecidableEq Name] {name : Name} {get : State → α} {Reads : Raw → α → Prop}
    (hset : ∀ {s s' raw}, step s (name, raw) = .ok s' → Reads raw (get s'))
    (hkeep : ∀ {s s' other raw}, other ≠ name → step s (other, raw) = .ok s' → get s' = get s)
    (h : pairs.foldlM step s = .ok s') : SetBy Reads (get s) (get s') (lastValue name pairs) := by
  induction pairs generalizing s with
  | nil =>
    cases h
    exact rfl
  | cons pair pairs ih =>
    obtain ⟨next, hnext, hrest⟩ := foldlM_cons_ok h
    obtain ⟨other, raw⟩ := pair
    have hsetting := ih hrest
    by_cases hother : other = name
    · subst hother
      rw [lastValue_cons_self]
      cases hlast : lastValue other pairs with
      | some last =>
        rw [hlast] at hsetting
        exact hsetting
      | none =>
        -- no later pair sets the name again
        rw [hlast] at hsetting
        have hkept : get s' = get next := hsetting
        show Reads raw (get s')
        rw [hkept]
        exact hset hnext
    · rw [lastValue_cons_of_ne hother, ← hkeep hother hnext]
      exact hsetting

/-- What no pair changes stays the same. -/
theorem foldlM_kept {get : State → α} (hkeep : ∀ {s s' pair}, step s pair = .ok s' → get s' = get s)
    (h : pairs.foldlM step s = .ok s') : get s' = get s := by
  induction pairs generalizing s with
  | nil =>
    cases h
    rfl
  | cons pair pairs ih =>
    obtain ⟨next, hnext, hrest⟩ := foldlM_cons_ok h
    rw [ih hrest, hkeep hnext]

variable {Refused : Name × Raw → Error → Prop}

/-- The list is stopped at the first pair that is refused. -/
theorem foldlM_error_iff (hstep : ∀ s pair error, step s pair = .error error ↔ Refused pair error) {error : Error} :
    pairs.foldlM step s = .error error ↔ FirstRefusal Refused pairs error := by
  induction pairs generalizing s with
  | nil =>
    constructor
    · intro h
      cases h
    · rintro ⟨front, pair, rest, hpairs, -⟩
      exact absurd hpairs (by simp)
  | cons pair pairs ih =>
    rw [List.foldlM_cons, firstRefusal_cons]
    cases hpair : step s pair with
    | error e =>
      have hrefused := (hstep s pair e).mp hpair
      constructor
      · intro h
        cases h
        exact .inl hrefused
      · rintro (h | ⟨hread, -⟩)
        · exact hpair.symm.trans ((hstep s pair error).mpr h)
        · exact absurd hrefused (hread e)
    | ok next =>
      have hread : ∀ e, ¬ Refused pair e := by
        intro e he
        rw [(hstep s pair e).mpr he] at hpair
        cases hpair
      exact ih.trans ⟨fun h => .inr ⟨hread, h⟩, fun h => (h.resolve_left (hread error)).2⟩

/-- The list is read to its end when none of its pairs is refused. -/
theorem foldlM_ok_iff (hstep : ∀ s pair error, step s pair = .error error ↔ Refused pair error) :
    (∃ s', pairs.foldlM step s = .ok s') ↔ ∀ pair ∈ pairs, ∀ e, ¬ Refused pair e := by
  induction pairs generalizing s with
  | nil => exact ⟨fun _ => List.forall_mem_nil _, fun _ => ⟨s, rfl⟩⟩
  | cons pair pairs ih =>
    rw [List.forall_mem_cons]
    constructor
    · rintro ⟨s', h⟩
      obtain ⟨next, hnext, hrest⟩ := foldlM_cons_ok h
      refine ⟨fun e he => ?_, ih.mp ⟨s', hrest⟩⟩
      rw [(hstep s pair e).mpr he] at hnext
      cases hnext
    · rintro ⟨hpair, hpairs⟩
      cases hnext : step s pair with
      | error e => exact absurd ((hstep s pair e).mp hnext) (hpair e)
      | ok next =>
        rw [List.foldlM_cons, hnext]
        exact ih.mpr hpairs

end Reading

end SqlxMssql.Assignments
