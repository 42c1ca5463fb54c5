import SqlxMssql.Text.Lexing

/-! # What the marker scanner returns for every text

Whatever the text, the scanner returns, and what it returns is the text with some of its
`?` replaced by the names of the first parameters, in order.
-/
namespace SqlxMssql.ParamMarkers
open Loops Utf8
open String (utf8Len utf8Len_cons utf8Len_append)

def parameterName (n : ℕ) : Text := "@P".toList ++ decimal n

/-- The output copies the text, but for markers that become the names of the parameters
from `k + 1` to `n`. -/
inductive Renumbered : ℕ → Text → Text → ℕ → Prop where
  | done (k : ℕ) : Renumbered k [] [] k
  | copy {k n : ℕ} {text output : Text} (c : Char) (h : Renumbered k text output n) :
    Renumbered k (c :: text) (c :: output) n
  | marker {k n : ℕ} {text output : Text} (h : Renumbered (k + 1) text output n) :
    Renumbered k ('?' :: text) (parameterName (k + 1) ++ output) n

namespace Renumbered

theorem le {k n : ℕ} {text output : Text} (h : Renumbered k text output n) : k ≤ n := by
  induction h with
  | done k => exact le_rfl
  | copy c h ih => exact ih
  | marker h ih => omega

/-- Without a marker nothing is changed. -/
theorem unchanged {k n : ℕ} {text output : Text} (h : Renumbered k text output n) (hn : n = k) :
    output = text := by
  induction h with
  | done k => rfl
  | copy c h ih => rw [ih hn]
  | marker h ih =>
    have hle := h.le
    omega

end Renumbered

theorem numberMarkers_renumbered (k : ℕ) (tagged : List (Region × Char)) :
    Renumbered k (tagged.map Prod.snd) (numberMarkers k tagged).1 (numberMarkers k tagged).2 := by
  induction tagged generalizing k with
  | nil => exact .done k
  | cons e tagged ih =>
    by_cases hmarker : e.1 = .code ∧ e.2 = '?'
    · obtain rfl : e = (.code, '?') := Prod.ext hmarker.1 hmarker.2
      exact .marker (ih (k + 1))
    · rw [numberMarkers_other k hmarker]
      exact .copy e.2 (ih k)

theorem lex_chars (r : Region) (s : Text) : (lex r s).map Prod.snd = s := by
  fun_induction lex r s <;> simp_all

theorem lexFlat_chars (r : Region) (s : Text) : (lexFlat r s).map Prod.snd = s := by
  fun_induction lexFlat r s <;> simp_all

section Heads
variable {k : ℕ} {tagged : List (Region × Char)} {s t : Text} {c : Char}

/-- The rewritten text begins as the text does, or with a name. -/
theorem numberMarkers_cons (k : ℕ) (hchars : tagged.map Prod.snd = c :: s) :
    ∃ c' t, (numberMarkers k tagged).1 = c' :: t ∧ (c' = c ∨ c' = '@') := by
  cases tagged with
  | nil => cases hchars
  | cons e tagged =>
    by_cases hmarker : e.1 = .code ∧ e.2 = '?'
    · obtain rfl : e = (.code, '?') := Prod.ext hmarker.1 hmarker.2
      exact ⟨_, _, rfl, .inr rfl⟩
    · rw [numberMarkers_other k hmarker]
      exact ⟨_, _, rfl, .inl (List.cons.inj hchars).1⟩

theorem head_of_numberMarkers (hchars : tagged.map Prod.snd = s) (h : (numberMarkers k tagged).1 = c :: t)
    (hc : c ≠ '@') : ∃ s', s = c :: s' := by
  subst hchars
  cases tagged with
  | nil => cases h
  | cons e tagged =>
    have hchars : (e :: tagged).map Prod.snd = e.2 :: tagged.map Prod.snd := rfl
    obtain ⟨c', t', hcut, rfl | rfl⟩ := numberMarkers_cons k hchars
    · rw [hcut] at h
      exact ⟨_, by rw [List.map_cons, (List.cons.inj h).1]⟩
    · rw [hcut] at h
      exact absurd (List.cons.inj h).1.symm hc

end Heads

theorem parameterName_chars (n : ℕ) : ∀ c ∈ parameterName n, c ∉ ['-', '/', '\'', '"', '[', '?'] := by
  intro c hc
  obtain rfl | rfl | hdigit : c = '@' ∨ c = 'P' ∨ c ∈ decimal n := by simpa [parameterName] using hc
  · decide
  · decide
  · have hdigit := isDigit_of_mem_decimal hdigit
    intro hmem
    simp only [List.mem_cons, List.not_mem_nil, or_false] at hmem
    rcases hmem with rfl | rfl | rfl | rfl | rfl | rfl <;> exact absurd hdigit (by decide)

/-- On every text the scanner returns the text with its markers renumbered. -/
theorem rewriteParamMarkers_returns (sql : Text) : ∃ rewritten markers,
    rewriteParamMarkers sql = .ok (rewritten, markers) ∧ Renumbered 0 sql rewritten markers := by
  have hrenumbered := numberMarkers_renumbered 0 (lexFlat .code sql)
  rw [lexFlat_chars] at hrenumbered
  exact ⟨_, _, rewriteParamMarkers_eq sql, hrenumbered⟩

end SqlxMssql.ParamMarkers
