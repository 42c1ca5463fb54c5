import Mathlib.Data.List.ReduceOption
import Mathlib.Data.Nat.Find

/-! # Tokens by longest match

A text is cut into tokens from left to right, each of them as long as it can be. The text
may have gaps, which no token spans. A placeholder is a character that is replaced by a
name: the tokens of the filled text are those of a lexicon that has the placeholder among
the characters of its words.
-/
namespace SqlxMssql.LongestMatch

/-- The words and literals of a language. No literal begins like a word. -/
structure Lexicon (α : Type) where
  start : α → Bool
  part : α → Bool
  literal : List α → Bool

variable {α : Type}

/-- The text in front of the first gap. -/
def front : List (Option α) → List α
  | some c :: s => c :: front s
  | _ => []

theorem front_append (t : List α) (s : List (Option α)) : front (t.map some ++ s) = t ++ front s := by
  induction t with
  | nil => rfl
  | cons c t ih => exact congrArg (c :: ·) ih

theorem reduceOption_map_some (t : List α) : (t.map some).reduceOption = t := by
  rw [List.reduceOption, List.filterMap_map]
  exact List.filterMap_some

theorem eq_map_some_append {s : List (Option α)} {t : List α} (h : t <+: front s) :
    s = t.map some ++ s.drop t.length := by
  induction t generalizing s with
  | nil => rfl
  | cons c t ih =>
    rcases s with _ | ⟨_ | c', s⟩
    · simp [front] at h
    · simp [front] at h
    · obtain ⟨rfl, ht⟩ := List.cons_prefix_cons.mp h
      exact congrArg (some c :: ·) (ih ht)

namespace Lexicon

/-- The length of the longest literal that the text begins with, or 0. -/
def literalLength (T : Lexicon α) (s : List α) : ℕ :=
  Nat.findGreatest (fun n => T.literal (s.take n) = true) s.length

/-- The first token: a word, a literal, or else a single character. -/
def token (T : Lexicon α) : List α → List α
  | [] => []
  | c :: s =>
    if T.start c then c :: s.takeWhile T.part else (c :: s).take (max 1 (T.literalLength (c :: s)))

/-- The tokens of a text whose first characters belong to the token before. -/
def tokensFrom (T : Lexicon α) : ℕ → List (Option α) → List (List α)
  | _, [] => []
  | skip + 1, _ :: s => T.tokensFrom skip s
  | 0, none :: s => T.tokensFrom 0 s
  | 0, some c :: s => T.token (c :: front s) :: T.tokensFrom ((T.token (c :: front s)).length - 1) s

def tokens (T : Lexicon α) (s : List (Option α)) : List (List α) := T.tokensFrom 0 s

section Tokens
variable (T : Lexicon α)

theorem tokensFrom_eq (n : ℕ) (s : List (Option α)) : T.tokensFrom n s = T.tokens (s.drop n) := by
  induction s generalizing n with
  | nil => cases n <;> rfl
  | cons c s ih =>
    cases n with
    | zero => rfl
    | succ n => exact ih n

theorem token_pos (c : α) (s : List α) : 1 ≤ (T.token (c :: s)).length := by
  rw [token]
  split
  · exact Nat.le_add_left 1 _
  · rw [List.length_take, List.length_cons]
    omega

theorem prefix_token (s : List α) : T.token s <+: s := by
  cases s with
  | nil => exact List.prefix_rfl
  | cons c s =>
    rw [token]
    split
    · exact List.cons_prefix_cons.mpr ⟨rfl, List.takeWhile_prefix _⟩
    · exact List.take_prefix _ _

theorem tokens_front {s : List (Option α)} (h : front s ≠ []) :
    T.tokens s = T.token (front s) :: T.tokens (s.drop (T.token (front s)).length) := by
  rcases s with _ | ⟨_ | c, s⟩
  · exact absurd rfl h
  · exact absurd rfl h
  · obtain ⟨n, hn⟩ := Nat.exists_eq_succ_of_ne_zero (Nat.one_le_iff_ne_zero.mp (T.token_pos c (front s)))
    rw [tokens, tokensFrom, tokensFrom_eq, front, hn]
    rfl

/-- Every character outside the gaps is in a token. -/
theorem flatten_tokens (s : List (Option α)) : (T.tokens s).flatten = s.reduceOption := by
  induction hlength : s.length using Nat.strongRecOn generalizing s with
  | _ n ih =>
    rcases s with _ | ⟨_ | c, s⟩
    · rfl
    · exact ih s.length (by simp [← hlength]) s rfl
    · have hpos := T.token_pos c (front s)
      have hlater := ih _ (by simp [← hlength]; omega) ((some c :: s).drop (T.token (c :: front s)).length) rfl
      have hcut := congrArg List.reduceOption
        (eq_map_some_append (s := some c :: s) (T.prefix_token (c :: front s)))
      rw [List.reduceOption_append, reduceOption_map_some] at hcut
      rw [T.tokens_front (s := some c :: s) (List.cons_ne_nil c (front s)), List.flatten_cons, front, hlater, hcut]

theorem literal_take {s : List α} (h : T.literalLength s ≠ 0) :
    T.literal (s.take (T.literalLength s)) = true := Nat.findGreatest_of_ne_zero rfl h

/-- No literal reaches over a character that no literal has. -/
theorem literalLength_append {x : α} (hx : ∀ t, T.literal t = true → x ∉ t) (s rest : List α) :
    T.literalLength (s ++ x :: rest) = T.literalLength s := by
  rw [literalLength, Nat.findGreatest_eq_iff]
  have hle : T.literalLength s ≤ s.length := Nat.findGreatest_le _
  refine ⟨Nat.le_trans hle (by simp), fun hpos => ?_, fun n hn _ hliteral => ?_⟩
  · rw [List.take_append_of_le_length hle]
    exact T.literal_take hpos
  · by_cases hlong : n ≤ s.length
    · rw [List.take_append_of_le_length hlong] at hliteral
      exact Nat.findGreatest_is_greatest hn hlong hliteral
    · refine hx _ hliteral ?_
      obtain ⟨k, rfl⟩ : ∃ k, n = s.length + (k + 1) := ⟨n - s.length - 1, by omega⟩
      rw [List.take_length_add_append]
      exact List.mem_append_right _ List.mem_cons_self

end Tokens

/-- The placeholder counts as a character of a word. -/
def withPlaceholder [DecidableEq α] (T : Lexicon α) (m : α) : Lexicon α where
  start c := c = m || T.start c
  part c := c = m || T.part c
  literal := T.literal

end Lexicon


/-- The names are words, and no literal has a placeholder or what a name begins with. -/
structure Names (T : Lexicon α) (m : α) (name : ℕ → List α) : Prop where
  begins (n : ℕ) : ∃ a rest, name n = a :: rest ∧ T.start a = true ∧ ∀ t, T.literal t = true → a ∉ t
  part (n : ℕ) (c : α) : c ∈ name n → T.part c = true
  literal (t : List α) : T.literal t = true → m ∉ t

theorem Names.ne_nil {T : Lexicon α} {m : α} {name : ℕ → List α} (hn : Names T m name) (n : ℕ) : name n ≠ [] := by
  obtain ⟨a, rest, hname, -, -⟩ := hn.begins n
  rw [hname]
  exact List.cons_ne_nil a rest

section Filling
variable [DecidableEq α]

/-- Each placeholder becomes the name with the next number, from `k + 1` on. -/
def fill (m : α) (name : ℕ → List α) : ℕ → List α → List α
  | _, [] => []
  | k, c :: s => if c = m then name (k + 1) ++ fill m name (k + 1) s else c :: fill m name k s

def fillGaps (m : α) (name : ℕ → List α) : ℕ → List (Option α) → List (Option α)
  | _, [] => []
  | k, none :: s => none :: fillGaps m name k s
  | k, some c :: s =>
    if c = m then (name (k + 1)).map some ++ fillGaps m name (k + 1) s else some c :: fillGaps m name k s

def fillTokens (m : α) (name : ℕ → List α) : ℕ → List (List α) → List (List α)
  | _, [] => []
  | k, t :: ts => fill m name k t :: fillTokens m name (k + t.count m) ts

variable {T : Lexicon α} {m : α} {name : ℕ → List α}

theorem fill_marker (k : ℕ) (s : List α) : fill m name k (m :: s) = name (k + 1) ++ fill m name (k + 1) s :=
  if_pos rfl

theorem fill_copy (k : ℕ) {c : α} (hc : c ≠ m) (s : List α) :
    fill m name k (c :: s) = c :: fill m name k s := if_neg hc

theorem fill_append (m : α) (name : ℕ → List α) (k : ℕ) (s t : List α) :
    fill m name k (s ++ t) = fill m name k s ++ fill m name (k + s.count m) t := by
  induction s generalizing k with
  | nil => rfl
  | cons c s ih =>
    rw [List.cons_append]
    by_cases hc : c = m
    · subst hc
      rw [fill_marker, fill_marker, ih, List.append_assoc, List.count_cons_self, Nat.add_right_comm, Nat.add_assoc]
    · rw [fill_copy k hc, fill_copy k hc, ih, List.count_cons_of_ne hc, List.cons_append]

theorem fill_none (k : ℕ) {s : List α} (h : m ∉ s) : fill m name k s = s := by
  induction s with
  | nil => rfl
  | cons c s ih =>
    rw [List.mem_cons, not_or] at h
    rw [fill_copy k (Ne.symm h.1), ih h.2]

theorem front_fillGaps (k : ℕ) (s : List (Option α)) : front (fillGaps m name k s) = fill m name k (front s) := by
  induction s generalizing k with
  | nil => rfl
  | cons e s ih =>
    cases e with
    | none => rfl
    | some c =>
      rw [fillGaps, front]
      by_cases hc : c = m
      · subst hc
        rw [if_pos rfl, front_append, ih, fill_marker]
      · rw [if_neg hc, front, ih, fill_copy k hc]

/-- Behind a beginning of the text the filling goes on with the next number. -/
theorem drop_fillGaps (m : α) (name : ℕ → List α) (k : ℕ) {s : List (Option α)} {t : List α} (h : t <+: front s) :
    (fillGaps m name k s).drop (fill m name k t).length = fillGaps m name (k + t.count m) (s.drop t.length) := by
  induction t generalizing k s with
  | nil => rfl
  | cons c t ih =>
    rcases s with _ | ⟨_ | c', s⟩
    · simp [front] at h
    · simp [front] at h
    · obtain ⟨rfl, ht⟩ := List.cons_prefix_cons.mp h
      rw [fillGaps]
      by_cases hc : c = m
      · subst hc
        rw [if_pos rfl, fill_marker, List.length_append, ← List.drop_drop, List.drop_left' (by simp), ih _ ht,
          List.count_cons_self, Nat.add_right_comm, Nat.add_assoc]
        rfl
      · rw [if_neg hc, fill_copy k hc, List.count_cons_of_ne hc]
        exact ih k ht

theorem fill_ne_nil (h : ∀ n, name n ≠ []) (k : ℕ) (c : α) (s : List α) : fill m name k (c :: s) ≠ [] := by
  by_cases hc : c = m
  · subst hc
    rw [fill_marker]
    exact List.append_ne_nil_of_left_ne_nil (h (k + 1)) _
  · rw [fill_copy k hc]
    exact List.cons_ne_nil c _

theorem takeWhile_fill (hn : Names T m name) (k : ℕ) (s : List α) :
    (fill m name k s).takeWhile T.part = fill m name k (s.takeWhile (T.withPlaceholder m).part) := by
  induction s generalizing k with
  | nil => rfl
  | cons c s ih =>
    by_cases hc : c = m
    · subst hc
      rw [fill_marker, List.takeWhile_append_of_pos (hn.part (k + 1)), ih,
        List.takeWhile_cons_of_pos (by simp [Lexicon.withPlaceholder]), fill_marker]
    · have hpart : (T.withPlaceholder m).part c = T.part c := by simp [Lexicon.withPlaceholder, hc]
      rw [fill_copy k hc, List.takeWhile_cons, List.takeWhile_cons, hpart]
      split
      · rw [ih, fill_copy k hc]
      · rfl

theorem literalLength_fill (hn : Names T m name) (k : ℕ) (s : List α) :
    T.literalLength (fill m name k s) = T.literalLength s := by
  by_cases hm : m ∈ s
  · obtain ⟨before, after, rfl, hbefore⟩ := List.eq_append_cons_of_mem hm
    obtain ⟨a, rest, hname, -, ha⟩ := hn.begins (k + before.count m + 1)
    rw [fill_append, fill_none k hbefore, fill_marker, hname, List.cons_append, T.literalLength_append ha,
      T.literalLength_append hn.literal]
  · rw [fill_none k hm]

theorem token_fill (hn : Names T m name) (k : ℕ) (s : List α) :
    T.token (fill m name k s) = fill m name k ((T.withPlaceholder m).token s) := by
  rcases s with _ | ⟨c, s⟩
  · rfl
  by_cases hc : c = m
  · subst hc
    obtain ⟨a, rest, hname, hstart, -⟩ := hn.begins (k + 1)
    have hrest (x : α) (hx : x ∈ rest) : T.part x = true := hn.part (k + 1) x (hname ▸ List.mem_cons_of_mem a hx)
    have htoken : (T.withPlaceholder c).token (c :: s) = c :: s.takeWhile (T.withPlaceholder c).part :=
      if_pos (by simp [Lexicon.withPlaceholder])
    rw [htoken, fill_marker, fill_marker, hname, List.cons_append, Lexicon.token, if_pos hstart,
      List.takeWhile_append_of_pos hrest, takeWhile_fill hn, List.cons_append]
  · have hstart : (T.withPlaceholder m).start c = T.start c := by simp [Lexicon.withPlaceholder, hc]
    rw [fill_copy k hc, Lexicon.token, Lexicon.token, hstart]
    split
    · rw [takeWhile_fill hn, fill_copy k hc]
    · have hliteral := literalLength_fill hn k (c :: s)
      rw [fill_copy k hc] at hliteral
      rw [hliteral]
      change _ = fill m name k ((c :: s).take (max 1 (T.literalLength (c :: s))))
      have hle : T.literalLength (c :: s) ≤ (c :: s).length := Nat.findGreatest_le _
      obtain ⟨n, hlength⟩ : ∃ n, max 1 (T.literalLength (c :: s)) = n := ⟨_, rfl⟩
      have hn' : n ≤ (c :: s).length := by
        rw [List.length_cons] at hle ⊢
        omega
      have hmarker : m ∉ (c :: s).take n := by
        by_cases hone : T.literalLength (c :: s) ≤ 1
        · rw [show n = 1 by omega]
          simpa using Ne.symm hc
        · rw [show n = T.literalLength (c :: s) by omega]
          exact hn.literal _ (T.literal_take (by omega))
      have hcut := fill_append m name k ((c :: s).take n) ((c :: s).drop n)
      rw [List.take_append_drop, fill_copy k hc, fill_none k hmarker] at hcut
      rw [hlength, hcut, fill_none k hmarker, List.take_left' (by rw [List.length_take, Nat.min_eq_left hn'])]

/-- The tokens of the filled text are the filled tokens of the text. -/
theorem tokens_fillGaps (hn : Names T m name) (k : ℕ) (s : List (Option α)) :
    T.tokens (fillGaps m name k s) = fillTokens m name k ((T.withPlaceholder m).tokens s) := by
  induction hlength : s.length using Nat.strongRecOn generalizing k s with
  | _ n ih =>
    rcases s with _ | ⟨_ | c, s⟩
    · rfl
    · exact ih s.length (by simp [← hlength]) k s rfl
    · have hfront : front (fillGaps m name k (some c :: s)) ≠ [] := by
        rw [front_fillGaps]
        exact fill_ne_nil hn.ne_nil k c (front s)
      have hpos := (T.withPlaceholder m).token_pos c (front s)
      have hbegins := (T.withPlaceholder m).prefix_token (c :: front s)
      rw [T.tokens_front hfront, front_fillGaps, front, token_fill hn, drop_fillGaps m name k hbegins,
        (T.withPlaceholder m).tokens_front (s := some c :: s) (List.cons_ne_nil c (front s)), fillTokens]
      refine congrArg (_ :: ·) (ih _ ?_ _ _ rfl)
      rw [List.length_drop, ← hlength, List.length_cons]
      omega

end Filling

end SqlxMssql.LongestMatch
