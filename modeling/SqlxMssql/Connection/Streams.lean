import SqlxMssql.Connection.EarlyStops
import Mathlib.Data.List.ReduceOption

/-! # What a stream of results delivers

A process that keeps to a script makes one step for each answer: a call, or an item that it
hands out. Where the answers end, it stops in the middle of the next step.
-/
namespace SqlxMssql
open Loops Utf8 Interaction ParamMarkers

variable {δ α β : Type}

/-- The items that a trace records. -/
def items (trace : List Happening) : List StreamItem :=
  trace.filterMap fun
    | .called _ _ => none
    | .yielded item => some item

theorem items_append (trace later : List Happening) : items (trace ++ later) = items trace ++ items later :=
  List.filterMap_append

theorem lead_le_length (es : List Event) : lead es ≤ es.length := (List.takeWhile_sublist _).length_le

theorem lead_drop {n : ℕ} {es : List Event} (h : n ≤ lead es) : lead (es.drop n) = lead es - n := by
  induction es generalizing n with
  | nil => simp [lead]
  | cons e es ih =>
    cases n with
    | zero => rfl
    | succ n =>
      by_cases he : e = .answered
      · rw [he, lead_answered] at h ⊢
        rw [List.drop_succ_cons, ih (by omega)]
        omega
      · have hzero : lead (e :: es) = 0 := lead_eq_zero fun hhead => he (Option.some.inj hhead)
        omega

theorem one_le_lead {es : List Event} (h : 1 ≤ lead es) : ∃ rest, es = .answered :: rest := by
  by_contra hne
  have hzero : lead es = 0 := lead_eq_zero fun hhead => hne ⟨es.tail, (List.cons_head?_tail hhead).symm⟩
  omega

section Scripts

/-- The items of a script. The steps without an item are calls. -/
abbrev Script := List (Option StreamItem)

/-- The process takes one answer for each step and hands out the items of the script. With
fewer answers it stops in the step behind the last one, which has handed out its item. -/
structure Plays (P : Session δ → Prop) (script : Script) (Q : α → Session δ → Prop) (m : Operation δ α) : Prop where
  completes {s : Session δ} {es : List Event} : P s → script.length ≤ lead es → ∃ a t,
    m s es = ⟨.returned a, t, es.drop script.length⟩ ∧ Q a t ∧
      items t.trace = items s.trace ++ script.reduceOption
  stops {s : Session δ} {es : List Event} : P s → lead es < script.length → ∃ exit t rest,
    m s es = ⟨exit, t, rest⟩ ∧ (∀ a, exit ≠ .returned a) ∧ (∀ a, exit ≠ .aborted a) ∧
      items t.trace = items s.trace ++ (script.take (lead es + 1)).reduceOption

namespace Plays
variable {P : Session δ → Prop}

theorem pure {Q : α → Session δ → Prop} {a : α} (h : ∀ s, P s → Q a s) : Plays P [] Q (pure a) where
  completes {s _} hs _ := ⟨a, s, rfl, h s hs, (List.append_nil _).symm⟩
  stops _ h := absurd h (Nat.not_lt_zero _)

/-- The process that follows a known value. -/
theorem of_value {script : Script} {Q : Session δ → Prop} {R : β → Session δ → Prop} {a : α}
    {f : α → Operation δ β} (h : Plays Q script R (f a)) (b : α) :
    Plays (fun s => b = a ∧ Q s) script R (f b) where
  completes hs := by
    obtain ⟨rfl, hs⟩ := hs
    exact h.completes hs
  stops hs := by
    obtain ⟨rfl, hs⟩ := hs
    exact h.stops hs

theorem bind {script later : Script} {Q : α → Session δ → Prop} {R : β → Session δ → Prop}
    {m : Operation δ α} {f : α → Operation δ β} (hm : Plays P script Q m)
    (hf : ∀ a, Plays (Q a) later R (f a)) : Plays P (script ++ later) R (m >>= f) where
  completes {s es} hs hlead := by
    rw [List.length_append] at hlead ⊢
    obtain ⟨a, t, hrun, ht, hitems⟩ := hm.completes hs (show script.length ≤ lead es by omega)
    have hdrop := lead_drop (show script.length ≤ lead es by omega)
    obtain ⟨b, u, hrun', hu, hitems'⟩ := (hf a).completes ht (show later.length ≤ lead (es.drop script.length) by omega)
    refine ⟨b, u, ?_, hu, ?_⟩
    · rw [Process.bind_run, hrun, Process.andThen_returned, hrun', List.drop_drop]
    · rw [hitems', hitems, List.reduceOption_append, List.append_assoc]
  stops {s es} hs hlead := by
    rw [List.length_append] at hlead
    by_cases hfirst : script.length ≤ lead es
    · obtain ⟨a, t, hrun, ht, hitems⟩ := hm.completes hs hfirst
      have hdrop := lead_drop hfirst
      obtain ⟨exit, u, rest, hrun', hreturned, haborted, hitems'⟩ :=
        (hf a).stops ht (show lead (es.drop script.length) < later.length by omega)
      refine ⟨exit, u, rest, ?_, hreturned, haborted, ?_⟩
      · rw [Process.bind_run, hrun, Process.andThen_returned, hrun']
      · have htake : lead es + 1 = script.length + (lead es - script.length + 1) := by omega
        rw [hitems', hitems, hdrop, htake, List.take_length_add_append, List.reduceOption_append,
          List.append_assoc]
    · obtain ⟨exit, t, rest, hrun, hreturned, haborted, hitems⟩ := hm.stops hs (show lead es < script.length by omega)
      rw [List.take_append_of_le_length (by omega)]
      rw [Process.bind_run, hrun]
      cases exit with
      | returned a => exact absurd rfl (hreturned a)
      | failed e => exact ⟨.failed e, t, rest, rfl, by simp, by simp, hitems⟩
      | dropped p => exact ⟨.dropped p, t, rest, rfl, by simp, by simp, hitems⟩
      | aborted a => exact absurd rfl (haborted a)

/-- What a loop does behind a turn. -/
def again (body : β → Operation δ (β ⊕ α)) : β ⊕ α → Operation δ α
  | .inl b => Process.loop body b
  | .inr a => Pure.pure a

theorem loop_run {script : Script} {Q : β ⊕ α → Session δ → Prop} {body : β → Operation δ (β ⊕ α)} {b : β}
    (hbody : Plays P script Q (body b)) (hturn : script ≠ [] ∨ ∀ b' t, ¬ Q (.inl b') t) {s : Session δ}
    (hs : P s) (es : List Event) : Process.loop body b s es = (body b >>= again body) s es := by
  rw [Process.loop_run, Process.bind_run]
  by_cases hlead : script.length ≤ lead es
  · obtain ⟨r, t, hrun, ht, -⟩ := hbody.completes hs hlead
    rw [hrun, Process.andThen_returned, Process.andThen_returned]
    cases r with
    | inl b' =>
      have hpos := List.length_pos_iff.mpr (hturn.resolve_right fun h => h b' t ht)
      have hes := lead_le_length es
      exact if_pos (by rw [List.length_drop]; omega)
    | inr a => rfl
  · obtain ⟨exit, t, rest, hrun, hreturned, -, -⟩ := hbody.stops hs (Nat.lt_of_not_le hlead)
    rw [hrun]
    cases exit with
    | returned r => exact absurd rfl (hreturned r)
    | failed e => rfl
    | dropped p => rfl
    | aborted a => rfl

/-- A turn that is not the last has to take an answer. -/
theorem loop {script later : Script} {Q : β ⊕ α → Session δ → Prop} {R : α → Session δ → Prop}
    {body : β → Operation δ (β ⊕ α)} {b : β} (hbody : Plays P script Q (body b))
    (hturn : script ≠ [] ∨ ∀ b' t, ¬ Q (.inl b') t) (hagain : ∀ r, Plays (Q r) later R (again body r)) :
    Plays P (script ++ later) R (Process.loop body b) where
  completes hs hlead := by
    rw [loop_run hbody hturn hs]
    exact (hbody.bind hagain).completes hs hlead
  stops hs hlead := by
    rw [loop_run hbody hturn hs]
    exact (hbody.bind hagain).stops hs hlead

theorem reading {c : ClientCall} {receive : TdsClient δ → α × TdsClient δ} {Q : α → Session δ → Prop}
    (engine : SqlEngine δ) (context : String)
    (h : ∀ s, P s → Q (receive s.client).1 (s.answer (TdsClient.reading c receive) s.client.server)) :
    Plays P [none] Q (call engine (TdsClient.reading c receive) context) where
  completes {s es} hs hlead := by
    obtain ⟨rest, rfl⟩ := one_le_lead hlead
    exact ⟨_, _, call_answered engine _ context s rest rfl, h s hs, items_append _ [_]⟩
  stops {s es} hs hlead := by
    rw [Nat.lt_one_iff.mp hlead]
    rcases es with _ | ⟨e, rest⟩
    · exact ⟨_, _, _, call_nil engine _ context s, by simp, by simp, items_append _ [_]⟩
    · cases e with
      | answered => simp at hlead
      | refused error applied =>
        exact ⟨_, _, _, call_refused engine _ context s rest error applied, by simp, by simp, items_append _ [_]⟩
      | cut applied =>
        exact ⟨_, _, _, call_cut engine _ context s rest applied, by simp, by simp, items_append _ [_]⟩

/-- The item is handed out whether the stream is polled on or not. -/
theorem yieldItem {Q : Unit → Session δ → Prop} (item : StreamItem)
    (h : ∀ s, P s → Q () (s.record (.yielded item))) : Plays P [some item] Q (yieldItem item) where
  completes {s es} hs hlead := by
    obtain ⟨rest, rfl⟩ := one_le_lead hlead
    exact ⟨(), _, rfl, h s hs, items_append _ [_]⟩
  stops {s es} hs hlead := by
    rw [Nat.lt_one_iff.mp hlead]
    rcases es with _ | ⟨e, rest⟩
    · exact ⟨.dropped .yielding, _, _, rfl, by simp, by simp, items_append _ [_]⟩
    · cases e with
      | answered => simp at hlead
      | refused error applied => exact ⟨.dropped .yielding, _, _, rfl, by simp, by simp, items_append _ [_]⟩
      | cut applied => exact ⟨.dropped .yielding, _, _, rfl, by simp, by simp, items_append _ [_]⟩

theorem get_bind {script : Script} {Q : α → Session δ → Prop} {f : Session δ → Operation δ α}
    (h : ∀ s, P s → Plays (· = s) script Q (f s)) : Plays P script Q (Process.get >>= f) where
  completes {s _} hs := (h s hs).completes rfl
  stops {s _} hs := (h s hs).stops rfl

theorem of_imp {P' : Session δ → Prop} {script : Script} {Q : α → Session δ → Prop} {m : Operation δ α}
    (h : ∀ s, P' s → P s) (hm : Plays P script Q m) : Plays P' script Q m where
  completes {s _} hs := hm.completes (h s hs)
  stops {s _} hs := hm.stops (h s hs)

end Plays

end Scripts

section Results
variable (engine : SqlEngine δ)

def resultColumns (metadata : List ColumnMetadata) : List MssqlColumn :=
  metadata.zipIdx.map fun (column, ordinal) =>
    ⟨ordinal, column.columnName, .fromColumnMetadata column, some column.isNullable⟩

def resultRow (metadata : List ColumnMetadata) (values : List ColumnValues) : StreamItem :=
  .row (resultColumns metadata) (rowValues metadata values)

/-- The rows of a result set in their order and a count of 0, or the count of affected rows. -/
def StatementReply.items : StatementReply → List StreamItem
  | .rows metadata values => values.map (resultRow metadata) ++ [.queryResult 0]
  | .noRows rowsAffected => [.queryResult (rowsAffected.getD 0)]

def rowsScript (metadata : List ColumnMetadata) : List (List ColumnValues) → Script
  | [] => [none]
  | values :: rows => none :: some (resultRow metadata values) :: rowsScript metadata rows

def StatementReply.script : StatementReply → Script
  | .rows metadata values => rowsScript metadata values ++ [some (.queryResult 0), none]
  | .noRows rowsAffected => [some (.queryResult (rowsAffected.getD 0)), none]

theorem Open.record {t : Session δ} {replies : List StatementReply} (ht : Open t replies) (h : Happening) :
    Open (t.record h) replies := ⟨ht.response, ht.unread, ht.reset⟩

/-- Where the cursor stands when so much is left of a response. -/
def resultOf : List StatementReply → StatementResult
  | [] => .done
  | .rows _ _ :: _ => .rows
  | .noRows n :: _ => .noRows n

theorem Open.boundary {t : Session δ} {replies : List StatementReply} (ht : Open t replies) :
    t.client.boundary = resultOf replies := by
  rw [TdsClient.boundary, ht.response]
  rcases replies with _ | ⟨_ | _, _⟩ <;> rfl

/-- What `fetch_many` does before its guard is there. -/
def executeStatement (sql : Text) (arguments : Except Text (Option (List SqlType))) :
    Operation δ StatementResult := do
  let arguments ← lift (.ok (arguments.mapError .encode))
  drainPending engine
  let request ← lift (buildRequest sql arguments)
  call engine
    (if request.params.isEmpty then TdsClient.execute engine request.sql
      else TdsClient.executeSpExecutesql engine request) "query failed"

theorem fetchMany_eq (sql : Text) (arguments : Except Text (Option (List SqlType))) :
    fetchMany engine sql arguments = executeStatement engine sql arguments >>= fetchResults engine := by
  simp only [fetchMany, executeStatement, Process.bind_assoc]

end Results

end SqlxMssql
