import Mathlib.Data.List.Basic
import Mathlib.Tactic.Ring

/-! # Byte formats

Little-endian numbers, and readers that go through a byte string from a cursor on. What a
reader makes of written bytes is stated for every place in a larger string, so that the
facts about the parts of a format compose.
-/
namespace SqlxMssql.ByteFormats

/-- The lowest `k` bytes of a number, from the lowest on. -/
def leBytes : ℕ → ℕ → List UInt8
  | 0, _ => []
  | k + 1, n => UInt8.ofNat n :: leBytes k (n / 256)

def ofLeBytes : List UInt8 → ℕ
  | [] => 0
  | b :: bs => b.toNat + 256 * ofLeBytes bs

@[simp] theorem length_leBytes (k n : ℕ) : (leBytes k n).length = k := by
  induction k generalizing n with
  | zero => rfl
  | succ k ih => rw [leBytes, List.length_cons, ih]

theorem ofLeBytes_leBytes {k n : ℕ} (h : n < 256 ^ k) : ofLeBytes (leBytes k n) = n := by
  induction k generalizing n with
  | zero =>
    rw [Nat.pow_zero] at h
    exact (Nat.lt_one_iff.mp h).symm
  | succ k ih =>
    have hrest : n / 256 < 256 ^ k := by
      rw [Nat.pow_succ] at h
      exact Nat.div_lt_of_lt_mul (by rwa [Nat.mul_comm] at h)
    have hbyte : (UInt8.ofNat n).toNat = n % 256 := UInt8.toNat_ofNat'
    rw [leBytes, ofLeBytes, ih hrest, hbyte]
    exact Nat.mod_add_div n 256

theorem leBytes_injective {k m n : ℕ} (hm : m < 256 ^ k) (hn : n < 256 ^ k) (h : leBytes k m = leBytes k n) :
    m = n := by
  rw [← ofLeBytes_leBytes hm, h, ofLeBytes_leBytes hn]

/-- A place in a byte string, with what the reader has noted on its way there. -/
structure Cursor (κ : Type) where
  bytes : List UInt8
  position : ℕ
  notes : List κ
  deriving DecidableEq, Repr

def Cursor.start {κ : Type} (bytes : List UInt8) : Cursor κ := ⟨bytes, 0, []⟩

def Cursor.unread {κ : Type} (c : Cursor κ) : ℕ := c.bytes.length - c.position

def Reading (κ ε α : Type) := Cursor κ → Except ε α × Cursor κ

variable {κ ε α β : Type}

namespace Reading

instance : Monad (Reading κ ε) where
  pure a := fun c => (.ok a, c)
  bind m f := fun c =>
    match m c with
    | (.ok a, c) => f a c
    | (.error e, c) => (.error e, c)

def fail (e : ε) : Reading κ ε α := fun c => (.error e, c)

def note (see : Cursor κ → κ) : Reading κ ε Unit := fun c => (.ok (), { c with notes := c.notes ++ [see c] })

def times (m : Reading κ ε α) : ℕ → Reading κ ε (List α)
  | 0 => pure []
  | n + 1 => do
    let a ← m
    let as ← times m n
    return a :: as

theorem bind_ok {m : Reading κ ε α} {f : α → Reading κ ε β} {c d : Cursor κ} {a : α}
    (h : m c = (.ok a, d)) : (m >>= f) c = f a d := by
  change (match m c with
    | (.ok a, c) => f a c
    | (.error e, c) => (.error e, c)) = f a d
  rw [h]

theorem bind_error {m : Reading κ ε α} {f : α → Reading κ ε β} {c d : Cursor κ} {e : ε}
    (h : m c = (.error e, d)) : (m >>= f) c = (.error e, d) := by
  change (match m c with
    | (.ok a, c) => f a c
    | (.error e, c) => (.error e, c)) = (.error e, d)
  rw [h]

theorem map_bind (m : Reading κ ε α) (f : α → β) {γ : Type} (g : β → Reading κ ε γ) :
    (do g (← (do return f (← m)))) = (do g (f (← m))) := by
  funext c
  rcases hm : m c with ⟨result, d⟩
  cases result with
  | ok a =>
    have hmap : (do return f (← m) : Reading κ ε β) c = (.ok (f a), d) := bind_ok hm
    rw [bind_ok hmap, bind_ok hm]
  | error e =>
    have hmap : (do return f (← m) : Reading κ ε β) c = (.error e, d) := bind_error hm
    rw [bind_error hmap, bind_error hm]

theorem bind_eq_ok {m : Reading κ ε α} {f : α → Reading κ ε β} {c d : Cursor κ} {b : β}
    (h : (m >>= f) c = (.ok b, d)) : ∃ a e, m c = (.ok a, e) ∧ f a e = (.ok b, d) := by
  change (match m c with
    | (.ok a, c) => f a c
    | (.error e, c) => (.error e, c)) = (.ok b, d) at h
  rcases hm : m c with ⟨result, e⟩
  rw [hm] at h
  cases result with
  | ok a => exact ⟨a, e, rfl, h⟩
  | error e => cases h

theorem pure_eq_ok {a b : α} {c d : Cursor κ} (h : (pure a : Reading κ ε α) c = (.ok b, d)) : a = b ∧ c = d := by
  cases h
  exact ⟨rfl, rfl⟩

/-- Where the first reader makes a value, the second makes its image of the same bytes. -/
def Image (f : α → β) (m : Reading κ ε α) (n : Reading κ ε β) : Prop :=
  ∀ c a d, m c = (.ok a, d) → n c = (.ok (f a), d)

theorem image_times {f : α → β} {m : Reading κ ε α} {n : Reading κ ε β} (h : Image f m n) (count : ℕ) :
    Image (List.map f) (m.times count) (n.times count) := by
  induction count with
  | zero =>
    intro c as d hread
    obtain ⟨rfl, rfl⟩ := pure_eq_ok hread
    rfl
  | succ count ih =>
    intro c as d hread
    obtain ⟨a, e, ha, hread⟩ := bind_eq_ok hread
    obtain ⟨rest, e', hrest, hread⟩ := bind_eq_ok hread
    obtain ⟨rfl, rfl⟩ := pure_eq_ok hread
    rw [times, bind_ok (h c a e ha), bind_ok (ih e rest e' hrest)]
    rfl

end Reading

/-- Wherever the bytes stand in an addressable string, the reader makes the value of them
and goes on behind them. -/
def Reads (m : Reading κ ε α) (written : List UInt8) (a : α) : Prop :=
  ∀ before after notes, (before ++ (written ++ after)).length < 18446744073709551616 → ∃ notes',
    m ⟨before ++ (written ++ after), before.length, notes⟩ =
      (.ok a, ⟨before ++ (written ++ after), (before ++ written).length, notes'⟩)

namespace Reads

theorem pure (a : α) : Reads (pure a : Reading κ ε α) [] a := by
  intro before after notes _
  rw [List.append_nil]
  exact ⟨notes, rfl⟩

theorem note (see : Cursor κ → κ) : Reads (Reading.note see : Reading κ ε Unit) [] () := by
  intro before after notes _
  rw [List.append_nil]
  exact ⟨_, rfl⟩

theorem bind {m : Reading κ ε α} {f : α → Reading κ ε β} {written later : List UInt8} {a : α} {b : β}
    (hm : Reads m written a) (hf : Reads (f a) later b) : Reads (m >>= f) (written ++ later) b := by
  intro before after notes hlength
  rw [List.append_assoc] at hlength ⊢
  obtain ⟨notes', hrun⟩ := hm before (later ++ after) notes hlength
  rw [Reading.bind_ok hrun, ← List.append_assoc before written (later ++ after),
    ← List.append_assoc before written later]
  rw [← List.append_assoc] at hlength
  exact hf (before ++ written) after notes' hlength

theorem map {m : Reading κ ε α} {written : List UInt8} {a : α} (f : α → β) (hm : Reads m written a) :
    Reads (do return f (← m)) written (f a) := by
  have h : Reads (do return f (← m)) (written ++ []) (f a) := hm.bind (pure (f a))
  rwa [List.append_nil] at h

theorem times {m : Reading κ ε α} (write : α → List UInt8) {as : List α}
    (h : ∀ a ∈ as, Reads m (write a) a) : Reads (m.times as.length) (as.flatMap write) as := by
  induction as with
  | nil => exact pure []
  | cons a as ih =>
    rw [List.flatMap_cons]
    have hrest : Reads (m.times as.length) (as.flatMap write) as :=
      ih fun b hb => h b (List.mem_cons_of_mem a hb)
    exact (h a List.mem_cons_self).bind (hrest.map (a :: ·))

theorem run {m : Reading κ ε α} {written : List UInt8} {a : α} (h : Reads m written a)
    (hlength : written.length < 18446744073709551616) : (m (.start written)).1 = .ok a := by
  obtain ⟨notes, hrun⟩ := h [] [] [] (by rwa [List.nil_append, List.append_nil])
  rw [List.nil_append, List.append_nil] at hrun
  exact congrArg Prod.fst hrun

end Reads

/-- The reader goes on by so many bytes, or it fails where there are not as many; it notes
nothing on its way. -/
def FixedWidth (m : Reading κ ε α) (width : ℕ) : Prop :=
  ∀ c : Cursor κ, c.position ≤ c.bytes.length → c.position + width < 18446744073709551616 →
    if c.position + width ≤ c.bytes.length then ∃ a, m c = (.ok a, { c with position := c.position + width })
    else ∃ e d, m c = (.error e, d) ∧ d.notes = c.notes

namespace FixedWidth
variable {m : Reading κ ε α} {v w : ℕ}

theorem enough (h : FixedWidth m w) {c : Cursor κ} (hc : c.position + w < 18446744073709551616)
    (hle : c.position + w ≤ c.bytes.length) : ∃ a, m c = (.ok a, { c with position := c.position + w }) := by
  have hrun := h c (by omega) hc
  rwa [if_pos hle] at hrun

theorem short (h : FixedWidth m w) {c : Cursor κ} (hposition : c.position ≤ c.bytes.length)
    (hc : c.position + w < 18446744073709551616) (hlt : c.bytes.length < c.position + w) :
    ∃ e d, m c = (.error e, d) ∧ d.notes = c.notes := by
  have hrun := h c hposition hc
  rwa [if_neg (Nat.not_le.mpr hlt)] at hrun

theorem pure (a : α) : FixedWidth (pure a : Reading κ ε α) 0 := by
  intro c hposition _
  rw [Nat.add_zero, if_pos hposition]
  exact ⟨a, rfl⟩

theorem bind {f : α → Reading κ ε β} (h : FixedWidth m v) (hf : ∀ a, FixedWidth (f a) w) :
    FixedWidth (m >>= f) (v + w) := by
  intro c hposition hc
  by_cases hv : c.position + v ≤ c.bytes.length
  · obtain ⟨a, ha⟩ := h.enough (by omega) hv
    have hrest := hf a { c with position := c.position + v } hv (by dsimp only; omega)
    rw [Reading.bind_ok ha, ← Nat.add_assoc]
    exact hrest
  · obtain ⟨e, d, he, hd⟩ := h.short hposition (by omega) (Nat.not_le.mp hv)
    rw [if_neg (by omega)]
    exact ⟨e, d, Reading.bind_error he, hd⟩

theorem map (f : α → β) (h : FixedWidth m w) : FixedWidth (do return f (← m)) w :=
  h.bind fun a => pure (f a)

theorem times (h : FixedWidth m w) (n : ℕ) : FixedWidth (m.times n) (n * w) := by
  induction n with
  | zero =>
    rw [Nat.zero_mul]
    exact pure []
  | succ n ih =>
    rw [Nat.succ_mul, Nat.add_comm (n * w)]
    exact h.bind fun a => ih.map (a :: ·)

end FixedWidth

end SqlxMssql.ByteFormats
