import Mathlib.Algebra.Order.Ring.Nat
import Mathlib.Data.List.Infix

/-!
# Prefixes within a budget

What a reader with a limit gets of a list whose elements have sizes: as many elements from the front as the limit allows, and the
first one in any case. `IsBatch` says so of a prefix; whether an element is in it is a matter of the size of all up to it
(`IsBatch.lt_length_iff`). `batch` computes it.
-/

namespace Budget

variable {α : Type} (size : α → Nat)

/-- The size of a list. -/
def total (xs : List α) : Nat := (xs.map size).sum

variable {size}

@[simp] theorem total_nil : total size [] = 0 := rfl

@[simp] theorem total_cons (x : α) (xs : List α) : total size (x :: xs) = size x + total size xs := by simp [total]

@[simp] theorem total_append (xs ys : List α) : total size (xs ++ ys) = total size xs + total size ys := by simp [total]

/-- The size of a list repeated. -/
theorem total_flatten_replicate (n : Nat) (xs : List α) : total size (List.replicate n xs).flatten = n * total size xs := by
  induction n with
  | zero => simp
  | succ n ih => rw [List.replicate_succ, List.flatten_cons, total_append, ih, Nat.succ_mul, Nat.add_comm]

/-- A prefix is not larger. -/
theorem total_le_of_isPrefix {xs ys : List α} (h : xs <+: ys) : total size xs ≤ total size ys := by
  obtain ⟨zs, rfl⟩ := h
  rw [total_append]
  exact Nat.le_add_right _ _

/-- Taking less is not larger. -/
theorem total_take_mono {m n : Nat} (h : m ≤ n) (xs : List α) : total size (xs.take m) ≤ total size (xs.take n) :=
  total_le_of_isPrefix (List.take_prefix_take_left h)

variable (size)

/-- `batch` is what a reader with limit `max` gets of `log`: a prefix within the limit, of one element at least, that leaves out
nothing the limit allows. -/
structure IsBatch (max : Nat) (log batch : List α) : Prop where
  isPrefix : batch <+: log
  ne_nil : log ≠ [] → batch ≠ []
  total_le : 1 < batch.length → total size batch ≤ max
  full : ∀ x rest, log = batch ++ x :: rest → batch ≠ [] → max < total size (batch ++ [x])

variable {size}

/-- An element is in the batch exactly when it is the first one or the size of all up to it is within the limit. -/
theorem IsBatch.lt_length_iff {max : Nat} {log batch : List α} (h : IsBatch size max log batch) (o : Nat) :
    o < batch.length ↔ o < log.length ∧ (o = 0 ∨ total size (log.take (o + 1)) ≤ max) := by
  obtain ⟨rest, rfl⟩ := h.isPrefix
  constructor
  · intro ho
    constructor
    · rw [List.length_append]
      exact Nat.lt_add_right _ ho
    · rcases Nat.eq_zero_or_pos o with h0 | hpos
      · exact Or.inl h0
      · right
        rw [List.take_append_of_le_length ho]
        exact Nat.le_trans (total_le_of_isPrefix (List.take_prefix _ _)) (h.total_le (Nat.lt_of_le_of_lt hpos ho))
  · rintro ⟨ho, hle⟩
    cases rest with
    | nil => rwa [List.append_nil] at ho
    | cons x rest =>
      have hne : batch ≠ [] := h.ne_nil (by simp)
      rcases hle with rfl | hle
      · exact List.length_pos_iff.2 hne
      · by_contra hge
        -- the first element left out is over the limit, and so is every later one
        have htake : total size (batch ++ [x]) ≤ total size ((batch ++ x :: rest).take (o + 1)) := by
          have hpre : (batch ++ x :: rest).take (batch.length + 1) = batch ++ [x] := by simp [List.take_append]
          rw [← hpre]
          exact total_take_mono (Nat.succ_le_succ (Nat.not_lt.1 hge)) _
        exact absurd (Nat.le_trans htake hle) (Nat.not_le.2 (h.full x rest rfl hne))

/-- A batch is as much of the list as it is long. -/
theorem IsBatch.eq_take {max : Nat} {log batch : List α} (h : IsBatch size max log batch) : batch = log.take batch.length :=
  List.prefix_iff_eq_take.1 h.isPrefix

/-! ## Computing a batch -/

variable (size)

/-- What still fits after `used`. -/
def fill (max : Nat) (used : Nat) : List α → List α
  | [] => []
  | x :: xs => if used + size x ≤ max then x :: fill max (used + size x) xs else []

/-- The first element, and what still fits after it. -/
def batch (max : Nat) : List α → List α
  | [] => []
  | x :: xs => x :: fill size max (size x) xs

variable {size}

theorem isPrefix_fill (max used : Nat) (xs : List α) : fill size max used xs <+: xs := by
  induction xs generalizing used with
  | nil => exact List.prefix_refl _
  | cons x xs ih =>
    rw [fill]
    split
    · exact (List.prefix_cons_inj x).2 (ih _)
    · exact List.nil_prefix

/-- What fits is within the limit. -/
theorem total_fill_le (max used : Nat) (xs : List α) (hne : fill size max used xs ≠ []) :
    used + total size (fill size max used xs) ≤ max := by
  induction xs generalizing used with
  | nil => exact absurd rfl hne
  | cons x xs ih =>
    by_cases hx : used + size x ≤ max
    · rw [fill, if_pos hx, total_cons, ← Nat.add_assoc]
      by_cases h : fill size max (used + size x) xs = []
      · rwa [h, total_nil, Nat.add_zero]
      · exact ih _ h
    · rw [fill, if_neg hx] at hne
      exact absurd rfl hne

/-- What is left out does not fit. -/
theorem fill_full (max used : Nat) (xs : List α) (y : α) (rest : List α) (h : xs = fill size max used xs ++ y :: rest) :
    max < used + total size (fill size max used xs ++ [y]) := by
  induction xs generalizing used with
  | nil => simp [fill] at h
  | cons x xs ih =>
    by_cases hx : used + size x ≤ max
    · rw [fill, if_pos hx, List.cons_append, List.cons.injEq] at h
      rw [fill, if_pos hx, List.cons_append, total_cons, ← Nat.add_assoc]
      exact ih _ h.2
    · rw [fill, if_neg hx, List.nil_append, List.cons.injEq] at h
      rw [fill, if_neg hx, List.nil_append, ← h.1, total_cons, total_nil, Nat.add_zero]
      exact Nat.not_le.1 hx

/-- `batch` computes what the reader gets. -/
theorem isBatch_batch (max : Nat) (log : List α) : IsBatch size max log (batch size max log) where
  isPrefix := by
    cases log with
    | nil => exact List.prefix_refl _
    | cons x xs => exact (List.prefix_cons_inj x).2 (isPrefix_fill max _ xs)
  ne_nil h := by
    cases log with
    | nil => exact absurd rfl h
    | cons x xs => exact List.cons_ne_nil _ _
  total_le h := by
    cases log with
    | nil => cases h
    | cons x xs =>
      rw [batch, List.length_cons, Nat.lt_add_left_iff_pos, List.length_pos_iff] at h
      rw [batch, total_cons]
      exact total_fill_le max _ xs h
  full y rest h hne := by
    cases log with
    | nil => exact absurd rfl hne
    | cons x xs =>
      rw [batch, List.cons_append, List.cons.injEq] at h
      rw [batch, List.cons_append, total_cons]
      exact fill_full max _ xs y rest h.2

end Budget
