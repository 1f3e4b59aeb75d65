import Mathlib.Tactic.ByContra

/-!
# Go channels

A channel of a Go program: a buffer of bounded capacity, the senders blocked because it is full, and whether the channel is closed.
`send` and `close` panic on a closed channel (none); `recv` blocks on an open channel with nothing to receive (none) and brings the
zero value, at once, from a closed one.

A channel is a first-in first-out queue, `contents`: what is buffered and then what the blocked senders hold. A send adds to its
end, a receive takes its head, and a close drops what the blocked senders hold (their sends panic). How many senders are blocked
is determined by the length of the queue (`waiting_eq`).
-/

/-- A channel of values of type `α`: the buffer and the values of the blocked senders, both oldest first. A sender is blocked only
on a full buffer and only while the channel is open. -/
structure GoChan (α : Type) where
  cap : Nat
  buf : List α
  waiting : List α
  closed : Bool
  buf_le : buf.length ≤ cap
  full_of_waiting : waiting ≠ [] → buf.length = cap
  open_of_waiting : closed = true → waiting = []

namespace GoChan

variable {α : Type}

/-- `make(chan α, cap)`. -/
def make (α : Type) (cap : Nat) : GoChan α :=
  ⟨cap, [], [], false, Nat.zero_le _, fun h => absurd rfl h, fun _ => rfl⟩

/-- What has been sent and not yet received, in the order of the sends. -/
def contents (c : GoChan α) : List α := c.buf ++ c.waiting

/-- `c <- v`: none when it panics. With the buffer full the sender stays blocked until a receive makes room. -/
def send (c : GoChan α) (v : α) : Option (GoChan α) :=
  if hc : c.closed = true then none
  else if hb : c.buf.length < c.cap then
    some { c with
      buf := c.buf ++ [v]
      buf_le := by simpa [Nat.succ_le_iff] using hb
      full_of_waiting := fun h => absurd (c.full_of_waiting h) (Nat.ne_of_lt hb)
      open_of_waiting := c.open_of_waiting }
  else
    some { c with
      waiting := c.waiting ++ [v]
      full_of_waiting := fun _ => Nat.le_antisymm c.buf_le (Nat.not_lt.1 hb)
      open_of_waiting := fun h => absurd h hc }

/-- `close(c)`: none when it panics. The blocked senders are dropped: their sends panic. -/
def close (c : GoChan α) : Option (GoChan α) :=
  if c.closed then none
  else some { c with closed := true, waiting := [], full_of_waiting := fun h => absurd rfl h, open_of_waiting := fun _ => rfl }

/-- `<-c`: a value that was sent, or none for the zero value of a closed channel; the whole is none when the receive blocks. A
receive from a full buffer lets the first blocked sender in. -/
def recv (c : GoChan α) : Option (Option α × GoChan α) :=
  match hb : c.buf, hw : c.waiting with
  | v :: rest, [] =>
    some (some v, { c with
      buf := rest
      buf_le := by have := c.buf_le; rw [hb] at this; exact Nat.le_of_succ_le this
      full_of_waiting := fun h => absurd hw h
      open_of_waiting := c.open_of_waiting })
  | v :: rest, w :: ws =>
    some (some v, { c with
      buf := rest ++ [w]
      waiting := ws
      buf_le := by have := c.buf_le; rw [hb] at this; simpa using this
      full_of_waiting := fun _ => by have := c.full_of_waiting (by simp [hw]); rw [hb] at this; simpa using this
      open_of_waiting := fun h => by have := c.open_of_waiting h; rw [hw] at this; cases this })
  | [], w :: ws =>
    some (some w, { c with
      waiting := ws
      full_of_waiting := fun _ => c.full_of_waiting (by simp [hw])
      open_of_waiting := fun h => by have := c.open_of_waiting h; rw [hw] at this; cases this })
  | [], [] => if c.closed then some (none, c) else none

/-! ## The channel as a queue -/

/-- The blocked senders are those beyond the capacity. -/
theorem waiting_eq (c : GoChan α) : c.waiting = c.contents.drop c.cap := by
  rw [contents, List.drop_append]
  by_cases h : c.waiting = []
  · simp [h, c.buf_le]
  · simp [c.full_of_waiting h]

/-- The buffer holds the rest. -/
theorem buf_eq (c : GoChan α) : c.buf = c.contents.take c.cap := by
  rw [contents, List.take_append]
  by_cases h : c.waiting = []
  · simp [h, List.take_of_length_le c.buf_le]
  · simp [c.full_of_waiting h, List.take_of_length_le c.buf_le]

/-- No sender is blocked exactly when what is unreceived fits the buffer. -/
theorem waiting_eq_nil_iff (c : GoChan α) : c.waiting = [] ↔ c.contents.length ≤ c.cap := by
  rw [waiting_eq, List.drop_eq_nil_iff]

/-- How much the buffer holds. -/
theorem length_buf (c : GoChan α) : c.buf.length = min c.cap c.contents.length := by
  rw [buf_eq, List.length_take]

/-- No more than what is unreceived. -/
theorem length_buf_le (c : GoChan α) : c.buf.length ≤ c.contents.length := by
  rw [length_buf]
  exact Nat.min_le_right _ _

/-- On a closed channel all that is unreceived is buffered. -/
theorem contents_of_closed {c : GoChan α} (h : c.closed = true) : c.contents = c.buf := by
  rw [contents, c.open_of_waiting h, List.append_nil]

@[simp] theorem closed_make (cap : Nat) : (make α cap).closed = false := rfl

/-- A send on a closed channel panics. -/
theorem send_closed {c : GoChan α} (h : c.closed = true) (v : α) : c.send v = none := dif_pos h

/-- A send on an open channel adds to the end of the queue. -/
theorem send_open {c : GoChan α} (h : c.closed = false) (v : α) :
    ∃ c', c.send v = some c' ∧ c'.contents = c.contents ++ [v] ∧ c'.closed = false ∧ c'.cap = c.cap := by
  have hc : ¬c.closed = true := by simp [h]
  by_cases hb : c.buf.length < c.cap
  · have hw : c.waiting = [] := by
      by_contra hne
      exact absurd (c.full_of_waiting hne) (Nat.ne_of_lt hb)
    exact ⟨_, (dif_neg hc).trans (dif_pos hb), by simp [contents, hw], h, rfl⟩
  · exact ⟨_, (dif_neg hc).trans (dif_neg hb), by simp [contents], h, rfl⟩

/-- Closing a closed channel panics. -/
theorem close_closed {c : GoChan α} (h : c.closed = true) : c.close = none := if_pos h

/-- Closing an open channel keeps what is buffered. -/
theorem close_open {c : GoChan α} (h : c.closed = false) :
    ∃ c', c.close = some c' ∧ c'.contents = c.buf ∧ c'.closed = true ∧ c'.cap = c.cap := by
  have hc : ¬c.closed = true := by simp [h]
  exact ⟨_, if_neg hc, by simp [contents], rfl, rfl⟩

/-- A receive takes the head of the queue, on an open channel and on a closed one. -/
theorem recv_cons {c : GoChan α} {v : α} {rest : List α} (h : c.contents = v :: rest) :
    ∃ c', c.recv = some (some v, c') ∧ c'.contents = rest ∧ c'.closed = c.closed ∧ c'.cap = c.cap := by
  unfold contents at h
  unfold recv
  split
  · rename_i hb hw
    rw [hb, hw] at h
    simp only [List.append_nil, List.cons.injEq] at h
    obtain ⟨rfl, rfl⟩ := h
    exact ⟨_, rfl, by simp [contents, hw], rfl, rfl⟩
  · rename_i hb hw
    rw [hb, hw] at h
    simp only [List.cons_append, List.cons.injEq] at h
    obtain ⟨rfl, rfl⟩ := h
    exact ⟨_, rfl, by simp [contents], rfl, rfl⟩
  · rename_i hb hw
    rw [hb, hw] at h
    simp only [List.nil_append, List.cons.injEq] at h
    obtain ⟨rfl, rfl⟩ := h
    exact ⟨_, rfl, by simp [contents, hb], rfl, rfl⟩
  · rename_i hb hw
    rw [hb, hw] at h
    cases h

/-- A receive with nothing in the queue blocks on an open channel and brings the zero value from a closed one. -/
theorem recv_nil {c : GoChan α} (h : c.contents = []) : c.recv = if c.closed then some (none, c) else none := by
  obtain ⟨hb, hw⟩ := List.append_eq_nil_iff.1 h
  unfold recv
  split <;> simp_all

end GoChan
