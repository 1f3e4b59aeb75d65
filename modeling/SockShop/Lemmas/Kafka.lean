import Mathlib.Data.List.Induction
import SockShop.Kafka

/-!
# What `consume` reads

What is printed for a message is the whole buffer (`map_printed_readLoop_iff`).

A message is read exactly when it is within reach of the single batch and the single buffer (`mem_consume_iff`), which depends only on
the log up to it. Since the log only grows, this is settled for the messages of a cycle when the cycle reads them
(`reads_iff_inReach`). For the loop on its own the log is the produced messages again and again, so whether a cycle is complete is
a matter of its number (`complete_iff`).
-/

namespace SockShop.Kafka

open Budget

/-! ## The read loop -/

/-- A read keeps the length of the buffer, and fails only for a value that is longer. -/
theorem read_eq_some {buffer buffer' : Bytes} {m : Message} (h : read buffer m = some buffer') :
    m.value.length ≤ buffer.length ∧ buffer'.length = buffer.length := by
  rw [read, Option.ite_none_right_eq_some, Option.some.injEq] at h
  obtain ⟨hle, rfl⟩ := h
  refine ⟨hle, ?_⟩
  rw [List.length_append, List.length_drop]
  omega

/-- A read fails for a value that is longer than the buffer. -/
theorem read_eq_none {buffer : Bytes} {m : Message} (h : read buffer m = none) : ¬m.value.length ≤ buffer.length := by
  intro hle
  rw [read, if_pos hle] at h
  cases h

/-- What the first read leaves in the buffer: the value, and zeros behind it. -/
theorem read_emptyBuffer {m : Message} (h : m.value.length ≤ minBytes) :
    read emptyBuffer m = some (m.value ++ List.replicate (minBytes - m.value.length) 0) := by
  rw [read, emptyBuffer, List.length_replicate, if_pos h, List.drop_replicate]

/-- The loop reads the messages up to the first value that is longer than the buffer. -/
theorem mem_readLoop_iff (ms : List Message) (k : Nat) (buffer : Bytes) (i : Nat) :
    k + i ∈ (readLoop k buffer ms).map (·.offset) ↔
      i < ms.length ∧ ∀ m ∈ ms.take (i + 1), m.value.length ≤ buffer.length := by
  induction ms generalizing k buffer i with
  | nil => simp [readLoop]
  | cons m rest ih =>
    rw [readLoop, List.take_succ_cons, List.forall_mem_cons]
    cases h : read buffer m with
    | none => simp [read_eq_none h]
    | some buffer' =>
      obtain ⟨hle, hlen⟩ := read_eq_some h
      rw [List.map_cons, List.mem_cons]
      cases i with
      | zero => simp [hle]
      | succ i =>
        have hne : ¬k + (i + 1) = k := by omega
        have hk : k + (i + 1) = k + 1 + i := by omega
        rw [or_iff_right hne, hk, ih, hlen, List.length_cons, Nat.succ_lt_succ_iff, and_iff_right hle]

/-- What is printed for a message is as long as the buffer, so it is the value only for a value of that length. -/
theorem map_printed_readLoop_iff (ms : List Message) (k : Nat) (buffer : Bytes) :
    (readLoop k buffer ms).map (·.printed) = ms.map (·.value) ↔ ∀ m ∈ ms, m.value.length = buffer.length := by
  induction ms generalizing k buffer with
  | nil => simp [readLoop]
  | cons m rest ih =>
    rw [readLoop, List.map_cons, List.forall_mem_cons]
    cases h : read buffer m with
    | none =>
      have hne : m.value.length ≠ buffer.length := fun he => read_eq_none h (Nat.le_of_eq he)
      exact iff_of_false nofun fun hall => hne hall.1
    | some buffer' =>
      obtain ⟨hle, hlen⟩ := read_eq_some h
      rw [read, if_pos hle, Option.some.injEq] at h
      rw [List.map_cons, List.cons.injEq, ih, hlen]
      refine and_congr_left fun _ => ⟨fun he => ?_, fun he => ?_⟩
      · rw [← he, hlen]
      -- nothing of the old buffer is left behind the value
      · rw [← h, he, List.drop_length, List.append_nil]

/-- The messages that `consume` reads. -/
theorem mem_consume_iff (B : Broker) (log : List Message) (o : Nat) :
    o ∈ (consume B log).map (·.offset) ↔ o < log.length ∧ InReach B log o := by
  have hb := B.isBatch minBytes maxBytes log
  have hbuf : emptyBuffer.length = minBytes := List.length_replicate
  have htake : o < (B.readBatch minBytes maxBytes log).length →
      (B.readBatch minBytes maxBytes log).take (o + 1) = log.take (o + 1) := by
    intro ho
    rw [hb.eq_take, List.take_take, Nat.min_eq_left ho]
  have hread := mem_readLoop_iff (B.readBatch minBytes maxBytes log) 0 emptyBuffer o
  rw [Nat.zero_add, hbuf] at hread
  rw [consume, hread, InReach]
  constructor
  · rintro ⟨ho, hv⟩
    obtain ⟨hlt, hs⟩ := (hb.lt_length_iff o).1 ho
    exact ⟨hlt, hs, htake ho ▸ hv⟩
  · rintro ⟨ho, hs, hv⟩
    have hlt := (hb.lt_length_iff o).2 ⟨ho, hs⟩
    exact ⟨hlt, (htake hlt).symm ▸ hv⟩

/-- Being within reach is settled once the message is in the log. -/
theorem inReach_of_isPrefix {B : Broker} {log log' : List Message} (h : log <+: log') {o : Nat} (ho : o < log.length) :
    InReach B log' o ↔ InReach B log o := by
  obtain ⟨rest, rfl⟩ := h
  rw [InReach, List.take_append_of_le_length ho, InReach]

/-! ## A run -/

section Run

variable (B : Broker) (initial : List Message)

/-- A run of one more cycle. -/
theorem run_snoc (others : List Others) (o : Others) : run B initial (others ++ [o]) = cycle B (run B initial others) o := by
  rw [run, List.foldl_append]
  rfl

/-- A cycle of a run with this log: it read the log as it was once the cycle had produced its messages. -/
def Cycle.Of (log : List Message) (c : Cycle) : Prop :=
  ∃ l, l <+: log ∧ c.first + produced.length ≤ l.length ∧ (l.drop c.first).take produced.length = produced ∧
    c.readings = consume B l

/-- Every cycle of a run is one of its log. -/
theorem cycle_of_run (others : List Others) : ∀ c ∈ (run B initial others).cycles, c.Of B (run B initial others).log := by
  induction others using List.reverseRecOn with
  | nil =>
    intro c hc
    cases hc
  | append_singleton others o ih =>
    intro c hc
    rw [run_snoc] at hc ⊢
    rcases List.mem_append.1 hc with hc | hc
    · obtain ⟨l, hl, hrest⟩ := ih c hc
      have hgrows : (run B initial others).log <+: (cycle B (run B initial others) o).log := by
        simp only [cycle, List.append_assoc]
        exact List.prefix_append _ _
      exact ⟨l, hl.trans hgrows, hrest⟩
    · obtain rfl := List.mem_singleton.1 hc
      refine ⟨_, List.prefix_refl _, ?_, ?_, rfl⟩
      · simp only [cycle, List.length_append]
        omega
      · dsimp only [cycle]
        rw [List.append_assoc (_ ++ _) produced, List.drop_left, List.take_left]

variable {B initial}

/-- The messages of a cycle are in the log where it produced them. -/
theorem getElem?_of_cycle {log : List Message} {c : Cycle} (hc : c.Of B log) {i : Nat} (hi : i < produced.length) :
    log[c.first + i]? = produced[i]? := by
  obtain ⟨l, ⟨rest, rfl⟩, hlen, hp, -⟩ := hc
  have hl : c.first + i < l.length := by omega
  have hget : ((l.drop c.first).take produced.length)[i]? = l[c.first + i]? := by
    rw [List.getElem?_take_of_lt hi, List.getElem?_drop]
  rw [List.getElem?_append_left hl, ← hget, hp]

/-- A cycle reads a message of its own exactly when it is within reach. -/
theorem reads_iff_inReach {log : List Message} {c : Cycle} (hc : c.Of B log) {i : Nat} (hi : i < produced.length) :
    c.Reads i ↔ InReach B log (c.first + i) := by
  obtain ⟨l, hl, hlen, -, hr⟩ := hc
  have hlt : c.first + i < l.length := by omega
  rw [Cycle.Reads, hr, mem_consume_iff, inReach_of_isPrefix hl hlt]
  exact and_iff_right hlt

/-- What comes before a message within reach is within reach. -/
theorem InReach.of_le {log : List Message} {o o' : Nat} (h : InReach B log o) (hle : o' ≤ o) : InReach B log o' := by
  have htake : log.take (o' + 1) <+: log.take (o + 1) := List.take_prefix_take_left (Nat.succ_le_succ hle)
  constructor
  · rcases h.1 with rfl | htotal
    · exact Or.inl (Nat.le_zero.1 hle)
    · exact Or.inr (Nat.le_trans (total_le_of_isPrefix htake) htotal)
  · exact fun m hm => h.2 m (htake.subset hm)

/-- The produced messages of all cycles are in the log. -/
theorem total_log_ge (others : List Others) :
    (run B initial others).cycles.length * total B.size produced ≤ total B.size (run B initial others).log := by
  induction others using List.reverseRecOn with
  | nil => exact Nat.le_trans (Nat.le_of_eq (Nat.zero_mul _)) (Nat.zero_le _)
  | append_singleton others o ih =>
    rw [run_snoc]
    simp only [cycle, List.length_append, List.length_singleton, Nat.succ_mul, total_append]
    omega

/-- What is in a list with one more at its end. -/
theorem getElem?_snoc_cases {α : Type} {xs : List α} {last x : α} {n : Nat} (h : (xs ++ [last])[n]? = some x) :
    (n < xs.length ∧ xs[n]? = some x) ∨ (n = xs.length ∧ x = last) := by
  rw [List.getElem?_append] at h
  split at h
  · rename_i hn
    exact Or.inl ⟨hn, h⟩
  · obtain ⟨hn, hlast⟩ := List.getElem?_eq_some_iff.1 h
    rw [List.length_singleton] at hn
    rw [List.getElem_singleton] at hlast
    exact Or.inr ⟨by omega, hlast.symm⟩

/-- One more cycle is complete only if all messages up to its last one fit one batch, and then all cycles before it are. -/
theorem complete_of_complete_last {others : List Others} {o : Others} {log : List Message}
    (hlog : log = (run B initial others).log ++ o.before ++ produced ++ o.between)
    (hc : (⟨((run B initial others).log ++ o.before).length, consume B log⟩ : Cycle).Complete) :
    ((run B initial others).cycles.length + 1) * total B.size produced ≤ maxBytes ∧
      ∀ c' ∈ (run B initial others).cycles, c'.Complete := by
  have hprefix : (run B initial others).log <+: log := by
    rw [hlog, List.append_assoc, List.append_assoc]
    exact List.prefix_append _ _
  have hreach : InReach B log (((run B initial others).log ++ o.before).length + 2) :=
    ((mem_consume_iff B log _).1 (hc 2 (by decide))).2
  constructor
  · have htotal := hreach.1.resolve_left (Nat.succ_ne_zero _)
    have hlength : ((run B initial others).log ++ o.before ++ produced).length =
        ((run B initial others).log ++ o.before).length + 2 + 1 := List.length_append
    have htake : log.take (((run B initial others).log ++ o.before).length + 2 + 1) =
        (run B initial others).log ++ o.before ++ produced := by
      rw [hlog]
      exact List.take_left' hlength
    rw [htake, total_append, total_append] at htotal
    have hge : (run B initial others).cycles.length * total B.size produced ≤ total B.size (run B initial others).log :=
      total_log_ge others
    rw [Nat.succ_mul]
    omega
  · intro c' hc' i hi
    have hof := cycle_of_run B initial others c' hc'
    have hlt : c'.first + i < (run B initial others).log.length := by
      obtain ⟨l, hl, hlen, -, -⟩ := hof
      have hle := hl.length_le
      omega
    rw [reads_iff_inReach hof hi, ← inReach_of_isPrefix hprefix hlt]
    refine hreach.of_le ?_
    rw [List.length_append]
    omega

end Run

/-! ## The loop on its own -/

/-- No value that is produced is longer than the buffer. -/
theorem produced_value_le : ∀ m ∈ produced, m.value.length ≤ minBytes := by decide

/-- The log of the loop on its own, and its cycles. -/
theorem run_alone (B : Broker) (k : Nat) :
    run B [] (List.replicate k alone) =
      { log := (List.replicate k produced).flatten
        cycles := (List.range k).map fun n =>
          ⟨n * produced.length, consume B (List.replicate (n + 1) produced).flatten⟩ } := by
  induction k with
  | zero => rfl
  | succ k ih =>
    rw [List.replicate_succ', run_snoc, ih, List.range_succ, List.map_append, List.map_singleton]
    simp [cycle, alone, List.replicate_succ']

/-- A cycle of the loop on its own is complete exactly when all that was produced up to it fits one batch. -/
theorem complete_iff {B : Broker} {k n : Nat} {c : Cycle} (h : (run B [] (List.replicate k alone)).cycles[n]? = some c) :
    c.Complete ↔ (n + 1) * total B.size produced ≤ maxBytes := by
  rw [run_alone, List.getElem?_map, Option.map_eq_some_iff] at h
  obtain ⟨n', hn, rfl⟩ := h
  obtain ⟨hlt, rfl⟩ := List.getElem?_eq_some_iff.1 hn
  rw [List.getElem_range]
  generalize hl : (List.replicate (n + 1) produced).flatten = log
  have hlen : log.length = n * produced.length + produced.length := by
    rw [← hl, List.length_flatten, List.map_replicate, List.sum_replicate_nat, Nat.succ_mul]
  have htotal : total B.size log = (n + 1) * total B.size produced := by rw [← hl, total_flatten_replicate]
  have hvalue : ∀ m ∈ log, m.value.length ≤ minBytes := by
    intro m hm
    rw [← hl] at hm
    obtain ⟨ms, hms, hm⟩ := List.mem_flatten.1 hm
    rw [List.eq_of_mem_replicate hms] at hm
    exact produced_value_le m hm
  have hreads : ∀ i, i < produced.length →
      ((⟨n * produced.length, consume B log⟩ : Cycle).Reads i ↔ InReach B log (n * produced.length + i)) := by
    intro i hi
    have hi' : n * produced.length + i < log.length := by omega
    rw [Cycle.Reads, mem_consume_iff]
    exact and_iff_right hi'
  rw [← htotal]
  constructor
  · -- the last message of the cycle is the last of the log
    intro hc
    have hlast : 2 < produced.length := by decide
    have hfull : log.take (n * produced.length + 2 + 1) = log := List.take_of_length_le (by rw [hlen]; exact Nat.le_refl _)
    have hreach := ((hreads 2 hlast).1 (hc 2 hlast)).1
    rw [hfull] at hreach
    exact hreach.resolve_left (by omega)
  · intro hle i hi
    rw [hreads i hi]
    constructor
    · exact Or.inr (Nat.le_trans (total_le_of_isPrefix (List.take_prefix _ log)) hle)
    · intro m hm
      exact hvalue m (List.mem_of_mem_take hm)

end SockShop.Kafka
