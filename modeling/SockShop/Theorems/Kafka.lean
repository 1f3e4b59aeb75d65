import SockShop.Lemmas.Kafka

/-!
# What the Kafka clients read of what they produce

For every broker whose batches leave out nothing that the limit allows, every log and number of cycles, and whatever other clients
append. `consume` reads one batch from the first offset, so a cycle reads a message of its own as long as the log up to it fits that
batch (`cycle_reads_iff`): for the loop on its own, up to the cycle whose number times the size of the three messages is 1MB
(`cycle_not_complete`). Whoever else appends, there is such a cycle in every run: the cycles that read all that they produced are the
first ones, and as many as fit one batch at most (`complete_first`).

What it prints for each message it reads is the whole buffer, which is the value only for a value of that length (`printsValues_iff`).
-/

namespace SockShop.Kafka

open Budget

/-- Each message that a cycle produced is read in that cycle exactly when it is within reach of the batch and the buffer. For the loop
on its own, on a log empty at the start, cycle number `n + 1` reads all that it produced exactly when what the first `n + 1` cycles
produced fits one batch. -/
theorem cycle_reads_iff (B : Broker) :
    (∀ initial others, ∀ c ∈ (run B initial others).cycles, ∀ i, i < produced.length →
      (run B initial others).log[c.first + i]? = produced[i]? ∧
        (c.Reads i ↔ InReach B (run B initial others).log (c.first + i))) ∧
    ∀ k n c, (run B [] (List.replicate k alone)).cycles[n]? = some c →
      (c.Complete ↔ (n + 1) * total B.size produced ≤ maxBytes) := by
  constructor
  · intro initial others c hc i hi
    have hof := cycle_of_run B initial others c hc
    exact ⟨getElem?_of_cycle hof hi, reads_iff_inReach hof hi⟩
  · intro k n c h
    exact complete_iff h

/-- In every run the cycles that read all that they produced are the first ones, and no more than fit one batch together, whatever
other clients append: from some cycle on, no cycle reads all that it produced. -/
theorem complete_first (B : Broker) (initial : List Message) (others : List Others) :
    ∃ k, k * total B.size produced ≤ maxBytes ∧
      ∀ n c, (run B initial others).cycles[n]? = some c → (c.Complete ↔ n < k) := by
  -- one more cycle is complete only where all before it are
  suffices h : ∃ k ≤ (run B initial others).cycles.length, k * total B.size produced ≤ maxBytes ∧
      ∀ n c, (run B initial others).cycles[n]? = some c → (c.Complete ↔ n < k) by
    obtain ⟨k, -, h⟩ := h
    exact ⟨k, h⟩
  induction others using List.reverseRecOn with
  | nil => exact ⟨0, Nat.le_refl 0, by simp, nofun⟩
  | append_singleton others o ih =>
    obtain ⟨k, hk, hsize, hfirst⟩ := ih
    rw [run_snoc]
    simp only [cycle, List.length_append, List.length_singleton]
    by_cases hc : (⟨((run B initial others).log ++ o.before).length,
        consume B ((run B initial others).log ++ o.before ++ produced ++ o.between)⟩ : Cycle).Complete
    · obtain ⟨hsize', hall⟩ := complete_of_complete_last rfl hc
      refine ⟨(run B initial others).cycles.length + 1, Nat.le_refl _, hsize', ?_⟩
      intro n c h
      rcases getElem?_snoc_cases h with ⟨hn, h⟩ | ⟨rfl, rfl⟩
      · exact iff_of_true (hall c (List.mem_of_getElem? h)) (Nat.lt_succ_of_lt hn)
      · exact iff_of_true (by simpa using hc) (Nat.lt_succ_self _)
    · refine ⟨k, Nat.le_succ_of_le hk, hsize, ?_⟩
      intro n c h
      rcases getElem?_snoc_cases h with ⟨-, h⟩ | ⟨rfl, rfl⟩
      · exact hfirst n c h
      · exact iff_of_false (by simpa using hc) (Nat.not_lt.2 hk)

/-- The values of the messages of a batch are what is printed for them if and only if each of them is as long as the buffer. -/
theorem printsValues_iff (batch : List Message) : PrintsValues batch ↔ ∀ m ∈ batch, m.value.length = minBytes := by
  have hlen : emptyBuffer.length = minBytes := List.length_replicate
  rw [PrintsValues, printed, map_printed_readLoop_iff, hlen]

/-- For the first message that `produce` writes, `consume` prints its four bytes and the rest of the buffer. -/
theorem produced_printed_padded :
    (printed produced)[0]? = some (bytes "one!" ++ List.replicate 9996 0) ∧ ¬PrintsValues produced := by
  constructor
  · have hread := read_emptyBuffer (m := ⟨bytes "key-one", bytes "one!", [⟨"hdr1", bytes "val1"⟩]⟩) (by decide)
    rw [printed, produced, readLoop, hread]
    rfl
  · intro h
    rw [PrintsValues, printed, map_printed_readLoop_iff, emptyBuffer, List.length_replicate] at h
    have hlen := h _ List.mem_cons_self
    revert hlen
    decide

/-- The bytes of the key, the value and the headers of a message. -/
def payload (m : Message) : Nat :=
  m.key.length + m.value.length + (m.headers.map fun h => h.key.length + h.value.length).sum

/-- A broker that counts these bytes and delivers all that fits. -/
def payloadBroker : Broker where
  size := payload
  readBatch _ maxBytes log := batch payload maxBytes log
  isBatch _ maxBytes log := isBatch_batch maxBytes log

/-- `cycle_reads_iff`, in the first cycle of the loop on its own, which reads all that it produced. -/
theorem cycle_reads_first : ∃ c ∈ (run payloadBroker [] [alone]).cycles, c.Reads 2 ∧
    (c.Reads 2 ↔ InReach payloadBroker (run payloadBroker [] [alone]).log (c.first + 2)) ∧
    (c.Complete ↔ (0 + 1) * total payloadBroker.size produced ≤ maxBytes) := by
  have hc : (run payloadBroker [] [alone]).cycles[0]? = some ⟨0, consume payloadBroker produced⟩ := rfl
  have hmem := List.mem_of_getElem? hc
  have hreads := ((cycle_reads_iff payloadBroker).1 [] [alone] _ hmem 2 (by decide)).2
  refine ⟨_, hmem, ?_, hreads, (cycle_reads_iff payloadBroker).2 1 0 _ hc⟩
  rw [hreads]
  exact ⟨Or.inr (by decide), by decide⟩

/-- With this broker a cycle produces 61 bytes, and cycle number 16394 of the loop on its own does not read all that it produced. -/
theorem cycle_not_complete : ∃ c, (run payloadBroker [] (List.replicate 16394 alone)).cycles[16393]? = some c ∧ ¬c.Complete := by
  have hsize : total payloadBroker.size produced = 61 := by decide
  have hlen : 16393 < (run payloadBroker [] (List.replicate 16394 alone)).cycles.length := by
    rw [run_alone, List.length_map, List.length_range]
    omega
  have hget := List.getElem?_eq_getElem hlen
  refine ⟨_, hget, ?_⟩
  intro hc
  have hle := (complete_iff hget).1 hc
  rw [hsize, maxBytes] at hle
  omega

end SockShop.Kafka
