import SockShop.Lemmas.SctpPair

/-!
# What becomes of the SCTP client and server

Nothing that the client sends ends the server: its messages are ASCII, so every chunk can be decoded however `recv` cuts them off, and
no byte of them is lost (`server_gets_through`). But the client never receives an answer, so the two cannot go on for ever: whatever the
limits of the connection are, each run comes, after boundedly many actions, to a state where the server waits to send an answer and the
client waits to send a message (`comes_to_deadlock`).
-/

namespace SockShop.SctpPair

open Sctp

section

variable (upLimit downLimit : Nat)

/-- In every run the server gets through with what it has received from the client, which is, with what is under way, all that the
client has sent, in order. -/
theorem server_gets_through (acts : List Act) (s : State) (h : (system upLimit downLimit).exec acts = some s) :
    s.raised = false ∧ s.client.Tolerated ∧ s.received ++ s.up = s.sent := by
  have hi := inv_of_exec acts s h
  refine ⟨hi.raised, ⟨?_, rfl⟩, hi.stream⟩
  intro turn hturn
  obtain ⟨chunk, hchunk, rfl⟩ := List.mem_map.1 hturn
  refine ⟨Ascii.isValidUTF8 ((ascii_sent s).mono ?_), rfl⟩
  rw [← hi.stream]
  intro b hb
  exact List.mem_append_left _ (List.mem_flatMap.2 ⟨chunk, hchunk, hb⟩)

/-- Apart from failed attempts to connect, a run takes no more actions than the limits allow; where no such action can be taken, each
party waits for the other to receive; and every run comes to that. -/
theorem comes_to_deadlock (hup : 0 < upLimit) (acts : List Act) (s : State)
    (h : (system upLimit downLimit).exec acts = some s) :
    progress acts ≤ mostActions upLimit downLimit ∧
      ((∀ a, a ≠ .connectFails → step upLimit downLimit s a = none) ↔ s.Deadlocked upLimit downLimit) ∧
      ∃ more s', (system upLimit downLimit).exec (acts ++ more) = some s' ∧ s'.Deadlocked upLimit downLimit := by
  refine ⟨progress_le h, stuck_iff hup (inv_of_exec acts s h), ?_⟩
  obtain ⟨more, s', -, hs', hrest⟩ := (system upLimit downLimit).comes_to_rest (· ≠ .connectFails) (fun _ => True) progress
    (mostActions upLimit downLimit) (fun acts a _ ha => ⟨trivial, by rw [progress_snoc, if_neg ha]⟩)
    (fun acts s h _ => progress_le h) acts s h trivial
  exact ⟨more, s', hs', (stuck_iff hup (inv_of_exec _ s' hs')).1 hrest⟩

end

/-- A run of two messages, the first of them received in two parts. -/
def parts : List Act := [.connects, .sends, .accepts, .receives 5, .sends, .replies, .receives 21]

/-- `server_gets_through`, in a run where a message is cut. -/
theorem server_gets_through_parts : ∃ s, (system 20 10).exec parts = some s ∧
    (s.raised = false ∧ s.client.Tolerated ∧ s.received ++ s.up = s.sent) :=
  ⟨_, rfl, server_gets_through 20 10 parts _ rfl⟩

/-- `comes_to_deadlock`, in the same run. -/
theorem comes_to_deadlock_parts : ∃ s, (system 20 10).exec parts = some s ∧
    (progress parts ≤ mostActions 20 10 ∧
      ((∀ a, a ≠ .connectFails → step 20 10 s a = none) ↔ s.Deadlocked 20 10) ∧
      ∃ more s', (system 20 10).exec (parts ++ more) = some s' ∧ s'.Deadlocked 20 10) :=
  ⟨_, rfl, comes_to_deadlock 20 10 (by decide) parts _ rfl⟩

end SockShop.SctpPair
