import SockShop.Lemmas.WebSocket

/-!
# What the WebSocket client reads

For every interleaving of the client, the server and the environment. A response that is not empty is the echo of the very send of
its iteration (`response_belongs`), so nothing that is under way on a connection the client has left, or for an earlier number, is
taken for it. But the client counts every return of `recv` as an answer, and `recv` returns the empty string for a close frame: no
number is skipped exactly in the runs that read no close frame (`noneSkipped_iff`).
-/

namespace SockShop.WebSocket

/-- Every response that is not empty, of an iteration that sent message number `k`, is "Echo: Hello, Server (Message k)", and the
message echoed is the copy handed over by the send of that iteration: not one of an earlier attempt, on whatever connection, and
not one of an earlier number. -/
theorem response_belongs (acts : List Act) (s : State) (h : system.exec acts = some s) :
    ∀ r ∈ s.responses, r.text ≠ "" →
      r.text = "Echo: Hello, Server (Message " ++ toString r.number ++ ")" ∧ r.origin = some r.attempt := by
  intro r hr hne
  rcases (inv_of_exec acts s h).sound r hr with ⟨he, -⟩ | ⟨htext, horigin⟩
  · exact absurd he hne
  · exact ⟨htext.trans (echoOf_message r.number), horigin⟩

/-- A run in which a connection is lost between the send and the receive: message 1 is sent again over a second connection, and the
server answers both copies. -/
def resent : List Act :=
  [.connects, .sends, .loses 0, .recvRaises, .connects, .sends, .takes 0, .echoes 0, .takes 1, .echoes 1, .receives]

/-- The same run, and message 2 answered over the second connection. -/
def resentAndNext : List Act := resent ++ [.sends, .takes 1, .echoes 1, .receives]

/-- `response_belongs`, where the first copy of a message is answered after the second was sent, and the next message after that. -/
theorem response_belongs_resent : ∃ s, system.exec resentAndNext = some s ∧
    s.responses = [⟨1, 1, "Echo: Hello, Server (Message 1)", some 1⟩, ⟨2, 2, "Echo: Hello, Server (Message 2)", some 2⟩] ∧
    ∀ r ∈ s.responses, r.text ≠ "" →
      r.text = "Echo: Hello, Server (Message " ++ toString r.number ++ ")" ∧ r.origin = some r.attempt :=
  ⟨_, rfl, by decide, response_belongs resentAndNext _ rfl⟩

/-- No message number below the counter is without its echo exactly when no receive of the run has read a close frame. (A `recv`
that raises leaves the counter where it is, at every point of the exchange.) -/
theorem noneSkipped_iff (acts : List Act) (s : State) (h : system.exec acts = some s) :
    NoneSkipped s ↔ Act.readsClose ∉ acts := by
  have hi := inv_of_exec acts s h
  rw [← empty_response_iff acts s h]
  constructor
  · -- the number of an empty response is the number of no other response
    rintro hall ⟨r, hr, he⟩
    have hmem : r.number ∈ List.range' 1 s.responses.length := hi.numbers ▸ List.mem_map_of_mem hr
    obtain ⟨h1, h2⟩ := List.mem_range'_1.1 hmem
    obtain ⟨r', hr', ht⟩ := List.mem_map.1 (hall r.number h1 (by rw [hi.count]; omega))
    have hne : r'.text ≠ "" := fun h0 => echoOf_ne_empty _ (ht.symm.trans h0)
    have hn : r'.number = r.number := echoOf_message_inj ((response_text_of_sound (hi.sound r' hr') hne).symm.trans ht)
    have hnodup : (s.responses.map (·.number)).Nodup := by
      rw [hi.numbers]
      exact List.nodup_range'
    rw [List.inj_on_of_nodup_map hnodup hr' hr hn] at hne
    exact hne he
  · intro hno k h1 hk
    have hmem : k ∈ s.responses.map (·.number) := by
      rw [hi.numbers, List.mem_range'_1]
      have := hi.count
      omega
    obtain ⟨r, hr, rfl⟩ := List.mem_map.1 hmem
    have hne : r.text ≠ "" := fun he => hno ⟨r, hr, he⟩
    exact List.mem_map.2 ⟨r, hr, response_text_of_sound (hi.sound r hr) hne⟩

/-- `noneSkipped_iff`, where a connection is lost and the message sent again. -/
theorem noneSkipped_resent : ∃ s, system.exec resent = some s ∧ (NoneSkipped s ↔ Act.readsClose ∉ resent) :=
  ⟨_, rfl, noneSkipped_iff resent _ rfl⟩

/-- A number is skipped: the server closes the connection after message 1 was sent over it, the client reads the close frame as a
response, and goes on to message 2 without an echo of message 1. -/
theorem number_skipped : ∃ s, system.exec [.connects, .sends, .closes 0, .readsClose] = some s ∧ s.messageCount = 2 ∧
    ¬NoneSkipped s := by
  refine ⟨_, rfl, rfl, ?_⟩
  intro h
  exact absurd (h 1 (by decide) (by decide)) (by decide)

end SockShop.WebSocket
