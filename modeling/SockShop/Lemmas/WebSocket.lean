import Mathlib
import SockShop.WebSocket

/-!
# What a connection may still bring the client

`pending k` lists the texts that connection `k` may still bring the client, in the order they would arrive: those under way to it
and, unless the server has closed the connection, the echoes of what the server has still to answer. The server only moves along
this list or cuts it short (`connStep_keeps`), and the client adds one text to it with each send. So the list holds at most the
answer to the message just sent (`Awaiting`), whatever is under way on the connections the client has left: this is the heart of the
invariant `Inv`, which holds in every state of every run (`inv_of_exec`).
-/

namespace SockShop.WebSocket

/-- One action that the system can take, by who takes it. -/
inductive Moves (s : State) : Act → State → Prop where
  | server {a : Act} (c : Nat) (k : Conn) (ha : a ≠ .readsClose) (hk : connStep (s.conns c) a = some k) :
      Moves s a (s.setConn c k)
  | connectRaises (hpc : s.pc = .connecting) : Moves s .connectRaises s
  | connects (hpc : s.pc = .connecting) :
      Moves s .connects { s.setConn s.opened Conn.fresh with ws := s.opened, opened := s.opened + 1, pc := .sending }
  | sends (hpc : s.pc = .sending) :
      Moves s .sends { s.setConn s.ws (s.conn.hand ⟨message s.messageCount, s.sends⟩) with
        sends := s.sends + 1, pc := .receiving s.messageCount s.sends }
  | reconnects {a : Act} (ha : a ≠ .readsClose) : Moves s a s.reconnect
  | receives {number attempt : Nat} {m : Msg} {rest : List Frame} (hpc : s.pc = .receiving number attempt)
      (hc : s.conn.toClient = .data m :: rest) :
      Moves s .receives ((s.setConn s.ws { s.conn with toClient := rest }).respond number attempt m.text (some m.attempt))
  | readsClose {number attempt : Nat} {rest : List Frame} (hpc : s.pc = .receiving number attempt)
      (hc : s.conn.toClient = .close :: rest) :
      Moves s .readsClose ((s.setConn s.ws { s.conn with toClient := rest }).respond number attempt "" none)

/-- A server action taken by the system is one of its connection. -/
theorem moves_server {s s' : State} {a : Act} {c : Nat} (ha : a ≠ .readsClose)
    (h : (if c < s.opened then (connStep (s.conns c) a).map (s.setConn c) else none) = some s') : Moves s a s' := by
  split at h
  · obtain ⟨k, hk, rfl⟩ := Option.map_eq_some_iff.1 h
    exact .server c k ha hk
  · cases h

/-- Every step of the system is one of these moves. -/
theorem moves_of_step {s s' : State} {a : Act} (h : step s a = some s') : Moves s a s' := by
  cases a with
  | takes c => exact moves_server (by simp) h
  | echoes c => exact moves_server (by simp) h
  | closes c => exact moves_server (by simp) h
  | loses c => exact moves_server (by simp) h
  | connectRaises =>
    simp only [step, clientStep, Option.ite_none_right_eq_some, Option.some.injEq] at h
    obtain ⟨hpc, rfl⟩ := h
    exact .connectRaises hpc
  | connects =>
    simp only [step, clientStep, Option.ite_none_right_eq_some, Option.some.injEq] at h
    obtain ⟨hpc, rfl⟩ := h
    exact .connects hpc
  | sends =>
    simp only [step, clientStep, Option.ite_none_right_eq_some, Option.some.injEq] at h
    obtain ⟨hpc, rfl⟩ := h
    exact .sends hpc
  | sendRaises =>
    simp only [step, clientStep, Option.ite_none_right_eq_some, Option.some.injEq] at h
    obtain ⟨-, rfl⟩ := h
    exact .reconnects (by simp)
  | receives =>
    simp only [step, clientStep] at h
    split at h
    · rename_i hpc hc
      cases h
      exact .receives hpc hc
    · cases h
  | readsClose =>
    simp only [step, clientStep] at h
    split at h
    · rename_i hpc hc
      cases h
      exact .readsClose hpc hc
    · cases h
  | recvRaises =>
    simp only [step, clientStep] at h
    split at h
    · simp only [Option.ite_none_right_eq_some, Option.some.injEq] at h
      obtain ⟨-, rfl⟩ := h
      exact .reconnects (by simp)
    · cases h

/-! ## Channels -/

/-- The text messages of a channel. -/
def texts : List Frame → List Msg
  | [] => []
  | .data m :: frames => m :: texts frames
  | .close :: frames => texts frames

@[simp] theorem texts_append (fs gs : List Frame) : texts (fs ++ gs) = texts fs ++ texts gs := by
  induction fs with
  | nil => rfl
  | cons f fs ih => cases f <;> simp [texts, ih]

/-- The channel to the client holds text messages and, once the server has closed the connection, at most one close frame, after
all of them. -/
def Ordered (k : Conn) : Prop :=
  ∃ ms : List Msg, k.toClient = ms.map .data ∨ (k.closing = true ∧ k.toClient = ms.map .data ++ [.close])

/-- On a connection that the server has not closed, only text messages are under way to the client. -/
theorem Ordered.of_open {k : Conn} (h : Ordered k) (hc : k.closing = false) : ∃ ms : List Msg, k.toClient = ms.map .data := by
  obtain ⟨ms, hm | ⟨ht, -⟩⟩ := h
  · exact ⟨ms, hm⟩
  · rw [hc] at ht
    cases ht

/-- A close frame at the head of the channel to the client is the last frame of it, on a connection the server has closed. -/
theorem Ordered.of_close {k : Conn} {rest : List Frame} (h : Ordered k) (hc : k.toClient = .close :: rest) :
    k.closing = true ∧ rest = [] := by
  obtain ⟨ms, hm | ⟨ht, hm⟩⟩ := h
  · rw [hc] at hm
    cases ms with
    | nil => cases hm
    | cons m ms => cases hm
  · rw [hc] at hm
    cases ms with
    | nil => exact ⟨ht, (List.cons.inj hm).2⟩
    | cons m ms => cases hm

/-- Taking a text message off the channel keeps it ordered. -/
theorem Ordered.tail {k : Conn} {m : Msg} {rest : List Frame} (h : Ordered k) (hc : k.toClient = .data m :: rest) :
    Ordered { k with toClient := rest } := by
  obtain ⟨ms, hm | ⟨ht, hm⟩⟩ := h
  · rw [hc] at hm
    cases ms with
    | nil => cases hm
    | cons m' ms => exact ⟨ms, Or.inl (List.cons.inj hm).2⟩
  · rw [hc] at hm
    cases ms with
    | nil => cases hm
    | cons m' ms => exact ⟨ms, Or.inr ⟨ht, (List.cons.inj hm).2⟩⟩

/-! ## What is pending -/

/-- The echo of a message, which goes back to the same send. -/
def echoed (m : Msg) : Msg := ⟨echoOf m.text, m.attempt⟩

/-- The message a coroutine has taken and not yet answered. -/
def Handler.taken : Handler → List Msg
  | .echoing m => [m]
  | _ => []

/-- What a connection may still bring the client, in the order of arrival. -/
def pending (k : Conn) : List Msg :=
  texts k.toClient ++ if k.closing then [] else (k.handler.taken ++ texts k.toServer).map echoed

/-- A connection just opened has nothing pending. -/
@[simp] theorem pending_fresh : pending Conn.fresh = [] := rfl

/-- A connection that the server has closed brings what is under way and nothing more. -/
theorem pending_of_closing {k : Conn} (h : k.closing = true) : pending k = texts k.toClient := by simp [pending, h]

/-- A message handed to a connection adds its echo to what is pending, at the end, or nothing if the server has closed the
connection. -/
theorem pending_hand (k : Conn) (m : Msg) : pending (k.hand m) = pending k ++ if k.closing then [] else [echoed m] := by
  cases h : k.closing <;> simp [pending, Conn.hand, h, texts]

/-- A close frame of the server keeps the channel ordered and cuts what is pending. -/
theorem serverClose_keeps {k : Conn} (h : Ordered k) :
    Ordered k.serverClose ∧ k.serverClose.closing = true ∧ pending k.serverClose <+: pending k := by
  unfold Conn.serverClose
  cases hc : k.closing with
  | true => exact ⟨h, hc, List.prefix_refl _⟩
  | false =>
    obtain ⟨ms, hm⟩ := h.of_open hc
    exact ⟨⟨ms, Or.inr ⟨rfl, by simp [hm]⟩⟩, rfl, by simp [pending, texts]⟩

/-- The coroutine's `async for` keeps the channel ordered; it moves along what is pending or, at a close frame of the client, cuts
it. -/
theorem take_keeps {k k' : Conn} (h : Ordered k) (hk : k.take = some k') : Ordered k' ∧ pending k' <+: pending k := by
  unfold Conn.take at hk
  split at hk
  · rename_i m rest hh hs
    split at hk
    · cases hk
    · rename_i hc
      cases hk
      exact ⟨h, by simp [pending, hc, hh, hs, texts, Handler.taken]⟩
  · rename_i rest _ _
    cases hk
    obtain ⟨ho, hc, hp⟩ := serverClose_keeps h
    have he : pending { k.serverClose with toServer := rest, handler := .ended } = pending k.serverClose := by
      rw [pending_of_closing hc]
      exact pending_of_closing hc
    exact ⟨ho, he ▸ hp⟩
  · cases hk

/-- The coroutine's `send` keeps the channel ordered and what is pending as it is. -/
theorem echo_keeps {k k' : Conn} (h : Ordered k) (hk : k.echo = some k') : Ordered k' ∧ pending k' <+: pending k := by
  unfold Conn.echo at hk
  split at hk
  · rename_i m hh
    split at hk
    · rename_i hc
      cases hk
      exact ⟨h, by simp [pending, hc]⟩
    · rename_i hc
      cases hk
      obtain ⟨ms, hm⟩ := h.of_open (Bool.eq_false_iff.2 hc)
      exact ⟨⟨ms ++ [echoed m], Or.inl (by simp [hm, echoed])⟩, by simp [pending, hc, hh, texts, Handler.taken, echoed]⟩
  · cases hk

/-- Every action of the server and the environment on a connection keeps its channel ordered and brings the client nothing new. -/
theorem connStep_keeps {k k' : Conn} {a : Act} (h : Ordered k) (hk : connStep k a = some k') :
    Ordered k' ∧ pending k' <+: pending k := by
  unfold connStep at hk
  split at hk
  · exact take_keeps h hk
  · exact echo_keeps h hk
  · cases hk
    obtain ⟨ho, -, hp⟩ := serverClose_keeps h
    exact ⟨ho, hp⟩
  · cases hk
    exact ⟨h, List.prefix_refl _⟩
  · cases hk

/-! ## The invariant -/

/-- What may be pending on the client's connection where the client stands: nothing at the top of the loop, and at most the answer
to the message just sent at the `recv`. -/
def Awaiting : Pc → List Msg → Prop
  | .connecting, _ => True
  | .sending, ms => ms = []
  | .receiving number attempt, ms => ms = [] ∨ ms = [⟨echoOf (message number), attempt⟩]

/-- Less may be pending. -/
theorem Awaiting.of_prefix {pc : Pc} {ms ns : List Msg} (h : Awaiting pc ms) (hn : ns <+: ms) : Awaiting pc ns := by
  cases pc with
  | connecting => trivial
  | sending =>
    change ms = [] at h
    rw [h] at hn
    exact List.prefix_nil.1 hn
  | receiving number attempt =>
    rcases h with rfl | rfl
    · exact Or.inl (List.prefix_nil.1 hn)
    · rcases List.prefix_cons_iff.1 hn with h | ⟨t, rfl, ht⟩
      · exact Or.inl h
      · exact Or.inr (by rw [List.prefix_nil.1 ht])

/-- A response is the empty string, read for a close frame, or the echo of the message its iteration sent, going back to the very
send of that iteration. -/
def Response.Sound (r : Response) : Prop :=
  (r.text = "" ∧ r.origin = none) ∨ (r.text = echoOf (message r.number) ∧ r.origin = some r.attempt)

/-- A sound response that is not empty is the echo of the message its iteration sent. -/
theorem response_text_of_sound {r : Response} (h : r.Sound) (hne : r.text ≠ "") : r.text = echoOf (message r.number) := by
  rcases h with ⟨he, -⟩ | ⟨ht, -⟩
  · exact absurd he hne
  · exact ht

/-- The invariant of the system. -/
structure Inv (s : State) : Prop where
  ordered : ∀ c, Ordered (s.conns c)
  awaiting : Awaiting s.pc (pending s.conn)
  counter : ∀ number attempt, s.pc = .receiving number attempt → number = s.messageCount
  count : s.messageCount = s.responses.length + 1
  numbers : s.responses.map (·.number) = List.range' 1 s.responses.length
  sound : ∀ r ∈ s.responses, r.Sound

theorem inv_start : Inv start where
  ordered _ := ⟨[], Or.inl rfl⟩
  awaiting := trivial
  counter _ _ h := by cases h
  count := rfl
  numbers := rfl
  sound _ h := by cases h

/-- Changing one connection to an ordered one keeps every connection ordered. -/
theorem ordered_setConn {s : State} (h : ∀ c, Ordered (s.conns c)) {c : Nat} {k : Conn} (hk : Ordered k) :
    ∀ d, Ordered ((s.setConn c k).conns d) := by
  intro d
  by_cases hd : d = c
  · subst hd
    simpa [State.setConn] using hk
  · simpa [State.setConn, Function.update_of_ne hd] using h d

/-- The client's connection after a change of connection `c`. -/
theorem conn_setConn (s : State) (c : Nat) (k : Conn) : (s.setConn c k).conn = if s.ws = c then k else s.conn := by
  simp [State.conn, State.setConn, Function.update_apply]

/-- The responses after one more keep the numbers in sequence. -/
theorem numbers_snoc {rs : List Response} (h : rs.map (·.number) = List.range' 1 rs.length) (r : Response)
    (hr : r.number = rs.length + 1) : (rs ++ [r]).map (·.number) = List.range' 1 (rs ++ [r]).length := by
  rw [List.map_append, h, List.length_append, List.length_singleton, List.range'_concat, List.map_singleton, hr, Nat.one_mul,
    Nat.add_comm 1]

/-- Reading a response keeps the invariant, when nothing is pending after it and the response is sound. -/
theorem inv_respond {s : State} (hi : Inv s) {k : Conn} {number attempt : Nat} {text : String} {origin : Option Nat}
    (hk : Ordered k) (hp : pending k = []) (hn : number = s.messageCount)
    (hs : (⟨number, attempt, text, origin⟩ : Response).Sound) : Inv ((s.setConn s.ws k).respond number attempt text origin) where
  ordered := ordered_setConn hi.ordered hk
  awaiting := by
    change pending (s.setConn s.ws k).conn = []
    rw [conn_setConn, if_pos rfl, hp]
  counter _ _ h := by cases h
  count := by
    have := hi.count
    simp [State.respond, State.setConn, this]
  numbers := numbers_snoc hi.numbers _ (hn.trans hi.count)
  sound := by
    intro r hr
    rcases List.mem_append.1 hr with hr | hr
    · exact hi.sound r hr
    · rw [List.mem_singleton.1 hr]
      exact hs

/-- Every move keeps the invariant. -/
theorem inv_step {s s' : State} {a : Act} (hi : Inv s) (h : step s a = some s') : Inv s' := by
  cases moves_of_step h with
  | server c k _ hk =>
    obtain ⟨ho, hp⟩ := connStep_keeps (hi.ordered c) hk
    refine ⟨ordered_setConn hi.ordered ho, ?_, hi.counter, hi.count, hi.numbers, hi.sound⟩
    rw [conn_setConn]
    split
    · rename_i hw
      subst hw
      exact hi.awaiting.of_prefix hp
    · exact hi.awaiting
  | connectRaises _ => exact hi
  | connects _ =>
    refine ⟨ordered_setConn hi.ordered ⟨[], Or.inl rfl⟩, ?_, ?_, hi.count, hi.numbers, hi.sound⟩
    · simp [Awaiting, State.conn, State.setConn]
    · intro _ _ h
      cases h
  | sends hpc =>
    have ha := hi.awaiting
    rw [hpc] at ha
    refine ⟨ordered_setConn hi.ordered (hi.ordered s.ws), ?_, ?_, hi.count, hi.numbers, hi.sound⟩
    · change Awaiting (.receiving s.messageCount s.sends) (pending (s.setConn s.ws _).conn)
      rw [conn_setConn, if_pos rfl, pending_hand, show pending s.conn = [] from ha]
      split
      · exact Or.inl rfl
      · exact Or.inr rfl
    · intro _ _ h
      cases h
      rfl
  | reconnects _ =>
    refine ⟨ordered_setConn hi.ordered (hi.ordered s.ws), trivial, ?_, hi.count, hi.numbers, hi.sound⟩
    intro _ _ h
    cases h
  | @receives number attempt m rest hpc hc =>
    have ha := hi.awaiting
    have hm : pending s.conn = m :: pending { s.conn with toClient := rest } := by simp [pending, hc, texts]
    rw [hpc, hm] at ha
    rcases ha with ha | ha
    · cases ha
    · obtain ⟨rfl, hr⟩ := List.cons.inj ha
      exact inv_respond hi ((hi.ordered s.ws).tail hc) hr (hi.counter _ _ hpc) (Or.inr ⟨rfl, rfl⟩)
  | readsClose hpc hc =>
    obtain ⟨ht, rfl⟩ := (hi.ordered s.ws).of_close hc
    exact inv_respond hi ⟨[], Or.inl rfl⟩ (pending_of_closing ht) (hi.counter _ _ hpc) (Or.inl ⟨rfl, rfl⟩)

/-- The invariant holds in every state of every run. -/
theorem inv_of_exec : ∀ acts s, system.exec acts = some s → Inv s :=
  system.invariant_state Inv inv_start fun _ _ _ hi h => inv_step hi h

/-! ## Close frames read -/

/-- An echo is not the empty string. -/
theorem echoOf_ne_empty (text : String) : echoOf text ≠ "" := by
  intro h
  have := congrArg String.toList h
  simp [echoOf] at this

/-- The echo of a message, in full. -/
theorem echoOf_message (k : Nat) : echoOf (message k) = "Echo: Hello, Server (Message " ++ toString k ++ ")" := by
  have hmessage : echoOf (message k) = "Echo: " ++ ("Hello, Server (Message " ++ toString k ++ ")") := rfl
  rw [hmessage, ← String.toList_inj]
  simp only [String.toList_append, ← List.append_assoc]
  rfl

/-- The echoes of two numbers differ. -/
theorem echoOf_message_inj {j k : Nat} (h : echoOf (message j) = echoOf (message k)) : j = k := by
  unfold echoOf message at h
  rw [String.append_right_inj, String.append_left_inj, String.append_right_inj] at h
  exact Nat.repr_inj.1 h

/-- A run has read an empty response exactly when it has read a close frame. -/
theorem empty_response_iff : ∀ acts s, system.exec acts = some s →
    ((∃ r ∈ s.responses, r.text = "") ↔ Act.readsClose ∈ acts) := by
  apply system.invariant
  · simp [system, start]
  · intro acts s a s' hs ih h
    change step s a = some s' at h
    rw [List.mem_append, List.mem_singleton, ← ih]
    have hi := inv_of_exec acts s hs
    cases moves_of_step h with
    | server c k ha _ => simp [State.setConn, ha.symm]
    | connectRaises _ => simp
    | connects _ => simp [State.setConn]
    | sends _ => simp [State.setConn]
    | reconnects ha => simp [State.reconnect, State.setConn, ha.symm]
    | @receives number attempt m rest hpc hc =>
      have ha := (inv_step hi h).sound ⟨number, attempt, m.text, some m.attempt⟩ (by simp [State.respond])
      have hm : m.text ≠ "" := by
        rcases ha with ⟨-, ha⟩ | ⟨ha, -⟩
        · cases ha
        · intro he
          exact echoOf_ne_empty _ (ha.symm.trans he)
      simp [State.respond, State.setConn, hm]
    | readsClose _ _ => simp [State.respond, State.setConn]

/-! ## Waiting for an answer -/

end SockShop.WebSocket
