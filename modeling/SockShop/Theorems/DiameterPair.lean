import SockShop.Lemmas.DiameterPair

/-!
# The Diameter client with the server it is deployed with

Against a peer that may send anything, the client can be made to panic, to block, or to take one answer for another. Against this server
it cannot, whatever is parsed or written and whatever is lost on the way: no handler of either party is harmed and no connection is
given an answer that is not its own (`exchange_safe`), and when `main` returns, every request it sent has been answered
(`returned_complete`). And where nothing fails, every interleaving ends with `main` returning, after the same number of actions
(`returns_after_actions`).
-/

namespace SockShop.DiameterPair

open DiameterServer

section

variable (ids : Identities) (rand : UInt32) (render : Message → String) (silent : Bool) (remoteAddr : Nat → String)
  (mode : Diameter.Mode)

/-- In every run no handler of the client panics or, where `main` does not receive, blocks, and none of the server panics; and what is
delivered on a connection are answers to what was sent over it, in that order and none of them twice. -/
theorem exchange_safe (acts : List Act) (s : State) (h : (system ids rand render silent remoteAddr mode).exec acts = some s) :
    s.client.Unharmed mode ∧ s.serverPanicked = false ∧
      ∀ c, List.Sublist (s.links c).delivered ((answers ids rand mode).take (s.links c).sent) := by
  have hi := inv_of_exec acts s h
  refine ⟨unharmed_of_exec acts s h, hi.server, ?_⟩
  intro c
  obtain ⟨n, hn, -, -, hsub⟩ := hi.carries c
  exact ((List.sublist_append_left _ _).trans hsub).trans (List.take_sublist_take_left hn)

/-- When `main` returns, it has opened all its connections, and on each of them every request was sent and answered, each with its own
answer, in order, and nothing is under way. -/
theorem returned_complete (hm : mode.Countable) (acts : List Act) (s : State)
    (h : (system ids rand render silent remoteAddr mode).exec acts = some s) (hpc : s.client.pc = .returned) :
    s.client.opened = conns mode ∧ ∀ c < conns mode,
      (s.links c).delivered = answers ids rand mode ∧ (s.links c).requests = [] ∧ (s.links c).answers = [] := by
  obtain ⟨-, hopened, hsum⟩ := delivered_of_returned hm h hpc
  exact ⟨hopened, fun c hc => complete_of_sum (inv_of_exec acts s h) hsum hc⟩

/-- How many actions a run has taken in which nothing failed. -/
theorem length_of_exec (hm : mode.Countable) (hp : mode ≠ .persistent) (acts : List Act) (s : State)
    (h : (system ids rand render silent remoteAddr mode).exec acts = some s) (hok : ∀ a ∈ acts, a.Succeeds) :
    acts.length ≤ actions ids rand mode ∧ (s.client.pc = .returned ↔ acts.length = actions ids rand mode) := by
  have hi := inv_of_exec acts s h
  have hs := smooth_of_exec hp acts s h hok
  have hclient := (toClient ids rand render silent remoteAddr mode).exec acts s h
  have hopened : s.client.opened ≤ conns mode := (dialled_of_exec hp _ _ hclient).le
  obtain ⟨hreceives, hreturned⟩ := receives_le ids rand hm hp (Diameter.inv_of_exec mode _ _ hclient) hs.alive
  have hprogress : ∀ c ∈ Finset.range (conns mode), (s.links c).progress ≤ 3 * (script ids rand mode).length :=
    fun c _ => progress_le (hi.carries c) (hs.lossless c)
  have hall : ∑ _c ∈ Finset.range (conns mode), 3 * (script ids rand mode).length =
      3 * (conns mode * (script ids rand mode).length) := by
    rw [Finset.sum_const, Finset.card_range, nsmul_eq_mul, Nat.cast_id, Nat.mul_left_comm]
  have hsum := Finset.sum_le_sum hprogress
  rw [hall] at hsum
  have hlength := hs.length
  refine ⟨?_, ?_, ?_⟩
  · simp only [actions]
    simp only [toClient] at hreceives
    omega
  · intro hpc
    obtain ⟨-, hconns, hdelivered⟩ := delivered_of_returned hm h hpc
    have hdone : ∀ c ∈ Finset.range (conns mode), (s.links c).progress = 3 * (script ids rand mode).length := by
      intro c hc
      obtain ⟨hd, -, -⟩ := complete_of_sum hi hdelivered (Finset.mem_range.1 hc)
      have hle := (hi.carries c).length_le
      have hsent := (hs.lossless c).sent
      rw [hd, length_answers] at hsent
      have hk := hprogress c hc
      simp only [Link.progress, hd, length_answers] at hk ⊢
      omega
    have hr : Diameter.receives (acts.filterMap (label mode)) = mode.receives :=
      (hpc ▸ (Diameter.inv_of_exec mode _ _ hclient).received : Diameter.Received mode _ .returned).2
    rw [hlength, Finset.sum_congr rfl hdone, hall, hr, receives_eq ids rand hm hp, hconns, actions]
    omega
  · intro hlen
    refine hreturned ?_
    rw [hlen, actions] at hlength
    simp only [toClient] at hreceives ⊢
    omega

/-- A run in which nothing fails takes no more actions than it takes to send, serve, deliver and receive every message; `main` has
returned exactly when it has taken as many; until then it can always go on; and so it comes to return. -/
theorem returns_after_actions (hm : mode.Countable) (hp : mode ≠ .persistent) (acts : List Act) (s : State)
    (h : (system ids rand render silent remoteAddr mode).exec acts = some s) (hok : ∀ a ∈ acts, a.Succeeds) :
    acts.length ≤ actions ids rand mode ∧ (s.client.pc = .returned ↔ acts.length = actions ids rand mode) ∧
      (s.client.pc ≠ .returned → ∃ a, a.Succeeds ∧ (step ids rand render silent remoteAddr mode s a).isSome = true) ∧
      ∃ more s', (∀ a ∈ more, a.Succeeds) ∧
        (system ids rand render silent remoteAddr mode).exec (acts ++ more) = some s' ∧ s'.client.pc = .returned := by
  obtain ⟨hle, hiff⟩ := length_of_exec ids rand render silent remoteAddr mode hm hp acts s h hok
  refine ⟨hle, hiff, goes_on hm hp h (smooth_of_exec hp acts s h hok), ?_⟩
  obtain ⟨more, s', hmore, hs', hrest⟩ :=
    (system ids rand render silent remoteAddr mode).comes_to_rest Act.Succeeds (fun acts => ∀ a ∈ acts, a.Succeeds)
      List.length (actions ids rand mode)
      (fun acts a hacts ha => ⟨List.forall_mem_append.2 ⟨hacts, List.forall_mem_singleton.2 ha⟩, List.length_append⟩)
      (fun acts s h hok => (length_of_exec ids rand render silent remoteAddr mode hm hp acts s h hok).1) acts s h hok
  refine ⟨more, s', hmore, hs', ?_⟩
  by_contra hpc
  have hok' : ∀ a ∈ acts ++ more, a.Succeeds := List.forall_mem_append.2 ⟨hok, hmore⟩
  obtain ⟨a, ha, hstep⟩ := goes_on hm hp hs' (smooth_of_exec hp _ s' hs' hok') hpc
  rw [show step ids rand render silent remoteAddr mode s' a = none from hrest a ha] at hstep
  cases hstep

end

/-- A client and a server, by their names. -/
def identities : Identities := { originHost := [0x63], originRealm := [0x67], peerHost := [0x73], peerRealm := [0x67] }

/-- `-bench` with one connection and one message, in a run in which nothing fails. -/
def exchange : List Act := [.main .connects, .sends 0, .serves 0 (.ok ()) (.ok ()), .delivers 0 .aca, .main .receives]

/-- `-bench` with two messages, where the connection breaks before the second is served. -/
def interrupted : List Act :=
  [.main .connects, .sends 0, .sends 0, .serves 0 (.ok ()) (.ok ()), .delivers 0 .aca, .breaks 0]

/-- `exchange_safe`, where the connection breaks. -/
theorem exchange_safe_interrupted : ∃ s,
    (system identities 0 (fun _ => "") true (fun _ => "") (.bench 1 2)).exec interrupted = some s ∧
    (s.client.Unharmed (.bench 1 2) ∧ s.serverPanicked = false ∧
      ∀ c, List.Sublist (s.links c).delivered ((answers identities 0 (.bench 1 2)).take (s.links c).sent)) :=
  ⟨_, rfl, exchange_safe identities 0 (fun _ => "") true (fun _ => "") (.bench 1 2) interrupted _ rfl⟩

/-- `returned_complete`, at the end of the exchange. -/
theorem returned_complete_exchange : ∃ s,
    (system identities 0 (fun _ => "") true (fun _ => "") (.bench 1 1)).exec exchange = some s ∧ s.client.opened = 1 ∧
    ∀ c < 1, (s.links c).delivered = answers identities 0 (.bench 1 1) ∧ (s.links c).requests = [] ∧ (s.links c).answers = [] :=
  ⟨_, rfl, returned_complete identities 0 (fun _ => "") true (fun _ => "") (.bench 1 1) ⟨by decide, by decide⟩ exchange _ rfl rfl⟩

/-- `returns_after_actions`, for the exchange. -/
theorem returns_after_exchange : ∃ s,
    (system identities 0 (fun _ => "") true (fun _ => "") (.bench 1 1)).exec exchange = some s ∧ exchange.length ≤ 5 ∧
    (s.client.pc = .returned ↔ exchange.length = 5) ∧
    (s.client.pc ≠ .returned → ∃ a, a.Succeeds ∧
      (step identities 0 (fun _ => "") true (fun _ => "") (.bench 1 1) s a).isSome = true) ∧
    ∃ more s', (∀ a ∈ more, a.Succeeds) ∧
      (system identities 0 (fun _ => "") true (fun _ => "") (.bench 1 1)).exec (exchange ++ more) = some s' ∧
      s'.client.pc = .returned :=
  ⟨_, rfl, returns_after_actions identities 0 (fun _ => "") true (fun _ => "") (.bench 1 1) ⟨by decide, by decide⟩ nofun
    exchange _ rfl (by simp [exchange, Act.Succeeds])⟩

end SockShop.DiameterPair
