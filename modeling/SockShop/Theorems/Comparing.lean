import SockShop.Lemmas.Comparing

/-!
# What two runs have in common

The order of the requested services does not matter when no two of them write the same name in one round (`sameRun_of_perm`). And
`--hostname` does not check the same thing as the plain mode: it asks a host named after the host and the service together, which
does not exist, so it amounts to the plain mode only where the services might as well not answer (`sameRun_under_iff`).
-/

namespace SockShop.Healthcheck

open WriteLog Attempts

variable (c : Settings)

/-! ## The order of the services -/

/-- Two runs for the same services in another order are the same, when in every round the names written by two different services are
different: as many rounds, equal maps after each of them, the same exit status. -/
theorem sameRun_of_perm (net : Net) {services : List String} (hperm : c.services.Perm services) (hwf : c.WellFormed net)
    (hdis : ∀ i, 1 ≤ i → ∀ a ∈ c.services, ∀ b ∈ c.services, a ≠ b →
      List.Disjoint (names (writes a (c.reply net i a))) (names (writes b (c.reply net i b)))) :
    SameRun (run c net) (run { c with services := services } net) := by
  have hwf' : Settings.WellFormed { c with services := services } net :=
    fun i service hs => hwf i service (hperm.mem_iff.2 hs)
  have hlast : ∀ i name, last (c.logUpTo net i) name = last (Settings.logUpTo { c with services := services } net i) name := by
    intro i name
    induction i with
    | zero => rfl
    | succ i ih =>
      rw [logUpTo_succ, logUpTo_succ, last_append, last_append, ih]
      congr 1
      exact last_flatMap_perm hperm (hdis (i + 1) (Nat.le_add_left 1 i)) name
  exact sameRun_of_last hwf hwf' rfl rfl fun i _ name => hlast i name

namespace Reordered

/-- Two services; in the first round one does not answer, and each reports about itself otherwise. -/
def settings : Settings := { hostname := none, delay := none, services := ["carts", "orders"], retry := 2 }

def net : Net := fun i host _ => if i = 1 ∧ host = "carts" then .noAnswer else healthReply [(host, "BAD"), (host, "OK")]

theorem wellFormed : settings.WellFormed net := by
  intro i service _
  unfold Settings.reply net
  split
  · rfl
  · exact healthReply_wellFormed _

/-- Each of the services only writes its own name. -/
theorem names_writes (i : Nat) (service : String) :
    ∀ name ∈ names (writes service (settings.reply net i service)), name = .str service := by
  intro name h
  unfold Settings.reply net at h
  split at h
  · simpa [writes, Reply.healthList, names] using h
  · simp only [writes, healthReply_healthList, names, List.map_cons, List.map_nil, List.mem_cons, List.not_mem_nil, or_false, or_self]
      at h
    exact h

end Reordered

/-- `sameRun_of_perm`, for two services of which one does not answer at first. -/
theorem sameRun_reordered :
    SameRun (run Reordered.settings Reordered.net) (run { Reordered.settings with services := ["orders", "carts"] } Reordered.net) := by
  refine sameRun_of_perm Reordered.settings Reordered.net (List.Perm.swap "orders" "carts" []) Reordered.wellFormed ?_
  intro i _ a _ b _ hab name ha hb
  have hname := (Reordered.names_writes i a name ha).symm.trans (Reordered.names_writes i b name hb)
  simp only [Json.scalar.injEq, Scalar.str.injEq] at hname
  exact hab hname

/-! ## The host name -/

/-- A run with `--hostname` is the same as a run without it, whatever the machines of the one and of the other answer, exactly when the
second might as well have asked services that never answer: in every round allowed, every reply reads and the last statuses are
an "err" for each requested service and nothing else. (No round is allowed when `--retry` is not positive, and none asks anything
when `--delay` is negative.) -/
theorem sameRun_under_iff (E E' : Endpoints) (hostname : String) :
    SameRun (run (c.under hostname) E'.net) (run c.plain E.net) ↔
      (c.PauseOk → ∀ i : Nat, 1 ≤ i → i ≤ c.retry → c.plain.Silent E.net i) := by
  have hno : ∀ i, ∀ service ∈ c.services, (c.under hostname).reply E'.net i service = .noAnswer :=
    fun i service _ => reply_under c E' hostname i service
  have hwf : (c.under hostname).WellFormed E'.net := by
    intro i service hs
    rw [hno i service hs]
    rfl
  constructor
  · intro h hp i h1 hi
    by_cases hne : c.services = []
    · exact silent_of_services_eq_nil (c := c.plain) E.net hne i
    · exact silent_of_sameRun c.plain hno hwf hne hp rfl rfl h i h1 hi
  · intro h
    by_cases hr : c.retry ≤ 0
    · rw [run_of_retry_le_zero (c := c.under hostname) _ hr, run_of_retry_le_zero (c := c.plain) _ hr]
      exact SameRun.refl _
    by_cases hp : c.PauseOk
    · rw [run_tame (c := c.plain) hp fun i h1 hi => (h hp i h1 hi).1]
      refine sameRun_of_last hwf (wellFormed_tame c.plain E.net) rfl rfl ?_
      intro i hi name
      cases i with
      | zero => rfl
      | succ i => rw [last_of_noAnswer hno, (h hp (i + 1) (Nat.le_add_left 1 i) hi).2 name]; rfl
    · rw [run_of_not_pauseOk (c := c.under hostname) _ hp (by change 1 ≤ c.retry; omega),
        run_of_not_pauseOk (c := c.plain) _ hp (by change 1 ≤ c.retry; omega)]
      exact SameRun.refl _

namespace Gateway

/-- One service, one round. -/
def settings : Settings := { hostname := none, delay := none, services := ["carts"], retry := 1 }

/-- The machine of the service reports that it is healthy, as does the gateway under the path of the service. -/
def endpoints : Endpoints := fun _ machine path =>
  if (machine = "carts" ∧ path = "/health") ∨ (machine = "gw" ∧ path = "/carts/health") then healthReply [("carts", "OK")] else .noAnswer

end Gateway

/-- The run through the gateway fails: the endpoints answer the same under the host name, and yet the exit statuses differ. -/
theorem gateway_unreachable :
    '/' ∉ "gw".toList ∧ Gateway.settings.Agree "gw" Gateway.endpoints Gateway.endpoints ∧
      (run (Gateway.settings.under "gw") Gateway.endpoints.net).status = 1 ∧
      (run Gateway.settings.plain Gateway.endpoints.net).status = 0 ∧
      ¬SameRun (run (Gateway.settings.under "gw") Gateway.endpoints.net) (run Gateway.settings.plain Gateway.endpoints.net) := by
  have hunder : (run (Gateway.settings.under "gw") Gateway.endpoints.net).status = 1 := by decide
  have hplain : (run Gateway.settings.plain Gateway.endpoints.net).status = 0 := by decide
  refine ⟨by decide, ?_, hunder, hplain, ?_⟩
  · intro i _ service hs
    cases List.mem_singleton.1 hs
    rfl
  · intro h
    have := h.status
    rw [hunder, hplain] at this
    cases this

end SockShop.Healthcheck
