import SockShop.Lemmas.Schedule

/-!
# What the health check asks, whatever is answered

Neither what the services reply nor an exception changes the schedule of a run: round by round, and in a round the services in the order
of the list. A run only ends early (`asks_in_order`); status 0 says that it asked every service in each round it executed. And a larger
`--retry` only adds to a run, and nothing to one that ends with status 0 (`more_rounds`).
-/

namespace SockShop.Healthcheck

section

variable (c : Settings) (net : Net)

/-- On every network, the requests of a run are the first ones of its schedule; and where its status is 0, they are all of the schedule
for the rounds executed. -/
theorem asks_in_order :
    (run c net).script.requests <+: (List.range' 1 c.retry.toNat).flatMap c.roundRequests ∧
      ((run c net).status = 0 →
        (run c net).script.requests = (List.range' 1 (run c net).script.rounds).flatMap c.roundRequests) := by
  have hloop := loops_retryLoop c net c.retry.toNat 1 Script.start rfl
  unfold run
  cases hr : retryLoop c net c.retry.toNat 1 Script.start with
  | error s =>
    rw [hr] at hloop
    obtain ⟨asked, hprefix, hgrows⟩ := hloop
    refine ⟨?_, fun h => absurd h (Nat.one_ne_zero)⟩
    rwa [hgrows.requests]
  | ok s =>
    rw [hr] at hloop
    obtain ⟨m, hm, hgrows, hrounds, -⟩ := hloop
    have hrequests : s.requests = (List.range' 1 m).flatMap c.roundRequests := hgrows.requests
    have hm' : s.rounds = m := by omega
    refine ⟨?_, fun _ => hm' ▸ hrequests⟩
    obtain ⟨k, hk⟩ := Nat.exists_eq_add_of_le hm
    have hsplit : List.range' 1 c.retry.toNat = List.range' 1 m ++ List.range' (1 + m) k := by
      rw [hk, List.range'_append_1]
    rw [hrequests, hsplit, List.flatMap_append]
    exact List.prefix_append _ _

/-- On every network, a run with a larger `--retry` asks and prints first what the run with the smaller one does; and the two are the
same when the smaller one ends with status 0, or before its last round. -/
theorem more_rounds (retry : Int) (h1 : 1 ≤ c.retry) (hle : c.retry ≤ retry) :
    (run c net).script.requests <+: (run { c with retry := retry } net).script.requests ∧
      (run c net).script.output <+: (run { c with retry := retry } net).script.output ∧
      ((run c net).status = 0 ∨ (run c net).script.rounds < c.retry → run { c with retry := retry } net = run c net) := by
  obtain ⟨n, hn⟩ : ∃ n, c.retry.toNat = n + 1 := ⟨c.retry.toNat - 1, by omega⟩
  obtain ⟨k, hk⟩ : ∃ k, retry.toNat = n + 1 + k := ⟨retry.toNat - (n + 1), by omega⟩
  have hloop := loops_retryLoop c net (n + 1) 1 Script.start rfl
  have hlonger : retryLoop { c with retry := retry } net retry.toNat 1 Script.start =
      retryLoop c net (n + 1) 1 Script.start >>= fun s₁ =>
        if s₁.health.allOk then .ok s₁ else retryLoop c net k (1 + n + 1) s₁ := by
    rw [retryLoop_with_retry c retry net, hk, retryLoop_add]
  unfold run
  dsimp only
  rw [hlonger, hn]
  cases hr : retryLoop c net (n + 1) 1 Script.start with
  | error s => exact ⟨List.prefix_refl _, List.prefix_refl _, fun _ => rfl⟩
  | ok s =>
    rw [hr] at hloop
    obtain ⟨m, hm, -, hrounds, hend⟩ := hloop
    by_cases hok : s.health.allOk = true
    · have hsame : (Except.ok s >>= fun s₁ => if s₁.health.allOk = true then Except.ok s₁
          else retryLoop c net k (1 + n + 1) s₁) = Except.ok s := if_pos hok
      rw [hsame]
      exact ⟨List.prefix_refl _, List.prefix_refl _, fun _ => rfl⟩
    · have hmore : (Except.ok s >>= fun s₁ => if s₁.health.allOk = true then Except.ok s₁
          else retryLoop c net k (1 + n + 1) s₁) = retryLoop c net k (1 + n + 1) s := if_neg hok
      rw [hmore]
      have hlast : m = n + 1 := hend.resolve_right hok
      have hrest := loops_retryLoop c net k (1 + n + 1) s (by omega)
      have hnever : ¬((if s.health.allOk = true then 0 else 1) = 0 ∨ (s.rounds : Int) < c.retry) := by
        rw [if_neg hok]
        omega
      cases hs' : retryLoop c net k (1 + n + 1) s with
      | ok s' =>
        obtain ⟨hrequests, houtput⟩ := hrest.prefixes (Or.inl hs')
        exact ⟨hrequests, houtput, fun h => absurd h hnever⟩
      | error s' =>
        obtain ⟨hrequests, houtput⟩ := hrest.prefixes (Or.inr hs')
        exact ⟨hrequests, houtput, fun h => absurd h hnever⟩

end

namespace Impatient

/-- Two services, one round. -/
def settings : Settings := { hostname := none, delay := none, services := ["carts", "orders"], retry := 1 }

/-- The carts service does not answer at first, and something that is not JSON in the third round. -/
def net : Net := fun i host _ =>
  if host = "carts" then (if i = 1 then .noAnswer else if i = 2 then healthReply [("carts", "BAD")] else .answered none)
  else healthReply [(host, "OK")]

end Impatient

/-- `more_rounds`, for a run of one round and one of three. -/
theorem more_rounds_impatient :
    (run Impatient.settings Impatient.net).script.requests <+: (run { Impatient.settings with retry := 3 } Impatient.net).script.requests ∧
      (run Impatient.settings Impatient.net).script.output <+: (run { Impatient.settings with retry := 3 } Impatient.net).script.output ∧
      ((run Impatient.settings Impatient.net).status = 0 ∨
          (run Impatient.settings Impatient.net).script.rounds < Impatient.settings.retry →
        run { Impatient.settings with retry := 3 } Impatient.net = run Impatient.settings Impatient.net) :=
  more_rounds Impatient.settings Impatient.net 3 (by decide) (by decide)

end SockShop.Healthcheck
