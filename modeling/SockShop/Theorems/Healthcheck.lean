import SockShop.Lemmas.Healthcheck

/-!
# What a run of the health check means

`run_exact` is the meaning of a run in terms of the write log: how many rounds are executed, what is asked in them, and with which
status the script ends. The two questions an operator has about that status have answers that depend on the names in the replies,
since a service that does not answer is written under the name it was requested by and one that answers under the names it reports:

* does status 0 mean that the last round was good? Exactly when that round overwrites no failure (`goodRound_iff_not_overwritten`).
* does a good round end the script with status 0? Exactly when it rewrites every name that earlier rounds left not "OK"
  (`recovers_iff_rewritten`).

Both conditions can fail (`masked_failure`, `stale_failure`).
-/

namespace SockShop.Healthcheck

open WriteLog Attempts

/-! ## Two networks -/

namespace Masked

/-- Two services, one round. -/
def settings : Settings := { hostname := none, delay := none, services := ["carts", "orders"], retry := 1 }

/-- The carts service does not answer, and the orders service, asked after it, reports on itself and on the carts. -/
def net : Net := fun _ host _ => if host = "orders" then healthReply [("orders", "OK"), ("carts", "OK")] else .noAnswer

theorem wellFormed : settings.WellFormed net := by
  intro i service _
  unfold Settings.reply net
  split
  · exact healthReply_wellFormed _
  · rfl

end Masked

namespace Stale

/-- One service, three rounds. -/
def settings : Settings := { hostname := none, delay := none, services := ["carts"], retry := 3 }

/-- The service does not answer in the first round; from the second round on it reports a healthy service of the given name. -/
def net (name : String) : Net := fun i _ _ => if i = 1 then .noAnswer else healthReply [(name, "OK")]

theorem wellFormed (name : String) : settings.WellFormed (net name) := by
  intro i service _
  unfold Settings.reply net
  split
  · rfl
  · exact healthReply_wellFormed _

theorem goodRound (name : String) : settings.GoodRound (net name) 2 := by
  intro service _
  refine ⟨[(.str name, .str "OK")], healthReply_healthList _, ?_⟩
  simp [IsOk]

end Stale

variable (c : Settings) (net : Net)

/-! ## The rounds executed and the exit status -/

/-- The meaning of a run. With `i₀` the first round after which the last status written for every name is "OK", the script
executes as many rounds as `--retry` allows or `i₀`, whichever is fewer; in each of them it asks every requested service exactly
once, in order; and its exit status is 0 exactly when no round was allowed or `i₀` is among the rounds allowed. -/
theorem run_exact (hwf : c.WellFormed net) (hp : c.PauseOk) :
    ((run c net).script.rounds : ℕ∞) = min (c.retry.toNat : ℕ∞) (first (c.AllClear net)) ∧
    (c.retry ≤ 0 → (run c net).script.rounds = 0) ∧
    (run c net).script.requests = (List.range' 1 (run c net).script.rounds).flatMap c.roundRequests ∧
    ((run c net).status = 0 ↔ c.retry ≤ 0 ∨ first (c.AllClear net) ≤ (c.retry.toNat : ℕ∞)) := by
  obtain ⟨m, hs, hscript, hstatus⟩ := run_spec hwf hp
  rw [hscript, hstatus]
  refine ⟨hs.eq_min, ?_, rfl, ?_⟩
  · intro h0
    have := hs.le
    simp only [Settings.after]
    omega
  · rcases Nat.eq_zero_or_pos m with rfl | h1
    · constructor
      · intro _
        rcases hs.done with hr | ⟨h, -⟩
        · exact Or.inl (by omega)
        · omega
      · intro _
        exact settled_nil IsOk
    · rw [hs.hit_iff h1]
      constructor
      · exact Or.inr
      · rintro (h0 | h)
        · have := hs.le
          omega
        · exact h

/-- `run_exact`, for a run of two rounds out of three. -/
theorem run_exact_two_of_three :
    ((run Stale.settings (Stale.net "carts")).script.rounds : ℕ∞) =
        min (Stale.settings.retry.toNat : ℕ∞) (first (Stale.settings.AllClear (Stale.net "carts"))) ∧
      (Stale.settings.retry ≤ 0 → (run Stale.settings (Stale.net "carts")).script.rounds = 0) ∧
      (run Stale.settings (Stale.net "carts")).script.requests =
        (List.range' 1 (run Stale.settings (Stale.net "carts")).script.rounds).flatMap Stale.settings.roundRequests ∧
      ((run Stale.settings (Stale.net "carts")).status = 0 ↔ Stale.settings.retry ≤ 0 ∨
        first (Stale.settings.AllClear (Stale.net "carts")) ≤ (Stale.settings.retry.toNat : ℕ∞)) :=
  run_exact Stale.settings (Stale.net "carts") (Stale.wellFormed _) (fun _ h => by cases h)

/-! ## Masked failures -/

/-- A script that stops after round `i` with status 0 had a good round `i` (every requested service answered, and every item it
reported was "OK") exactly when round `i` overwrites no failure: no status other than "OK" is followed, later in the same round,
by another status for the same name. -/
theorem goodRound_iff_not_overwritten (hwf : c.WellFormed net) (i : Nat) (hi : (run c net).script.rounds = i) (h1 : 1 ≤ i)
    (h0 : (run c net).status = 0) : c.GoodRound net i ↔ ¬Overwritten IsOk (c.roundLog net i) := by
  obtain ⟨j, rfl⟩ : ∃ j, i = j + 1 := ⟨i - 1, by omega⟩
  have hclear : c.AllClear net (j + 1) := hi ▸ allClear_of_status hwf (hi ▸ h1) h0
  unfold Settings.AllClear at hclear
  rw [logUpTo_succ] at hclear
  rw [goodRound_iff]
  exact forall_of_settled hclear

/-- `goodRound_iff_not_overwritten`, where the round that follows a failure rewrites it. -/
theorem goodRound_iff_of_second_round :
    Stale.settings.GoodRound (Stale.net "carts") 2 ↔ ¬Overwritten IsOk (Stale.settings.roundLog (Stale.net "carts") 2) :=
  goodRound_iff_not_overwritten Stale.settings (Stale.net "carts") (Stale.wellFormed _) 2 (by decide) (by decide) (by decide)

/-- A failure of the deciding round is masked: the carts service does not answer in the only round, and the script exits with
status 0, because the orders service reports a healthy service of that name. -/
theorem masked_failure :
    Masked.settings.WellFormed Masked.net ∧ (run Masked.settings Masked.net).script.rounds = 1 ∧
      (run Masked.settings Masked.net).status = 0 ∧ ¬Masked.settings.GoodRound Masked.net 1 := by
  refine ⟨Masked.wellFormed, by decide, by decide, ?_⟩
  intro h
  obtain ⟨reports, hr, -⟩ := h "carts" (by decide)
  cases hr

/-! ## Stale failures -/

/-- A script that reaches round `i + 1`, and finds it good, exits with status 0 no later than the end of that round exactly when
the round rewrites every name whose last status, from the rounds before, is not "OK". -/
theorem recovers_iff_rewritten (hwf : c.WellFormed net) (hp : c.PauseOk) (i : Nat)
    (hreach : i + 1 ≤ (run c net).script.rounds) (hgood : c.GoodRound net (i + 1)) :
    ((run c net).status = 0 ∧ (run c net).script.rounds ≤ i + 1) ↔
      ∀ name status, last (c.logUpTo net i) name = some status → ¬IsOk status → name ∈ names (c.roundLog net (i + 1)) := by
  obtain ⟨m, hs, hscript, hstatus⟩ := run_spec hwf hp
  rw [hscript] at hreach ⊢
  rw [hstatus, ← settled_append_iff ((goodRound_iff c net (i + 1)).1 hgood), ← logUpTo_succ]
  change i + 1 ≤ m at hreach
  constructor
  · rintro ⟨hclear, hle⟩
    have : m = i + 1 := le_antisymm hle hreach
    exact this ▸ hclear
  · intro hclear
    -- the loop does not go past a round after which the log is settled
    have hle : m ≤ i + 1 := by
      by_contra hlt
      exact hs.before (i + 1) (by omega) (by omega) hclear
    have : m = i + 1 := le_antisymm hle hreach
    exact ⟨this ▸ hclear, hle⟩

/-- `recovers_iff_rewritten`, where the round that follows a failure rewrites it. -/
theorem recovers_in_second_round :
    ((run Stale.settings (Stale.net "carts")).status = 0 ∧ (run Stale.settings (Stale.net "carts")).script.rounds ≤ 1 + 1) ↔
      ∀ name status, last (Stale.settings.logUpTo (Stale.net "carts") 1) name = some status → ¬IsOk status →
        name ∈ names (Stale.settings.roundLog (Stale.net "carts") (1 + 1)) :=
  recovers_iff_rewritten Stale.settings (Stale.net "carts") (Stale.wellFormed _) (fun _ h => by cases h) 1 (by decide)
    (Stale.goodRound _)

/-- A good round does not end the script: the carts service does not answer in the first round and reports "OK" from the second
round on, but under the name "cart". The "err" written under the name requested stays, and after three rounds the exit status is
1. -/
theorem stale_failure :
    Stale.settings.WellFormed (Stale.net "cart") ∧ Stale.settings.services ≠ [] ∧ Stale.settings.GoodRound (Stale.net "cart") 2 ∧
      2 ≤ (run Stale.settings (Stale.net "cart")).script.rounds ∧ (run Stale.settings (Stale.net "cart")).status = 1 :=
  ⟨Stale.wellFormed _, by decide, Stale.goodRound _, by decide, by decide⟩

/-! ## Evidence -/

/-- Status 0 means that some service was requested and that every requested service has reported an "OK" of its own exactly when
`--retry` is at least 1, some service is requested, and a failure stands at the end of every round up to which a requested service has
been mute. (A negative `--delay` keeps the script from status 0.) -/
theorem evidence_iff (o : Options) (ho : o.settings = some c) (hwf : c.WellFormed net) :
    ((main o net).status = 0 → c.services ≠ [] ∧ ∀ service ∈ c.services, ∃ i, 1 ≤ i ∧ i ≤ (main o net).script.rounds ∧
        c.Vouches net i service) ↔
      1 ≤ c.retry ∧ (c.PauseOk → c.services ≠ [] ∧ ∀ m : Nat, 1 ≤ m → m ≤ c.retry →
        ∀ service ∈ c.services, c.Mute net m service → c.FailureStands net m) := by
  have hmain : main o net = run c net := by rw [main, ho]
  rw [hmain]
  by_cases hr : 1 ≤ c.retry
  · rw [and_iff_right hr]
    by_cases hp : c.PauseOk
    · rw [forall_prop_of_true hp]
      constructor
      · intro h
        refine ⟨?_, ?_⟩
        · -- without services the first round leaves an empty map
          intro he
          have hnone : ¬c.FailureStands net 1 := by
            rw [Settings.FailureStands, standing_iff, not_not]
            exact allClear_of_services_eq_nil net he 1
          exact (h (status_of_not_failureStands hwf hp (Nat.le_refl 1) hr hnone).1).1 he
        · intro m h1 hm service hs hmute
          by_contra hnone
          obtain ⟨h0, hle⟩ := status_of_not_failureStands hwf hp h1 hm hnone
          exact (not_mute_iff c net _ service).2 ((h h0).2 service hs) (hmute.anti hle)
      · rintro ⟨hne, hall⟩ h0
        refine ⟨hne, ?_⟩
        intro service hs
        obtain ⟨m, hf, hm, hrounds⟩ := (run_status hwf hp hr).1 h0
        obtain ⟨h1, hclear⟩ := first_spec hf
        rw [hrounds, ← not_mute_iff]
        intro hmute
        exact standing_iff.1 (hall m h1 hm service hs hmute) hclear
    · constructor
      · intro _ h
        exact absurd h hp
      · intro _ h0
        rw [run_of_not_pauseOk net hp hr] at h0
        cases h0
  · -- no round is executed, and the map is empty
    rw [run_of_retry_le_zero net (by omega : c.retry ≤ 0)]
    constructor
    · intro h
      obtain ⟨hne, hall⟩ := h rfl
      obtain ⟨service, hs⟩ := List.exists_mem_of_ne_nil _ hne
      obtain ⟨i, h1, hi, -⟩ := hall service hs
      change i ≤ 0 at hi
      omega
    · rintro ⟨h1, -⟩
      exact absurd h1 hr

/-- `evidence_iff`, for a service that reports "OK" in the second round. -/
theorem evidence_in_second_round :
    ((main { hostname := none, retry := some 3, delay := none, services := some "carts" } (Stale.net "carts")).status = 0 →
      Stale.settings.services ≠ [] ∧ ∀ service ∈ Stale.settings.services, ∃ i, 1 ≤ i ∧
        i ≤ (main { hostname := none, retry := some 3, delay := none, services := some "carts" } (Stale.net "carts")).script.rounds ∧
        Stale.settings.Vouches (Stale.net "carts") i service) ↔
    1 ≤ Stale.settings.retry ∧ (Stale.settings.PauseOk → Stale.settings.services ≠ [] ∧
      ∀ m : Nat, 1 ≤ m → m ≤ Stale.settings.retry → ∀ service ∈ Stale.settings.services,
        Stale.settings.Mute (Stale.net "carts") m service → Stale.settings.FailureStands (Stale.net "carts") m) :=
  evidence_iff Stale.settings (Stale.net "carts") _ rfl (Stale.wellFormed _)

/-- Status 0 without evidence: for a list that names no service, with no round allowed, and for a service whose health list is
empty. -/
theorem status_without_evidence :
    ((main { hostname := none, retry := some 1, delay := none, services := some "," } fun _ _ _ => .noAnswer).status = 0 ∧
      split "," = []) ∧
    ((main { hostname := none, retry := some 0, delay := none, services := some "carts" } fun _ _ _ => .noAnswer).status = 0 ∧
      (main { hostname := none, retry := some 0, delay := none, services := some "carts" } fun _ _ _ => .noAnswer).script.rounds = 0) ∧
    ((main { hostname := none, retry := some 1, delay := none, services := some "carts" } fun _ _ _ => healthReply []).status = 0 ∧
      ¬∃ i, { Stale.settings with retry := 1 }.Vouches (fun _ _ _ => healthReply []) i "carts") := by
  refine ⟨⟨by decide, by decide⟩, ⟨by decide, by decide⟩, by decide, ?_⟩
  rintro ⟨i, reports, hr, w, hw, -⟩
  rw [Settings.reply, healthReply_healthList] at hr
  cases hr
  cases hw

end SockShop.Healthcheck
