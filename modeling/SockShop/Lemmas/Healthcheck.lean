import SockShop.Healthcheck
import SockShop.Lib.Attempts

/-!
# The script computes its log

Statements about `checkService`, `round` and `retryLoop`, level by level: on replies that are what the script expects, a service
writes `writes`, a round writes `roundLog`, and the rounds executed leave the state `Settings.after` that the log so far
determines. `run_spec` puts them together: which rounds are executed and with which status the script ends, in terms of the log
alone.
-/

namespace SockShop.Healthcheck

open WriteLog Attempts

/-- A hash is a list of fields. -/
theorem isHash_iff (item : Json) : isHash item = true ↔ ∃ fields, item = .obj fields := by
  cases item <;> simp [isHash]

/-- An item that is a hash writes what it reports. -/
theorem record_hash (s : Script) {item : Json} (h : isHash item = true) :
    record s item = .ok { s with health := s.health.insert (report item).1 (report item).2 } := by
  obtain ⟨fields, rfl⟩ := (isHash_iff item).1 h
  rfl

/-- Recording the items of a health list plays what they report into the map. -/
theorem foldlM_record (items : List Json) :
    ∀ s : Script, (∀ item ∈ items, isHash item = true) →
      items.foldlM record s = .ok { s with health := store s.health (items.map report) } := by
  induction items with
  | nil => intro s _; rfl
  | cons item items ih =>
    intro s h
    rw [List.foldlM_cons, record_hash s (h item List.mem_cons_self)]
    exact ih _ fun x hx => h x (List.mem_cons_of_mem _ hx)

/-- The three shapes of a reply that is what the script expects: no answer, or a hash with a health list of hashes. -/
theorem wellFormed_cases {reply : Reply} (h : reply.wellFormed = true) :
    (reply = .noAnswer) ∨ ∃ fields items, reply = .answered (some (.obj fields)) ∧
      Json.field fields "health" = .arr items ∧ (∀ item ∈ items, isHash item = true) ∧
      reply.healthList = some (items.map report) := by
  unfold Reply.wellFormed at h
  split at h
  · exact Or.inl rfl
  · rename_i fields
    split at h
    · rename_i items he
      exact Or.inr ⟨fields, items, rfl, he, List.all_eq_true.1 h, by simp [Reply.healthList, he]⟩
    · cases h
  · cases h

/-- A reply built from names and statuses is what the script expects. -/
theorem healthReply_wellFormed (reports : List (String × String)) : (healthReply reports).wellFormed = true := by
  simp [healthReply, Reply.wellFormed, Json.field, isHash]

/-- A reply built from names and statuses reports them. -/
theorem healthReply_healthList (reports : List (String × String)) :
    (healthReply reports).healthList = some (reports.map fun r => (.str r.1, .str r.2)) := by
  have hreport : ∀ r : String × String,
      report (.obj [("service", .str r.1), ("status", .str r.2)]) = (.str r.1, .str r.2) := fun _ => rfl
  simp [healthReply, Reply.healthList, Json.field, hreport, Function.comp_def]

section Round

variable (c : Settings) (net : Net)

/-- One service: the request is made, and the map receives what the service makes the round write. -/
theorem checkService_eq (i : Nat) (s : Script) (service : String) (h : (c.reply net i service).wellFormed = true) :
    checkService c net i s service = .ok { s with
      health := store s.health (writes service (c.reply net i service))
      requests := s.requests ++ [⟨i, c.url service, "/health"⟩] } := by
  unfold Settings.reply at h ⊢
  rcases wellFormed_cases h with hr | ⟨fields, items, hr, hf, hall, hl⟩
  · simp [checkService, writes, Reply.healthList, hr, store]
  · rw [writes, hl]
    simp only [checkService, hr, Option.bind_some, Json.index_obj, hf, Json.each_arr]
    exact foldlM_record items _ hall

/-- The services of a round, one after the other. -/
theorem foldlM_checkService (i : Nat) (services : List String) :
    ∀ s : Script, (∀ service ∈ services, (c.reply net i service).wellFormed = true) →
      services.foldlM (checkService c net i) s = .ok { s with
        health := store s.health (services.flatMap fun service => writes service (c.reply net i service))
        requests := s.requests ++ services.map fun service => ⟨i, c.url service, "/health"⟩ } := by
  induction services with
  | nil => intro s _; simp [store, pure, Except.pure]
  | cons service services ih =>
    intro s h
    rw [List.foldlM_cons, checkService_eq c net i s service (h service List.mem_cons_self)]
    refine (ih _ fun x hx => h x (List.mem_cons_of_mem _ hx)).trans ?_
    simp only [List.flatMap_cons, store_append, List.map_cons, List.append_assoc, List.singleton_append]

/-- The pause prints its line and returns, unless the delay is negative. -/
theorem pause_eq (s : Script) (h : c.PauseOk) : pause c s = .ok { s with output := s.output ++ c.pauseOutput } := by
  unfold pause Settings.pauseOutput
  cases hd : c.delay with
  | none => simp
  | some delay =>
    have := h delay hd
    simp [not_lt.2 this]

/-- A negative delay ends the script in the first round it comes to. -/
theorem pause_error (s : Script) (h : ¬c.PauseOk) : pause c s = .error { s with output := s.output ++ c.pauseOutput } := by
  unfold Settings.PauseOk at h
  push Not at h
  obtain ⟨delay, hd, hneg⟩ := h
  simp [pause, Settings.pauseOutput, hd, hneg]

/-! ## The log grows round by round -/

/-- The rounds up to the next one. -/
theorem flatMap_range_succ {α : Type} (f : Nat → List α) (i : Nat) :
    (List.range' 1 (i + 1)).flatMap f = (List.range' 1 i).flatMap f ++ f (i + 1) := by
  rw [List.range'_concat, List.flatMap_append, List.flatMap_singleton, Nat.one_mul, Nat.add_comm 1 i]

/-- The log after a round is the log before it and what the round writes. -/
theorem logUpTo_succ (i : Nat) : c.logUpTo net (i + 1) = c.logUpTo net i ++ c.roundLog net (i + 1) :=
  flatMap_range_succ _ i

/-- One round takes the state the first `i` rounds determine to the state the first `i + 1` determine. -/
theorem round_after (hwf : c.WellFormed net) (hp : c.PauseOk) (i : Nat) :
    round c net (i + 1) (c.after net i) = .ok (c.after net (i + 1)) := by
  unfold round
  rw [pause_eq c _ hp]
  simp only [bind, Except.bind]
  rw [foldlM_checkService c net (i + 1) c.services _ (hwf (i + 1))]
  simp only [Settings.after, flatMap_range_succ, logUpTo_succ, store_append, Settings.roundRequests, Settings.roundLog,
    List.append_assoc]

/-- The map after `i` rounds is all "OK" exactly when the last status of every name is. -/
theorem allOk_after (i : Nat) : (c.after net i).health.allOk = true ↔ c.AllClear net i := by
  unfold Health.allOk Settings.AllClear
  rw [← forall_store_iff, List.all_eq_true]
  simp only [decide_eq_true_eq, IsOk, Settings.after]

/-- The state before the first round. -/
theorem after_zero : c.after net 0 = Script.start := rfl

end Round

/-! ## The rounds executed -/

section Run

variable {c : Settings} {net : Net}

/-- The loop, from the state the first `i` rounds determine: it stops after a round `m` and leaves the state the first `m` rounds
determine. -/
theorem retryLoop_spec (hwf : c.WellFormed net) (hp : c.PauseOk) (n : Nat) :
    ∀ i, ∃ m, retryLoop c net n (i + 1) (c.after net i) = .ok (c.after net m) ∧ Stops (c.AllClear net) i (i + n) m := by
  induction n with
  | zero => intro i; exact ⟨i, rfl, Stops.refl _ _⟩
  | succ n ih =>
    intro i
    rw [retryLoop, round_after c net hwf hp i]
    simp only [bind, Except.bind]
    by_cases hc : c.AllClear net (i + 1)
    · exact ⟨i + 1, if_pos ((allOk_after c net (i + 1)).2 hc), Stops.hit (by omega) hc⟩
    · obtain ⟨m, hm, hs⟩ := ih (i + 1)
      refine ⟨m, ?_, Stops.miss hc (by rwa [show i + (n + 1) = i + 1 + n by omega])⟩
      rw [if_neg fun h => hc ((allOk_after c net (i + 1)).1 h)]
      exact hm

/-- The script: it stops after a round `m`, in the state the first `m` rounds determine, and with the status that says whether the
last status of every name is "OK". -/
theorem run_spec (hwf : c.WellFormed net) (hp : c.PauseOk) :
    ∃ m, Stops (c.AllClear net) 0 c.retry.toNat m ∧ (run c net).script = c.after net m ∧
      ((run c net).status = 0 ↔ c.AllClear net m) := by
  obtain ⟨m, hm, hs⟩ := retryLoop_spec hwf hp c.retry.toNat 0
  rw [after_zero] at hm
  refine ⟨m, by rwa [Nat.zero_add] at hs, by rw [run, hm], ?_⟩
  rw [run, hm]
  simp only
  rw [← allOk_after c net m]
  split <;> simp_all

/-- The exit status is 0 or 1. -/
theorem status_cases (c : Settings) (net : Net) : (run c net).status = 0 ∨ (run c net).status = 1 := by
  unfold run
  split
  · exact Or.inr rfl
  · dsimp only
    split
    · exact Or.inl rfl
    · exact Or.inr rfl

/-- With no round to execute, the script ends as it begins, with status 0. -/
theorem run_of_retry_le_zero (net : Net) (h : c.retry ≤ 0) : run c net = ⟨0, Script.start⟩ := by
  have hn : c.retry.toNat = 0 := by omega
  rw [run, hn]
  rfl

/-- With a delay that `sleep` does not accept, a script that has a round to execute ends in its first pause. -/
theorem run_of_not_pauseOk (net : Net) (hp : ¬c.PauseOk) (h1 : 1 ≤ c.retry) :
    run c net = ⟨1, { Script.start with rounds := 1, output := c.pauseOutput }⟩ := by
  obtain ⟨n, hn⟩ : ∃ n, c.retry.toNat = n + 1 := ⟨c.retry.toNat - 1, by omega⟩
  rw [run, hn, retryLoop, round, pause_error c _ hp]
  rfl

/-- When the first round that leaves every last status "OK" is within `--retry`, it is the last that the script executes. -/
theorem rounds_of_first (hwf : c.WellFormed net) (hp : c.PauseOk) {m : Nat} (hf : first (c.AllClear net) = m) (hm : m ≤ c.retry) :
    (run c net).script.rounds = m := by
  obtain ⟨m', hs, hscript, -⟩ := run_spec hwf hp
  have hmin := hs.eq_min
  have hle : (m : ℕ∞) ≤ (c.retry.toNat : ℕ∞) := by
    have : m ≤ c.retry.toNat := by omega
    exact_mod_cast this
  rw [hf, min_eq_right hle] at hmin
  rw [hscript]
  exact_mod_cast hmin

/-- A script that may execute rounds exits with status 0 exactly when some round within `--retry` leaves every last status "OK", and
then the first such round is the last it executed. -/
theorem run_status (hwf : c.WellFormed net) (hp : c.PauseOk) (h1 : 1 ≤ c.retry) :
    (run c net).status = 0 ↔ ∃ m : Nat, first (c.AllClear net) = m ∧ m ≤ c.retry ∧ (run c net).script.rounds = m := by
  obtain ⟨m, hs, hscript, hstatus⟩ := run_spec hwf hp
  have hle := hs.le
  have hm : 1 ≤ m := by
    rcases hs.done with hr | ⟨h, -⟩ <;> omega
  rw [hstatus, hs.hit_iff hm]
  constructor
  · intro hf
    have hfm : first (c.AllClear net) = m := by rw [hs.eq_min, min_eq_right hf]
    have hmr : (m : Int) ≤ c.retry := by omega
    exact ⟨m, hfm, hmr, rounds_of_first hwf hp hfm hmr⟩
  · rintro ⟨m', hf, hm', -⟩
    have : m' ≤ c.retry.toNat := by omega
    rw [hf]
    exact_mod_cast this

/-- Without services every map is empty, so all of it is "OK". -/
theorem allClear_of_services_eq_nil (net : Net) (h : c.services = []) (i : Nat) : c.AllClear net i := by
  have hlog : c.logUpTo net i = [] := by simp [Settings.logUpTo, Settings.roundLog, h]
  rw [Settings.AllClear, hlog]
  exact settled_nil IsOk

/-- A script that executed a round and exits with status 0 stopped after that round, with every last status "OK". -/
theorem allClear_of_status (hwf : c.WellFormed net) (h1 : 1 ≤ (run c net).script.rounds) (h0 : (run c net).status = 0) :
    c.AllClear net (run c net).script.rounds := by
  by_cases hp : c.PauseOk
  · obtain ⟨m, -, hs, hst⟩ := run_spec hwf hp
    rw [hs]
    exact hst.1 h0
  · by_cases hr : 1 ≤ c.retry
    · rw [run_of_not_pauseOk net hp hr] at h0
      cases h0
    · rw [run_of_retry_le_zero net (by omega)] at h1
      cases h1

/-! ## Good rounds -/

/-- A reply that the round counts as good writes only "OK", and no other reply does. -/
theorem writes_ok_iff (service : String) (reply : Reply) :
    (∀ w ∈ writes service reply, IsOk w.2) ↔ ∃ reports, reply.healthList = some reports ∧ ∀ w ∈ reports, IsOk w.2 := by
  unfold writes
  cases reply.healthList with
  | none => simp [IsOk]
  | some reports => simp

/-- A service vouches for itself in a round exactly when it makes the round write an "OK". -/
theorem vouches_iff (c : Settings) (net : Net) (i : Nat) (service : String) :
    c.Vouches net i service ↔ ∃ w ∈ writes service (c.reply net i service), IsOk w.2 := by
  unfold Settings.Vouches writes
  cases (c.reply net i service).healthList with
  | none => simp [IsOk]
  | some reports => simp

/-- A service is not mute exactly when it vouches for itself in one of the rounds. -/
theorem not_mute_iff (c : Settings) (net : Net) (m : Nat) (service : String) :
    ¬c.Mute net m service ↔ ∃ i, 1 ≤ i ∧ i ≤ m ∧ c.Vouches net i service := by
  unfold Settings.Mute
  push Not
  refine exists_congr fun i => and_congr_right fun _ => and_congr_right fun _ => ?_
  exact (vouches_iff c net i service).symm

/-- A service that is mute was mute before. -/
theorem Settings.Mute.anti {c : Settings} {net : Net} {m m' : Nat} {service : String} (h : c.Mute net m service) (hle : m' ≤ m) :
    c.Mute net m' service :=
  fun i h1 hi => h i h1 (Nat.le_trans hi hle)

/-- Where no failure stands, the script stops with status 0, if it may come that far. -/
theorem status_of_not_failureStands {c : Settings} {net : Net} (hwf : c.WellFormed net) (hp : c.PauseOk) {m : Nat} (h1 : 1 ≤ m)
    (hm : m ≤ c.retry) (h : ¬c.FailureStands net m) : (run c net).status = 0 ∧ (run c net).script.rounds ≤ m := by
  have hclear : c.AllClear net m := by
    by_contra hnot
    exact h (standing_iff.2 hnot)
  obtain ⟨m', hs, hscript, hstatus⟩ := run_spec hwf hp
  have hfirst : first (c.AllClear net) ≤ (m : ℕ∞) := first_le h1 hclear
  have hmin := hs.eq_min
  have hle : (m : ℕ∞) ≤ (c.retry.toNat : ℕ∞) := by
    have : m ≤ c.retry.toNat := by omega
    exact_mod_cast this
  rw [min_eq_right (hfirst.trans hle)] at hmin
  have hlast : m' ≤ m := by
    rw [← hmin] at hfirst
    exact_mod_cast hfirst
  refine ⟨hstatus.2 ?_, by rwa [hscript]⟩
  rcases Nat.eq_zero_or_pos m' with h0 | hpos
  · rw [h0]
    exact settled_nil IsOk
  · exact (hs.hit_iff hpos).2 (hfirst.trans hle)

/-- A round is good exactly when everything it writes is "OK". -/
theorem goodRound_iff (c : Settings) (net : Net) (i : Nat) : c.GoodRound net i ↔ ∀ w ∈ c.roundLog net i, IsOk w.2 := by
  unfold Settings.GoodRound Settings.roundLog
  simp only [List.mem_flatMap]
  constructor
  · rintro h w ⟨service, hs, hw⟩
    exact (writes_ok_iff service _).2 (h service hs) w hw
  · intro h service hs
    exact (writes_ok_iff service _).1 fun w hw => h w ⟨service, hs, hw⟩

end Run

end SockShop.Healthcheck
