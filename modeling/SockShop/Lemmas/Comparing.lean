import SockShop.Comparing
import SockShop.Lemmas.Replies

/-!
# Runs that leave the same last statuses

Two runs are the same when their logs leave the same last statuses after every round (`sameRun_of_last`), since the tests of the loop
and the maps read nothing else of a log. On a network whose replies all read, a run is that of the tame network (`run_tame`). And
under `--hostname` no service ever answers, since the host that is asked has a slash in its name (`reply_under`).
-/

namespace SockShop.Healthcheck

open WriteLog Attempts

/-! ## The maps of a run -/

section Maps

variable (c : Settings) (net : Net)

/-- The pause prints no map. -/
theorem filterMap_pauseOutput : c.pauseOutput.filterMap Output.map = [] := by
  unfold Settings.pauseOutput
  cases c.delay <;> rfl

/-- A state that has printed a pause more has the same maps. -/
theorem maps_of_output {s s' : Script} (h : s.output = s'.output ++ c.pauseOutput) : s.maps = s'.maps := by
  rw [Script.maps, h, List.filterMap_append, filterMap_pauseOutput, List.append_nil]
  rfl

/-- The maps of the first `i` rounds are those that their logs determine. -/
theorem maps_after (i : Nat) : (c.after net i).maps = (List.range' 1 i).map fun j => store ∅ (c.logUpTo net j) := by
  induction i with
  | zero => rfl
  | succ i ih =>
    have hout : (c.after net (i + 1)).output = (c.after net i).output ++ c.pauseOutput ++ [.ap (store ∅ (c.logUpTo net (i + 1)))] := by
      rw [List.append_assoc]
      exact flatMap_range_succ (fun j => c.pauseOutput ++ [.ap (store ∅ (c.logUpTo net j))]) i
    rw [Script.maps, hout, List.filterMap_append, List.filterMap_append, filterMap_pauseOutput, List.append_nil, ← Script.maps, ih,
      List.range'_concat, List.map_append, Nat.one_mul, Nat.add_comm 1 i]
    rfl

/-- The map that a log leaves has the last statuses of the log. -/
theorem lookup_map (log : List (Json × Json)) (name : Json) : (store ∅ log).lookup name = last log name := by
  rw [lookup_store, AList.lookup_empty, Option.or_none]

end Maps

/-! ## Logs with the same last statuses -/

section Same

/-- A run is the same as itself. -/
theorem SameRun.refl (e : Exit) : SameRun e e := by
  refine ⟨rfl, ?_, rfl⟩
  rw [List.forall₂_same]
  intro health _ name
  rfl

variable {c c' : Settings} {net net' : Net}

/-- Two runs with the same `--retry` and `--delay` are the same when their logs leave the same last statuses after every round. -/
theorem sameRun_of_last (hwf : c.WellFormed net) (hwf' : c'.WellFormed net') (hretry : c.retry = c'.retry) (hdelay : c.delay = c'.delay)
    (h : ∀ i : Nat, i ≤ c.retry → ∀ name, last (c.logUpTo net i) name = last (c'.logUpTo net' i) name) :
    SameRun (run c net) (run c' net') := by
  by_cases hr : c.retry ≤ 0
  · rw [run_of_retry_le_zero net hr, run_of_retry_le_zero net' (hretry ▸ hr)]
    exact SameRun.refl _
  by_cases hp : c.PauseOk
  · have hp' : c'.PauseOk := fun delay hd => hp delay (hdelay ▸ hd)
    obtain ⟨m, hs, hscript, hstatus⟩ := run_spec hwf hp
    obtain ⟨m', hs', hscript', hstatus'⟩ := run_spec hwf' hp'
    have hclear : ∀ i : Nat, i ≤ c.retry → (c.AllClear net i ↔ c'.AllClear net' i) := by
      intro i hi
      unfold Settings.AllClear Settled
      simp only [h i hi]
    -- the first round that leaves every last status "OK" is the same
    have hle := hs.le
    have hle' := hs'.le
    rw [← hretry] at hs' hle'
    have hm : m = m' := hs.unique hs' fun i hi => hclear i (by omega)
    subst hm
    refine ⟨by rw [hscript, hscript']; rfl, ?_, ?_⟩
    · rw [hscript, hscript', maps_after, maps_after, List.forall₂_map_left_iff, List.forall₂_map_right_iff, List.forall₂_same]
      intro j hj name
      have := List.mem_range'_1.1 hj
      rw [lookup_map, lookup_map]
      exact h j (by omega) name
    · have h0 : (run c net).status = 0 ↔ (run c' net').status = 0 := by
        rw [hstatus, hstatus']
        exact hclear m (by omega)
      rcases status_cases c net with h1 | h1 <;> rcases status_cases c' net' with h2 | h2 <;> simp_all
  · have hp' : ¬c'.PauseOk := fun h' => hp fun delay hd => h' delay (hdelay ▸ hd)
    rw [run_of_not_pauseOk net hp (by omega), run_of_not_pauseOk net' hp' (by omega)]
    have hpause : c.pauseOutput = c'.pauseOutput := by rw [Settings.pauseOutput, Settings.pauseOutput, hdelay]
    rw [hpause]
    exact SameRun.refl _

/-- Where every reply reads, a run is that of the tame network. -/
theorem run_tame (hp : c.PauseOk) (hr : ∀ i : Nat, 1 ≤ i → i ≤ c.retry → c.Readable net i) : run c net = run c net.tame := by
  obtain ⟨m', hm', hs'⟩ := retryLoop_spec (wellFormed_tame c net) hp c.retry.toNat 0
  rw [after_zero, Nat.zero_add] at hm'
  rw [Nat.zero_add] at hs'
  have hends := ends_run net hp
  generalize hloop : retryLoop c net c.retry.toNat 1 Script.start = result at hends
  cases hends with
  | stops hs _ =>
    have hm := hs.unique hs' fun _ _ => Iff.rfl
    rw [run, run, hloop, hm', hm]
  | aborts _ hm _ _ hn _ _ => exact absurd (hr _ (by omega) (by omega)) hn

end Same

/-! ## No service answers -/

section Silence

variable {c : Settings} {net : Net}

/-- When no service answers, a round writes an "err" for each. -/
theorem roundLog_of_noAnswer {i : Nat} (h : ∀ service ∈ c.services, c.reply net i service = .noAnswer) :
    c.roundLog net i = c.services.map fun service => (.str service, .str "err") := by
  unfold Settings.roundLog
  rw [List.map_eq_flatMap]
  refine List.flatMap_congr fun service hs => ?_
  rw [writes, h service hs]
  rfl

/-- The last statuses of such a round. -/
theorem last_errors (services : List String) (name : Json) :
    last (services.map fun service => ((.str service, .str "err") : Json × Json)) name =
      if name ∈ services.map Json.str then some (.str "err") else none := by
  split
  · rename_i h
    cases hl : last (services.map fun service => ((.str service, .str "err") : Json × Json)) name with
    | none =>
      rw [last_eq_none_iff, names, List.map_map] at hl
      exact absurd h hl
    | some status =>
      obtain ⟨service, -, he⟩ := List.mem_map.1 (mem_of_last hl)
      cases he
      rfl
  · rename_i h
    rw [last_eq_none_iff, names, List.map_map]
    exact h

/-- When no service ever answers, the last statuses after a round are an "err" for each and nothing else. -/
theorem last_of_noAnswer (h : ∀ i, ∀ service ∈ c.services, c.reply net i service = .noAnswer) (i : Nat) (name : Json) :
    last (c.logUpTo net (i + 1)) name = if name ∈ c.services.map Json.str then some (.str "err") else none := by
  induction i with
  | zero =>
    rw [logUpTo_succ, roundLog_of_noAnswer (h _)]
    exact last_errors c.services name
  | succ i ih =>
    rw [logUpTo_succ, last_append, ih, roundLog_of_noAnswer (h _), last_errors, Option.or_self]

/-- When no service ever answers and some service is requested, no round leaves every last status "OK". -/
theorem not_allClear_of_noAnswer (h : ∀ i, ∀ service ∈ c.services, c.reply net i service = .noAnswer) (hne : c.services ≠ []) (i : Nat) :
    ¬c.AllClear net (i + 1) := by
  intro hclear
  obtain ⟨service, hs⟩ := List.exists_mem_of_ne_nil _ hne
  have hlast := last_of_noAnswer h i (.str service)
  rw [if_pos (List.mem_map_of_mem hs)] at hlast
  have hok := hclear _ _ hlast
  simp [IsOk] at hok

/-- The host asked for a service under `--hostname` has a slash in its name, so it does not answer. -/
theorem reply_under (c : Settings) (E : Endpoints) (hostname : String) (i : Nat) (service : String) :
    (c.under hostname).reply E.net i service = .noAnswer := by
  have hslash : '/' ∈ ((c.under hostname).url service).toList := by
    simp [Settings.url, Settings.under]
  exact if_pos hslash

/-- Without services there is nothing to read and nothing in the log. -/
theorem silent_of_services_eq_nil (net : Net) (h : c.services = []) (i : Nat) : c.Silent net i := by
  refine ⟨?_, ?_⟩
  · intro service hs
    rw [h] at hs
    cases hs
  · intro name
    have hlog : c.logUpTo net.tame i = [] := by simp [Settings.logUpTo, Settings.roundLog, h]
    rw [hlog, h]
    rfl

/-- A run of the same settings that is the same as one in which no service answers leaves the same last statuses, round by round. -/
theorem silent_of_sameRun (c' : Settings) {net' : Net} (hno : ∀ i, ∀ service ∈ c.services, c.reply net i service = .noAnswer)
    (hwf : c.WellFormed net) (hne : c.services ≠ []) (hp : c.PauseOk) (hservices : c'.services = c.services)
    (hdelay : c'.delay = c.delay) (h : SameRun (run c net) (run c' net')) (i : Nat) (h1 : 1 ≤ i) (hi : i ≤ c.retry) :
    c'.Silent net' i := by
  have hp' : c'.PauseOk := fun delay hd => hp delay (hdelay ▸ hd)
  -- without an answer all rounds are executed
  obtain ⟨m, hs, hscript, -⟩ := run_spec hwf hp
  have hm : m = c.retry.toNat := by
    rcases hs.done with hm | ⟨hpos, hclear⟩
    · exact hm
    · obtain ⟨k, rfl⟩ := Nat.exists_eq_succ_of_ne_zero (Nat.ne_of_gt hpos)
      exact absurd hclear (not_allClear_of_noAnswer hno hne k)
  have hrounds := h.rounds
  have hmaps := h.maps
  rw [hscript, hm] at hrounds hmaps
  rw [maps_after] at hmaps
  have hends := ends_run net' hp'
  generalize hloop : retryLoop c' net' c'.retry.toNat 1 Script.start = result at hends
  cases hends with
  | @stops m' hs' hr =>
    have hrun : (run c' net').script = c'.after net'.tame m' := by rw [run, hloop]
    rw [hrun] at hrounds hmaps
    have hm' : m' = c.retry.toNat := hrounds.symm
    rw [maps_after, hm', List.forall₂_map_left_iff, List.forall₂_map_right_iff, List.forall₂_same] at hmaps
    refine ⟨hr i h1 (by omega), ?_⟩
    intro name
    have hsame := hmaps i (List.mem_range'_1.2 ⟨h1, by omega⟩) name
    obtain ⟨k, rfl⟩ := Nat.exists_eq_succ_of_ne_zero (Nat.ne_of_gt h1)
    rw [lookup_map, lookup_map, last_of_noAnswer hno k name] at hsame
    rw [hservices]
    exact hsame.symm
  | @aborts m' s _ _ _ _ _ hr hout =>
    -- the map of the round that ends the script is not printed
    have hrun : (run c' net').script = s := by rw [run, hloop]
    rw [hrun] at hrounds hmaps
    have hlen := hmaps.length_eq
    change c.retry.toNat = s.rounds at hrounds
    rw [maps_of_output c' hout, maps_after, List.length_map, List.length_map, List.length_range', List.length_range'] at hlen
    omega

end Silence

end SockShop.Healthcheck
