import SockShop.Lemmas.Healthcheck
import SockShop.Replies

/-!
# The script on replies of any kind

As long as nothing raises while replies are read, the script does what it does on the tame network, whose replies are all what the
script expects: so the rounds executed leave the state that the log of the tame network determines. The first round with a reply
that cannot be read ends the script. `ends_retryLoop` says both at once, for every network.
-/

namespace SockShop.Healthcheck

open WriteLog Attempts

/-! ## One reply -/

/-- An item is recorded as it is read, and ends the script when it cannot be read. -/
theorem record_eq (s : Script) (item : Json) :
    record s item =
      match readItem item with
      | some w => .ok { s with health := s.health.insert w.1 w.2 }
      | none => .error s := by
  cases hn : item.index "service" <;> cases hs : item.index "status" <;> simp only [record, readItem, hn, hs]

/-- An item that can be read is recorded as it is read. -/
theorem record_of_some (s : Script) {item : Json} {w : Json × Json} (h : readItem item = some w) :
    record s item = .ok { s with health := s.health.insert w.1 w.2 } := by
  rw [record_eq, h]

/-- An item that cannot be read ends the script. -/
theorem record_of_none (s : Script) {item : Json} (h : readItem item = none) : record s item = .error s := by
  rw [record_eq, h]

/-- Items that can be read are recorded one after the other. -/
theorem foldlM_record_of_some (items : List Json) :
    ∀ (s : Script) (reports : List (Json × Json)), items.mapM readItem = some reports →
      items.foldlM record s = .ok { s with health := store s.health reports } := by
  induction items with
  | nil =>
    intro s reports h
    cases h
    rfl
  | cons item items ih =>
    intro s reports h
    rw [List.mapM_cons] at h
    cases hi : readItem item with
    | none => simp [hi] at h
    | some w =>
      cases hr : items.mapM readItem with
      | none => simp [hi, hr] at h
      | some ws =>
        simp only [hi, hr, Option.pure_def, Option.bind_eq_bind, Option.bind_some, Option.some.injEq] at h
        subst h
        rw [List.foldlM_cons, record_of_some s hi]
        exact ih _ ws hr

/-- A list with an item that cannot be read ends the script, in the round it is in and with nothing printed. -/
theorem foldlM_record_of_none (items : List Json) :
    ∀ s : Script, items.mapM readItem = none → ∃ s', items.foldlM record s = .error s' ∧ s'.rounds = s.rounds ∧ s'.output = s.output := by
  induction items with
  | nil =>
    intro s h
    cases h
  | cons item items ih =>
    intro s h
    rw [List.foldlM_cons]
    cases hi : readItem item with
    | none =>
      rw [record_of_none s hi]
      exact ⟨s, rfl, rfl, rfl⟩
    | some w =>
      rw [record_of_some s hi]
      have hr : items.mapM readItem = none := by
        cases hr : items.mapM readItem with
        | none => rfl
        | some ws => simp [hi, hr] at h
      exact ih _ hr

/-- The reply built from names and statuses is what the script expects. -/
theorem listReply_wellFormed (reports : List (Json × Json)) : (listReply reports).wellFormed = true := by
  simp [listReply, Reply.wellFormed, Json.field, isHash]

/-- The reply built from names and statuses reports them. -/
theorem listReply_healthList (reports : List (Json × Json)) : (listReply reports).healthList = some reports := by
  have hreport : ∀ r : Json × Json, report (.obj [("service", r.1), ("status", r.2)]) = r := fun _ => rfl
  simp [listReply, Reply.healthList, Json.field, hreport, Function.comp_def]

/-- A tame reply is what the script expects. -/
theorem tame_wellFormed (reply : Reply) : reply.tame.wellFormed = true := by
  unfold Reply.tame
  split
  · rfl
  · split
    · exact listReply_wellFormed _
    · rfl

section Service

variable (c : Settings) (net : Net)

/-- The tame network has the tame replies, all of which are what the script expects. -/
theorem reply_tame (i : Nat) (service : String) : c.reply net.tame i service = (c.reply net i service).tame := rfl

theorem wellFormed_tame : c.WellFormed net.tame := fun i service _ => tame_wellFormed (c.reply net i service)

/-- A reply that reads is handled as its tame form is. -/
theorem checkService_of_reads (i : Nat) (s : Script) {service : String} (h : (c.reply net i service).Reads) :
    checkService c net i s service = checkService c net.tame i s service := by
  rw [checkService_eq c net.tame i s service (tame_wellFormed _), reply_tame]
  unfold Settings.reply at h ⊢
  cases hr : net i (c.url service) "/health" with
  | noAnswer => simp [checkService, hr, Reply.tame, writes, Reply.healthList, store]
  | answered body =>
    rw [hr] at h
    obtain ⟨reports, hb⟩ := Option.ne_none_iff_exists'.1 h
    have hw : writes service (Reply.answered body).tame = reports := by
      rw [Reply.tame, hb, writes, listReply_healthList]
    rw [hw]
    unfold readBody at hb
    obtain ⟨items, he, hm⟩ := Option.bind_eq_some_iff.1 hb
    simp only [checkService, hr, he]
    exact foldlM_record_of_some items _ reports hm

/-- A reply that does not read ends the script, in the round it is in and with nothing printed. -/
theorem checkService_of_not_reads (i : Nat) (s : Script) {service : String} (h : ¬(c.reply net i service).Reads) :
    ∃ s', checkService c net i s service = .error s' ∧ s'.rounds = s.rounds ∧ s'.output = s.output := by
  unfold Settings.reply at h
  cases hr : net i (c.url service) "/health" with
  | noAnswer =>
    rw [hr] at h
    exact absurd trivial h
  | answered body =>
    rw [hr, Reply.Reads, not_not, readBody] at h
    simp only [checkService, hr]
    cases he : (body.bind (·.index "health")).bind Json.each with
    | none => exact ⟨_, rfl, rfl, rfl⟩
    | some items =>
      rw [he, Option.bind_some] at h
      obtain ⟨s', hs', hrounds, hout⟩ := foldlM_record_of_none items
        { s with requests := s.requests ++ [⟨i, c.url service, "/health"⟩] } h
      exact ⟨s', hs', hrounds, hout⟩

/-- Services whose replies read are handled as on the tame network. -/
theorem foldlM_checkService_of_reads (i : Nat) (services : List String) :
    ∀ s : Script, (∀ service ∈ services, (c.reply net i service).Reads) →
      services.foldlM (checkService c net i) s = services.foldlM (checkService c net.tame i) s := by
  induction services with
  | nil =>
    intro s _
    rfl
  | cons service services ih =>
    intro s h
    rw [List.foldlM_cons, List.foldlM_cons, checkService_of_reads c net i s (h service List.mem_cons_self)]
    refine bind_congr fun s' => ih s' ?_
    intro x hx
    exact h x (List.mem_cons_of_mem _ hx)

/-- A service whose reply does not read ends the script, in the round it is in and with nothing printed. -/
theorem foldlM_checkService_of_not_reads (i : Nat) (services : List String) :
    ∀ s : Script, (¬∀ service ∈ services, (c.reply net i service).Reads) →
      ∃ s', services.foldlM (checkService c net i) s = .error s' ∧ s'.rounds = s.rounds ∧ s'.output = s.output := by
  induction services with
  | nil =>
    intro s h
    exact absurd (fun _ hx => by cases hx) h
  | cons service services ih =>
    intro s h
    rw [List.foldlM_cons]
    by_cases hr : (c.reply net i service).Reads
    · rw [checkService_of_reads c net i s hr, checkService_eq c net.tame i s service (tame_wellFormed _)]
      have hrest : ¬∀ x ∈ services, (c.reply net i x).Reads := fun hall => h (List.forall_mem_cons.2 ⟨hr, hall⟩)
      simp only [bind, Except.bind]
      exact ih _ hrest
    · obtain ⟨s', hs', hrounds, hout⟩ := checkService_of_not_reads c net i s hr
      rw [hs']
      exact ⟨s', rfl, hrounds, hout⟩

end Service

/-! ## One round -/

section Round

variable {c : Settings} {net : Net}

/-- A round whose replies read takes the state of the tame network from round to round. -/
theorem round_of_readable (hp : c.PauseOk) {i : Nat} (hr : c.Readable net (i + 1)) :
    round c net (i + 1) (c.after net.tame i) = .ok (c.after net.tame (i + 1)) := by
  rw [← round_after c net.tame (wellFormed_tame c net) hp i]
  unfold round
  rw [pause_eq c _ hp]
  simp only [bind, Except.bind]
  rw [foldlM_checkService_of_reads c net (i + 1) c.services _ hr]

/-- A round with a reply that does not read ends the script, with the pause printed but not the map. -/
theorem round_of_not_readable (hp : c.PauseOk) {i : Nat} (hr : ¬c.Readable net (i + 1)) :
    ∃ s', round c net (i + 1) (c.after net.tame i) = .error s' ∧ s'.rounds = i + 1 ∧
      s'.output = (c.after net.tame i).output ++ c.pauseOutput := by
  unfold round
  rw [pause_eq c _ hp]
  simp only [bind, Except.bind]
  obtain ⟨s', hs', hrounds, hout⟩ := foldlM_checkService_of_not_reads c net (i + 1) c.services
    { c.after net.tame i with rounds := i + 1, output := (c.after net.tame i).output ++ c.pauseOutput } hr
  rw [hs']
  exact ⟨s', rfl, hrounds, hout⟩

/-- Rounds whose replies read leave the state of the tame network. -/
theorem rounds_of_readable (hp : c.PauseOk) (i : Nat) (hr : ∀ j, 1 ≤ j → j ≤ i → c.Readable net j) :
    rounds c net i = .ok (c.after net.tame i) := by
  induction i with
  | zero => rfl
  | succ i ih =>
    rw [rounds, ih fun j h1 hj => hr j h1 (Nat.le_succ_of_le hj)]
    exact round_of_readable hp (hr (i + 1) (by omega) (Nat.le_refl _))

/-- Up to a service whose reply reads, and before it only replies that read, the map is the one that the log determines. -/
theorem visit_of_reads (hp : c.PauseOk) {i : Nat} (hr : ∀ j, 1 ≤ j → j ≤ i → c.Readable net j) {visited : List String}
    (hv : ∀ service ∈ visited, (c.reply net (i + 1) service).Reads) :
    ∃ s, visit c net i visited = .ok s ∧ s.health = store ∅ (c.logAt net i visited) := by
  unfold visit
  rw [rounds_of_readable hp i hr]
  simp only [bind, Except.bind]
  rw [pause_eq c _ hp]
  simp only
  rw [foldlM_checkService_of_reads c net (i + 1) visited _ hv,
    foldlM_checkService c net.tame (i + 1) visited _ fun service _ => tame_wellFormed _]
  exact ⟨_, rfl, (store_append _ _ _).symm⟩

end Round

/-! ## The loop -/

/-- How the rounds after the first `i`, up to round `r` at most, end: they stop after a round, every reply read on the way, or a round
with a reply that does not read ends the script. -/
inductive Ends (c : Settings) (net : Net) (i r : Nat) : Except Script Script → Prop where
  | stops {m : Nat} (hs : Stops (c.AllClear net.tame) i r m) (hr : ∀ j, i < j → j ≤ m → c.Readable net j) :
      Ends c net i r (.ok (c.after net.tame m))
  | aborts {m : Nat} {s : Script} (hi : i ≤ m) (hm : m + 1 ≤ r) (hb : ∀ j, i < j → j ≤ m → ¬c.AllClear net.tame j)
      (hr : ∀ j, i < j → j ≤ m → c.Readable net j) (hn : ¬c.Readable net (m + 1)) (hrounds : s.rounds = m + 1)
      (hout : s.output = (c.after net.tame m).output ++ c.pauseOutput) : Ends c net i r (.error s)

/-- The loop, on any network. -/
theorem ends_retryLoop {c : Settings} (net : Net) (hp : c.PauseOk) (n : Nat) :
    ∀ i, Ends c net i (i + n) (retryLoop c net n (i + 1) (c.after net.tame i)) := by
  induction n with
  | zero =>
    intro i
    exact .stops (Stops.refl _ _) fun j h1 h2 => absurd h1 (by omega)
  | succ n ih =>
    intro i
    rw [retryLoop]
    by_cases hr : c.Readable net (i + 1)
    · rw [round_of_readable hp hr]
      have hnext : ∀ {m j}, (∀ j, i + 1 < j → j ≤ m → c.Readable net j) → i < j → j ≤ m → c.Readable net j := by
        intro m j h h1 h2
        rcases Nat.eq_or_lt_of_le h1 with rfl | h1
        · exact hr
        · exact h j h1 h2
      simp only [bind, Except.bind]
      by_cases hc : c.AllClear net.tame (i + 1)
      · rw [if_pos ((allOk_after c net.tame (i + 1)).2 hc)]
        refine .stops (Stops.hit (by omega) hc) ?_
        intro j h1 h2
        have : j = i + 1 := by omega
        exact this ▸ hr
      · rw [if_neg fun h => hc ((allOk_after c net.tame (i + 1)).1 h)]
        have hrest := ih (i + 1)
        rw [show i + 1 + n = i + (n + 1) by omega] at hrest
        generalize retryLoop c net n (i + 1 + 1) (c.after net.tame (i + 1)) = result at hrest ⊢
        cases hrest with
        | stops hs h => exact .stops (Stops.miss hc hs) fun j h1 h2 => hnext h h1 h2
        | aborts hi hm hb h hn hrounds hout =>
          refine .aborts (by omega) hm ?_ (fun j h1 h2 => hnext h h1 h2) hn hrounds hout
          intro j h1 h2
          rcases Nat.eq_or_lt_of_le h1 with rfl | h1
          · exact hc
          · exact hb j h1 h2
    · obtain ⟨s', hs', hrounds, hout⟩ := round_of_not_readable hp hr
      rw [hs']
      exact .aborts (Nat.le_refl i) (by omega) (fun j h1 h2 => absurd h1 (by omega)) (fun j h1 h2 => absurd h1 (by omega)) hr
        hrounds hout

/-- The loop of the script. -/
theorem ends_run {c : Settings} (net : Net) (hp : c.PauseOk) :
    Ends c net 0 c.retry.toNat (retryLoop c net c.retry.toNat 1 Script.start) := by
  have h := ends_retryLoop net hp c.retry.toNat 0
  rwa [after_zero, Nat.zero_add] at h

/-! ## Bad replies -/

section Confined

variable {c : Settings} {net : Net} {i : Nat} {visited : List String} {service : String}

/-- In a round whose replies read, so do those up to the service asked. -/
theorem Settings.Asks.reads (h : c.Asks visited service) (hr : c.Readable net i) :
    ∀ x ∈ visited ++ [service], (c.reply net i x).Reads := by
  obtain ⟨rest, hrest⟩ := h
  intro x hx
  refine hr x ?_
  rw [hrest, List.append_cons]
  exact List.mem_append_left rest hx

/-- When every reply up to a service's turn reads, the map after its turn has what the log has for its name. -/
theorem recorded_iff (hp : c.PauseOk) (hr : ∀ j, 1 ≤ j → j ≤ i + 1 → c.Readable net j) (hasks : c.Asks visited service) :
    (∃ s status, visit c net i (visited ++ [service]) = .ok s ∧ s.health.lookup (.str service) = some status ∧ ¬IsOk status) ↔
      ∃ status, last (c.logAt net i (visited ++ [service])) (.str service) = some status ∧ ¬IsOk status := by
  obtain ⟨s, hv, hh⟩ := visit_of_reads hp (fun j h1 h2 => hr j h1 (Nat.le_succ_of_le h2))
    (hasks.reads (hr (i + 1) (Nat.le_add_left 1 i) (Nat.le_refl _)))
  have hlookup : s.health.lookup (.str service) = last (c.logAt net i (visited ++ [service])) (.str service) := by
    rw [hh, lookup_store, AList.lookup_empty, Option.or_none]
  constructor
  · rintro ⟨s', status, hv', hl, hno⟩
    rw [hv, Except.ok.injEq] at hv'
    subst hv'
    exact ⟨status, hlookup ▸ hl, hno⟩
  · rintro ⟨status, hl, hno⟩
    exact ⟨s, status, hv, hlookup ▸ hl, hno⟩

/-- The rounds that are reached are those that a script executes which stops after round `m`. -/
theorem reached_iff {m : Nat} (h : Stops (c.AllClear net.tame) 0 c.retry.toNat m) : c.Reached net i ↔ i + 1 ≤ m := by
  have hle := h.le
  constructor
  · rintro ⟨hi, hb⟩
    rcases h.done with rfl | ⟨h1, hclear⟩
    · omega
    · by_contra hlt
      exact hb m h1 (by omega) hclear
  · intro hi
    refine ⟨by omega, ?_⟩
    intro j h1 h2
    exact h.before j h1 (by omega)

/-- A script that stops after round `m`, with every reply read, has confined bad replies if the services that gave them are left other
than "OK". -/
theorem confined_of_stops {m : Nat} (hloop : retryLoop c net c.retry.toNat 1 Script.start = .ok (c.after net.tame m))
    (hst : Stops (c.AllClear net.tame) 0 c.retry.toNat m) :
    c.Confined net ↔ ∀ i visited service, i + 1 ≤ m → c.Asks visited service → ¬(c.reply net (i + 1) service).Proper →
      ∃ s status, visit c net i (visited ++ [service]) = .ok s ∧ s.health.lookup (.str service) = some status ∧ ¬IsOk status := by
  have hrun : (run c net).script = c.after net.tame m := by rw [run, hloop]
  constructor
  · intro h i visited service hi
    exact h.recorded i visited service (by rw [hrun]; exact hi)
  · intro h
    refine ⟨⟨_, hloop⟩, by rw [hrun]; rfl, ?_, ?_⟩
    · intro i visited service hi
      rw [hrun] at hi
      exact h i visited service hi
    · rw [hrun]
      rcases hst.done with rfl | ⟨-, hclear⟩
      · exact Or.inl rfl
      · exact Or.inr ((allOk_after c net.tame m).2 hclear)

/-- A script with no round to execute has no bad reply. -/
theorem confined_of_retry_le_zero (net : Net) (h : c.retry ≤ 0) : c.Confined net := by
  have hn : c.retry.toNat = 0 := by omega
  refine ⟨⟨Script.start, by rw [hn]; rfl⟩, ?_, ?_, ?_⟩
  · rw [run_of_retry_le_zero net h]
    rfl
  · intro i visited service hi
    rw [run_of_retry_le_zero net h] at hi
    cases hi
  · rw [run_of_retry_le_zero net h, hn]
    exact Or.inl rfl

/-- A script that ends in its first pause has not confined anything. -/
theorem not_confined_of_not_pauseOk (hp : ¬c.PauseOk) (h1 : 1 ≤ c.retry) : ¬c.Confined net := by
  intro h
  obtain ⟨s, hs⟩ := h.goesOn
  obtain ⟨n, hn⟩ : ∃ n, c.retry.toNat = n + 1 := ⟨c.retry.toNat - 1, by omega⟩
  rw [hn, retryLoop, round, pause_error c _ hp] at hs
  cases hs

/-- With a delay that `sleep` accepts, bad replies stay confined exactly when every reply that a round that is reached may come to does
no harm. -/
theorem confined_iff_of_pauseOk (hp : c.PauseOk) :
    c.Confined net ↔
      ∀ i visited service, c.Reached net i → c.Asks visited service → c.Harmless net i visited service := by
  have hends := ends_run net hp
  generalize hloop : retryLoop c net c.retry.toNat 1 Script.start = result at hends
  cases hends with
  | @aborts m s hi hm hb hr hn hrounds hout =>
    -- the round that ends the script is reached, and has a reply that does not read
    have hreached : c.Reached net m := ⟨by omega, hb⟩
    constructor
    · intro h
      obtain ⟨s', hs'⟩ := h.goesOn
      rw [hloop] at hs'
      cases hs'
    · intro hall
      refine absurd ?_ hn
      intro service hs
      obtain ⟨visited, rest, hrest⟩ := List.append_of_mem hs
      exact (hall m visited service hreached ⟨rest, hrest⟩).1
  | @stops m hst hr =>
    rw [confined_of_stops hloop hst]
    have hread : ∀ {i}, i + 1 ≤ m → ∀ j, 1 ≤ j → j ≤ i + 1 → c.Readable net j := fun hi j h1 h2 => hr j h1 (h2.trans hi)
    constructor
    · intro h i visited service hi hasks
      have hi := (reached_iff hst).1 hi
      refine ⟨hasks.reads (hread hi (i + 1) (Nat.le_add_left 1 i) (Nat.le_refl _)) service (by simp), ?_⟩
      by_cases hprop : (c.reply net (i + 1) service).Proper
      · exact Or.inl hprop
      · exact Or.inr ((recorded_iff hp (hread hi) hasks).1 (h i visited service hi hasks hprop))
    · intro hall i visited service hi hasks hprop
      obtain ⟨-, hok⟩ := hall i visited service ((reached_iff hst).2 hi) hasks
      exact (recorded_iff hp (hread hi) hasks).2 (hok.resolve_left hprop)

end Confined

end SockShop.Healthcheck
