import SockShop.Lemmas.Diameter

/-!
# What the Diameter client takes for success, and what peers can do to it

For every interleaving of `main` and the messages of its peers. Both handlers report through one channel, and `main` cannot tell a
signal of one from that of the other: `benchmark` counts receives, which a closed channel never refuses, and `-hello` takes the
signal of an ACA for the answer. So `main` declares success for the answers it waits for exactly in the runs where no HMA comes too
early for `benchmark`, nothing but an HMA comes first when its total is 0 or to `-hello`, and the total fits the `int` it is counted
in (`success_iff`). And the handlers are safe exactly in the runs
without a message after an HMA and without more ACAs than `main` makes room for (`unharmed_iff`). Without a flag `main` never ends, and
its pause doubles with each failure up to 20 seconds (`persistent_backoff`).
-/

namespace SockShop.Diameter

open Machine

/-! ## Success -/

/-- When it returns, `benchmark` has received from `done` as often as its counter can tell. -/
theorem receives_of_returned {ncli msgs : Nat} {acts : List Act} {s : State}
    (h : (system (.bench ncli msgs)).exec acts = some s) (hpc : s.pc = .returned) :
    receives acts = benchmarkReceives (ncli * msgs) :=
  (hpc ▸ (inv_of_exec _ acts s h).received : Received (.bench ncli msgs) (receives acts) .returned).2

/-- When `benchmark` returns, what it received are the ACAs of its total exactly when no HMA came before as many were signalled. -/
theorem bench_answers_iff {ncli msgs : Nat} {acts : List Act} {s : State} (h0 : 0 < ncli * msgs) (hN : ncli * msgs ≤ intSize)
    (h : (system (.bench ncli msgs)).exec acts = some s) (hpc : s.pc = .returned) :
    s.answers = ncli * msgs ↔ Along (LateHMA (ncli * msgs)) acts := by
  have hi := inv_of_exec _ acts s h
  have hr : receives acts = ncli * msgs := (receives_of_returned h hpc).trans (benchmarkReceives_eq h0 hN)
  have hal := hi.answers_le
  have hsig : (s.done.closed = true → ncli * msgs ≤ s.answers + s.done.buf.length) ↔ Along (LateHMA (ncli * msgs)) acts :=
    (system (.bench ncli msgs)).iff_along (fun s => s.done.closed = true → ncli * msgs ≤ s.answers + s.done.buf.length)
      (fun hc => by cases hc) (fun acts s _ _ hs ha => signalled_step (inv_of_exec _ acts s hs) ha) acts s h
  rw [← hsig]
  cases hc : s.done.closed with
  | false => simp [(hi.opened hc).1, hr]
  | true =>
    rw [hr] at hal
    rcases hi.drained hc with hw | hnil
    · rw [hw, hr]
      constructor
      · intro _ _
        exact Nat.le_add_right _ _
      · intro _
        rfl
    · rw [← GoChan.contents_of_closed hc, hnil, List.length_nil, Nat.add_zero]
      constructor
      · intro he _
        exact Nat.le_of_eq he.symm
      · intro hle
        exact Nat.le_antisymm hal (hle rfl)

/-- When `-hello` returns, an HMA has been handled exactly when `main` did not receive the signal of an ACA before one. -/
theorem hello_answered_iff {acts : List Act} {s : State} (h : (system .hello).exec acts = some s) (hpc : s.pc = .returned) :
    1 ≤ s.hmas ↔ Along NoStraySignal acts := by
  have hrun : ∀ acts s, (system .hello).exec acts = some s → s.pc = .returned → (1 ≤ s.hmas ↔ Along NoStraySignal acts) := by
    apply (system .hello).invariant
    · intro hp
      cases hp
    · intro acts s a s' hs _ ha hp
      have hi := inv_of_exec _ acts s hs
      -- `main` returns with its first receive
      have hfirst : ∀ count, s.pc = .waiting count → receives acts = 0 := by
        intro count hw
        exact Nat.lt_one_iff.1 (hw ▸ hi.received : Received .hello (receives acts) (.waiting count)).2.2
      cases moves_of_step ha with
      | quiet _ _ hpc _ _ _ _ => exact absurd hp hpc.ne_returned
      | aca _ hpc _ _ _ _ => exact absurd hp hpc
      | acaPanics _ hpc _ => exact absurd hp hpc
      | hma _ hpc _ _ _ _ => exact absurd hp hpc
      | hmaPanics _ hpc _ => exact absurd hp hpc
      | answer hpc hc _ _ _ =>
        have hr := hfirst _ hpc
        rw [along_snoc, and_iff_right (noStraySignal_of_receives_zero hr), noStraySignal_iff hi hr (Or.inl (by simp [hc]))]
      | zero hpc _ hc =>
        have hr := hfirst _ hpc
        rw [along_snoc, and_iff_right (noStraySignal_of_receives_zero hr), noStraySignal_iff hi hr (Or.inr hc)]
  exact hrun acts s h hpc

/-- When `benchmark` returns, it has received no ACA at all exactly when none arrived before an HMA. -/
theorem bench_no_answers_iff {ncli msgs : Nat} {acts : List Act} {s : State}
    (h : (system (.bench ncli msgs)).exec acts = some s) (hpc : s.pc = .returned) : s.answers = 0 ↔ Along NoAnswerFirst acts := by
  have hi := inv_of_exec _ acts s h
  have hr : receives acts = benchmarkReceives (ncli * msgs) := receives_of_returned h hpc
  have hpos := (benchmarkReceives_bounds (ncli * msgs)).1
  have hnone : s.answers + s.done.contents.length = 0 ↔ Along NoAnswerFirst acts :=
    (system (.bench ncli msgs)).iff_along (fun s => s.answers + s.done.contents.length = 0) rfl
      (fun acts s _ _ hs ha => unsignalled_step (inv_of_exec _ acts s hs) ha) acts s h
  rw [← hnone]
  constructor
  · intro hanswers
    -- it has received something, so that was the zero value of the closed channel
    cases hc : s.done.closed with
    | false =>
      have := (hi.opened hc).1
      omega
    | true =>
      rcases hi.drained hc with hw | hnil
      · omega
      · rw [hanswers, hnil]
        rfl
  · intro hsum
    omega

/-- When `benchmark` returns, the ACAs it received are as many as its total exactly when this is no more than an `int` has values and the
run has not mistaken a signal for another. -/
theorem bench_answered_iff {ncli msgs : Nat} {acts : List Act} {s : State} (h : (system (.bench ncli msgs)).exec acts = some s)
    (hpc : s.pc = .returned) :
    s.answers = ncli * msgs ↔ ncli * msgs ≤ intSize ∧ Along (Unmistaken (.bench ncli msgs)) acts := by
  rcases Nat.eq_zero_or_pos (ncli * msgs) with h0 | hpos
  · have hfits : ncli * msgs ≤ intSize := by
      rw [h0]
      exact Nat.zero_le _
    rw [and_iff_right hfits, Unmistaken, if_pos h0, ← bench_no_answers_iff h hpc, h0]
  · rw [Unmistaken, if_neg (Nat.ne_of_gt hpos)]
    by_cases hfits : ncli * msgs ≤ intSize
    · rw [and_iff_right hfits]
      exact bench_answers_iff hpos hfits h hpc
    · refine iff_of_false ?_ fun hboth => hfits hboth.1
      -- it receives no more often than its count has values
      have hal := (inv_of_exec _ acts s h).answers_le
      rw [receives_of_returned h hpc] at hal
      have hbound := (benchmarkReceives_bounds (ncli * msgs)).2
      omega

/-- A waiting `benchmark` returns exactly when as many ACAs as it makes receives have arrived, or an HMA. -/
theorem returns_iff {ncli msgs : Nat} {acts : List Act} {s : State} {count : Nat}
    (h : (system (.bench ncli msgs)).exec acts = some s) (hpc : s.pc = .waiting count) :
    Returns (.bench ncli msgs) acts s ↔ benchmarkReceives (ncli * msgs) ≤ arrivals .aca acts ∨ 0 < arrivals .hma acts := by
  have hi := inv_of_exec _ acts s h
  constructor
  · rintro ⟨-, n, s', hs', hpc'⟩
    have hsignals := signals_of_returned hs' hpc'
    rwa [arrivals_append_receives, arrivals_append_receives] at hsignals
  · intro hsignals
    refine ⟨step_timesOut (recv_ne_none hi hpc hsignals), (Mode.bench ncli msgs).receives - receives acts, ?_⟩
    have hlt := (hpc ▸ hi.received : Received (.bench ncli msgs) (receives acts) (.waiting count)).2.2
    exact returns_of_signals _ acts s count h hpc (by omega) hsignals

/-- When `main` returns, the answers it waits for have come (with `-bench`, exactly the ACAs of its total; with `-hello`, an HMA)
exactly when the total is no more than an `int` has values and the run has not mistaken a signal for another. And a waiting `benchmark`
does return exactly when as many ACAs as it makes receives have arrived, or an HMA: with a positive total, always when as many ACAs as
the total have arrived. -/
theorem success_iff (mode : Mode) (acts : List Act) (s : State) (h : (system mode).exec acts = some s) :
    (s.pc = .returned → (s.Answered mode ↔ mode.Fits ∧ Along (Unmistaken mode) acts)) ∧
    ∀ ncli msgs count, mode = .bench ncli msgs → s.pc = .waiting count →
      (Returns mode acts s ↔ benchmarkReceives (ncli * msgs) ≤ arrivals .aca acts ∨ 0 < arrivals .hma acts) ∧
      (0 < ncli * msgs → ncli * msgs ≤ arrivals .aca acts → Returns mode acts s) := by
  constructor
  · intro hpc
    cases mode with
    | bench ncli msgs => exact bench_answered_iff h hpc
    | hello => exact (hello_answered_iff h hpc).trans (and_iff_right trivial).symm
    | persistent => exact ⟨fun _ => ⟨trivial, fun _ _ _ _ => trivial⟩, fun _ => trivial⟩
  · intro ncli msgs count hb hpc
    subst hb
    refine ⟨returns_iff h hpc, fun hpos hle => (returns_iff h hpc).2 (Or.inl ?_)⟩
    exact Nat.le_trans (benchmarkReceives_le hpos) hle

/-- A run of `-bench` with one connection and two messages, both answered, and an HMA after both answers. -/
def answered : List Act := [.connects, .arrives 0 .aca, .receives, .arrives 0 .aca, .arrives 0 .hma]

/-- `success_iff`, in a run of `-bench` before and after it returns. -/
theorem success_answered :
    (∃ s, (system (.bench 1 2)).exec answered = some s ∧ Returns (.bench 1 2) answered s) ∧
    ∃ s, (system (.bench 1 2)).exec (answered ++ [.receives]) = some s ∧ s.pc = .returned ∧
      (s.Answered (.bench 1 2) ↔
        (Mode.bench 1 2).Fits ∧ Along (Unmistaken (.bench 1 2)) (answered ++ [.receives])) :=
  ⟨⟨_, rfl, ((success_iff (.bench 1 2) answered _ rfl).2 1 2 1 rfl rfl).2 (by decide) (by decide)⟩,
    ⟨_, rfl, rfl, (success_iff (.bench 1 2) (answered ++ [.receives]) _ rfl).1 rfl⟩⟩

/-- `benchmark` returns without the answer it waits for, after an HMA that nobody asked for; and `-hello` returns without an HMA,
after an ACA. -/
theorem success_without_answer :
    (∃ s, (system (.bench 1 1)).exec [.connects, .arrives 0 .hma, .receives] = some s ∧ s.pc = .returned ∧ s.answers = 0) ∧
    ∃ s, (system .hello).exec [.connects, .sends, .arrives 0 .aca, .receives] = some s ∧ s.pc = .returned ∧ s.hmas = 0 :=
  ⟨⟨_, rfl, rfl, rfl⟩, ⟨_, rfl, rfl, rfl⟩⟩

/-! ## Safety of the handlers -/

/-- In every mode, no handler has panicked, and none is blocked for ever on a channel that `main` never receives from, exactly when
every message that arrived was harmless. -/
theorem unharmed_iff (mode : Mode) (acts : List Act) (s : State) (h : (system mode).exec acts = some s) :
    s.Unharmed mode ↔ Along (Harmless mode) acts :=
  (system mode).iff_along (State.Unharmed mode) ⟨rfl, fun _ => rfl⟩
    (fun acts s _ _ hs ha => unharmed_step (inv_of_exec mode acts s hs) ha) acts s h

/-- `unharmed_iff`, in a run of `-bench` whose messages are all answered. -/
theorem unharmed_answered : ∃ s, (system (.bench 1 2)).exec answered = some s ∧
    (s.Unharmed (.bench 1 2) ↔ Along (Harmless (.bench 1 2)) answered) :=
  ⟨_, rfl, unharmed_iff (.bench 1 2) answered _ rfl⟩

/-- A peer that sends a second HMA makes its handler panic, in every mode that keeps running. -/
theorem second_hma_panics : ∃ s, (system .persistent).exec [.connects, .arrives 0 .hma, .arrives 0 .hma] = some s ∧
    ¬s.Unharmed .persistent :=
  ⟨_, rfl, fun hu => by cases hu.1⟩

/-! ## The persistent connection -/

/-- How often `connect` has failed since it last succeeded. -/
def failures (acts : List Act) : Nat :=
  acts.foldl (fun n a =>
    match a with
    | .connectFails => n + 1
    | .connects => 0
    | _ => n) 0

/-- What an action makes of the pause. -/
def pauseAfter (backoff : Nat) : Act → Nat
  | .connectFails => nextBackoff backoff
  | .connects => 1
  | _ => backoff

/-- Doubling the pause up to 20 seconds, as often as `connect` failed. -/
theorem nextBackoff_min (n : Nat) : nextBackoff (min (Nat.pow 2 n) 20) = min (Nat.pow 2 (n + 1)) 20 := by
  have hpow : Nat.pow 2 (n + 1) = Nat.pow 2 n * 2 := rfl
  rw [hpow]
  unfold nextBackoff
  split <;> omega

/-- After one more action the pause is again the one for the failures so far. -/
theorem pauseAfter_min (acts : List Act) (a : Act) :
    pauseAfter (min (Nat.pow 2 (failures acts)) 20) a = min (Nat.pow 2 (failures (acts ++ [a]))) 20 := by
  rw [failures, failures, List.foldl_append]
  cases a with
  | connectFails => exact nextBackoff_min _
  | connects => rfl
  | _ => rfl

/-- An action of a process without a flag. -/
theorem persistent_step {s s' : State} {a : Act} (h : step .persistent s a = some s') (hpc : s.pc = .connecting ∨ s.pc = .connected) :
    (s'.pc = .connecting ∨ s'.pc = .connected) ∧ s'.backoff = pauseAfter s.backoff a := by
  have hwaiting : ∀ count, s.pc ≠ .waiting count := by
    intro count hw
    simp [hw] at hpc
  cases a with
  | connects =>
    simp only [step, if_true, Option.ite_none_right_eq_some, Option.some.injEq] at h
    obtain ⟨-, rfl⟩ := h
    exact ⟨Or.inr rfl, rfl⟩
  | connectFails =>
    simp only [step, if_true, Option.ite_none_right_eq_some, Option.some.injEq] at h
    obtain ⟨hc, rfl⟩ := h
    exact ⟨Or.inl hc, rfl⟩
  | disconnects =>
    simp only [step, true_and, Option.ite_none_right_eq_some, Option.some.injEq] at h
    obtain ⟨-, rfl⟩ := h
    exact ⟨Or.inl rfl, rfl⟩
  | receives =>
    simp only [step] at h
    split at h
    · rename_i hw _
      exact absurd hw (hwaiting _)
    · cases h
  | timesOut =>
    simp only [step] at h
    split at h
    · rename_i hw _
      exact absurd hw (hwaiting _)
    · cases h
  | arrives c m =>
    simp only [step, Option.ite_none_right_eq_some, Option.some.injEq] at h
    obtain ⟨-, rfl⟩ := h
    cases m with
    | hma =>
      simp only [handle, handleHMA]
      split <;> exact ⟨hpc, rfl⟩
    | aca =>
      simp only [handle, handleACA]
      split <;> exact ⟨hpc, rfl⟩
  | sends => simp [step] at h
  | sendFails => simp [step] at h

/-- Without a flag, in every run: `main` connects or is connected, so it comes to no end of its own, and the pause after the latest failure
of `connect` is what it is after as many doublings as failures since it last succeeded, up to 20 seconds. -/
theorem persistent_backoff (acts : List Act) (s : State) (h : (system .persistent).exec acts = some s) :
    (s.pc = .connecting ∨ s.pc = .connected) ∧ s.backoff = min (Nat.pow 2 (failures acts)) 20 := by
  revert s
  refine (system .persistent).invariant (fun acts s => (s.pc = .connecting ∨ s.pc = .connected) ∧
    s.backoff = min (Nat.pow 2 (failures acts)) 20) ⟨Or.inl rfl, rfl⟩ ?_ acts
  intro acts s a s' _ ih ha
  obtain ⟨hpc, hbackoff⟩ := persistent_step ha ih.1
  refine ⟨hpc, ?_⟩
  rw [hbackoff, ih.2, pauseAfter_min]

/-- `persistent_backoff`, after a connection that went away and five failures. -/
theorem persistent_backoff_five : ∃ s,
    (system .persistent).exec ([.connects, .disconnects] ++ List.replicate 5 .connectFails) = some s ∧
    ((s.pc = .connecting ∨ s.pc = .connected) ∧
      s.backoff = min (Nat.pow 2 (failures ([.connects, .disconnects] ++ List.replicate 5 .connectFails))) 20) :=
  ⟨_, rfl, persistent_backoff ([.connects, .disconnects] ++ List.replicate 5 .connectFails) _ rfl⟩

end SockShop.Diameter
