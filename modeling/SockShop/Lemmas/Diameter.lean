import SockShop.Diameter

/-!
# The channel of the Diameter client over a run

Every action either leaves the channel alone, or is the arrival of a message, or a receive of `main` (`Moves`). While no HMA has
arrived the channel is open, and what is in it and what was received are together the ACAs that arrived; the first HMA closes it,
and from then on what is buffered is all that `main` will still receive for an ACA. The invariant `Inv` says so, together with how
many receives `main` has made where it stands; it holds in every state of every run (`inv_of_exec`).
-/

namespace SockShop.Diameter

open Machine

/-! ## What a step does -/

/-- How an action other than a receive may move `main`. -/
inductive PcMoves (mode : Mode) : Pc → Pc → Prop where
  | stays {pc : Pc} (h : pc ≠ .returned) : PcMoves mode pc pc
  | ends {pc : Pc} : PcMoves mode pc .fatal
  | dials (opened : Nat) : PcMoves mode .connecting (afterConnect opened mode)
  | sends (h : mode = .hello) : PcMoves mode .connected (.waiting 0)
  | disconnects : PcMoves mode .connected .connecting

/-- One action that the process can take, by what it does to the channel. -/
inductive Moves (mode : Mode) (s : State) : Act → State → Prop where
  | quiet {a : Act} {s' : State} (ha : a ≠ .receives) (hm : ∀ m, a.isArrival m = false) (hpc : PcMoves mode s.pc s'.pc)
      (hd : s'.done = s.done) (hh : s'.hmas = s.hmas) (hw : s'.answers = s.answers) (hp : s'.panicked = s.panicked) :
      Moves mode s a s'
  | aca (c : Nat) {done : GoChan Unit} (hpc : s.pc ≠ .returned) (ho : s.done.closed = false)
      (hd : done.contents = s.done.contents ++ [()]) (hc : done.closed = false) (hcap : done.cap = s.done.cap) :
      Moves mode s (.arrives c .aca) { s with done := done }
  | acaPanics (c : Nat) (hpc : s.pc ≠ .returned) (hc : s.done.closed = true) :
      Moves mode s (.arrives c .aca) { s with panicked := true }
  | hma (c : Nat) {done : GoChan Unit} (hpc : s.pc ≠ .returned) (ho : s.done.closed = false)
      (hd : done.contents = s.done.buf) (hc : done.closed = true) (hcap : done.cap = s.done.cap) :
      Moves mode s (.arrives c .hma)
        { s with done := done, hmas := s.hmas + 1, panicked := s.panicked || !s.done.waiting.isEmpty }
  | hmaPanics (c : Nat) (hpc : s.pc ≠ .returned) (hc : s.done.closed = true) :
      Moves mode s (.arrives c .hma) { s with hmas := s.hmas + 1, panicked := true }
  | answer {count : Nat} {done : GoChan Unit} {rest : List Unit} (hpc : s.pc = .waiting count)
      (hs : s.done.contents = () :: rest) (hd : done.contents = rest) (hc : done.closed = s.done.closed)
      (hcap : done.cap = s.done.cap) :
      Moves mode s .receives { s with done := done, answers := s.answers + 1, pc := afterReceive count mode }
  | zero {count : Nat} (hpc : s.pc = .waiting count) (hs : s.done.contents = []) (hc : s.done.closed = true) :
      Moves mode s .receives { s with pc := afterReceive count mode }

/-- An invocation of `handleACA`. -/
theorem moves_handleACA (mode : Mode) {s : State} (c : Nat) (hpc : s.pc ≠ .returned) :
    Moves mode s (.arrives c .aca) (handleACA s) := by
  cases hc : s.done.closed with
  | true =>
    rw [handleACA, GoChan.send_closed hc]
    exact .acaPanics c hpc hc
  | false =>
    obtain ⟨done, hs, hd, hc', hcap⟩ := GoChan.send_open hc ()
    rw [handleACA, hs]
    exact .aca c hpc hc hd hc' hcap

/-- An invocation of `handleHMA`. -/
theorem moves_handleHMA (mode : Mode) {s : State} (c : Nat) (hpc : s.pc ≠ .returned) :
    Moves mode s (.arrives c .hma) (handleHMA s) := by
  cases hc : s.done.closed with
  | true =>
    rw [handleHMA, GoChan.close_closed hc]
    exact .hmaPanics c hpc hc
  | false =>
    obtain ⟨done, hs, hd, hc', hcap⟩ := GoChan.close_open hc
    rw [handleHMA, hs]
    exact .hma c hpc hc hd hc' hcap

/-- A receive of `main`, at the `select`. -/
theorem moves_receives {mode : Mode} {s s' : State} (h : step mode s .receives = some s') : Moves mode s .receives s' := by
  simp only [step] at h
  split at h
  · rename_i count v done hpc hr
    cases h
    cases hs : s.done.contents with
    | cons u rest =>
      obtain ⟨done', hr', hd, hc, hcap⟩ := GoChan.recv_cons hs
      rw [hr, Option.some.injEq, Prod.mk.injEq] at hr'
      obtain ⟨rfl, rfl⟩ := hr'
      exact .answer hpc hs hd hc hcap
    | nil =>
      rw [GoChan.recv_nil hs, Option.ite_none_right_eq_some, Option.some.injEq, Prod.mk.injEq] at hr
      obtain ⟨hc, rfl, rfl⟩ := hr
      exact .zero hpc hs hc
  · cases h

/-- Every step of the process is one of these moves. -/
theorem moves_of_step {mode : Mode} {s s' : State} {a : Act} (h : step mode s a = some s') : Moves mode s a s' := by
  cases a with
  | connects =>
    simp only [step, Option.ite_none_right_eq_some, Option.some.injEq] at h
    obtain ⟨hpc, rfl⟩ := h
    exact .quiet (by simp) (fun _ => rfl) (hpc ▸ .dials _) rfl rfl rfl rfl
  | connectFails =>
    simp only [step, Option.ite_none_right_eq_some] at h
    obtain ⟨hpc, h⟩ := h
    split at h
    · cases h
      exact .quiet (by simp) (fun _ => rfl) (.stays (by simp [hpc])) rfl rfl rfl rfl
    · cases h
      exact .quiet (by simp) (fun _ => rfl) .ends rfl rfl rfl rfl
  | sends =>
    simp only [step, Option.ite_none_right_eq_some, Option.some.injEq] at h
    obtain ⟨⟨hm, hpc⟩, rfl⟩ := h
    exact .quiet (by simp) (fun _ => rfl) (hpc ▸ .sends hm) rfl rfl rfl rfl
  | sendFails =>
    simp only [step] at h
    split at h
    · cases h
      exact .quiet (by simp) (fun _ => rfl) .ends rfl rfl rfl rfl
    · cases h
      exact .quiet (by simp) (fun _ => rfl) .ends rfl rfl rfl rfl
    · cases h
  | disconnects =>
    simp only [step, Option.ite_none_right_eq_some, Option.some.injEq] at h
    obtain ⟨⟨-, hpc⟩, rfl⟩ := h
    exact .quiet (by simp) (fun _ => rfl) (hpc ▸ .disconnects) rfl rfl rfl rfl
  | receives => exact moves_receives h
  | timesOut =>
    simp only [step] at h
    split at h
    · cases h
      exact .quiet (by simp) (fun _ => rfl) .ends rfl rfl rfl rfl
    · cases h
  | arrives c m =>
    simp only [step, Option.ite_none_right_eq_some, Option.some.injEq] at h
    obtain ⟨⟨hr, -⟩, rfl⟩ := h
    have hpc : s.pc ≠ .returned := by
      intro he
      simp [State.running, he] at hr
    cases m with
    | hma => exact moves_handleHMA mode c hpc
    | aca => exact moves_handleACA mode c hpc

/-! ## Counting what a run did -/

theorem arrivals_snoc (m : Message) (acts : List Act) (a : Act) :
    arrivals m (acts ++ [a]) = arrivals m acts + if a.isArrival m then 1 else 0 := by
  simp [arrivals, List.countP_append, List.countP_singleton]

theorem receives_snoc (acts : List Act) (a : Act) :
    receives (acts ++ [a]) = receives acts + if a = .receives then 1 else 0 := by
  by_cases h : a = .receives <;> simp [receives, List.count_append, h]

/-- An action that is not the arrival of a message does not count as one. -/
theorem arrivals_of_not {m : Message} {acts : List Act} {a : Act} (h : a.isArrival m = false) :
    arrivals m (acts ++ [a]) = arrivals m acts := by
  rw [arrivals_snoc, h]
  rfl

/-- An action that is not a receive does not count as one. -/
theorem receives_of_ne {acts : List Act} {a : Act} (h : a ≠ .receives) : receives (acts ++ [a]) = receives acts := by
  rw [receives_snoc, if_neg h, Nat.add_zero]

@[simp] theorem receives_receives (acts : List Act) : receives (acts ++ [.receives]) = receives acts + 1 := by
  rw [receives_snoc, if_pos rfl]

@[simp] theorem receives_arrives (acts : List Act) (c : Nat) (m : Message) :
    receives (acts ++ [.arrives c m]) = receives acts :=
  receives_of_ne (by simp)

@[simp] theorem arrivals_receives (m : Message) (acts : List Act) : arrivals m (acts ++ [.receives]) = arrivals m acts :=
  arrivals_of_not rfl

@[simp] theorem arrivals_arrives (m m' : Message) (acts : List Act) (c : Nat) :
    arrivals m (acts ++ [.arrives c m']) = arrivals m acts + if m' = m then 1 else 0 := by
  simp [arrivals_snoc, Act.isArrival]

/-! ## The invariant -/

/-- `benchmark` receives at least once, and at most once for each value of the count. -/
theorem benchmarkReceives_bounds (total : Nat) : 0 < benchmarkReceives total ∧ benchmarkReceives total ≤ intSize := by
  have hlt : total % intSize < intSize := Nat.mod_lt _ (by decide)
  by_cases h : total % intSize = 0
  · rw [benchmarkReceives, if_pos h]
    exact ⟨by decide, Nat.le_refl _⟩
  · rw [benchmarkReceives, if_neg h]
    exact ⟨Nat.pos_of_ne_zero h, Nat.le_of_lt hlt⟩

/-- Within these bounds the comparison of `benchmark` finds that one number. -/
theorem mod_eq_iff_benchmarkReceives {k total : Nat} (h0 : 0 < k) (hk : k ≤ intSize) :
    k % intSize = total % intSize ↔ k = benchmarkReceives total := by
  rcases Nat.lt_or_eq_of_le hk with hlt | rfl
  · rw [Nat.mod_eq_of_lt hlt, benchmarkReceives]
    by_cases h : total % intSize = 0
    · rw [if_pos h, h]
      constructor
      · intro he
        exact absurd he (Nat.ne_of_gt h0)
      · intro he
        exact absurd he (Nat.ne_of_lt hlt)
    · rw [if_neg h]
  · have hlt : total % intSize < intSize := Nat.mod_lt _ h0
    rw [Nat.mod_self, benchmarkReceives]
    by_cases h : total % intSize = 0
    · rw [if_pos h, h]
      exact ⟨fun _ => rfl, fun _ => rfl⟩
    · rw [if_neg h]
      constructor
      · intro he
        exact absurd he.symm h
      · intro he
        exact absurd he.symm (Nat.ne_of_lt hlt)

/-- A total that fits an `int` is received exactly. -/
theorem benchmarkReceives_eq {total : Nat} (h0 : 0 < total) (h : total ≤ intSize) : benchmarkReceives total = total :=
  ((mod_eq_iff_benchmarkReceives h0 h).1 rfl).symm

/-- And never more often than a positive total says. -/
theorem benchmarkReceives_le {total : Nat} (h : 0 < total) : benchmarkReceives total ≤ total := by
  rcases Nat.le_total total intSize with hle | hle
  · exact Nat.le_of_eq (benchmarkReceives_eq h hle)
  · exact Nat.le_trans (benchmarkReceives_bounds total).2 hle

/-- How many receives `main` makes before it returns. -/
def Mode.receives : Mode → Nat
  | .bench ncli msgs => benchmarkReceives (ncli * msgs)
  | .hello => 1
  | .persistent => 0

/-- How many receives `main` has made where it stands. -/
def Received (mode : Mode) (r : Nat) : Pc → Prop
  | .connecting | .connected => r = 0
  | .waiting count => mode ≠ .persistent ∧ count = r ∧ r < mode.receives
  | .returned => mode ≠ .persistent ∧ r = mode.receives
  | .fatal => mode = .persistent → r = 0

/-- Only a receive makes `main` return. -/
theorem PcMoves.ne_returned {mode : Mode} {pc pc' : Pc} (h : PcMoves mode pc pc') : pc' ≠ .returned := by
  cases h with
  | stays h => exact h
  | dials opened =>
    cases mode with
    | bench ncli msgs =>
      simp only [afterConnect, dialled]
      split <;> simp
    | hello => simp [afterConnect]
    | persistent => simp [afterConnect]
  | _ => simp

/-- Without a flag `main` receives nothing. -/
theorem Received.of_persistent {mode : Mode} {r : Nat} {pc : Pc} (h : Received mode r pc) (hm : mode = .persistent) : r = 0 := by
  cases pc with
  | connecting => exact h
  | connected => exact h
  | waiting count => exact absurd hm h.1
  | returned => exact absurd hm h.1
  | fatal => exact h hm

/-- `main` receives at least once before it returns, except without a flag. -/
theorem Mode.receives_pos {mode : Mode} (h : mode ≠ .persistent) : 0 < mode.receives := by
  cases mode with
  | bench ncli msgs => exact (benchmarkReceives_bounds _).1
  | hello => exact Nat.one_pos
  | persistent => exact absurd rfl h

/-- Where `main` stands after an action other than a receive. -/
theorem Received.moves {mode : Mode} {r : Nat} {pc pc' : Pc} (h : Received mode r pc) (hm : PcMoves mode pc pc') :
    Received mode r pc' := by
  cases hm with
  | stays _ => exact h
  | ends => exact fun hp => h.of_persistent hp
  | dials opened =>
    have hr : r = 0 := h
    subst hr
    cases mode with
    | bench ncli msgs =>
      simp only [afterConnect, dialled]
      split
      · exact ⟨by simp, rfl, Mode.receives_pos (by simp)⟩
      · rfl
    | hello => rfl
    | persistent => rfl
  | sends hh =>
    have hr : r = 0 := h
    subst hh hr
    exact ⟨by simp, rfl, Nat.one_pos⟩
  | disconnects => exact h

/-- Where `main` stands after a receive. -/
theorem Received.receive {mode : Mode} {r count : Nat} (h : Received mode r (.waiting count)) :
    Received mode (r + 1) (afterReceive count mode) := by
  obtain ⟨hm, rfl, hlt⟩ := h
  cases mode with
  | bench ncli msgs =>
    have hle : count + 1 ≤ intSize := Nat.le_trans hlt (benchmarkReceives_bounds _).2
    rw [afterReceive]
    split
    · rename_i he
      exact ⟨hm, (mod_eq_iff_benchmarkReceives (Nat.succ_pos _) hle).1 he⟩
    · rename_i he
      rw [mod_eq_iff_benchmarkReceives (Nat.succ_pos _) hle] at he
      have hne : count + 1 < benchmarkReceives (ncli * msgs) := Nat.lt_of_le_of_ne hlt he
      exact ⟨hm, Nat.mod_eq_of_lt (Nat.lt_of_lt_of_le hne (benchmarkReceives_bounds _).2), hne⟩
  | hello =>
    have hr : count = 0 := Nat.lt_one_iff.1 hlt
    subst hr
    exact ⟨hm, rfl⟩
  | persistent => exact absurd rfl hm

/-- The invariant of a run: the channel against what arrived and what was received. -/
structure Inv (mode : Mode) (acts : List Act) (s : State) : Prop where
  cap : s.done.cap = capacity
  hmas : s.hmas = arrivals .hma acts
  closed : s.done.closed = true ↔ 0 < s.hmas
  received : Received mode (receives acts) s.pc
  opened : s.done.closed = false → s.answers = receives acts ∧ s.done.contents.length + receives acts = arrivals .aca acts
  drained : s.done.closed = true → s.answers = receives acts ∨ s.done.contents = []
  answers_le : s.answers ≤ receives acts
  signalled_le : s.answers + s.done.buf.length ≤ arrivals .aca acts

theorem inv_start (mode : Mode) : Inv mode [] (start mode) where
  cap := rfl
  hmas := rfl
  closed := by simp [start]
  received := by
    cases mode with
    | bench ncli msgs => exact Received.moves (show Received (.bench ncli msgs) 0 .connecting from rfl) (.dials 0)
    | hello => rfl
    | persistent => rfl
  opened _ := ⟨rfl, rfl⟩
  drained h := by cases h
  answers_le := Nat.le_refl _
  signalled_le := Nat.le_refl _

/-- Every step keeps the invariant. -/
theorem inv_step {mode : Mode} {acts : List Act} {s s' : State} {a : Act} (hi : Inv mode acts s) (h : step mode s a = some s') :
    Inv mode (acts ++ [a]) s' := by
  have hal := hi.answers_le
  have hsig := hi.signalled_le
  cases moves_of_step h with
  | quiet ha hm hpc hd hh hw hp =>
    have hr : receives (acts ++ [a]) = receives acts := receives_of_ne ha
    have hn : ∀ m, arrivals m (acts ++ [a]) = arrivals m acts := fun m => arrivals_of_not (hm m)
    refine ⟨by rw [hd, hi.cap], by rw [hn, hh, hi.hmas], by rw [hd, hh, hi.closed], by rw [hr]; exact hi.received.moves hpc,
      ?_, ?_, by rw [hr, hw]; exact hal, by rw [hd, hn, hw]; exact hsig⟩
    · rw [hd, hr, hn, hw]
      exact hi.opened
    · rw [hd, hr, hw]
      exact hi.drained
  | @aca c done hpc ho hd hc hcap =>
    obtain ⟨hw, hq⟩ := hi.opened ho
    have hlen : done.contents.length = s.done.contents.length + 1 := by rw [hd, List.length_append, List.length_singleton]
    have hbuf : done.buf.length ≤ done.contents.length := GoChan.length_buf_le done
    have hclosed : ¬0 < s.hmas := fun h0 => by simp [hi.closed.2 h0] at ho
    refine ⟨hcap.trans hi.cap, by simp [hi.hmas], by simpa [hc] using hclosed, by simpa using hi.received, ?_, ?_,
      by simpa using hal, ?_⟩
    · intro _
      rw [receives_arrives, arrivals_arrives, if_pos rfl, hlen]
      exact ⟨hw, by omega⟩
    · intro hcl
      exact absurd (hc.symm.trans hcl) (by simp)
    · rw [arrivals_arrives, if_pos rfl]
      change s.answers + done.buf.length ≤ _
      omega
  | acaPanics c hpc hc =>
    refine ⟨hi.cap, by simpa using hi.hmas, hi.closed, by simpa using hi.received, ?_, by simpa using hi.drained,
      by simpa using hal, ?_⟩
    · intro ho
      exact absurd (hc.symm.trans ho) (by simp)
    · rw [arrivals_arrives]
      exact Nat.le_trans hsig (Nat.le_add_right _ _)
  | @hma c done hpc ho hd hc hcap =>
    obtain ⟨hw, -⟩ := hi.opened ho
    have hbuf : done.buf = s.done.buf := (GoChan.contents_of_closed hc).symm.trans hd
    refine ⟨hcap.trans hi.cap, by simp [hi.hmas], by simp [hc], by simpa using hi.received, ?_, ?_, by simpa using hal,
      by simpa [hbuf] using hsig⟩
    · intro ho'
      exact absurd (hc.symm.trans ho') (by simp)
    · intro _
      exact Or.inl (by simpa using hw)
  | hmaPanics c hpc hc =>
    refine ⟨hi.cap, by simp [hi.hmas], by simp [hc], by simpa using hi.received, ?_, by simpa using hi.drained,
      by simpa using hal, by simpa using hsig⟩
    intro ho
    exact absurd (hc.symm.trans ho) (by simp)
  | @answer count done rest hpc hs hd hc hcap =>
    have hlen : s.done.contents.length = done.contents.length + 1 := by rw [hs, hd, List.length_cons]
    have hrec : Received mode (receives acts + 1) (afterReceive count mode) := Received.receive (hpc ▸ hi.received)
    have hbuf : done.buf.length ≤ done.contents.length := GoChan.length_buf_le done
    refine ⟨hcap.trans hi.cap, by simpa using hi.hmas, by rw [hc]; exact hi.closed, by simpa using hrec, ?_, ?_, ?_, ?_⟩
    · intro ho
      obtain ⟨hw, hq⟩ := hi.opened (hc ▸ ho)
      rw [receives_receives, arrivals_receives, hw]
      refine ⟨rfl, ?_⟩
      change done.contents.length + _ = _
      omega
    · intro hcl
      left
      rcases hi.drained (hc ▸ hcl) with hw | hnil
      · rw [receives_receives, hw]
      · rw [hs] at hnil
        cases hnil
    · rw [receives_receives]
      exact Nat.succ_le_succ hal
    · rw [arrivals_receives]
      change s.answers + 1 + done.buf.length ≤ _
      cases ho : s.done.closed with
      | false =>
        obtain ⟨hw, hq⟩ := hi.opened ho
        omega
      | true =>
        rw [← GoChan.contents_of_closed ho] at hsig
        omega
  | @zero count hpc hs hc =>
    have hrec : Received mode (receives acts + 1) (afterReceive count mode) := Received.receive (hpc ▸ hi.received)
    refine ⟨hi.cap, by simpa using hi.hmas, hi.closed, by simpa using hrec, ?_, ?_, ?_, by simpa using hsig⟩
    · intro ho
      exact absurd (hc.symm.trans ho) (by simp)
    · intro _
      exact Or.inr hs
    · rw [receives_receives]
      exact Nat.le_succ_of_le hal

/-- The invariant holds in every state of every run. -/
theorem inv_of_exec (mode : Mode) : ∀ acts s, (system mode).exec acts = some s → Inv mode acts s :=
  (system mode).invariant (Inv mode) (inv_start mode) fun _ _ _ _ _ hi h => inv_step hi h

/-! ## The handlers -/

/-- The blocked handlers of an open channel are those of the ACAs beyond its capacity and what was received. -/
theorem waiting_eq_nil_iff {mode : Mode} {acts : List Act} {s : State} (hi : Inv mode acts s) (ho : s.done.closed = false) :
    s.done.waiting = [] ↔ arrivals .aca acts ≤ capacity + receives acts := by
  have hq := (hi.opened ho).2
  rw [GoChan.waiting_eq_nil_iff, hi.cap]
  omega

/-- The channel is open until an HMA arrives. -/
theorem open_iff {mode : Mode} {acts : List Act} {s : State} (hi : Inv mode acts s) :
    s.done.closed = false ↔ arrivals .hma acts = 0 := by
  rw [← hi.hmas, ← Bool.not_eq_true, hi.closed]
  omega

/-- What one action does to the handlers: they stay unharmed exactly when they were and the action is harmless. -/
theorem unharmed_step {mode : Mode} {acts : List Act} {s s' : State} {a : Act} (hi : Inv mode acts s)
    (h : step mode s a = some s') : s'.Unharmed mode ↔ s.Unharmed mode ∧ Harmless mode acts a := by
  cases moves_of_step h with
  | quiet ha hm hpc hd hh hw hp =>
    have hok : Harmless mode acts a := by
      cases a with
      | arrives c m => simpa [Act.isArrival] using hm m
      | _ => trivial
    simp only [State.Unharmed, hd, hp, hok, and_true]
  | @aca c done hpc ho hd hc hcap =>
    have hlen : done.contents.length = s.done.contents.length + 1 := by rw [hd, List.length_append, List.length_singleton]
    have hopen := (open_iff hi).1 ho
    have hw := waiting_eq_nil_iff hi ho
    have hq := (hi.opened ho).2
    have hw' : done.waiting = [] ↔ arrivals .aca acts < capacity + receives acts := by
      rw [GoChan.waiting_eq_nil_iff, hcap, hi.cap]
      omega
    have hr : mode = .persistent → receives acts = 0 := hi.received.of_persistent
    constructor
    · rintro ⟨hp, hb⟩
      have hlt : mode = .persistent → arrivals .aca acts < capacity + receives acts := fun hm => hw'.1 (hb hm)
      refine ⟨⟨hp, ?_⟩, hopen, ?_⟩
      · intro hm
        exact hw.2 (Nat.le_of_lt (hlt hm))
      · intro hm
        have := hlt hm
        rwa [hr hm, Nat.add_zero] at this
    · rintro ⟨⟨hp, -⟩, -, hlt⟩
      refine ⟨hp, ?_⟩
      intro hm
      rw [hw', hr hm, Nat.add_zero]
      exact hlt hm
  | acaPanics c hpc hc =>
    have hclosed : ¬arrivals .hma acts = 0 := fun h0 => by simp [(open_iff hi).2 h0] at hc
    constructor
    · rintro ⟨hp, -⟩
      cases hp
    · rintro ⟨-, hno, -⟩
      exact absurd hno hclosed
  | @hma c done hpc ho hd hc hcap =>
    have hopen := (open_iff hi).1 ho
    have hw := waiting_eq_nil_iff hi ho
    have hnil : done.waiting = [] := done.open_of_waiting hc
    constructor
    · rintro ⟨hp, -⟩
      simp only [Bool.or_eq_false_iff, Bool.not_eq_false', List.isEmpty_iff] at hp
      exact ⟨⟨hp.1, fun _ => hp.2⟩, hopen, hw.1 hp.2⟩
    · rintro ⟨⟨hp, -⟩, -, hle⟩
      exact ⟨by simp [hp, hw.2 hle], fun _ => hnil⟩
  | hmaPanics c hpc hc =>
    have hclosed : ¬arrivals .hma acts = 0 := fun h0 => by simp [(open_iff hi).2 h0] at hc
    constructor
    · rintro ⟨hp, -⟩
      cases hp
    · rintro ⟨-, hno, -⟩
      exact absurd hno hclosed
  | answer hpc hs hd hc hcap =>
    have hm : mode ≠ .persistent := (hpc ▸ hi.received : Received mode (receives acts) (.waiting _)).1
    constructor
    · rintro ⟨hp, -⟩
      exact ⟨⟨hp, fun h' => absurd h' hm⟩, trivial⟩
    · rintro ⟨⟨hp, -⟩, -⟩
      exact ⟨hp, fun h' => absurd h' hm⟩
  | zero hpc hs hc => exact (and_iff_left trivial).symm

/-! ## What `main` takes for an answer -/

/-- What one action does to the number of ACAs that `main` has received or will receive from a closed channel: it stays at least
`total` exactly when it was and no HMA comes too early. -/
theorem signalled_step {mode : Mode} {total : Nat} {acts : List Act} {s s' : State} {a : Act} (hi : Inv mode acts s)
    (h : step mode s a = some s') :
    (s'.done.closed = true → total ≤ s'.answers + s'.done.buf.length) ↔
      (s.done.closed = true → total ≤ s.answers + s.done.buf.length) ∧ LateHMA total acts a := by
  cases moves_of_step h with
  | quiet ha hm hpc hd hh hw hp => simp [LateHMA, hm, hd, hw]
  | aca c hpc ho hd hc hcap => simp [LateHMA, Act.isArrival, ho, hc]
  | acaPanics c hpc hc => simp [LateHMA, Act.isArrival]
  | @hma c done hpc ho hd hc hcap =>
    obtain ⟨hw, hq⟩ := hi.opened ho
    have hbuf : done.buf = s.done.buf := (GoChan.contents_of_closed hc).symm.trans hd
    have hlen : s.done.buf.length = min capacity s.done.contents.length := hi.cap ▸ GoChan.length_buf _
    simp only [LateHMA, Act.isArrival, ho, hc, hbuf, decide_true, forall_const, Bool.false_eq_true, false_implies, true_and]
    omega
  | hmaPanics c hpc hc =>
    have hcap : s.done.buf.length ≤ capacity := hi.cap ▸ s.done.buf_le
    have hsig := hi.signalled_le
    have hal := hi.answers_le
    simp only [LateHMA, Act.isArrival, hc, decide_true, forall_const]
    omega
  | @answer count done rest hpc hs hd hc hcap =>
    simp only [LateHMA, Act.isArrival, hc, Bool.false_eq_true, false_implies, and_true]
    refine forall_congr' fun hcl => ?_
    rw [← GoChan.contents_of_closed hcl, ← GoChan.contents_of_closed (hc.trans hcl), hs, hd, List.length_cons]
    omega
  | zero hpc hs hc => simp [LateHMA, Act.isArrival]

/-- What one action does to the number of ACAs that `main` has received or may still receive: it stays 0 exactly when it was and no ACA
comes before an HMA. -/
theorem unsignalled_step {mode : Mode} {acts : List Act} {s s' : State} {a : Act} (hi : Inv mode acts s)
    (h : step mode s a = some s') :
    s'.answers + s'.done.contents.length = 0 ↔ s.answers + s.done.contents.length = 0 ∧ NoAnswerFirst acts a := by
  cases moves_of_step h with
  | quiet ha hm hpc hd hh hw hp => simp [NoAnswerFirst, hm, hd, hw]
  | aca c hpc ho hd hc hcap =>
    have hopen := (open_iff hi).1 ho
    simp [NoAnswerFirst, Act.isArrival, hopen, hd]
  | acaPanics c hpc hc =>
    have hclosed : 0 < arrivals .hma acts := hi.hmas ▸ hi.closed.1 hc
    simp [NoAnswerFirst, hclosed]
  | @hma c done hpc ho hd hc hcap =>
    have hlen : s.done.buf.length = min capacity s.done.contents.length := hi.cap ▸ GoChan.length_buf _
    have hpos : 0 < capacity := by decide
    simp only [NoAnswerFirst, Act.isArrival, reduceCtorEq, decide_false, Bool.false_eq_true, false_implies, and_true, hd]
    omega
  | hmaPanics c hpc hc => simp [NoAnswerFirst, Act.isArrival]
  | answer hpc hs hd hc hcap => simp [hs]
  | zero hpc hs hc => simp [NoAnswerFirst, Act.isArrival]

/-- A run without a receive takes no signal for another. -/
theorem noStraySignal_of_receives_zero {acts : List Act} (h : receives acts = 0) : Along NoStraySignal acts := by
  intro pre a post hp ha
  subst hp ha
  simp [receives] at h

/-- A receive takes the signal of an ACA for that of an HMA exactly when no HMA has been handled. -/
theorem noStraySignal_iff {mode : Mode} {acts : List Act} {s : State} (hi : Inv mode acts s) (hr : receives acts = 0)
    (hs : s.done.contents ≠ [] ∨ s.done.closed = true) : NoStraySignal acts .receives ↔ 1 ≤ s.hmas := by
  cases hc : s.done.closed with
  | true =>
    have hh : 0 < s.hmas := hi.closed.1 hc
    constructor
    · intro _
      exact hh
    · intro _ _
      exact Or.inr (hi.hmas ▸ hh)
  | false =>
    have hopen := (open_iff hi).1 hc
    have hq := (hi.opened hc).2
    have hlen : 0 < s.done.contents.length := List.length_pos_iff.2 (hs.resolve_right (by simp [hc]))
    have hno : ¬(arrivals .aca acts = 0 ∨ 0 < arrivals .hma acts) := by omega
    constructor
    · intro h
      exact absurd (h rfl) hno
    · intro h
      rw [hi.hmas, hopen] at h
      cases h

/-- With an HMA or enough ACAs arrived, a waiting `main` has a signal to receive. -/
theorem recv_ne_none {mode : Mode} {acts : List Act} {s : State} {count : Nat} (hi : Inv mode acts s)
    (hpc : s.pc = .waiting count) (h : mode.receives ≤ arrivals .aca acts ∨ 0 < arrivals .hma acts) : s.done.recv ≠ none := by
  cases hs : s.done.contents with
  | cons u rest =>
    obtain ⟨done, hr, -⟩ := GoChan.recv_cons hs
    simp [hr]
  | nil =>
    obtain ⟨-, -, hlt⟩ : Received mode (receives acts) (.waiting count) := hpc ▸ hi.received
    cases hc : s.done.closed with
    | true => simp [GoChan.recv_nil hs, hc]
    | false =>
      have hq := (hi.opened hc).2
      have hopen := (open_iff hi).1 hc
      rw [hs, List.length_nil] at hq
      omega

/-- A waiting `main` with a signal to receive can receive it. -/
theorem step_receives {mode : Mode} {s : State} {count : Nat} (hpc : s.pc = .waiting count) (h : s.done.recv ≠ none) :
    ∃ s', step mode s .receives = some s' ∧ s'.pc = afterReceive count mode := by
  obtain ⟨⟨v, done⟩, hr⟩ := Option.ne_none_iff_exists'.1 h
  refine ⟨{ s with done := done, answers := s.answers + v.toList.length, pc := afterReceive count mode }, ?_, rfl⟩
  simp only [step, hpc, hr]

/-- A waiting `main` with a signal to receive does not time out. -/
theorem step_timesOut {mode : Mode} {s : State} (h : s.done.recv ≠ none) : step mode s .timesOut = none := by
  obtain ⟨⟨v, done⟩, hr⟩ := Option.ne_none_iff_exists'.1 h
  cases hpc : s.pc <;> simp [step, hpc, hr]

/-- A waiting `main` returns after the receives it has still to make, `k` of them, once as many ACAs as it receives have arrived, or an
HMA. -/
theorem returns_of_signals {mode : Mode} (k : Nat) : ∀ acts s count, (system mode).exec acts = some s →
    s.pc = .waiting count → receives acts + k = mode.receives → mode.receives ≤ arrivals .aca acts ∨ 0 < arrivals .hma acts →
    ∃ s', (system mode).exec (acts ++ List.replicate k .receives) = some s' ∧ s'.pc = .returned := by
  induction k with
  | zero =>
    intro acts s count h hpc hk _
    obtain ⟨-, -, hlt⟩ : Received mode (receives acts) (.waiting count) := hpc ▸ (inv_of_exec mode acts s h).received
    exact absurd hk (Nat.ne_of_lt hlt)
  | succ k ih =>
    intro acts s count h hpc hk hsignals
    have hi := inv_of_exec mode acts s h
    obtain ⟨s₁, hs₁, hpc₁⟩ := step_receives hpc (recv_ne_none hi hpc hsignals)
    have h₁ : (system mode).exec (acts ++ [.receives]) = some s₁ := ((system mode).exec_snoc_iff).2 ⟨s, h, hs₁⟩
    have hr₁ := (inv_of_exec mode _ s₁ h₁).received
    have happ : acts ++ List.replicate (k + 1) Act.receives = acts ++ [.receives] ++ List.replicate k .receives := by
      rw [List.replicate_succ, List.append_assoc, List.singleton_append]
    rw [receives_receives] at hr₁
    rw [happ]
    cases hp : s₁.pc with
    | waiting count' =>
      exact ih _ s₁ count' h₁ hp (by rw [receives_receives]; omega) (by rwa [arrivals_receives, arrivals_receives])
    | returned =>
      have hk0 : k = 0 := by
        have := (hp ▸ hr₁ : Received mode (receives acts + 1) .returned).2
        omega
      subst hk0
      exact ⟨s₁, by rwa [List.replicate_zero, List.append_nil], hp⟩
    | _ =>
      rw [hpc₁] at hp
      cases mode <;> simp only [afterReceive, reduceCtorEq] at hp
      split at hp <;> cases hp

/-- Receives are no arrivals. -/
theorem arrivals_append_receives (m : Message) (acts : List Act) (n : Nat) :
    arrivals m (acts ++ List.replicate n .receives) = arrivals m acts := by
  rw [arrivals, List.countP_append, List.countP_replicate]
  rfl

/-- Where it does return, as many ACAs as it receives have arrived, or an HMA. -/
theorem signals_of_returned {mode : Mode} {acts : List Act} {s : State} (h : (system mode).exec acts = some s)
    (hpc : s.pc = .returned) : mode.receives ≤ arrivals .aca acts ∨ 0 < arrivals .hma acts := by
  have hi := inv_of_exec mode acts s h
  have hr : receives acts = mode.receives := (hpc ▸ hi.received : Received mode (receives acts) .returned).2
  cases hc : s.done.closed with
  | true => exact Or.inr (hi.hmas ▸ hi.closed.1 hc)
  | false =>
    have hq := (hi.opened hc).2
    exact Or.inl (by omega)

end SockShop.Diameter
