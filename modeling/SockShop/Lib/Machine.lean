import Mathlib.Data.List.Induction

/-!
# Machines: systems of parties as one step function over actions

A machine has a first state and a step function; the action names who moves and how, so an interleaving of several parties is a
list of actions, oldest first, and `exec` runs it (none when some action cannot be taken where it stands). What holds in every state
of every run is proved by `Machine.invariant`, whose statement may speak of the actions taken so far. Where the actions of a kind are
bounded, every run can go on to a state without any (`comes_to_rest`). `Refinement` says that a machine, seen through a function of its
states and a reading of its actions, does what another one does; its runs are then runs of the other.
-/

/-- A machine over states `σ` and actions `α`. -/
structure Machine (σ α : Type) where
  init : σ
  step : σ → α → Option σ

namespace Machine

variable {σ α : Type} (M : Machine σ α)

/-- The state after a list of actions; none when one of them cannot be taken. -/
def exec (acts : List α) : Option σ := acts.foldlM M.step M.init

@[simp] theorem exec_nil : M.exec [] = some M.init := rfl

/-- A run and one more action. -/
theorem exec_snoc (acts : List α) (a : α) : M.exec (acts ++ [a]) = (M.exec acts).bind fun s => M.step s a := by
  simp [exec, List.foldlM_append]

/-- A run of one more action, taken apart. -/
theorem exec_snoc_iff {acts : List α} {a : α} {s' : σ} :
    M.exec (acts ++ [a]) = some s' ↔ ∃ s, M.exec acts = some s ∧ M.step s a = some s' := by
  rw [exec_snoc, Option.bind_eq_some_iff]

/-- What holds at the start and is kept by every step of a run, given the actions taken before it, holds at the end of every
run. -/
theorem invariant (P : List α → σ → Prop) (h0 : P [] M.init)
    (hstep : ∀ acts s a s', M.exec acts = some s → P acts s → M.step s a = some s' → P (acts ++ [a]) s') :
    ∀ acts s, M.exec acts = some s → P acts s := by
  intro acts
  induction acts using List.reverseRecOn with
  | nil =>
    intro s h
    rw [exec_nil, Option.some.injEq] at h
    exact h ▸ h0
  | append_singleton acts a ih =>
    intro s' h
    obtain ⟨s, hs, ha⟩ := M.exec_snoc_iff.1 h
    exact hstep acts s a s' hs (ih s hs) ha

/-- The invariant rule, for a property of the state alone. -/
theorem invariant_state (P : σ → Prop) (h0 : P M.init) (hstep : ∀ s a s', P s → M.step s a = some s' → P s') :
    ∀ acts s, M.exec acts = some s → P s :=
  M.invariant (fun _ s => P s) h0 fun _ s a s' _ hP ha => hstep s a s' hP ha

/-! ## Conditions on the actions of a run -/

/-- Every action of a list meets a condition, which may depend on the actions before it. -/
def Along (ok : List α → α → Prop) (acts : List α) : Prop := ∀ pre a post, acts = pre ++ a :: post → ok pre a

/-- The empty list meets every condition. -/
theorem along_nil (ok : List α → α → Prop) : Along ok [] := fun pre a post h => by simp at h

/-- One more action: the actions before it meet the condition, and so does it. -/
theorem along_snoc {ok : List α → α → Prop} {acts : List α} {a : α} : Along ok (acts ++ [a]) ↔ Along ok acts ∧ ok acts a := by
  constructor
  · intro h
    refine ⟨?_, h acts a [] rfl⟩
    intro pre b post hp
    exact h pre b (post ++ [a]) (by simp [hp])
  · rintro ⟨h, ha⟩ pre b post hp
    rcases List.eq_nil_or_concat post with rfl | ⟨post', c, rfl⟩
    · obtain ⟨rfl, hb⟩ := List.append_inj' hp rfl
      cases hb
      exact ha
    · rw [List.concat_eq_append, ← List.cons_append, ← List.append_assoc] at hp
      obtain ⟨hp, -⟩ := List.append_inj' hp rfl
      exact h pre b post' hp

/-- A condition that does not look at the actions before. -/
theorem along_const {p : α → Prop} {acts : List α} : Along (fun _ => p) acts ↔ ∀ a ∈ acts, p a := by
  constructor
  · intro h a ha
    obtain ⟨pre, post, hp⟩ := List.append_of_mem ha
    exact h pre a post hp
  · intro h pre a post hp
    exact h a (by simp [hp])

/-- What holds at the start, and is kept by a step exactly when its action meets a condition, holds at the end of a run exactly when
every action met it. -/
theorem iff_along {ok : List α → α → Prop} (P : σ → Prop) (h0 : P M.init)
    (hstep : ∀ acts s a s', M.exec acts = some s → M.step s a = some s' → (P s' ↔ P s ∧ ok acts a)) :
    ∀ acts s, M.exec acts = some s → (P s ↔ Along ok acts) := by
  apply M.invariant
  · constructor
    · intro _
      exact along_nil ok
    · intro _
      exact h0
  · intro acts s a s' hs ih ha
    rw [hstep acts s a s' hs ha, ih, along_snoc]

/-! ## Coming to rest -/

/-- Where a count of the actions of a kind is bounded over all runs that meet a condition, each of these runs goes on, by actions of
that kind, to a state where none of them can be taken. -/
theorem comes_to_rest (kind : α → Prop) (ok : List α → Prop) (count : List α → Nat) (bound : Nat)
    (hkind : ∀ acts a, ok acts → kind a → ok (acts ++ [a]) ∧ count (acts ++ [a]) = count acts + 1)
    (hbound : ∀ acts s, M.exec acts = some s → ok acts → count acts ≤ bound) :
    ∀ acts s, M.exec acts = some s → ok acts →
      ∃ more s', (∀ a ∈ more, kind a) ∧ M.exec (acts ++ more) = some s' ∧ ∀ a, kind a → M.step s' a = none := by
  -- on how much of the bound is left
  suffices h : ∀ left acts s, bound - count acts = left → M.exec acts = some s → ok acts →
      ∃ more s', (∀ a ∈ more, kind a) ∧ M.exec (acts ++ more) = some s' ∧ ∀ a, kind a → M.step s' a = none from
    fun acts s => h _ acts s rfl
  intro left
  induction left with
  | zero =>
    intro acts s hleft hs hok
    refine ⟨[], s, nofun, by rwa [List.append_nil], ?_⟩
    intro a ha
    by_contra hne
    obtain ⟨s', hs'⟩ := Option.ne_none_iff_exists'.1 hne
    obtain ⟨hok', hcount⟩ := hkind acts a hok ha
    have hle := hbound _ s' (M.exec_snoc_iff.2 ⟨s, hs, hs'⟩) hok'
    omega
  | succ left ih =>
    intro acts s hleft hs hok
    by_cases hrest : ∀ a, kind a → M.step s a = none
    · exact ⟨[], s, nofun, by rwa [List.append_nil], hrest⟩
    · push Not at hrest
      obtain ⟨a, ha, hne⟩ := hrest
      obtain ⟨s₁, hs₁⟩ := Option.ne_none_iff_exists'.1 hne
      obtain ⟨hok₁, hcount⟩ := hkind acts a hok ha
      obtain ⟨more, s', hmore, hs', hend⟩ := ih (acts ++ [a]) s₁ (by omega) (M.exec_snoc_iff.2 ⟨s, hs, hs₁⟩) hok₁
      exact ⟨a :: more, s', List.forall_mem_cons.2 ⟨ha, hmore⟩, by rwa [List.append_assoc] at hs', hend⟩

/-! ## Refinement -/

/-- A machine that, seen through `abs`, does what `N` does: an action is read as one of `N`, or as none when it leaves what is seen
alone. -/
structure Refinement {τ β : Type} (M : Machine σ α) (N : Machine τ β) where
  abs : σ → τ
  label : α → Option β
  init : abs M.init = N.init
  step : ∀ s a s', M.step s a = some s' →
    match label a with
    | some b => N.step (abs s) b = some (abs s')
    | none => abs s' = abs s

/-- A run, seen through a refinement, is a run of the other machine. -/
theorem Refinement.exec {τ β : Type} {M : Machine σ α} {N : Machine τ β} (R : Refinement M N) :
    ∀ acts s, M.exec acts = some s → N.exec (acts.filterMap R.label) = some (R.abs s) := by
  apply M.invariant
  · rw [List.filterMap_nil, exec_nil, R.init]
  · intro acts s a s' _ ih ha
    have hstep := R.step s a s' ha
    rw [List.filterMap_append]
    cases hl : R.label a with
    | none =>
      rw [hl] at hstep
      rw [List.filterMap_cons_none hl, List.filterMap_nil, List.append_nil, ih, hstep]
    | some b =>
      rw [hl] at hstep
      rw [List.filterMap_cons_some hl, List.filterMap_nil, N.exec_snoc, ih]
      exact hstep

end Machine
