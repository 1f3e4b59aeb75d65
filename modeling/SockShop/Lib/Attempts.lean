import Mathlib.Data.ENat.Lattice

/-!
# Attempts: a loop that tries at most `r` times and stops after the first success

Attempts are counted from one. `first P` is the first attempt that satisfies `P`, infinite when there is none.
`Stops P lo r m` says a loop that has made `lo` attempts and may go on to `r` stops after attempt `m`: its three rules
(`refl`, `hit`, `miss`) are the three ways a pass of such a loop ends, and `Stops.eq_min` and `Stops.hit_iff` say what the
loop has computed once it stopped: `m` is the smaller of `r` and the first success, and the last attempt succeeded exactly
when there was a success to find.
-/

namespace Attempts

/-- The first attempt that satisfies `P`, counted from one; infinite when none does. -/
noncomputable def first (P : ℕ → Prop) : ℕ∞ := sInf {n | ∃ i : ℕ, 1 ≤ i ∧ P i ∧ n = i}

/-- A loop that has made `lo` attempts and may make attempts up to `r` stops after attempt `m`: no attempt before `m` succeeded,
and either the attempts are used up or attempt `m` succeeded. -/
structure Stops (P : ℕ → Prop) (lo r m : ℕ) : Prop where
  lo_le : lo ≤ m
  le : m ≤ r
  before : ∀ j, lo < j → j < m → ¬P j
  done : m = r ∨ (lo < m ∧ P m)

variable {P : ℕ → Prop} {lo r m : ℕ}

/-- The first success comes no later than any success. -/
theorem first_le (h1 : 1 ≤ m) (hP : P m) : first P ≤ m := sInf_le ⟨m, h1, hP, rfl⟩

/-- The first success comes no later than `r` exactly when one of the first `r` attempts succeeds. -/
theorem first_le_iff : first P ≤ r ↔ ∃ i : ℕ, 1 ≤ i ∧ i ≤ r ∧ P i := by
  constructor
  · intro h
    have hne : {n : ℕ∞ | ∃ i : ℕ, 1 ≤ i ∧ P i ∧ n = i}.Nonempty := by
      rw [Set.nonempty_iff_ne_empty]
      intro he
      rw [first, he, sInf_empty] at h
      exact absurd h (by simp)
    obtain ⟨i, hi, hP, he⟩ := csInf_mem hne
    refine ⟨i, hi, ?_, hP⟩
    rw [first, he] at h
    exact_mod_cast h
  · rintro ⟨i, hi, hr, hP⟩
    exact (first_le hi hP).trans (by exact_mod_cast hr)

/-- A success before which there is none is the first. -/
theorem first_eq (h1 : 1 ≤ m) (hP : P m) (hb : ∀ j, 1 ≤ j → j < m → ¬P j) : first P = m := by
  apply le_antisymm (first_le h1 hP)
  apply le_sInf
  rintro _ ⟨i, hi, hPi, rfl⟩
  by_contra hlt
  exact hb i hi (by exact_mod_cast not_le.1 hlt) hPi

/-- The first success is one. -/
theorem first_spec (h : first P = m) : 1 ≤ m ∧ P m := by
  obtain ⟨i, hi, him, hP⟩ := first_le_iff.1 (le_of_eq h)
  have hle : m ≤ i := by
    have := first_le hi hP
    rw [h] at this
    exact_mod_cast this
  rw [Nat.le_antisymm hle him]
  exact ⟨hi, hP⟩

/-! ## The ways a pass of the loop ends -/

/-- The attempts are used up. -/
theorem Stops.refl (P : ℕ → Prop) (r : ℕ) : Stops P r r r :=
  ⟨le_rfl, le_rfl, fun _ h1 h2 => absurd h1 (by omega), Or.inl rfl⟩

/-- The next attempt succeeds. -/
theorem Stops.hit (h : lo + 1 ≤ r) (hP : P (lo + 1)) : Stops P lo r (lo + 1) :=
  ⟨by omega, h, fun _ h1 h2 => absurd h1 (by omega), Or.inr ⟨by omega, hP⟩⟩

/-- The next attempt fails and the loop goes on. -/
theorem Stops.miss (hP : ¬P (lo + 1)) (h : Stops P (lo + 1) r m) : Stops P lo r m := by
  refine ⟨by have := h.lo_le; omega, h.le, ?_, h.done.imp_right fun h' => ⟨by omega, h'.2⟩⟩
  intro j h1 h2
  rcases Nat.eq_or_lt_of_le h1 with rfl | h1
  · exact hP
  · exact h.before j h1 h2

/-- Two loops with the same successes stop after the same attempt. -/
theorem Stops.unique {Q : ℕ → Prop} {m' : ℕ} (h : Stops P lo r m) (h' : Stops Q lo r m') (heq : ∀ i, i ≤ r → (P i ↔ Q i)) :
    m = m' := by
  have hle := h.le
  have hle' := h'.le
  rcases lt_trichotomy m m' with hlt | he | hlt
  · rcases h.done with rfl | ⟨h1, hP⟩
    · omega
    · exact absurd ((heq m h.le).1 hP) (h'.before m h1 hlt)
  · exact he
  · rcases h'.done with rfl | ⟨h1, hQ⟩
    · omega
    · exact absurd ((heq m' h'.le).2 hQ) (h.before m' h1 hlt)

/-! ## What the loop has computed -/

/-- The loop makes as many attempts as it may, or as it takes to succeed, whichever is fewer. -/
theorem Stops.eq_min (h : Stops P 0 r m) : (m : ℕ∞) = min (r : ℕ∞) (first P) := by
  rcases h.done with rfl | ⟨h1, hP⟩
  · symm
    apply min_eq_left
    by_contra hlt
    obtain ⟨i, hi, hle, hPi⟩ := first_le_iff.1 (not_le.1 hlt).le
    rcases Nat.eq_or_lt_of_le hle with rfl | hi'
    · rw [first_eq hi hPi fun j hj hjm => h.before j hj hjm] at hlt
      exact hlt le_rfl
    · exact h.before i hi hi' hPi
  · rw [first_eq h1 hP fun j hj hjm => h.before j hj hjm]
    symm
    exact min_eq_right (by exact_mod_cast h.le)

/-- A loop that made an attempt ends on a success exactly when there was one to find. -/
theorem Stops.hit_iff (h : Stops P 0 r m) (h1 : 1 ≤ m) : P m ↔ first P ≤ r := by
  rw [first_le_iff]
  constructor
  · intro hP
    exact ⟨m, h1, h.le, hP⟩
  · rintro ⟨i, hi, hr, hPi⟩
    rcases h.done with rfl | ⟨-, hP⟩
    · rcases Nat.eq_or_lt_of_le hr with rfl | hi'
      · exact hPi
      · exact absurd hPi (h.before i hi hi')
    · exact hP

end Attempts
