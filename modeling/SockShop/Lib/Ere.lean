import Mathlib.Data.List.Infix
import Mathlib.Logic.Function.Basic

/-!
# Extended regular expressions with back-references

The expressions of `grep -E` that are made of bracket expressions, alone or repeated with `+`, groups and references back to a group.
They have no anchors, so a match is found at any place of a line.

`run r g t` lists every way to match a front part of `t`, with the groups as they are then and what is left of `t`; its membership
rules say what each expression matches.
-/

/-- An expression. A bracket expression is given by the characters it takes. -/
inductive Ere where
  | bracket (p : Char → Bool)
  | plus (p : Char → Bool)
  | seq (r s : Ere)
  | group (n : Nat) (r : Ere)
  | backref (n : Nat)

namespace Ere

/-- What the groups matched. -/
abbrev Groups := Nat → Option (List Char)

/-- No group has matched. -/
def noGroups : Groups := fun _ => none

/-- What may be left of a text after one or more characters of a bracket expression. -/
def plusRests (p : Char → Bool) : List Char → List (List Char)
  | [] => []
  | c :: t => if p c then t :: plusRests p t else []

/-- The ways to match a front part of a text. -/
def run : Ere → Groups → List Char → List (Groups × List Char)
  | .bracket _, _, [] => []
  | .bracket p, g, c :: t => if p c then [(g, t)] else []
  | .plus p, g, t => (plusRests p t).map fun t' => (g, t')
  | .seq r s, g, t => (run r g t).flatMap fun m => run s m.1 m.2
  | .group n r, g, t =>
    (run r g t).map fun m => (Function.update m.1 n (some (t.take (t.length - m.2.length))), m.2)
  | .backref n, g, t =>
    match g n with
    | none => []
    | some w => if w <+: t then [(g, t.drop w.length)] else []

/-- A match is found somewhere in a line. -/
def found (r : Ere) (t : List Char) : Bool := t.tails.any fun t' => !(run r noGroups t').isEmpty

/-! ## What the expressions match -/

theorem mem_plusRests {p : Char → Bool} {t t' : List Char} :
    t' ∈ plusRests p t ↔ ∃ w, w ≠ [] ∧ (∀ c ∈ w, p c = true) ∧ t = w ++ t' := by
  induction t with
  | nil =>
    constructor
    · intro h
      cases h
    · rintro ⟨w, hne, -, h⟩
      exact absurd (List.append_eq_nil_iff.1 h.symm).1 hne
  | cons c t ih =>
    unfold plusRests
    constructor
    · intro h
      split at h
      · rename_i hc
        rcases List.mem_cons.1 h with rfl | h
        · exact ⟨[c], by simp, by simpa using hc, rfl⟩
        · obtain ⟨w, -, hw, rfl⟩ := ih.1 h
          exact ⟨c :: w, by simp, List.forall_mem_cons.2 ⟨hc, hw⟩, rfl⟩
      · cases h
    · rintro ⟨w, hne, hw, h⟩
      obtain ⟨c', w, rfl⟩ := List.exists_cons_of_ne_nil hne
      obtain ⟨rfl, rfl⟩ := List.cons.inj h
      obtain ⟨hc, hw⟩ := List.forall_mem_cons.1 hw
      rw [if_pos hc, List.mem_cons]
      by_cases hnil : w = []
      · left
        rw [hnil]
        rfl
      · right
        exact ih.2 ⟨w, hnil, hw, rfl⟩

section Rules

variable {g g' : Groups} {t t' : List Char}

/-- A character of the bracket expression. -/
theorem mem_run_bracket {p : Char → Bool} : (g', t') ∈ run (.bracket p) g t ↔ g' = g ∧ ∃ c, p c = true ∧ t = c :: t' := by
  cases t with
  | nil => simp [run]
  | cons c t =>
    unfold run
    split
    · rename_i hc
      simp only [List.mem_singleton, Prod.mk.injEq, List.cons.injEq]
      constructor
      · rintro ⟨rfl, rfl⟩
        exact ⟨rfl, c, hc, rfl, rfl⟩
      · rintro ⟨rfl, _, -, -, rfl⟩
        exact ⟨rfl, rfl⟩
    · rename_i hc
      constructor
      · intro h
        cases h
      · rintro ⟨-, c', hc', h⟩
        rw [← (List.cons.inj h).1] at hc'
        exact absurd hc' hc

/-- One or more characters of it. -/
theorem mem_run_plus {p : Char → Bool} :
    (g', t') ∈ run (.plus p) g t ↔ g' = g ∧ ∃ w, w ≠ [] ∧ (∀ c ∈ w, p c = true) ∧ t = w ++ t' := by
  rw [run, List.mem_map]
  constructor
  · rintro ⟨rest, h, heq⟩
    obtain ⟨rfl, rfl⟩ := Prod.mk.inj heq
    exact ⟨rfl, mem_plusRests.1 h⟩
  · rintro ⟨rfl, h⟩
    exact ⟨t', mem_plusRests.2 h, rfl⟩

/-- One expression after another, with the groups that the first left. -/
theorem mem_run_seq {r s : Ere} : (g', t') ∈ run (.seq r s) g t ↔ ∃ g₁ t₁, (g₁, t₁) ∈ run r g t ∧ (g', t') ∈ run s g₁ t₁ := by
  rw [run, List.mem_flatMap]
  constructor
  · rintro ⟨⟨g₁, t₁⟩, h⟩
    exact ⟨g₁, t₁, h⟩
  · rintro ⟨g₁, t₁, h⟩
    exact ⟨⟨g₁, t₁⟩, h⟩

/-- What group `n` matched. -/
theorem mem_run_backref {n : Nat} : (g', t') ∈ run (.backref n) g t ↔ g' = g ∧ ∃ w, g n = some w ∧ t = w ++ t' := by
  unfold run
  cases hn : g n with
  | none => simp
  | some w =>
    simp only [Option.some.injEq, exists_eq_left']
    split
    · rename_i hw
      obtain ⟨rest, rfl⟩ := hw
      rw [List.drop_left, List.mem_singleton, Prod.mk.injEq, List.append_cancel_left_eq, eq_comm (a := t')]
    · rename_i hw
      constructor
      · intro h
        cases h
      · rintro ⟨-, rfl⟩
        exact absurd (List.prefix_append w t') hw

/-- What is left is the end of the text. -/
theorem suffix_of_mem_run {r : Ere} (h : (g', t') ∈ run r g t) : t' <:+ t := by
  induction r generalizing g g' t t' with
  | bracket p =>
    obtain ⟨-, c, -, rfl⟩ := mem_run_bracket.1 h
    exact List.suffix_cons c t'
  | plus p =>
    obtain ⟨-, w, -, -, rfl⟩ := mem_run_plus.1 h
    exact List.suffix_append w t'
  | seq r s ihr ihs =>
    obtain ⟨g₁, t₁, hr, hs⟩ := mem_run_seq.1 h
    exact (ihs hs).trans (ihr hr)
  | group n r ih =>
    rw [run, List.mem_map] at h
    obtain ⟨⟨g₁, t₁⟩, hr, heq⟩ := h
    obtain ⟨-, rfl⟩ := Prod.mk.inj heq
    exact ih hr
  | backref n =>
    obtain ⟨-, w, -, rfl⟩ := mem_run_backref.1 h
    exact List.suffix_append w t'

/-- A group keeps what its expression matched. -/
theorem mem_run_group {n : Nat} {r : Ere} :
    (g', t') ∈ run (.group n r) g t ↔
      ∃ g₁ w, (g₁, t') ∈ run r g t ∧ t = w ++ t' ∧ g' = Function.update g₁ n (some w) := by
  rw [run, List.mem_map]
  constructor
  · rintro ⟨⟨g₁, t₁⟩, hr, heq⟩
    obtain ⟨rfl, rfl⟩ := Prod.mk.inj heq
    obtain ⟨w, rfl⟩ := suffix_of_mem_run hr
    refine ⟨g₁, w, hr, rfl, ?_⟩
    rw [List.length_append, Nat.add_sub_cancel, List.take_left]
  · rintro ⟨g₁, w, hr, rfl, rfl⟩
    refine ⟨(g₁, t'), hr, ?_⟩
    rw [List.length_append, Nat.add_sub_cancel, List.take_left]

end Rules

/-- A match is found when the text has a place from which there is a way to match. -/
theorem found_iff {r : Ere} {t : List Char} :
    found r t = true ↔ ∃ before rest g' t', t = before ++ rest ∧ (g', t') ∈ run r noGroups rest := by
  unfold found
  rw [List.any_eq_true]
  constructor
  · rintro ⟨rest, hrest, h⟩
    obtain ⟨before, rfl⟩ := (List.mem_tails _ _).1 hrest
    rw [Bool.not_eq_true', List.isEmpty_eq_false_iff_exists_mem] at h
    obtain ⟨⟨g', t'⟩, h⟩ := h
    exact ⟨before, rest, g', t', rfl, h⟩
  · rintro ⟨before, rest, g', t', rfl, h⟩
    refine ⟨rest, (List.mem_tails _ _).2 (List.suffix_append before rest), ?_⟩
    rw [Bool.not_eq_true', List.isEmpty_eq_false_iff_exists_mem]
    exact ⟨(g', t'), h⟩

end Ere
