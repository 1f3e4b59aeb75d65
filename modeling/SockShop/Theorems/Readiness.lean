import SockShop.Lemmas.Readiness

/-!
# When the wait for the cluster ends

The loop ends at a listing when the numbers of every line of it overlap. That takes the listing without a line for ready, and any in
which the first number of each line ends as the second begins; on all others the loop is right (`ends_iff_ready_iff`). So it never goes on
past a test at which the cluster is ready, and for pods of fewer than ten containers it ends at the first of these, as long as there are
pods (`waitLoop_ready`).
-/

namespace SockShop.Readiness

open Awk (Text)

/-- The test of a loop that is still going ends it exactly when the cluster is ready, if and only if the listing has a line, and its
numbers overlap on every line only when they are equal on every line. -/
theorem ends_iff_ready_iff (earlier : List Text) (h : waitLoop earlier = none) (lines : List PodLine) :
    (waitLoop (earlier ++ [listing lines]) = some earlier.length ↔ Ready lines) ↔
      lines ≠ [] ∧ ((∀ l ∈ lines, Overlap l.ready l.total) → ∀ l ∈ lines, l.ready = l.total) := by
  have hends : waitLoop (earlier ++ [listing lines]) = some earlier.length ↔ ∀ l ∈ lines, Overlap l.ready l.total := by
    rw [waitLoop_append_singleton h, ← grepCount_listing_eq_zero_iff]
    simp
  rw [hends, Ready]
  constructor
  · intro hiff
    refine ⟨?_, fun hall => (hiff.1 hall).2⟩
    rintro rfl
    exact (hiff.1 (by simp)).1 rfl
  · rintro ⟨hne, himp⟩
    constructor
    · intro hall
      exact ⟨hne, himp hall⟩
    · rintro ⟨-, heq⟩ l hl
      rw [heq l hl]
      exact overlap_self l.total

/-- The line of a pod with `total` containers, `ready` of them ready. -/
def carts (ready total : Nat) : PodLine where
  before := "carts-5bb979cb6f-x2x9n   ".toList
  ready := ready
  total := total
  after := "   Running   0   12s".toList
  slash_notMem_before := by decide
  slash_notMem_after := by decide
  newline_notMem_before := by decide
  newline_notMem_after := by decide
  not_digit_before := by simp [digit]
  not_digit_after := by simp [digit]

/-- `ends_iff_ready_iff`, after a test at which one of two containers was ready. -/
theorem ends_after_one_of_two : waitLoop [listing [carts 1 2]] = none ∧
    ((waitLoop ([listing [carts 1 2]] ++ [listing [carts 2 2]]) = some 1 ↔ Ready [carts 2 2]) ↔
      [carts 2 2] ≠ [] ∧ ((∀ l ∈ [carts 2 2], Overlap l.ready l.total) → ∀ l ∈ [carts 2 2], l.ready = l.total)) := by
  have h : waitLoop [listing [carts 1 2]] = none := by decide
  exact ⟨h, ends_iff_ready_iff [listing [carts 1 2]] h [carts 2 2]⟩

/-- The loop ends at the first test for a cluster without pods, and for one with a pod of which one container in ten is ready. -/
theorem ends_without_pods_and_at_one_of_ten :
    waitLoop [listing []] = some 0 ∧ ¬Ready [] ∧
      (carts 1 10).text = "carts-5bb979cb6f-x2x9n   1/10   Running   0   12s".toList ∧
      waitLoop [listing [carts 1 10]] = some 0 ∧ ¬Ready [carts 1 10] := by
  refine ⟨rfl, fun h => h.1 rfl, by decide, by decide, ?_⟩
  rintro ⟨-, h⟩
  exact absurd (h _ List.mem_cons_self) (by decide)

/-- Over all its tests the loop goes on for no longer than to the first one at which the cluster is ready; and it ends at just that
one if at each test there are pods, of fewer than ten containers each. -/
theorem waitLoop_ready (listings : List (List PodLine)) :
    (∀ m lines, listings[m]? = some lines → Ready lines → ∃ n ≤ m, waitLoop (listings.map listing) = some n) ∧
      ((∀ lines ∈ listings, lines ≠ [] ∧ ∀ l ∈ lines, l.ready ≤ l.total ∧ l.total < 10) →
        waitLoop (listings.map listing) = listings.findIdx? fun lines => decide (Ready lines)) := by
  constructor
  · intro m lines hm hready
    have hoverlap : ∀ l ∈ lines, Overlap l.ready l.total := by
      intro l hl
      rw [hready.2 l hl]
      exact overlap_self l.total
    cases hn : waitLoop (listings.map listing) with
    | none => exact absurd hoverlap (waitLoop_listings_none hn lines (List.mem_of_getElem? hm))
    | some n =>
      obtain ⟨_, _, _, hbefore⟩ := waitLoop_listings hn
      refine ⟨n, ?_, rfl⟩
      by_contra hlt
      exact hbefore m (Nat.lt_of_not_le hlt) lines hm hoverlap
  · intro hsmall
    rw [waitLoop_eq, List.findIdx?_map]
    refine findIdx?_congr fun lines hlines => ?_
    obtain ⟨hne, hl⟩ := hsmall lines hlines
    rw [Function.comp_apply, decide_eq_decide, grepCount_listing_eq_zero_iff, Ready]
    constructor
    · intro hall
      refine ⟨hne, fun l hmem => ?_⟩
      obtain ⟨hle, hlt⟩ := hl l hmem
      exact (overlap_iff_of_lt (by omega) hlt).1 (hall l hmem)
    · rintro ⟨-, heq⟩ l hmem
      rw [heq l hmem]
      exact overlap_self l.total

end SockShop.Readiness
