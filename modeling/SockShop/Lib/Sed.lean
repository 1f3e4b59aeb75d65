import Mathlib.Data.List.Infix

/-!
# sed: replacing every match in a line

The command `s/re/replacement/g` goes through a line from the left: where a match begins it writes the replacement and goes on after
the match, elsewhere it copies a character. A matcher stands for the expression and the replacement together: for what is left of a
line it says whether a match begins there, and if so how long the longest one is and what it is replaced by.

`Free m t` says that no match begins anywhere in `t`. Then nothing is replaced (`gsub_of_free`), and when every replacement is longer
than its match, only then (`gsub_eq_self_iff`). `gsub_gsub_eq_self` says when one command takes another back.
-/

namespace Sed

/-- A matcher, for what is left of a line: the number of characters of the match after its first, and the replacement. -/
abbrev Matcher := List Char → Option (Nat × List Char)

/-- The rest of a line, of which the first `skip` characters belong to a match already replaced. -/
def gsubFrom (m : Matcher) : (skip : Nat) → List Char → List Char
  | _, [] => []
  | skip + 1, _ :: cs => gsubFrom m skip cs
  | 0, c :: cs =>
    match m (c :: cs) with
    | some (n, replacement) => replacement ++ gsubFrom m n cs
    | none => c :: gsubFrom m 0 cs

/-- The line with every match replaced. -/
def gsub (m : Matcher) (t : List Char) : List Char := gsubFrom m 0 t

/-- No match begins in the text. -/
def Free (m : Matcher) (t : List Char) : Prop := ∀ s, s <:+ t → s ≠ [] → m s = none

variable {m : Matcher}

@[simp] theorem gsub_nil (m : Matcher) : gsub m [] = [] := rfl

/-- What belongs to a match already replaced is left out. -/
theorem gsubFrom_eq (m : Matcher) (skip : Nat) (t : List Char) : gsubFrom m skip t = gsub m (t.drop skip) := by
  induction skip generalizing t with
  | zero => rfl
  | succ skip ih =>
    cases t with
    | nil => rfl
    | cons c cs => exact ih cs

/-- Where no match begins, a character is copied. -/
theorem gsub_of_none {c : Char} {cs : List Char} (h : m (c :: cs) = none) : gsub m (c :: cs) = c :: gsub m cs := by
  rw [gsub, gsubFrom, h]
  rfl

/-- Where a match begins, it is replaced. -/
theorem gsub_of_some {c : Char} {cs replacement : List Char} {n : Nat} (h : m (c :: cs) = some (n, replacement)) :
    gsub m (c :: cs) = replacement ++ gsub m (cs.drop n) := by
  rw [gsub, gsubFrom, h]
  simp only
  rw [gsubFrom_eq]

/-- A match at the front of a line is replaced. -/
theorem gsub_append_match {a b replacement : List Char} (hne : a ≠ []) (h : m (a ++ b) = some (a.length - 1, replacement)) :
    gsub m (a ++ b) = replacement ++ gsub m b := by
  cases a with
  | nil => exact absurd rfl hne
  | cons c cs =>
    rw [List.length_cons, Nat.add_sub_cancel, List.cons_append] at h
    rw [List.cons_append, gsub_of_some h, List.drop_left]

/-- The first part of a line, in which no match begins, is copied. -/
theorem gsub_append {a b : List Char} (h : ∀ s, s <:+ a → s ≠ [] → m (s ++ b) = none) : gsub m (a ++ b) = a ++ gsub m b := by
  induction a with
  | nil => rfl
  | cons c a ih =>
    have hnone : m (c :: a ++ b) = none := h (c :: a) (List.suffix_refl _) (List.cons_ne_nil c a)
    rw [List.cons_append] at hnone ⊢
    rw [gsub_of_none hnone, ih fun s hs => h s (hs.trans (List.suffix_cons c a))]
    rfl

/-- A line in which no match begins is left as it is. -/
theorem gsub_of_free {t : List Char} (h : Free m t) : gsub m t = t := by
  have happend := gsub_append (m := m) (a := t) (b := []) fun s hs hne => by rw [List.append_nil]; exact h s hs hne
  rwa [List.append_nil, gsub_nil, List.append_nil] at happend

section Growing

variable (hgrow : ∀ t n replacement, m t = some (n, replacement) → n + 1 < replacement.length)
include hgrow

/-- When replacements are longer than their matches, no line gets shorter. -/
theorem length_le_length_gsub (t : List Char) : t.length ≤ (gsub m t).length := by
  induction h : t.length using Nat.strong_induction_on generalizing t with
  | _ k ih =>
    cases t with
    | nil => exact h ▸ Nat.le_refl _
    | cons c cs =>
      rw [List.length_cons] at h
      cases hm : m (c :: cs) with
      | none =>
        have := ih cs.length (by omega) cs rfl
        rw [gsub_of_none hm, List.length_cons]
        omega
      | some found =>
        have hlen := List.length_drop (i := found.1) (l := cs)
        have := ih (cs.drop found.1).length (by omega) _ rfl
        have := hgrow _ _ _ hm
        rw [gsub_of_some hm, List.length_append]
        omega

/-- And a line in which a match begins gets longer. -/
theorem gsub_eq_self_iff (t : List Char) : gsub m t = t ↔ Free m t := by
  constructor
  · intro h
    induction t with
    | nil =>
      intro s hs hne
      exact absurd (List.suffix_nil.1 hs) hne
    | cons c cs ih =>
      cases hm : m (c :: cs) with
      | none =>
        rw [gsub_of_none hm] at h
        intro s hs hne
        rcases List.suffix_cons_iff.1 hs with rfl | hs
        · exact hm
        · exact ih (List.cons.inj h).2 s hs hne
      | some found =>
        have hlen := congrArg List.length h
        have hdrop := List.length_drop (i := found.1) (l := cs)
        have hle := length_le_length_gsub hgrow (cs.drop found.1)
        have := hgrow _ _ _ hm
        rw [gsub_of_some hm, List.length_append, List.length_cons] at hlen
        omega
  · exact gsub_of_free

end Growing

/-- A second command takes a first one back: where a match of the first was replaced, the second puts back the match, and where the
first copied a character, so does the second. -/
theorem gsub_gsub_eq_self {m' : Matcher}
    (hmatch : ∀ c cs n replacement, m (c :: cs) = some (n, replacement) → replacement ≠ [] ∧
      m' (replacement ++ gsub m (cs.drop n)) = some (replacement.length - 1, c :: cs.take n))
    (hcopy : ∀ c cs, m (c :: cs) = none → m' (c :: gsub m cs) = none) (t : List Char) : gsub m' (gsub m t) = t := by
  induction h : t.length using Nat.strong_induction_on generalizing t with
  | _ k ih =>
    cases t with
    | nil => rfl
    | cons c cs =>
      rw [List.length_cons] at h
      cases hm : m (c :: cs) with
      | none => rw [gsub_of_none hm, gsub_of_none (hcopy c cs hm), ih cs.length (by omega) cs rfl]
      | some found =>
        obtain ⟨hne, hback⟩ := hmatch c cs found.1 found.2 hm
        have hlen := List.length_drop (i := found.1) (l := cs)
        rw [gsub_of_some hm, gsub_append_match hne hback, ih (cs.drop found.1).length (by omega) _ rfl, List.cons_append,
          List.take_append_drop]

/-- A character of the result is a character of the line or of a replacement. -/
theorem mem_gsub {x : Char} {t : List Char} (h : x ∈ gsub m t) :
    x ∈ t ∨ ∃ s n replacement, s <:+ t ∧ m s = some (n, replacement) ∧ x ∈ replacement := by
  induction hk : t.length using Nat.strong_induction_on generalizing t with
  | _ k ih =>
    cases t with
    | nil => cases h
    | cons c cs =>
      rw [List.length_cons] at hk
      have hrest : ∀ n, x ∈ gsub m (cs.drop n) →
          x ∈ c :: cs ∨ ∃ s n replacement, s <:+ c :: cs ∧ m s = some (n, replacement) ∧ x ∈ replacement := by
        intro n hx
        have hlen := List.length_drop (i := n) (l := cs)
        have hsuffix : cs.drop n <:+ c :: cs := (List.drop_suffix n cs).trans (List.suffix_cons c cs)
        rcases ih (cs.drop n).length (by omega) hx rfl with hx | ⟨s, n', replacement, hs, hm, hx⟩
        · exact Or.inl (hsuffix.subset hx)
        · exact Or.inr ⟨s, n', replacement, hs.trans hsuffix, hm, hx⟩
      cases hm : m (c :: cs) with
      | none =>
        rw [gsub_of_none hm] at h
        rcases List.mem_cons.1 h with rfl | h
        · exact Or.inl List.mem_cons_self
        · exact hrest 0 h
      | some found =>
        rw [gsub_of_some hm] at h
        rcases List.mem_append.1 h with h | h
        · exact Or.inr ⟨_, _, _, List.suffix_refl _, hm, h⟩
        · exact hrest found.1 h

end Sed
