import SockShop.Readiness

/-!
# What the wait loop takes for ready

The pattern finds a match in a line when some end of the first number of its READY column is a beginning of the second
(`found_readyPattern_text`), so the count of the lines without a match is zero when that holds of every line
(`grepCount_listing_eq_zero_iff`).
-/

namespace SockShop.Readiness

open Awk (Text records unlines records_unlines)

/-! ## The pattern -/

/-- The pattern finds the same digits on both sides of a slash. -/
theorem found_readyPattern_iff {t : Text} :
    Ere.found readyPattern t = true ↔
      ∃ before w after, w ≠ [] ∧ (∀ c ∈ w, digit c = true) ∧ t = (before ++ w) ++ '/' :: (w ++ after) := by
  rw [Ere.found_iff]
  constructor
  · rintro ⟨before, rest, g', after, rfl, h⟩
    obtain ⟨g₁, t₁, hgroup, hrest⟩ := Ere.mem_run_seq.1 h
    obtain ⟨g₀, w, hplus, rfl, rfl⟩ := Ere.mem_run_group.1 hgroup
    obtain ⟨-, w', hne, hw, heq⟩ := Ere.mem_run_plus.1 hplus
    obtain rfl := List.append_cancel_right heq
    obtain ⟨g₂, t₂, hslash, hback⟩ := Ere.mem_run_seq.1 hrest
    obtain ⟨rfl, c, hc, rfl⟩ := Ere.mem_run_bracket.1 hslash
    obtain ⟨-, w', hw', rfl⟩ := Ere.mem_run_backref.1 hback
    rw [Function.update_self, Option.some.injEq] at hw'
    subst hw'
    rw [beq_iff_eq] at hc
    subst hc
    exact ⟨before, w, after, hne, hw, (List.append_assoc _ _ _).symm⟩
  · rintro ⟨before, w, after, hne, hw, rfl⟩
    refine ⟨before, w ++ '/' :: (w ++ after), Function.update Ere.noGroups 1 (some w), after, List.append_assoc _ _ _, ?_⟩
    refine Ere.mem_run_seq.2 ⟨Function.update Ere.noGroups 1 (some w), '/' :: (w ++ after), ?_, ?_⟩
    · exact Ere.mem_run_group.2 ⟨Ere.noGroups, w, Ere.mem_run_plus.2 ⟨rfl, w, hne, hw, rfl⟩, rfl, rfl⟩
    · refine Ere.mem_run_seq.2 ⟨_, w ++ after, Ere.mem_run_bracket.2 ⟨rfl, '/', rfl, rfl⟩, ?_⟩
      exact Ere.mem_run_backref.2 ⟨rfl, w, Function.update_self _ _ _, rfl⟩

/-! ## The numbers of a line -/

theorem digit_of_mem_decimal {n : Nat} : ∀ c ∈ decimal n, digit c = true := by
  intro c hc
  exact Nat.isDigit_of_mem_toDigits (by decide) (by decide) hc

theorem notMem_decimal {n : Nat} {c : Char} (h : digit c = false) : c ∉ decimal n := by
  intro hc
  rw [digit_of_mem_decimal c hc] at h
  cases h

theorem decimal_ne_nil (n : Nat) : decimal n ≠ [] := Nat.toDigits_ne_nil

/-- A number overlaps with itself. -/
theorem overlap_self (n : Nat) : Overlap n n := ⟨decimal n, decimal_ne_nil n, List.suffix_rfl, List.prefix_rfl⟩

/-- A list of `p`s at the end of `xs ++ ys` does not reach into `xs`, when the last of that is not `p`. -/
theorem suffix_of_suffix_append {α : Type} {p : α → Bool} {w xs ys : List α} (hw : ∀ c ∈ w, p c = true)
    (hxs : ∀ c ∈ xs.getLast?, p c = false) (h : w <:+ xs ++ ys) : w <:+ ys := by
  rcases List.suffix_or_suffix_of_suffix h (List.suffix_append xs ys) with hys | ⟨u, rfl⟩
  · exact hys
  · obtain ⟨v, hv⟩ := h
    rw [← List.append_assoc] at hv
    obtain rfl := List.append_cancel_right hv
    rcases List.eq_nil_or_concat u with rfl | ⟨u, c, rfl⟩
    · exact List.suffix_rfl
    · have hc := hxs c (by simp)
      rw [hw c (by simp)] at hc
      cases hc

/-- A list of `p`s at the beginning of `xs ++ ys` does not reach into `ys`, when the first of that is not `p`. -/
theorem prefix_of_prefix_append {α : Type} {p : α → Bool} {w xs ys : List α} (hw : ∀ c ∈ w, p c = true)
    (hys : ∀ c ∈ ys.head?, p c = false) (h : w <+: xs ++ ys) : w <+: xs := by
  rcases List.prefix_or_prefix_of_prefix h (List.prefix_append xs ys) with hxs | ⟨u, rfl⟩
  · exact hxs
  · obtain ⟨v, hv⟩ := h
    rw [List.append_assoc] at hv
    obtain rfl := List.append_cancel_left hv
    cases u with
    | nil => rw [List.append_nil]
    | cons c u =>
      have hc := hys c rfl
      rw [hw c (by simp)] at hc
      cases hc

/-- The pattern finds a match in a line when its numbers overlap. -/
theorem found_readyPattern_text (l : PodLine) : Ere.found readyPattern l.text = true ↔ Overlap l.ready l.total := by
  have hbefore : '/' ∉ l.before ++ decimal l.ready := by
    rw [List.mem_append, not_or]
    exact ⟨l.slash_notMem_before, notMem_decimal rfl⟩
  have hafter : '/' ∉ decimal l.total ++ l.after := by
    rw [List.mem_append, not_or]
    exact ⟨notMem_decimal rfl, l.slash_notMem_after⟩
  rw [found_readyPattern_iff]
  constructor
  · rintro ⟨before, w, after, hne, hw, htext⟩
    obtain ⟨hb, -, ha⟩ := (List.append_cons_inj_of_notMem hbefore hafter).1 htext
    refine ⟨w, hne, ?_, ?_⟩
    · exact suffix_of_suffix_append hw l.not_digit_before ⟨before, hb.symm⟩
    · exact prefix_of_prefix_append hw l.not_digit_after ⟨after, ha.symm⟩
  · rintro ⟨w, hne, ⟨front, hready⟩, ⟨rest, htotal⟩⟩
    refine ⟨l.before ++ front, w, rest ++ l.after, hne, ?_, ?_⟩
    · intro c hc
      apply digit_of_mem_decimal (n := l.ready) c
      rw [← hready]
      exact List.mem_append_right front hc
    · rw [PodLine.text, ← hready, ← htotal]
      simp only [List.append_assoc]

/-! ## The count and the loop -/

theorem newline_notMem_text (l : PodLine) : '\n' ∉ l.text := by
  simp only [PodLine.text, List.mem_append, List.mem_cons, not_or]
  exact ⟨⟨l.newline_notMem_before, notMem_decimal rfl⟩, by decide, notMem_decimal rfl, l.newline_notMem_after⟩

/-- No line is counted when the numbers of every line overlap. -/
theorem grepCount_listing_eq_zero_iff (lines : List PodLine) :
    grepCount readyPattern (listing lines) = 0 ↔ ∀ l ∈ lines, Overlap l.ready l.total := by
  have hfree : ∀ r ∈ lines.map PodLine.text, '\n' ∉ r := List.forall_mem_map.2 fun l _ => newline_notMem_text l
  rw [grepCount, listing, records_unlines hfree, List.countP_eq_zero, List.forall_mem_map]
  refine forall₂_congr fun l _ => ?_
  rw [Bool.not_eq_true', Bool.not_eq_false, found_readyPattern_text]

/-- One more test of the loop, after tests that did not end it. -/
theorem waitLoop_append_singleton {ts : List Text} (h : waitLoop ts = none) (t : Text) :
    waitLoop (ts ++ [t]) = if grepCount readyPattern t = 0 then some ts.length else none := by
  induction ts with
  | nil => rfl
  | cons t' ts ih =>
    rw [waitLoop] at h
    split at h
    · cases h
    · rename_i ht'
      rw [Option.map_eq_none_iff] at h
      rw [List.cons_append, waitLoop, if_neg ht', ih h]
      split
      · rfl
      · rfl

/-- The loop ends at the first test that finds every line. -/
theorem waitLoop_eq (ts : List Text) : waitLoop ts = ts.findIdx? fun t => decide (grepCount readyPattern t = 0) := by
  induction ts with
  | nil => rfl
  | cons t ts ih =>
    rw [waitLoop, List.findIdx?_cons, ih]
    by_cases h : grepCount readyPattern t = 0
    · rw [if_pos h, if_pos (decide_eq_true h)]
    · rw [if_neg h, if_neg (by simpa using h)]

/-- For listings, it ends at the first one on every line of which the numbers overlap. -/
theorem waitLoop_listings {listings : List (List PodLine)} {n : Nat} (h : waitLoop (listings.map listing) = some n) :
    ∃ lines, listings[n]? = some lines ∧ (∀ l ∈ lines, Overlap l.ready l.total) ∧
      ∀ m < n, ∀ lines', listings[m]? = some lines' → ¬∀ l ∈ lines', Overlap l.ready l.total := by
  rw [waitLoop_eq, List.findIdx?_map, List.findIdx?_eq_some_iff_getElem] at h
  obtain ⟨hn, hends, hbefore⟩ := h
  refine ⟨listings[n], List.getElem?_eq_getElem hn, ?_, ?_⟩
  · exact (grepCount_listing_eq_zero_iff _).1 (of_decide_eq_true hends)
  · intro m hm lines' hlines' hall
    obtain ⟨hlt, rfl⟩ := List.getElem?_eq_some_iff.1 hlines'
    exact hbefore m hm (decide_eq_true ((grepCount_listing_eq_zero_iff _).2 hall))

/-- It goes on when each of them has a line on which they do not. -/
theorem waitLoop_listings_none {listings : List (List PodLine)} (h : waitLoop (listings.map listing) = none) :
    ∀ lines ∈ listings, ¬∀ l ∈ lines, Overlap l.ready l.total := by
  rw [waitLoop_eq, List.findIdx?_map, List.findIdx?_eq_none_iff] at h
  intro lines hlines hall
  have hends := h lines hlines
  rw [Function.comp_apply, decide_eq_false_iff_not, grepCount_listing_eq_zero_iff] at hends
  exact hends hall

theorem findIdx?_congr {α : Type} {p q : α → Bool} {xs : List α} (h : ∀ x ∈ xs, p x = q x) : xs.findIdx? p = xs.findIdx? q := by
  induction xs with
  | nil => rfl
  | cons x xs ih =>
    rw [List.findIdx?_cons, List.findIdx?_cons, h x List.mem_cons_self, ih fun y hy => h y (List.mem_cons_of_mem x hy)]

/-- Numbers of one digit overlap only when they are equal. -/
theorem overlap_iff_of_lt {a b : Nat} (ha : a < 10) (hb : b < 10) : Overlap a b ↔ a = b := by
  constructor
  · rintro ⟨w, hne, hsuffix, hprefix⟩
    have hpos := List.length_pos_iff.2 hne
    have hlen : ∀ n, n < 10 → (decimal n).length = 1 := by
      intro n hn
      rw [decimal, Nat.toDigits_of_lt_base hn]
      rfl
    have hwa : w = decimal a := hsuffix.eq_of_length_le (by rw [hlen a ha]; exact hpos)
    have hwb : w = decimal b := hprefix.eq_of_length_le (by rw [hlen b hb]; exact hpos)
    rw [← Nat.ofDigitChars_toDigits (b := 10) (n := a) (by decide) (by decide), ← decimal, ← hwa, hwb, decimal,
      Nat.ofDigitChars_toDigits (by decide) (by decide)]
  · rintro rfl
    exact overlap_self a

end SockShop.Readiness
