import Mathlib.Data.List.Forall2
import Mathlib.Data.List.TakeWhile
import SockShop.Images
import SockShop.Lemmas.Manifests

/-!
# What the sed command does to a line

Two facts about the expression carry the rest: it matches nowhere in a text exactly when no reference stands in it (`free_iff`), and
where `image:` stands right in front of a scalar, but for white space, it matches up to the first word of the scalar
(`imageReference_key`). So the line of such an entry keeps what stands before its scalar, gets the registry in front of the scalar's
first word, and goes on with what the command makes of the rest (`gsub_text`). From there it is a matter of lengths: what is denoted may
grow by the registry only, a quoted scalar is longer than what it denotes, and every further match makes the line longer still.

Where a match ends in front of the scalar, that part of the line is not kept (`noReference_of_gsub_append`). And where none begins there,
the command does not put the registry in front of what the scalar denotes (`value_ne_of_gsub`): it keeps all that stands before the
first colon, as it stands (`takeWhile_gsub`) and as a double-quoted scalar denotes it (`takeWhile_value_gsub`).
-/

namespace SockShop.Manifests

open Awk

/-! ## The expression -/

theorem imageKey_ne_nil : imageKey ≠ [] := by decide

theorem length_registry : registry.length = 45 := by decide

/-- There is no word in a text of white space, and only there. -/
theorem word_eq_nil_iff (t : Text) : (t.dropWhile isSpace).takeWhile (!isSpace ·) = [] ↔ ∀ c ∈ t, isSpace c = true := by
  induction t with
  | nil => simp
  | cons c cs ih =>
    rw [List.forall_mem_cons, ← ih]
    cases hc : isSpace c with
    | true =>
      rw [List.dropWhile_cons_of_pos hc]
      exact (and_iff_right rfl).symm
    | false => simp [hc]

/-- What the expression does where the key stands. -/
theorem imageReference_append (rest : Text) :
    imageReference (imageKey ++ rest) =
      if (rest.dropWhile isSpace).takeWhile (!isSpace ·) = [] then none
      else some (imageKey.length + (rest.takeWhile isSpace).length + ((rest.dropWhile isSpace).takeWhile (!isSpace ·)).length - 1,
        imageKey ++ rest.takeWhile isSpace ++ registry ++ (rest.dropWhile isSpace).takeWhile (!isSpace ·)) := by
  rw [imageReference, if_pos (List.prefix_append imageKey rest)]
  simp only [List.drop_left]

/-- It matches only where the key stands. -/
theorem imageReference_eq_none {t : Text} (h : ¬imageKey <+: t) : imageReference t = none := by
  rw [imageReference, if_neg h]

/-- A match begins with the letter of the key. -/
theorem imageReference_of_ne {c : Char} (hc : c ≠ 'i') (cs : Text) : imageReference (c :: cs) = none := by
  refine imageReference_eq_none fun h => ?_
  obtain ⟨post, hpost⟩ := h
  exact hc (List.cons.inj hpost).1.symm

/-- Where the expression does not match: after the key there is nothing but white space. -/
theorem imageReference_eq_none_iff {t : Text} :
    imageReference t = none ↔ ∀ post, t = imageKey ++ post → ∀ c ∈ post, isSpace c = true := by
  by_cases hkey : imageKey <+: t
  · obtain ⟨rest, rfl⟩ := hkey
    rw [imageReference_append, ite_eq_left_iff]
    constructor
    · intro h post hpost
      obtain rfl := List.append_cancel_left hpost
      refine (word_eq_nil_iff rest).1 (by_contra fun hword => ?_)
      cases h hword
    · intro h hword
      exact absurd ((word_eq_nil_iff rest).2 (h rest rfl)) hword
  · rw [imageReference_eq_none hkey]
    exact iff_of_true rfl fun post hpost => absurd ⟨post, hpost.symm⟩ hkey

/-- No match begins in a text exactly when no reference stands in it. -/
theorem free_iff (t : Text) : Sed.Free imageReference t ↔ NoReference t := by
  constructor
  · intro h pre post ht
    have hsuffix : imageKey ++ post <:+ t := ⟨pre, by rw [ht, List.append_assoc]⟩
    have hne : imageKey ++ post ≠ [] := List.append_ne_nil_of_left_ne_nil imageKey_ne_nil post
    exact imageReference_eq_none_iff.1 (h _ hsuffix hne) post rfl
  · intro h s hs hne
    obtain ⟨pre, rfl⟩ := hs
    refine imageReference_eq_none_iff.2 fun post hpost => h pre post ?_
    rw [hpost, List.append_assoc]

/-- Where it matches: the key, white space and a word, which the registry is put in front of. -/
theorem imageReference_eq_some {t replacement : Text} {n : Nat} (h : imageReference t = some (n, replacement)) :
    ∃ gap word post, t = imageKey ++ gap ++ word ++ post ∧ word ≠ [] ∧ n = imageKey.length + gap.length + word.length - 1 ∧
      replacement = imageKey ++ gap ++ registry ++ word := by
  by_cases hkey : imageKey <+: t
  · obtain ⟨rest, rfl⟩ := hkey
    rw [imageReference_append] at h
    split at h
    · cases h
    · rename_i hword
      obtain ⟨rfl, rfl⟩ := Prod.mk.inj (Option.some.inj h)
      refine ⟨rest.takeWhile isSpace, _, (rest.dropWhile isSpace).dropWhile (!isSpace ·), ?_, hword, rfl, rfl⟩
      rw [List.append_assoc _ _ (List.dropWhile _ _), List.takeWhile_append_dropWhile, List.append_assoc,
        List.takeWhile_append_dropWhile]
  · rw [imageReference_eq_none hkey] at h
    cases h

/-- Where the command matches, in full: a word goes as far as it can. -/
theorem imageReference_span {t replacement : Text} {n : Nat} (h : imageReference t = some (n, replacement)) :
    ∃ gap word post, t = imageKey ++ gap ++ word ++ post ∧ (∀ c ∈ gap, isSpace c = true) ∧ word ≠ [] ∧
      (∀ c ∈ word, isSpace c = false) ∧ (∀ c ∈ post.head?, isSpace c = true) ∧
      n + 1 = (imageKey ++ gap ++ word).length ∧ replacement = imageKey ++ gap ++ registry ++ word := by
  by_cases hkey : imageKey <+: t
  · obtain ⟨rest, rfl⟩ := hkey
    rw [imageReference_append] at h
    split at h
    · cases h
    · rename_i hword
      obtain ⟨rfl, rfl⟩ := Prod.mk.inj (Option.some.inj h)
      refine ⟨rest.takeWhile isSpace, _, (rest.dropWhile isSpace).dropWhile (!isSpace ·), ?_, ?_, hword, ?_, ?_, ?_, rfl⟩
      · rw [List.append_assoc _ _ (List.dropWhile _ _), List.takeWhile_append_dropWhile, List.append_assoc,
          List.takeWhile_append_dropWhile]
      · exact fun c hc => List.mem_takeWhile_imp hc
      · intro c hc
        simpa using List.mem_takeWhile_imp hc
      · intro c hc
        have hhead := List.head?_dropWhile_not (!isSpace ·) (rest.dropWhile isSpace)
        rw [Option.mem_def.1 hc] at hhead
        simpa using hhead
      · have hpos := List.length_pos_iff.2 hword
        simp only [List.length_append]
        omega
  · rw [imageReference_eq_none hkey] at h
    cases h

/-- A replacement is longer than its match. -/
theorem imageReference_grows (t : Text) (n : Nat) (replacement : Text) (h : imageReference t = some (n, replacement)) :
    n + 1 < replacement.length := by
  obtain ⟨gap, word, post, -, hword, rfl, rfl⟩ := imageReference_eq_some h
  have hpos : 0 < word.length := List.length_pos_iff.2 hword
  simp only [List.length_append, length_registry]
  omega

/-- A word and what follows it. -/
theorem takeWhile_word {word post : Text} (hword : ∀ c ∈ word, isSpace c = false) (hpost : ∀ c ∈ post.head?, isSpace c = true) :
    (word ++ post).takeWhile (!isSpace ·) = word := by
  rw [List.takeWhile_append_of_pos (by simpa using hword)]
  cases post with
  | nil => simp
  | cons c cs =>
    have hc : isSpace c = true := hpost c rfl
    rw [List.takeWhile_cons_of_neg (by simp [hc]), List.append_nil]

/-- White space and what follows it. -/
theorem span_gap {gap t : Text} (hgap : ∀ c ∈ gap, isSpace c = true) (ht : ∀ c ∈ t.head?, isSpace c = false) :
    (gap ++ t).takeWhile isSpace = gap ∧ (gap ++ t).dropWhile isSpace = t := by
  rw [List.takeWhile_append_of_pos hgap, List.dropWhile_append_of_pos hgap]
  cases t with
  | nil => simp
  | cons c cs =>
    have hc : isSpace c = false := ht c rfl
    rw [List.takeWhile_cons_of_neg (by simp [hc]), List.dropWhile_cons_of_neg (by simp [hc]), List.append_nil]
    exact ⟨rfl, rfl⟩

/-! ## The command -/

/-- A line stays a line. -/
theorem newline_not_mem_gsub {r : Text} (h : '\n' ∉ r) : '\n' ∉ Sed.gsub imageReference r := by
  intro hmem
  rcases Sed.mem_gsub hmem with hmem | ⟨s, n, replacement, hs, hmatch, hmem⟩
  · exact h hmem
  · obtain ⟨gap, word, post, rfl, -, -, rfl⟩ := imageReference_eq_some hmatch
    have hregistry : '\n' ∉ registry := by decide
    refine h (hs.subset ?_)
    simp only [List.mem_append] at hmem ⊢
    tauto

/-- The lines of the bundle for AWS are those of the bundle, each as the command leaves it. -/
theorem records_genCompleteDemoAws (C : Collation) (B : Batching) (t : Tree) :
    records (genCompleteDemoAws C B t) = (records (genCompleteDemo C B t)).map (Sed.gsub imageReference) := by
  refine records_unlines fun r hr => ?_
  obtain ⟨r', hr', rfl⟩ := List.mem_map.1 hr
  exact newline_not_mem_gsub (records_free _ r' hr')

/-! ## Entries -/

/-- A blank is white space. -/
theorem isSpace_of_isBlank {c : Char} (h : isBlank c = true) : isSpace c = true := by
  unfold isBlank at h
  rcases (Bool.or_eq_true _ _).mp h with h | h
  · rw [of_decide_eq_true h]
    decide
  · rw [of_decide_eq_true h]
    decide

/-- A scalar begins with a character that is no white space. -/
theorem text_eq_cons (scalar : Scalar) : ∃ c cs, scalar.text = c :: cs ∧ isSpace c = false := by
  cases scalar with
  | plain text h =>
    cases text with
    | nil => cases h
    | cons c cs =>
      refine ⟨c, cs, rfl, ?_⟩
      unfold isPlain at h
      simp only [Bool.and_eq_true] at h
      simpa using h.1.1
  | single value => exact ⟨_, _, rfl, by decide⟩
  | double pieces => exact ⟨_, _, rfl, by decide⟩

/-- At the key of an entry the match is the key, the gap and the first word. -/
theorem imageReference_key {gap value : Text} (hgap : ∀ c ∈ gap, isSpace c = true)
    (hvalue : ∃ c cs, value = c :: cs ∧ isSpace c = false) :
    imageReference (imageKey ++ (gap ++ value)) =
      some ((imageKey ++ gap ++ value.takeWhile (!isSpace ·)).length - 1,
        imageKey ++ gap ++ registry ++ value.takeWhile (!isSpace ·)) := by
  obtain ⟨c, cs, rfl, hc⟩ := hvalue
  have htake : (gap ++ c :: cs).takeWhile isSpace = gap := by
    rw [List.takeWhile_append_of_pos hgap, List.takeWhile_cons_of_neg (by simp [hc]), List.append_nil]
  have hdrop : (gap ++ c :: cs).dropWhile isSpace = c :: cs := by
    rw [List.dropWhile_append_of_pos hgap, List.dropWhile_cons_of_neg (by simp [hc])]
  have hword : (c :: cs).takeWhile (!isSpace ·) ≠ [] := by
    rw [List.takeWhile_cons_of_pos (by simp [hc])]
    exact List.cons_ne_nil _ _
  rw [imageReference_append, htake, hdrop, if_neg hword, List.length_append, List.length_append]

/-- Behind the colon of an entry there is something, with a blank at its end. -/
theorem between_getLast? (e : ImageEntry) : ∃ c ∈ e.between.getLast?, isSpace c = true := by
  have hlast : ∀ t : Text, t ≠ [] ∧ (∀ c ∈ t, isBlank c = true) → ∃ c ∈ t.getLast?, isSpace c = true := by
    rintro t ⟨hne, hblank⟩
    exact ⟨_, List.getLast?_eq_some_getLast hne, isSpace_of_isBlank (hblank _ (List.getLast_mem hne))⟩
  rw [ImageEntry.between]
  rcases List.eq_nil_or_concat e.properties with hnil | ⟨properties, p, hconcat⟩
  · rw [hnil, List.flatMap_nil, List.append_nil]
    exact hlast e.gap e.gap_blank
  · have hp := (e.isProperty_properties p (by simp [hconcat])).2
    rw [hconcat, List.concat_eq_append, List.flatMap_append, List.flatMap_singleton, ← List.append_assoc, ← List.append_assoc,
      List.getLast?_append_of_ne_nil _ hp.1]
    exact hlast p.2 hp

/-- And so in front of the scalar. -/
theorem front_getLast? (e : ImageEntry) : ∀ c ∈ e.front.getLast?, isSpace c = true := by
  obtain ⟨c, hc, hspace⟩ := between_getLast? e
  have hfront : e.front.getLast? = some c := by
    rw [ImageEntry.front, List.getLast?_append, List.getLast?_cons, Option.mem_def.1 hc]
    rfl
  intro c' hc'
  rw [hfront] at hc'
  rwa [← Option.some.inj hc']

/-- The key reaches into nothing behind white space. -/
theorem imageKey_prefix_of_append {s t : Text} (hlast : ∀ c ∈ s.getLast?, isSpace c = true) (hne : s ≠ [])
    (h : imageKey <+: s ++ t) : imageKey <+: s := by
  rcases List.prefix_or_prefix_of_prefix h (List.prefix_append s t) with h | h
  · exact h
  · have hkey : imageKey.all (!isSpace ·) = true := by decide
    have hword := List.all_eq_true.1 hkey _ (h.subset (List.getLast_mem hne))
    rw [hlast _ (List.getLast?_eq_some_getLast hne)] at hword
    cases hword

/-- What stands at the end of the end of a text. -/
theorem getLast?_of_suffix {s t : Text} (hs : s <:+ t) (hne : s ≠ []) (h : ∀ c ∈ t.getLast?, isSpace c = true) :
    ∀ c ∈ s.getLast?, isSpace c = true := by
  obtain ⟨pre, rfl⟩ := hs
  rwa [List.getLast?_append_of_ne_nil _ hne] at h

/-- Where the key does not stand in front of the scalar, no match begins there. -/
theorem gsub_front_append {e : ImageEntry} (h : ¬imageKey <:+: e.front) (t : Text) :
    Sed.gsub imageReference (e.front ++ t) = e.front ++ Sed.gsub imageReference t := by
  refine Sed.gsub_append fun s hs hne => imageReference_eq_none fun hkey => h ?_
  exact (imageKey_prefix_of_append (getLast?_of_suffix hs hne (front_getLast? e)) hne hkey).isInfix.trans hs.isInfix

/-- Nothing is changed in front of the key when only white space stands behind it: a match that began before it would have the colon of
the key behind its own. -/
theorem gsub_lead_append {lead gap t : Text} (hnone : NoReference (lead ++ imageKey ++ gap)) :
    Sed.gsub imageReference (lead ++ (imageKey ++ (gap ++ t))) = lead ++ Sed.gsub imageReference (imageKey ++ (gap ++ t)) := by
  refine Sed.gsub_append fun s hs hne => imageReference_eq_none fun h => ?_
  obtain ⟨pre, hpre⟩ := hs
  have hlen := List.length_pos_iff.2 hne
  obtain ⟨post, hpost⟩ : imageKey <+: s ++ imageKey := by
    refine List.prefix_of_prefix_length_le h ⟨gap ++ t, by rw [List.append_assoc]⟩ ?_
    rw [List.length_append]
    omega
  have hwhole : lead ++ imageKey ++ gap = pre ++ imageKey ++ (post ++ gap) := by
    rw [← hpre, List.append_assoc pre, ← hpost]
    simp only [List.append_assoc]
  have hspace := hnone pre (post ++ gap) hwhole
  have hne' : post ≠ [] := by
    rintro rfl
    have := congrArg List.length hpost
    rw [List.length_append, List.length_append, List.length_nil] at this
    omega
  have hlast := congrArg List.getLast? hpost
  rw [List.getLast?_append_of_ne_nil _ hne', List.getLast?_append_of_ne_nil _ imageKey_ne_nil] at hlast
  cases hspace ':' (List.mem_append_left _ (List.mem_of_getLast? hlast))

/-- Where it stands there, and only white space behind it, the line gets the registry before the first word of the scalar, and goes on
with what the command makes of the rest. -/
theorem gsub_text {e : ImageEntry} (hkey : imageKey <:+: e.front) (hnone : NoReference e.front) :
    Sed.gsub imageReference e.text =
      e.front ++ (registry ++ (e.scalar.text ++ e.trail).takeWhile (!isSpace ·) ++
        Sed.gsub imageReference ((e.scalar.text ++ e.trail).dropWhile (!isSpace ·))) := by
  obtain ⟨pre, gap, hfront⟩ := hkey
  have hgap : ∀ c ∈ gap, isSpace c = true := hnone pre gap hfront.symm
  have hvalue : ∃ c cs, e.scalar.text ++ e.trail = c :: cs ∧ isSpace c = false := by
    obtain ⟨c, cs, htext, hc⟩ := text_eq_cons e.scalar
    exact ⟨c, cs ++ e.trail, by rw [htext, List.cons_append], hc⟩
  have hmatch := imageReference_key hgap hvalue
  rw [ImageEntry.text]
  generalize e.scalar.text ++ e.trail = value at hmatch ⊢
  have hpre : Sed.gsub imageReference (pre ++ (imageKey ++ (gap ++ value))) =
      pre ++ Sed.gsub imageReference (imageKey ++ (gap ++ value)) := gsub_lead_append (hfront ▸ hnone)
  have hsplit : imageKey ++ (gap ++ value) =
      imageKey ++ gap ++ value.takeWhile (!isSpace ·) ++ value.dropWhile (!isSpace ·) := by
    rw [List.append_assoc _ _ (List.dropWhile _ _), List.takeWhile_append_dropWhile, List.append_assoc]
  have hne : imageKey ++ gap ++ value.takeWhile (!isSpace ·) ≠ [] :=
    List.append_ne_nil_of_left_ne_nil (List.append_ne_nil_of_left_ne_nil imageKey_ne_nil _) _
  rw [← hfront, List.append_assoc, List.append_assoc, hpre]
  rw [hsplit] at hmatch ⊢
  rw [Sed.gsub_append_match hne hmatch]
  simp only [List.append_assoc]

/-- Behind the last key of a text there may be white space. -/
theorem noReference_key_append {t : Text} (h : ∀ c ∈ t, isSpace c = true) : NoReference (imageKey ++ t) := by
  intro pre post hpost c hc
  have hle : post.length ≤ t.length := by
    have hlen := congrArg List.length hpost
    simp only [List.length_append] at hlen
    omega
  have hsuffix : post <:+ t := List.suffix_of_suffix_length_le ⟨_, hpost.symm⟩ (List.suffix_append imageKey t) hle
  exact h c (hsuffix.subset hc)

/-- A word ends where white space stands, whatever follows. -/
theorem takeWhile_append_of_mem {s : Text} {c : Char} (hc : c ∈ s) (hspace : isSpace c = true) (t : Text) :
    (s ++ t).takeWhile (!isSpace ·) = s.takeWhile (!isSpace ·) := by
  rw [List.takeWhile_append, if_neg]
  intro hlen
  have hall := List.takeWhile_eq_self_iff.1 ((List.takeWhile_prefix (!isSpace ·)).eq_of_length hlen) c hc
  rw [hspace] at hall
  cases hall

/-- A text is white space and something that does not begin with any. -/
theorem exists_spaces_append (s : Text) :
    ∃ spaces rest, s = spaces ++ rest ∧ (∀ x ∈ spaces, isSpace x = true) ∧ ∀ x ∈ rest.head?, isSpace x = false := by
  refine ⟨s.takeWhile isSpace, s.dropWhile isSpace, List.takeWhile_append_dropWhile.symm, fun x hx => List.mem_takeWhile_imp hx, ?_⟩
  intro x hx
  have hhead := List.head?_dropWhile_not isSpace s
  rw [Option.mem_def.1 hx] at hhead
  simpa using hhead

/-- Between the key and the word that the registry is put in front of there is white space alone, if all of it stands in front of a
scalar, with white space at its end, and is kept. -/
theorem spaces_of_append {s cs gap word post t t' : Text} {c : Char} (hlast : ∀ x ∈ (imageKey ++ s).getLast?, isSpace x = true)
    (hgap : ∀ x ∈ gap, isSpace x = true) (hne : word ≠ []) (hword : ∀ x ∈ word, isSpace x = false)
    (hpost : ∀ x ∈ post.head?, isSpace x = true) (hbefore : s ++ c :: cs = gap ++ (word ++ post))
    (hafter : s ++ t = gap ++ (registry ++ (word ++ t'))) : ∀ x ∈ s, isSpace x = true := by
  by_contra hnot
  obtain ⟨spaces, rest, hs, hspaces, hrest⟩ := exists_spaces_append s
  have hrest_ne : rest ≠ [] := by
    rintro rfl
    rw [List.append_nil] at hs
    exact hnot (hs ▸ hspaces)
  have hhead : ∀ t : Text, ∀ x ∈ (rest ++ t).head?, isSpace x = false := by
    intro t x hx
    rw [List.head?_append_of_ne_nil _ hrest_ne] at hx
    exact hrest x hx
  have hwordHead : ∀ x ∈ (word ++ post).head?, isSpace x = false := by
    intro x hx
    rw [List.head?_append_of_ne_nil _ hne] at hx
    exact hword x (List.mem_of_head? hx)
  -- so the gap of the match is that white space, and the word what follows it, up to the next white space
  rw [hs, List.append_assoc] at hbefore hafter
  have hgap_eq : spaces = gap := by
    rw [← (span_gap hspaces (hhead (c :: cs))).1, hbefore, (span_gap hgap hwordHead).1]
  rw [hgap_eq] at hbefore hafter
  have hbefore' := congrArg (List.takeWhile (!isSpace ·)) (List.append_cancel_left hbefore)
  have hafter' := congrArg (List.takeWhile (!isSpace ·)) (List.append_cancel_left hafter)
  have hmem : rest.getLast hrest_ne ∈ rest := List.getLast_mem hrest_ne
  have hspace : isSpace (rest.getLast hrest_ne) = true := by
    refine hlast _ ?_
    rw [hs, ← List.append_assoc, List.getLast?_append_of_ne_nil _ hrest_ne]
    exact List.getLast?_eq_some_getLast hrest_ne
  rw [takeWhile_append_of_mem hmem hspace, takeWhile_word hword hpost] at hbefore'
  have hregistry : registry.all (!isSpace ·) = true := by decide
  rw [takeWhile_append_of_mem hmem hspace, hbefore', List.takeWhile_append_of_pos (List.all_eq_true.1 hregistry),
    List.takeWhile_append_of_pos (by simpa using hword)] at hafter'
  have hlen := congrArg List.length hafter'
  rw [List.length_append, List.length_append, length_registry] at hlen
  omega

/-- The command keeps what stands in front of a scalar only where no match ends there. -/
theorem noReference_of_gsub_append {s cs t : Text} {c : Char} (hlast : ∀ x ∈ s.getLast?, isSpace x = true) (hc : isSpace c = false)
    (h : Sed.gsub imageReference (s ++ c :: cs) = s ++ t) : NoReference s := by
  induction s with
  | nil =>
    intro pre post hpre
    exact absurd hpre.symm (List.append_ne_nil_of_left_ne_nil (List.append_ne_nil_of_right_ne_nil _ imageKey_ne_nil) _)
  | cons x xs ih =>
    cases hm : imageReference (x :: (xs ++ c :: cs)) with
    | none =>
      rw [List.cons_append, Sed.gsub_of_none hm] at h
      have hlast' : ∀ x ∈ xs.getLast?, isSpace x = true := by
        cases xs with
        | nil => exact fun x hx => absurd hx (Option.not_mem_none x)
        | cons y ys => exact hlast
      have hxs := ih hlast' (List.cons.inj h).2
      intro pre post hpre
      cases pre with
      | nil =>
        have hspace := imageReference_eq_none_iff.1 hm (post ++ c :: cs)
          (by rw [← List.cons_append, hpre, List.nil_append, List.append_assoc])
        rw [hspace c (List.mem_append_right _ List.mem_cons_self)] at hc
        cases hc
      | cons y pre => exact hxs pre post (List.cons.inj hpre).2
    | some found =>
      obtain ⟨n, replacement⟩ := found
      obtain ⟨gap, word, post, ht, hgap, hne, hword, hpost, -, rfl⟩ := imageReference_span hm
      have hkey : imageKey <+: x :: xs := by
        refine imageKey_prefix_of_append (t := c :: cs) hlast (List.cons_ne_nil _ _) ?_
        rw [List.cons_append, ht]
        simp only [List.append_assoc]
        exact List.prefix_append _ _
      obtain ⟨rest, hrest⟩ := hkey
      rw [List.cons_append, Sed.gsub_of_some hm, ← hrest] at h
      rw [← List.cons_append, ← hrest] at ht
      simp only [List.append_assoc] at h ht
      have hbefore : rest ++ c :: cs = gap ++ (word ++ post) := List.append_cancel_left ht
      have hafter := (List.append_cancel_left h).symm
      rw [← hrest] at hlast ⊢
      exact noReference_key_append (spaces_of_append hlast hgap hne hword hpost hbefore hafter)
/-! ## Scalars -/

/-- Writing something for every item of a list makes nothing shorter. -/
theorem length_le_length_flatMap {α β : Type} {f : α → List β} (h : ∀ a, f a ≠ []) (l : List α) :
    l.length ≤ (l.flatMap f).length := by
  induction l with
  | nil => exact Nat.le_refl 0
  | cons a l ih =>
    have hpos := List.length_pos_iff.2 (h a)
    rw [List.length_cons, List.flatMap_cons, List.length_append]
    omega

/-- A scalar is plain, or it begins with a quote and is longer than what it denotes. -/
theorem plain_or_quoted (scalar : Scalar) :
    (∃ text h, scalar = .plain text h) ∨
      (∃ cs, scalar.text = '\'' :: cs ∨ scalar.text = '"' :: cs) ∧ scalar.value.length < scalar.text.length := by
  cases scalar with
  | plain text h => exact Or.inl ⟨text, h, rfl⟩
  | single value =>
    have hle := length_le_length_flatMap (f := fun c => if c = '\'' then ['\'', '\''] else [c]) (by intro c; split <;> simp) value
    refine Or.inr ⟨⟨_, Or.inl rfl⟩, ?_⟩
    rw [Scalar.text, Scalar.value, List.length_cons, List.length_append]
    omega
  | double pieces =>
    have hle := length_le_length_flatMap (f := Piece.text) (by intro piece; cases piece <;> simp [Piece.text]) pieces
    refine Or.inr ⟨⟨_, Or.inr rfl⟩, ?_⟩
    rw [Scalar.text, Scalar.value, List.length_cons, List.length_append, List.length_map]
    omega

/-- The registry in front of a plain scalar makes a plain scalar. -/
theorem isPlain_registry_append {text : Text} (h : isPlain text = true) : isPlain (registry ++ text) = true := by
  cases text with
  | nil => cases h
  | cons c cs =>
    unfold isPlain at h
    simp only [Bool.and_eq_true, Bool.not_eq_true'] at h
    have hblank : isBlank c = false := by
      cases hc : isBlank c with
      | false => rfl
      | true => rw [isSpace_of_isBlank hc] at h; cases h.1.1
    have hslash : isPlainAfter '/' (c :: cs) = true := by
      rw [isPlainAfter, hblank, h.2]
      rfl
    exact hslash

/-- A scalar whose text begins with the registry is plain. -/
theorem eq_plain_of_text_append {scalar : Scalar} {trail t : Text} (h : scalar.text ++ trail = registry ++ t) :
    scalar.text = scalar.value := by
  rcases plain_or_quoted scalar with ⟨text, hplain, rfl⟩ | ⟨⟨cs, htext | htext⟩, -⟩
  · rfl
  · rw [htext] at h
    cases (List.cons.inj h).1
  · rw [htext] at h
    cases (List.cons.inj h).1

/-- A scalar that begins with a single quote. -/
theorem eq_single_of_text {scalar : Scalar} {cs : Text} (h : scalar.text = '\'' :: cs) : ∃ value, scalar = .single value := by
  cases scalar with
  | plain text hplain =>
    rw [Scalar.text] at h
    rw [h] at hplain
    simp [isPlain, indicators] at hplain
  | single value => exact ⟨value, rfl⟩
  | double pieces => cases (List.cons.inj h).1

/-- A scalar that begins with a double quote. -/
theorem eq_double_of_text {scalar : Scalar} {cs : Text} (h : scalar.text = '"' :: cs) : ∃ pieces, scalar = .double pieces := by
  cases scalar with
  | plain text hplain =>
    rw [Scalar.text] at h
    rw [h] at hplain
    simp [isPlain, indicators] at hplain
  | single value => cases (List.cons.inj h).1
  | double pieces => exact ⟨pieces, rfl⟩

/-! ## Double-quoted scalars -/

/-- A digit that `hexValue` takes. -/
def isHexDigit (d : Char) : Bool := ('0' ≤ d && d ≤ '9') || ('a' ≤ d && d ≤ 'f') || ('A' ≤ d && d ≤ 'F')

/-- `hexValue` takes nothing else. -/
theorem isHexDigit_of_hexValue {digits : List Char} {n : Nat} (h : hexValue digits = some n) : ∀ d ∈ digits, isHexDigit d = true := by
  unfold hexValue at h
  generalize 0 = start at h
  induction digits generalizing start with
  | nil => exact fun d hd => absurd hd List.not_mem_nil
  | cons d digits ih =>
    rw [List.foldlM_cons, Option.bind_eq_bind, Option.bind_eq_some_iff] at h
    obtain ⟨next, hd, hrest⟩ := h
    rw [List.forall_mem_cons]
    refine ⟨?_, ih next hrest⟩
    simp only [isHexDigit, Bool.or_eq_true, Bool.and_eq_true, decide_eq_true_eq]
    by_contra hnot
    rw [not_or, not_or] at hnot
    rw [if_neg hnot.1.1, if_neg hnot.1.2, if_neg hnot.2] at hd
    cases hd

/-- A character that stands in escape sequences. -/
def isEscaping (c : Char) : Bool :=
  c = '\\' || (escapes.map Prod.fst).contains c || (hexEscapes.map Prod.fst).contains c || isHexDigit c

/-- Any other character stands for itself. -/
theorem eq_char_of_mem {c : Char} (hc : isEscaping c = false) {p : Piece} (h : c ∈ p.text) : ∃ hchar, p = .char c hchar := by
  simp only [isEscaping, Bool.or_eq_false_iff, decide_eq_false_iff_not] at hc
  obtain ⟨⟨⟨hbackslash, hescapes⟩, hhex⟩, hdigit⟩ := hc
  cases p with
  | char c' hchar =>
    obtain rfl := List.mem_singleton.1 h
    exact ⟨hchar, rfl⟩
  | escape letter c' hmem =>
    rcases List.mem_cons.1 h with hc | hc
    · exact absurd hc hbackslash
    · obtain rfl := List.mem_singleton.1 hc
      simp [List.mem_map_of_mem (f := Prod.fst) hmem] at hescapes
  | hex letter digits c' hmem hvalue =>
    rcases List.mem_cons.1 h with hc | hc
    · exact absurd hc hbackslash
    rcases List.mem_cons.1 hc with rfl | hc
    · simp [List.mem_map_of_mem (f := Prod.fst) hmem] at hhex
    · rw [isHexDigit_of_hexValue hvalue c hc] at hdigit
      cases hdigit

/-- A piece is not empty, and does not begin with the quote. -/
theorem Piece.text_eq_cons (p : Piece) : ∃ c cs, p.text = c :: cs ∧ c ≠ '"' := by
  cases p with
  | char c h => exact ⟨c, [], rfl, h.1⟩
  | escape letter c h => exact ⟨'\\', _, rfl, by decide⟩
  | hex letter digits c h hc => exact ⟨'\\', _, rfl, by decide⟩

/-- Two texts that begin with a piece begin with the same one. -/
theorem Piece.append_inj {p p' : Piece} {s s' : Text} (h : p.text ++ s = p'.text ++ s') : p.value = p'.value ∧ s = s' := by
  have hescapes : ∀ a ∈ escapes, ∀ b ∈ escapes, a.1 = b.1 → a.2 = b.2 := by decide
  have hhex : ∀ a ∈ hexEscapes, ∀ b ∈ hexEscapes, a.1 = b.1 → a.2 = b.2 := by decide
  have hmixed : ∀ a ∈ escapes, ∀ b ∈ hexEscapes, a.1 ≠ b.1 := by decide
  cases p with
  | char c hc =>
    cases p' with
    | char c' hc' => exact List.cons.inj h
    | escape letter' c' hmem' => exact absurd (List.cons.inj h).1 hc.2
    | hex letter' digits' c' hmem' hvalue' => exact absurd (List.cons.inj h).1 hc.2
  | escape letter c hmem =>
    cases p' with
    | char c' hc' => exact absurd (List.cons.inj h).1.symm hc'.2
    | escape letter' c' hmem' =>
      obtain ⟨hletter, hs⟩ := List.cons.inj (List.cons.inj h).2
      exact ⟨hescapes _ hmem _ hmem' hletter, hs⟩
    | hex letter' digits' c' hmem' hvalue' => exact absurd (List.cons.inj (List.cons.inj h).2).1 (hmixed _ hmem _ hmem')
  | hex letter digits c hmem hvalue =>
    cases p' with
    | char c' hc' => exact absurd (List.cons.inj h).1.symm hc'.2
    | escape letter' c' hmem' => exact absurd (List.cons.inj (List.cons.inj h).2).1.symm (hmixed _ hmem' _ hmem)
    | hex letter' digits' c' hmem' hvalue' =>
      obtain ⟨hletter, hrest⟩ := List.cons.inj (List.cons.inj h).2
      obtain ⟨rfl, hs⟩ := List.append_inj hrest (hhex _ hmem _ hmem' hletter)
      exact ⟨Char.toNat_inj.1 (Option.some.inj (hvalue.symm.trans hvalue')), hs⟩

/-- Where a double-quoted scalar begins with a word that needs no escape, so does what it denotes. -/
theorem value_eq_append {word : Text} (hword : ∀ c ∈ word, c ≠ '"' ∧ c ≠ '\\') {pieces : List Piece} {s t : Text}
    (h : pieces.flatMap Piece.text ++ '"' :: t = word ++ s) : ∃ s', pieces.map Piece.value = word ++ s' := by
  induction word generalizing pieces with
  | nil => exact ⟨_, rfl⟩
  | cons c word ih =>
    rw [List.forall_mem_cons] at hword
    cases pieces with
    | nil => exact absurd (List.cons.inj h).1.symm hword.1.1
    | cons p pieces =>
      have hp : p.text ++ (pieces.flatMap Piece.text ++ '"' :: t) = (Piece.char c hword.1).text ++ (word ++ s) := by
        rw [← List.append_assoc, ← List.flatMap_cons, h]
        rfl
      obtain ⟨hvalue, hrest⟩ := Piece.append_inj hp
      obtain ⟨s', hs'⟩ := ih hword.2 hrest
      exact ⟨s', by rw [List.map_cons, hvalue, hs']; rfl⟩

/-! ## What stands before the first colon -/

/-- The registry has no colon. -/
theorem takeWhile_registry_append (t : Text) : (registry ++ t).takeWhile (· ≠ ':') = registry ++ t.takeWhile (· ≠ ':') := by
  have hregistry : registry.all (· ≠ ':') = true := by decide
  exact List.takeWhile_append_of_pos (List.all_eq_true.1 hregistry)

/-- Where a match begins, the text and what becomes of it both begin with the key. -/
theorem prefix_of_match {t : Text} (hm : imageReference t ≠ none) : imageKey <+: t ∧ imageKey <+: Sed.gsub imageReference t := by
  cases t with
  | nil => exact absurd rfl hm
  | cons c cs =>
    obtain ⟨⟨n, replacement⟩, hfound⟩ := Option.ne_none_iff_exists'.1 hm
    obtain ⟨gap, word, post, ht, -, -, hreplacement⟩ := imageReference_eq_some hfound
    rw [Sed.gsub_of_some hfound, ht, hreplacement]
    simp only [List.append_assoc]
    exact ⟨List.prefix_append _ _, List.prefix_append _ _⟩

/-- What stands before the first colon stays. -/
theorem takeWhile_gsub (t : Text) : (Sed.gsub imageReference t).takeWhile (· ≠ ':') = t.takeWhile (· ≠ ':') := by
  have hkey : ∀ post : Text, (imageKey ++ post).takeWhile (· ≠ ':') = "image".toList := fun post => rfl
  induction t with
  | nil => rfl
  | cons c cs ih =>
    cases hm : imageReference (c :: cs) with
    | none => rw [Sed.gsub_of_none hm, List.takeWhile_cons, List.takeWhile_cons, ih]
    | some found =>
      obtain ⟨⟨post, hpost⟩, ⟨post', hpost'⟩⟩ := prefix_of_match (t := c :: cs) (by rw [hm]; exact Option.some_ne_none _)
      rw [← hpost', ← hpost, hkey, hkey]

/-- So the command does not put the registry in front of a text. -/
theorem gsub_ne_registry_append (t : Text) : Sed.gsub imageReference t ≠ registry ++ t := by
  intro h
  have hlen := congrArg List.length (takeWhile_gsub t)
  rw [h, takeWhile_registry_append, List.length_append, length_registry] at hlen
  omega

/-- A text keeps its first character. -/
theorem head?_gsub (t : Text) : (Sed.gsub imageReference t).head? = t.head? := by
  cases t with
  | nil => rfl
  | cons c cs =>
    cases hm : imageReference (c :: cs) with
    | none =>
      rw [Sed.gsub_of_none hm]
      rfl
    | some found =>
      obtain ⟨⟨post, hpost⟩, ⟨post', hpost'⟩⟩ := prefix_of_match (t := c :: cs) (by rw [hm]; exact Option.some_ne_none _)
      rw [← hpost', ← hpost]
      rfl

/-- No match begins inside a piece. -/
theorem gsub_piece_append {p : Piece} {t : Text} (hm : imageReference (p.text ++ t) = none) :
    Sed.gsub imageReference (p.text ++ t) = p.text ++ Sed.gsub imageReference t := by
  refine Sed.gsub_append fun s hs hne => ?_
  cases s with
  | nil => exact absurd rfl hne
  | cons c cs =>
    by_cases hc : c = 'i'
    · subst hc
      obtain ⟨hchar, rfl⟩ := eq_char_of_mem (c := 'i') (by decide) (hs.subset List.mem_cons_self)
      rw [List.IsSuffix.eq_of_length_le hs (Nat.le_add_left 1 _)]
      exact hm
    · exact imageReference_of_ne hc _

/-- What a double-quoted scalar denotes before the first colon stays too. -/
theorem takeWhile_value_gsub {pieces pieces' : List Piece} {t t' : Text}
    (h : pieces'.flatMap Piece.text ++ '"' :: t' = Sed.gsub imageReference (pieces.flatMap Piece.text ++ '"' :: t)) :
    (pieces'.map Piece.value).takeWhile (· ≠ ':') = (pieces.map Piece.value).takeWhile (· ≠ ':') := by
  induction pieces generalizing pieces' with
  | nil =>
    rw [List.flatMap_nil, List.nil_append, Sed.gsub_of_none (imageReference_of_ne (by decide) t)] at h
    cases pieces' with
    | nil => rfl
    | cons p' pieces' =>
      obtain ⟨c, cs, hp', hc⟩ := p'.text_eq_cons
      rw [List.flatMap_cons, hp'] at h
      exact absurd (List.cons.inj h).1 hc
  | cons p pieces ih =>
    by_cases hm : imageReference ((p :: pieces).flatMap Piece.text ++ '"' :: t) = none
    · rw [List.flatMap_cons, List.append_assoc] at hm h
      rw [gsub_piece_append hm] at h
      cases pieces' with
      | nil =>
        obtain ⟨c, cs, hp, hc⟩ := p.text_eq_cons
        rw [hp] at h
        exact absurd (List.cons.inj h).1.symm hc
      | cons p' pieces' =>
        rw [List.flatMap_cons, List.append_assoc] at h
        obtain ⟨hvalue, hrest⟩ := Piece.append_inj h
        rw [List.map_cons, List.map_cons, List.takeWhile_cons, List.takeWhile_cons, hvalue, ih hrest]
    · obtain ⟨⟨post, hpost⟩, ⟨post', hpost'⟩⟩ := prefix_of_match hm
      have hall : imageKey.all (fun c => c ≠ '"' ∧ c ≠ '\\') = true := by decide
      have hkey : ∀ c ∈ imageKey, c ≠ '"' ∧ c ≠ '\\' := fun c hc => of_decide_eq_true (List.all_eq_true.1 hall c hc)
      obtain ⟨s, hs⟩ := value_eq_append hkey hpost.symm
      obtain ⟨s', hs'⟩ := value_eq_append hkey (h.trans hpost'.symm)
      rw [hs, hs']
      rfl

/-- The command does not put the registry in front of what a scalar denotes, if the match does not begin in front of the scalar. -/
theorem value_ne_of_gsub {scalar scalar' : Scalar} {trail : Text}
    (h : scalar'.text ++ trail = Sed.gsub imageReference (scalar.text ++ trail)) : scalar'.value ≠ registry ++ scalar.value := by
  intro hvalue
  have hhead : (scalar'.text ++ trail).head? = (scalar.text ++ trail).head? := by rw [h, head?_gsub]
  obtain ⟨c, cs, htext, -⟩ := text_eq_cons scalar
  rw [htext] at hhead
  cases scalar' with
  | plain text' hplain' =>
    have htext' : text' = registry ++ scalar.value := hvalue
    subst htext'
    have hc : c = '8' := (Option.some.inj hhead).symm
    rcases plain_or_quoted scalar with ⟨text, hplain, rfl⟩ | ⟨⟨cs', hquote | hquote⟩, -⟩
    · rw [Scalar.text, Scalar.text, Scalar.value, List.append_assoc] at h
      exact gsub_ne_registry_append _ h.symm
    · rw [htext, hc] at hquote
      cases (List.cons.inj hquote).1
    · rw [htext, hc] at hquote
      cases (List.cons.inj hquote).1
  | single value' =>
    have hvalue' : value' = registry ++ scalar.value := hvalue
    subst hvalue'
    rw [← Option.some.inj hhead] at htext
    obtain ⟨value, rfl⟩ := eq_single_of_text htext
    have hregistry : registry.flatMap (fun c => if c = '\'' then ['\'', '\''] else [c]) = registry := by decide
    rw [Scalar.text, Scalar.text, Scalar.value, List.flatMap_append, hregistry] at h
    simp only [List.cons_append, List.append_assoc] at h
    rw [Sed.gsub_of_none (imageReference_of_ne (by decide) _)] at h
    exact gsub_ne_registry_append _ (List.cons.inj h).2.symm
  | double pieces' =>
    rw [← Option.some.inj hhead] at htext
    obtain ⟨pieces, rfl⟩ := eq_double_of_text htext
    rw [Scalar.text, Scalar.text] at h
    simp only [List.cons_append, List.append_assoc, List.nil_append] at h
    rw [Sed.gsub_of_none (imageReference_of_ne (by decide) _)] at h
    have htake := takeWhile_value_gsub (List.cons.inj h).2
    have hvalue' : pieces'.map Piece.value = registry ++ pieces.map Piece.value := hvalue
    have hlen := congrArg List.length htake
    rw [hvalue', takeWhile_registry_append, List.length_append, length_registry] at hlen
    omega

/-! ## What becomes of a line -/

/-- The command makes of an entry that has the key right in front of its scalar what it should exactly when the scalar is plain and no
further reference follows its first word. -/
theorem retargeted_image_iff_of_front {e : ImageEntry} (hkey : imageKey <:+: e.front) (hnone : NoReference e.front) :
    Retargeted (.image e) (Sed.gsub imageReference e.text) ↔
      (∃ text h, e.scalar = .plain text h) ∧ NoReference ((e.scalar.text ++ e.trail).dropWhile (!isSpace ·)) := by
  rw [gsub_text hkey hnone]
  have hsplit := List.takeWhile_append_dropWhile (p := (!isSpace ·)) (l := e.scalar.text ++ e.trail)
  have hfree := Sed.gsub_eq_self_iff imageReference_grows ((e.scalar.text ++ e.trail).dropWhile (!isSpace ·))
  have hle := Sed.length_le_length_gsub imageReference_grows ((e.scalar.text ++ e.trail).dropWhile (!isSpace ·))
  rw [free_iff] at hfree
  rw [← hfree]
  generalize (e.scalar.text ++ e.trail).takeWhile (!isSpace ·) = word at hsplit ⊢
  generalize (e.scalar.text ++ e.trail).dropWhile (!isSpace ·) = rest at hsplit hle ⊢
  constructor
  · rintro ⟨scalar, hout, hvalue⟩
    have hout' : scalar.text ++ e.trail = registry ++ (word ++ Sed.gsub imageReference rest) := by
      rw [← List.append_assoc]
      exact (List.append_cancel_left hout).symm
    rw [eq_plain_of_text_append hout', hvalue, List.append_assoc] at hout'
    have hcancel : e.scalar.value ++ e.trail = word ++ Sed.gsub imageReference rest := List.append_cancel_left hout'
    rcases plain_or_quoted e.scalar with ⟨text, h, hplain⟩ | ⟨-, hlt⟩
    · refine ⟨⟨text, h, hplain⟩, (List.append_right_inj word).1 ?_⟩
      rw [hsplit, ← hcancel, hplain]
      rfl
    -- the scalar that came out is shorter than what the command wrote
    · have hlen := congrArg List.length hcancel
      have hlen' := congrArg List.length hsplit
      simp only [List.length_append] at hlen hlen'
      omega
  · rintro ⟨⟨text, h, hplain⟩, hrest⟩
    refine ⟨.plain (registry ++ text) (isPlain_registry_append h), ?_, ?_⟩
    · have hfront : ({ e with scalar := .plain (registry ++ text) (isPlain_registry_append h) } : ImageEntry).front = e.front := rfl
      rw [hrest, List.append_assoc registry, hsplit, hplain, ImageEntry.text, hfront]
      simp only [Scalar.text, List.append_assoc]
    · rw [hplain]
      rfl

/-- What the command makes of an entry is what it should be exactly when the entry is retargetable. -/
theorem retargeted_image_iff (e : ImageEntry) :
    Retargeted (.image e) (Sed.gsub imageReference e.text) ↔ (Line.image e).Retargetable := by
  by_cases hkey : imageKey <:+: e.front
  · by_cases hnone : NoReference e.front
    · rw [retargeted_image_iff_of_front hkey hnone]
      exact (and_iff_right ⟨hkey, hnone⟩).symm
    · refine iff_of_false ?_ fun h => hnone h.1.2
      rintro ⟨scalar, hout, -⟩
      obtain ⟨c, cs, htext, hc⟩ := text_eq_cons e.scalar
      rw [ImageEntry.text, htext] at hout
      exact hnone (noReference_of_gsub_append (front_getLast? e) hc hout)
  · refine iff_of_false ?_ fun h => hkey h.1.1
    rintro ⟨scalar, hout, hvalue⟩
    rw [ImageEntry.text, gsub_front_append hkey] at hout
    exact value_ne_of_gsub (List.append_cancel_left hout).symm hvalue

/-- And any other line is kept exactly when no reference stands in it. -/
theorem retargeted_other_iff (text : Text) :
    Retargeted (.other text) (Sed.gsub imageReference text) ↔ (Line.other text).Retargetable :=
  (Sed.gsub_eq_self_iff imageReference_grows text).trans (free_iff text)

/-- What becomes of a line is what should exactly when it is retargetable. -/
theorem retargeted_gsub_iff (l : Line) : Retargeted l (Sed.gsub imageReference l.text) ↔ l.Retargetable := by
  cases l with
  | image e => exact retargeted_image_iff e
  | other text => exact retargeted_other_iff text

/-! ## Taking the registry away again -/

/-- The expression `(image:\s*)851725373216.dkr.ecr.us-east-1.amazonaws.com\/([^[:space:]]+)` and the replacement `\1\2`. -/
def registryReference : Sed.Matcher := fun t =>
  if imageKey <+: t then
    let rest := t.drop imageKey.length
    let gap := rest.takeWhile isSpace
    if registry <+: rest.dropWhile isSpace then
      let word := ((rest.dropWhile isSpace).drop registry.length).takeWhile (!isSpace ·)
      if word = [] then none
      else some (imageKey.length + gap.length + registry.length + word.length - 1, imageKey ++ gap ++ word)
    else none
  else none

/-- What the command does to a text begins as the text, as far as there is no `i` in it. -/
theorem gsub_of_prefix {key : Text} (hkey : 'i' ∉ key) {t : Text} (h : key <+: Sed.gsub imageReference t) :
    ∃ post, t = key ++ post ∧ Sed.gsub imageReference t = key ++ Sed.gsub imageReference post := by
  induction key generalizing t with
  | nil => exact ⟨t, rfl, rfl⟩
  | cons x key ih =>
    rw [List.mem_cons, not_or] at hkey
    cases t with
    | nil => cases List.prefix_nil.1 h
    | cons c cs =>
      cases hm : imageReference (c :: cs) with
      | none =>
        rw [Sed.gsub_of_none hm] at h ⊢
        obtain ⟨rfl, hrest⟩ := List.cons_prefix_cons.1 h
        obtain ⟨post, rfl, hpost⟩ := ih hkey.2 hrest
        exact ⟨post, rfl, by rw [hpost]; rfl⟩
      | some found =>
        obtain ⟨gap, word, post, -, -, -, -, -, -, hreplacement⟩ := imageReference_span hm
        rw [Sed.gsub_of_some hm, hreplacement] at h
        obtain ⟨rfl, -⟩ := List.cons_prefix_cons.1 h
        exact absurd rfl hkey.1

/-- What stands behind a word is white space after the command too. -/
theorem gsub_head {post : Text} (hpost : ∀ c ∈ post.head?, isSpace c = true) :
    ∀ c ∈ (Sed.gsub imageReference post).head?, isSpace c = true := by
  cases post with
  | nil => exact hpost
  | cons c cs =>
    have hc : isSpace c = true := hpost c rfl
    have hi : c ≠ 'i' := by
      rintro rfl
      cases hc
    rw [Sed.gsub_of_none (imageReference_of_ne hi cs)]
    intro x hx
    rwa [← Option.some.inj hx]

/-- Where the command put the registry, it is found again. -/
theorem registryReference_replacement {gap word post : Text} (hgap : ∀ c ∈ gap, isSpace c = true) (hne : word ≠ [])
    (hword : ∀ c ∈ word, isSpace c = false) (hpost : ∀ c ∈ post.head?, isSpace c = true) :
    registryReference (imageKey ++ gap ++ registry ++ word ++ post) =
      some ((imageKey ++ gap ++ registry ++ word).length - 1, imageKey ++ gap ++ word) := by
  have hregistry : ∀ c ∈ (registry ++ (word ++ post)).head?, isSpace c = false := by
    intro c hc
    rw [← Option.some.inj hc]
    rfl
  obtain ⟨htake, hdrop⟩ := span_gap hgap hregistry
  rw [List.append_assoc, List.append_assoc, List.append_assoc, registryReference, if_pos (List.prefix_append imageKey _)]
  simp only [List.drop_left, htake, hdrop]
  rw [if_pos (List.prefix_append registry _), takeWhile_word hword hpost, if_neg hne]
  simp only [List.length_append]

/-- No registry is found where the command put none. -/
theorem registryReference_of_none {c : Char} {cs : Text} (h : imageReference (c :: cs) = none) :
    registryReference (c :: Sed.gsub imageReference cs) = none := by
  by_cases hkey : imageKey <+: c :: Sed.gsub imageReference cs
  · have hcons : 'i' = c ∧ "mage:".toList <+: Sed.gsub imageReference cs := List.cons_prefix_cons.1 hkey
    obtain ⟨rfl, hrest⟩ := hcons
    obtain ⟨post, rfl, hpost⟩ := gsub_of_prefix (by decide) hrest
    -- after the key there is nothing but white space, which stays as it is
    have hspace : ∀ c ∈ post, isSpace c = true := imageReference_eq_none_iff.1 h post rfl
    have hfree : Sed.gsub imageReference post = post := by
      refine Sed.gsub_of_free fun s hs hne => ?_
      cases s with
      | nil => exact absurd rfl hne
      | cons x xs =>
        refine imageReference_of_ne ?_ xs
        rintro rfl
        cases hspace 'i' (hs.subset List.mem_cons_self)
    have hnone : ¬registry <+: post.dropWhile isSpace := by
      rw [List.dropWhile_eq_nil_iff.2 hspace]
      decide
    have hdrop : ('i' :: ("mage:".toList ++ post)).drop imageKey.length = post := @List.drop_left _ imageKey post
    rw [registryReference, if_pos hkey, hpost, hfree]
    simp only [hdrop, if_neg hnone]
  · rw [registryReference, if_neg hkey]

/-- A line after the command has all that was in it: taking the registry away again gives the line. -/
theorem gsub_registryReference (t : Text) : Sed.gsub registryReference (Sed.gsub imageReference t) = t := by
  refine Sed.gsub_gsub_eq_self ?_ (fun c cs hm => registryReference_of_none hm) t
  intro c cs n replacement hm
  obtain ⟨gap, word, post, ht, hgap, hne, hword, hpost, hn, rfl⟩ := imageReference_span hm
  have hdrop : cs.drop n = post := by
    rw [← List.drop_succ_cons, ht, hn, List.drop_left]
  have htake : c :: cs.take n = imageKey ++ gap ++ word := by
    rw [← List.take_succ_cons, ht, hn, List.take_left]
  rw [hdrop, htake]
  exact ⟨List.append_ne_nil_of_right_ne_nil _ hne, registryReference_replacement hgap hne hword (gsub_head hpost)⟩

/-- Different lines stay different. -/
theorem gsub_imageReference_inj {t t' : Text} : Sed.gsub imageReference t = Sed.gsub imageReference t' ↔ t = t' := by
  constructor
  · intro h
    rw [← gsub_registryReference t, h, gsub_registryReference]
  · exact fun h => congrArg _ h

/-- Splitting what is made of every item. -/
theorem splitOnP_map {α β : Type} (f : α → β) (p : β → Bool) (l : List α) :
    (l.map f).splitOnP p = (l.splitOnP (p ∘ f)).map (List.map f) := by
  induction l with
  | nil => rfl
  | cons a l ih =>
    rw [List.map_cons, List.splitOnP_cons_eq_if_modifyHead, List.splitOnP_cons_eq_if_modifyHead, ih, Function.comp_apply]
    split
    · rfl
    · cases hl : l.splitOnP (p ∘ f) with
      | nil => rfl
      | cons r rs => rfl

/-- The command makes and takes away no separator: the documents stay, each of their lines as the command leaves it. -/
theorem documents_map_gsub (rs : List Text) :
    documents (rs.map (Sed.gsub imageReference)) = (documents rs).map (List.map (Sed.gsub imageReference)) := by
  have hseparator : (fun r => r == separator) ∘ Sed.gsub imageReference = fun r => r == separator := by
    funext r
    have hkept : Sed.gsub imageReference separator = separator := by decide
    have hiff : Sed.gsub imageReference r = separator ↔ r = separator := by
      conv_lhs => rw [← hkept]
      exact gsub_imageReference_inj
    rw [Function.comp_apply, Bool.eq_iff_iff, beq_iff_eq, beq_iff_eq, hiff]
  unfold documents List.splitOn
  rw [splitOnP_map, hseparator, List.filter_map]
  congr 2
  funext r
  simp

end SockShop.Manifests
