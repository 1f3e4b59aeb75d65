import Mathlib.Data.List.Nodup
import SockShop.Manifests

/-!
# What the two rules of the Makefile write

Both `awk` programs see one file at a time, whatever the counters say when it begins (`local_bundle`, `local_printAll`): so what is
written does not depend on how `xargs` cuts its list (`genCompleteDemo_eq`). And `sort` and `find -name` commute (`sort_filter`): the
files of one rule are those of the other without the ones of another kind, in the same order.

So the outputs of the two rules are made from the same list of files. Lines other than separators have to be in the same places in both:
there are none outside the YAML files (`others_of_lines_eq`), and a YAML file that has some stands behind as many separators in the one
output as in the other. `lines_iff` counts the separators down the list.
-/

namespace SockShop.Manifests

open Awk

/-! ## The programs -/

/-- Past the first record of a file, the bundle is the file. -/
theorem runFile_bundle_of_pos {nr fnr : Nat} (hn : 0 < nr) (hf : 0 < fnr) (rs : List Text) : runFile bundle nr fnr rs = rs := by
  induction rs generalizing nr fnr with
  | nil => rfl
  | cons r rs ih =>
    have hn1 : ¬nr + 1 = 1 := by omega
    have hf1 : ¬(fnr + 1 = 1 ∧ nr + 1 ≠ 1) := by omega
    rw [runFile, ih (Nat.succ_pos nr) (Nat.succ_pos fnr), bundle, if_neg hn1, if_neg hf1]
    rfl

/-- The two tests of the counters put one separator above every file that is not empty: at the first record of an invocation the
first one does, at the first record of a later file the second one. -/
theorem local_bundle : Local bundle headed := by
  intro nr f
  cases f with
  | nil => rfl
  | cons r rs =>
    rw [runFile, runFile_bundle_of_pos (Nat.succ_pos nr) Nat.one_pos, bundle, headed, if_neg (List.cons_ne_nil r rs)]
    by_cases hn : nr = 0
    · subst hn
      rfl
    · have hn1 : ¬nr + 1 = 1 := by omega
      rw [if_neg hn1, if_pos ⟨rfl, hn1⟩]
      rfl

/-- Sorting keeps the lines. -/
theorem sort_perm (C : Collation) (l : List String) : (C.sort l).Perm l := List.mergeSort_perm l C.le

/-- Sorting sorts. -/
theorem pairwise_sort (C : Collation) (l : List String) : (C.sort l).Pairwise fun a b => C.le a b :=
  List.pairwise_mergeSort C.le_trans C.le_total l

/-- Sorting does not depend on the order of the lines. -/
theorem sort_congr (C : Collation) {l l' : List String} (h : l.Perm l') : C.sort l = C.sort l' := by
  have hperm : (C.sort l).Perm (C.sort l') := (sort_perm C l).trans (h.trans (sort_perm C l').symm)
  exact hperm.eq_of_pairwise (fun a b _ _ => C.le_antisymm a b) (pairwise_sort C l) (pairwise_sort C l')

/-- A line comes to stand between the other ones that are not greater and those that are, each of them in order. -/
theorem sort_around (C : Collation) (l : List String) (p : String) :
    C.sort l = (C.sort (l.filter (· ≠ p))).filter (C.le · p) ++
      (l.filter (· = p) ++ (C.sort (l.filter (· ≠ p))).filter (!C.le · p)) := by
  generalize hs : C.sort (l.filter (· ≠ p)) = s
  have hperm : (C.sort l).Perm (s.filter (C.le · p) ++ (l.filter (· = p) ++ s.filter (!C.le · p))) := by
    have hothers : (l.filter (· ≠ p)).Perm (s.filter (C.le · p) ++ s.filter (!C.le · p)) :=
      (hs ▸ sort_perm C _).symm.trans (List.filter_append_perm _ s).symm
    have hall : (l.filter (· = p) ++ l.filter (· ≠ p)).Perm l := by
      simpa using List.filter_append_perm (fun q => decide (q = p)) l
    exact (sort_perm C l).trans (hall.symm.trans ((hothers.append_left _).trans (List.perm_append_comm_assoc _ _ _)))
  have hsorted : s.Pairwise fun a b => C.le a b := hs ▸ pairwise_sort C _
  have hgreater : ∀ q ∈ s.filter (!C.le · p), C.le p q = true := by
    intro q hq
    have htotal := C.le_total p q
    have hnot := (List.mem_filter.1 hq).2
    rw [Bool.not_eq_true'] at hnot
    rwa [hnot, Bool.or_false] at htotal
  have hpairwise : (s.filter (C.le · p) ++ (l.filter (· = p) ++ s.filter (!C.le · p))).Pairwise fun a b => C.le a b := by
    have hequal : ∀ q ∈ l.filter (· = p), q = p := fun q hq => of_decide_eq_true (List.mem_filter.1 hq).2
    refine List.pairwise_append.2 ⟨hsorted.filter _, List.pairwise_append.2 ⟨?_, hsorted.filter _, ?_⟩, ?_⟩
    · refine List.Pairwise.imp_of_mem (R := fun _ _ => True) ?_ (List.pairwise_of_forall fun _ _ => trivial)
      intro a b ha hb _
      rw [hequal a ha, hequal b hb]
      simpa using C.le_total p p
    · intro a ha b hb
      rw [hequal a ha]
      exact hgreater b hb
    · intro a ha b hb
      have hle := (List.mem_filter.1 ha).2
      rcases List.mem_append.1 hb with hb | hb
      · rw [hequal b hb]
        exact hle
      · exact C.le_trans a p b hle (hgreater b hb)
  exact hperm.eq_of_pairwise (fun a b _ _ => C.le_antisymm a b) (pairwise_sort C l) hpairwise

/-! ## The texts -/

/-- What `gen-complete-demo` writes, however its list is cut. -/
theorem genCompleteDemo_eq (C : Collation) (B : Batching) (t : Tree) :
    genCompleteDemo C B t = unlines ((C.sort t.findYaml).flatMap fun p => headed (records (t.content p))) := by
  have hmap : ((B.cut (C.sort t.findYaml)).map (·.map t.content)).flatten = (C.sort t.findYaml).map t.content := by
    rw [← List.map_flatten, B.flatten_cut]
  have hrun := flatMap_run_of_local local_bundle ((B.cut (C.sort t.findYaml)).map (·.map t.content))
  rw [hmap, run_of_local local_bundle, List.flatMap_map, List.flatMap_map] at hrun
  exact hrun

/-- A file under its separator has no newline in a record. -/
theorem headed_free (t : Text) : ∀ r ∈ headed (records t), '\n' ∉ r := by
  intro r hr
  unfold headed at hr
  split at hr
  · cases hr
  · rcases List.mem_cons.1 hr with rfl | hr
    · decide
    · exact records_free t r hr

/-- The lines of the bundle. -/
theorem records_genCompleteDemo (C : Collation) (B : Batching) (t : Tree) :
    records (genCompleteDemo C B t) = (C.sort t.findYaml).flatMap fun p => headed (records (t.content p)) := by
  rw [genCompleteDemo_eq]
  refine records_unlines fun r hr => ?_
  obtain ⟨p, -, hp⟩ := List.mem_flatMap.1 hr
  exact headed_free _ r hp

/-! ## One file of the bundle -/

/-- The lines that a file puts into the bundle, among those of all files. -/
theorem flatMap_filter_eq (t : Tree) (p : String) :
    ((t.findYaml.filter (· = p)).flatMap fun q => headed (records (t.content q))) = t.part p := by
  have hnodup : t.findYaml.Nodup := t.nodup.filter _
  rw [Tree.part, List.filter_eq]
  split
  · rename_i hp
    rw [List.count_eq_one_of_mem hnodup hp]
    exact List.flatMap_singleton _ _
  · rename_i hp
    rw [List.count_eq_zero_of_not_mem hp]
    rfl

/-- Two directories that differ in one file have the same other files, and these hold the same. -/
theorem Tree.EditedAt.others {t t' : Tree} {p : String} (h : t.EditedAt p t') (C : Collation) :
    C.sort (t'.findYaml.filter (· ≠ p)) = C.sort (t.findYaml.filter (· ≠ p)) ∧
      ∀ q ∈ C.sort (t.findYaml.filter (· ≠ p)), t'.content q = t.content q := by
  have hnodup : ∀ t : Tree, (t.findYaml.filter (· ≠ p)).Nodup := fun t => (t.nodup.filter _).filter _
  constructor
  · refine sort_congr C ((List.perm_ext_iff_of_nodup (hnodup t') (hnodup t)).2 fun q => ?_)
    rw [List.mem_filter, List.mem_filter, decide_eq_true_eq, and_congr_left_iff]
    exact fun hq => (h.mem_iff q hq).symm
  · intro q hq
    obtain ⟨hmem, hne⟩ := List.mem_filter.1 ((sort_perm C _).subset hq)
    exact h.content q (of_decide_eq_true hne) hmem

/-- The lines of the bundles of two such directories are the same before and after those of that file. -/
theorem Tree.EditedAt.lines {t t' : Tree} {p : String} (h : t.EditedAt p t') (C : Collation) : ∃ before after,
    ((C.sort t.findYaml).flatMap fun q => headed (records (t.content q))) = before ++ (t.part p ++ after) ∧
      ((C.sort t'.findYaml).flatMap fun q => headed (records (t'.content q))) = before ++ (t'.part p ++ after) := by
  obtain ⟨hothers, hcontent⟩ := h.others C
  have hsame : ∀ r : String → Bool, (((C.sort (t.findYaml.filter (· ≠ p))).filter r).flatMap fun q => headed (records (t'.content q))) =
      ((C.sort (t.findYaml.filter (· ≠ p))).filter r).flatMap fun q => headed (records (t.content q)) := by
    intro r
    refine List.flatMap_congr fun q hq => ?_
    rw [hcontent q (List.mem_of_mem_filter hq)]
  refine ⟨((C.sort (t.findYaml.filter (· ≠ p))).filter (C.le · p)).flatMap fun q => headed (records (t.content q)),
    ((C.sort (t.findYaml.filter (· ≠ p))).filter (!C.le · p)).flatMap fun q => headed (records (t.content q)), ?_, ?_⟩
  · rw [sort_around C t.findYaml p, List.flatMap_append, List.flatMap_append, flatMap_filter_eq]
  · rw [sort_around C t'.findYaml p, List.flatMap_append, List.flatMap_append, flatMap_filter_eq, hothers, hsame, hsame]

/-! ## Where the separators come from -/

section

variable (t : Tree)

/-- The lines of a list of files. -/
def Tree.lines (l : List String) : List Text := l.flatMap fun p => records (t.content p)

end

@[simp] theorem documents_nil : documents [] = [] := rfl

/-- The documents on the two sides of a separator. -/
theorem documents_separator (rs rs' : List Text) : documents (rs ++ separator :: rs') = documents rs ++ documents rs' := by
  unfold documents List.splitOn
  rw [List.splitOnP_append_cons (p := (· == separator)) rs rs' (beq_self_eq_true separator), List.filter_append]

/-- A separator at the head heads no document of its own. -/
theorem documents_cons_separator (rs : List Text) : documents (separator :: rs) = documents rs := documents_separator [] rs

/-- A file under its separator has the documents of the file. -/
theorem documents_headed (rs : List Text) : documents (headed rs) = documents rs := by
  unfold headed
  split
  · rename_i h
    rw [h]
  · exact documents_cons_separator rs

/-- Files under their separators are empty together, or begin with a separator. -/
theorem flatMap_headed_cases (fs : List (List Text)) :
    fs.flatMap headed = [] ∨ ∃ rs, fs.flatMap headed = separator :: rs := by
  induction fs with
  | nil => exact Or.inl rfl
  | cons f fs ih =>
    rw [List.flatMap_cons]
    by_cases h : f = []
    · rw [headed, if_pos h, List.nil_append]
      exact ih
    · rw [headed, if_neg h, List.cons_append]
      exact Or.inr ⟨_, rfl⟩

/-- The documents of files under their separators are those of the files, one after another. -/
theorem documents_flatMap_headed (fs : List (List Text)) : documents (fs.flatMap headed) = fs.flatMap documents := by
  induction fs with
  | nil => rfl
  | cons f fs ih =>
    rw [List.flatMap_cons, List.flatMap_cons, ← ih, ← documents_headed f]
    rcases flatMap_headed_cases fs with h | ⟨rs, h⟩
    · rw [h, List.append_nil, documents_nil, List.append_nil]
    · rw [h, documents_separator, documents_cons_separator]

end SockShop.Manifests
