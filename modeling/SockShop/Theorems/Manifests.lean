import Mathlib.Data.String.Basic
import SockShop.Lemmas.Manifests

/-!
# The generator and the checker of the bundled manifest

The bundle is made of the files as they are, each under a separator, however the list of files is cut (`bundle_batches`).

`gen-complete-demo` puts a separator above every YAML file that is not empty, and `check-complete-demo` compares with all the files as
they are. The two agree on every content of `complete-demo.yaml` only for a directory whose files supply the separators themselves
(`check_iff_gen`): the other files hold nothing but separators, one for each YAML file that is not empty, and each of them where
the bundle has it. With YAML files alone that is so only when all of them are empty.
-/

namespace SockShop.Manifests

open Awk

/-- However `xargs` cuts the list of files, the bundle has for each file that is not empty, in order, one separator and the lines of the
file, and nothing for an empty one: so it is what one invocation on all the files writes, and its documents are those of the
files, one after another. -/
theorem bundle_batches (batches : List (List Text)) :
    batches.flatMap (run bundle) = unlines (batches.flatten.flatMap fun t => headed (records t)) ∧
    batches.flatMap (run bundle) = run bundle batches.flatten ∧
    documents (records (batches.flatMap (run bundle))) = batches.flatten.flatMap fun t => documents (records t) := by
  have hrun : batches.flatMap (run bundle) = run bundle batches.flatten := flatMap_run_of_local local_bundle batches
  have hlines : run bundle batches.flatten = unlines (batches.flatten.flatMap fun t => headed (records t)) :=
    run_of_local local_bundle batches.flatten
  refine ⟨hrun.trans hlines, hrun, ?_⟩
  have hfree : ∀ r ∈ batches.flatten.flatMap fun t => headed (records t), '\n' ∉ r := by
    intro r hr
    obtain ⟨t, -, ht⟩ := List.mem_flatMap.1 hr
    exact headed_free t r ht
  rw [hrun, hlines, records_unlines hfree]
  have hdocuments := documents_flatMap_headed (batches.flatten.map records)
  rw [List.flatMap_map, List.flatMap_map] at hdocuments
  exact hdocuments

/-- The order of the characters' code points. -/
def byCodePoint : Collation where
  le a b := decide (a ≤ b)
  le_trans a b c h h' := by
    rw [decide_eq_true_eq] at *
    exact le_trans h h'
  le_total a b := by
    rw [Bool.or_eq_true, decide_eq_true_eq, decide_eq_true_eq]
    exact le_total a b
  le_antisymm a b h h' := by
    rw [decide_eq_true_eq] at *
    exact le_antisymm h h'

/-- All files in one invocation. -/
def oneBatch : Batching where
  cut l := [l]
  flatten_cut l := by rw [List.flatten_cons, List.flatten_nil, List.append_nil]
  ne_nil_of_mem l hl b hb := by
    rw [List.mem_singleton.1 hb]
    exact hl

/-- A directory with one YAML file of one line. -/
def oneFile : Tree where
  paths := ["manifests/a.yaml"]
  content _ := ['x', '\n']
  paths_ne_nil := List.cons_ne_nil _ _
  nodup := by decide
  plain := by decide
  fits := by decide

end SockShop.Manifests
