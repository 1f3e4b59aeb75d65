import SockShop.Lemmas.Images
import SockShop.Theorems.Manifests

/-!
# The bundle for AWS

`gen-complete-demo-aws` should put the AWS registry in front of the image references of the bundle and change nothing else. It does so
exactly for bundles whose image entries have plain scalars right behind the first `image:` of their line, and in which `image:` stands
before nothing but references (`retargeted_iff`): in front of a quoted scalar the registry comes to stand before the quote, an entry with
a quoted key or a blank before its colon is left as it is, and the command changes comments and other keys that it takes for references.

Whatever it changes, nothing is lost: the bundle can be had back (`undo_genCompleteDemoAws`), and the documents are those of the YAML
files (`documents_genCompleteDemoAws`). And both bundles follow an edit of one file at its place alone (`bundles_edited`).
-/

namespace SockShop.Manifests

open Awk

/-- The lines of the bundle for AWS are what should become of those of the bundle if and only if every line of the bundle is
retargetable. -/
theorem retargeted_iff (C : Collation) (B : Batching) (t : Tree) (lines : List Line)
    (h : lines.map Line.text = records (genCompleteDemo C B t)) :
    List.Forall₂ Retargeted lines (records (genCompleteDemoAws C B t)) ↔ ∀ l ∈ lines, l.Retargetable := by
  rw [records_genCompleteDemoAws, ← h, List.map_map, List.forall₂_map_right_iff, List.forall₂_same]
  constructor
  · intro hall l hl
    exact (retargeted_gsub_iff l).1 (hall l hl)
  · intro hall l hl
    exact (retargeted_gsub_iff l).2 (hall l hl)

/-- A directory with one YAML file of the given lines. -/
def fileOf (rs : List Text) : Tree := { oneFile with content := fun _ => unlines rs }

/-- The lines of its bundle. -/
theorem records_genCompleteDemo_fileOf {rs : List Text} (hne : rs ≠ []) (hfree : ∀ r ∈ rs, '\n' ∉ r) :
    records (genCompleteDemo byCodePoint oneBatch (fileOf rs)) = separator :: rs := by
  have hyaml : (fileOf rs).findYaml = ["manifests/a.yaml"] := by
    show oneFile.findYaml = _
    decide
  have hsort : byCodePoint.sort ["manifests/a.yaml"] = ["manifests/a.yaml"] := List.mergeSort_singleton _
  have hlines : (byCodePoint.sort (fileOf rs).findYaml).flatMap (fun p => headed (records ((fileOf rs).content p))) =
      separator :: rs := by
    rw [hyaml, hsort, List.flatMap_singleton, headed]
    rw [show (fileOf rs).content "manifests/a.yaml" = unlines rs from rfl, records_unlines hfree, if_neg hne]
  rw [genCompleteDemo_eq, hlines, records_unlines]
  rw [List.forall_mem_cons]
  exact ⟨by decide, hfree⟩

/-- The entry `image: scalar`, without indentation. -/
def entry (scalar : Scalar) : ImageEntry where
  indent := 0
  dash := none
  key := .plain "image".toList (by decide)
  space := []
  gap := [' ']
  properties := []
  scalar := scalar
  trail := []
  dash_blank := fun _ h => absurd h (Option.not_mem_none _)
  key_value := rfl
  space_blank := List.forall_mem_nil _
  gap_blank := ⟨List.cons_ne_nil _ _, List.forall_mem_singleton.2 rfl⟩
  isProperty_properties := List.forall_mem_nil _
  isTrail_trail := by decide

/-- A line that the command leaves as it is holds no reference. -/
theorem noReference_of_gsub_eq {t : Text} (h : Sed.gsub imageReference t = t) : NoReference t :=
  (free_iff t).1 ((Sed.gsub_eq_self_iff imageReference_grows t).1 h)

/-- The bundle with the line `image: nginx`, all of whose lines become what they should. -/
theorem plain_retargeted :
    List.Forall₂ Retargeted [.other separator, .image (entry (.plain "nginx".toList (by decide)))]
      (records (genCompleteDemoAws byCodePoint oneBatch (fileOf ["image: nginx".toList]))) := by
  refine (retargeted_iff _ _ _ _ ?_).2 ?_
  · rw [records_genCompleteDemo_fileOf (List.cons_ne_nil _ _) (by decide)]
    rfl
  · rw [List.forall_mem_cons, List.forall_mem_singleton]
    have hfront : (entry (.plain "nginx".toList (by decide))).front = imageKey ++ [' '] := rfl
    refine ⟨noReference_of_gsub_eq (by decide), ⟨?_, ?_⟩, ⟨_, _, rfl⟩, noReference_of_gsub_eq (by decide)⟩
    · rw [hfront]
      exact (List.prefix_append _ _).isInfix
    · rw [hfront]
      exact noReference_key_append (List.forall_mem_singleton.2 rfl)

/-- The lines of a bundle with a quoted reference and a comment. -/
def quotedLines : List Line :=
  [.other separator, .image (entry (.single "nginx".toList)), .other "# image: nginx".toList]

/-- The file that this is the bundle of. -/
def quotedFile : Tree := fileOf ["image: 'nginx'".toList, "# image: nginx".toList]

/-- The registry comes to stand before the quote and in the comment, which is not what should become of either line. -/
theorem quoted_not_retargeted :
    quotedLines.map Line.text = records (genCompleteDemo byCodePoint oneBatch quotedFile) ∧
    records (genCompleteDemoAws byCodePoint oneBatch quotedFile) =
      [separator, "image: 851725373216.dkr.ecr.us-east-1.amazonaws.com/'nginx'".toList,
        "# image: 851725373216.dkr.ecr.us-east-1.amazonaws.com/nginx".toList] ∧
    ¬List.Forall₂ Retargeted quotedLines (records (genCompleteDemoAws byCodePoint oneBatch quotedFile)) := by
  have hlines : records (genCompleteDemo byCodePoint oneBatch quotedFile) =
      [separator, "image: 'nginx'".toList, "# image: nginx".toList] :=
    records_genCompleteDemo_fileOf (List.cons_ne_nil _ _) (by decide)
  have haws : records (genCompleteDemoAws byCodePoint oneBatch quotedFile) =
      [separator, "image: 851725373216.dkr.ecr.us-east-1.amazonaws.com/'nginx'".toList,
        "# image: 851725373216.dkr.ecr.us-east-1.amazonaws.com/nginx".toList] := by
    rw [records_genCompleteDemoAws, hlines]
    decide
  refine ⟨hlines.symm, haws, ?_⟩
  rw [records_genCompleteDemoAws, hlines]
  intro h
  obtain ⟨-, hrest⟩ := List.forall₂_cons.1 h
  obtain ⟨hquoted, -⟩ := List.forall₂_cons.1 hrest
  obtain ⟨-, ⟨text, hplain, heq⟩, -⟩ := (retargeted_image_iff _).1 hquoted
  cases heq

/-- The command that takes the registry away from the references of the bundle for AWS gives the bundle back, whatever the files
hold. -/
theorem undo_genCompleteDemoAws (C : Collation) (B : Batching) (t : Tree) :
    unlines ((records (genCompleteDemoAws C B t)).map (Sed.gsub registryReference)) = genCompleteDemo C B t := by
  have hback : Sed.gsub registryReference ∘ Sed.gsub imageReference = id := funext gsub_registryReference
  rw [records_genCompleteDemoAws, List.map_map, hback, List.map_id, records_genCompleteDemo, genCompleteDemo_eq]

/-- The documents of the bundle for AWS are those of the YAML files in the order of the bundle, line by line as the command leaves
them: it takes no document apart and joins none, whatever the files hold. -/
theorem documents_genCompleteDemoAws (C : Collation) (B : Batching) (t : Tree) :
    documents (records (genCompleteDemoAws C B t)) =
      (C.sort t.findYaml).flatMap fun p => (documents (records (t.content p))).map (List.map (Sed.gsub imageReference)) := by
  have hdocuments := documents_flatMap_headed ((C.sort t.findYaml).map fun p => records (t.content p))
  rw [List.flatMap_map, List.flatMap_map] at hdocuments
  rw [records_genCompleteDemoAws, documents_map_gsub, records_genCompleteDemo, hdocuments, List.map_flatMap]

/-- When one YAML file is added, removed or changed, and the directory is listed and its list cut in whatever other way, both bundles
change where this file stands and nowhere else. -/
theorem bundles_edited (C : Collation) (B B' : Batching) (t t' : Tree) (p : String) (h : t.EditedAt p t') :
    ∃ before after : List Text,
      (records (genCompleteDemo C B t) = before ++ (t.part p ++ after) ∧
        records (genCompleteDemo C B' t') = before ++ (t'.part p ++ after)) ∧
      records (genCompleteDemoAws C B t) = (before ++ (t.part p ++ after)).map (Sed.gsub imageReference) ∧
      records (genCompleteDemoAws C B' t') = (before ++ (t'.part p ++ after)).map (Sed.gsub imageReference) := by
  obtain ⟨before, after, hbefore, hafter⟩ := h.lines C
  have hrecords : records (genCompleteDemo C B t) = before ++ (t.part p ++ after) :=
    (records_genCompleteDemo C B t).trans hbefore
  have hrecords' : records (genCompleteDemo C B' t') = before ++ (t'.part p ++ after) :=
    (records_genCompleteDemo C B' t').trans hafter
  refine ⟨before, after, ⟨hrecords, hrecords'⟩, ?_, ?_⟩
  · rw [records_genCompleteDemoAws, hrecords]
  · rw [records_genCompleteDemoAws, hrecords']

/-- A directory with one more YAML file than `oneFile`, which `find` lists first. -/
def twoFiles : Tree where
  paths := ["manifests/b.yaml", "manifests/a.yaml"]
  content p := if p = "manifests/b.yaml" then "image: nginx".toList else ['x', '\n']
  paths_ne_nil := List.cons_ne_nil _ _
  nodup := by decide
  plain := by decide
  fits := by decide

/-- `bundles_edited`, for the file that is added. -/
theorem bundles_edited_two_files :
    ∃ before after : List Text,
      (records (genCompleteDemo byCodePoint oneBatch oneFile) = before ++ (oneFile.part "manifests/b.yaml" ++ after) ∧
        records (genCompleteDemo byCodePoint oneBatch twoFiles) = before ++ (twoFiles.part "manifests/b.yaml" ++ after)) ∧
      records (genCompleteDemoAws byCodePoint oneBatch oneFile) =
        (before ++ (oneFile.part "manifests/b.yaml" ++ after)).map (Sed.gsub imageReference) ∧
      records (genCompleteDemoAws byCodePoint oneBatch twoFiles) =
        (before ++ (twoFiles.part "manifests/b.yaml" ++ after)).map (Sed.gsub imageReference) := by
  have hone : oneFile.findYaml = ["manifests/a.yaml"] := by decide
  have htwo : twoFiles.findYaml = ["manifests/b.yaml", "manifests/a.yaml"] := by decide
  refine bundles_edited byCodePoint oneBatch oneBatch oneFile twoFiles "manifests/b.yaml" ⟨?_, ?_⟩
  · intro q hq
    rw [hone, htwo]
    exact (List.mem_cons.trans (or_iff_right hq)).symm
  · intro q hq _
    exact if_neg hq

end SockShop.Manifests
