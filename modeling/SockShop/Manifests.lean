import SockShop.Lib.Awk

/-!
# The bundled manifest

`deploy/kubernetes/Makefile`. `make gen-complete-demo` bundles the YAML files of the manifests directory into `complete-demo.yaml`,
and `make check-complete-demo` compares `complete-demo.yaml` with the files of that directory. Both list the files with `find`,
order them with `sort` and write them with `awk`: the first through `xargs`, which may run `awk` several times, the second in one
run, on a list that the shell puts in its place.

A `Tree` is a directory whose paths reach `awk` as they are: they have no white space and no character that `xargs`, the shell or `awk`
gives a meaning of its own, and the list of them fits one command line. `complete-demo.yaml` is not one of the files. The order of
`sort` and the way `xargs` cuts its list are parameters.
-/

namespace SockShop.Manifests

open Awk

/-- White space, in the locale C. -/
def isSpace (c : Char) : Bool := c ∈ [' ', '\t', '\n', '\x0b', '\x0c', '\r']

/-- The characters of a path that are not taken as they are: `xargs` and the shell read quotes and backslashes, the shell its operators,
expansions and patterns, and `awk` an assignment. -/
def special : List Char := "\"'\\$`();&|<>*?[]#~!=\x7b\x7d".toList

/-- The command line of `check-complete-demo`, with the paths in the place of the list. -/
def checkLine (paths : List String) : String :=
  "awk '\x7bprint\x7d' " ++ " ".intercalate paths ++ " | diff complete-demo.yaml -"

/-- The most bytes that Linux takes as one argument, here that of `sh -c`, with the zero at its end. -/
def argumentMax : Nat := 131072

/-- The files under the manifests directory, at least one: their paths in the order that `find` lists them, and what they hold. -/
structure Tree where
  paths : List String
  content : String → Text
  paths_ne_nil : paths ≠ []
  nodup : paths.Nodup
  plain : ∀ p ∈ paths, p.toList.all fun c => !isSpace c && !special.contains c
  fits : (checkLine paths).utf8ByteSize < argumentMax

/-- The order of `sort` on lines, in whatever locale: total, and without ties between different lines. -/
structure Collation where
  le : String → String → Bool
  le_trans : ∀ a b c, le a b → le b c → le a c
  le_total : ∀ a b, le a b || le b a
  le_antisymm : ∀ a b, le a b → le b a → a = b

/-- The way `xargs` cuts its input into the arguments of consecutive invocations, none of them empty unless there is no input. -/
structure Batching where
  cut : List String → List (List String)
  flatten_cut : ∀ l, (cut l).flatten = l
  ne_nil_of_mem : ∀ l, l ≠ [] → ∀ b ∈ cut l, b ≠ []

/-- `sort`. -/
def Collation.sort (C : Collation) (l : List String) : List String := l.mergeSort C.le

/-- The test `-name '*.yaml'` of `find`. -/
def isYaml (path : String) : Bool := ".yaml".toList.isSuffixOf path.toList

/-- `find ${MANIFESTS} -type f -name '*.yaml'`. -/
def Tree.findYaml (t : Tree) : List String := t.paths.filter isYaml

/-- The line between two documents. -/
def separator : Text := ['-', '-', '-']

/-- The program of `gen-complete-demo`: `NR==1{print "---"} FNR==1 && NR!=1{print "---"} {print}`. -/
def bundle : Program := fun nr fnr r =>
  (if nr = 1 then [separator] else []) ++ (if fnr = 1 ∧ nr ≠ 1 then [separator] else []) ++ [r]

/-- `make gen-complete-demo`: the text it writes to `complete-demo.yaml`. -/
def genCompleteDemo (C : Collation) (B : Batching) (t : Tree) : Text :=
  (B.cut (C.sort t.findYaml)).flatMap fun batch => run bundle (batch.map t.content)

/-- The lines of a file under a separator, if there are any. -/
def headed (rs : List Text) : List Text := if rs = [] then [] else separator :: rs

/-- The documents of a list of lines: what stands between separators, where there is something. -/
def documents (rs : List Text) : List (List Text) := (rs.splitOn separator).filter (· ≠ [])

example : documents [['a'], separator, separator, ['b'], ['c']] = [[['a']], [['b'], ['c']]] := by decide

/-! ## Where the separators come from -/

/-- The lines that a list of files has outside its YAML files. -/
def Tree.others (t : Tree) (l : List String) : List Text := (l.filter (!isYaml ·)).flatMap fun p => records (t.content p)

/-- The lines that one file puts into the bundle: none, unless it is a YAML file. -/
def Tree.part (t : Tree) (p : String) : List Text := if p ∈ t.findYaml then headed (records (t.content p)) else []

/-- The YAML files of two directories are the same, except that the file at one path may have been added, removed or changed. -/
structure Tree.EditedAt (t : Tree) (p : String) (t' : Tree) : Prop where
  mem_iff : ∀ q ≠ p, q ∈ t.findYaml ↔ q ∈ t'.findYaml
  content : ∀ q ≠ p, q ∈ t.findYaml → t'.content q = t.content q

end SockShop.Manifests
