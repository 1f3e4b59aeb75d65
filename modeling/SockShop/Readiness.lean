import SockShop.Lib.Awk
import SockShop.Lib.Ere

/-!
# The wait for the cluster

The steps of `.github/workflows/main.yaml` that start a cluster wait until no line of a pod listing fails to match `([0-9]+)/\1`:

```
until [ "$(kubectl get pods -n sock-shop --no-headers | grep -cEv '([0-9]+)/\1')" -eq 0 ]; do
```

What `kubectl` writes each time is given. A pod listing (`PodLine`) has in its READY column how many containers of the pod are ready and
how many it has.
-/

namespace SockShop.Readiness

open Awk (Text records unlines)

/-! ## The loop -/

/-- `[0-9]`. -/
def digit (c : Char) : Bool := c.isDigit

/-- `([0-9]+)/\1`. -/
def readyPattern : Ere := .seq (.group 1 (.plus digit)) (.seq (.bracket (· == '/')) (.backref 1))

/-- `grep -cEv`: the number of lines without a match. -/
def grepCount (r : Ere) (t : Text) : Nat := (records t).countP fun line => !Ere.found r line

/-- How many times the body of the loop runs, for what `kubectl` writes at each test, unless the loop is still going after these. -/
def waitLoop : List Text → Option Nat
  | [] => none
  | t :: ts => if grepCount readyPattern t = 0 then some 0 else (waitLoop ts).map (· + 1)

/-! ## Pod listings -/

/-- A number as it is written. -/
def decimal (n : Nat) : Text := Nat.toDigits 10 n

/-- A line of a pod listing: the numbers of its READY column and what stands before and after them. The only slash of the line is
between the two numbers. -/
structure PodLine where
  before : Text
  ready : Nat
  total : Nat
  after : Text
  slash_notMem_before : '/' ∉ before
  slash_notMem_after : '/' ∉ after
  newline_notMem_before : '\n' ∉ before
  newline_notMem_after : '\n' ∉ after
  not_digit_before : ∀ c ∈ before.getLast?, digit c = false
  not_digit_after : ∀ c ∈ after.head?, digit c = false

/-- The line as it is written. -/
def PodLine.text (l : PodLine) : Text := l.before ++ decimal l.ready ++ '/' :: (decimal l.total ++ l.after)

/-- What `kubectl get pods --no-headers` writes. -/
def listing (lines : List PodLine) : Text := unlines (lines.map PodLine.text)

/-- The cluster is ready: there are pods, and all containers of every pod are ready. -/
def Ready (lines : List PodLine) : Prop := lines ≠ [] ∧ ∀ l ∈ lines, l.ready = l.total

instance (lines : List PodLine) : Decidable (Ready lines) := inferInstanceAs (Decidable (_ ∧ _))

/-- Some end of the first number, as it is written, is a beginning of the second. -/
def Overlap (a b : Nat) : Prop := ∃ w, w ≠ [] ∧ w <:+ decimal a ∧ w <+: decimal b

end SockShop.Readiness
