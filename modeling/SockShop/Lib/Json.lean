import Mathlib.Data.List.Infix

/-!
# JSON values as a Ruby program holds them

`JSON.parse` turns a text into a value built from hashes, arrays and scalars, or raises. This module has the values, the two
things a script does to one it did not check (`Json.index`, for `value['key']`, and `Json.each`, for `value.each`), and when
they raise: none is an exception.
-/

/-- A value without parts. A double is given by its bits, negative zero kept as zero (the two are one hash key). -/
inductive Scalar where
  | null
  | bool (b : Bool)
  | int (n : Int)
  | float (bits : UInt64)
  | str (s : String)
  deriving DecidableEq, Repr

/-- A parsed JSON value. Two Ruby hashes are equal whatever the order of their fields, two lists of fields are not: the fields of a hash
are meant in the order of their keys. -/
inductive Json where
  | scalar (v : Scalar)
  | arr (items : List Json)
  | obj (fields : List (String × Json))

namespace Json

/-- The string `s` as a value. -/
abbrev str (s : String) : Json := .scalar (.str s)

/-- Ruby's `nil`. -/
abbrev null : Json := .scalar .null

mutual

/-- Equality of values is decidable, by recursion on the two values together. -/
def decEq : (a b : Json) → Decidable (a = b)
  | .scalar v, .scalar w => decidable_of_iff (v = w) (by simp)
  | .arr xs, .arr ys => @decidable_of_iff _ (xs = ys) (by simp) (decEqItems xs ys)
  | .obj fs, .obj gs => @decidable_of_iff _ (fs = gs) (by simp) (decEqFields fs gs)
  | .scalar _, .arr _ | .scalar _, .obj _ | .arr _, .scalar _ | .arr _, .obj _ | .obj _, .scalar _ | .obj _, .arr _ =>
    isFalse nofun

/-- Equality of two lists of values. -/
def decEqItems : (xs ys : List Json) → Decidable (xs = ys)
  | [], [] => isTrue rfl
  | [], _ :: _ | _ :: _, [] => isFalse nofun
  | x :: xs, y :: ys =>
    @decidable_of_iff _ (x = y ∧ xs = ys) (by simp) (@instDecidableAnd _ _ (decEq x y) (decEqItems xs ys))

/-- Equality of two lists of fields. -/
def decEqFields : (fs gs : List (String × Json)) → Decidable (fs = gs)
  | [], [] => isTrue rfl
  | [], _ :: _ | _ :: _, [] => isFalse nofun
  | (k, x) :: fs, (l, y) :: gs =>
    @decidable_of_iff _ (k = l ∧ x = y ∧ fs = gs) (by simp [and_assoc])
      (@instDecidableAnd _ _ _ (@instDecidableAnd _ _ (decEq x y) (decEqFields fs gs)))

end

instance : DecidableEq Json := decEq

/-- The field `key` of a hash, `nil` when the hash has none. -/
def field (fields : List (String × Json)) (key : String) : Json := (fields.lookup key).getD null

/-- `value[key]` for a string `key`: a field of a hash, or the key itself when a string holds it (`nil` when it does not). Every
other value raises. -/
def index : Json → String → Option Json
  | .obj fields, key => some (field fields key)
  | .scalar (.str s), key => some (if key.toList <:+: s.toList then str key else null)
  | _, _ => none

/-- The items that `value.each` yields: those of an array, and the pairs of a hash. Every other value raises. -/
def each : Json → Option (List Json)
  | .arr items => some items
  | .obj fields => some (fields.map fun f => .arr [str f.1, f.2])
  | _ => none

@[simp] theorem index_obj (fields : List (String × Json)) (key : String) :
    (Json.obj fields).index key = some (field fields key) := rfl

@[simp] theorem each_arr (items : List Json) : (Json.arr items).each = some items := rfl

end Json
