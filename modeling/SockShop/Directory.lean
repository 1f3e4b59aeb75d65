import Mathlib.Logic.Function.Basic
import SockShop.Ldap

/-!
# The directory behind the LDAP client

The server that `additions/ldap-client/main.go` works on keeps entries under distinguished names. It is no part of the repository, so it
is a parameter (`Server`), of which only what the protocol promises of an operation that is carried out is known: an add needs that
there is no entry under its name and makes one, a modify leaves an entry there, a delete takes it away, and no other entry changes. In
particular a bind and a search change nothing. What the server keeps in an entry, what a modify makes of it, and which texts are the
same name are left open.

An error that the client is told of need not mean that the operation was not carried out: it may be the answer that got lost. `Lost`
says for a cycle of which operations this is so. Meanwhile nobody else writes to the directory.
-/

namespace SockShop.Ldap

/-- The entries of a directory, by their keys. -/
abbrev Directory (κ : Type) := κ → Option (List Attribute)

/-- The operations of a cycle that were carried out although the client was told of an error. -/
structure Lost where
  add : Bool := false
  modify : Bool := false
  del : Bool := false
  deriving DecidableEq, Repr

/-- Whether an operation was. -/
def Lost.has (lost : Lost) : Op → Bool
  | .add _ _ => lost.add
  | .modify _ _ => lost.modify
  | .del _ => lost.del
  | _ => false

/-- The name of the entry that an operation is about. -/
def Op.target : Op → Option String
  | .add dn _ => some dn
  | .modify dn _ => some dn
  | .del dn => some dn
  | _ => none

/-- The server. Entries are kept under the keys of their names, and `carryOut n d op` is what an operation of cycle `n` makes of the
directory `d`, if it can be carried out. -/
structure Server (κ : Type) where
  key : String → κ
  carryOut : Nat → Directory κ → Op → Option (Directory κ)
  /-- No entry changes but the one that the operation is about. -/
  frame : ∀ n d op d', carryOut n d op = some d' → ∀ k, op.target.map key ≠ some k → d' k = d k
  /-- An add makes an entry where there is none. -/
  add_new : ∀ n d dn attributes d', carryOut n d (.add dn attributes) = some d' → d (key dn) = none ∧ (d' (key dn)).isSome = true
  /-- A modify leaves an entry under the name. -/
  modify_kept : ∀ n d dn changes d', carryOut n d (.modify dn changes) = some d' → (d' (key dn)).isSome = true
  /-- A delete leaves none. -/
  del_gone : ∀ n d dn d', carryOut n d (.del dn) = some d' → d' (key dn) = none

section

variable {κ : Type} (S : Server κ)

/-- What an event of a cycle makes of the directory. -/
def Server.serve (lost : Lost) (d : Directory κ) : Event → Option (Directory κ)
  | .op n op ok => if ok || lost.has op then S.carryOut n d op else some d
  | _ => some d

/-- The client and the directory `d₀` that it works on, by cycles, each with the operations that were lost. -/
def withDirectory (escapeFilter : String → String) (flags : Flags) (d₀ : Directory κ) :
    Machine (State × Directory κ) (Outcomes × Lost) where
  init := (start flags, d₀)
  step s a := do
    let client ← step escapeFilter flags s.1 a.1
    let directory ← (cycle escapeFilter flags s.1.cycles a.1).events.foldlM (S.serve a.2) s.2
    some (client, directory)

end

/-- The modify and the search of a cycle succeed and the log of the result does not panic, so that the delete is tried. -/
def Outcomes.reachesDel (o : Outcomes) : Bool :=
  o.modify.toBool &&
    match o.search with
    | .ok result => result.entries.head?.any fun entry => decide (3 ≤ entry.attributes.length)
    | .error _ => false

/-- The name of the user that a cycle creates and does not delete. -/
def leaves (flags : Flags) (a : Outcomes × Lost) : Option String :=
  match a.1.rand with
  | .ok bytes =>
    if a.1.dial.toBool && a.1.bind.toBool && (a.1.add.toBool || a.2.add) &&
        !(a.1.add.toBool && a.1.reachesDel && (a.1.del.toBool || a.2.del)) then
      some (userDN flags bytes)
    else none
  | .error _ => none

/-- The entries of the users that the cycles of a run leave behind. -/
def leftovers {κ : Type} (key : String → κ) (flags : Flags) (acts : List (Outcomes × Lost)) : List κ :=
  (acts.filterMap (leaves flags)).map key

end SockShop.Ldap
