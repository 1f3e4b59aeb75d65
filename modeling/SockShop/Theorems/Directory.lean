import SockShop.Lemmas.Directory
import SockShop.Theorems.Ldap

/-!
# What the LDAP client does to the directory

For every server and every number of cycles, whatever the operations return and whichever of those that returned an error were carried
out, as long as nobody else writes to the directory. The client keeps its hands off what was in the directory (`directory_after`): a
name that has an entry cannot be added, and it changes and deletes only what it has added. What it adds to the directory are the users
that a cycle created and did not delete, one entry for each (`leftovers_le`), and since the eight digits of a name are those of four of
the eight random bytes, it runs out of names after 2³² of them.
-/

namespace SockShop.Ldap

section

variable {κ : Type} (S : Server κ) (escapeFilter : String → String) (flags : Flags) (d₀ : Directory κ)

/-- After every run the entries that were in the directory are there as they were, and the other entries are those of the users left
behind. -/
theorem directory_after (acts : List (Outcomes × Lost)) (s : State × Directory κ)
    (h : (withDirectory S escapeFilter flags d₀).exec acts = some s) :
    (∀ k, (d₀ k).isSome = true → s.2 k = d₀ k) ∧
      ∀ k, (s.2 k).isSome = true ↔ (d₀ k).isSome = true ∨ k ∈ leftovers S.key flags acts := by
  classical
  have ht := tended_of_exec S acts s h
  refine ⟨ht.kept, fun k => ?_⟩
  cases hk : d₀ k with
  | none =>
    rw [ht.left k hk]
    simp
  | some attributes =>
    rw [ht.kept k (by rw [hk]; rfl), hk]
    simp

/-- No two cycles leave a user behind under one name, and none under a name that was in the directory; so a run leaves no more users
behind than there are names, which is the number of choices of four bytes. -/
theorem leftovers_le (acts : List (Outcomes × Lost)) (s : State × Directory κ)
    (h : (withDirectory S escapeFilter flags d₀).exec acts = some s) :
    (leftovers S.key flags acts).Nodup ∧ (∀ k ∈ leftovers S.key flags acts, d₀ k = none) ∧
      (leftovers S.key flags acts).length ≤ 2 ^ 32 := by
  classical
  have ht := tended_of_exec S acts s h
  refine ⟨ht.nodup, ht.fresh, ?_⟩
  rw [leftovers, List.length_map]
  refine length_le_of_forall_userDN flags (List.Nodup.of_map S.key ht.nodup) fun dn hdn => ?_
  obtain ⟨a, -, ha⟩ := List.mem_filterMap.1 hdn
  exact eq_userDN_of_leaves ha

end

/-- A change of a modify, made to the attributes of an entry. -/
def Change.apply (attributes : List Attribute) : Change → List Attribute
  | .add name values =>
    if attributes.any (·.name = name) then
      attributes.map fun a => if a.name = name then { a with values := a.values ++ values } else a
    else attributes ++ [⟨name, values⟩]
  | .replace name values => attributes.filter (·.name ≠ name) ++ [⟨name, values⟩]

/-- What an operation makes of the entry that it is about, if it can be carried out. -/
def Op.entry : Op → Option (List Attribute) → Option (Option (List Attribute))
  | .add _ attributes, none => some (some attributes)
  | .modify _ changes, some attributes => some (some (changes.foldl Change.apply attributes))
  | .del _, some _ => some none
  | _, _ => none

/-- A server that keeps the entries under their names as they are written. -/
def byText : Server (List Char) where
  key := String.toList
  carryOut _ d op :=
    match op.target with
    | some dn => (op.entry (d dn.toList)).map (Function.update d dn.toList)
    | none => some d
  frame n d op d' h k hk := by
    cases hop : op.target with
    | none =>
      rw [hop] at h
      exact congrFun (Option.some.inj h).symm k
    | some dn =>
      rw [hop] at h hk
      obtain ⟨entry, -, rfl⟩ := Option.map_eq_some_iff.1 h
      exact Function.update_of_ne (fun heq => hk (congrArg some heq.symm)) _ _
  add_new n d dn attributes d' h := by
    obtain ⟨entry, hentry, rfl⟩ := Option.map_eq_some_iff.1 h
    cases hd : d dn.toList with
    | none =>
      rw [hd] at hentry
      cases hentry
      exact ⟨rfl, by simp⟩
    | some attributes' =>
      rw [hd] at hentry
      cases hentry
  modify_kept n d dn changes d' h := by
    obtain ⟨entry, hentry, rfl⟩ := Option.map_eq_some_iff.1 h
    cases hd : d dn.toList with
    | none =>
      rw [hd] at hentry
      cases hentry
    | some attributes =>
      rw [hd] at hentry
      cases hentry
      simp
  del_gone n d dn d' h := by
    obtain ⟨entry, hentry, rfl⟩ := Option.map_eq_some_iff.1 h
    cases hd : d dn.toList with
    | none =>
      rw [hd] at hentry
      cases hentry
    | some attributes =>
      rw [hd] at hentry
      cases hentry
      simp

/-- The directory of the organisation alone. -/
def organisation : Directory (List Char) := fun k => if k = "dc=example,dc=com".toList then some [] else none

/-- Two cycles, the second of which is told that its delete failed. -/
def undeleted : List (Outcomes × Lost) := [(allGood, {}), ({ allGood with del := .error "busy" }, {})]

/-- `directory_after`, for the two cycles. -/
theorem directory_after_undeleted : ∃ s,
    (withDirectory byText id {} organisation).exec undeleted = some s ∧
    ((∀ k, (organisation k).isSome = true → s.2 k = organisation k) ∧
      ∀ k, (s.2 k).isSome = true ↔ (organisation k).isSome = true ∨ k ∈ leftovers byText.key {} undeleted) :=
  ⟨_, rfl, directory_after byText id {} organisation undeleted _ rfl⟩

/-- `leftovers_le`, for the two cycles. -/
theorem leftovers_le_undeleted : ∃ s,
    (withDirectory byText id {} organisation).exec undeleted = some s ∧
    ((leftovers byText.key {} undeleted).Nodup ∧ (∀ k ∈ leftovers byText.key {} undeleted, organisation k = none) ∧
      (leftovers byText.key {} undeleted).length ≤ 2 ^ 32) :=
  ⟨_, rfl, leftovers_le byText id {} organisation undeleted _ rfl⟩

end SockShop.Ldap
