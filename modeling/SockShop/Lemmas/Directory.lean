import Mathlib.Algebra.Order.Ring.Nat
import Mathlib.Data.Finset.Card
import Mathlib.Data.Fintype.Prod
import SockShop.Directory
import SockShop.Lemmas.Ldap

/-!
# What a cycle does to the directory

`Serves lost d d' m` says that the events of a piece `m` of a cycle make `d'` of the directory `d`. Its rules follow the text of the
cycle as those of `Does` do, and they give all that a cycle can do: it leaves the directory as it is, or it leaves one user there under
a name that had no entry (`serves_cycle_cases`). What a run does is read off that.
-/

namespace SockShop.Ldap

open Traced

variable {α β κ : Type}

/-! ## The users left behind -/

theorem leftovers_snoc_of_none (key : String → κ) {flags : Flags} (acts : List (Outcomes × Lost)) {a : Outcomes × Lost}
    (h : leaves flags a = none) : leftovers key flags (acts ++ [a]) = leftovers key flags acts := by
  simp [leftovers, h]

theorem leftovers_snoc_of_some (key : String → κ) {flags : Flags} (acts : List (Outcomes × Lost)) {a : Outcomes × Lost} {dn : String}
    (h : leaves flags a = some dn) : leftovers key flags (acts ++ [a]) = leftovers key flags acts ++ [key dn] := by
  simp [leftovers, h]

/-! ## The pieces of a cycle -/

variable (S : Server κ)

/-- The events of a piece of a cycle make `d'` of the directory `d`. -/
def Serves (lost : Lost) (d d' : Directory κ) (m : Cycle α) : Prop :=
  m.events.foldlM (S.serve lost) d = some d'

section Rules

variable (lost : Lost) (d d' : Directory κ)

theorem serves_emit_bind {e : Event} (he : S.serve lost d e = some d) (f : Unit → Cycle β) :
    Serves S lost d d' (emit e >>= f) ↔ Serves S lost d d' (f ()) := by
  rw [Serves, events_emit_bind, List.foldlM_cons, he]
  rfl

theorem serves_log (line : String) : Serves S lost d d' (log line) ↔ d' = d := Option.some_inj.trans eq_comm

theorem serves_log_bind (line : String) (f : Unit → Cycle β) :
    Serves S lost d d' (log line >>= f) ↔ Serves S lost d d' (f ()) :=
  serves_emit_bind S lost d d' rfl f

/-- An operation, then the rest if it succeeded. -/
theorem serves_attempt_bind (n : Nat) (op : Op) (r : Except String α) (failed : String → String) (f : α → Cycle β) :
    Serves S lost d d' (attempt n op r failed >>= f) ↔
      ∃ d₁, S.serve lost d (.op n op r.toBool) = some d₁ ∧
        ((∃ a, r = .ok a ∧ Serves S lost d₁ d' (f a)) ∨ r.toBool = false ∧ d' = d₁) := by
  cases h : r with
  | ok a =>
    rw [attempt_bind_of_ok rfl, Serves, List.foldlM_cons, Option.bind_eq_bind, Option.bind_eq_some_iff]
    simp [Except.toBool, Serves]
  | error err =>
    rw [attempt_bind_of_error rfl, Serves, List.foldlM_cons, Option.bind_eq_bind, Option.bind_eq_some_iff]
    simp only [Except.toBool, reduceCtorEq, false_and, exists_false, false_or, true_and]
    exact exists_congr fun d₁ => and_congr_right fun _ => Option.some_inj.trans eq_comm

/-- The log of the password policy leaves the directory as it is. -/
theorem serves_logPolicy_bind (policy : Option PasswordPolicy) (f : Unit → Cycle β) :
    Serves S lost d d' (logPolicy policy >>= f) ↔ Serves S lost d d' (f ()) := by
  unfold logPolicy
  split
  · exact serves_log_bind S lost d d' _ f
  · rw [pure_bind]

/-- The log of a search result, then the rest if the result has what is logged of it. -/
theorem serves_logResult_bind (user : String) (result : SearchResult) (f : Unit → Cycle β) :
    Serves S lost d d' (logResult user result >>= f) ↔
      (result.Complete ∧ Serves S lost d d' (f ())) ∨ ¬result.Complete ∧ d' = d := by
  rcases logResult_cases user result with ⟨entry, hcomplete, -, hlog⟩ | ⟨text, hcomplete, hlog⟩
  · rw [hlog, bind_of_ok rfl]
    simp [hcomplete, Serves, Server.serve]
  · rw [hlog, bind_of_error rfl, Serves]
    cases result.entries with
    | nil => simp [hcomplete, eq_comm]
    | cons entry entries => simp [hcomplete, Server.serve, eq_comm]

/-- An operation that is not about an entry leaves the directory as it is. -/
theorem serve_of_neutral {op : Op} (hop : op.target = none) {n : Nat} {ok : Bool} (h : S.serve lost d (.op n op ok) = some d') :
    d' = d := by
  rw [Server.serve] at h
  split at h
  · exact funext fun k => S.frame n d op d' h k (by rw [hop]; simp)
  · exact (Option.some.inj h).symm

theorem serves_attempt_bind_of_neutral {op : Op} (hop : op.target = none) (n : Nat) (r : Except String α)
    (failed : String → String) (f : α → Cycle β) (h : Serves S lost d d' (attempt n op r failed >>= f)) :
    (∃ a, r = .ok a ∧ Serves S lost d d' (f a)) ∨ r.toBool = false ∧ d' = d := by
  obtain ⟨d₁, hserve, h⟩ := (serves_attempt_bind S lost d d' n op r failed f).1 h
  rw [serve_of_neutral S lost d d₁ hop hserve] at h
  exact h

/-- The last line logged after the last operation. -/
theorem serves_attempt_log_of_neutral {op : Op} (hop : op.target = none) (n : Nat) (r : Except String α)
    (failed : String → String) (line : String) (h : Serves S lost d d' (attempt n op r failed >>= fun _ => log line)) :
    d' = d := by
  rcases serves_attempt_bind_of_neutral S lost d d' hop n r failed _ h with ⟨-, -, h⟩ | ⟨-, h⟩
  · exact (serves_log S lost d d' line).1 h
  · exact h

end Rules

/-! ## The operations on a user -/

section Operations

variable {lost : Lost} {d d' : Directory κ} {n : Nat} {dn : String} {ok : Bool}

/-- An operation is carried out, or it leaves the directory as it is. -/
theorem serve_cases {op : Op} (h : S.serve lost d (.op n op ok) = some d') :
    ((ok || lost.has op) = true ∧ S.carryOut n d op = some d') ∨ (ok || lost.has op) = false ∧ d' = d := by
  rw [Server.serve] at h
  split at h
  · rename_i hcarried
    exact Or.inl ⟨hcarried, h⟩
  · rename_i hcarried
    exact Or.inr ⟨Bool.eq_false_iff.2 hcarried, (Option.some.inj h).symm⟩

variable [DecidableEq κ]

/-- An operation on a user changes what is under the name of the user, and nothing else. -/
theorem eq_update_of_carryOut {op : Op} (hop : op.target = some dn) (h : S.carryOut n d op = some d') :
    d' = Function.update d (S.key dn) (d' (S.key dn)) := by
  refine Function.eq_update_iff.2 ⟨rfl, fun k hk => S.frame n d op d' h k ?_⟩
  rw [hop]
  exact fun heq => hk (Option.some.inj heq).symm

/-- So one that leaves an entry there puts it there. -/
theorem exists_eq_update_of_carryOut {op : Op} (hop : op.target = some dn) (h : S.carryOut n d op = some d')
    (hsome : (d' (S.key dn)).isSome = true) : ∃ attributes, d' = Function.update d (S.key dn) (some attributes) := by
  obtain ⟨attributes, hattributes⟩ := Option.isSome_iff_exists.1 hsome
  exact ⟨attributes, hattributes ▸ eq_update_of_carryOut S hop h⟩

/-- What an add does: it makes an entry where there is none, or it is not carried out. -/
theorem serve_add {attributes : List Attribute} (h : S.serve lost d (.op n (.add dn attributes) ok) = some d') :
    ((ok || lost.add) = true ∧ d (S.key dn) = none ∧ ∃ attributes', d' = Function.update d (S.key dn) (some attributes')) ∨
      (ok || lost.add) = false ∧ d' = d := by
  rcases serve_cases S h with ⟨hcarried, h⟩ | hnot
  · obtain ⟨hnone, hsome⟩ := S.add_new n d dn attributes d' h
    exact Or.inl ⟨hcarried, hnone, exists_eq_update_of_carryOut S rfl h hsome⟩
  · exact Or.inr hnot

/-- What a modify does: the entry stays there, with the same or other attributes. -/
theorem serve_modify {changes : List Change} (hd : (d (S.key dn)).isSome = true)
    (h : S.serve lost d (.op n (.modify dn changes) ok) = some d') :
    ∃ attributes, d' = Function.update d (S.key dn) (some attributes) := by
  rcases serve_cases S h with ⟨-, h⟩ | ⟨-, rfl⟩
  · exact exists_eq_update_of_carryOut S rfl h (S.modify_kept n d dn changes d' h)
  · obtain ⟨attributes, hattributes⟩ := Option.isSome_iff_exists.1 hd
    exact ⟨attributes, by rw [← hattributes, Function.update_eq_self]⟩

/-- What a delete does: it takes the entry away, or it is not carried out. -/
theorem serve_del (h : S.serve lost d (.op n (.del dn) ok) = some d') :
    ((ok || lost.del) = true ∧ d' = Function.update d (S.key dn) none) ∨ (ok || lost.del) = false ∧ d' = d := by
  rcases serve_cases S h with ⟨hcarried, h⟩ | hnot
  · exact Or.inl ⟨hcarried, S.del_gone n d dn d' h ▸ eq_update_of_carryOut S rfl h⟩
  · exact Or.inr hnot

end Operations

/-! ## One cycle -/

section Cycle

variable [DecidableEq κ] {lost : Lost} {d d' : Directory κ} {escapeFilter : String → String} {flags : Flags} {n : Nat} {o : Outcomes}

/-- After the log of the search only the delete changes the directory. -/
theorem serves_afterLog {bytes : Vector UInt8 8} (h : Serves S lost d d' (afterLog flags n o bytes)) :
    ((o.del.toBool || lost.del) = true ∧ d' = Function.update d (S.key (userDN flags bytes)) none) ∨
      (o.del.toBool || lost.del) = false ∧ d' = d := by
  rw [afterLog, serves_attempt_bind] at h
  obtain ⟨d₁, hdel, h⟩ := h
  suffices hrest : d' = d₁ by
    subst hrest
    exact serve_del S hdel
  rcases h with ⟨-, -, h⟩ | ⟨-, h⟩
  · rw [serves_log_bind] at h
    replace h := serves_attempt_bind_of_neutral S _ _ _ rfl _ _ _ _ h
    rcases h with ⟨-, -, h⟩ | ⟨-, h⟩
    · rw [serves_log_bind] at h
      exact serves_attempt_log_of_neutral S _ _ _ rfl _ _ _ _ h
    · exact h
  · exact h

/-- What a session does once it has created its user. -/
def afterAdd (escapeFilter : String → String) (flags : Flags) (n : Nat) (o : Outcomes) (bytes : Vector UInt8 8) : Cycle Unit := do
  log ("User " ++ randomUsername bytes ++ " created successfully.")
  attempt n (.modify (userDN flags bytes) [.add "description" ["An example user"], .replace "mail" ["user@example.org"]]) o.modify
    fun err => "Failed to modify the user " ++ randomUsername bytes ++ ": " ++ err
  log ("User " ++ randomUsername bytes ++ " modified successfully.")
  let searchResult ← attempt n (searchUser escapeFilter flags bytes) o.search fun err =>
    "Failed to search the user " ++ randomUsername bytes ++ ": " ++ err
  logResult (randomUsername bytes) searchResult
  afterLog flags n o bytes

/-- The delete is tried when the modify and the search succeed and the result has what is logged of it. -/
theorem reachesDel_iff : o.reachesDel = true ↔ o.modify.toBool = true ∧ ∃ result, o.search = .ok result ∧ result.Complete := by
  rw [Outcomes.reachesDel, Bool.and_eq_true]
  refine and_congr_right fun _ => ?_
  cases hs : o.search with
  | error err => simp
  | ok result =>
    simp only [Except.ok.injEq, exists_eq_left', SearchResult.Complete, ← List.head?_eq_getElem?]
    cases result.entries.head? with
    | none => simp
    | some entry => simp

/-- Between the creation of the user and the delete only the modify changes the directory. -/
theorem serves_afterAdd {bytes : Vector UInt8 8} (hd : (d (S.key (userDN flags bytes))).isSome = true)
    (h : Serves S lost d d' (afterAdd escapeFilter flags n o bytes)) :
    ∃ attributes, (o.reachesDel = true ∧
        Serves S lost (Function.update d (S.key (userDN flags bytes)) (some attributes)) d' (afterLog flags n o bytes)) ∨
      o.reachesDel = false ∧ d' = Function.update d (S.key (userDN flags bytes)) (some attributes) := by
  rw [afterAdd, serves_log_bind, serves_attempt_bind] at h
  obtain ⟨d₁, hmodify, h⟩ := h
  obtain ⟨attributes, rfl⟩ := serve_modify S hd hmodify
  refine ⟨attributes, ?_⟩
  rw [← Bool.not_eq_true, reachesDel_iff]
  rcases h with ⟨u, hm, h⟩ | ⟨hm, rfl⟩
  · have hm : o.modify.toBool = true := exists_eq_ok_iff.1 ⟨u, hm⟩
    rw [serves_log_bind, searchUser] at h
    replace h := serves_attempt_bind_of_neutral S _ _ _ rfl _ _ _ _ h
    rcases h with ⟨result, hs, h⟩ | ⟨hs, rfl⟩
    · rw [serves_logResult_bind] at h
      rcases h with ⟨hc, h⟩ | ⟨hc, rfl⟩
      · exact Or.inl ⟨⟨hm, result, hs, hc⟩, h⟩
      · refine Or.inr ⟨?_, rfl⟩
        rintro ⟨-, result', hs', hc'⟩
        cases hs.symm.trans hs'
        exact hc hc'
    · refine Or.inr ⟨?_, rfl⟩
      rintro ⟨-, result, hs', -⟩
      rw [hs'] at hs
      cases hs
  · exact Or.inr ⟨fun hreaches => by simp [hm] at hreaches, rfl⟩

/-- What a cycle does: it leaves the directory as it is, or it leaves one user there, where there was no entry. -/
theorem serves_cycle_cases {a : Outcomes × Lost} (h : Serves S a.2 d d' (cycle escapeFilter flags n a.1)) :
    (leaves flags a = none ∧ d' = d) ∨ ∃ dn attributes, leaves flags a = some dn ∧ d (S.key dn) = none ∧
      d' = Function.update d (S.key dn) (some attributes) := by
  obtain ⟨o, lost⟩ := a
  dsimp only at h
  rw [cycle, serves_emit_bind S _ _ _ rfl, serves_log_bind, serves_log_bind] at h
  replace h := serves_attempt_bind_of_neutral S _ _ _ rfl _ _ _ _ h
  rcases h with ⟨u, hdial, h⟩ | ⟨hdial, rfl⟩
  · have hdial : o.dial.toBool = true := exists_eq_ok_iff.1 ⟨u, hdial⟩
    rw [serves_log_bind, session] at h
    replace h := serves_attempt_bind_of_neutral S _ _ _ rfl _ _ _ _ h
    rcases h with ⟨policy, hbind, h⟩ | ⟨hbind, rfl⟩
    · have hbind : o.bind.toBool = true := exists_eq_ok_iff.1 ⟨policy, hbind⟩
      rw [serves_log_bind, serves_logPolicy_bind] at h
      cases hrand : o.rand with
      | error err =>
        refine Or.inl ⟨by simp [leaves, hrand], ?_⟩
        rw [hrand] at h
        simpa [Serves, generateRandomString, log, Server.serve, eq_comm] using h
      | ok bytes =>
        rw [hrand] at h
        -- the rest of the session, with the name of its user
        change Serves S lost d d' (do
          attempt n (.add (userDN flags bytes) _) o.add _
          afterAdd escapeFilter flags n o bytes) at h
        rw [serves_attempt_bind] at h
        obtain ⟨d₁, hadd, h⟩ := h
        rcases serve_add S hadd with ⟨hcarried, hnone, attributes, rfl⟩ | ⟨hnot, rfl⟩
        · rcases h with ⟨u, ha, h⟩ | ⟨ha, rfl⟩
          · have ha : o.add.toBool = true := exists_eq_ok_iff.1 ⟨u, ha⟩
            obtain ⟨attributes', ⟨hreaches, h⟩ | ⟨hreaches, rfl⟩⟩ := serves_afterAdd S (by simp) h
            · rw [Function.update_idem] at h
              rcases serves_afterLog S h with ⟨hdel, rfl⟩ | ⟨hdel, rfl⟩
              -- created and deleted again
              · refine Or.inl ⟨by simp [leaves, hrand, ha, hreaches, hdel], ?_⟩
                rw [Function.update_idem, ← hnone, Function.update_eq_self]
              · exact Or.inr ⟨_, _, by simp [leaves, hrand, hdial, hbind, ha, hdel], hnone, rfl⟩
            · exact Or.inr ⟨_, _, by simp [leaves, hrand, hdial, hbind, ha, hreaches], hnone, Function.update_idem ..⟩
          · exact Or.inr ⟨_, _, by simpa [leaves, hrand, hdial, hbind, ha] using hcarried, hnone, rfl⟩
        · obtain ⟨ha, hlost⟩ := Bool.or_eq_false_iff.1 hnot
          rcases h with ⟨u, hok, -⟩ | ⟨-, h⟩
          · rw [hok] at ha
            cases ha
          · exact Or.inl ⟨by simp [leaves, hrand, ha, hlost], h⟩
    · exact Or.inl ⟨by cases hrand : o.rand <;> simp [leaves, hrand, hbind], rfl⟩
  · exact Or.inl ⟨by cases hrand : o.rand <;> simp [leaves, hrand, hdial], rfl⟩

end Cycle

/-! ## A run -/

/-- What holds of the directory in every run: the entries it had are still there as they were, and the others are those of the users left
behind, one for each of them. -/
structure Tended (key : String → κ) (flags : Flags) (d₀ : Directory κ) (acts : List (Outcomes × Lost)) (d : Directory κ) : Prop where
  kept : ∀ k, (d₀ k).isSome = true → d k = d₀ k
  left : ∀ k, d₀ k = none → ((d k).isSome = true ↔ k ∈ leftovers key flags acts)
  fresh : ∀ k ∈ leftovers key flags acts, d₀ k = none
  nodup : (leftovers key flags acts).Nodup

/-- The directory after every run. -/
theorem tended_of_exec [DecidableEq κ] {escapeFilter : String → String} {flags : Flags} {d₀ : Directory κ} :
    ∀ acts s, (withDirectory S escapeFilter flags d₀).exec acts = some s → Tended S.key flags d₀ acts s.2 := by
  apply Machine.invariant
  · exact ⟨fun _ _ => rfl, fun k hk => by simp [withDirectory, leftovers, hk], nofun, List.nodup_nil⟩
  · intro acts s a s' _ ih h
    obtain ⟨client, -, h⟩ := Option.bind_eq_some_iff.1 h
    obtain ⟨d', hd', h⟩ := Option.bind_eq_some_iff.1 h
    cases h
    rcases serves_cycle_cases S hd' with ⟨hnone, hsame⟩ | ⟨dn, attributes, hsome, hfree, hd⟩
    · rw [hsame]
      have hleft := leftovers_snoc_of_none S.key acts hnone
      exact ⟨ih.kept, hleft ▸ ih.left, hleft ▸ ih.fresh, hleft ▸ ih.nodup⟩
    · have hleft := leftovers_snoc_of_some S.key acts hsome
      -- the name had no entry, so it is neither one of the directory's own nor one left behind before
      have hfresh : d₀ (S.key dn) = none := by
        by_contra hne
        have hkept := ih.kept (S.key dn) (Option.isSome_iff_ne_none.2 hne)
        exact hne (hkept ▸ hfree)
      have hnew : S.key dn ∉ leftovers S.key flags acts := by
        rw [← ih.left _ hfresh, hfree]
        nofun
      rw [hd]
      refine ⟨?_, ?_, ?_, ?_⟩
      · intro k hk
        have hne : k ≠ S.key dn := by
          rintro rfl
          rw [hfresh] at hk
          cases hk
        exact (Function.update_of_ne hne _ _).trans (ih.kept k hk)
      · intro k hk
        rw [hleft, List.mem_append, List.mem_singleton, ← ih.left k hk]
        by_cases hne : k = S.key dn
        · subst hne
          simp
        · simp [hne]
      · rw [hleft]
        exact List.forall_mem_append.2 ⟨ih.fresh, List.forall_mem_singleton.2 hfresh⟩
      · rw [hleft]
        exact List.nodup_append_comm.1 (List.nodup_cons.2 ⟨hnew, ih.nodup⟩)

/-! ## The names -/

/-- The first digits are those of the first bytes. -/
theorem take_encodeToString (n : Nat) (bytes : List UInt8) : (encodeToString bytes).take (2 * n) = encodeToString (bytes.take n) := by
  induction bytes generalizing n with
  | nil => simp [encodeToString]
  | cons b bytes ih =>
    cases n with
    | zero => rfl
    | succ n => exact congrArg (fun t => _ :: _ :: t) (ih n)

/-- Only four of the eight random bytes are in the name. -/
theorem randomUsername_eq (bytes : Vector UInt8 8) :
    randomUsername bytes = "john_" ++ String.ofList (encodeToString (bytes.toList.take 4)) := by
  rw [randomUsername, ← take_encodeToString]

/-- A user left behind has the name of the random bytes of its cycle. -/
theorem eq_userDN_of_leaves {flags : Flags} {a : Outcomes × Lost} {dn : String} (h : leaves flags a = some dn) :
    ∃ bytes, dn = userDN flags bytes := by
  unfold leaves at h
  split at h
  · split at h
    · exact ⟨_, (Option.some.inj h).symm⟩
    · cases h
  · cases h

/-- Different values of a function are no more than its arguments. -/
theorem length_le_card_of_forall_range {α β : Type} [DecidableEq α] [Fintype β] (f : β → α) {l : List α} (hnodup : l.Nodup)
    (h : ∀ a ∈ l, ∃ b, f b = a) : l.length ≤ Fintype.card β := by
  have hsub : l.toFinset ⊆ Finset.univ.image f := by
    intro a ha
    obtain ⟨b, hb⟩ := h a (List.mem_toFinset.1 ha)
    exact Finset.mem_image.2 ⟨b, Finset.mem_univ b, hb⟩
  calc l.length = l.toFinset.card := (List.toFinset_card_of_nodup hnodup).symm
    _ ≤ (Finset.univ.image f).card := Finset.card_le_card hsub
    _ ≤ Fintype.card β := Finset.card_image_le

/-- The name of a user by the four bytes that are in it. -/
def shortDN (flags : Flags) (b : Fin 256 × Fin 256 × Fin 256 × Fin 256) : String :=
  "cn=" ++ ("john_" ++ String.ofList (encodeToString ([b.1, b.2.1, b.2.2.1, b.2.2.2].map UInt8.ofFin))) ++ "," ++ flags.baseDN

theorem exists_shortDN_eq (flags : Flags) (bytes : Vector UInt8 8) : ∃ b, shortDN flags b = userDN flags bytes := by
  have hlength : (bytes.toList.take 4).length = 4 := by simp
  obtain ⟨b₀, b₁, b₂, b₃, hbytes⟩ : ∃ b₀ b₁ b₂ b₃, bytes.toList.take 4 = [b₀, b₁, b₂, b₃] := by
    match bytes.toList.take 4, hlength with
    | [b₀, b₁, b₂, b₃], _ => exact ⟨b₀, b₁, b₂, b₃, rfl⟩
  refine ⟨(b₀.toFin, b₁.toFin, b₂.toFin, b₃.toFin), ?_⟩
  rw [userDN, randomUsername_eq, hbytes]
  rfl

/-- There are no more names than there are choices of four bytes. -/
theorem length_le_of_forall_userDN (flags : Flags) {dns : List String} (hnodup : dns.Nodup)
    (h : ∀ dn ∈ dns, ∃ bytes, dn = userDN flags bytes) : dns.length ≤ 256 * (256 * (256 * 256)) := by
  have hcard : Fintype.card (Fin 256 × Fin 256 × Fin 256 × Fin 256) = 256 * (256 * (256 * 256)) := by
    rw [Fintype.card_prod, Fintype.card_prod, Fintype.card_prod, Fintype.card_fin]
  rw [← hcard]
  refine length_le_card_of_forall_range (shortDN flags) hnodup fun dn hdn => ?_
  obtain ⟨bytes, hbytes⟩ := h dn hdn
  rw [hbytes]
  exact exists_shortDN_eq flags bytes

end SockShop.Ldap
