import SockShop.Lemmas.Ldap

/-!
# What the LDAP client leaves behind

For every number of cycles and whatever the operations return. A cycle cleans up at its end, so an error that ends it early leaves
its connection open, and after the creation of the user, the user in the directory: everything is cleaned up at the start of a cycle
exactly when every cycle before it made no connection or had no error up to the unbind (`clean_iff_tidy`), and otherwise the connections
left open are those of the other cycles (`open_iff_untidy`).

A cycle reads what its search returns by fixed positions, so it gets past the log to its cleanup exactly when the result has a first
entry with three attributes (`copes_iff_complete`).
-/

namespace SockShop.Ldap

open Traced

/-- Every connection opened so far is closed, and every user created so far has had a delete tried, exactly when every cycle so far
was tidy. -/
theorem clean_iff_tidy (escapeFilter : String → String) (flags : Flags) (outs : List Outcomes) (s : State)
    (h : (system escapeFilter flags).exec outs = some s) : Clean s.trace ↔ ∀ o ∈ outs, o.Tidy := by
  have hopens : Released Event.opens Event.closes s.trace ↔ ∀ o ∈ outs, o.Tidy := by
    rw [← Machine.along_const]
    refine (system escapeFilter flags).iff_along (fun s => Released Event.opens Event.closes s.trace) ?_ ?_ outs s h
    · apply released_of_forall_none
      intro e he
      exact (start_trace_none e he).1
    · intro _ _ _ _ hs ha
      exact released_opens_step hs ha
  constructor
  · rintro ⟨hc, -⟩
    exact hopens.1 hc
  · intro ht
    exact ⟨hopens.2 ht, released_creates_of_exec outs s h ht⟩

/-- Outcomes without an error: the search finds the user with three of the attributes asked for. -/
def allGood : Outcomes :=
  { dial := .ok ()
    bind := .ok none
    rand := .ok (Vector.replicate 8 0)
    add := .ok ()
    modify := .ok ()
    search := .ok ⟨[⟨"cn=john_00000000,dc=example,dc=com",
      [⟨"objectClass", ["inetOrgPerson"]⟩, ⟨"sn", ["Test"]⟩, ⟨"userPassword", ["password123"]⟩]⟩]⟩
    del := .ok ()
    unbind := .ok ()
    close := .ok () }

/-- `clean_iff_tidy`, after a cycle without an error and one that could not dial. -/
theorem clean_after_two : ∃ s, (system id {}).exec [allGood, { allGood with dial := .error "refused" }] = some s ∧
    s.status = .running ∧ (Clean s.trace ↔ ∀ o ∈ [allGood, { allGood with dial := .error "refused" }], o.Tidy) :=
  ⟨_, rfl, rfl, clean_iff_tidy id {} _ _ rfl⟩

/-- A connection stays open: the bind fails, and the next cycle begins without a close. -/
theorem connection_left_open : ∃ s, (system id {}).exec [{ allGood with bind := .error "invalid credentials" }] = some s ∧
    s.status = .running ∧ ¬Clean s.trace := by
  refine ⟨_, rfl, rfl, ?_⟩
  intro hc
  have hs : (system id {}).exec [] = some (start {}) := rfl
  obtain ⟨-, ht⟩ := (released_opens_step hs rfl).1 hc.1
  simp [Outcomes.Tidy, allGood, Except.toBool] at ht

/-- The connections that are open after a run are exactly those of its cycles that were not tidy: each of these leaves one open for
good, since no later cycle closes it. -/
theorem open_iff_untidy (escapeFilter : String → String) (flags : Flags) (outs : List Outcomes) (s : State)
    (h : (system escapeFilter flags).exec outs = some s) (k : Nat) :
    Unreleased Event.opens Event.closes s.trace k ↔ ∃ o, outs[k]? = some o ∧ ¬o.Tidy :=
  (unreleased_opens_of_exec outs s h).2 k

/-- Cycle 1 leaves its connection open, the cycles beside it do not. -/
theorem second_left_open : ∃ s, (system id {}).exec [allGood, { allGood with add := .error "refused" }, allGood] = some s ∧
    (Unreleased Event.opens Event.closes s.trace 1 ↔
      ∃ o, [allGood, { allGood with add := .error "refused" }, allGood][1]? = some o ∧ ¬o.Tidy) :=
  ⟨_, rfl, open_iff_untidy id {} [allGood, { allGood with add := .error "refused" }, allGood] _ rfl 1⟩

/-- A cycle whose search succeeds copes with what the search returns exactly when that has a first entry with at least three
attributes. -/
theorem copes_iff_complete (escapeFilter : String → String) (flags : Flags) (n : Nat) (o : Outcomes) (bytes : Vector UInt8 8)
    (result : SearchResult) (h : o.Finds bytes result) :
    Copes escapeFilter flags n o bytes result (cycle escapeFilter flags n o) ↔ result.Complete := by
  have hends := cycle_endsWith escapeFilter flags n h
  rcases logResult_cases (randomUsername bytes) result with ⟨entry, hcomplete, hentry, hlog⟩ | ⟨text, hcomplete, hlog⟩
  · rw [hlog, bind_of_ok (result_emit _), bind_of_ok rfl] at hends
    refine ⟨fun _ => hcomplete, fun _ => ⟨?_, ?_, ?_⟩⟩
    · rw [panics_of_endsWith hends]
      exact not_panics_afterLog flags n o bytes
    · intro entry' hentry'
      rw [hentry, Option.mem_some_iff] at hentry'
      subst hentry'
      obtain ⟨opening, heq⟩ := hends
      simp [heq]
    · obtain ⟨opening, heq⟩ := hends
      refine ⟨opening.filter Event.isOperation, ?_⟩
      rw [heq, ← operations_afterLog, List.filter_append]
      rfl
  · rw [hlog, bind_of_ok (result_emit _), bind_of_error rfl] at hends
    refine ⟨fun hcopes => absurd ?_ hcopes.noPanic, fun h => absurd h hcomplete⟩
    rw [panics_of_endsWith hends]
    exact ⟨text, rfl⟩

/-- What `allGood` finds. -/
def wholeUser : SearchResult :=
  ⟨[⟨"cn=john_00000000,dc=example,dc=com",
    [⟨"objectClass", ["inetOrgPerson"]⟩, ⟨"sn", ["Test"]⟩, ⟨"userPassword", ["password123"]⟩]⟩]⟩

/-- `copes_iff_complete`, for a user found with three attributes. -/
theorem copes_with_whole_user : allGood.Finds (Vector.replicate 8 0) wholeUser ∧
    (Copes id {} 0 allGood (Vector.replicate 8 0) wholeUser (cycle id {} 0 allGood) ↔ wholeUser.Complete) :=
  ⟨⟨rfl, rfl, rfl, rfl, rfl, rfl⟩, copes_iff_complete id {} 0 allGood _ wholeUser ⟨rfl, rfl, rfl, rfl, rfl, rfl⟩⟩

/-- The user as an access rule that hides the password leaves it. -/
def hiddenPassword : SearchResult :=
  ⟨[⟨"cn=john_00000000,dc=example,dc=com", [⟨"objectClass", ["inetOrgPerson"]⟩, ⟨"sn", ["Test"]⟩]⟩]⟩

/-- Without its password the user found makes the client panic, before any delete of the user. -/
theorem panics_on_hidden_password :
    let o := { allGood with search := .ok hiddenPassword }
    o.Finds (Vector.replicate 8 0) hiddenPassword ∧
      (cycle id {} 0 o).result = .error (.panic "index out of range [2] with length 2") ∧
      (cycle id {} 0 o).events.filterMap Event.deletes = [] ∧
      ¬Copes id {} 0 o (Vector.replicate 8 0) hiddenPassword (cycle id {} 0 o) := by
  intro o
  have hresult : (cycle id {} 0 o).result = .error (.panic "index out of range [2] with length 2") := by rfl
  exact ⟨⟨rfl, rfl, rfl, rfl, rfl, rfl⟩, hresult, rfl, fun h => h.noPanic ⟨_, hresult⟩⟩

end SockShop.Ldap
