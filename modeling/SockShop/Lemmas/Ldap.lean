import SockShop.Ldap

/-!
# What a cycle of the LDAP client does

`Does q m` says that the piece `m` of a cycle carries out an operation with property `q`, whatever the operation returns. Its rules
follow the text of the cycle: an operation that fails ends the cycle, so what comes after it is done only if it succeeded. They give
when a session closes its connection (`session_closes_iff`), and with it that a cycle releases its connection exactly when its
outcomes are tidy (`cycle_released_opens_iff`).

A cycle whose search returns a result ends with the search, the log of the result and the rest (`cycle_endsWith`); the log panics or
does not (`logResult_cases`), and the operations of the rest are the cleanup (`operations_afterLog`).
-/

namespace SockShop.Ldap

open Traced

variable {α β : Type}

/-- A successful operation, then the rest. -/
theorem attempt_bind_of_ok {n : Nat} {op : Op} {r : Except String α} {a : α} (h : r = .ok a) (failed : String → String)
    (f : α → Cycle β) : attempt n op r failed >>= f = ⟨.op n op true :: (f a).events, (f a).result⟩ := by
  subst h
  rfl

/-- A failed operation ends the cycle. -/
theorem attempt_bind_of_error {n : Nat} {op : Op} {r : Except String α} {err : String} (h : r = .error err)
    (failed : String → String) (f : α → Cycle β) :
    attempt n op r failed >>= f = ⟨[.op n op false, .log (failed err)], .error .next⟩ := by
  subst h
  rfl

theorem index_of_eq_some {xs : List α} {i : Nat} {a : α} (h : xs[i]? = some a) : index xs i = pure a := by
  rw [index, h]

theorem index_of_eq_none {xs : List α} {i : Nat} (h : xs[i]? = none) :
    index xs i = stop (.panic ("index out of range [" ++ toString i ++ "] with length " ++ toString xs.length)) := by
  rw [index, h]

/-- What the log of a search result does: it logs what it is to log, if the result has that, and else it panics after the entry, if
there is one. -/
theorem logResult_cases (user : String) (result : SearchResult) :
    (∃ entry, result.Complete ∧ result.entries.head? = some entry ∧
      logResult user result = ⟨[.logEntry user entry, .logAttributes user (entry.attributes.take 3)], .ok ()⟩) ∨
    ∃ text, ¬result.Complete ∧
      logResult user result = ⟨(result.entries.take 1).map (.logEntry user), .error (.panic text)⟩ := by
  obtain ⟨entries⟩ := result
  match entries with
  | [] =>
    right
    refine ⟨_, ?_, by rw [logResult, index_of_eq_none rfl]; rfl⟩
    rintro ⟨entry, h, -⟩
    cases h
  | ⟨dn, attributes⟩ :: entries =>
    rw [logResult, index_of_eq_some rfl]
    have hfew : attributes.length < 3 → ¬SearchResult.Complete ⟨⟨dn, attributes⟩ :: entries⟩ := by
      rintro hlt ⟨entry, h, hle⟩
      cases h
      exact absurd hlt (Nat.not_lt.2 hle)
    match attributes, hfew with
    | [], hfew => exact Or.inr ⟨_, hfew (by decide), rfl⟩
    | [a], hfew => exact Or.inr ⟨_, hfew (by simp), rfl⟩
    | [a, b], hfew => exact Or.inr ⟨_, hfew (by simp), rfl⟩
    | a :: b :: c :: rest, _ => exact Or.inl ⟨_, ⟨_, rfl, Nat.le_add_left 3 rest.length⟩, rfl, rfl⟩

/-! ## The operations that are carried out -/

/-- An event that is an operation with property `q`. -/
def Event.IsOp (q : Nat → Op → Bool → Prop) : Event → Prop
  | .op conn o ok => q conn o ok
  | _ => False

@[simp] theorem isOp_sleep (q : Nat → Op → Bool → Prop) (seconds : Nat) : (Event.sleep seconds).IsOp q ↔ False := Iff.rfl

@[simp] theorem isOp_log (q : Nat → Op → Bool → Prop) (line : String) : (Event.log line).IsOp q ↔ False := Iff.rfl

@[simp] theorem isOp_logEntry (q : Nat → Op → Bool → Prop) (user : String) (entry : Entry) :
    (Event.logEntry user entry).IsOp q ↔ False := Iff.rfl

@[simp] theorem isOp_logAttributes (q : Nat → Op → Bool → Prop) (user : String) (attributes : List Attribute) :
    (Event.logAttributes user attributes).IsOp q ↔ False := Iff.rfl

@[simp] theorem isOp_op (q : Nat → Op → Bool → Prop) (conn : Nat) (o : Op) (ok : Bool) : (Event.op conn o ok).IsOp q ↔ q conn o ok :=
  Iff.rfl

/-- A piece of a cycle carries out an operation with property `q`. -/
def Does (q : Nat → Op → Bool → Prop) (m : Cycle α) : Prop := Emits (Event.IsOp q) m

section Rules

variable (q : Nat → Op → Bool → Prop)

@[simp] theorem does_log (line : String) : Does q (log line) ↔ False := by simp [Does, log]

@[simp] theorem does_sleep_bind (seconds : Nat) (f : Unit → Cycle β) : Does q (emit (.sleep seconds) >>= f) ↔ Does q (f ()) := by
  simp [Does]

@[simp] theorem does_log_bind (line : String) (f : Unit → Cycle β) : Does q (log line >>= f) ↔ Does q (f ()) := by
  simp [Does, log]

/-- An operation, then the rest if it succeeded. -/
@[simp] theorem does_attempt_bind (n : Nat) (op : Op) (r : Except String α) (failed : String → String) (f : α → Cycle β) :
    Does q (attempt n op r failed >>= f) ↔ q n op r.toBool ∨ ∃ a, r = .ok a ∧ Does q (f a) := by
  cases h : r with
  | ok a => simp [Does, attempt_bind_of_ok, Emits, Except.toBool]
  | error err => simp [Does, attempt_bind_of_error, Emits, Except.toBool]

/-- The log of the password policy carries out nothing. -/
@[simp] theorem does_logPolicy_bind (policy : Option PasswordPolicy) (f : Unit → Cycle β) :
    Does q (logPolicy policy >>= f) ↔ Does q (f ()) := by
  unfold logPolicy
  split
  · exact does_log_bind q _ f
  · rw [pure_bind]

/-- The random name, then the rest if it was generated. -/
@[simp] theorem does_generateRandomString_bind (length : Nat) (read : Except String (Vector UInt8 length))
    (f : String → Cycle β) :
    Does q (generateRandomString length read >>= f) ↔
      ∃ bytes, read = .ok bytes ∧ Does q (f (String.ofList ((encodeToString bytes.toList).take length))) := by
  cases read with
  | ok bytes => simp [generateRandomString]
  | error err => simp [generateRandomString, Does, log]

/-- The log of a search result, then the rest if the result has what is logged of it. -/
@[simp] theorem does_logResult_bind (user : String) (result : SearchResult) (f : Unit → Cycle β) :
    Does q (logResult user result >>= f) ↔ result.Complete ∧ Does q (f ()) := by
  rcases logResult_cases user result with ⟨entry, hcomplete, -, hlog⟩ | ⟨text, hcomplete, hlog⟩
  · rw [hlog, bind_of_ok rfl]
    simp [Does, Emits, hcomplete]
  · refine iff_of_false ?_ fun h => hcomplete h.1
    rw [hlog, bind_of_error rfl]
    rintro ⟨e, he, hq⟩
    obtain ⟨entry, -, rfl⟩ := List.mem_map.1 he
    exact hq

end Rules

/-! ## The events of a piece by the operations it carries out -/

/-- A reading of events that only sees operations. -/
def OpOnly {κ : Type} (g : Event → Option κ) : Prop := ∀ e k, g e = some k → e.IsOp fun _ _ _ => True

theorem opOnly_opens : OpOnly Event.opens := by
  rintro (_ | _ | _ | _ | _) k h <;> trivial

theorem opOnly_closes : OpOnly Event.closes := by
  rintro (_ | _ | _ | _ | _) k h <;> trivial

theorem opOnly_creates : OpOnly Event.creates := by
  rintro (_ | _ | _ | _ | _) k h <;> trivial

theorem opOnly_deletes : OpOnly Event.deletes := by
  rintro (_ | _ | _ | _ | _) k h <;> trivial

/-- The events that such a reading sees are operations that are carried out. -/
theorem exists_iff_does {κ : Type} {g : Event → Option κ} (hg : OpOnly g) (k : κ) (m : Cycle α) :
    (∃ e ∈ m.events, g e = some k) ↔ Does (fun c op ok => g (.op c op ok) = some k) m := by
  refine exists_congr fun e => and_congr_right fun _ => ?_
  cases e with
  | op c o ok => exact Iff.rfl
  | _ =>
    constructor
    · intro h
      exact (hg _ k h).elim
    · intro h
      exact h.elim

/-- A piece that carries out no operation that such a reading sees. -/
theorem none_of_not_does {κ : Type} {g : Event → Option κ} (hg : OpOnly g) {m : Cycle α}
    (h : ∀ k, ¬Does (fun c op ok => g (.op c op ok) = some k) m) : ∀ e ∈ m.events, g e = none := by
  intro e he
  by_contra hne
  obtain ⟨k, hk⟩ := Option.ne_none_iff_exists'.1 hne
  exact h k ((exists_iff_does hg k m).1 ⟨e, he, hk⟩)

@[simp] theorem closes_unbind (n : Nat) (ok : Bool) : (Event.op n .unbind ok).closes = if ok then some n else none := by
  cases ok <;> rfl

@[simp] theorem closes_close (n : Nat) (ok : Bool) : (Event.op n .close ok).closes = some n := rfl

@[simp] theorem closes_of_ne {n : Nat} {op : Op} {ok : Bool} (h : op ≠ .unbind) (h' : op ≠ .close) :
    (Event.op n op ok).closes = none := by
  cases op <;> first | rfl | contradiction

@[simp] theorem opens_dial (n : Nat) (url : String) (ok : Bool) :
    (Event.op n (.dial url) ok).opens = if ok then some n else none := by
  cases ok <;> rfl

@[simp] theorem opens_of_ne {n : Nat} {op : Op} {ok : Bool} (h : ∀ url, op ≠ .dial url) : (Event.op n op ok).opens = none := by
  cases op with
  | dial url => exact absurd rfl (h url)
  | _ => rfl

@[simp] theorem creates_of_ne {n : Nat} {op : Op} {ok : Bool} (h : ∀ dn attributes, op ≠ .add dn attributes) :
    (Event.op n op ok).creates = none := by
  cases op with
  | add dn attributes => exact absurd rfl (h dn attributes)
  | _ => rfl

/-! ## One cycle -/

/-- A line logged creates nothing. -/
theorem released_log_bind (line : String) (f : Unit → Cycle β) :
    Released Event.creates Event.deletes (log line >>= f).events ↔ Released Event.creates Event.deletes (f ()).events := by
  rw [log, events_emit_bind, released_cons_of_none rfl]

/-- The log of the password policy creates nothing. -/
theorem released_logPolicy_bind (policy : Option PasswordPolicy) (f : Unit → Cycle β) :
    Released Event.creates Event.deletes (logPolicy policy >>= f).events ↔ Released Event.creates Event.deletes (f ()).events := by
  unfold logPolicy
  split
  · exact released_log_bind _ f
  · rw [pure_bind]

section Session

variable (escapeFilter : String → String) (flags : Flags) (n : Nat) (o : Outcomes)

/-- A session closes its own connection and no other, and does so exactly when nothing fails before the unbind. -/
theorem session_closes_iff (k : Nat) :
    (∃ e ∈ (session escapeFilter flags n o).events, e.closes = some k) ↔
      k = n ∧ o.bind.toBool ∧ o.rand.toBool ∧ o.add.toBool ∧ o.modify.toBool ∧
        (∃ result, o.search = .ok result ∧ result.Complete) ∧ o.del.toBool ∧ o.unbind.toBool := by
  rw [exists_iff_does opOnly_closes]
  simp only [session, does_attempt_bind, does_log_bind, does_logPolicy_bind, does_generateRandomString_bind,
    does_logResult_bind, does_log, closes_of_ne, closes_close, closes_unbind, ne_eq, reduceCtorEq, not_false_eq_true, false_or,
    exists_and_right, exists_eq_ok_iff, Option.ite_none_right_eq_some, Option.some.injEq, and_false, exists_false, or_false]
  refine ⟨?_, ?_⟩
  · rintro ⟨hb, hr, ha, hm, result, hs, hc, hd, ⟨hu, hk⟩ | ⟨hu, hk⟩⟩
    · exact ⟨hk.symm, hb, hr, ha, hm, ⟨result, hs, hc⟩, hd, hu⟩
    · exact ⟨hk.symm, hb, hr, ha, hm, ⟨result, hs, hc⟩, hd, hu⟩
  · rintro ⟨rfl, hb, hr, ha, hm, ⟨result, hs, hc⟩, hd, hu⟩
    exact ⟨hb, hr, ha, hm, result, hs, hc, hd, Or.inl ⟨hu, rfl⟩⟩

/-- A session opens no connection. -/
theorem session_opens_none : ∀ e ∈ (session escapeFilter flags n o).events, e.opens = none := by
  apply none_of_not_does opOnly_opens
  intro k h
  simp [session] at h

/-- In a session where nothing else fails, a delete of the user follows its creation, if it is created. -/
theorem session_released_creates (hb : o.bind.toBool = true) (hr : o.rand.toBool = true) (hm : o.modify.toBool = true)
    (hs : ∃ result, o.search = .ok result ∧ result.Complete) :
    Released Event.creates Event.deletes (session escapeFilter flags n o).events := by
  obtain ⟨policy, hb⟩ := exists_eq_ok_iff.2 hb
  obtain ⟨bytes, hr⟩ := exists_eq_ok_iff.2 hr
  obtain ⟨v, hm⟩ := exists_eq_ok_iff.2 hm
  obtain ⟨result, hs, hc⟩ := hs
  rw [session, attempt_bind_of_ok hb, released_cons_of_none rfl, released_log_bind, released_logPolicy_bind, hr]
  simp only [generateRandomString, pure_bind]
  cases ha : o.add with
  | error err =>
    rw [attempt_bind_of_error rfl]
    exact released_of_forall_none (by simp [Event.creates])
  | ok u =>
    rw [attempt_bind_of_ok rfl]
    constructor
    · intro k hk
      rw [exists_iff_does opOnly_deletes]
      simp only [does_log_bind, does_attempt_bind, does_logResult_bind]
      exact Or.inr ⟨v, hm, Or.inr ⟨result, hs, hc, Or.inl hk⟩⟩
    · apply released_of_forall_none (none_of_not_does opOnly_creates _)
      intro k h
      simp at h

/-- A cycle that dials in vain. -/
theorem cycle_events_of_error {err : String} (h : o.dial = .error err) :
    (cycle escapeFilter flags n o).events =
      [.sleep 5, .log "---", .log "Starting LDAP operation cycle...", .op n (.dial flags.ldapURL) false,
        .log ("Failed to dial LDAP server: " ++ err ++ " url: " ++ flags.ldapURL)] := by
  simp only [cycle, log, events_emit_bind, attempt_bind_of_error h]

/-- A cycle that dials its connection. -/
theorem cycle_events_of_ok {u : Unit} (h : o.dial = .ok u) :
    (cycle escapeFilter flags n o).events =
      [.sleep 5, .log "---", .log "Starting LDAP operation cycle..."] ++ .op n (.dial flags.ldapURL) true ::
        .log ("Successfully connected to LDAP server at: " ++ flags.ldapURL) :: (session escapeFilter flags n o).events := by
  simp only [cycle, log, events_emit_bind, attempt_bind_of_ok h, List.cons_append, List.nil_append]

/-- A cycle opens no connection but its own. -/
theorem eq_of_cycle_opens {e : Event} {k : Nat} (he : e ∈ (cycle escapeFilter flags n o).events) (hk : e.opens = some k) :
    k = n := by
  have hdoes := (exists_iff_does opOnly_opens k _).1 ⟨e, he, hk⟩
  simp only [cycle, does_sleep_bind, does_log_bind, does_attempt_bind, opens_dial, Option.ite_none_right_eq_some,
    Option.some.injEq] at hdoes
  rcases hdoes with ⟨-, h⟩ | ⟨-, -, h⟩
  · exact h.symm
  · obtain ⟨f, hf, hk'⟩ := (exists_iff_does opOnly_opens k _).2 h
    rw [session_opens_none escapeFilter flags n o f hf] at hk'
    cases hk'

/-- A cycle closes no connection but its own. -/
theorem eq_of_cycle_closes {e : Event} {k : Nat} (he : e ∈ (cycle escapeFilter flags n o).events) (hk : e.closes = some k) :
    k = n := by
  have hdoes := (exists_iff_does opOnly_closes k _).1 ⟨e, he, hk⟩
  simp only [cycle, does_sleep_bind, does_log_bind, does_attempt_bind, ne_eq, reduceCtorEq, not_false_eq_true, closes_of_ne,
    false_or] at hdoes
  obtain ⟨-, -, h⟩ := hdoes
  exact ((session_closes_iff escapeFilter flags n o k).1 ((exists_iff_does opOnly_closes k _).2 h)).1

/-- A cycle closes the connection it opens exactly when its outcomes are tidy. -/
theorem cycle_released_opens_iff :
    Released Event.opens Event.closes (cycle escapeFilter flags n o).events ↔ o.Tidy := by
  cases h : o.dial with
  | error err =>
    rw [cycle_events_of_error escapeFilter flags n o h]
    constructor
    · intro _
      left
      rw [h]
      rfl
    · intro _
      exact released_of_forall_none (by simp [Event.opens])
  | ok u =>
    have hno : Released Event.opens Event.closes (session escapeFilter flags n o).events :=
      released_of_forall_none (session_opens_none escapeFilter flags n o)
    have hdial : ¬o.dial.toBool = false := by simp [h, Except.toBool]
    have hclose := session_closes_iff escapeFilter flags n o n
    rw [cycle_events_of_ok escapeFilter flags n o h, List.cons_append, List.cons_append, List.cons_append, List.nil_append,
      released_cons_of_none rfl, released_cons_of_none rfl, released_cons_of_none rfl, Outcomes.Tidy, or_iff_right hdial]
    constructor
    · rintro ⟨hr, -⟩
      obtain ⟨f, hf, hfc⟩ := hr n rfl
      rcases List.mem_cons.1 hf with rfl | hf
      · cases hfc
      · exact (hclose.1 ⟨f, hf, hfc⟩).2
    · intro ht
      refine ⟨?_, (released_cons_of_none rfl).2 hno⟩
      intro k hk
      cases hk
      obtain ⟨f, hf, hfc⟩ := hclose.2 ⟨rfl, ht⟩
      exact ⟨f, List.mem_cons_of_mem _ hf, hfc⟩

/-- A cycle whose outcomes are not tidy leaves its connection open, and no other. -/
theorem cycle_unreleased_opens_iff (k : Nat) :
    Unreleased Event.opens Event.closes (cycle escapeFilter flags n o).events k ↔ k = n ∧ ¬o.Tidy := by
  have hown : ∀ k, Unreleased Event.opens Event.closes (cycle escapeFilter flags n o).events k → k = n := by
    rintro k ⟨pre, e, post, htr, hk, -⟩
    exact eq_of_cycle_opens escapeFilter flags n o (by rw [htr]; simp) hk
  rw [← cycle_released_opens_iff escapeFilter flags n o, released_iff_forall_not_unreleased]
  push Not
  constructor
  · intro h
    exact ⟨hown k h, k, h⟩
  · rintro ⟨rfl, j, hj⟩
    rwa [hown j hj] at hj

/-- A tidy cycle tries to delete the user it creates. -/
theorem cycle_released_creates (h : o.Tidy) :
    Released Event.creates Event.deletes (cycle escapeFilter flags n o).events := by
  cases hd : o.dial with
  | error err =>
    rw [cycle_events_of_error escapeFilter flags n o hd]
    exact released_of_forall_none (by simp [Event.creates])
  | ok u =>
    obtain ⟨hb, hr, -, hm, hs, -, -⟩ := h.resolve_left (by simp [hd, Except.toBool])
    rw [cycle_events_of_ok escapeFilter flags n o hd]
    refine Released.append (released_of_forall_none (by simp [Event.creates])) ?_
    rw [released_cons_of_none rfl, released_cons_of_none rfl]
    exact session_released_creates escapeFilter flags n o hb hr hm hs

end Session

/-! ## A run -/

section Run

variable {escapeFilter : String → String} {flags : Flags}

/-- What a cycle adds to a run. -/
theorem trace_of_step {s s' : State} {o : Outcomes} (h : step escapeFilter flags s o = some s') :
    s'.cycles = s.cycles + 1 ∧ s'.trace = s.trace ++ (cycle escapeFilter flags s.cycles o).events := by
  simp only [step, Option.ite_none_right_eq_some, Option.some.injEq] at h
  obtain ⟨-, rfl⟩ := h
  exact ⟨rfl, rfl⟩

/-- Nothing is opened or created before the first cycle. -/
theorem start_trace_none : ∀ e ∈ (start flags).trace, e.opens = none ∧ e.creates = none := by
  intro e he
  unfold start at he
  split at he
  · rw [List.mem_singleton.1 he]
    exact ⟨rfl, rfl⟩
  · cases he

/-- The connections of a run are those of its cycles. -/
theorem opens_lt_of_exec : ∀ outs s, (system escapeFilter flags).exec outs = some s →
    ∀ e ∈ s.trace, ∀ k, e.opens = some k → k < s.cycles := by
  apply (system escapeFilter flags).invariant_state
  · intro e he k hk
    rw [(start_trace_none e he).1] at hk
    cases hk
  · intro s o s' ih h e he k hk
    obtain ⟨hc, ht⟩ := trace_of_step h
    rw [ht, List.mem_append] at he
    rw [hc]
    rcases he with he | he
    · exact Nat.lt_succ_of_lt (ih e he k hk)
    · exact Nat.lt_succ_of_le (Nat.le_of_eq (eq_of_cycle_opens escapeFilter flags s.cycles o he hk))

/-- What one cycle does to the connections of a run: they are all closed exactly when they were and the cycle is tidy. -/
theorem released_opens_step {outs : List Outcomes} {s s' : State} {o : Outcomes}
    (hs : (system escapeFilter flags).exec outs = some s) (h : step escapeFilter flags s o = some s') :
    Released Event.opens Event.closes s'.trace ↔ Released Event.opens Event.closes s.trace ∧ o.Tidy := by
  obtain ⟨-, ht⟩ := trace_of_step h
  rw [ht, released_append_iff, cycle_released_opens_iff]
  intro e he f hf k hk hfk
  have hlt := opens_lt_of_exec outs s hs e he k hk
  have heq := eq_of_cycle_closes escapeFilter flags s.cycles o hf hfk
  exact absurd heq (Nat.ne_of_lt hlt)

/-- The connections of a run that stay open are those of the cycles that were not tidy. -/
theorem unreleased_opens_of_exec : ∀ outs s, (system escapeFilter flags).exec outs = some s →
    s.cycles = outs.length ∧ ∀ k, Unreleased Event.opens Event.closes s.trace k ↔ ∃ o, outs[k]? = some o ∧ ¬o.Tidy := by
  apply (system escapeFilter flags).invariant
  · refine ⟨by unfold system start; split <;> rfl, fun k => iff_of_false ?_ (by simp)⟩
    rintro ⟨pre, e, post, htr, hk, -⟩
    rw [(start_trace_none e (by rw [show (start flags).trace = _ from htr]; simp)).1] at hk
    cases hk
  · intro outs s o s' hs ih h
    obtain ⟨hcycles, htrace⟩ := trace_of_step h
    refine ⟨by rw [hcycles, ih.1, List.length_append, List.length_singleton], fun k => ?_⟩
    rw [htrace, unreleased_append_iff, ih.2, cycle_unreleased_opens_iff, ih.1]
    · rcases Nat.lt_trichotomy k outs.length with hk | rfl | hk
      · simp [List.getElem?_append_left hk, Nat.ne_of_lt hk]
      · simp
      · have hbeyond : (outs ++ [o])[k]? = none := List.getElem?_eq_none (by rw [List.length_append]; exact hk)
        simp [hbeyond, List.getElem?_eq_none (Nat.le_of_lt hk), Nat.ne_of_gt hk]
    · intro e he hk f hf hfk
      have hlt := opens_lt_of_exec outs s hs e he k hk
      exact absurd (eq_of_cycle_closes escapeFilter flags s.cycles o hf hfk) (Nat.ne_of_lt hlt)

/-- After tidy cycles a delete has been tried of every user created. -/
theorem released_creates_of_exec : ∀ outs s, (system escapeFilter flags).exec outs = some s → (∀ o ∈ outs, o.Tidy) →
    Released Event.creates Event.deletes s.trace := by
  apply (system escapeFilter flags).invariant
  · exact fun _ => released_of_forall_none fun e he => (start_trace_none e he).2
  · intro outs s o s' _ ih h htidy
    obtain ⟨-, ht⟩ := trace_of_step h
    rw [ht]
    exact (ih fun o' ho' => htidy o' (List.mem_append_left _ ho')).append
      (cycle_released_creates escapeFilter flags s.cycles o (htidy o (by simp)))

end Run

/-! ## After the search -/

/-- What a session does once it has logged a search result. -/
def afterLog (flags : Flags) (n : Nat) (o : Outcomes) (bytes : Vector UInt8 8) : Cycle Unit := do
  attempt n (.del (userDN flags bytes)) o.del fun err => "Failed to delete the user " ++ randomUsername bytes ++ ": " ++ err
  log ("User " ++ randomUsername bytes ++ " deleted successfully.")
  attempt n .unbind o.unbind fun err => "Failed to unbind: " ++ err
  log "Unbound from LDAP server."
  attempt n .close o.close fun err => "Failed to close connection: " ++ err
  log "Closed connection to LDAP server."

theorem result_attempt {n : Nat} {op : Op} {r : Except String α} {a : α} (h : r = .ok a) (failed : String → String) :
    (attempt n op r failed).result = .ok a := by
  subst h
  rfl

theorem result_logPolicy (policy : Option PasswordPolicy) : (logPolicy policy).result = .ok () := by
  unfold logPolicy
  split
  · rfl
  · rfl

/-- A cycle whose search returns `result` ends with the search and what is done after it. -/
theorem cycle_endsWith (escapeFilter : String → String) (flags : Flags) (n : Nat) {o : Outcomes} {bytes : Vector UInt8 8}
    {result : SearchResult} (h : o.Finds bytes result) :
    EndsWith
      (do
        emit (.op n (searchUser escapeFilter flags bytes) true)
        logResult (randomUsername bytes) result
        afterLog flags n o bytes)
      (cycle escapeFilter flags n o) := by
  obtain ⟨hdial, hbind, hrand, hadd, hmodify, hsearch⟩ := h
  obtain ⟨dialled, hdial⟩ := exists_eq_ok_iff.2 hdial
  obtain ⟨policy, hbind⟩ := exists_eq_ok_iff.2 hbind
  obtain ⟨added, hadd⟩ := exists_eq_ok_iff.2 hadd
  obtain ⟨modified, hmodify⟩ := exists_eq_ok_iff.2 hmodify
  -- the rules stand in the order of the text from the right: the three events before the dial, the dial, the line logged after it
  refine .bind (.bind (.bind (.bind (.bind ?_ rfl) (result_attempt hdial _)) rfl) rfl) rfl
  refine .bind (.bind (.bind ?_ (result_logPolicy policy)) rfl) (result_attempt hbind _)
  rw [hrand]
  refine .bind (.bind (.bind (.bind (.bind ?_ rfl) (result_attempt hmodify _)) rfl) (result_attempt hadd _)) rfl
  rw [hsearch]
  exact .refl _

@[simp] theorem operations_log_bind (line : String) (f : Unit → Cycle β) :
    (log line >>= f).events.filter Event.isOperation = (f ()).events.filter Event.isOperation := by
  rw [log, events_emit_bind]
  rfl

/-- The operations of a piece that begins with one: the others are carried out if it succeeds. -/
theorem operations_attempt_bind (n : Nat) (op : Op) (r : Except String Unit) (failed : String → String) (f : Unit → Cycle β) :
    (attempt n op r failed >>= f).events.filter Event.isOperation =
      .op n op r.toBool :: if r.toBool then (f ()).events.filter Event.isOperation else [] := by
  cases h : r with
  | ok _ =>
    rw [attempt_bind_of_ok rfl]
    rfl
  | error err =>
    rw [attempt_bind_of_error rfl]
    rfl

/-- After the log the operations are those of the cleanup. -/
theorem operations_afterLog (flags : Flags) (n : Nat) (o : Outcomes) (bytes : Vector UInt8 8) :
    (afterLog flags n o bytes).events.filter Event.isOperation = cleanup n (userDN flags bytes) o := by
  have hlast : ∀ line, (log line).events.filter Event.isOperation = [] := fun _ => rfl
  simp only [afterLog, operations_attempt_bind, operations_log_bind, hlast, ite_self, cleanup]

@[simp] theorem panics_log (line : String) : Panics (log line) ↔ False := by simp [Panics, log]

@[simp] theorem panics_emit_bind (e : Event) (f : Unit → Cycle β) : Panics (emit e >>= f) ↔ Panics (f ()) := by
  rw [Panics, bind_of_ok (result_emit e)]
  rfl

@[simp] theorem panics_log_bind (line : String) (f : Unit → Cycle β) : Panics (log line >>= f) ↔ Panics (f ()) := by
  rw [log, panics_emit_bind]

/-- An operation does not panic, whether it succeeds or not. -/
theorem panics_attempt_bind (n : Nat) (op : Op) (r : Except String α) (failed : String → String) (f : α → Cycle β) :
    Panics (attempt n op r failed >>= f) ↔ ∃ a, r = .ok a ∧ Panics (f a) := by
  cases h : r with
  | ok a => simp [attempt_bind_of_ok, Panics]
  | error err => simp [attempt_bind_of_error, Panics]

theorem not_panics_afterLog (flags : Flags) (n : Nat) (o : Outcomes) (bytes : Vector UInt8 8) :
    ¬Panics (afterLog flags n o bytes) := by
  simp [afterLog, panics_attempt_bind]

/-- A piece that panics ends every cycle that goes on with it. -/
theorem panics_of_endsWith {last m : Cycle Unit} (h : EndsWith last m) : Panics m ↔ Panics last := by
  obtain ⟨opening, rfl⟩ := h
  rfl

end SockShop.Ldap
