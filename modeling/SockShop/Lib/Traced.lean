import Mathlib.Data.List.Basic

/-!
# Programs that leave a trace and may stop early

`Traced ε σ α` is what one run of a piece of a program does: the events it emits, oldest first, and its value or the way it stopped
before its end. Sequencing appends the events; a piece that stops keeps the rest from running. `Emits p m` says that some event of
`m` has property `p`; its rules follow the program text. `EndsWith last m` says that `m` ends as `last` does, after events of its
own. `andFinally` runs a last piece however the first one ended.

Some events acquire a resource and some release one. `Released acq rel` says of a trace that every event that acquires a resource is
followed by one that releases it; `Unreleased acq rel` says which resource is acquired without that.
-/

/-- The events of a run and its value, or the way it stopped. -/
structure Traced (ε σ α : Type) where
  events : List ε
  result : Except σ α

namespace Traced

variable {ε σ α β : Type}

/-- One piece after another. -/
def andThen (m : Traced ε σ α) (f : α → Traced ε σ β) : Traced ε σ β :=
  match m.result with
  | .ok a => ⟨m.events ++ (f a).events, (f a).result⟩
  | .error r => ⟨m.events, .error r⟩

instance : Monad (Traced ε σ) where
  pure a := ⟨[], .ok a⟩
  bind := andThen

/-- A piece that emits one event. -/
def emit (e : ε) : Traced ε σ Unit := ⟨[e], .ok ()⟩

/-- A piece that stops. -/
def stop (r : σ) : Traced ε σ α := ⟨[], .error r⟩

/-- A piece, and then `last`, however the piece ended. -/
def andFinally (m : Traced ε σ α) (last : Traced ε σ Unit) : Traced ε σ α :=
  ⟨m.events ++ last.events, last.result.bind fun _ => m.result⟩

@[simp] theorem events_pure (a : α) : (pure a : Traced ε σ α).events = [] := rfl

@[simp] theorem result_pure (a : α) : (pure a : Traced ε σ α).result = .ok a := rfl

@[simp] theorem events_emit (e : ε) : (emit e : Traced ε σ Unit).events = [e] := rfl

@[simp] theorem result_emit (e : ε) : (emit e : Traced ε σ Unit).result = .ok () := rfl

@[simp] theorem events_stop (r : σ) : (stop r : Traced ε σ α).events = [] := rfl

@[simp] theorem result_stop (r : σ) : (stop r : Traced ε σ α).result = .error r := rfl

/-- A piece that has a value goes on with what follows. -/
theorem bind_of_ok {m : Traced ε σ α} {a : α} (h : m.result = .ok a) (f : α → Traced ε σ β) :
    m >>= f = ⟨m.events ++ (f a).events, (f a).result⟩ := by
  change m.andThen f = _
  rw [andThen, h]

/-- A piece that stops ends the run. -/
theorem bind_of_error {m : Traced ε σ α} {r : σ} (h : m.result = .error r) (f : α → Traced ε σ β) :
    m >>= f = ⟨m.events, .error r⟩ := by
  change m.andThen f = _
  rw [andThen, h]

/-- Emitting an event, then the rest. -/
@[simp] theorem events_emit_bind (e : ε) (f : Unit → Traced ε σ β) : (emit e >>= f).events = e :: (f ()).events := by
  rw [bind_of_ok (result_emit e)]
  rfl

/-- The events of a sequence are those of its first piece and, if that has a value, those of the rest for the value. -/
theorem mem_events_bind {m : Traced ε σ α} {f : α → Traced ε σ β} {e : ε} :
    e ∈ (m >>= f).events ↔ e ∈ m.events ∨ ∃ a, m.result = .ok a ∧ e ∈ (f a).events := by
  cases h : m.result with
  | ok a => simp [bind_of_ok h]
  | error r => simp [bind_of_error h]

@[simp] theorem stop_bind (r : σ) (f : α → Traced ε σ β) : (stop r : Traced ε σ α) >>= f = stop r := by
  rw [bind_of_error (result_stop r)]
  rfl

/-- A result that is no stop, as its value and as a test. -/
theorem exists_eq_ok_iff {r : Except σ α} : (∃ a, r = .ok a) ↔ r.toBool = true := by
  cases r <;> simp [Except.toBool]

/-- A sequence has a value when its first piece has one and the rest has one for that. -/
theorem result_bind_eq_ok {m : Traced ε σ α} {f : α → Traced ε σ β} {b : β} :
    (m >>= f).result = .ok b ↔ ∃ a, m.result = .ok a ∧ (f a).result = .ok b := by
  cases h : m.result with
  | ok a => simp [bind_of_ok h]
  | error r => simp [bind_of_error h]

/-- The same, for a first piece without a value of interest. -/
theorem result_bind_unit_eq_ok {m : Traced ε σ Unit} {f : Unit → Traced ε σ β} {b : β} :
    (m >>= f).result = .ok b ↔ m.result = .ok () ∧ (f ()).result = .ok b := by
  rw [result_bind_eq_ok]
  constructor
  · rintro ⟨⟨⟩, h⟩
    exact h
  · intro h
    exact ⟨(), h⟩

/-- A piece with a last piece has a value when both have. -/
theorem result_andFinally_eq_ok {m : Traced ε σ α} {last : Traced ε σ Unit} {a : α} :
    (andFinally m last).result = .ok a ↔ last.result = .ok () ∧ m.result = .ok a := by
  unfold andFinally
  cases last.result with
  | ok u => simp [Except.bind]
  | error r => simp [Except.bind]

instance : LawfulMonad (Traced ε σ) :=
  LawfulMonad.mk' (Traced ε σ)
    (fun m => by
      change m.andThen pure = m
      cases h : m.result <;> cases m <;> simp_all [andThen])
    (fun _ _ => rfl)
    (fun m f g => by
      cases h : m.result with
      | ok a =>
        rw [bind_of_ok h f, bind_of_ok h]
        cases h' : (f a).result with
        | ok b => simp [bind_of_ok h', bind_of_ok]
        | error r => simp [bind_of_error h', bind_of_error]
      | error r =>
        rw [bind_of_error h f, bind_of_error h]
        exact bind_of_error rfl g)

/-! ## Emitting an event -/

/-- Some event of the run has property `p`. -/
def Emits (p : ε → Prop) (m : Traced ε σ α) : Prop := ∃ e ∈ m.events, p e

@[simp] theorem emits_stop (p : ε → Prop) (r : σ) : Emits p (stop r : Traced ε σ α) ↔ False := by simp [Emits]

@[simp] theorem emits_emit (p : ε → Prop) (e : ε) : Emits p (emit e : Traced ε σ Unit) ↔ p e := by simp [Emits]

/-- A sequence emits what its first piece emits and, if that has a value, what the rest emits for the value. -/
theorem emits_bind (p : ε → Prop) (m : Traced ε σ α) (f : α → Traced ε σ β) :
    Emits p (m >>= f) ↔ Emits p m ∨ ∃ a, m.result = .ok a ∧ Emits p (f a) := by
  cases h : m.result with
  | ok a => simp [bind_of_ok h, Emits, or_and_right, exists_or]
  | error r => simp [bind_of_error h, Emits]

@[simp] theorem emits_emit_bind (p : ε → Prop) (e : ε) (f : Unit → Traced ε σ β) :
    Emits p (emit e >>= f) ↔ p e ∨ Emits p (f ()) := by
  rw [emits_bind, emits_emit]
  apply or_congr_right
  constructor
  · rintro ⟨_, _, h⟩
    exact h
  · intro h
    exact ⟨(), rfl, h⟩

/-! ## The end of a run -/

/-- A run that ends as `last` does, after other events. -/
def EndsWith (last m : Traced ε σ α) : Prop := ∃ opening, m = ⟨opening ++ last.events, last.result⟩

theorem EndsWith.refl (m : Traced ε σ α) : EndsWith m m := ⟨[], rfl⟩

/-- A sequence whose first piece has a value ends as the rest does. -/
theorem EndsWith.bind {m : Traced ε σ α} {a : α} {f : α → Traced ε σ β} {last : Traced ε σ β} (h : EndsWith last (f a))
    (hm : m.result = .ok a) : EndsWith last (m >>= f) := by
  obtain ⟨opening, h⟩ := h
  refine ⟨m.events ++ opening, ?_⟩
  rw [bind_of_ok hm, h, List.append_assoc]

end Traced

/-! ## Resources -/

section Resources

variable {ε κ : Type} (acq rel : ε → Option κ)

/-- Every event that acquires a resource is followed by one that releases it. -/
def Released : List ε → Prop
  | [] => True
  | e :: tr => (∀ k, acq e = some k → ∃ f ∈ tr, rel f = some k) ∧ Released tr

variable {acq rel}

/-- A trace that acquires nothing has nothing to release. -/
theorem released_of_forall_none {tr : List ε} (h : ∀ e ∈ tr, acq e = none) : Released acq rel tr := by
  induction tr with
  | nil => trivial
  | cons e tr ih =>
    constructor
    · intro k hk
      rw [h e List.mem_cons_self] at hk
      cases hk
    · apply ih
      intro f hf
      exact h f (List.mem_cons_of_mem e hf)

/-- Two traces that release what they acquire do so one after the other. -/
theorem Released.append {xs ys : List ε} (hx : Released acq rel xs) (hy : Released acq rel ys) : Released acq rel (xs ++ ys) := by
  induction xs with
  | nil => exact hy
  | cons e xs ih =>
    refine ⟨?_, ih hx.2⟩
    intro k hk
    obtain ⟨f, hf, hr⟩ := hx.1 k hk
    exact ⟨f, List.mem_append_left ys hf, hr⟩

/-- A sequence releases what it acquires when its pieces do. -/
theorem Released.bind {σ α β : Type} {m : Traced ε σ α} {f : α → Traced ε σ β} (hm : Released acq rel m.events)
    (hf : ∀ a, m.result = .ok a → Released acq rel (f a).events) : Released acq rel (m >>= f).events := by
  cases h : m.result with
  | ok a =>
    rw [Traced.bind_of_ok h]
    exact hm.append (hf a h)
  | error r =>
    rw [Traced.bind_of_error h]
    exact hm

/-- What follows a trace does not count for what is acquired in it, when it releases other resources. -/
theorem released_append_iff {xs ys : List ε} (h : ∀ e ∈ xs, ∀ f ∈ ys, ∀ k, acq e = some k → rel f ≠ some k) :
    Released acq rel (xs ++ ys) ↔ Released acq rel xs ∧ Released acq rel ys := by
  constructor
  · intro hr
    induction xs with
    | nil => exact ⟨trivial, hr⟩
    | cons e xs ih =>
      obtain ⟨hx, hy⟩ := ih (fun e' he' => h e' (List.mem_cons_of_mem e he')) hr.2
      refine ⟨⟨?_, hx⟩, hy⟩
      intro k hk
      obtain ⟨f, hf, hrel⟩ := hr.1 k hk
      rcases List.mem_append.1 hf with hf | hf
      · exact ⟨f, hf, hrel⟩
      · exact absurd hrel (h e List.mem_cons_self f hf k hk)
  · rintro ⟨hx, hy⟩
    exact hx.append hy

/-- An event that acquires nothing adds nothing to release. -/
theorem released_cons_of_none {e : ε} {tr : List ε} (h : acq e = none) : Released acq rel (e :: tr) ↔ Released acq rel tr := by
  simp [Released, h]

variable (acq rel) in
/-- An event acquires the resource, and none that follows releases it. -/
def Unreleased (tr : List ε) (k : κ) : Prop := ∃ pre e post, tr = pre ++ e :: post ∧ acq e = some k ∧ ∀ f ∈ post, rel f ≠ some k

theorem not_unreleased_nil (k : κ) : ¬Unreleased acq rel [] k := by
  rintro ⟨pre, e, post, h, -, -⟩
  exact List.append_ne_nil_of_right_ne_nil pre (List.cons_ne_nil e post) h.symm

/-- A resource is left from the first event, or from those after it. -/
theorem unreleased_cons_iff {e : ε} {tr : List ε} {k : κ} :
    Unreleased acq rel (e :: tr) k ↔ (acq e = some k ∧ ∀ f ∈ tr, rel f ≠ some k) ∨ Unreleased acq rel tr k := by
  constructor
  · rintro ⟨pre, e', post, htr, hacq, hrel⟩
    cases pre with
    | nil =>
      obtain ⟨rfl, rfl⟩ := List.cons.inj htr
      exact Or.inl ⟨hacq, hrel⟩
    | cons e₀ pre => exact Or.inr ⟨pre, e', post, (List.cons.inj htr).2, hacq, hrel⟩
  · rintro (⟨hacq, hrel⟩ | ⟨pre, e', post, rfl, hacq, hrel⟩)
    · exact ⟨[], e, tr, rfl, hacq, hrel⟩
    · exact ⟨e :: pre, e', post, rfl, hacq, hrel⟩

/-- A trace releases what it acquires when no resource is left. -/
theorem released_iff_forall_not_unreleased {tr : List ε} : Released acq rel tr ↔ ∀ k, ¬Unreleased acq rel tr k := by
  induction tr with
  | nil => exact iff_of_true trivial not_unreleased_nil
  | cons e tr ih =>
    simp only [Released, ih, unreleased_cons_iff, not_or, not_and, not_forall, not_not, exists_prop, forall_and]

/-- What is left of two traces, where the second does not release the resource if the first acquires it. -/
theorem unreleased_append_iff {xs ys : List ε} {k : κ} (h : ∀ e ∈ xs, acq e = some k → ∀ f ∈ ys, rel f ≠ some k) :
    Unreleased acq rel (xs ++ ys) k ↔ Unreleased acq rel xs k ∨ Unreleased acq rel ys k := by
  constructor
  · rintro ⟨pre, e, post, htr, hacq, hrel⟩
    rcases List.append_eq_append_iff.1 htr with ⟨mid, rfl, rfl⟩ | ⟨mid, rfl, hmid⟩
    · exact Or.inr ⟨mid, e, post, rfl, hacq, hrel⟩
    · cases mid with
      | nil => exact Or.inr ⟨[], e, post, hmid.symm, hacq, hrel⟩
      | cons e' mid =>
        obtain ⟨rfl, rfl⟩ := List.cons.inj hmid
        exact Or.inl ⟨pre, e, mid, rfl, hacq, fun f hf => hrel f (List.mem_append_left ys hf)⟩
  · rintro (⟨pre, e, post, rfl, hacq, hrel⟩ | ⟨pre, e, post, rfl, hacq, hrel⟩)
    · refine ⟨pre, e, post ++ ys, by simp, hacq, ?_⟩
      intro f hf
      rcases List.mem_append.1 hf with hf | hf
      · exact hrel f hf
      · exact h e (by simp) hacq f hf
    · exact ⟨xs ++ pre, e, post, by simp, hacq, hrel⟩

end Resources
