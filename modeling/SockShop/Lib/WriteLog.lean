import Mathlib.Data.List.AList

/-!
# Write logs: the last write to a name is the one that counts

A log is a list of writes `(k, v)`, oldest first. `last` reads the log as a map: what the last write to a name wrote.
`store` plays the log into a map, one insertion at a time, and `lookup_store` says the two readings agree: a program that
keeps a map and overwrites its entries computes the last writes of the log of everything it wrote.

`Settled p log` says the last write to every name of the log satisfies `p`; `Standing p log` that some write that does not satisfy `p`
is not followed by a write to its name, which is the opposite (`standing_iff`); and `Overwritten p log` that some write that does not
satisfy `p` is followed by one. A settled log hides a write that does not satisfy `p` exactly when that write is overwritten
(`forall_of_settled`), and a log whose every write satisfies `p` settles the log it extends exactly when it rewrites every name that
was not settled (`settled_append_iff`). The order of the parts of a log does not matter when they write different names
(`last_flatMap_perm`).
-/

namespace WriteLog

variable {K V : Type} [DecidableEq K]

/-- What the last write to `k` in the log wrote; none when the log has no write to `k`. -/
def last : List (K × V) → K → Option V
  | [], _ => none
  | (k', v) :: log, k => (last log k).or (if k' = k then some v else none)

/-- Play a log into a map, oldest write first. -/
def store (m : AList fun _ : K => V) (log : List (K × V)) : AList fun _ : K => V :=
  log.foldl (fun m w => m.insert w.1 w.2) m

/-- The names a log writes. -/
def names (log : List (K × V)) : List K := log.map (·.1)

/-- The last write to every name of the log satisfies `p`. -/
def Settled (p : V → Prop) (log : List (K × V)) : Prop := ∀ k v, last log k = some v → p v

/-- Some write of the log does not satisfy `p` and is followed by no other write to its name. -/
def Standing (p : V → Prop) (log : List (K × V)) : Prop :=
  ∃ (earlier later : List (K × V)) (k : K) (v : V), log = earlier ++ (k, v) :: later ∧ ¬p v ∧ k ∉ names later

/-- Some write of the log does not satisfy `p` and is followed by another write to its name. -/
def Overwritten (p : V → Prop) (log : List (K × V)) : Prop :=
  ∃ (earlier later : List (K × V)) (k : K) (v : V), log = earlier ++ (k, v) :: later ∧ ¬p v ∧ k ∈ names later

/-! ## Reading the last write -/

@[simp] theorem last_nil (k : K) : last ([] : List (K × V)) k = none := rfl

/-- The last write of a log in two parts is the last one of the second part, if it writes the name at all. -/
theorem last_append (a b : List (K × V)) (k : K) : last (a ++ b) k = (last b k).or (last a k) := by
  induction a with
  | nil => simp [last]
  | cons w a ih => rw [List.cons_append, last, last, ih, Option.or_assoc]

/-- A log has no last write to a name exactly when it does not write the name. -/
theorem last_eq_none_iff (log : List (K × V)) (k : K) : last log k = none ↔ k ∉ names log := by
  induction log with
  | nil => simp [names]
  | cons w log ih =>
    simp only [last, Option.or_eq_none_iff, ih, names, List.map_cons, List.mem_cons, not_or]
    constructor
    · rintro ⟨hlog, hw⟩
      exact ⟨fun hk => by simp [hk] at hw, hlog⟩
    · rintro ⟨hw, hlog⟩
      exact ⟨hlog, if_neg (Ne.symm hw)⟩

/-- The last write to a name is a write of the log. -/
theorem mem_of_last {log : List (K × V)} {k : K} {v : V} (h : last log k = some v) : (k, v) ∈ log := by
  induction log with
  | nil => simp at h
  | cons w log ih =>
    rw [last, Option.or_eq_some_iff] at h
    rcases h with h | ⟨-, h⟩
    · exact List.mem_cons_of_mem _ (ih h)
    · split at h
      · rename_i hk
        cases h
        rw [← hk]
        exact List.mem_cons_self
      · cases h

/-- A write whose name is not written again is the last write to its name. -/
theorem last_of_not_rewritten {earlier later : List (K × V)} {k : K} {v : V} (h : k ∉ names later) :
    last (earlier ++ (k, v) :: later) k = some v := by
  rw [last_append, last, (last_eq_none_iff later k).2 h]
  simp

/-- The last write to a name is followed by no other. -/
theorem exists_of_last {log : List (K × V)} {k : K} {v : V} (h : last log k = some v) :
    ∃ earlier later, log = earlier ++ (k, v) :: later ∧ k ∉ names later := by
  induction log with
  | nil => simp at h
  | cons w log ih =>
    rw [last, Option.or_eq_some_iff] at h
    rcases h with h | ⟨hnone, h⟩
    · obtain ⟨earlier, later, rfl, hk⟩ := ih h
      exact ⟨w :: earlier, later, rfl, hk⟩
    · split at h
      · rename_i hk
        cases h
        subst hk
        exact ⟨[], log, rfl, (last_eq_none_iff log w.1).1 hnone⟩
      · cases h

/-! ## Logs of independent parts -/

section Parts

variable {ι : Type} {f : ι → List (K × V)} {xs ys : List ι}

/-- A name that one part of a log writes and no other part does has its last write there, wherever the part stands and however often
it is repeated. -/
theorem last_flatMap_of_mem {x : ι} {k : K} (hx : x ∈ xs) (hk : k ∈ names (f x)) (hno : ∀ y ∈ xs, y ≠ x → k ∉ names (f y)) :
    last (xs.flatMap f) k = last (f x) k := by
  induction xs with
  | nil => cases hx
  | cons y ys ih =>
    rw [List.flatMap_cons, last_append]
    have hno' : ∀ z ∈ ys, z ≠ x → k ∉ names (f z) := fun z hz => hno z (List.mem_cons_of_mem y hz)
    by_cases hys : x ∈ ys
    · obtain ⟨v, hv⟩ := Option.ne_none_iff_exists'.1 fun he => (last_eq_none_iff (f x) k).1 he hk
      rw [ih hys hno', hv, Option.some_or]
    · rcases List.mem_cons.1 hx with rfl | hx
      · have hnone : last (ys.flatMap f) k = none := by
          rw [last_eq_none_iff, names, List.map_flatMap, List.mem_flatMap]
          rintro ⟨z, hz, hkz⟩
          exact hno' z hz (fun he => hys (he ▸ hz)) hkz
        rw [hnone, Option.none_or]
      · exact absurd hx hys

/-- The parts of a log can change places when no two different ones write the same name. -/
theorem last_flatMap_perm (hperm : xs.Perm ys) (hdis : ∀ x ∈ xs, ∀ y ∈ xs, x ≠ y → List.Disjoint (names (f x)) (names (f y)))
    (k : K) : last (xs.flatMap f) k = last (ys.flatMap f) k := by
  by_cases h : ∃ x ∈ xs, k ∈ names (f x)
  · obtain ⟨x, hx, hk⟩ := h
    have hno : ∀ y ∈ xs, y ≠ x → k ∉ names (f y) := fun y hy hne hky => hdis y hy x hx hne hky hk
    rw [last_flatMap_of_mem hx hk hno, last_flatMap_of_mem (hperm.mem_iff.1 hx) hk fun y hy => hno y (hperm.mem_iff.2 hy)]
  · have hnone : ∀ zs : List ι, zs.Perm xs → last (zs.flatMap f) k = none := by
      intro zs hzs
      rw [last_eq_none_iff, names, List.map_flatMap, List.mem_flatMap]
      rintro ⟨z, hz, hkz⟩
      exact h ⟨z, hzs.mem_iff.1 hz, hkz⟩
    rw [hnone xs (List.Perm.refl xs), hnone ys hperm.symm]

end Parts

/-! ## Playing a log into a map -/

/-- Playing a log in two parts. -/
theorem store_append (m : AList fun _ : K => V) (a b : List (K × V)) : store m (a ++ b) = store (store m a) b :=
  List.foldl_append

/-- The map a log leaves holds the last write to every name the log writes, and the old entry of every other name. -/
theorem lookup_store (m : AList fun _ : K => V) (log : List (K × V)) (k : K) :
    (store m log).lookup k = (last log k).or (m.lookup k) := by
  induction log generalizing m with
  | nil => rfl
  | cons w log ih =>
    rw [store, List.foldl_cons, ← store, ih, last, Option.or_assoc]
    congr 1
    by_cases h : w.1 = k
    · subst h
      rw [AList.lookup_insert, if_pos rfl, Option.some_or]
    · rw [AList.lookup_insert_ne (Ne.symm h), if_neg h, Option.none_or]

/-- Every entry of a map satisfies `p` exactly when every value looked up does. -/
theorem forall_entries_iff (p : V → Prop) (m : AList fun _ : K => V) :
    (∀ e ∈ m.entries, p e.2) ↔ ∀ k v, m.lookup k = some v → p v := by
  constructor
  · intro h k v hk
    exact h ⟨k, v⟩ (AList.mem_lookup_iff.1 hk)
  · rintro h ⟨k, v⟩ he
    exact h k v (AList.mem_lookup_iff.2 he)

/-- The map a log leaves, played from the empty map, has only entries that satisfy `p` exactly when the log is settled. -/
theorem forall_store_iff (p : V → Prop) (log : List (K × V)) :
    (∀ e ∈ (store ∅ log).entries, p e.2) ↔ Settled p log := by
  rw [forall_entries_iff]
  simp only [lookup_store, AList.lookup_empty, Option.or_none, Settled]

/-! ## Settled logs -/

/-- The empty log is settled. -/
theorem settled_nil (p : V → Prop) : Settled p ([] : List (K × V)) := fun _ _ h => by simp at h

/-- In a settled log a write whose name is not written again satisfies `p`. -/
theorem Settled.of_not_rewritten {p : V → Prop} {earlier later : List (K × V)} {k : K} {v : V}
    (h : Settled p (earlier ++ (k, v) :: later)) (hk : k ∉ names later) : p v :=
  h k v (last_of_not_rewritten hk)

/-- A write that does not satisfy `p` stands at the end of a log exactly when the log is not settled. -/
theorem standing_iff {p : V → Prop} {log : List (K × V)} : Standing p log ↔ ¬Settled p log := by
  constructor
  · rintro ⟨earlier, later, k, v, rfl, hv, hk⟩ h
    exact hv (h.of_not_rewritten hk)
  · intro h
    unfold Settled at h
    push Not at h
    obtain ⟨k, v, hlast, hv⟩ := h
    obtain ⟨earlier, later, hlog, hk⟩ := exists_of_last hlast
    exact ⟨earlier, later, k, v, hlog, hv, hk⟩

/-- A settled log hides nothing in its last part exactly when that part overwrites no write that does not satisfy `p`. -/
theorem forall_of_settled {p : V → Prop} {old new : List (K × V)} (h : Settled p (old ++ new)) :
    (∀ w ∈ new, p w.2) ↔ ¬Overwritten p new := by
  constructor
  · rintro hall ⟨earlier, later, k, v, rfl, hv, -⟩
    exact hv (hall (k, v) (by simp))
  · rintro hno ⟨k, v⟩ hw
    obtain ⟨earlier, later, rfl⟩ := List.append_of_mem hw
    by_cases hk : k ∈ names later
    · by_contra hv
      exact hno ⟨earlier, later, k, v, rfl, hv, hk⟩
    · rw [← List.append_assoc] at h
      exact h.of_not_rewritten hk

/-- A log extended by writes that all satisfy `p` is settled exactly when every name whose last write did not satisfy `p` is
written again. -/
theorem settled_append_iff {p : V → Prop} {old new : List (K × V)} (hnew : ∀ w ∈ new, p w.2) :
    Settled p (old ++ new) ↔ ∀ k v, last old k = some v → ¬p v → k ∈ names new := by
  constructor
  · intro h k v hk hv
    by_contra hn
    refine hv (h k v ?_)
    rw [last_append, (last_eq_none_iff new k).2 hn, hk, Option.none_or]
  · intro h k v hk
    rw [last_append, Option.or_eq_some_iff] at hk
    rcases hk with hk | ⟨hn, hk⟩
    · exact hnew (k, v) (mem_of_last hk)
    · by_contra hv
      exact (last_eq_none_iff new k).1 hn (h k v hk hv)

end WriteLog
