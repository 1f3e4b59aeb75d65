import SockShop.Healthcheck

/-!
# What a run asks and prints

Whatever the replies are, a piece of the script asks what its text says in that order, or a first part of it when an exception ends the
script (`Asks`). That goes for a service, a round and the loop (`asks_retryLoop`), and only adds to what was asked and printed before.
A loop of more rounds is the loop of fewer rounds, and then, if that did not leave the map all "OK", the rest (`retryLoop_add`).
-/

namespace SockShop.Healthcheck

/-- The script has asked `asked` since the state `s`, and taken back nothing that it printed. -/
structure Grows (s : Script) (asked : List Request) (s' : Script) : Prop where
  requests : s'.requests = s.requests ++ asked
  output : s.output <+: s'.output

theorem Grows.refl (s : Script) : Grows s [] s := ⟨(List.append_nil _).symm, List.prefix_refl _⟩

theorem Grows.trans {s s₁ s₂ : Script} {asked asked' : List Request} (h : Grows s asked s₁) (h' : Grows s₁ asked' s₂) :
    Grows s (asked ++ asked') s₂ :=
  ⟨by rw [h'.requests, h.requests, List.append_assoc], h.output.trans h'.output⟩

/-- A piece of a round asks `asks`, or a first part of it when an exception ends the script. -/
def Asks (s : Script) (asks : List Request) : Except Script Script → Prop
  | .ok s' => Grows s asks s' ∧ s'.rounds = s.rounds
  | .error s' => ∃ asked, asked <+: asks ∧ Grows s asked s'

/-- One piece after another. -/
theorem Asks.bind {s : Script} {asks asks' : List Request} {r : Except Script Script} {f : Script → Except Script Script}
    (h : Asks s asks r) (hf : ∀ s₁, r = .ok s₁ → Asks s₁ asks' (f s₁)) : Asks s (asks ++ asks') (r >>= f) := by
  cases r with
  | error s₁ =>
    obtain ⟨asked, hprefix, hgrows⟩ := h
    exact ⟨asked, hprefix.trans (List.prefix_append _ _), hgrows⟩
  | ok s₁ =>
    obtain ⟨hgrows, hrounds⟩ := h
    have hrest := hf s₁ rfl
    change Asks s (asks ++ asks') (f s₁)
    cases hs₂ : f s₁ with
    | ok s₂ =>
      rw [hs₂] at hrest
      exact ⟨hgrows.trans hrest.1, hrest.2.trans hrounds⟩
    | error s₂ =>
      rw [hs₂] at hrest
      obtain ⟨asked, hprefix, hgrows'⟩ := hrest
      exact ⟨asks ++ asked, (List.prefix_append_right_inj asks).2 hprefix, hgrows.trans hgrows'⟩

section Pieces

variable (c : Settings) (net : Net)

/-- Reading an item asks nothing. -/
theorem asks_record (s : Script) (item : Json) : Asks s [] (record s item) := by
  unfold record
  split
  · exact ⟨⟨(List.append_nil _).symm, List.prefix_refl _⟩, rfl⟩
  · exact ⟨[], List.prefix_refl _, .refl s⟩

theorem asks_foldlM_record (items : List Json) (s : Script) : Asks s [] (items.foldlM record s) := by
  induction items generalizing s with
  | nil => exact ⟨.refl s, rfl⟩
  | cons item items ih =>
    rw [List.foldlM_cons]
    exact (asks_record s item).bind fun s₁ _ => ih s₁

/-- A service is asked once, whatever it replies. -/
theorem asks_checkService (i : Nat) (s : Script) (service : String) :
    Asks s [⟨i, c.url service, "/health"⟩] (checkService c net i s service) := by
  have hasked : Grows s [⟨i, c.url service, "/health"⟩] { s with requests := s.requests ++ [⟨i, c.url service, "/health"⟩] } :=
    ⟨rfl, List.prefix_refl _⟩
  unfold checkService
  dsimp only
  split
  · exact ⟨⟨rfl, List.prefix_refl _⟩, rfl⟩
  · split
    · exact ⟨_, List.prefix_refl _, hasked⟩
    · rename_i items _
      have hread := asks_foldlM_record items { s with requests := s.requests ++ [⟨i, c.url service, "/health"⟩] }
      have hboth : Asks s [⟨i, c.url service, "/health"⟩] (.ok { s with requests := s.requests ++ [⟨i, c.url service, "/health"⟩] }) :=
        ⟨hasked, rfl⟩
      exact hboth.bind (f := fun s => items.foldlM record s) fun s₁ h => by cases h; exact hread

theorem asks_foldlM_checkService (i : Nat) (services : List String) (s : Script) :
    Asks s (services.map fun service => ⟨i, c.url service, "/health"⟩) (services.foldlM (checkService c net i) s) := by
  induction services generalizing s with
  | nil => exact ⟨.refl s, rfl⟩
  | cons service services ih =>
    rw [List.foldlM_cons, List.map_cons]
    exact (asks_checkService c net i s service).bind fun s₁ _ => ih s₁

/-- The pause asks nothing. -/
theorem asks_pause (s : Script) : Asks s [] (pause c s) := by
  unfold pause
  split
  · exact ⟨.refl s, rfl⟩
  · dsimp only
    split
    · exact ⟨[], List.prefix_refl _, ⟨(List.append_nil _).symm, List.prefix_append _ _⟩⟩
    · exact ⟨⟨(List.append_nil _).symm, List.prefix_append _ _⟩, rfl⟩

/-- A round asks every service, in order. -/
theorem asks_round (i : Nat) (s : Script) : Asks { s with rounds := i } (c.roundRequests i) (round c net i s) := by
  unfold round
  refine (asks_pause c { s with rounds := i }).bind fun s₁ _ => ?_
  have hservices := asks_foldlM_checkService c net i c.services s₁
  rw [← List.append_nil (c.services.map _)]
  exact hservices.bind fun s₂ _ => ⟨⟨(List.append_nil _).symm, List.prefix_append _ _⟩, rfl⟩

/-- How the loop ends that begins with round `i` and has `n` rounds: it goes on for all of them, or to one that leaves the map all "OK",
and asks every service in each; or an exception ends it, when it has asked a first part of that. -/
def Loops (n i : Nat) (s : Script) : Except Script Script → Prop
  | .ok s' => ∃ m ≤ n, Grows s ((List.range' i m).flatMap c.roundRequests) s' ∧ s'.rounds + 1 = i + m ∧
      (m = n ∨ s'.health.allOk = true)
  | .error s' => ∃ asked, asked <+: (List.range' i n).flatMap c.roundRequests ∧ Grows s asked s'

variable {c} in
/-- However the loop ends, what was asked and printed before it comes first. -/
theorem Loops.prefixes {n i : Nat} {s s' : Script} {r : Except Script Script} (h : Loops c n i s r) (hr : r = .ok s' ∨ r = .error s') :
    s.requests <+: s'.requests ∧ s.output <+: s'.output := by
  rcases hr with rfl | rfl
  · obtain ⟨m, -, hgrows, -, -⟩ := h
    exact ⟨hgrows.requests ▸ List.prefix_append _ _, hgrows.output⟩
  · obtain ⟨asked, -, hgrows⟩ := h
    exact ⟨hgrows.requests ▸ List.prefix_append _ _, hgrows.output⟩

theorem loops_retryLoop (n i : Nat) (s : Script) (hi : s.rounds + 1 = i) : Loops c n i s (retryLoop c net n i s) := by
  induction n generalizing i s with
  | zero => exact ⟨0, Nat.le_refl 0, .refl s, hi, Or.inl rfl⟩
  | succ n ih =>
    have hround := asks_round c net i s
    rw [retryLoop]
    cases hr : round c net i s with
    | error s₁ =>
      rw [hr] at hround
      obtain ⟨asked, hprefix, hgrows⟩ := hround
      refine ⟨asked, ?_, ⟨hgrows.requests, hgrows.output⟩⟩
      rw [List.range'_succ, List.flatMap_cons]
      exact hprefix.trans (List.prefix_append _ _)
    | ok s₁ =>
      rw [hr] at hround
      have hgrows : Grows s (c.roundRequests i) s₁ := ⟨hround.1.requests, hround.1.output⟩
      have hrounds : s₁.rounds + 1 = i + 1 := congrArg (· + 1) hround.2
      change Loops c (n + 1) i s (if s₁.health.allOk then .ok s₁ else retryLoop c net n (i + 1) s₁)
      by_cases hok : s₁.health.allOk = true
      · rw [if_pos hok]
        exact ⟨1, Nat.le_add_left 1 n, by rwa [List.range'_one, List.flatMap_singleton], hrounds, Or.inr hok⟩
      · rw [if_neg hok]
        have hrest := ih (i + 1) s₁ hrounds
        cases hl : retryLoop c net n (i + 1) s₁ with
        | error s₂ =>
          rw [hl] at hrest
          obtain ⟨asked, hprefix, hgrows'⟩ := hrest
          refine ⟨c.roundRequests i ++ asked, ?_, hgrows.trans hgrows'⟩
          rw [List.range'_succ, List.flatMap_cons]
          exact (List.prefix_append_right_inj _).2 hprefix
        | ok s₂ =>
          rw [hl] at hrest
          obtain ⟨m, hm, hgrows', hrounds', hend⟩ := hrest
          refine ⟨m + 1, Nat.succ_le_succ hm, ?_, by omega, hend.imp_left (congrArg (· + 1))⟩
          rw [List.range'_succ, List.flatMap_cons]
          exact hgrows.trans hgrows'

/-- The rounds of a loop, and then, if they do not leave the map all "OK", those of a longer one. -/
theorem retryLoop_add (n k i : Nat) (s : Script) :
    retryLoop c net (n + 1 + k) i s = retryLoop c net (n + 1) i s >>= fun s₁ =>
      if s₁.health.allOk then .ok s₁ else retryLoop c net k (i + n + 1) s₁ := by
  induction n generalizing i s with
  | zero =>
    rw [Nat.zero_add, Nat.add_comm 1 k, retryLoop, retryLoop, bind_assoc]
    refine bind_congr fun s₁ => ?_
    by_cases hok : s₁.health.allOk = true
    · simp [hok, bind, Except.bind]
    · simp [hok, retryLoop, bind, Except.bind]
  | succ n ih =>
    rw [show n + 1 + 1 + k = n + 1 + k + 1 by omega, retryLoop, retryLoop, bind_assoc]
    refine bind_congr fun s₁ => ?_
    by_cases hok : s₁.health.allOk = true
    · simp [hok, bind, Except.bind]
    · rw [if_neg hok, if_neg hok, ih, show i + 1 + n + 1 = i + (n + 1) + 1 by omega]

end Pieces

/-- The loop reads nothing of `--retry` but the number of its rounds. -/
theorem retryLoop_with_retry (c : Settings) (retry : Int) (net : Net) (n i : Nat) (s : Script) :
    retryLoop { c with retry := retry } net n i s = retryLoop c net n i s := by
  induction n generalizing i s with
  | zero => rfl
  | succ n ih =>
    rw [retryLoop, retryLoop]
    refine bind_congr fun s₁ => ?_
    rw [ih]

end SockShop.Healthcheck
