import Mathlib.Algebra.Order.BigOperators.Group.Finset
import Mathlib.Algebra.Order.Ring.Nat
import SockShop.DiameterPair
import SockShop.Lemmas.Diameter

/-!
# What passes between the Diameter client and server

Seen from the client, the pair does what the client does with a peer that sends anything at all (`toClient`), so what is proved of the
client holds of the pair. What the peer sends here is known: `Carries` says of a connection that the requests under way are those of
the script that are sent and not yet served, and that the answers delivered and under way are answers to those served, in their order,
none of them twice. It holds of every connection in every state of every run (`inv_of_exec`).
-/

namespace SockShop.DiameterPair

open DiameterServer

section

variable (ids : Identities) (rand : UInt32) (render : Message → String) (silent : Bool)

/-! ## The server on the client's requests -/

/-- A request that cannot be parsed is not answered. -/
theorem handle_unparsed (command : Command) (addr : String) (m : Message) (err : String) (writeTo : Except String Unit) :
    (handle render silent command ⟨addr, m, .error err, writeTo⟩).events.filterMap written = [] ∧
      (handle render silent command ⟨addr, m, .error err, writeTo⟩).result = .ok () := by
  cases command <;> cases silent <;> exact ⟨rfl, rfl⟩

/-- The answer to the HMR. -/
theorem handle_hmr (addr : String) (writeTo : Except String Unit) :
    (handle render silent .hmr ⟨addr, hmr ids rand, .ok (), writeTo⟩).events.filterMap written = [helloAnswer ids rand] ∧
      (handle render silent .hmr ⟨addr, hmr ids rand, .ok (), writeTo⟩).result = .ok () := by
  cases silent <;> cases writeTo <;> exact ⟨rfl, rfl⟩

/-- The answer to an ACR. -/
theorem handle_acr (i : Nat) (addr : String) (writeTo : Except String Unit) :
    (handle render silent .acr ⟨addr, acr ids i, .ok (), writeTo⟩).events.filterMap written = [accountingAnswer ids i] ∧
      (handle render silent .acr ⟨addr, acr ids i, .ok (), writeTo⟩).result = .ok () := by
  cases silent <;> cases writeTo <;> exact ⟨rfl, rfl⟩

/-- Every request of the script is answered as it is to be, if it is parsed, and no handler panics on it. -/
theorem handle_script {mode : Diameter.Mode} {n : Nat} {command : Command} {m : Message}
    (h : (script ids rand mode)[n]? = some (command, m)) (addr : String) (unmarshal writeTo : Except String Unit) :
    (handle render silent command ⟨addr, m, unmarshal, writeTo⟩).result = .ok () ∧
      ∃ answer, (answers ids rand mode)[n]? = some (answerOf command, answer) ∧
        (handle render silent command ⟨addr, m, unmarshal, writeTo⟩).events.filterMap written =
          if unmarshal.toBool then [answer] else [] := by
  have hanswer : ∃ answer, (answers ids rand mode)[n]? = some (answerOf command, answer) ∧
      (handle render silent command ⟨addr, m, .ok (), writeTo⟩).events.filterMap written = [answer] ∧
      (handle render silent command ⟨addr, m, .ok (), writeTo⟩).result = .ok () := by
    cases mode with
    | bench ncli msgs =>
      simp only [script, List.getElem?_map, Option.map_eq_some_iff, Prod.mk.injEq] at h
      obtain ⟨i, hi, rfl, rfl⟩ := h
      refine ⟨accountingAnswer ids i, ?_, handle_acr ids render silent i addr writeTo⟩
      simp [answers, List.getElem?_map, hi, answerOf]
    | hello =>
      simp only [script, List.getElem?_singleton, Option.ite_none_right_eq_some, Option.some.injEq, Prod.mk.injEq] at h
      obtain ⟨rfl, rfl, rfl⟩ := h
      exact ⟨helloAnswer ids rand, rfl, handle_hmr ids rand render silent addr writeTo⟩
    | persistent => cases h
  obtain ⟨answer, hget, hevents, hresult⟩ := hanswer
  cases unmarshal with
  | ok _ => exact ⟨hresult, answer, hget, hevents⟩
  | error err =>
    obtain ⟨hnone, hok⟩ := handle_unparsed render silent command addr m err writeTo
    exact ⟨hok, answer, hget, hnone⟩

end

/-! ## What a step does -/

section

variable {ids : Identities} {rand : UInt32} {render : Message → String} {silent : Bool} {remoteAddr : Nat → String}
  {mode : Diameter.Mode}

variable (ids rand render silent remoteAddr mode) in
/-- One action that the pair can take, by what it does to the client and to a connection. -/
inductive Moves (s : State) : Act → State → Prop where
  | main {a : Diameter.Act} {client : Diameter.State} (ha : isMain a = true) (hs : Diameter.step mode s.client a = some client) :
      Moves s (.main a) { s with client := client }
  | sends {c : Nat} {request : Command × Message} {client : Diameter.State} (hc : c < s.client.opened)
      (hb : (s.links c).broken = false) (hr : (script ids rand mode)[(s.links c).sent]? = some request)
      (hs : afterSend mode s.client = some client) :
      Moves s (.sends c) { s.setLink c { s.links c with
        sent := (s.links c).sent + 1, requests := (s.links c).requests ++ [request] } with client := client }
  | serves {c : Nat} {unmarshal writeTo : Except String Unit} {command : Command} {m : Message} {rest : List (Command × Message)}
      (hr : (s.links c).requests = (command, m) :: rest) :
      Moves s (.serves c unmarshal writeTo) { s.setLink c { s.links c with
        requests := rest
        answers := (s.links c).answers ++ if writeTo.toBool then
          ((handle render silent command ⟨remoteAddr c, m, unmarshal, writeTo⟩).events.filterMap written).map fun a =>
            (answerOf command, a)
          else [] } with
        serverPanicked := s.serverPanicked || !(handle render silent command ⟨remoteAddr c, m, unmarshal, writeTo⟩).result.toBool }
  | delivers {c : Nat} {m : Diameter.Message} {a : Message} {rest : List (Diameter.Message × Message)} {client : Diameter.State}
      (hr : (s.links c).answers = (m, a) :: rest) (hs : Diameter.step mode s.client (.arrives c m) = some client) :
      Moves s (.delivers c m) { s.setLink c { s.links c with
        answers := rest, delivered := (s.links c).delivered ++ [(m, a)] } with client := client }
  | breaks {c : Nat} (hc : c < s.client.opened) :
      Moves s (.breaks c) (s.setLink c { s.links c with requests := [], answers := [], broken := true })

/-- Every step of the pair is one of these moves. -/
theorem moves_of_step {s s' : State} {a : Act} (h : step ids rand render silent remoteAddr mode s a = some s') :
    Moves ids rand render silent remoteAddr mode s a s' := by
  cases a with
  | main a =>
    simp only [step, Option.ite_none_right_eq_some, Option.map_eq_some_iff] at h
    obtain ⟨ha, client, hs, rfl⟩ := h
    exact .main ha hs
  | sends c =>
    simp only [step, Option.ite_none_right_eq_some] at h
    obtain ⟨⟨hc, hb⟩, h⟩ := h
    split at h
    · rename_i request client hr hs
      cases h
      exact .sends hc hb hr hs
    · cases h
  | serves c unmarshal writeTo =>
    simp only [step, serve] at h
    split at h
    · cases h
    · rename_i command m rest hr
      cases h
      exact .serves hr
  | delivers c m =>
    simp only [step] at h
    split at h
    · rename_i m' a rest hr
      simp only [Option.ite_none_right_eq_some, Option.map_eq_some_iff] at h
      obtain ⟨rfl, client, hs, rfl⟩ := h
      exact .delivers hr hs
    · cases h
  | breaks c =>
    simp only [step, Option.ite_none_right_eq_some, Option.some.injEq] at h
    obtain ⟨hc, rfl⟩ := h
    exact .breaks hc

/-! ## The pair as the client sees it -/

/-- What an action is to the client. -/
def label (mode : Diameter.Mode) : Act → Option Diameter.Act
  | .main a => some a
  | .sends _ => if mode = .hello then some .sends else none
  | .delivers c m => some (.arrives c m)
  | .serves _ _ _ | .breaks _ => none

/-- A send is one of the client, where `main` sends, and else nothing to it. -/
theorem afterSend_spec {client client' : Diameter.State} (h : afterSend mode client = some client') :
    (mode = .hello ∧ Diameter.step mode client .sends = some client') ∨
      (mode ≠ .hello ∧ client' = client ∧ ∃ count, client.pc = .waiting count) := by
  unfold afterSend at h
  split at h
  · exact Or.inl ⟨rfl, h⟩
  · rename_i count hpc
    cases h
    exact Or.inr ⟨nofun, rfl, count, hpc⟩
  · cases h

variable (ids rand render silent remoteAddr mode) in
/-- The pair does with the client what the client does with its peers. -/
def toClient : Machine.Refinement (system ids rand render silent remoteAddr mode) (Diameter.system mode) where
  abs := State.client
  label := label mode
  init := rfl
  step s a s' h := by
    cases moves_of_step h with
    | main _ hs => exact hs
    | sends _ _ _ hs =>
      rcases afterSend_spec hs with ⟨hm, hs⟩ | ⟨hm, rfl, -⟩
      · rw [label, if_pos hm]
        exact hs
      · rw [label, if_neg hm]
    | serves _ => rfl
    | delivers _ hs => exact hs
    | breaks => rfl

/-! ## What a connection carries -/

theorem length_answers (ids : Identities) (rand : UInt32) (mode : Diameter.Mode) :
    (answers ids rand mode).length = (script ids rand mode).length := by
  cases mode <;> simp [answers, script]

variable (ids rand mode) in
/-- A connection carries the script: of the requests sent, `n` are served and the others under way, and the answers are of those
served. -/
def Carries (k : Link) : Prop :=
  ∃ n ≤ k.sent, k.sent ≤ (script ids rand mode).length ∧ k.requests = ((script ids rand mode).take k.sent).drop n ∧
    List.Sublist (k.delivered ++ k.answers) ((answers ids rand mode).take n)

theorem carries_fresh : Carries ids rand mode Link.fresh :=
  ⟨0, Nat.le_refl 0, Nat.zero_le _, rfl, List.Sublist.refl _⟩

/-- One more request is sent. -/
theorem Carries.send {k : Link} {request : Command × Message} (h : Carries ids rand mode k)
    (hr : (script ids rand mode)[k.sent]? = some request) :
    Carries ids rand mode { k with sent := k.sent + 1, requests := k.requests ++ [request] } := by
  obtain ⟨n, hn, hle, hreq, hsub⟩ := h
  obtain ⟨hlt, -⟩ := List.getElem?_eq_some_iff.1 hr
  refine ⟨n, Nat.le_succ_of_le hn, hlt, ?_, hsub⟩
  have htake : ((script ids rand mode).take k.sent).length = k.sent := List.length_take_of_le hle
  rw [hreq, List.take_add_one, hr, Option.toList_some, List.drop_append_of_le_length (by rw [htake]; exact hn)]

/-- The next request is served. -/
theorem Carries.serve {k : Link} {command : Command} {m : Message} {rest : List (Command × Message)}
    (h : Carries ids rand mode k) (hr : k.requests = (command, m) :: rest) :
    ∃ n : Nat, (script ids rand mode)[n]? = some (command, m) ∧
      ∀ more, (∀ x ∈ more, (answers ids rand mode)[n]? = some x) → more.length ≤ 1 →
        Carries ids rand mode { k with requests := rest, answers := k.answers ++ more } := by
  obtain ⟨n, hn, hle, hreq, hsub⟩ := h
  have hget : ((script ids rand mode).take k.sent)[n]? = some (command, m) := by
    rw [← Nat.add_zero n, ← List.getElem?_drop, ← hreq, hr]
    rfl
  have hrest : rest = ((script ids rand mode).take k.sent).drop (n + 1) := by
    rw [← List.tail_drop, ← hreq, hr]
    rfl
  rw [List.getElem?_take, Option.ite_none_right_eq_some] at hget
  obtain ⟨hlt, hget⟩ := hget
  refine ⟨n, hget, ?_⟩
  intro more hmore hone
  refine ⟨n + 1, hlt, hle, hrest, ?_⟩
  rw [← List.append_assoc, List.take_add_one]
  refine hsub.append ?_
  match more, hone with
  | [], _ => exact List.nil_sublist _
  | [x], _ =>
    rw [hmore x List.mem_cons_self]
    exact List.Sublist.refl _

/-- The next answer is delivered. -/
theorem Carries.deliver {k : Link} {x : Diameter.Message × Message} {rest : List (Diameter.Message × Message)}
    (h : Carries ids rand mode k) (hr : k.answers = x :: rest) :
    Carries ids rand mode { k with answers := rest, delivered := k.delivered ++ [x] } := by
  obtain ⟨n, hn, hle, hreq, hsub⟩ := h
  refine ⟨n, hn, hle, hreq, ?_⟩
  rw [hr] at hsub
  rwa [List.append_assoc]

/-- What is under way is lost. -/
theorem Carries.break {k : Link} (h : Carries ids rand mode k) :
    Carries ids rand mode { k with requests := [], answers := [], broken := true } := by
  obtain ⟨n, hn, hle, hreq, hsub⟩ := h
  refine ⟨k.sent, Nat.le_refl _, hle, ?_, ?_⟩
  · rw [List.drop_eq_nil_of_le (List.length_take_le _ _)]
  · rw [List.append_nil]
    exact ((List.sublist_append_left _ _).trans hsub).trans (List.take_sublist_take_left hn)

/-- The client opens connections and forgets none. -/
theorem opened_le_of_step {client client' : Diameter.State} {a : Diameter.Act} (h : Diameter.step mode client a = some client') :
    client.opened ≤ client'.opened := by
  cases a with
  | connects =>
    simp only [Diameter.step, Option.ite_none_right_eq_some, Option.some.injEq] at h
    obtain ⟨-, rfl⟩ := h
    exact Nat.le_succ _
  | arrives c m =>
    simp only [Diameter.step, Option.ite_none_right_eq_some, Option.some.injEq] at h
    obtain ⟨-, rfl⟩ := h
    cases m <;> simp only [Diameter.handle, Diameter.handleACA, Diameter.handleHMA] <;> split <;> exact Nat.le_refl _
  | connectFails =>
    simp only [Diameter.step, Option.ite_none_right_eq_some] at h
    obtain ⟨-, h⟩ := h
    split at h <;> cases h <;> exact Nat.le_refl _
  | _ =>
    simp only [Diameter.step] at h
    split at h <;> cases h <;> exact Nat.le_refl _

variable (ids rand mode) in
/-- The invariant of the pair. -/
structure Inv (s : State) : Prop where
  carries : ∀ c, Carries ids rand mode (s.links c)
  unopened : ∀ c, s.client.opened ≤ c → s.links c = Link.fresh
  server : s.serverPanicked = false

theorem inv_start : Inv ids rand mode (system ids rand render silent remoteAddr mode).init where
  carries _ := carries_fresh
  unopened _ _ := rfl
  server := rfl

/-- A connection with something under way has been opened. -/
theorem Inv.lt_opened {s : State} (hi : Inv ids rand mode s) {c : Nat}
    (h : (s.links c).requests ≠ [] ∨ (s.links c).answers ≠ []) : c < s.client.opened := by
  by_contra hge
  rw [hi.unopened c (Nat.not_lt.1 hge)] at h
  rcases h with h | h
  · exact h rfl
  · exact h rfl

/-- Changing one opened connection to one that carries the script keeps the invariant. -/
theorem Inv.setLink {s : State} (hi : Inv ids rand mode s) {c : Nat} {k : Link} (hc : c < s.client.opened)
    (hk : Carries ids rand mode k) {client : Diameter.State} (ho : s.client.opened ≤ client.opened) {panicked : Bool}
    (hp : panicked = false) :
    Inv ids rand mode { s.setLink c k with client := client, serverPanicked := panicked } where
  carries d := by
    by_cases hd : d = c
    · subst hd
      simpa [State.setLink] using hk
    · simpa [State.setLink, Function.update_of_ne hd] using hi.carries d
  unopened d hd := by
    have hne : d ≠ c := by
      rintro rfl
      exact absurd hc (Nat.not_lt.2 (Nat.le_trans ho hd))
    simpa [State.setLink, Function.update_of_ne hne] using hi.unopened d (Nat.le_trans ho hd)
  server := hp

theorem inv_step {s s' : State} {a : Act} (hi : Inv ids rand mode s)
    (h : step ids rand render silent remoteAddr mode s a = some s') : Inv ids rand mode s' := by
  cases moves_of_step h with
  | main _ hs =>
    exact ⟨hi.carries, fun c hc => hi.unopened c (Nat.le_trans (opened_le_of_step hs) hc), hi.server⟩
  | @sends c request client hc _ hr hs =>
    have ho : s.client.opened ≤ client.opened := by
      rcases afterSend_spec hs with ⟨-, hs⟩ | ⟨-, rfl, -⟩
      · exact opened_le_of_step hs
      · exact Nat.le_refl _
    exact hi.setLink hc ((hi.carries c).send hr) ho hi.server
  | @serves c unmarshal writeTo command m rest hr =>
    obtain ⟨n, hget, hserve⟩ := (hi.carries c).serve hr
    obtain ⟨hresult, answer, hanswer, hevents⟩ :=
      handle_script ids rand render silent hget (remoteAddr c) unmarshal writeTo
    refine hi.setLink (hi.lt_opened (Or.inl (by simp [hr]))) (hserve _ ?_ ?_) (Nat.le_refl _) ?_
    · rw [hevents]
      cases unmarshal <;> cases writeTo <;> simp [Except.toBool, hanswer]
    · rw [hevents]
      cases unmarshal <;> cases writeTo <;> simp [Except.toBool]
    · rw [hi.server, hresult]
      rfl
  | @delivers c m a rest client hr hs =>
    exact hi.setLink (hi.lt_opened (Or.inr (by simp [hr]))) ((hi.carries c).deliver hr) (opened_le_of_step hs) hi.server
  | @breaks c hc => exact hi.setLink hc (hi.carries c).break (Nat.le_refl _) hi.server

/-- The invariant holds in every state of every run. -/
theorem inv_of_exec :
    ∀ acts s, (system ids rand render silent remoteAddr mode).exec acts = some s → Inv ids rand mode s :=
  (system ids rand render silent remoteAddr mode).invariant_state (Inv ids rand mode) inv_start
    fun _ _ _ hi h => inv_step hi h

/-! ## Counting the answers -/

/-- No step of the pair forgets a connection. -/
theorem Moves.opened_le {s s' : State} {a : Act} (h : Moves ids rand render silent remoteAddr mode s a s') :
    s.client.opened ≤ s'.client.opened := by
  cases h with
  | main _ hs => exact opened_le_of_step hs
  | sends _ _ _ hs =>
    rcases afterSend_spec hs with ⟨-, hs⟩ | ⟨-, rfl, -⟩
    · exact opened_le_of_step hs
    · exact Nat.le_refl _
  | serves _ => exact Nat.le_refl _
  | delivers _ hs => exact opened_le_of_step hs
  | breaks _ => exact Nat.le_refl _

/-- A sum over the connections, after a change of one of them that adds `d` to its part. -/
theorem sum_setLink (s : State) (g : Link → Nat) {c n d : Nat} {k : Link} (hc : c < n) (hk : g k = g (s.links c) + d) :
    ∑ x ∈ Finset.range n, g ((s.setLink c k).links x) = ∑ x ∈ Finset.range n, g (s.links x) + d := by
  have hmem : c ∈ Finset.range n := Finset.mem_range.2 hc
  have hself : (s.setLink c k).links c = k := by simp [State.setLink]
  have hrest : ∑ x ∈ (Finset.range n).erase c, g ((s.setLink c k).links x) = ∑ x ∈ (Finset.range n).erase c, g (s.links x) := by
    refine Finset.sum_congr rfl fun x hx => congrArg g ?_
    simp [State.setLink, Function.update_of_ne (Finset.ne_of_mem_erase hx)]
  rw [← Finset.add_sum_erase _ _ hmem, hrest, hself, hk, ← Finset.add_sum_erase _ (fun x => g (s.links x)) hmem]
  omega

/-- What an action adds to the messages that arrive at the client. -/
theorem arrivals_label_snoc (m : Diameter.Message) (acts : List Act) (a : Act) :
    Diameter.arrivals m ((acts ++ [a]).filterMap (label mode)) = Diameter.arrivals m (acts.filterMap (label mode)) +
      if (label mode a).any (·.isArrival m) then 1 else 0 := by
  rw [List.filterMap_append]
  cases h : label mode a with
  | none => simp [h]
  | some b => simp [h, Diameter.arrivals_snoc]

/-- How many of the answers delivered on a connection are messages `m`. -/
def Link.arrived (m : Diameter.Message) (k : Link) : Nat := k.delivered.countP fun x => x.1 = m

/-- The messages that arrive at the client are the answers delivered on its connections. -/
theorem arrivals_eq (m : Diameter.Message) :
    ∀ acts s, (system ids rand render silent remoteAddr mode).exec acts = some s → ∀ n, s.client.opened ≤ n →
      Diameter.arrivals m (acts.filterMap (label mode)) = ∑ c ∈ Finset.range n, (s.links c).arrived m := by
  apply (system ids rand render silent remoteAddr mode).invariant
  · intro n _
    exact (Finset.sum_eq_zero fun _ _ => rfl).symm
  · intro acts s a s' hs ih ha n hn
    have hi := inv_of_exec acts s hs
    have hmove := moves_of_step ha
    have hlt : ∀ c, c < s.client.opened → c < n := fun c hc => Nat.lt_of_lt_of_le hc (Nat.le_trans hmove.opened_le hn)
    rw [arrivals_label_snoc, ih n (Nat.le_trans hmove.opened_le hn)]
    cases hmove with
    | @main a client hm hs' =>
      have hnot : a.isArrival m = false := by
        cases a with
        | arrives c m' => cases hm
        | _ => rfl
      simp [label, hnot]
    | @sends c request client hc _ hr hs' =>
      have hlabel : (label mode (.sends c)).any (·.isArrival m) = false := by
        by_cases hm : mode = .hello <;> simp [label, hm, Diameter.Act.isArrival]
      rw [hlabel]
      exact (sum_setLink s (Link.arrived m) (hlt c hc) rfl).symm
    | @serves c unmarshal writeTo command m' rest hr =>
      exact (sum_setLink s (Link.arrived m) (hlt c (hi.lt_opened (Or.inl (by simp [hr])))) rfl).symm
    | @delivers c m' a rest client hr hs' =>
      refine (sum_setLink s (Link.arrived m) (hlt c (hi.lt_opened (Or.inr (by simp [hr])))) ?_).symm
      simp [Link.arrived, List.countP_append, List.countP_singleton, label, Diameter.Act.isArrival]
    | @breaks c hc => exact (sum_setLink s (Link.arrived m) (hlt c hc) rfl).symm

/-- No connection is answered more than the script asks for. -/
theorem Carries.arrived_le {k : Link} (h : Carries ids rand mode k) (m : Diameter.Message) :
    k.arrived m ≤ (answers ids rand mode).countP fun x => x.1 = m := by
  obtain ⟨n, -, -, -, hsub⟩ := h
  exact (((List.sublist_append_left _ _).trans hsub).trans (List.take_sublist _ _)).countP_le

/-! ## The connections -/

/-- Where `main` stands once `opened` connections are open. -/
def Dialled (mode : Diameter.Mode) (opened : Nat) : Diameter.Pc → Prop
  | .connecting => opened < conns mode
  | .connected => mode = .hello ∧ opened = conns mode
  | .waiting _ | .returned => opened = conns mode
  | .fatal => opened ≤ conns mode

theorem Dialled.le {opened : Nat} {pc : Diameter.Pc} (h : Dialled mode opened pc) : opened ≤ conns mode := by
  cases pc with
  | connecting => exact Nat.le_of_lt h
  | connected => exact Nat.le_of_eq h.2
  | fatal => exact h
  | _ => exact Nat.le_of_eq h

/-- Each connection that the client opens is one of those it is to open. -/
theorem dialled_step {client client' : Diameter.State} {a : Diameter.Act} (hm : mode ≠ .persistent)
    (hd : Dialled mode client.opened client.pc) (h : Diameter.step mode client a = some client') :
    Dialled mode client'.opened client'.pc := by
  cases a with
  | connects =>
    simp only [Diameter.step, Option.ite_none_right_eq_some, Option.some.injEq] at h
    obtain ⟨hpc, rfl⟩ := h
    rw [hpc] at hd
    cases mode with
    | bench ncli msgs =>
      simp only [Diameter.afterConnect, Diameter.dialled]
      split
      · rename_i heq
        exact heq
      · rename_i hne
        exact Nat.lt_of_le_of_ne hd hne
    | hello => exact ⟨rfl, Nat.le_antisymm hd (Nat.succ_le_succ (Nat.zero_le _))⟩
    | persistent => exact absurd rfl hm
  | connectFails =>
    simp only [Diameter.step, Option.ite_none_right_eq_some, if_neg hm, Option.some.injEq] at h
    obtain ⟨-, rfl⟩ := h
    exact hd.le
  | sends =>
    simp only [Diameter.step, Option.ite_none_right_eq_some, Option.some.injEq] at h
    obtain ⟨⟨-, hpc⟩, rfl⟩ := h
    rw [hpc] at hd
    exact hd.2
  | sendFails =>
    simp only [Diameter.step] at h
    split at h <;> cases h <;> exact hd.le
  | disconnects =>
    simp only [Diameter.step, Option.ite_none_right_eq_some] at h
    exact absurd h.1.1 hm
  | receives =>
    simp only [Diameter.step] at h
    split at h
    · rename_i count v done hpc hr
      cases h
      rw [hpc] at hd
      cases mode with
      | bench ncli msgs =>
        simp only [Diameter.afterReceive]
        split <;> exact hd
      | hello => exact hd
      | persistent => exact absurd rfl hm
    · cases h
  | timesOut =>
    simp only [Diameter.step] at h
    split at h <;> cases h
    exact hd.le
  | arrives c m =>
    simp only [Diameter.step, Option.ite_none_right_eq_some, Option.some.injEq] at h
    obtain ⟨-, rfl⟩ := h
    cases m <;> simp only [Diameter.handle, Diameter.handleACA, Diameter.handleHMA] <;> split <;> exact hd

/-- With `-bench` and `-hello`, `main` goes past `connect` with all its connections open. -/
theorem dialled_of_exec (hm : mode ≠ .persistent) :
    ∀ acts client, (Diameter.system mode).exec acts = some client → Dialled mode client.opened client.pc := by
  apply (Diameter.system mode).invariant_state
  · cases mode with
    | bench ncli msgs =>
      simp only [Diameter.system, Diameter.start, Diameter.dialled]
      split
      · rename_i heq
        exact heq
      · rename_i hne
        exact Nat.pos_of_ne_zero (Ne.symm hne)
    | hello => exact Nat.one_pos
    | persistent => exact absurd rfl hm
  · intro client a client' hd h
    exact dialled_step hm hd h

/-! ## No handler is harmed -/

/-- A message arrives at the client no more often than its connections are to be answered with it. -/
theorem arrivals_le {acts : List Act} {s : State} (h : (system ids rand render silent remoteAddr mode).exec acts = some s)
    (m : Diameter.Message) :
    Diameter.arrivals m (acts.filterMap (label mode)) ≤
      s.client.opened * (answers ids rand mode).countP fun x => x.1 = m := by
  rw [arrivals_eq m acts s h _ (Nat.le_refl _)]
  have hle := Finset.sum_le_card_nsmul (Finset.range s.client.opened) (fun c => (s.links c).arrived m) _
    fun c _ => ((inv_of_exec acts s h).carries c).arrived_le m
  rwa [Finset.card_range, nsmul_eq_mul, Nat.cast_id] at hle

/-- With `-bench` no HMA arrives, with `-hello` no ACA and one HMA at most, and else nothing. -/
theorem arrivals_mode {acts : List Act} {s : State} (h : (system ids rand render silent remoteAddr mode).exec acts = some s) :
    match mode with
    | .bench _ _ => Diameter.arrivals .hma (acts.filterMap (label mode)) = 0
    | .hello => Diameter.arrivals .aca (acts.filterMap (label mode)) = 0 ∧
        Diameter.arrivals .hma (acts.filterMap (label mode)) ≤ 1
    | .persistent => ∀ m, Diameter.arrivals m (acts.filterMap (label mode)) = 0 := by
  have hle := arrivals_le h
  cases mode with
  | bench ncli msgs =>
    have hnone : (answers ids rand (.bench ncli msgs)).countP (fun x => x.1 = .hma) = 0 := by
      simp [answers, List.countP_eq_zero]
    have hhma := hle .hma
    rw [hnone, Nat.mul_zero] at hhma
    exact Nat.le_zero.1 hhma
  | hello =>
    have hdialled := dialled_of_exec (by nofun) _ _ ((toClient ids rand render silent remoteAddr .hello).exec acts s h)
    have hopened : s.client.opened ≤ 1 := hdialled.le
    have haca := hle .aca
    have hhma := hle .hma
    have hnone : (answers ids rand .hello).countP (fun x => x.1 = .aca) = 0 := by simp [answers]
    have hone : (answers ids rand .hello).countP (fun x => x.1 = .hma) = 1 := by simp [answers]
    rw [hnone, Nat.mul_zero] at haca
    rw [hone, Nat.mul_one] at hhma
    exact ⟨Nat.le_zero.1 haca, Nat.le_trans hhma hopened⟩
  | persistent => exact fun m => Nat.le_zero.1 (hle m)

/-- What the pair does to the client harms no handler of it. -/
theorem harmless_step {acts : List Act} {s s' : State} {a : Act} {b : Diameter.Act}
    (hs : (system ids rand render silent remoteAddr mode).exec acts = some s)
    (ha : (system ids rand render silent remoteAddr mode).step s a = some s') (hb : label mode a = some b) :
    Diameter.Harmless mode (acts.filterMap (label mode)) b := by
  have hafter := arrivals_mode (((system ids rand render silent remoteAddr mode).exec_snoc_iff).2 ⟨s, hs, ha⟩)
  have hcount : ∀ m, Diameter.arrivals m ((acts ++ [a]).filterMap (label mode)) =
      Diameter.arrivals m (acts.filterMap (label mode)) + if (label mode a).any (·.isArrival m) then 1 else 0 :=
    fun m => arrivals_label_snoc m acts a
  simp only [hb, Option.any_some] at hcount
  cases b with
  | arrives c m =>
    cases mode with
    | bench ncli msgs =>
      have hhma := hcount .hma
      rw [hafter] at hhma
      cases m with
      | hma => simp [Diameter.Act.isArrival] at hhma
      | aca => exact ⟨by omega, by simp⟩
    | hello =>
      have haca := hcount .aca
      have hhma := hcount .hma
      rw [hafter.1] at haca
      cases m with
      | hma =>
        have hone := hafter.2
        simp only [Diameter.Act.isArrival, decide_true, if_true] at hhma
        exact ⟨by omega, by omega⟩
      | aca => simp [Diameter.Act.isArrival] at haca
    | persistent =>
      have hm := hcount m
      rw [hafter m] at hm
      simp [Diameter.Act.isArrival] at hm
  | _ => trivial

/-- No handler of the client is harmed in any run. -/
theorem unharmed_of_exec :
    ∀ acts s, (system ids rand render silent remoteAddr mode).exec acts = some s → s.client.Unharmed mode := by
  apply (system ids rand render silent remoteAddr mode).invariant
  · exact ⟨rfl, fun _ => rfl⟩
  · intro acts s a s' hs hu ha
    have hclient := (toClient ids rand render silent remoteAddr mode).exec acts s hs
    have hstep := (toClient ids rand render silent remoteAddr mode).step s a s' ha
    cases hb : label mode a with
    | none =>
      simp only [toClient, hb] at hstep
      rwa [hstep]
    | some b =>
      simp only [toClient, hb] at hstep
      exact (Diameter.unharmed_step (Diameter.inv_of_exec mode _ _ hclient) hstep).2 ⟨hu, harmless_step hs ha hb⟩

/-! ## The end of a run -/

/-- A connection whose answers are all delivered is done. -/
theorem Carries.complete {k : Link} (h : Carries ids rand mode k)
    (hall : (script ids rand mode).length ≤ k.delivered.length) :
    k.delivered = answers ids rand mode ∧ k.requests = [] ∧ k.answers = [] := by
  obtain ⟨n, hn, hle, hreq, hsub⟩ := h
  have hlen := hsub.length_le
  rw [List.length_append, List.length_take, length_answers] at hlen
  have hall' : (script ids rand mode).length ≤ n := by omega
  have hnil : k.answers = [] := List.eq_nil_of_length_eq_zero (by omega)
  rw [hnil, List.append_nil] at hsub
  refine ⟨?_, ?_, hnil⟩
  · exact (hsub.trans (List.take_sublist _ _)).eq_of_length_le (by rwa [length_answers])
  · rw [hreq, List.drop_eq_nil_of_le]
    rw [List.length_take]
    omega

/-- No more answers are delivered on a connection, or under way on it, than requests were sent. -/
theorem Carries.length_le {k : Link} (h : Carries ids rand mode k) :
    k.sent ≤ (script ids rand mode).length ∧ k.delivered.length ≤ (script ids rand mode).length := by
  obtain ⟨n, hn, hle, -, hsub⟩ := h
  have hlen := hsub.length_le
  rw [List.length_append, List.length_take] at hlen
  exact ⟨hle, by omega⟩

/-- Where all answers are delivered, each connection is done. -/
theorem complete_of_sum {s : State} (hi : Inv ids rand mode s)
    (hsum : conns mode * (script ids rand mode).length ≤ ∑ c ∈ Finset.range (conns mode), (s.links c).delivered.length)
    {c : Nat} (hc : c < conns mode) :
    (s.links c).delivered = answers ids rand mode ∧ (s.links c).requests = [] ∧ (s.links c).answers = [] := by
  have hle : ∀ x ∈ Finset.range (conns mode), (s.links x).delivered.length ≤ (script ids rand mode).length :=
    fun x _ => (hi.carries x).length_le.2
  have hconst : ∑ _x ∈ Finset.range (conns mode), (script ids rand mode).length =
      conns mode * (script ids rand mode).length := by simp
  have heq := (Finset.sum_eq_sum_iff_of_le hle).1 (Nat.le_antisymm (Finset.sum_le_sum hle) (hconst ▸ hsum))
  exact (hi.carries c).complete (Nat.le_of_eq (heq c (Finset.mem_range.2 hc)).symm)

variable (ids rand) in
/-- `main` makes as many receives as there are requests on all its connections. -/
theorem receives_eq (hm : mode.Countable) (hp : mode ≠ .persistent) :
    mode.receives = conns mode * (script ids rand mode).length := by
  cases mode with
  | bench ncli msgs => simpa [script, conns, Diameter.Mode.receives] using Diameter.benchmarkReceives_eq hm.1 hm.2
  | hello => rfl
  | persistent => exact absurd rfl hp

/-- When `main` has returned, as many answers have been delivered as it waits for. -/
theorem delivered_of_returned (hm : mode.Countable) {acts : List Act} {s : State}
    (h : (system ids rand render silent remoteAddr mode).exec acts = some s) (hpc : s.client.pc = .returned) :
    mode ≠ .persistent ∧ s.client.opened = conns mode ∧
      conns mode * (script ids rand mode).length ≤ ∑ c ∈ Finset.range (conns mode), (s.links c).delivered.length := by
  have hclient := (toClient ids rand render silent remoteAddr mode).exec acts s h
  have hi := Diameter.inv_of_exec mode _ _ hclient
  obtain ⟨hp, hr⟩ := (hpc ▸ hi.received : Diameter.Received mode _ .returned)
  have hopened : s.client.opened = conns mode := by
    have hd := dialled_of_exec hp _ _ hclient
    exact (hpc ▸ hd : Dialled mode s.client.opened .returned)
  refine ⟨hp, hopened, ?_⟩
  rw [receives_eq ids rand hm hp] at hr
  have hmode := arrivals_mode h
  -- every receive of `main` is the signal of an answer delivered
  have harrived : ∃ m, conns mode * (script ids rand mode).length ≤ Diameter.arrivals m (acts.filterMap (label mode)) := by
    cases mode with
    | bench ncli msgs =>
      have hopen := hi.opened ((Diameter.open_iff hi).2 hmode)
      refine ⟨.aca, ?_⟩
      rw [← hr, ← hopen.1]
      exact Nat.le_trans (Nat.le_add_right _ _) hi.signalled_le
    | hello =>
      refine ⟨.hma, ?_⟩
      by_contra hnone
      have hzero : Diameter.arrivals .hma (acts.filterMap (label .hello)) = 0 := Nat.lt_one_iff.1 (Nat.not_le.1 hnone)
      have hopen := hi.opened ((Diameter.open_iff hi).2 hzero)
      have haca := hmode.1
      have hone : Diameter.receives (acts.filterMap (label .hello)) = 1 := hr
      have hlen := hopen.2
      simp only [toClient] at hlen
      omega
    | persistent => exact absurd rfl hp
  obtain ⟨m, hle⟩ := harrived
  rw [arrivals_eq m acts s h _ (Nat.le_of_eq hopened)] at hle
  exact Nat.le_trans hle (Finset.sum_le_sum fun c _ => List.countP_le_length)

/-! ## When nothing fails -/

/-- A connection that has lost nothing: what was sent over it is under way to the server, or answered. -/
structure Lossless (k : Link) : Prop where
  up : k.broken = false
  sent : k.requests.length + (k.answers.length + k.delivered.length) = k.sent

/-- How many sends, requests served and answers delivered a connection has seen. -/
def Link.progress (k : Link) : Nat := k.sent + (k.answers.length + k.delivered.length) + k.delivered.length

variable (ids rand mode) in
/-- The invariant of the runs in which nothing fails. With `-hello`, `main` waits once it has sent its request, and not before. -/
structure Smooth (acts : List Act) (s : State) : Prop where
  lossless : ∀ c, Lossless (s.links c)
  alive : s.client.pc ≠ .fatal
  hello : mode = .hello → (s.client.pc = .connected → ∀ c, (s.links c).sent = 0) ∧
    ∀ count, s.client.pc = .waiting count → (s.links 0).sent = (script ids rand mode).length
  length : acts.length =
    s.client.opened + ∑ c ∈ Finset.range (conns mode), (s.links c).progress + Diameter.receives (acts.filterMap (label mode))

/-- An arrival leaves `main` where it stands. -/
theorem arrives_main {client client' : Diameter.State} {c : Nat} {m : Diameter.Message}
    (h : Diameter.step mode client (.arrives c m) = some client') : client'.pc = client.pc ∧ client'.opened = client.opened := by
  simp only [Diameter.step, Option.ite_none_right_eq_some, Option.some.injEq] at h
  obtain ⟨-, rfl⟩ := h
  cases m <;> simp only [Diameter.handle, Diameter.handleACA, Diameter.handleHMA] <;> split <;> exact ⟨rfl, rfl⟩

theorem receives_label_snoc (acts : List Act) (a : Act) :
    Diameter.receives ((acts ++ [a]).filterMap (label mode)) = Diameter.receives (acts.filterMap (label mode)) +
      if label mode a = some .receives then 1 else 0 := by
  rw [List.filterMap_append]
  cases h : label mode a with
  | none => simp [h]
  | some b => simp [h, Diameter.receives_snoc]

/-- Changing one connection to a lossless one leaves all of them lossless. -/
theorem lossless_setLink {s : State} (hl : ∀ c, Lossless (s.links c)) {c : Nat} {k : Link} (hk : Lossless k) (d : Nat) :
    Lossless ((s.setLink c k).links d) := by
  by_cases hd : d = c
  · subst hd
    simpa [State.setLink] using hk
  · simpa [State.setLink, Function.update_of_ne hd] using hl d

/-- `main` opens its next connection. -/
theorem Smooth.connects {acts : List Act} {s : State} {client : Diameter.State} (hs : Smooth ids rand mode acts s)
    (hp : mode ≠ .persistent) (hfresh : mode = .hello → ∀ c, s.links c = Link.fresh)
    (h : Diameter.step mode s.client .connects = some client) :
    Smooth ids rand mode (acts ++ [.main .connects]) { s with client := client } := by
  simp only [Diameter.step, Option.ite_none_right_eq_some, Option.some.injEq] at h
  obtain ⟨-, rfl⟩ := h
  refine ⟨hs.lossless, ?_, ?_, ?_⟩
  · cases mode with
    | bench ncli msgs =>
      simp only [Diameter.afterConnect, Diameter.dialled]
      split <;> simp
    | hello => simp [Diameter.afterConnect]
    | persistent => exact absurd rfl hp
  · rintro rfl
    refine ⟨fun _ c => ?_, by simp [Diameter.afterConnect]⟩
    rw [hfresh rfl c]
    rfl
  · rw [List.length_append, receives_label_snoc, hs.length]
    simp only [label, reduceCtorEq, Option.some.injEq, if_false, List.length_singleton]
    omega

/-- `main` receives the signal of an answer. -/
theorem Smooth.receives {acts : List Act} {s : State} {client : Diameter.State} (hs : Smooth ids rand mode acts s)
    (hp : mode ≠ .persistent) (h : Diameter.step mode s.client .receives = some client) :
    Smooth ids rand mode (acts ++ [.main .receives]) { s with client := client } := by
  simp only [Diameter.step] at h
  split at h
  · rename_i count v done hpc hr
    cases h
    refine ⟨hs.lossless, ?_, ?_, ?_⟩
    · cases mode with
      | bench ncli msgs =>
        simp only [Diameter.afterReceive]
        split <;> simp
      | hello => simp [Diameter.afterReceive]
      | persistent => exact absurd rfl hp
    · rintro rfl
      exact ⟨by simp [Diameter.afterReceive], by simp [Diameter.afterReceive]⟩
    · rw [List.length_append, receives_label_snoc, hs.length]
      simp only [label, if_true, List.length_singleton]
      omega
  · cases h

/-- A connection takes part in one more action, which leaves `main` where it stands. -/
theorem Smooth.setLink {acts : List Act} {s : State} {a : Act} {c : Nat} {k : Link} {client : Diameter.State} {panicked : Bool}
    (hs : Smooth ids rand mode acts s) (hc : c < conns mode) (hk : Lossless k) (hsent : k.sent = (s.links c).sent)
    (hprogress : k.progress = (s.links c).progress + 1) (ha : label mode a ≠ some .receives)
    (hmain : client.pc = s.client.pc ∧ client.opened = s.client.opened) :
    Smooth ids rand mode (acts ++ [a]) { s.setLink c k with client := client, serverPanicked := panicked } := by
  have hsame : ∀ d, ((s.setLink c k).links d).sent = (s.links d).sent := by
    intro d
    by_cases hd : d = c
    · subst hd
      simpa [State.setLink] using hsent
    · simp [State.setLink, Function.update_of_ne hd]
  refine ⟨lossless_setLink hs.lossless hk, ?_, ?_, ?_⟩
  · exact hmain.1 ▸ hs.alive
  · intro hm
    obtain ⟨h0, h1⟩ := hs.hello hm
    dsimp only
    rw [hmain.1]
    exact ⟨fun hpc d => (hsame d).trans (h0 hpc d), fun count hpc => (hsame 0).trans (h1 count hpc)⟩
  · dsimp only
    rw [List.length_append, receives_label_snoc, if_neg ha, hs.length, sum_setLink s Link.progress hc hprogress, hmain.2,
      List.length_singleton]
    omega

/-- A request is sent. -/
theorem Smooth.sends {acts : List Act} {s : State} {c : Nat} {request : Command × Message} {client : Diameter.State}
    (hs : Smooth ids rand mode acts s) (hd : Dialled mode s.client.opened s.client.pc) (hc : c < s.client.opened)
    (hr : (script ids rand mode)[(s.links c).sent]? = some request) (h : afterSend mode s.client = some client) :
    Smooth ids rand mode (acts ++ [.sends c]) { s.setLink c { s.links c with
      sent := (s.links c).sent + 1, requests := (s.links c).requests ++ [request] } with client := client } := by
  have hlossless : Lossless { s.links c with
      sent := (s.links c).sent + 1, requests := (s.links c).requests ++ [request] } := by
    have hsent := (hs.lossless c).sent
    refine ⟨(hs.lossless c).up, ?_⟩
    simp only [List.length_append, List.length_singleton]
    omega
  have hlabel : label mode (.sends c) ≠ some .receives := by
    by_cases hm : mode = .hello <;> simp [label, hm]
  have hmain : client.opened = s.client.opened ∧ client.pc ≠ .fatal ∧ client.pc ≠ .connected ∧
      (mode = .hello → c = 0 ∧ (s.links c).sent = 0) := by
    rcases afterSend_spec h with ⟨rfl, hstep⟩ | ⟨hm, rfl, count, hpc⟩
    · simp only [Diameter.step, Option.ite_none_right_eq_some, Option.some.injEq] at hstep
      obtain ⟨⟨-, hpc⟩, rfl⟩ := hstep
      have hone : s.client.opened ≤ 1 := hd.le
      exact ⟨rfl, by simp, by simp, fun _ => ⟨by omega, (hs.hello rfl).1 hpc c⟩⟩
    · rw [hpc]
      exact ⟨rfl, by simp, by simp, fun hello => absurd hello hm⟩
  obtain ⟨hopened, halive, hnot, hhello⟩ := hmain
  refine ⟨lossless_setLink hs.lossless hlossless, halive, ?_, ?_⟩
  · intro hm
    refine ⟨fun hpc => absurd hpc hnot, fun _ _ => ?_⟩
    obtain ⟨rfl, hzero⟩ := hhello hm
    subst hm
    simp [State.setLink, hzero, script]
  · dsimp only
    rw [List.length_append, receives_label_snoc, if_neg hlabel, hs.length,
      sum_setLink (d := 1) s Link.progress (Nat.lt_of_lt_of_le hc hd.le) (by simp only [Link.progress]; omega), hopened,
      List.length_singleton]
    omega

theorem smooth_start : Smooth ids rand mode [] (system ids rand render silent remoteAddr mode).init where
  lossless _ := ⟨rfl, rfl⟩
  alive := by
    cases mode with
    | bench ncli msgs =>
      simp only [system, Diameter.start, Diameter.dialled]
      split <;> simp
    | _ => simp [system, Diameter.start]
  hello := by
    rintro rfl
    exact ⟨by simp [system, Diameter.start], by simp [system, Diameter.start]⟩
  length := by
    have hsum : ∑ c ∈ Finset.range (conns mode), (Link.fresh).progress = 0 := Finset.sum_eq_zero fun _ _ => rfl
    change 0 = 0 + ∑ c ∈ Finset.range (conns mode), (Link.fresh).progress + 0
    rw [hsum]

/-- An action that does not fail keeps a run smooth. -/
theorem smooth_step {acts : List Act} {s s' : State} {a : Act} (hp : mode ≠ .persistent) (hi : Inv ids rand mode s)
    (hd : Dialled mode s.client.opened s.client.pc) (hs : Smooth ids rand mode acts s) (ha : a.Succeeds)
    (h : step ids rand render silent remoteAddr mode s a = some s') : Smooth ids rand mode (acts ++ [a]) s' := by
  cases moves_of_step h with
  | main _ hstep =>
    rcases ha with rfl | rfl
    · refine hs.connects hp ?_ hstep
      rintro rfl c
      simp only [Diameter.step, Option.ite_none_right_eq_some] at hstep
      rw [hstep.1] at hd
      exact hi.unopened c (Nat.le_trans (Nat.le_of_lt_succ hd) (Nat.zero_le c))
    · exact hs.receives hp hstep
  | sends hc _ hr hstep => exact hs.sends hd hc hr hstep
  | @serves c unmarshal writeTo command m rest hr =>
    obtain ⟨rfl, rfl⟩ := ha
    obtain ⟨n, hget, -⟩ := (hi.carries c).serve hr
    obtain ⟨-, answer, -, hevents⟩ := handle_script ids rand render silent hget (remoteAddr c) (.ok ()) (.ok ())
    have hc : c < conns mode := Nat.lt_of_lt_of_le (hi.lt_opened (Or.inl (by simp [hr]))) hd.le
    have hsent := (hs.lossless c).sent
    rw [hr, List.length_cons] at hsent
    rw [hevents]
    refine hs.setLink hc ⟨(hs.lossless c).up, ?_⟩ rfl ?_ (by simp [label]) ⟨rfl, rfl⟩
    · simp [Except.toBool]
      omega
    · simp [Link.progress, Except.toBool]
      omega
  | @delivers c m a rest client hr hstep =>
    have hc : c < conns mode := Nat.lt_of_lt_of_le (hi.lt_opened (Or.inr (by simp [hr]))) hd.le
    have hsent := (hs.lossless c).sent
    rw [hr, List.length_cons] at hsent
    refine hs.setLink hc ⟨(hs.lossless c).up, ?_⟩ rfl ?_ (by simp [label]) (arrives_main hstep)
    · simp
      omega
    · simp [Link.progress, hr]
      omega
  | breaks _ => exact ha.elim

/-- The invariant holds in every run in which nothing fails. -/
theorem smooth_of_exec (hp : mode ≠ .persistent) :
    ∀ acts s, (system ids rand render silent remoteAddr mode).exec acts = some s → (∀ a ∈ acts, a.Succeeds) →
      Smooth ids rand mode acts s := by
  apply (system ids rand render silent remoteAddr mode).invariant
  · intro _
    exact smooth_start
  · intro acts s a s' hs ih ha hok
    have hd := dialled_of_exec hp _ _ ((toClient ids rand render silent remoteAddr mode).exec acts s hs)
    refine smooth_step hp (inv_of_exec acts s hs) hd (ih fun b hb => hok b (List.mem_append_left _ hb)) ?_ ha
    exact hok a (List.mem_append_right _ List.mem_cons_self)

/-- Once every connection is done, a waiting `main` has the signal of an answer to receive. -/
theorem recv_of_complete (hm : mode.Countable) (hp : mode ≠ .persistent) {acts : List Act} {s : State}
    (h : (system ids rand render silent remoteAddr mode).exec acts = some s) {count : Nat} (hpc : s.client.pc = .waiting count)
    (hall : ∀ c < conns mode, (s.links c).delivered = answers ids rand mode) : s.client.done.recv ≠ none := by
  have hclient := (toClient ids rand render silent remoteAddr mode).exec acts s h
  have hi := Diameter.inv_of_exec mode _ _ hclient
  have hle := (dialled_of_exec hp _ _ hclient).le
  refine Diameter.recv_ne_none hi hpc ?_
  -- how often a message has arrived
  have harrived : ∀ m, Diameter.arrivals m (acts.filterMap (label mode)) =
      conns mode * (answers ids rand mode).countP fun x => x.1 = m := by
    intro m
    rw [arrivals_eq m acts s h _ hle]
    calc ∑ c ∈ Finset.range (conns mode), (s.links c).arrived m
        = ∑ _c ∈ Finset.range (conns mode), (answers ids rand mode).countP fun x => x.1 = m :=
          Finset.sum_congr rfl fun c hc => by rw [Link.arrived, hall c (Finset.mem_range.1 hc)]
      _ = conns mode * (answers ids rand mode).countP fun x => x.1 = m := by simp
  cases mode with
  | bench ncli msgs =>
    refine Or.inl (Nat.le_of_eq ?_)
    rw [receives_eq ids rand hm hp]
    refine Eq.trans ?_ (harrived .aca).symm
    simp [script, answers, List.countP_map, Function.comp_def]
  | hello => exact Or.inr (Nat.lt_of_lt_of_eq Nat.one_pos (harrived .hma).symm)
  | persistent => exact absurd rfl hp

/-- A run in which nothing failed goes on until `main` returns. -/
theorem goes_on (hm : mode.Countable) (hp : mode ≠ .persistent) {acts : List Act} {s : State}
    (h : (system ids rand render silent remoteAddr mode).exec acts = some s) (hs : Smooth ids rand mode acts s)
    (hpc : s.client.pc ≠ .returned) :
    ∃ a, a.Succeeds ∧ (step ids rand render silent remoteAddr mode s a).isSome = true := by
  have hi := inv_of_exec acts s h
  have hclient := (toClient ids rand render silent remoteAddr mode).exec acts s h
  have hd : Dialled mode s.client.opened s.client.pc := dialled_of_exec hp _ _ hclient
  cases hat : s.client.pc with
  | returned => exact absurd hat hpc
  | fatal => exact absurd hat hs.alive
  | connecting => exact ⟨.main .connects, Or.inl rfl, by simp [step, isMain, Diameter.step, hat]⟩
  | connected =>
    rw [hat] at hd
    obtain ⟨rfl, hone⟩ := hd
    have hzero := (hs.hello rfl).1 hat 0
    have hopen : 0 < s.client.opened := Nat.lt_of_lt_of_eq Nat.one_pos hone.symm
    exact ⟨.sends 0, trivial, by simp [step, script, afterSend, Diameter.step, hat, hzero, hopen, (hs.lossless 0).up]⟩
  | waiting count =>
    rw [hat] at hd
    have hopened : s.client.opened = conns mode := hd
    by_cases hreq : ∃ c, (s.links c).requests ≠ []
    · obtain ⟨c, hc⟩ := hreq
      obtain ⟨⟨command, m⟩, rest, hr⟩ := List.exists_cons_of_ne_nil hc
      exact ⟨.serves c (.ok ()) (.ok ()), ⟨rfl, rfl⟩, by simp [step, serve, hr]⟩
    by_cases hans : ∃ c, (s.links c).answers ≠ []
    · obtain ⟨c, hc⟩ := hans
      obtain ⟨⟨m, a⟩, rest, hr⟩ := List.exists_cons_of_ne_nil hc
      have hopen : c < s.client.opened := hi.lt_opened (Or.inr hc)
      exact ⟨.delivers c m, trivial, by simp [step, hr, Diameter.step, Diameter.State.running, hat, hopen]⟩
    push Not at hreq hans
    by_cases hsent : ∃ c < conns mode, (s.links c).sent < (script ids rand mode).length
    · obtain ⟨c, hc, hlt⟩ := hsent
      refine ⟨.sends c, trivial, ?_⟩
      have hopen : c < s.client.opened := hopened ▸ hc
      cases mode with
      | bench ncli msgs =>
        simp [step, hopen, (hs.lossless c).up, List.getElem?_eq_getElem hlt, afterSend, hat]
      | hello =>
        have hc0 : c = 0 := Nat.lt_one_iff.1 hc
        subst hc0
        exact absurd ((hs.hello rfl).2 count hat) (Nat.ne_of_lt hlt)
      | persistent => exact absurd rfl hp
    · -- everything is sent, and nothing is under way
      have hall : ∀ c < conns mode, (s.links c).delivered = answers ids rand mode := by
        intro c hc
        refine ((hi.carries c).complete ?_).1
        have hlen := (hs.lossless c).sent
        rw [hreq c, hans c, List.length_nil, List.length_nil, Nat.zero_add, Nat.zero_add] at hlen
        rw [hlen]
        exact Nat.not_lt.1 fun hlt => hsent ⟨c, hc, hlt⟩
      have hrecv := recv_of_complete hm hp h hat hall
      obtain ⟨client, hstep, -⟩ : ∃ client, Diameter.step mode s.client .receives = some client ∧ _ :=
        Diameter.step_receives hat hrecv
      exact ⟨.main .receives, Or.inr rfl, by simp [step, isMain, hstep]⟩

/-- How far a connection can get. -/
theorem progress_le {k : Link} (h : Carries ids rand mode k) (hl : Lossless k) :
    k.progress ≤ 3 * (script ids rand mode).length := by
  have hle := h.length_le
  have hsent := hl.sent
  simp only [Link.progress]
  omega

variable (ids rand) in
/-- How far `main` can get. -/
theorem receives_le (hm : mode.Countable) (hp : mode ≠ .persistent) {acts : List Diameter.Act} {client : Diameter.State}
    (h : Diameter.Inv mode acts client) (halive : client.pc ≠ .fatal) :
    Diameter.receives acts ≤ conns mode * (script ids rand mode).length ∧
      (Diameter.receives acts = conns mode * (script ids rand mode).length → client.pc = .returned) := by
  have hr := h.received
  have hpos : 0 < mode.receives := Diameter.Mode.receives_pos hp
  rw [← receives_eq ids rand hm hp]
  cases hpc : client.pc with
  | fatal => exact absurd hpc halive
  | returned =>
    rw [hpc] at hr
    exact ⟨Nat.le_of_eq hr.2, fun _ => rfl⟩
  | waiting count =>
    rw [hpc] at hr
    exact ⟨Nat.le_of_lt hr.2.2, fun he => absurd he (Nat.ne_of_lt hr.2.2)⟩
  | _ =>
    rw [hpc] at hr
    have hzero : Diameter.receives acts = 0 := hr
    exact ⟨hzero ▸ Nat.zero_le _, fun he => absurd (hzero.symm.trans he) (Nat.ne_of_lt hpos)⟩

end

end SockShop.DiameterPair
