import Mathlib.Data.List.Nodup
import SockShop.OutboundTls

/-!
# What an iteration of the outbound TLS client does

The pause is the last thing an iteration does, so it is reached exactly when nothing before it ends the iteration
(`sleeps_iteration_iff`); and an exchange that goes through has closed the body it obtained (`released_exchange`,
`released_lastExchange`), so an iteration that pauses leaves no body open.

For an iteration that is left early, each exchange is one of two traces (`exchange_of_goesOn`, `exchange_of_not_goesOn`), from which
what the iteration sends (`sends_iteration`) and what it leaves open (`unreleased_iteration`) are read off.
-/

namespace SockShop.OutboundTls

open Traced

variable {α β : Type}

/-! ## The pause -/

/-- A piece of an iteration makes the pause. -/
def Sleeps (m : Iteration α) : Prop := Emits (· = .sleep 3) m

/-- An event that is no pause, then the rest. -/
theorem sleeps_emit_bind {e : Event} (h : e ≠ .sleep 3) (f : Unit → Iteration β) : Sleeps (emit e >>= f) ↔ Sleeps (f ()) := by
  rw [Sleeps, emits_emit_bind]
  exact or_iff_right h

/-- After the test of an error the rest is done only if there is none. -/
theorem sleeps_orContinue_bind (r : Except String α) (f : α → Iteration β) :
    Sleeps (orContinue r >>= f) ↔ ∃ a, r = .ok a ∧ Sleeps (f a) := by
  cases r with
  | ok a => simp [orContinue]
  | error err => simp [orContinue, Sleeps]

/-- After a request is sent the rest is done only if it is answered. -/
theorem sleeps_send_bind (body : Body) (request : Request) (o : Exchange) (f : String → Iteration β) :
    Sleeps (send body request o >>= f) ↔ o.newRequest.toBool ∧ ∃ res, o.response = .ok res ∧ Sleeps (f res) := by
  simp only [send, bind_assoc, pure_bind, sleeps_orContinue_bind, sleeps_emit_bind, ne_eq, reduceCtorEq, not_false_eq_true,
    exists_and_right, exists_eq_ok_iff]

/-- After each of the first three requests the rest is done only if it is answered and the body of the response is read. -/
theorem sleeps_exchange_bind (body : Body) (request : Request) (o : Exchange) (f : Unit → Iteration β) :
    Sleeps (exchange body request o >>= f) ↔ (o.Answered ∧ o.readAll.toBool) ∧ Sleeps (f ()) := by
  simp only [exchange, bind_assoc, sleeps_send_bind, sleeps_orContinue_bind, sleeps_emit_bind, ne_eq, reduceCtorEq,
    not_false_eq_true, exists_and_right, exists_eq_ok_iff, Exchange.Answered, and_assoc]

/-- After the last request it is done if that is answered. -/
theorem sleeps_lastExchange_bind (body : Body) (request : Request) (o : Exchange) (f : Unit → Iteration β) :
    Sleeps (lastExchange body request o >>= f) ↔ o.Answered ∧ Sleeps (f ()) := by
  cases h : o.readAll <;>
    simp only [lastExchange, h, bind_assoc, sleeps_send_bind, sleeps_emit_bind, ne_eq, reduceCtorEq, not_false_eq_true,
      exists_and_right, exists_eq_ok_iff, Exchange.Answered, and_assoc]

/-- An iteration pauses exactly when nothing ends it early. -/
theorem sleeps_iteration_iff (j : Nat) (o : Outcomes) : Sleeps (iteration j o) ↔ o.Complete := by
  have hsleep : Sleeps (emit (.sleep 3) : Iteration Unit) := (emits_emit _ _).2 rfl
  simp only [iteration, sleeps_exchange_bind, sleeps_lastExchange_bind, Outcomes.Complete, List.forall_mem_cons,
    List.not_mem_nil, false_imp_iff, implies_true, and_true, and_assoc, hsleep]

/-! ## The bodies -/

/-- A request that is answered, up to its response. -/
theorem send_eq (body : Body) (request : Request) {o : Exchange} (h : o.Answered) :
    ∃ res, send body request o = ⟨[.sent request, .opened body], .ok res⟩ := by
  obtain ⟨hnew, hresponse⟩ := h
  obtain ⟨u, hnew⟩ := exists_eq_ok_iff.2 hnew
  obtain ⟨res, hresponse⟩ := exists_eq_ok_iff.2 hresponse
  refine ⟨res, ?_⟩
  rw [send, hnew, hresponse]
  rfl

/-- A body that is obtained and closed, with nothing obtained in between. -/
theorem released_sent (body : Body) (request : Request) {between : List Event} (h : ∀ e ∈ between, e.obtains = none) :
    Released Event.obtains Event.closes (.sent request :: .opened body :: (between ++ [.closed body])) := by
  rw [released_cons_of_none rfl]
  constructor
  · intro k hk
    exact ⟨.closed body, List.mem_append_right _ List.mem_cons_self, hk⟩
  · apply (released_of_forall_none h).append
    exact released_of_forall_none (by simp [Event.obtains])

/-- An exchange that goes through closes its body. -/
theorem released_exchange (body : Body) (request : Request) {o : Exchange} (h : o.Answered) (hread : o.readAll.toBool = true) :
    Released Event.obtains Event.closes (exchange body request o).events := by
  obtain ⟨res, hsend⟩ := send_eq body request h
  obtain ⟨u, hread⟩ := exists_eq_ok_iff.2 hread
  have hevents : (exchange body request o).events = .sent request :: .opened body :: ([.println ("res: " ++ res)] ++ [.closed body]) := by
    rw [exchange, hsend, hread]
    rfl
  rw [hevents]
  exact released_sent body request (by simp [Event.obtains])

/-- So does the last exchange, whether its body is read or not. -/
theorem released_lastExchange (body : Body) (request : Request) {o : Exchange} (h : o.Answered) :
    Released Event.obtains Event.closes (lastExchange body request o).events := by
  obtain ⟨res, hsend⟩ := send_eq body request h
  cases hread : o.readAll with
  | ok u =>
    have hevents : (lastExchange body request o).events =
        .sent request :: .opened body :: ([.println ("res: " ++ res)] ++ [.closed body]) := by
      rw [lastExchange, hsend, hread]
      rfl
    rw [hevents]
    exact released_sent body request (by simp [Event.obtains])
  | error err =>
    have hevents : (lastExchange body request o).events =
        .sent request :: .opened body :: ([.println err, .println ("res: " ++ res)] ++ [.closed body]) := by
      rw [lastExchange, hsend, hread]
      rfl
    rw [hevents]
    exact released_sent body request (by simp [Event.obtains])

/-- An iteration that is not left early closes the bodies it obtains. -/
theorem released_iteration (j : Nat) {o : Outcomes} (h : o.Complete) :
    Released Event.obtains Event.closes (iteration j o).events := by
  obtain ⟨hthree, hlast⟩ := h
  simp only [List.forall_mem_cons, List.not_mem_nil, false_imp_iff, implies_true, and_true] at hthree
  obtain ⟨⟨hnotFound, hreadNotFound⟩, ⟨hcreate, hreadCreate⟩, ⟨husers, hreadUsers⟩⟩ := hthree
  refine (released_exchange _ _ hnotFound hreadNotFound).bind fun _ _ => ?_
  refine (released_exchange _ _ hcreate hreadCreate).bind fun _ _ => ?_
  refine (released_exchange _ _ husers hreadUsers).bind fun _ _ => ?_
  refine (released_lastExchange _ _ hlast).bind fun _ _ => ?_
  exact released_of_forall_none (by simp [Event.obtains])

/-! ## A run -/

/-- The iterations of a run pause exactly when none is left early. -/
theorem sleep_mem_loop_iff (j : Nat) (outs : List Outcomes) :
    (∀ events ∈ loop j outs, Event.sleep 3 ∈ events) ↔ ∀ o ∈ outs, o.Complete := by
  induction outs generalizing j with
  | nil => simp [loop]
  | cons o outs ih =>
    rw [loop, List.forall_mem_cons, List.forall_mem_cons, ih, ← sleeps_iteration_iff (j + 1) o]
    simp [Sleeps, Emits]

/-- A run of iterations none of which is left early leaves no body open. -/
theorem released_loop (j : Nat) {outs : List Outcomes} (h : ∀ o ∈ outs, o.Complete) :
    Released Event.obtains Event.closes (loop j outs).flatten := by
  induction outs generalizing j with
  | nil => trivial
  | cons o outs ih =>
    obtain ⟨ho, houts⟩ := List.forall_mem_cons.1 h
    rw [loop, List.flatten_cons]
    exact (released_iteration (j + 1) ho).append (ih (j + 1) houts)

/-! ## What an exchange does -/

/-- What an exchange that does not go on does before it prints the error. -/
def Exchange.tried (body : Body) (request : Request) (o : Exchange) : List Event :=
  if o.newRequest.toBool then .sent request :: (if o.response.toBool then [.opened body] else []) else []

theorem exchange_of_goesOn (body : Body) (request : Request) {o : Exchange} (h : o.goesOn = true) :
    ∃ res, exchange body request o = ⟨[.sent request, .opened body, .println ("res: " ++ res), .closed body], .ok ()⟩ := by
  rw [Exchange.goesOn, Bool.and_eq_true, Bool.and_eq_true] at h
  obtain ⟨res, hsend⟩ := send_eq body request h.1
  obtain ⟨u, hread⟩ := exists_eq_ok_iff.2 h.2
  refine ⟨res, ?_⟩
  rw [exchange, hsend, hread]
  rfl

theorem exchange_of_not_goesOn (body : Body) (request : Request) {o : Exchange} (h : o.goesOn = false) :
    ∃ line, exchange body request o = ⟨o.tried body request ++ [.println line], .error ()⟩ := by
  obtain ⟨newRequest, response, readAll⟩ := o
  cases newRequest with
  | error err => exact ⟨err, rfl⟩
  | ok u =>
    cases response with
    | error err => exact ⟨err, rfl⟩
    | ok res =>
      cases readAll with
      | error err => exact ⟨err, rfl⟩
      | ok u => cases h

/-- The last exchange does not end with the error of a body that is not read. -/
theorem lastExchange_of_answered (body : Body) (request : Request) {o : Exchange} (h : o.Answered) :
    ∃ lines : List String, lastExchange body request o =
      ⟨.sent request :: .opened body :: (lines.map Event.println ++ [.closed body]), .ok ()⟩ := by
  obtain ⟨res, hsend⟩ := send_eq body request h
  cases hread : o.readAll with
  | ok u =>
    refine ⟨["res: " ++ res], ?_⟩
    rw [lastExchange, hsend, hread]
    rfl
  | error err =>
    refine ⟨[err, "res: " ++ res], ?_⟩
    rw [lastExchange, hsend, hread]
    rfl

theorem lastExchange_of_not_answered (body : Body) (request : Request) {o : Exchange} (h : ¬o.Answered) :
    ∃ line, lastExchange body request o = ⟨o.tried body request ++ [.println line], .error ()⟩ := by
  obtain ⟨newRequest, response, readAll⟩ := o
  cases newRequest with
  | error err => exact ⟨err, rfl⟩
  | ok u =>
    cases response with
    | error err => exact ⟨err, rfl⟩
    | ok res => exact absurd ⟨rfl, rfl⟩ h

/-! ## What is sent -/

theorem sends_tried (body : Body) (request : Request) (o : Exchange) :
    (o.tried body request).filterMap Event.sends = if o.newRequest.toBool then [request] else [] := by
  unfold Exchange.tried
  split
  · split
    · rfl
    · rfl
  · rfl

/-- What is sent from an exchange on. -/
theorem sends_exchange_bind (body : Body) (request : Request) (o : Exchange) (f : Unit → Iteration β) :
    (exchange body request o >>= f).events.filterMap Event.sends =
      if o.goesOn then request :: (f ()).events.filterMap Event.sends else if o.newRequest.toBool then [request] else [] := by
  split
  · rename_i h
    obtain ⟨res, hexchange⟩ := exchange_of_goesOn body request h
    rw [hexchange, bind_of_ok rfl]
    rfl
  · rename_i h
    obtain ⟨line, hexchange⟩ := exchange_of_not_goesOn body request (eq_false_of_ne_true h)
    rw [hexchange, bind_of_error rfl, List.filterMap_append, sends_tried]
    exact List.append_nil _

theorem sends_lastExchange_bind (body : Body) (request : Request) (o : Exchange) (f : Unit → Iteration β)
    (hf : (f ()).events.filterMap Event.sends = []) :
    (lastExchange body request o >>= f).events.filterMap Event.sends = if o.newRequest.toBool then [request] else [] := by
  by_cases h : o.Answered
  · obtain ⟨lines, hlast⟩ := lastExchange_of_answered body request h
    have hlines : (lines.map Event.println).filterMap Event.sends = [] := by simp [Event.sends]
    have hsent : (Event.sent request).sends = some request := rfl
    rw [hlast, bind_of_ok rfl, if_pos h.1, List.cons_append, List.filterMap_cons_some hsent, List.cons_append,
      List.filterMap_cons_none rfl, List.filterMap_append, List.filterMap_append, hlines, hf]
    rfl
  · obtain ⟨line, hlast⟩ := lastExchange_of_not_answered body request h
    rw [hlast, bind_of_error rfl, List.filterMap_append, sends_tried]
    exact List.append_nil _

theorem sentCount_singleton (o : Exchange) : sentCount [o] = if o.newRequest.toBool then 1 else 0 := by
  cases h : o.newRequest.toBool <;> simp [sentCount, Exchange.goesOn, h]

/-- An iteration sends its requests in order, as many as it gets to. -/
theorem sends_iteration (j : Nat) (o : Outcomes) :
    (iteration j o).events.filterMap Event.sends = (requests j).take o.sentCount := by
  have hsleep : (emit (.sleep 3) : Iteration Unit).events.filterMap Event.sends = [] := rfl
  rw [iteration, sends_exchange_bind, sends_exchange_bind, sends_exchange_bind, sends_lastExchange_bind _ _ _ _ hsleep]
  rw [Outcomes.sentCount, sentCount, sentCount, sentCount, sentCount_singleton]
  split_ifs <;> rfl

/-! ## The requests -/

/-- Two numbers that are written alike are equal. -/
theorem eq_of_toString_eq {j j' : Nat} (h : toString j = toString j') : j = j' := by
  have hdigits : Nat.toDigits 10 j = Nat.toDigits 10 j' := by simpa using congrArg String.toList h
  rw [← Nat.ofDigitChars_toDigits (b := 10) (n := j) (by decide) (by decide), hdigits,
    Nat.ofDigitChars_toDigits (by decide) (by decide)]

/-- What tells the requests of an iteration apart: the method, and the first letter of the path that is not common to all. -/
def kind (r : Request) : String × Option Char := (r.method, r.url.toList[31]?)

theorem url_getElem? {lit : String} (h : 31 < lit.toList.length) (text : String) : (lit ++ text).toList[31]? = lit.toList[31]? := by
  rw [String.toList_append, List.getElem?_append_left h]

theorem kind_requests (j : Nat) :
    (requests j).map kind = [("GET", some 'n'), ("POST", some 'u'), ("GET", some 'u'), ("GET", some 'p')] := by
  simp only [requests, kind, notFoundRequest, createUserRequest, getUsersRequest, getPostsRequest, get, List.map_cons, List.map_nil]
  rw [url_getElem? (by decide), url_getElem? (by decide), url_getElem? (by decide)]
  rfl

/-- The requests of an iteration are different. -/
theorem nodup_requests (j : Nat) : (requests j).Nodup := by
  apply List.Nodup.of_map kind
  rw [kind_requests]
  decide

theorem eq_of_get_eq {lit : String} {j j' : Nat} (h : get (lit ++ toString j) = get (lit ++ toString j')) : j = j' := by
  have hurl : lit ++ toString j = lit ++ toString j' := congrArg Request.url h
  exact eq_of_toString_eq ((String.append_right_inj _).1 hurl)

theorem eq_of_createUserRequest_eq {j j' : Nat} (h : createUserRequest j = createUserRequest j') : j = j' := by
  have hpayload : payload j = payload j' := Option.some_inj.1 (congrArg Request.body h)
  unfold payload at hpayload
  simp only [String.append_left_inj, String.append_right_inj] at hpayload
  exact eq_of_toString_eq hpayload

/-- A request tells the iteration it is of. -/
theorem eq_of_mem_requests {j j' : Nat} {r : Request} (h : r ∈ requests j) (h' : r ∈ requests j') : j = j' := by
  obtain ⟨i, hi⟩ := List.mem_iff_getElem?.1 h
  obtain ⟨i', hi'⟩ := List.mem_iff_getElem?.1 h'
  -- its kind tells its place in the iteration
  have hkind : ∀ {j i : Nat}, (requests j)[i]? = some r →
      [("GET", some 'n'), ("POST", some 'u'), ("GET", some 'u'), ("GET", some 'p')][i]? = some (kind r) := by
    intro j i hi
    rw [← kind_requests j, List.getElem?_map, hi]
    rfl
  have hlt : i < 4 := (List.getElem?_eq_some_iff.1 hi).1
  have hplace := (hkind hi).trans (hkind hi').symm
  obtain rfl : i = i' := (List.getElem?_inj (by exact hlt) (by decide)).1 hplace
  have hsame := hi.trans hi'.symm
  rcases i with _ | _ | _ | _ | i
  · exact eq_of_get_eq (Option.some_inj.1 hsame)
  · exact eq_of_createUserRequest_eq (Option.some_inj.1 hsame)
  · exact eq_of_get_eq (Option.some_inj.1 hsame)
  · exact eq_of_get_eq (Option.some_inj.1 hsame)
  · omega

/-- A request that a run of iterations sends is one of theirs. -/
theorem mem_sends_loop {j : Nat} {outs : List Outcomes} {r : Request} (h : r ∈ (loop j outs).flatten.filterMap Event.sends) :
    ∃ i, j < i ∧ r ∈ requests i := by
  induction outs generalizing j with
  | nil => cases h
  | cons o outs ih =>
    rw [loop, List.flatten_cons, List.filterMap_append, sends_iteration, List.mem_append] at h
    rcases h with h | h
    · exact ⟨j + 1, Nat.lt_succ_self j, List.mem_of_mem_take h⟩
    · obtain ⟨i, hi, hr⟩ := ih h
      exact ⟨i, Nat.lt_of_succ_lt hi, hr⟩

/-- No request is sent twice. -/
theorem nodup_sends_loop (j : Nat) (outs : List Outcomes) : ((loop j outs).flatten.filterMap Event.sends).Nodup := by
  induction outs generalizing j with
  | nil => exact List.nodup_nil
  | cons o outs ih =>
    rw [loop, List.flatten_cons, List.filterMap_append, sends_iteration, List.nodup_append]
    refine ⟨(nodup_requests (j + 1)).sublist (List.take_sublist _ _), ih (j + 1), ?_⟩
    rintro r hr r' hr' rfl
    obtain ⟨i, hi, hr'⟩ := mem_sends_loop hr'
    exact absurd (eq_of_mem_requests (List.mem_of_mem_take hr) hr') (Nat.ne_of_lt hi)

theorem map_sends_loop (j : Nat) (outs : List Outcomes) :
    (loop j outs).map (·.filterMap Event.sends) = outs.mapIdx fun i o => (requests (j + i + 1)).take o.sentCount := by
  induction outs generalizing j with
  | nil => rfl
  | cons o outs ih =>
    rw [loop, List.map_cons, sends_iteration, ih, List.mapIdx_cons]
    simp only [Nat.add_zero, Nat.add_right_comm j 1, Nat.add_assoc j]

/-! ## What stays open -/

/-- The bodies of a piece are of iteration `j` and of its requests from number `k` on. -/
def From (j k : Nat) (m : Iteration α) : Prop :=
  ∀ e ∈ m.events, ∀ body, e.obtains = some body ∨ e.closes = some body → body.j = j ∧ k ≤ body.k

theorem tried_subset (body : Body) (request : Request) (o : Exchange) : o.tried body request ⊆ [.sent request, .opened body] := by
  unfold Exchange.tried
  split
  · split
    · exact List.Subset.refl _
    · simp
  · exact List.nil_subset _

/-- A response is left open when it is there. -/
theorem unreleased_tried (body b : Body) (request : Request) (o : Exchange) (line : String) :
    Unreleased Event.obtains Event.closes (o.tried body request ++ [.println line]) b ↔
      (o.newRequest.toBool && o.response.toBool) = true ∧ b = body := by
  unfold Exchange.tried
  cases o.newRequest.toBool <;> cases o.response.toBool <;>
    simp [unreleased_cons_iff, not_unreleased_nil, Event.obtains, Event.closes, eq_comm]

/-- The bodies of an exchange are its own. -/
theorem body_of_exchange {body b : Body} {request : Request} {o : Exchange} {e : Event} (he : e ∈ (exchange body request o).events)
    (h : e.obtains = some b ∨ e.closes = some b) : b = body := by
  cases hgoes : o.goesOn with
  | true =>
    obtain ⟨res, hexchange⟩ := exchange_of_goesOn body request hgoes
    rw [hexchange] at he
    simp only [List.mem_cons, List.not_mem_nil, or_false] at he
    rcases he with rfl | rfl | rfl | rfl <;> simp [Event.obtains, Event.closes] at h
    · exact h.symm
    · exact h.symm
  | false =>
    obtain ⟨line, hexchange⟩ := exchange_of_not_goesOn body request hgoes
    rw [hexchange] at he
    have hmem : e ∈ [.sent request, .opened body, .println line] := by
      rcases List.mem_append.1 he with he | he
      · exact List.mem_append_left [.println line] (tried_subset body request o he)
      · exact List.mem_append_right [.sent request, .opened body] he
    simp only [List.mem_cons, List.not_mem_nil, or_false] at hmem
    rcases hmem with rfl | rfl | rfl <;> simp [Event.obtains, Event.closes] at h
    exact h.symm

theorem from_exchange_bind {j k : Nat} {request : Request} {o : Exchange} {f : Unit → Iteration β} (h : From j (k + 1) (f ())) :
    From j k (exchange ⟨j, k⟩ request o >>= f) := by
  intro e he b hb
  rcases mem_events_bind.1 he with he | ⟨_, -, he⟩
  · obtain rfl := body_of_exchange he hb
    exact ⟨rfl, Nat.le_refl k⟩
  · obtain ⟨hj, hk⟩ := h e he b hb
    exact ⟨hj, Nat.le_of_succ_le hk⟩

/-- The body that is left open from an exchange on: that of a later one if it goes on, else its own if it is answered. -/
theorem unreleased_exchange_bind {j k : Nat} {request : Request} {o : Exchange} {f : Unit → Iteration β} (h : From j (k + 1) (f ()))
    (b : Body) :
    Unreleased Event.obtains Event.closes (exchange ⟨j, k⟩ request o >>= f).events b ↔
      if o.goesOn then Unreleased Event.obtains Event.closes (f ()).events b
      else (o.newRequest.toBool && o.response.toBool) = true ∧ b = ⟨j, k⟩ := by
  cases hgoes : o.goesOn with
  | true =>
    have ho : (o.Answered) ∧ o.readAll.toBool = true := by simpa [Exchange.goesOn, Exchange.Answered] using hgoes
    obtain ⟨res, hexchange⟩ := exchange_of_goesOn ⟨j, k⟩ request hgoes
    have hreleased := released_exchange ⟨j, k⟩ request ho.1 ho.2
    have hresult : (exchange ⟨j, k⟩ request o).result = .ok () := by rw [hexchange]
    rw [bind_of_ok hresult, unreleased_append_iff, if_pos rfl, or_iff_right (released_iff_forall_not_unreleased.1 hreleased b)]
    intro e he hb e' he' hb'
    obtain rfl := body_of_exchange he (Or.inl hb)
    exact absurd (h e' he' _ (Or.inr hb')).2 (Nat.not_succ_le_self k)
  | false =>
    obtain ⟨line, hexchange⟩ := exchange_of_not_goesOn ⟨j, k⟩ request hgoes
    rw [hexchange, bind_of_error rfl, if_neg Bool.false_ne_true]
    exact unreleased_tried ⟨j, k⟩ b request o line

/-- The end of an iteration: whatever becomes of the last request, its body is closed. -/
theorem lastExchange_sleep (body : Body) (request : Request) (o : Exchange) :
    (∀ e ∈ (lastExchange body request o >>= fun _ => emit (.sleep 3)).events, ∀ b,
        e.obtains = some b ∨ e.closes = some b → b = body) ∧
      Released Event.obtains Event.closes (lastExchange body request o >>= fun _ => emit (.sleep 3)).events := by
  by_cases ho : o.Answered
  · obtain ⟨lines, hlast⟩ := lastExchange_of_answered body request ho
    refine ⟨?_, (released_lastExchange body request ho).bind fun _ _ => released_of_forall_none (by simp [Event.obtains])⟩
    intro e he b hb
    rw [hlast, bind_of_ok rfl] at he
    simp only [events_emit, List.cons_append, List.append_assoc, List.mem_cons, List.mem_append, List.mem_map, List.not_mem_nil,
      or_false, List.nil_append] at he
    rcases he with rfl | rfl | ⟨_, -, rfl⟩ | rfl | rfl <;> simp [Event.obtains, Event.closes] at hb
    · exact hb.symm
    · exact hb.symm
  · obtain ⟨line, hlast⟩ := lastExchange_of_not_answered body request ho
    rw [hlast, bind_of_error rfl]
    have hnone : ∀ e ∈ o.tried body request ++ [.println line], e.obtains = none ∧ e.closes = none := by
      unfold Exchange.tried
      split
      · rename_i hnew
        rw [if_neg fun hresponse => ho ⟨hnew, hresponse⟩]
        simp [Event.obtains, Event.closes]
      · simp [Event.obtains, Event.closes]
    refine ⟨?_, released_of_forall_none fun e he => (hnone e he).1⟩
    intro e he b hb
    rw [(hnone e he).1, (hnone e he).2] at hb
    simp at hb

/-- The body that an iteration leaves open. -/
theorem unreleased_iteration (j : Nat) (o : Outcomes) :
    From j 1 (iteration j o) ∧
      ∀ b, Unreleased Event.obtains Event.closes (iteration j o).events b ↔ b.j = j ∧ o.leftOpen = some b.k := by
  obtain ⟨hbody, hreleased⟩ := lastExchange_sleep ⟨j, 4⟩ (getPostsRequest j) o.getPosts
  have h4 : From j 4 (lastExchange ⟨j, 4⟩ (getPostsRequest j) o.getPosts >>= fun _ => emit (.sleep 3)) := by
    intro e he b hb
    rw [hbody e he b hb]
    exact ⟨rfl, Nat.le_refl 4⟩
  have h3 : From j 3 (exchange ⟨j, 3⟩ (getUsersRequest j) o.getUsers >>= fun _ =>
      lastExchange ⟨j, 4⟩ (getPostsRequest j) o.getPosts >>= fun _ => emit (.sleep 3)) := from_exchange_bind h4
  have h2 : From j 2 (exchange ⟨j, 2⟩ (createUserRequest j) o.createUser >>= fun _ =>
      exchange ⟨j, 3⟩ (getUsersRequest j) o.getUsers >>= fun _ =>
        lastExchange ⟨j, 4⟩ (getPostsRequest j) o.getPosts >>= fun _ => emit (.sleep 3)) := from_exchange_bind h3
  refine ⟨from_exchange_bind h2, fun b => ?_⟩
  have hnone := iff_false_intro (released_iff_forall_not_unreleased.1 hreleased b)
  rw [iteration, unreleased_exchange_bind h2, unreleased_exchange_bind h3, unreleased_exchange_bind h4, hnone, Outcomes.leftOpen,
    leftOpen, leftOpen, leftOpen, leftOpen]
  obtain ⟨bj, bk⟩ := b
  split_ifs <;> simp [*, eq_comm]

/-- The bodies that a run of iterations leaves open. -/
theorem unreleased_loop (j : Nat) (outs : List Outcomes) :
    (∀ e ∈ (loop j outs).flatten, ∀ b, e.obtains = some b ∨ e.closes = some b → j < b.j) ∧
      ∀ b, Unreleased Event.obtains Event.closes (loop j outs).flatten b ↔
        ∃ i o, outs[i]? = some o ∧ b.j = j + i + 1 ∧ o.leftOpen = some b.k := by
  induction outs generalizing j with
  | nil =>
    refine ⟨by simp [loop], fun b => iff_of_false (not_unreleased_nil b) ?_⟩
    simp
  | cons o outs ih =>
    obtain ⟨hlater, hrest⟩ := ih (j + 1)
    obtain ⟨hfrom, hopen⟩ := unreleased_iteration (j + 1) o
    rw [loop, List.flatten_cons]
    constructor
    · intro e he b hb
      rcases List.mem_append.1 he with he | he
      · rw [(hfrom e he b hb).1]
        exact Nat.lt_succ_self j
      · exact Nat.lt_of_succ_lt (hlater e he b hb)
    · intro b
      rw [unreleased_append_iff, hopen, hrest]
      · constructor
        · rintro (⟨hj, hk⟩ | ⟨i, o', ho', hj, hk⟩)
          · exact ⟨0, o, rfl, hj, hk⟩
          · exact ⟨i + 1, o', ho', by omega, hk⟩
        · rintro ⟨i, o', ho', hj, hk⟩
          cases i with
          | zero =>
            obtain rfl := Option.some_inj.1 ho'
            exact Or.inl ⟨hj, hk⟩
          | succ i => exact Or.inr ⟨i, o', ho', by omega, hk⟩
      · intro e he hb e' he' hb'
        have hj := (hfrom e he b (Or.inl hb)).1
        have hj' := hlater e' he' b (Or.inr hb')
        omega

end SockShop.OutboundTls
