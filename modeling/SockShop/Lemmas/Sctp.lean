import SockShop.Sctp

/-!
# What the SCTP server does with a client

The conversation with a client ends without an exception exactly when the client is tolerated (`converse_eq_ok_iff`). Either way the
connection is closed before anything else is accepted (`events_acceptLoop_cons`), and the loop goes on only in the first case
(`acceptLoop_eq_ok_iff`).
-/

namespace SockShop.Sctp

open Traced

/-! ## The conversation with a client -/

@[simp] theorem result_print (line : String) : (print line).result = .ok () := rfl

@[simp] theorem events_print (line : String) : (print line).events = [.print line] := rfl

/-- A chunk is decoded when it is UTF-8. -/
theorem decode_eq_ok_iff (bytes : List UInt8) :
    (∃ text, (decode bytes).result = .ok text) ↔ ByteArray.IsValidUTF8 ⟨bytes.toArray⟩ := by
  rw [← ByteArray.validateUTF8_eq_true_iff]
  unfold decode String.fromUTF8?
  split_ifs with h
  · simp [h]
  · simp [h]

/-- A call that may raise does not, when no error comes of it. -/
theorem raising_eq_ok_iff (r : Except String Unit) : (raising r).result = .ok () ↔ r = .ok () := by
  cases r with
  | ok u => exact iff_of_true rfl rfl
  | error text => exact iff_of_false nofun nofun

/-- The inner loop ends without an exception when every chunk is decoded and answered and the end of the data is read. -/
theorem receive_eq_ok_iff (conn : Nat) (ending : Except String Unit) (turns : List Turn) :
    (receive conn ending turns).result = .ok () ↔
      (∀ turn ∈ turns, ByteArray.IsValidUTF8 ⟨turn.chunk.bytes.toArray⟩ ∧ turn.sendall = .ok ()) ∧ ending = .ok () := by
  induction turns with
  | nil => simp [receive, result_bind_unit_eq_ok, raising_eq_ok_iff]
  | cons turn turns ih =>
    rw [receive, result_bind_eq_ok, List.forall_mem_cons, and_assoc, ← ih, ← decode_eq_ok_iff, ← raising_eq_ok_iff turn.sendall,
      and_assoc, ← exists_and_right]
    simp only [result_bind_unit_eq_ok, result_print, result_emit, true_and]

/-- The conversation ends without an exception exactly when the client is tolerated. -/
theorem converse_eq_ok_iff (conn : Nat) (client : Client) : (converse conn client).result = .ok () ↔ client.Tolerated := by
  simp only [converse, result_bind_unit_eq_ok, result_print, true_and, receive_eq_ok_iff, Client.Tolerated]

/-- Decoding emits nothing. -/
@[simp] theorem events_decode (bytes : List UInt8) : (decode bytes).events = [] := by
  unfold decode
  split <;> rfl

/-- Nor does an exception of a call. -/
@[simp] theorem events_raising (r : Except String Unit) : (raising r).events = [] := by
  cases r <;> rfl

/-- Nothing is accepted in the inner loop. -/
theorem receive_not_opens (conn : Nat) (ending : Except String Unit) (turns : List Turn) :
    ¬Emits (fun e => e.opens ≠ none) (receive conn ending turns) := by
  induction turns with
  | nil =>
    rw [receive, emits_bind]
    rintro (h | ⟨-, -, h⟩)
    · simp [Emits] at h
    · rw [print, emits_emit] at h
      exact h rfl
  | cons turn turns ih =>
    rw [receive, emits_bind]
    rintro (h | ⟨text, -, h⟩)
    · simp [Emits] at h
    · rw [print, emits_emit_bind, emits_emit_bind, emits_bind] at h
      rcases h with h | h | h | ⟨-, -, h⟩
      · exact h rfl
      · exact h rfl
      · simp [Emits] at h
      · exact ih h

/-- Nothing is accepted in a conversation. -/
theorem converse_opens_none (conn : Nat) (client : Client) : ∀ e ∈ (converse conn client).events, e.opens = none := by
  intro e he
  by_contra hne
  have h : Emits (fun e => e.opens ≠ none) (converse conn client) := ⟨e, he, hne⟩
  rw [converse, print, print, emits_emit_bind, emits_emit_bind] at h
  rcases h with h | h | h
  · exact h rfl
  · exact h rfl
  · exact receive_not_opens conn client.ending client.turns h

/-! ## The outer loop -/

/-- What the loop does with the next client: its connection is closed however the conversation ended. -/
theorem events_acceptLoop_cons (conn : Nat) (client : Client) (clients : List Client) :
    ∃ rest, (acceptLoop conn (client :: clients)).events =
        .print "waiting for a connection" :: .accept conn :: ((converse conn client).events ++ .close conn :: rest) ∧
      (client.Tolerated → rest = (acceptLoop (conn + 1) clients).events) ∧ (¬client.Tolerated → rest = []) := by
  rw [← converse_eq_ok_iff conn client, acceptLoop, print, events_emit_bind, events_emit_bind]
  cases h : (converse conn client).result with
  | ok u =>
    have hfinally : (andFinally (converse conn client) (emit (.close conn))).result = .ok u := result_andFinally_eq_ok.2 ⟨rfl, h⟩
    refine ⟨_, ?_, fun _ => rfl, fun hne => absurd rfl hne⟩
    rw [bind_of_ok hfinally]
    simp [andFinally]
  | error exn =>
    have hfinally : (andFinally (converse conn client) (emit (.close conn))).result = .error exn := h
    refine ⟨[], ?_, nofun, fun _ => rfl⟩
    rw [bind_of_error hfinally]
    rfl

/-- The loop goes on to the end exactly when every client is tolerated. -/
theorem acceptLoop_eq_ok_iff (conn : Nat) (clients : List Client) :
    (acceptLoop conn clients).result = .ok () ↔ ∀ client ∈ clients, client.Tolerated := by
  induction clients generalizing conn with
  | nil => simp [acceptLoop]
  | cons client clients ih =>
    rw [acceptLoop, List.forall_mem_cons, ← ih (conn + 1), ← converse_eq_ok_iff conn]
    simp only [result_bind_unit_eq_ok, result_print, result_emit, result_andFinally_eq_ok, true_and]

/-- Every connection accepted is closed, whatever the clients do. -/
theorem released_acceptLoop (conn : Nat) (clients : List Client) :
    Released Event.opens Event.closes (acceptLoop conn clients).events := by
  induction clients generalizing conn with
  | nil => exact released_of_forall_none (by simp [acceptLoop, Event.opens])
  | cons client clients ih =>
    obtain ⟨rest, hevents, hgoes, hends⟩ := events_acceptLoop_cons conn client clients
    have hrest : Released Event.opens Event.closes rest := by
      by_cases h : client.Tolerated
      · rw [hgoes h]
        exact ih (conn + 1)
      · rw [hends h]
        trivial
    rw [hevents, released_cons_of_none rfl]
    constructor
    · intro k hk
      exact ⟨.close conn, List.mem_append_right _ List.mem_cons_self, hk⟩
    · exact (released_of_forall_none (converse_opens_none conn client)).append ((released_cons_of_none rfl).2 hrest)

/-- The connections accepted from clients that are all tolerated. -/
theorem opens_acceptLoop (conn : Nat) {clients : List Client} (h : ∀ client ∈ clients, client.Tolerated) :
    (acceptLoop conn clients).events.filterMap Event.opens = List.range' conn clients.length := by
  induction clients generalizing conn with
  | nil => rfl
  | cons client clients ih =>
    obtain ⟨htolerated, hall⟩ := List.forall_mem_cons.1 h
    obtain ⟨rest, hevents, hgoes, -⟩ := events_acceptLoop_cons conn client clients
    have hconverse : (converse conn client).events.filterMap Event.opens = [] :=
      List.filterMap_eq_nil_iff.2 (converse_opens_none conn client)
    have haccept : (Event.accept conn).opens = some conn := rfl
    rw [hevents, hgoes htolerated, List.length_cons, List.range'_succ, ← ih (conn + 1) hall, List.filterMap_cons_none rfl,
      List.filterMap_cons_some haccept, List.filterMap_append, hconverse, List.nil_append, List.filterMap_cons_none rfl]

/-! ## The end of the server -/

/-- What the server does in a conversation. -/
theorem event_of_converse {conn : Nat} {client : Client} {e : Event} (he : e ∈ (converse conn client).events) :
    (∃ line, e = .print line) ∨ ∃ text, e = .sendall conn text := by
  have hreceive : ∀ turns, ∀ e ∈ (receive conn client.ending turns).events,
      (∃ line, e = .print line) ∨ ∃ text, e = .sendall conn text := by
    intro turns
    induction turns with
    | nil =>
      intro e he
      rw [receive, mem_events_bind, events_raising] at he
      rcases he with he | ⟨_, -, he⟩
      · cases he
      · exact Or.inl ⟨_, List.mem_singleton.1 he⟩
    | cons turn turns ih =>
      intro e he
      rw [receive, mem_events_bind, events_decode] at he
      rcases he with he | ⟨text, -, he⟩
      · cases he
      · rw [print, events_emit_bind, events_emit_bind, List.mem_cons, List.mem_cons, mem_events_bind, events_raising] at he
        rcases he with rfl | rfl | he | ⟨_, -, he⟩
        · exact Or.inl ⟨_, rfl⟩
        · exact Or.inr ⟨_, rfl⟩
        · cases he
        · exact ih e he
  rw [converse, print, print, events_emit_bind, events_emit_bind, List.mem_cons, List.mem_cons] at he
  rcases he with rfl | rfl | he
  · exact Or.inl ⟨_, rfl⟩
  · exact Or.inl ⟨_, rfl⟩
  · exact hreceive client.turns e he

/-- The connections closed are the connections accepted, in the same order. -/
theorem closes_acceptLoop (conn : Nat) (clients : List Client) :
    (acceptLoop conn clients).events.filterMap Event.closes = (acceptLoop conn clients).events.filterMap Event.opens := by
  induction clients generalizing conn with
  | nil => rfl
  | cons client clients ih =>
    obtain ⟨rest, hevents, hgoes, hends⟩ := events_acceptLoop_cons conn client clients
    have hopens : (converse conn client).events.filterMap Event.opens = [] :=
      List.filterMap_eq_nil_iff.2 (converse_opens_none conn client)
    have hcloses : (converse conn client).events.filterMap Event.closes = [] := by
      refine List.filterMap_eq_nil_iff.2 fun e he => ?_
      rcases event_of_converse he with ⟨_, rfl⟩ | ⟨_, rfl⟩
      · rfl
      · rfl
    have hrest : rest.filterMap Event.closes = rest.filterMap Event.opens := by
      by_cases h : client.Tolerated
      · rw [hgoes h]
        exact ih (conn + 1)
      · rw [hends h]
        rfl
    have haccept : (Event.accept conn).opens = some conn := rfl
    have hclose : (Event.close conn).closes = some conn := rfl
    calc (acceptLoop conn (client :: clients)).events.filterMap Event.closes
      _ = conn :: rest.filterMap Event.closes := by
        rw [hevents, List.filterMap_cons_none rfl, List.filterMap_cons_none rfl, List.filterMap_append, hcloses, List.nil_append,
          List.filterMap_cons_some hclose]
      _ = conn :: rest.filterMap Event.opens := by rw [hrest]
      _ = (acceptLoop conn (client :: clients)).events.filterMap Event.opens := by
        rw [hevents, List.filterMap_cons_none rfl, List.filterMap_cons_some haccept, List.filterMap_append, hopens, List.nil_append,
          List.filterMap_cons_none rfl]

/-- Where the conversation with a client ends with an exception, no later client counts. -/
theorem acceptLoop_append_cons {conn : Nat} {before after : List Client} {client : Client} (h : ¬client.Tolerated) :
    acceptLoop conn (before ++ client :: after) = acceptLoop conn (before ++ [client]) := by
  induction before generalizing conn with
  | nil =>
    have hresult : (converse conn client).result ≠ .ok () := fun hok => h ((converse_eq_ok_iff conn client).1 hok)
    cases hexn : (converse conn client).result with
    | ok u => exact absurd hexn hresult
    | error exn =>
      have hfinally : (andFinally (converse conn client) (emit (.close conn))).result = .error exn := hexn
      rw [List.nil_append, List.nil_append, acceptLoop, acceptLoop, bind_of_error hfinally, bind_of_error hfinally]
  | cons client' before ih => rw [List.cons_append, List.cons_append, acceptLoop, acceptLoop, ih]

/-- What an exception of the conversation with a client makes of the loop. -/
theorem result_acceptLoop_cons (conn : Nat) (client : Client) (clients : List Client) :
    (acceptLoop conn (client :: clients)).result =
      (converse conn client).result.bind fun _ => (acceptLoop (conn + 1) clients).result := by
  rw [acceptLoop, bind_of_ok (result_print _), bind_of_ok (result_emit _)]
  cases h : (converse conn client).result with
  | ok u =>
    have hfinally : (andFinally (converse conn client) (emit (.close conn))).result = .ok u := result_andFinally_eq_ok.2 ⟨rfl, h⟩
    rw [bind_of_ok hfinally]
    rfl
  | error exn =>
    have hfinally : (andFinally (converse conn client) (emit (.close conn))).result = .error exn := h
    rw [bind_of_error hfinally]
    rfl

/-- The first exception ends the loop. -/
theorem acceptLoop_ends {conn : Nat} {before : List Client} {client : Client} {exn : Exn}
    (hbefore : ∀ client' ∈ before, client'.Tolerated) (h : (converse (conn + before.length) client).result = .error exn) :
    (acceptLoop conn (before ++ [client])).events.filterMap Event.opens = List.range' conn (before.length + 1) ∧
      (acceptLoop conn (before ++ [client])).result = .error exn := by
  induction before generalizing conn with
  | nil =>
    obtain ⟨rest, hevents, -, hends⟩ := events_acceptLoop_cons conn client []
    have hresult : (converse conn client).result = .error exn := h
    have hne : ¬client.Tolerated := by
      rw [← converse_eq_ok_iff conn client, hresult]
      simp
    have haccept : (Event.accept conn).opens = some conn := rfl
    constructor
    · rw [List.nil_append, hevents, hends hne, List.filterMap_cons_none rfl, List.filterMap_cons_some haccept, List.filterMap_append,
        List.filterMap_eq_nil_iff.2 (converse_opens_none conn client)]
      rfl
    · rw [List.nil_append, result_acceptLoop_cons, hresult]
      rfl
  | cons client' before ih =>
    obtain ⟨hclient', hrest⟩ := List.forall_mem_cons.1 hbefore
    obtain ⟨rest, hevents, hgoes, -⟩ := events_acceptLoop_cons conn client' (before ++ [client])
    have hlast : (converse (conn + 1 + before.length) client).result = .error exn := by
      rw [Nat.add_assoc, Nat.add_comm 1]
      exact h
    obtain ⟨hopens, hresult⟩ := ih hrest hlast
    have haccept : (Event.accept conn).opens = some conn := rfl
    constructor
    · rw [List.cons_append, hevents, hgoes hclient', List.filterMap_cons_none rfl, List.filterMap_cons_some haccept,
        List.filterMap_append, List.filterMap_eq_nil_iff.2 (converse_opens_none conn client'), List.nil_append,
        List.filterMap_cons_none rfl, hopens]
      rfl
    · rw [List.cons_append, result_acceptLoop_cons, (converse_eq_ok_iff conn client').2 hclient']
      exact hresult

end SockShop.Sctp
