import SockShop.Lemmas.Sctp

/-!
# The SCTP server and its clients

The server closes every connection. It gets through with a list of clients exactly when each of their chunks is UTF-8 by itself and no
call on their sockets raises (`survives_iff`): a client whose text is cut inside a character ends it. It goes no further than to the
first client that is not like this (`ends_at_first`).
-/

namespace SockShop.Sctp

/-- The server accepts all of the clients, closes their connections and waits for the next one if and only if it gets through with each
of them. The connections that it accepts it closes in any case. -/
theorem survives_iff (clients : List Client) :
    (Survives clients ↔ ∀ client ∈ clients, client.Tolerated) ∧
    Released Event.opens Event.closes (server clients).events := by
  have hevents : (server clients).events = .print "Start SCTP server" :: (acceptLoop 0 clients).events :=
    Traced.events_emit_bind _ _
  have hreleased : Released Event.opens Event.closes (server clients).events := by
    rw [hevents, released_cons_of_none rfl]
    exact released_acceptLoop 0 clients
  have hresult : (server clients).result = .ok () ↔ ∀ client ∈ clients, client.Tolerated := by
    rw [server, Traced.result_bind_unit_eq_ok, acceptLoop_eq_ok_iff]
    exact and_iff_right rfl
  refine ⟨?_, hreleased⟩
  constructor
  · rintro ⟨-, -, h⟩
    exact hresult.1 h
  · intro h
    refine ⟨?_, hreleased, hresult.2 h⟩
    rw [hevents, List.filterMap_cons_none rfl, opens_acceptLoop 0 h, List.range_eq_range']

/-- A client that sends `é`, of which `recv` returns one byte at a time. -/
def cutClient : Client where
  address := "('10.0.0.7', 40000)"
  connection := "<sctp.sctpsocket_tcp object>"
  turns := [⟨⟨[0xC3], by decide, by decide⟩, .ok ()⟩, ⟨⟨[0xA9], by decide, by decide⟩, .ok ()⟩]
  ending := .ok ()

/-- What it sends is UTF-8, and none of its calls raises; yet the server ends with its first byte. -/
theorem cut_ends_server :
    ByteArray.IsValidUTF8 ⟨(cutClient.turns.flatMap (·.chunk.bytes)).toArray⟩ ∧
    (server [cutClient]).result = .error .unicodeDecodeError ∧ ¬Survives [cutClient] := by
  have hresult : (server [cutClient]).result = .error .unicodeDecodeError := by rfl
  refine ⟨ByteArray.validateUTF8_eq_true_iff.1 (by decide), hresult, ?_⟩
  rintro ⟨-, -, h⟩
  rw [hresult] at h
  cases h

/-- The first client that the server does not get through with ends it, with the exception that the conversation ends with: up to then
it has accepted the clients one after another and closed their connections in the same order, and those after it make no difference. -/
theorem ends_at_first (before : List Client) (client : Client) (after : List Client) (hbefore : ∀ client' ∈ before, client'.Tolerated)
    (h : ¬client.Tolerated) :
    server (before ++ client :: after) = server (before ++ [client]) ∧
      (server (before ++ client :: after)).events.filterMap Event.opens = List.range (before.length + 1) ∧
      (server (before ++ client :: after)).events.filterMap Event.closes = List.range (before.length + 1) ∧
      ∃ exn, (converse before.length client).result = .error exn ∧ (server (before ++ client :: after)).result = .error exn := by
  have hserver : server (before ++ client :: after) = server (before ++ [client]) := by
    rw [server, server, acceptLoop_append_cons h]
  have hevents : (server (before ++ [client])).events =
      .print "Start SCTP server" :: (acceptLoop 0 (before ++ [client])).events := Traced.events_emit_bind _ _
  cases hexn : (converse before.length client).result with
  | ok u => exact absurd ((converse_eq_ok_iff _ client).1 hexn) h
  | error exn =>
    have hconverse : (converse (0 + before.length) client).result = .error exn := by rwa [Nat.zero_add]
    obtain ⟨hopens, hresult⟩ := acceptLoop_ends hbefore hconverse
    rw [← List.range_eq_range'] at hopens
    refine ⟨hserver, ?_, ?_, exn, rfl, ?_⟩
    · rw [hserver, hevents, List.filterMap_cons_none rfl, hopens]
    · rw [hserver, hevents, List.filterMap_cons_none rfl, closes_acceptLoop, hopens]
    · rw [hserver]
      exact hresult

/-- A client that closes its connection without having sent anything. -/
def quietClient : Client where
  address := "('10.0.0.8', 40001)"
  connection := "<sctp.sctpsocket_tcp object>"
  turns := []
  ending := .ok ()

/-- `ends_at_first`, between two quiet clients. -/
theorem ends_at_cut_client :
    server ([quietClient] ++ cutClient :: [quietClient]) = server ([quietClient] ++ [cutClient]) ∧
      (server ([quietClient] ++ cutClient :: [quietClient])).events.filterMap Event.opens = List.range 2 ∧
      (server ([quietClient] ++ cutClient :: [quietClient])).events.filterMap Event.closes = List.range 2 ∧
      ∃ exn, (converse 1 cutClient).result = .error exn ∧
        (server ([quietClient] ++ cutClient :: [quietClient])).result = .error exn := by
  refine ends_at_first [quietClient] cutClient [quietClient] ?_ ?_
  · rw [List.forall_mem_singleton]
    exact ⟨by simp [quietClient], rfl⟩
  · rintro ⟨h, -⟩
    exact absurd (ByteArray.validateUTF8_eq_true_iff.2 (h _ List.mem_cons_self).1) (by decide)

end SockShop.Sctp
