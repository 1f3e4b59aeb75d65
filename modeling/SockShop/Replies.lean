import SockShop.Healthcheck

/-!
# Replies of any kind

`JSON.parse` and the walk over the parsed value are in the `else` part of the request, so what they raise ends the script. This
module reads a reply of any kind the way the script does (`readBody`), and says what the script would do if a reply that cannot be
read counted as no answer (`Net.tame`): every reply of that network is what the script expects, and the two networks differ only where
something raises.

`Confined` is what one would want of bad replies: they do not keep the script from the other services and rounds.
-/

namespace SockShop.Healthcheck

open WriteLog

/-! ## Reading a reply -/

/-- The name and the status of an item: none when a look-up raises. -/
def readItem (item : Json) : Option (Json × Json) :=
  match item.index "service", item.index "status" with
  | some name, some status => some (name, status)
  | _, _ => none

/-- The names and statuses of a response, in order: none when something raises on the way. -/
def readBody (body : Option Json) : Option (List (Json × Json)) :=
  ((body.bind (·.index "health")).bind Json.each).bind (·.mapM readItem)

/-- Nothing raises while the reply is read. -/
def Reply.Reads : Reply → Prop
  | .noAnswer => True
  | .answered body => readBody body ≠ none

/-- A proper health list: an answer, and what the script expects. -/
def Reply.Proper (reply : Reply) : Prop := reply ≠ .noAnswer ∧ reply.wellFormed = true

/-- The reply with the given names and statuses in its health list. -/
def listReply (reports : List (Json × Json)) : Reply :=
  .answered (some (.obj [("health", .arr (reports.map fun r => .obj [("service", r.1), ("status", r.2)]))]))

/-- A proper reply with what is read of the reply, or no answer when something raises. -/
def Reply.tame : Reply → Reply
  | .noAnswer => .noAnswer
  | .answered body =>
    match readBody body with
    | some reports => listReply reports
    | none => .noAnswer

/-- The network with tame replies. -/
def Net.tame (net : Net) : Net := fun i host path => (net i host path).tame

/-! ## Where the script stands -/

/-- The first `i` rounds, with nothing tested between them. -/
def rounds (c : Settings) (net : Net) : Nat → Except Script Script
  | 0 => .ok Script.start
  | i + 1 => do
    let s ← rounds c net i
    round c net (i + 1) s

/-- Round `i + 1` up to the services `visited`, after `i` rounds. -/
def visit (c : Settings) (net : Net) (i : Nat) (visited : List String) : Except Script Script := do
  let s ← rounds c net i
  let s ← pause c { s with rounds := i + 1 }
  visited.foldlM (checkService c net (i + 1)) s

namespace Settings

variable (c : Settings) (net : Net)

/-- Everything written up to the services `visited` of round `i + 1`, with tame replies. -/
def logAt (i : Nat) (visited : List String) : List (Json × Json) :=
  c.logUpTo net.tame i ++ visited.flatMap fun service => writes service (c.reply net.tame (i + 1) service)

/-- Round `i + 1` is within `--retry`, and no round before it leaves every last status "OK". -/
def Reached (i : Nat) : Prop := (i + 1 : Nat) ≤ c.retry ∧ ∀ j, 1 ≤ j → j ≤ i → ¬c.AllClear net.tame j

/-- A round asks `service` once it has asked `visited`. -/
def Asks (visited : List String) (service : String) : Prop := ∃ rest, c.services = visited ++ service :: rest

/-- Nothing raises while the replies of round `i` are read. -/
def Readable (i : Nat) : Prop := ∀ service ∈ c.services, (c.reply net i service).Reads

/-- Bad replies stay confined to their service and round: the script does not end before its time, in every round executed it asks
every service, a service that does not answer with a proper health list is not "OK" in the map after its turn, and the rounds end
with the last one allowed or with a map that is all "OK". -/
structure Confined : Prop where
  goesOn : ∃ s, retryLoop c net c.retry.toNat 1 Script.start = .ok s
  asksAll : (run c net).script.requests = (List.range' 1 (run c net).script.rounds).flatMap c.roundRequests
  recorded : ∀ i visited service, i + 1 ≤ (run c net).script.rounds → c.Asks visited service →
    ¬(c.reply net (i + 1) service).Proper →
      ∃ s status, visit c net i (visited ++ [service]) = .ok s ∧ s.health.lookup (.str service) = some status ∧ ¬IsOk status
  lastRound : (run c net).script.rounds = c.retry.toNat ∨ (run c net).script.health.allOk = true

/-- The reply of `service` in round `i + 1` does no harm: nothing raises while it is read, and it is a proper health list, or leaves
the last status written for the service, by the end of its turn, other than "OK". -/
def Harmless (i : Nat) (visited : List String) (service : String) : Prop :=
  (c.reply net (i + 1) service).Reads ∧
    ((c.reply net (i + 1) service).Proper ∨
      ∃ status, last (c.logAt net i (visited ++ [service])) (.str service) = some status ∧ ¬IsOk status)

end Settings

end SockShop.Healthcheck
