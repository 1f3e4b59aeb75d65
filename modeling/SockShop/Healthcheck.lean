import Mathlib.Data.List.DropRight
import SockShop.Lib.Json
import SockShop.Lib.WriteLog

/-!
# The health check script

`healthcheck/healthcheck.rb`: given a list of services and a number of rounds, the script asks every service for its health in
each round, keeps what it heard in one map, `health`, and stops after the first round that leaves only "OK" in the map. Its exit
status says whether the map it ends with is all "OK".

The first half of this module is the script. The network is a table: what the machine named `host` answers to a request for
`path` in a round. An exception that the script does not rescue ends it, so a step returns the script's state either as a normal
end (`.ok`) or as the state at the point of the exception (`.error`). The second half is the specification the script is compared
with: the log of everything a round writes, and the state that the logs of the rounds so far determine (`Settings.after`).
-/

namespace SockShop.Healthcheck

open WriteLog

/-! ## The script -/

/-- The options of the command line that the script reads. (`--timeout` is parsed and never read.) -/
structure Options where
  hostname : Option String
  retry : Option Int
  delay : Option Int
  services : Option String

/-- What the loop reads, once the options are parsed: `services` and `options[:retry]` as the loop finds them. -/
structure Settings where
  hostname : Option String
  delay : Option Int
  services : List String
  retry : Int

/-- What a request brings: nothing (`get_response` raises), or a response, whose body is given as `JSON.parse` reads it: none when
the body is not JSON and the parse raises. -/
inductive Reply where
  | noAnswer
  | answered (body : Option Json)

/-- The network, round by round: what the machine `host` answers to a request for `path`. -/
abbrev Net : Type := (round : Nat) → (host path : String) → Reply

/-- The map `health`, from the names of services to statuses. -/
abbrev Health : Type := AList fun _ : Json => Json

/-- A request the script made. -/
structure Request where
  round : Nat
  host : String
  path : String
  deriving DecidableEq, Repr

/-- What the script prints: a line, or the map. -/
inductive Output where
  | puts (line : String)
  | ap (health : Health)

/-- What the script has done so far: the map, the requests made and the output printed, oldest first, and the last round begun. -/
structure Script where
  health : Health
  requests : List Request
  output : List Output
  rounds : Nat

/-- How the script ended: its exit status and the state it ended in. -/
structure Exit where
  status : Nat
  script : Script

/-- The state before the first round. -/
def Script.start : Script := { health := ∅, requests := [], output := [], rounds := 0 }

/-- Ruby's `split(',')`: the pieces between commas, without the empty ones at the end. -/
def split (s : String) : List String :=
  ((s.toList.splitOn ',').map String.ofList).rdropWhile (fun piece => decide (piece = ""))

/-- The host asked for a service: the service itself, or the service as a path under `--hostname`. -/
def Settings.url (c : Settings) (service : String) : String :=
  match c.hostname with
  | none => service
  | some hostname => hostname ++ "/" ++ service

/-- `health[item["service"]] = item["status"]`, for one item of a reply. -/
def record (s : Script) (item : Json) : Except Script Script :=
  match item.index "service", item.index "status" with
  | some name, some status => .ok { s with health := s.health.insert name status }
  | _, _ => .error s

/-- One service of one round: the request, and what is written for its outcome. The `rescue` covers the request alone: an exception
raised while the reply is read is in the `else` part and ends the script. -/
def checkService (c : Settings) (net : Net) (i : Nat) (s : Script) (service : String) : Except Script Script :=
  let s := { s with requests := s.requests ++ [⟨i, c.url service, "/health"⟩] }
  match net i (c.url service) "/health" with
  | .noAnswer => .ok { s with health := s.health.insert (.str service) (.str "err") }
  | .answered body =>
    match (body.bind (·.index "health")).bind Json.each with
    | none => .error s
    | some items => items.foldlM record s

/-- The pause before a round, when a delay is given. `sleep` raises on a negative one. (It raises also on one beyond the range of the
system's time, some 2⁶³ seconds, which is left out.) -/
def pause (c : Settings) (s : Script) : Except Script Script :=
  match c.delay with
  | none => .ok s
  | some delay =>
    let s := { s with output := s.output ++ [.puts ("\x1b[35mSleeping for " ++ toString delay ++ "s...\x1b[0m")] }
    if delay < 0 then .error s else .ok s

/-- One round: the pause, every service in turn, and the map printed. -/
def round (c : Settings) (net : Net) (i : Nat) (s : Script) : Except Script Script := do
  let s ← pause c { s with rounds := i }
  let s ← c.services.foldlM (checkService c net i) s
  .ok { s with output := s.output ++ [.ap s.health] }

/-- The test of the loop and of the exit: every status of the map is "OK". -/
def Health.allOk (health : Health) : Bool := health.entries.all fun e => decide (e.2 = .str "OK")

/-- The rounds from `i` on, `n` of them at most: a round that leaves the map all "OK" is the last. -/
def retryLoop (c : Settings) (net : Net) : (n i : Nat) → Script → Except Script Script
  | 0, _, s => .ok s
  | n + 1, i, s => do
    let s ← round c net i s
    if s.health.allOk then .ok s else retryLoop c net n (i + 1) s

/-- The script from its first round to its exit. An exception that ends it makes the exit status 1, as a map that is not all "OK"
does. -/
def run (c : Settings) (net : Net) : Exit :=
  match retryLoop c net c.retry.toNat 1 Script.start with
  | .error s => ⟨1, s⟩
  | .ok s => ⟨if s.health.allOk then 0 else 1, s⟩

/-- The settings that the options give the loop: none without `--services`. -/
def Options.settings (o : Options) : Option Settings :=
  o.services.map fun services =>
    { hostname := o.hostname, delay := o.delay, services := split services, retry := o.retry.getD 1 }

/-- The whole script. Without `--services` it says so and leaves with `exit!`, whose status is 1. -/
def main (o : Options) (net : Net) : Exit :=
  match o.settings with
  | none => ⟨1, { Script.start with output := [.puts "\x1b[31mno services specified\x1b[0m"] }⟩
  | some c => run c net

example : split "carts,,orders,," = ["carts", "", "orders"] := by decide

/-! ## What a round writes -/

/-- The status that counts as healthy. -/
def IsOk (status : Json) : Prop := status = .str "OK"

/-- Whether a value is a hash. -/
def isHash : Json → Bool
  | .obj _ => true
  | _ => false

/-- Whether a reply is what the script expects: no answer, or a hash whose field 'health' is a list of hashes. -/
def Reply.wellFormed : Reply → Bool
  | .noAnswer => true
  | .answered (some (.obj fields)) =>
    match Json.field fields "health" with
    | .arr items => items.all isHash
    | _ => false
  | .answered _ => false

/-- The name and the status an item of a health list reports. -/
def report : Json → Json × Json
  | .obj fields => (Json.field fields "service", Json.field fields "status")
  | _ => (.null, .null)

/-- The health list of a reply, as pairs of a name and a status: none when there is no answer. -/
def Reply.healthList : Reply → Option (List (Json × Json))
  | .noAnswer => none
  | .answered (some (.obj fields)) =>
    match Json.field fields "health" with
    | .arr items => some (items.map report)
    | _ => some []
  | .answered _ => some []

/-- A reply with the given names and statuses in its health list. -/
def healthReply (reports : List (String × String)) : Reply :=
  .answered (some (.obj [("health", .arr (reports.map fun r => .obj [("service", .str r.1), ("status", .str r.2)]))]))

/-- What one service makes a round write: its requested name and "err" when it does not answer, what its health list reports when
it does. -/
def writes (service : String) (reply : Reply) : List (Json × Json) :=
  match reply.healthList with
  | none => [(.str service, .str "err")]
  | some reports => reports

namespace Settings

variable (c : Settings) (net : Net)

/-- What a service answers in a round. -/
def reply (i : Nat) (service : String) : Reply := net i (c.url service) "/health"

/-- Every reply to the requested services, in every round, is what the script expects. -/
def WellFormed : Prop := ∀ i, ∀ service ∈ c.services, (c.reply net i service).wellFormed = true

/-- The delay, when there is one, is a time that `sleep` accepts. -/
def PauseOk : Prop := ∀ delay, c.delay = some delay → 0 ≤ delay

/-- Everything a round writes, in the order of the services and, for each, of its health list. -/
def roundLog (i : Nat) : List (Json × Json) := c.services.flatMap fun service => writes service (c.reply net i service)

/-- Everything the first `i` rounds write. -/
def logUpTo (i : Nat) : List (Json × Json) := (List.range' 1 i).flatMap (c.roundLog net)

/-- The requests of a round: one for each requested service, in order. -/
def roundRequests (i : Nat) : List Request := c.services.map fun service => ⟨i, c.url service, "/health"⟩

/-- What the pause before a round prints. -/
def pauseOutput : List Output :=
  (c.delay.map fun delay => Output.puts ("\x1b[35mSleeping for " ++ toString delay ++ "s...\x1b[0m")).toList

/-- The state that the logs of the first `i` rounds determine. -/
def after (i : Nat) : Script where
  health := store ∅ (c.logUpTo net i)
  requests := (List.range' 1 i).flatMap c.roundRequests
  output := (List.range' 1 i).flatMap fun j => c.pauseOutput ++ [.ap (store ∅ (c.logUpTo net j))]
  rounds := i

/-- After round `i` the last status written for every name is "OK". -/
def AllClear (i : Nat) : Prop := Settled IsOk (c.logUpTo net i)

/-- A round in which every requested service answers and reports nothing but "OK". -/
def GoodRound (i : Nat) : Prop :=
  ∀ service ∈ c.services, ∃ reports, (c.reply net i service).healthList = some reports ∧ ∀ w ∈ reports, IsOk w.2

/-- A service answers in round `i`, with at least one item whose status is "OK". -/
def Vouches (i : Nat) (service : String) : Prop :=
  ∃ reports, (c.reply net i service).healthList = some reports ∧ ∃ w ∈ reports, IsOk w.2

/-- A service from which the first `m` rounds hear nothing, or nothing but failures: it does not answer, its health lists are empty,
or the statuses it reports are others than "OK". -/
def Mute (m : Nat) (service : String) : Prop :=
  ∀ i, 1 ≤ i → i ≤ m → ∀ w ∈ writes service (c.reply net i service), ¬IsOk w.2

/-- In the first `m` rounds some service did not answer, or reported a status other than "OK", and nothing was written after that for
the same name. -/
def FailureStands (m : Nat) : Prop := Standing IsOk (c.logUpTo net m)

end Settings

end SockShop.Healthcheck
