import SockShop.Replies

/-!
# Two runs of the health check

When two runs of the script amount to the same: as many rounds, equal maps after each of them, the same exit status (`SameRun`).

With `--hostname` the services are meant to be reached as paths of one machine. `Endpoints` is what the machines answer to requests
for paths; `Endpoints.net` is what `Net::HTTP.get_response` makes of a host and a path, and `Endpoints.answer` what one would see at
an address.
-/

namespace SockShop.Healthcheck

open WriteLog

/-! ## The same run -/

/-- The maps that Ruby's `==` finds equal: the same entries, in whatever order they were made. -/
def Health.Same (health health' : Health) : Prop := ∀ name, health.lookup name = health'.lookup name

/-- The map that is printed, if it is a map. -/
def Output.map : Output → Option Health
  | .ap health => some health
  | .puts _ => none

/-- The maps printed, oldest first: the one after each round that was executed to its end. -/
def Script.maps (s : Script) : List Health := s.output.filterMap Output.map

/-- Two runs of as many rounds, with equal maps after each of them and the same exit status. -/
structure SameRun (e e' : Exit) : Prop where
  rounds : e.script.rounds = e'.script.rounds
  maps : List.Forall₂ Health.Same e.script.maps e'.script.maps
  status : e.status = e'.status

/-! ## Endpoints -/

/-- The machines, round by round: what the one named `machine` answers to a request for `path`. -/
abbrev Endpoints : Type := (round : Nat) → (machine path : String) → Reply

/-- `Net::HTTP.get_response(host, path)`: the machine is the one named by the whole of `host`, and a name with a slash cannot be
resolved. -/
def Endpoints.net (E : Endpoints) : Net := fun i host path => if '/' ∈ host.toList then .noAnswer else E i host path

/-- What is answered at the address http://`url`: the machine is named by the url up to its first slash, and the rest is the path. -/
def Endpoints.answer (E : Endpoints) (i : Nat) (url : String) : Reply :=
  E i (String.ofList (url.toList.takeWhile (· ≠ '/'))) (String.ofList (url.toList.dropWhile (· ≠ '/')))

namespace Settings

variable (c : Settings)

/-- The settings without `--hostname`. -/
def plain : Settings := { c with hostname := none }

/-- The settings with `--hostname`. -/
def under (hostname : String) : Settings := { c with hostname := some hostname }

/-- The endpoints answer under the host name, in every round and for every requested service, what they answer in the plain mode. -/
def Agree (hostname : String) (E E' : Endpoints) : Prop :=
  ∀ i, 1 ≤ i → ∀ service ∈ c.services, E'.answer i (hostname ++ "/" ++ service ++ "/health") = E.answer i (service ++ "/health")

/-- After round `i` the log is as if no service had ever answered: every reply of the round reads, and the last statuses are an "err"
for each requested service and nothing else. -/
def Silent (net : Net) (i : Nat) : Prop :=
  c.Readable net i ∧
    ∀ name, last (c.logUpTo net.tame i) name = if name ∈ c.services.map Json.str then some (.str "err") else none

end Settings

end SockShop.Healthcheck
