import SockShop.Lib.Machine
import SockShop.Lib.Traced

/-!
# The LDAP client

`additions/ldap-client/main.go`: an endless loop whose cycle dials the server, binds, creates a user with a random name, changes it,
searches it, logs what was found, deletes it, unbinds and closes the connection. An error at any of these ends the cycle with
`continue`.

What the operations return is given for each cycle (`Outcomes`); what a cycle does is the trace of its events and how it ends. The
connection of a cycle is named by the number of the cycle.
-/

namespace SockShop.Ldap

/-- The command-line flags and their defaults. -/
structure Flags where
  server : String := "127.0.0.1"
  port : Int := 389
  username : String := "cn=admin,dc=example,dc=com"
  password : String := "admin"
  baseDN : String := "dc=example,dc=com"
  useTLS : Bool := false
  deriving DecidableEq, Repr

/-- The response control of the password policy. -/
structure PasswordPolicy where
  expire : Int
  grace : Int
  deriving DecidableEq, Repr

/-- An attribute of an entry. -/
structure Attribute where
  name : String
  values : List String
  deriving DecidableEq, Repr

/-- An entry of a search result. -/
structure Entry where
  dn : String
  attributes : List Attribute
  deriving DecidableEq, Repr

/-- The result of a search. -/
structure SearchResult where
  entries : List Entry
  deriving DecidableEq, Repr

/-- What the operations of one cycle return: an error, or what they return without one. `rand` is what `rand.Read` fills its eight
bytes with. -/
structure Outcomes where
  dial : Except String Unit
  bind : Except String (Option PasswordPolicy)
  rand : Except String (Vector UInt8 8)
  add : Except String Unit
  modify : Except String Unit
  search : Except String SearchResult
  del : Except String Unit
  unbind : Except String Unit
  close : Except String Unit

/-- A change of a modify request: the values added to an attribute, or those that replace its own. -/
inductive Change where
  | add (name : String) (values : List String)
  | replace (name : String) (values : List String)
  deriving DecidableEq, Repr

/-- An operation on a connection, with its request. -/
inductive Op where
  | dial (url : String)
  | bind (username password : String)
  | add (dn : String) (attributes : List Attribute)
  | modify (dn : String) (changes : List Change)
  | search (baseDN filter : String) (attributes : List String)
  | del (dn : String)
  | unbind
  | close
  deriving DecidableEq, Repr

/-- What a cycle does: a pause, in seconds, a line or a part of a search result logged, or an operation on connection `conn`, which
succeeds or not. -/
inductive Event where
  | sleep (seconds : Nat)
  | log (line : String)
  | logEntry (user : String) (entry : Entry)
  | logAttributes (user : String) (attributes : List Attribute)
  | op (conn : Nat) (op : Op) (ok : Bool)
  deriving DecidableEq, Repr

/-- How a cycle ends before its end: the next one begins, `log.Fatal` ends the process, or it panics. -/
inductive Stop where
  | next
  | fatal
  | panic (text : String)
  deriving DecidableEq, Repr

/-- A piece of a cycle. -/
abbrev Cycle := Traced Event Stop

open Traced

/-! ## The pieces of a cycle -/

/-- The address dialled. -/
def Flags.ldapURL (flags : Flags) : String :=
  (if flags.useTLS then "ldaps" else "ldap") ++ "://" ++ flags.server ++ ":" ++ toString flags.port

/-- `log.Printf`, and `log.Println`. -/
def log (line : String) : Cycle Unit := emit (.log line)

/-- An operation and the test of its error: the error is logged and the cycle ends. -/
def attempt {α : Type} (conn : Nat) (op : Op) (r : Except String α) (failed : String → String) : Cycle α := do
  emit (.op conn op r.toBool)
  match r with
  | .ok a => pure a
  | .error err => do
    log (failed err)
    stop .next

/-- `xs[i]`, which panics beyond the end. -/
def index {α : Type} (xs : List α) (i : Nat) : Cycle α :=
  match xs[i]? with
  | some a => pure a
  | none => stop (.panic ("index out of range [" ++ toString i ++ "] with length " ++ toString xs.length))

/-- `hex.EncodeToString`. -/
def encodeToString (bytes : List UInt8) : List Char :=
  bytes.flatMap fun b => [Nat.digitChar (b.toNat / 16), Nat.digitChar (b.toNat % 16)]

/-- The first `length` hexadecimal digits of `length` random bytes. -/
def generateRandomString (length : Nat) (read : Except String (Vector UInt8 length)) : Cycle String :=
  match read with
  | .ok bytes => pure (String.ofList ((encodeToString bytes.toList).take length))
  | .error err => do
    log ("Failed to generate random string: " ++ err)
    stop .fatal

/-- The line about the password policy, if there is one. -/
def policyLine : Option PasswordPolicy → Option String
  | some policy =>
    if policy.expire ≥ 0 then some ("Password expires in " ++ toString policy.expire ++ " seconds")
    else if policy.grace ≥ 0 then some ("Password expired, " ++ toString policy.grace ++ " grace logins remain")
    else none
  | none => some "ppolicyControl response not available."

/-- The log of the password policy. -/
def logPolicy (policy : Option PasswordPolicy) : Cycle Unit :=
  match policyLine policy with
  | some line => log line
  | none => pure ()

/-- The log of a search result: its first entry, and the first three attributes of that. -/
def logResult (user : String) (result : SearchResult) : Cycle Unit := do
  let entry ← index result.entries 0
  emit (.logEntry user entry)
  let first ← index entry.attributes 0
  let second ← index entry.attributes 1
  let third ← index entry.attributes 2
  emit (.logAttributes user [first, second, third])

/-! ## The cycle -/

section

variable (escapeFilter : String → String) (flags : Flags)

/-- What a cycle does on its connection, named `n`, once it is dialled. `escapeFilter` is the function of the package that quotes a
name for a filter. -/
def session (n : Nat) (o : Outcomes) : Cycle Unit := do
  let policy ← attempt n (.bind flags.username flags.password) o.bind fun err =>
    "Failed to bind to LDAP server: " ++ err ++ " username: " ++ flags.username ++ " password: " ++ flags.password
  log ("Successfully authenticated to the LDAP server. username: " ++ flags.username ++ " password: " ++ flags.password)
  logPolicy policy
  let random ← generateRandomString 8 o.rand
  let randomUsername := "john_" ++ random
  let userDN := "cn=" ++ randomUsername ++ "," ++ flags.baseDN
  attempt n (.add userDN [⟨"objectClass", ["inetOrgPerson"]⟩, ⟨"cn", [randomUsername]⟩, ⟨"sn", ["Test"]⟩,
    ⟨"userPassword", ["password123"]⟩]) o.add fun err => "Failed to create a user " ++ randomUsername ++ ": " ++ err
  log ("User " ++ randomUsername ++ " created successfully.")
  attempt n (.modify userDN [.add "description" ["An example user"], .replace "mail" ["user@example.org"]]) o.modify fun err =>
    "Failed to modify the user " ++ randomUsername ++ ": " ++ err
  log ("User " ++ randomUsername ++ " modified successfully.")
  let searchResult ← attempt n (.search userDN ("(CN=" ++ escapeFilter randomUsername ++ ")")
    ["sAMAccountName", "objectClass", "sn", "userPassword"]) o.search fun err =>
    "Failed to search the user " ++ randomUsername ++ ": " ++ err
  logResult randomUsername searchResult
  attempt n (.del userDN) o.del fun err => "Failed to delete the user " ++ randomUsername ++ ": " ++ err
  log ("User " ++ randomUsername ++ " deleted successfully.")
  attempt n .unbind o.unbind fun err => "Failed to unbind: " ++ err
  log "Unbound from LDAP server."
  attempt n .close o.close fun err => "Failed to close connection: " ++ err
  log "Closed connection to LDAP server."

/-- Cycle number `n`. -/
def cycle (n : Nat) (o : Outcomes) : Cycle Unit := do
  emit (.sleep 5)
  log "---"
  log "Starting LDAP operation cycle..."
  attempt n (.dial flags.ldapURL) o.dial fun err => "Failed to dial LDAP server: " ++ err ++ " url: " ++ flags.ldapURL
  log ("Successfully connected to LDAP server at: " ++ flags.ldapURL)
  session escapeFilter flags n o

/-! ## The process -/

/-- The process between two cycles, or ended. -/
inductive Status where
  | running
  | exited
  | panicked (text : String)
  deriving DecidableEq, Repr

/-- The process after a number of cycles, and what it did so far. -/
structure State where
  cycles : Nat
  trace : List Event
  status : Status

/-- How the process goes on after a cycle. -/
def statusOf : Except Stop Unit → Status
  | .ok () | .error .next => .running
  | .error .fatal => .exited
  | .error (.panic text) => .panicked text

/-- The process at the start of its loop; without a user name or a password it does not get there. -/
def start : State :=
  if flags.username = "" ∨ flags.password = "" then
    { cycles := 0, trace := [.log "Both username and password must be provided."], status := .exited }
  else { cycles := 0, trace := [], status := .running }

/-- One cycle. -/
def step (s : State) (o : Outcomes) : Option State :=
  if s.status = .running then
    some {
      cycles := s.cycles + 1
      trace := s.trace ++ (cycle escapeFilter flags s.cycles o).events
      status := statusOf (cycle escapeFilter flags s.cycles o).result }
  else none

/-- The client, for all that its operations may return. -/
def system : Machine State Outcomes := { init := start flags, step := step escapeFilter flags }

end

/-! ## What is left behind -/

/-- The connection that an event opens. -/
def Event.opens : Event → Option Nat
  | .op conn (.dial _) true => some conn
  | _ => none

/-- The connection that an event closes: a successful unbind does, and every close. -/
def Event.closes : Event → Option Nat
  | .op conn .unbind true => some conn
  | .op conn .close _ => some conn
  | _ => none

/-- The user that an event creates. -/
def Event.creates : Event → Option String
  | .op _ (.add dn _) true => some dn
  | _ => none

/-- The user that an event tries to delete. -/
def Event.deletes : Event → Option String
  | .op _ (.del dn) _ => some dn
  | _ => none

/-- Every connection opened has been closed, and for every user created a delete has been tried since. -/
def Clean (trace : List Event) : Prop := Released Event.opens Event.closes trace ∧ Released Event.creates Event.deletes trace

/-- The search result has what the cycle logs of it. -/
def SearchResult.Complete (result : SearchResult) : Prop := ∃ entry, result.entries[0]? = some entry ∧ 3 ≤ entry.attributes.length

/-- The outcomes after which a cycle leaves nothing behind: no connection was made, or nothing failed before the connection was
unbound. -/
def Outcomes.Tidy (o : Outcomes) : Prop :=
  o.dial.toBool = false ∨
    o.bind.toBool ∧ o.rand.toBool ∧ o.add.toBool ∧ o.modify.toBool ∧
      (∃ result, o.search = .ok result ∧ result.Complete) ∧ o.del.toBool ∧ o.unbind.toBool

/-! ## What a search may return -/

/-- The name of the user that a cycle creates, for the random bytes it reads. -/
def randomUsername (bytes : Vector UInt8 8) : String := "john_" ++ String.ofList ((encodeToString bytes.toList).take 8)

/-- The distinguished name of that user. -/
def userDN (flags : Flags) (bytes : Vector UInt8 8) : String := "cn=" ++ randomUsername bytes ++ "," ++ flags.baseDN

/-- The search for that user. -/
def searchUser (escapeFilter : String → String) (flags : Flags) (bytes : Vector UInt8 8) : Op :=
  .search (userDN flags bytes) ("(CN=" ++ escapeFilter (randomUsername bytes) ++ ")")
    ["sAMAccountName", "objectClass", "sn", "userPassword"]

/-- The search of the cycle returns `result`, for the user created with `bytes` in its name: nothing before it failed. -/
structure Outcomes.Finds (o : Outcomes) (bytes : Vector UInt8 8) (result : SearchResult) : Prop where
  dial : o.dial.toBool = true
  bind : o.bind.toBool = true
  rand : o.rand = .ok bytes
  add : o.add.toBool = true
  modify : o.modify.toBool = true
  search : o.search = .ok result

/-- An event that is an operation on a connection. -/
def Event.isOperation : Event → Bool
  | .op _ _ _ => true
  | _ => false

/-- The operations that a cycle is to end with: the delete, the unbind and the close, each one if the one before succeeded. -/
def cleanup (n : Nat) (dn : String) (o : Outcomes) : List Event :=
  .op n (.del dn) o.del.toBool ::
    if o.del.toBool then
      .op n .unbind o.unbind.toBool :: if o.unbind.toBool then [.op n .close o.close.toBool] else []
    else []

/-- A piece of a cycle that ends the process with a panic. -/
def Panics {α : Type} (m : Cycle α) : Prop := ∃ text, m.result = .error (.panic text)

/-- What the cycle is to do with a search result: it does not panic, it logs the first entry and the first three of its attributes as
far as there are any, and after the search it carries out the operations of the cleanup. -/
structure Copes (escapeFilter : String → String) (flags : Flags) (n : Nat) (o : Outcomes) (bytes : Vector UInt8 8)
    (result : SearchResult) (m : Cycle Unit) : Prop where
  noPanic : ¬Panics m
  logged : ∀ entry ∈ result.entries.head?, Event.logEntry (randomUsername bytes) entry ∈ m.events ∧
    Event.logAttributes (randomUsername bytes) (entry.attributes.take 3) ∈ m.events
  cleansUp : ∃ opening, m.events.filter Event.isOperation =
    opening ++ .op n (searchUser escapeFilter flags bytes) true :: cleanup n (userDN flags bytes) o

end SockShop.Ldap
