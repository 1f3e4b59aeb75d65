import Mathlib.Algebra.Order.Ring.Nat
import SockShop.Diameter
import SockShop.DiameterServer

/-!
# The Diameter client and server, joined

`additions/diameter-client/main.go` and `additions/diameter-server/main.go` as two parties. The client opens connections to the server
and sends over each the requests that its flags call for: `sendACR` the ACRs of `-bench`, one goroutine for each connection, and
`sendHMR` the one HMR of `-hello`. The server takes the requests of a connection one after another and answers each with its handler;
the client's handlers take the answers.

The actions are those of the client's `main`, the sends, the server's handlers, the client's handlers, and a connection that breaks and
loses what is under way on it. What `Unmarshal` and `WriteTo` return on the server is chosen with each request it takes.
-/

namespace SockShop.DiameterPair

open DiameterServer

/-! ## The requests -/

/-- The identities that the client knows: its own, and those that the handshake brought of its peer. -/
structure Identities where
  originHost : Bytes
  originRealm : Bytes
  peerHost : Bytes
  peerRealm : Bytes

/-- `datatype.UTF8String`, as it is sent. -/
def utf8String (text : String) : Bytes := text.toUTF8.data.toList

/-- `datatype.Unsigned32`, as it is sent. -/
def unsigned32 (n : Nat) : Bytes :=
  [UInt8.ofNat (n / 2 ^ 24), UInt8.ofNat (n / 2 ^ 16), UInt8.ofNat (n / 2 ^ 8), UInt8.ofNat n]

/-- `eventRecord`. -/
def eventRecord : Nat := 1

section Requests

variable (ids : Identities)

/-- The request of `sendHMR`, for the number that `rand.Uint32` returns. -/
def hmr (rand : UInt32) : Message :=
  let m : Message := ⟨[]⟩
  let m := m.newAVP .sessionID Mbit (utf8String ("session;" ++ toString rand.toNat))
  let m := m.newAVP .originHost Mbit ids.originHost
  let m := m.newAVP .originRealm Mbit ids.originRealm
  let m := m.newAVP .destinationRealm Mbit ids.peerRealm
  let m := m.newAVP .destinationHost Mbit ids.peerHost
  m.newAVP .userName Mbit (utf8String "foobar")

/-- The request number `i` of `sendACR`. -/
def acr (i : Nat) : Message :=
  let m : Message := ⟨[]⟩
  let m := m.newAVP .sessionID Mbit (utf8String (toString i))
  let m := m.newAVP .originHost Mbit ids.originHost
  let m := m.newAVP .originRealm Mbit ids.originRealm
  let m := m.newAVP .destinationRealm Mbit ids.peerRealm
  let m := m.newAVP .accountingRecordType Mbit (unsigned32 eventRecord)
  let m := m.newAVP .accountingRecordNumber Mbit (unsigned32 i)
  m.newAVP .destinationHost Mbit ids.peerHost

/-- What the client sends over each of its connections, in order. -/
def script (rand : UInt32) : Diameter.Mode → List (Command × Message)
  | .bench _ msgs => (List.range msgs).map fun i => (.acr, acr ids i)
  | .hello => [(.hmr, hmr ids rand)]
  | .persistent => []

end Requests

/-! ## The system -/

/-- A connection: how many requests the client has sent over it, those under way to the server, the answers under way to the client,
oldest first, the answers that the client's handlers took, and whether the connection is broken. -/
structure Link where
  sent : Nat
  requests : List (Command × Message)
  answers : List (Diameter.Message × Message)
  delivered : List (Diameter.Message × Message)
  broken : Bool

/-- A connection just opened. -/
def Link.fresh : Link := { sent := 0, requests := [], answers := [], delivered := [], broken := false }

/-- The two parties. Connection `c` is the one that the client opened after `c` others. -/
structure State where
  client : Diameter.State
  links : Nat → Link
  serverPanicked : Bool

/-- An action: of the client's `main`, other than its sends; the next send over connection `c`; the server's handler on the next
request of `c`, with what `Unmarshal` and `WriteTo` return; the client's handler on the next answer of `c`, a message `m`; or the loss
of `c`. -/
inductive Act where
  | main (a : Diameter.Act)
  | sends (c : Nat)
  | serves (c : Nat) (unmarshal writeTo : Except String Unit)
  | delivers (c : Nat) (m : Diameter.Message)
  | breaks (c : Nat)

/-- The answer to a request, as the client knows it. -/
def answerOf : Command → Diameter.Message
  | .hmr => .hma
  | .acr => .aca

/-- The answer that an event of the server's handlers writes. -/
def written : Event → Option Message
  | .write answer => some answer
  | .log _ => none

/-- Change connection `c`. -/
def State.setLink (s : State) (c : Nat) (k : Link) : State := { s with links := Function.update s.links c k }

/-- Whether an action of the client is neither a send nor the arrival of a message. -/
def isMain : Diameter.Act → Bool
  | .sends | .arrives _ _ => false
  | _ => true

/-- The client once a request is sent: `main` sends the HMR itself; the goroutines of `-bench` send while it waits. -/
def afterSend (mode : Diameter.Mode) (client : Diameter.State) : Option Diameter.State :=
  match mode, client.pc with
  | .hello, _ => Diameter.step mode client .sends
  | .bench _ _, .waiting _ => some client
  | _, _ => none

section System

variable (ids : Identities) (rand : UInt32) (render : Message → String) (silent : Bool) (remoteAddr : Nat → String)

/-- The server takes the next request of connection `c`: the answer is under way if its handler wrote one and `WriteTo` returned no
error. -/
def serve (s : State) (c : Nat) (unmarshal writeTo : Except String Unit) : Option State :=
  match (s.links c).requests with
  | [] => none
  | (command, m) :: rest =>
    let handled := handle render silent command ⟨remoteAddr c, m, unmarshal, writeTo⟩
    let answers := (handled.events.filterMap written).map fun a => (answerOf command, a)
    some { s.setLink c { s.links c with
            requests := rest
            answers := (s.links c).answers ++ if writeTo.toBool then answers else [] } with
      serverPanicked := s.serverPanicked || !handled.result.toBool }

/-- One action. -/
def step (mode : Diameter.Mode) (s : State) : Act → Option State
  | .main a => if isMain a then (Diameter.step mode s.client a).map fun client => { s with client := client } else none
  | .sends c =>
    if c < s.client.opened ∧ (s.links c).broken = false then
      match (script ids rand mode)[(s.links c).sent]?, afterSend mode s.client with
      | some request, some client =>
        some { s.setLink c { s.links c with
                sent := (s.links c).sent + 1
                requests := (s.links c).requests ++ [request] } with
          client := client }
      | _, _ => none
    else none
  | .serves c unmarshal writeTo => serve render silent remoteAddr s c unmarshal writeTo
  | .delivers c m =>
    match (s.links c).answers with
    | (m', a) :: rest =>
      if m' = m then
        (Diameter.step mode s.client (.arrives c m)).map fun client =>
          { s.setLink c { s.links c with answers := rest, delivered := (s.links c).delivered ++ [(m', a)] } with client := client }
      else none
    | [] => none
  | .breaks c =>
    if c < s.client.opened then some (s.setLink c { s.links c with requests := [], answers := [], broken := true }) else none

/-- The client and the server, under every interleaving. -/
def system (mode : Diameter.Mode) : Machine State Act where
  init := { client := Diameter.start mode, links := fun _ => Link.fresh, serverPanicked := false }
  step := step ids rand render silent remoteAddr mode

end System

/-! ## What the client is to be answered -/

section Answers

variable (ids : Identities)

/-- The answer to the HMR. -/
def helloAnswer (rand : UInt32) : Message :=
  ⟨[⟨.resultCode, Mbit, success⟩, ⟨.sessionID, Mbit, utf8String ("session;" ++ toString rand.toNat)⟩,
    ⟨.originHost, Mbit, ids.peerHost⟩, ⟨.originRealm, Mbit, ids.peerRealm⟩,
    ⟨.destinationRealm, Mbit, ids.originRealm⟩, ⟨.destinationHost, Mbit, ids.originHost⟩]⟩

/-- The answer to the ACR number `i`. -/
def accountingAnswer (i : Nat) : Message :=
  ⟨[⟨.sessionID, Mbit, utf8String (toString i)⟩, ⟨.resultCode, Mbit, success⟩,
    ⟨.originHost, Mbit, ids.peerHost⟩, ⟨.originRealm, Mbit, ids.peerRealm⟩,
    ⟨.accountingRecordType, Mbit, unsigned32 eventRecord⟩, ⟨.accountingRecordNumber, Mbit, unsigned32 i⟩]⟩

/-- The answers to all that the client sends over a connection, in order. -/
def answers (rand : UInt32) : Diameter.Mode → List (Diameter.Message × Message)
  | .bench _ msgs => (List.range msgs).map fun i => (.aca, accountingAnswer ids i)
  | .hello => [(.hma, helloAnswer ids rand)]
  | .persistent => []

end Answers

/-- An action of a run in which nothing fails. -/
def Act.Succeeds : Act → Prop
  | .main a => a = .connects ∨ a = .receives
  | .sends _ | .delivers _ _ => True
  | .serves _ unmarshal writeTo => unmarshal = .ok () ∧ writeTo = .ok ()
  | .breaks _ => False

/-- How many connections the client is to open. -/
def conns : Diameter.Mode → Nat
  | .bench ncli _ => ncli
  | .hello | .persistent => 1

/-- How many actions it takes when nothing fails: the connections are opened, and each message is sent, served, delivered and
received. -/
def actions (ids : Identities) (rand : UInt32) (mode : Diameter.Mode) : Nat :=
  conns mode + 4 * (conns mode * (script ids rand mode).length)

end SockShop.DiameterPair
