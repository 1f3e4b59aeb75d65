import SockShop.Lib.Traced

/-!
# The SCTP server

`additions/sctp-server/example.py`: an endless loop that accepts a connection, prints what the client sends and answers every chunk of
it, until the client has no more data. Whatever happens in between, the connection is closed (`finally`); there is no `except`, so an
exception then leaves the loop and with it ends the server.

What a client does is given as a `Client`: the chunks that `recv` returns for it, whether each of them can be answered, and whether the
last `recv` returns the empty string or raises. What the server does is the trace of its events, in which a connection is named by the
number of connections accepted before it, and the exception that ended it, if one did.
-/

namespace SockShop.Sctp

/-- What `recv(999)` returns while there are data. -/
structure Chunk where
  bytes : List UInt8
  bytes_ne_nil : bytes ≠ []
  length_le : bytes.length ≤ 999

/-- A chunk received, and what comes of the `sendall` that answers it: nothing, or a socket error. -/
structure Turn where
  chunk : Chunk
  sendall : Except String Unit

/-- A client: its address and its connection as they are printed, the chunks received from it, and what comes of the last `recv`: the
empty string, or a socket error. -/
structure Client where
  address : String
  connection : String
  turns : List Turn
  ending : Except String Unit

/-- The exceptions that the body of the loop may raise. -/
inductive Exn where
  | unicodeDecodeError
  | osError (text : String)
  deriving DecidableEq, Repr

/-- What the server does: a line printed, or a call on a connection. -/
inductive Event where
  | print (line : String)
  | accept (conn : Nat)
  | sendall (conn : Nat) (text : String)
  | close (conn : Nat)
  deriving DecidableEq, Repr

/-- A piece of the server. -/
abbrev Server := Traced Event Exn

open Traced

/-- `print`. -/
def print (line : String) : Server Unit := emit (.print line)

/-- `bytes.decode()`. -/
def decode (bytes : List UInt8) : Server String :=
  match String.fromUTF8? ⟨bytes.toArray⟩ with
  | some text => pure text
  | none => stop .unicodeDecodeError

/-- A call on a socket that may raise. -/
def raising (r : Except String Unit) : Server Unit :=
  match r with
  | .ok () => pure ()
  | .error text => stop (.osError text)

/-- The inner loop, on the chunks that are left. -/
def receive (conn : Nat) (ending : Except String Unit) : List Turn → Server Unit
  | [] => do
    raising ending
    print "no more data."
  | turn :: turns => do
    let text ← decode turn.chunk.bytes
    print ("Data: " ++ text)
    emit (.sendall conn ("We recieved " ++ toString turn.chunk.bytes.length ++ " bytes from you"))
    raising turn.sendall
    receive conn ending turns

/-- The body of `try`. -/
def converse (conn : Nat) (client : Client) : Server Unit := do
  print ("connection from " ++ client.address)
  print client.connection
  receive conn client.ending client.turns

/-- The outer loop, for the clients that connect from now on: it ends without an exception where it waits for the next one. -/
def acceptLoop (conn : Nat) : List Client → Server Unit
  | [] => print "waiting for a connection"
  | client :: clients => do
    print "waiting for a connection"
    emit (.accept conn)
    andFinally (converse conn client) (emit (.close conn))
    acceptLoop (conn + 1) clients

/-- The server, for the clients that connect to it. -/
def server (clients : List Client) : Server Unit := do
  print "Start SCTP server"
  acceptLoop 0 clients

/-! ## Surviving -/

/-- The connection that an event opens. -/
def Event.opens : Event → Option Nat
  | .accept conn => some conn
  | _ => none

/-- The connection that an event closes. -/
def Event.closes : Event → Option Nat
  | .close conn => some conn
  | _ => none

/-- The server has accepted every client, has closed every connection and waits for the next one. -/
def Survives (clients : List Client) : Prop :=
  (server clients).events.filterMap Event.opens = List.range clients.length ∧
    Released Event.opens Event.closes (server clients).events ∧ (server clients).result = .ok ()

/-- A client that the server gets through with: each of its chunks is UTF-8 by itself, and no call on its socket raises. -/
def Client.Tolerated (client : Client) : Prop :=
  (∀ turn ∈ client.turns, ByteArray.IsValidUTF8 ⟨turn.chunk.bytes.toArray⟩ ∧ turn.sendall = .ok ()) ∧ client.ending = .ok ()

end SockShop.Sctp
