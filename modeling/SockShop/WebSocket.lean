import Mathlib.Logic.Function.Basic
import SockShop.Lib.Machine

/-!
# The WebSocket client and the echo server

`additions/websocket-client/example.py` and `additions/websocket-server/server.py`. The client sends numbered messages over a
connection and reads one response to each; when a send or a receive raises, it closes the connection and goes on over a new one.
The server runs one coroutine `echo` per connection, which answers every message it takes with its echo.

The two are joined by a sequence of connections. A connection has a channel of frames in each direction, first in, first out, and
stays when the client has left it: the server may still be serving it. The actions are those of the client (one for each way
`connect`, `send` and `recv` can end), those of the coroutine of a connection, and those of the environment: a server that closes
a connection, and a connection that is lost. What was under way on it before may still arrive, or not. Where `recv` refuses a frame, as
it does with `--compressed`, it raises as on a connection that is lost, and that is what the connection is here.
-/

namespace SockShop.WebSocket

/-- A text message on a connection. `attempt` is the number of the send that the text goes back to; it is not on the wire, it
tells apart the copies of one text. -/
structure Msg where
  text : String
  attempt : Nat
  deriving DecidableEq, Repr

/-- What a channel carries: a text message, or the frame that closes the connection. -/
inductive Frame where
  | data (m : Msg)
  | close
  deriving DecidableEq, Repr

/-- Where the coroutine `echo` of a connection stands: at the `async for`, at the `send` of the echo of a message, or past its
end. -/
inductive Handler where
  | idle
  | echoing (m : Msg)
  | ended
  deriving DecidableEq, Repr

/-- A connection: the frames under way in each direction, oldest first, its coroutine on the server, whether the server has sent
its close frame, and whether the connection is lost. -/
structure Conn where
  toServer : List Frame
  toClient : List Frame
  handler : Handler
  closing : Bool
  lost : Bool
  deriving DecidableEq, Repr

/-- Where the client stands: in `connect`, at the top of the loop of `run`, or between the `send` and the `recv` of an iteration
that sent message `number` (the send numbered `attempt`). -/
inductive Pc where
  | connecting
  | sending
  | receiving (number attempt : Nat)
  deriving DecidableEq, Repr

/-- A response that `run` read: the number its iteration sent and the number of that send, the text read, and the send that the
text goes back to (none for the empty string that stands for a close frame). -/
structure Response where
  number : Nat
  attempt : Nat
  text : String
  origin : Option Nat
  deriving DecidableEq, Repr

/-- The two parties and their connections. `ws` is the connection the client uses, `opened` the number of connections opened,
`sends` the number of messages handed to a connection, and `responses` what the client has read, oldest first. -/
structure State where
  conns : Nat → Conn
  opened : Nat
  ws : Nat
  pc : Pc
  messageCount : Nat
  sends : Nat
  responses : List Response

/-- The text of message number `k`. -/
def message (k : Nat) : String := "Hello, Server (Message " ++ toString k ++ ")"

/-- The text the server answers to a text. -/
def echoOf (text : String) : String := "Echo: " ++ text

/-! ## Connections -/

namespace Conn

/-- A connection just opened. -/
def fresh : Conn := { toServer := [], toClient := [], handler := .idle, closing := false, lost := false }

/-- The client hands a message to the connection. -/
def hand (k : Conn) (m : Msg) : Conn := { k with toServer := k.toServer ++ [.data m] }

/-- `ws.close()`: the client leaves the connection with a close frame. -/
def leave (k : Conn) : Conn := { k with toServer := k.toServer ++ [.close] }

/-- The server sends its close frame, once. -/
def serverClose (k : Conn) : Conn :=
  if k.closing then k else { k with toClient := k.toClient ++ [.close], closing := true }

/-- The `async for` of the coroutine: it takes the next message, unless the server has closed the connection, or finds the client's
close frame, answers it and ends. -/
def take (k : Conn) : Option Conn :=
  match k.handler, k.toServer with
  | .idle, .data m :: rest => if k.closing then none else some { k with toServer := rest, handler := .echoing m }
  | .idle, .close :: rest => some { k.serverClose with toServer := rest, handler := .ended }
  | _, _ => none

/-- The `send` of the coroutine: the echo of the message taken, or `ConnectionClosed` when the server has closed the connection,
which ends the coroutine. -/
def echo (k : Conn) : Option Conn :=
  match k.handler with
  | .echoing m =>
    if k.closing then some { k with handler := .ended }
    else some { k with toClient := k.toClient ++ [.data ⟨echoOf m.text, m.attempt⟩], handler := .idle }
  | _ => none

end Conn

/-! ## The system -/

/-- An action: of the client (`connects` to `recvRaises`), or of the server and the environment on connection `c`. -/
inductive Act where
  | connectRaises
  | connects
  | sends
  | sendRaises
  | receives
  | readsClose
  | recvRaises
  | takes (c : Nat)
  | echoes (c : Nat)
  | closes (c : Nat)
  | loses (c : Nat)
  deriving DecidableEq, Repr

namespace State

/-- The connection the client uses. -/
def conn (s : State) : Conn := s.conns s.ws

/-- Change connection `c`. -/
def setConn (s : State) (c : Nat) (k : Conn) : State := { s with conns := Function.update s.conns c k }

/-- The `except` branch: close the connection and go to `connect`. -/
def reconnect (s : State) : State := { s.setConn s.ws s.conn.leave with pc := .connecting }

/-- The rest of an iteration after `recv` returned `text`: the response is recorded and the counter goes up. -/
def respond (s : State) (number attempt : Nat) (text : String) (origin : Option Nat) : State :=
  { s with
    responses := s.responses ++ [⟨number, attempt, text, origin⟩]
    messageCount := s.messageCount + 1
    pc := .sending }

end State

/-- The system at the start: the client in its first `connect`, the counter at 1. -/
def start : State :=
  { conns := fun _ => Conn.fresh, opened := 0, ws := 0, pc := .connecting, messageCount := 1, sends := 0, responses := [] }

/-- One action of the client. `recv` returns the text of the next data frame, or the empty string for a close frame, and raises only
on a connection that is lost. -/
def clientStep (s : State) : Act → Option State
  | .connectRaises => if s.pc = .connecting then some s else none
  | .connects =>
    if s.pc = .connecting then
      some { s.setConn s.opened Conn.fresh with ws := s.opened, opened := s.opened + 1, pc := .sending }
    else none
  | .sends =>
    if s.pc = .sending then
      some { s.setConn s.ws (s.conn.hand ⟨message s.messageCount, s.sends⟩) with
        sends := s.sends + 1, pc := .receiving s.messageCount s.sends }
    else none
  | .sendRaises => if s.pc = .sending then some s.reconnect else none
  | .receives =>
    match s.pc, s.conn.toClient with
    | .receiving number attempt, .data m :: rest =>
      some ((s.setConn s.ws { s.conn with toClient := rest }).respond number attempt m.text (some m.attempt))
    | _, _ => none
  | .readsClose =>
    match s.pc, s.conn.toClient with
    | .receiving number attempt, .close :: rest =>
      some ((s.setConn s.ws { s.conn with toClient := rest }).respond number attempt "" none)
    | _, _ => none
  | .recvRaises =>
    match s.pc with
    | .receiving _ _ => if s.conn.lost then some s.reconnect else none
    | _ => none
  | _ => none

/-- One action on connection `c` of the server or the environment. -/
def connStep (k : Conn) : Act → Option Conn
  | .takes _ => k.take
  | .echoes _ => k.echo
  | .closes _ => some k.serverClose
  | .loses _ => some { k with lost := true }
  | _ => none

/-- One action of the system. The actions on a connection need it to have been opened. -/
def step (s : State) : Act → Option State
  | a@(.takes c) | a@(.echoes c) | a@(.closes c) | a@(.loses c) =>
    if c < s.opened then (connStep (s.conns c) a).map (s.setConn c) else none
  | a => clientStep s a

/-- The client and the server, under every interleaving. -/
def system : Machine State Act := { init := start, step := step }

/-- No message number is skipped: the client has received the echo of every message below the counter. -/
def NoneSkipped (s : State) : Prop :=
  ∀ k, 1 ≤ k → k < s.messageCount → echoOf (message k) ∈ s.responses.map (·.text)

example : ((system.exec [.connects, .sends, .takes 0, .echoes 0, .receives]).map (·.responses)) =
    some [⟨1, 0, "Echo: Hello, Server (Message 1)", some 0⟩] := by decide

end SockShop.WebSocket
