import SockShop.Lib.Ascii
import SockShop.Lib.Machine
import SockShop.Sctp

/-!
# The SCTP client and server, joined

`additions/sctp-client/example.py` and `additions/sctp-server/example.py` as two parties. The client sends a message every three
seconds and never receives; the server answers every chunk that it receives. What either sends is under way until the other takes it,
and a send waits while as many bytes as the limit of its direction are under way.

The actions are those of the client (a failed and a successful `connect`, a send) and those of the server (`accept`, a `recv` that
returns `n` bytes, and the `sendall` of an answer). Both parties keep running and the connection holds.
-/

namespace SockShop.SctpPair

open Sctp

/-- The message number `cnt` of the client. -/
def message (cnt : Nat) : List UInt8 := utf8 ("hello world " ++ toString cnt)

/-- The answer to a chunk of `n` bytes. -/
def reply (n : Nat) : List UInt8 := utf8 ("We recieved " ++ toString n ++ " bytes from you")

/-- The two parties: the variables of the client, whether the server has accepted the connection, the chunks that it has received,
whether the last of them is still to be answered, and the exception that has ended it; and what is under way to the server (`up`) and
to the client (`down`). -/
structure State where
  connected : Bool
  cnt : Nat
  accepted : Bool
  chunks : List Chunk
  replying : Bool
  raised : Bool
  up : List UInt8
  down : List UInt8

/-- An action. -/
inductive Act where
  | connectFails
  | connects
  | sends
  | accepts
  | receives (n : Nat)
  | replies
  deriving DecidableEq, Repr

section

variable (upLimit downLimit : Nat)

/-- The server receives a chunk and decodes it. -/
def receive (s : State) (chunk : Chunk) : State :=
  { s with
    chunks := s.chunks ++ [chunk]
    up := s.up.drop chunk.bytes.length
    replying := (decode chunk.bytes).result.toBool
    raised := !(decode chunk.bytes).result.toBool }

/-- The length of the last chunk received. -/
def State.lastLength (s : State) : Nat := (s.chunks.getLast?.map (·.bytes.length)).getD 0

/-- One action. Nothing more is done once the server has ended with an exception. -/
def step (s : State) (a : Act) : Option State :=
  if s.raised then none else
  match a with
  | .connectFails => if s.connected then none else some s
  | .connects => if s.connected then none else some { s with connected := true }
  | .sends =>
    if s.connected ∧ s.up.length < upLimit then some { s with cnt := s.cnt + 1, up := s.up ++ message s.cnt } else none
  | .accepts => if s.connected ∧ s.accepted = false then some { s with accepted := true } else none
  | .receives n =>
    if s.accepted ∧ s.replying = false then
      if h : 0 < n ∧ n ≤ 999 ∧ n ≤ s.up.length then
        some (receive s {
          bytes := s.up.take n
          bytes_ne_nil := List.ne_nil_of_length_pos (by rw [List.length_take_of_le h.2.2]; exact h.1)
          length_le := by rw [List.length_take_of_le h.2.2]; exact h.2.1 })
      else none
    else none
  | .replies =>
    if s.replying ∧ s.down.length < downLimit then some { s with replying := false, down := s.down ++ reply s.lastLength }
    else none

/-- The client and the server, under every interleaving. -/
def system : Machine State Act where
  init :=
    { connected := false, cnt := 0, accepted := false, chunks := [], replying := false, raised := false, up := [], down := [] }
  step := step upLimit downLimit

/-! ## What becomes of them -/

/-- The client as the server sees it, if it has no more data after the chunks received. -/
def State.client (s : State) : Client where
  address := ""
  connection := ""
  turns := s.chunks.map fun chunk => ⟨chunk, .ok ()⟩
  ending := .ok ()

/-- What the client has sent. -/
def State.sent (s : State) : List UInt8 := (List.range s.cnt).flatMap message

/-- What the server has received. -/
def State.received (s : State) : List UInt8 := s.chunks.flatMap (·.bytes)

/-- Each of the parties waits for the other to receive: the client to send a message, the server to send an answer. -/
def State.Deadlocked (s : State) : Prop :=
  s.connected = true ∧ upLimit ≤ s.up.length ∧ s.replying = true ∧ downLimit ≤ s.down.length

/-- The most answers that the server sends before it waits for ever: each has 28 bytes or more. -/
def mostReplies : Nat := downLimit / 28 + 1

/-- The most messages that the client sends before it waits for ever: each has 13 bytes or more. -/
def mostMessages : Nat := (999 * (mostReplies downLimit + 1) + upLimit) / 13 + 1

/-- The most actions of a run, apart from failed attempts to connect. -/
def mostActions : Nat := 2 + mostMessages upLimit downLimit + (mostReplies downLimit + 1) + mostReplies downLimit

end

example : (((system 20 10).exec
    [.connects, .sends, .accepts, .sends, .receives 26, .replies, .sends, .sends, .receives 20]).map fun s =>
      (s.cnt, s.up.length, s.replying, s.down.length)) = some (4, 6, true, 29) := by decide

end SockShop.SctpPair
