import SockShop.Lib.GoChan
import SockShop.Lib.Machine

/-!
# The Diameter client

`additions/diameter-client/main.go`. The handlers of the two answers a peer may send, HMA and ACA, report to `main` through one
channel `done` of capacity 1000: `handleACA` sends on it and `handleHMA` closes it. What `main` does depends on the flags: with
`-bench` it opens `bench_clients` connections and counts receives from `done`, with `-hello` it opens one connection and waits for
one receive, and without either it keeps a connection open for ever and never receives.

The actions are those of `main` (one for each way `connect`, the sends and the wait can end) and the arrivals of messages, in any
number and order, on any connection opened so far. An arrival is one invocation of a handler, and an arrival may come while
earlier invocations are still blocked in their sends; what the package does with a connection whose handler panicked is left open,
so a run may go on after a panic.
-/

namespace SockShop.Diameter

/-- What the flags make `main` do. The counts of `-bench` are those of `-bench_clients` and `-bench_msgs`. -/
inductive Mode where
  | bench (ncli msgs : Nat)
  | hello
  | persistent
  deriving DecidableEq, Repr

/-- The messages `main` has a handler for. -/
inductive Message where
  | hma
  | aca
  deriving DecidableEq, Repr

/-- Where `main` stands: in `connect`; past it, with no message sent yet (`-hello`) or until the connection goes away (no flag); at
the `select`, after `count` receives; past its return; or ended by `log.Fatal`. -/
inductive Pc where
  | connecting
  | connected
  | waiting (count : Nat)
  | returned
  | fatal
  deriving DecidableEq, Repr

/-- The process. `opened` is the number of connections opened so far, `hmas` the number of invocations of `handleHMA`, `answers`
the number of sends of `handleACA` that `main` has received, and `panicked` whether some handler has panicked. -/
structure State where
  done : GoChan Unit
  opened : Nat
  pc : Pc
  hmas : Nat
  answers : Nat
  panicked : Bool
  backoff : Nat

/-- An action: of `main` (`connects` to `timesOut`), or the arrival of a message on connection `c`. -/
inductive Act where
  | connects
  | connectFails
  | sends
  | sendFails
  | disconnects
  | receives
  | timesOut
  | arrives (c : Nat) (m : Message)
  deriving DecidableEq, Repr

/-- The number of values of an `int`: `ncli * msgs` and `count` wrap around at it. -/
def intSize : Nat := Nat.pow 2 64

/-- The capacity of `done`. -/
def capacity : Nat := 1000

/-! ## The handlers -/

/-- `handleACA`: a send on `done`, which blocks while the channel is full. -/
def handleACA (s : State) : State :=
  match s.done.send () with
  | some done => { s with done := done }
  | none => { s with panicked := true }

/-- `handleHMA`: `done` is closed; the invocations of `handleACA` blocked on it panic, as does a second close. -/
def handleHMA (s : State) : State :=
  match s.done.close with
  | some done => { s with done := done, hmas := s.hmas + 1, panicked := s.panicked || !s.done.waiting.isEmpty }
  | none => { s with hmas := s.hmas + 1, panicked := true }

/-- The handler of a message. -/
def handle (s : State) : Message → State
  | .hma => handleHMA s
  | .aca => handleACA s

/-! ## `main` -/

/-- Where `benchmark` stands once `opened` of its `ncli` connections are open. -/
def dialled (ncli opened : Nat) : Pc := if opened = ncli then .waiting 0 else .connecting

/-- Where `main` stands after `connect` opened connection number `opened`. -/
def afterConnect (opened : Nat) : Mode → Pc
  | .bench ncli _ => dialled ncli opened
  | .hello | .persistent => .connected

/-- Where `main` stands after a receive from `done`: `benchmark` counts it and goes on until the count is the total. -/
def afterReceive (count : Nat) : Mode → Pc
  | .bench ncli msgs =>
    if (count + 1) % intSize = ncli * msgs % intSize then .returned else .waiting ((count + 1) % intSize)
  | .hello => .returned
  | .persistent => .waiting count

/-- `main` doubles the pause after a failed `connect`, up to 20 seconds. -/
def nextBackoff (backoff : Nat) : Nat := if backoff * 2 > 20 then 20 else backoff * 2

/-- The process at the start. -/
def start (mode : Mode) : State :=
  { done := GoChan.make Unit capacity
    opened := 0
    pc := match mode with
      | .bench ncli _ => dialled ncli 0
      | _ => .connecting
    hmas := 0
    answers := 0
    panicked := false
    backoff := 1 }

/-- Messages arrive while the process runs. -/
def State.running (s : State) : Bool := s.pc ≠ .returned && s.pc ≠ .fatal

/-- One action. `main` times out only when `done` has nothing to receive. -/
def step (mode : Mode) (s : State) : Act → Option State
  | .connects =>
    if s.pc = .connecting then
      some { s with
        opened := s.opened + 1
        pc := afterConnect (s.opened + 1) mode
        backoff := if mode = .persistent then 1 else s.backoff }
    else none
  | .connectFails =>
    if s.pc = .connecting then
      if mode = .persistent then some { s with backoff := nextBackoff s.backoff } else some { s with pc := .fatal }
    else none
  | .sends => if mode = .hello ∧ s.pc = .connected then some { s with pc := .waiting 0 } else none
  | .sendFails =>
    match mode, s.pc with
    | .hello, .connected | .bench _ _, .waiting _ => some { s with pc := .fatal }
    | _, _ => none
  | .disconnects => if mode = .persistent ∧ s.pc = .connected then some { s with pc := .connecting } else none
  | .receives =>
    match s.pc, s.done.recv with
    | .waiting count, some (v, done) =>
      some { s with done := done, answers := s.answers + v.toList.length, pc := afterReceive count mode }
    | _, _ => none
  | .timesOut =>
    match s.pc, s.done.recv with
    | .waiting _, none => some { s with pc := .fatal }
    | _, _ => none
  | .arrives c m => if s.running ∧ c < s.opened then some (handle s m) else none

/-- The client and what its peers send, under every interleaving. -/
def system (mode : Mode) : Machine State Act := { init := start mode, step := step mode }

/-! ## What a run did -/

/-- Whether an action is the arrival of a message `m`. -/
def Act.isArrival (m : Message) : Act → Bool
  | .arrives _ m' => m' = m
  | _ => false

/-- The number of messages `m` that arrived. -/
def arrivals (m : Message) (acts : List Act) : Nat := acts.countP (·.isArrival m)

/-- The number of receives of `main`. -/
def receives (acts : List Act) : Nat := acts.count .receives

/-- No handler has panicked and, where `main` never receives from `done`, none is blocked on it. -/
def State.Unharmed (mode : Mode) (s : State) : Prop := s.panicked = false ∧ (mode = .persistent → s.done.waiting = [])

/-- The arrivals that harm no handler: nothing arrives once an HMA has, an HMA finds no handler blocked, and without a flag at most
1000 ACAs arrive. -/
def Harmless (mode : Mode) (pre : List Act) : Act → Prop
  | .arrives _ .hma => arrivals .hma pre = 0 ∧ arrivals .aca pre ≤ capacity + receives pre
  | .arrives _ .aca => arrivals .hma pre = 0 ∧ (mode = .persistent → arrivals .aca pre < capacity)
  | _ => True

/-- An HMA arrives at `benchmark` only when `total` ACAs have been signalled: no more than what was received and what fits the
channel. -/
def LateHMA (total : Nat) (pre : List Act) (a : Act) : Prop :=
  a.isArrival .hma = true → total ≤ arrivals .aca pre ∧ total ≤ capacity + receives pre

/-- `main` takes no signal of an ACA for that of an HMA: it does not receive while an ACA has arrived and no HMA has. -/
def NoStraySignal (pre : List Act) (a : Act) : Prop := a = .receives → arrivals .aca pre = 0 ∨ 0 < arrivals .hma pre

/-- No ACA arrives before an HMA has. -/
def NoAnswerFirst (pre : List Act) (a : Act) : Prop := a.isArrival .aca = true → 0 < arrivals .hma pre

/-- The condition on the actions under which `main` takes no signal for another, by what it does. With a total of 0 `benchmark` waits for
no answer, and for its count to come to 0 again. -/
def Unmistaken : Mode → List Act → Act → Prop
  | .bench ncli msgs => if ncli * msgs = 0 then NoAnswerFirst else LateHMA (ncli * msgs)
  | .hello => NoStraySignal
  | .persistent => fun _ _ => True

/-- The answers that `main` waits for have come. -/
def State.Answered (s : State) : Mode → Prop
  | .bench ncli msgs => s.answers = ncli * msgs
  | .hello => 1 ≤ s.hmas
  | .persistent => True

/-- The total of `-bench` is no more than an `int` has values. -/
def Mode.Fits : Mode → Prop
  | .bench ncli msgs => ncli * msgs ≤ intSize
  | .hello | .persistent => True

/-- How many receives `benchmark` makes for a total: the first positive number that the count, which wraps around, cannot tell from
the total. -/
def benchmarkReceives (total : Nat) : Nat := if total % intSize = 0 then intSize else total % intSize

/-- A waiting `main` cannot time out, and its next receives make it return. -/
def Returns (mode : Mode) (acts : List Act) (s : State) : Prop :=
  step mode s .timesOut = none ∧
    ∃ n s', (system mode).exec (acts ++ List.replicate n .receives) = some s' ∧ s'.pc = .returned

/-- The total of `-bench` is one that its counter can reach: not 0, and no more than an `int` has values. -/
def Mode.Countable : Mode → Prop
  | .bench ncli msgs => 0 < ncli * msgs ∧ ncli * msgs ≤ intSize
  | .hello | .persistent => True

example : (((system (.bench 1 2)).exec [.connects, .arrives 0 .aca, .receives, .arrives 0 .aca, .receives]).map fun s =>
    (s.pc, s.answers)) = some (.returned, 2) := by decide

end SockShop.Diameter
