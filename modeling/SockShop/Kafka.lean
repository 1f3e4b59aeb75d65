import SockShop.Lib.Budget

/-!
# The Kafka clients

`additions/kafka-go`: `run.sh` runs `produce`, `consume`, `create_topics` and `list_topics` again and again. `produce` appends three
messages to the one partition of the topic; `consume` dials the partition anew, reads one batch of it from its first offset into one
buffer, and prints the buffer after every read. `create_topics` and `list_topics` leave the partition as it is.

The log keeps everything. Other clients may append to it at any time; a message is known by its offset.
-/

namespace SockShop.Kafka

abbrev Bytes := List UInt8

/-- The bytes of an ASCII text. -/
def bytes (text : String) : Bytes := text.toList.map fun c => UInt8.ofNat c.toNat

/-- A header of a message. -/
structure Header where
  key : String
  value : Bytes
  deriving DecidableEq, Repr

/-- A message. -/
structure Message where
  key : Bytes
  value : Bytes
  headers : List Header
  deriving DecidableEq, Repr

/-- The package and the broker: how many bytes a message takes in a batch, and what `ReadBatch` on a new connection delivers of a log
for a least and a greatest number of bytes. It delivers consecutive messages from the first offset, the first one in any case and no more
than the greatest number of bytes, and it leaves out none that this number still allows. -/
structure Broker where
  size : Message → Nat
  readBatch : Nat → Nat → List Message → List Message
  isBatch : ∀ minBytes maxBytes log, Budget.IsBatch size maxBytes log (readBatch minBytes maxBytes log)

/-! ## `produce` -/

/-- The messages that `produce` writes. -/
def produced : List Message :=
  [⟨bytes "key-one", bytes "one!", [⟨"hdr1", bytes "val1"⟩]⟩,
    ⟨bytes "key-two", bytes "two!", [⟨"hdr2", bytes "val2"⟩]⟩,
    ⟨bytes "key-three", bytes "three!", [⟨"hdr3", bytes "val3"⟩]⟩]

/-! ## `consume` -/

/-- 10KB: the least size of the batch, and the size of the buffer. -/
def minBytes : Nat := 10000

/-- 1MB: the greatest size of the batch. -/
def maxBytes : Nat := 1000000

/-- The buffer before the first read. -/
def emptyBuffer : Bytes := List.replicate minBytes 0

/-- A message that was read, by its offset, and the buffer that was printed for it. -/
structure Reading where
  offset : Nat
  printed : Bytes
  deriving DecidableEq, Repr

/-- `batch.Read`: the value in front of what the buffer held, or an error for a value longer than the buffer. -/
def read (buffer : Bytes) (m : Message) : Option Bytes :=
  if m.value.length ≤ buffer.length then some (m.value ++ buffer.drop m.value.length) else none

/-- The loop over the messages of the batch, from `offset` on. It ends with the first error, or with the batch. -/
def readLoop (offset : Nat) (buffer : Bytes) : List Message → List Reading
  | [] => []
  | m :: rest =>
    match read buffer m with
    | some buffer' => ⟨offset, buffer'⟩ :: readLoop (offset + 1) buffer' rest
    | none => []

/-- What `consume` reads of a log. -/
def consume (B : Broker) (log : List Message) : List Reading := readLoop 0 emptyBuffer (B.readBatch minBytes maxBytes log)

/-- What is printed for the messages of a batch, one line each. -/
def printed (batch : List Message) : List Bytes := (readLoop 0 emptyBuffer batch).map (·.printed)

/-- For every message of the batch, in order, its value is printed. -/
def PrintsValues (batch : List Message) : Prop := printed batch = batch.map (·.value)

/-! ## `run.sh` -/

/-- What other clients append before the `produce` of a cycle, and between its `produce` and its `consume`. -/
structure Others where
  before : List Message
  between : List Message
  deriving DecidableEq, Repr

/-- Nothing. -/
def alone : Others := ⟨[], []⟩

/-- A cycle: the offset of the first message it produced, and what it read. -/
structure Cycle where
  first : Nat
  readings : List Reading
  deriving DecidableEq, Repr

/-- The log, and the cycles so far. -/
structure State where
  log : List Message
  cycles : List Cycle
  deriving DecidableEq, Repr

/-- One cycle of the loop. -/
def cycle (B : Broker) (s : State) (o : Others) : State :=
  let log := s.log ++ o.before ++ produced ++ o.between
  { log := log, cycles := s.cycles ++ [⟨(s.log ++ o.before).length, consume B log⟩] }

/-- The loop, on a log that holds `initial` at the start. -/
def run (B : Broker) (initial : List Message) (others : List Others) : State :=
  others.foldl (cycle B) ⟨initial, []⟩

/-! ## What a cycle reads of its own messages -/

/-- The cycle reads the message number `i` of those it produced. -/
def Cycle.Reads (c : Cycle) (i : Nat) : Prop := c.first + i ∈ c.readings.map (·.offset)

/-- The cycle reads all that it produced. -/
def Cycle.Complete (c : Cycle) : Prop := ∀ i, i < produced.length → c.Reads i

/-- The message at an offset is within reach of `consume`: the log up to it fits one batch, or it is the first message, and no value
up to it is longer than the buffer. -/
def InReach (B : Broker) (log : List Message) (offset : Nat) : Prop :=
  (offset = 0 ∨ Budget.total B.size (log.take (offset + 1)) ≤ maxBytes) ∧
    ∀ m ∈ log.take (offset + 1), m.value.length ≤ minBytes

end SockShop.Kafka
