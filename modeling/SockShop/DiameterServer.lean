import SockShop.Lib.Traced

/-!
# The Diameter server

`additions/diameter-server/main.go`: the handlers of the two requests a peer may send, HMR and ACR. Each reads the AVPs it looks for out
of the request, makes an answer and writes it. `handleHMR` copies the values and appends them to the answer; `handleACR` takes the
AVPs themselves, which are absent (nil) when the request has none, and puts the first of them in front.

An AVP is known by its name, which stands for its code and vendor. What `Unmarshal` and `WriteTo` return is given with the request
(`Inbound`), and `render` is the text of a message.
-/

namespace SockShop.DiameterServer

abbrev Bytes := List UInt8

/-- The name of an AVP: one that the handlers use, or another. -/
inductive Name where
  | sessionID
  | originHost
  | originRealm
  | destinationHost
  | destinationRealm
  | userName
  | accountingRecordType
  | accountingRecordNumber
  | resultCode
  | other (code vendor : Nat)
  deriving DecidableEq, Repr

/-- An AVP, with its data as they are sent. -/
structure AVP where
  name : Name
  flags : UInt8
  data : Bytes
  deriving DecidableEq, Repr

/-- A message, by its AVPs. -/
structure Message where
  avps : List AVP
  deriving DecidableEq, Repr

/-- A request, the address it comes from, and what comes of `Unmarshal` on it and of `WriteTo` for its answer. -/
structure Inbound where
  remoteAddr : String
  message : Message
  unmarshal : Except String Unit
  writeTo : Except String Unit

/-- What a handler does: a line logged, or an answer written. -/
inductive Event where
  | log (line : String)
  | write (answer : Message)
  deriving DecidableEq, Repr

/-- A handler panics when it adds an AVP that is nil. -/
inductive Panic where
  | nilAVP
  deriving DecidableEq, Repr

/-- A piece of a handler. -/
abbrev Handler := Traced Event Panic

open Traced

/-! ## Messages -/

/-- The flag of an AVP that the peer must understand. -/
def Mbit : UInt8 := 0x40

/-- The result code 2001, as it is sent. -/
def success : Bytes := [0x00, 0x00, 0x07, 0xd1]

/-- The first AVP of a name. -/
def Message.find (m : Message) (name : Name) : Option AVP := m.avps.find? (·.name = name)

/-- The data of the first AVP of a name, or the zero value. -/
def Message.data (m : Message) (name : Name) : Bytes := ((m.find name).map (·.data)).getD []

/-- `m.Answer(diam.Success)`. -/
def answer : Message := ⟨[⟨.resultCode, Mbit, success⟩]⟩

/-- `a.NewAVP`, for an AVP without a vendor. -/
def Message.newAVP (a : Message) (name : Name) (flags : UInt8) (data : Bytes) : Message := ⟨a.avps ++ [⟨name, flags, data⟩]⟩

/-- `a.AddAVP`. -/
def addAVP (a : Message) : Option AVP → Handler Message
  | some avp => pure ⟨a.avps ++ [avp]⟩
  | none => stop .nilAVP

/-- `a.InsertAVP`. -/
def insertAVP (a : Message) : Option AVP → Handler Message
  | some avp => pure ⟨avp :: a.avps⟩
  | none => stop .nilAVP

/-! ## Requests -/

structure HelloRequest where
  sessionID : Bytes
  originHost : Bytes
  originRealm : Bytes
  destinationRealm : Bytes
  destinationHost : Bytes
  userName : Bytes
  deriving DecidableEq, Repr

structure AccountingRequest where
  sessionID : Option AVP
  originHost : Option AVP
  originRealm : Option AVP
  destinationRealm : Bytes
  accountingRecordType : Option AVP
  accountingRecordNumber : Option AVP
  destinationHost : Bytes
  deriving DecidableEq, Repr

/-- `m.Unmarshal(&hmr)`. -/
def unmarshalHello (m : Message) : HelloRequest where
  sessionID := m.data .sessionID
  originHost := m.data .originHost
  originRealm := m.data .originRealm
  destinationRealm := m.data .destinationRealm
  destinationHost := m.data .destinationHost
  userName := m.data .userName

/-- `m.Unmarshal(&acr)`. -/
def unmarshalAccounting (m : Message) : AccountingRequest where
  sessionID := m.find .sessionID
  originHost := m.find .originHost
  originRealm := m.find .originRealm
  destinationRealm := m.data .destinationRealm
  accountingRecordType := m.find .accountingRecordType
  accountingRecordNumber := m.find .accountingRecordNumber
  destinationHost := m.data .destinationHost

/-! ## The handlers -/

section Handlers

variable (render : Message → String) (silent : Bool)

/-- A line that is not logged in silent mode. -/
def logUnlessSilent (line : String) : Handler Unit := if silent then pure () else emit (.log line)

/-- The end of both handlers: the answer is written, which may fail. -/
def writeAnswer (x : Inbound) (name : String) (a : Message) : Handler Unit := do
  emit (.write a)
  match x.writeTo with
  | .error err => emit (.log ("Failed to write message to " ++ x.remoteAddr ++ ": " ++ err ++ "\n" ++ render a ++ "\n"))
  | .ok _ => logUnlessSilent silent ("Sent " ++ name ++ " to " ++ x.remoteAddr ++ ":\n" ++ render a)

/-- What both handlers log of a request that they cannot parse. -/
def logUnparsed (x : Inbound) (err : String) : Handler Unit :=
  emit (.log ("Failed to parse message from " ++ x.remoteAddr ++ ": " ++ err ++ "\n" ++ render x.message))

/-- `handleHMR`. -/
def handleHMR (x : Inbound) : Handler Unit := do
  logUnlessSilent silent ("Received HMR from " ++ x.remoteAddr ++ ":\n" ++ render x.message)
  match x.unmarshal with
  | .error err => logUnparsed render x err
  | .ok _ =>
    let hmr := unmarshalHello x.message
    let a := answer
    let a := a.newAVP .sessionID Mbit hmr.sessionID
    let a := a.newAVP .originHost Mbit hmr.destinationHost
    let a := a.newAVP .originRealm Mbit hmr.destinationRealm
    let a := a.newAVP .destinationRealm Mbit hmr.originRealm
    let a := a.newAVP .destinationHost Mbit hmr.originHost
    writeAnswer render silent x "HMA" a

/-- `handleACR`. -/
def handleACR (x : Inbound) : Handler Unit := do
  logUnlessSilent silent ("Received ACR from " ++ x.remoteAddr ++ "\n" ++ render x.message)
  match x.unmarshal with
  | .error err => logUnparsed render x err
  | .ok _ =>
    let acr := unmarshalAccounting x.message
    let a := answer
    let a ← insertAVP a acr.sessionID
    let a := a.newAVP .originHost Mbit acr.destinationHost
    let a := a.newAVP .originRealm Mbit acr.destinationRealm
    let a ← addAVP a acr.accountingRecordType
    let a ← addAVP a acr.accountingRecordNumber
    writeAnswer render silent x "ACA" a

/-- The two requests. -/
inductive Command where
  | hmr
  | acr
  deriving DecidableEq, Repr

/-- The handler of a request. -/
def handle : Command → Inbound → Handler Unit
  | .hmr => handleHMR render silent
  | .acr => handleACR render silent

end Handlers

/-! ## Valid answers -/

/-- The AVP `a` of an answer repeats the AVP `r` of a request: there is one, and its data are the same. -/
def Repeats (a r : Option AVP) : Prop := ∃ y ∈ r, ∃ x ∈ a, x.data = y.data

/-- A valid answer begins with the session of the request, and its origin is the request's destination. -/
structure Message.Answers (a request : Message) : Prop where
  first : ∃ x ∈ a.avps.head?, x.name = .sessionID
  sessionID : Repeats a.avps.head? (request.find .sessionID)
  originHost : Repeats (a.find .originHost) (request.find .destinationHost)
  originRealm : Repeats (a.find .originRealm) (request.find .destinationRealm)

/-- A handler has done its work on a request: every answer that it wrote is valid, and it has added no AVP that is nil. -/
def Handles (request : Message) (h : Handler Unit) : Prop :=
  (∀ a, .write a ∈ h.events → a.Answers request) ∧ h.result ≠ .error .nilAVP

/-- A message has an AVP of each of the names. -/
def Message.Has (m : Message) (names : List Name) : Prop := ∀ name ∈ names, (m.find name).isSome

/-- What a request must have to be handled: nothing helps an HMR. -/
def Command.Handleable : Command → Message → Prop
  | .hmr, _ => False
  | .acr, m => m.Has [.sessionID, .destinationHost, .destinationRealm, .accountingRecordType, .accountingRecordNumber]

end SockShop.DiameterServer
