import SockShop.Lemmas.DiameterServer

/-!
# The answers of the Diameter server

`handleACR` gives a valid answer exactly to the requests that have the AVPs it adds and those its origin is made of; without one that
it adds, it panics. `handleHMR` appends everything behind the result code, so none of its answers begins with the session
(`handles_iff`).
-/

namespace SockShop.DiameterServer

/-- A handler writes only valid answers to a request and adds no AVP that is nil, if and only if the request cannot be parsed or is an
ACR with the AVPs `Session-Id`, `Destination-Host`, `Destination-Realm`, `Accounting-Record-Type` and `Accounting-Record-Number`. -/
theorem handles_iff (render : Message → String) (silent : Bool) (command : Command) (x : Inbound) :
    Handles x.message (handle render silent command x) ↔ x.unmarshal.toBool = false ∨ command.Handleable x.message := by
  cases command with
  | hmr =>
    rw [handle, handles_handleHMR_iff]
    exact (or_iff_left id).symm
  | acr => exact handles_handleACR_iff render silent x

/-- An HMR with all the AVPs that are looked for. -/
def hello : Message :=
  ⟨[⟨.sessionID, Mbit, [0x73]⟩, ⟨.originHost, Mbit, [0x63]⟩, ⟨.originRealm, Mbit, [0x67]⟩, ⟨.destinationRealm, Mbit, [0x67]⟩,
    ⟨.destinationHost, Mbit, [0x76]⟩, ⟨.userName, Mbit, [0x66]⟩]⟩

/-- An ACR without a session. -/
def sessionless : Message := ⟨[⟨.destinationHost, Mbit, [0x76]⟩, ⟨.destinationRealm, Mbit, [0x67]⟩]⟩

/-- A request that can be parsed and answered. -/
def inbound (m : Message) : Inbound := ⟨"10.0.0.7:40000", m, .ok (), .ok ()⟩

/-- The answer to the HMR begins with the result code, and the handler of the ACR adds an AVP that is nil. -/
theorem result_code_first_and_nil_added :
    (handle (fun _ => "") true .hmr (inbound hello)).events =
      [.write ⟨[⟨.resultCode, Mbit, success⟩, ⟨.sessionID, Mbit, [0x73]⟩, ⟨.originHost, Mbit, [0x76]⟩,
        ⟨.originRealm, Mbit, [0x67]⟩, ⟨.destinationRealm, Mbit, [0x67]⟩, ⟨.destinationHost, Mbit, [0x63]⟩]⟩] ∧
    ¬Handles hello (handle (fun _ => "") true .hmr (inbound hello)) ∧
    (handle (fun _ => "") true .acr (inbound sessionless)).result = .error .nilAVP ∧
    ¬Handles sessionless (handle (fun _ => "") true .acr (inbound sessionless)) := by
  have hnil : (handle (fun _ => "") true .acr (inbound sessionless)).result = .error .nilAVP := by rfl
  refine ⟨by rfl, ?_, hnil, fun h => h.2 hnil⟩
  intro h
  cases (handles_handleHMR_iff (fun _ => "") true (inbound hello)).1 h

end SockShop.DiameterServer
