import SockShop.DiameterServer

/-!
# What the handlers of the Diameter server write

The rules for `Handles` follow the text of a handler: lines logged do not count, a handler that adds an AVP has to have it, and what it
writes has to be a valid answer. So a handler has done its work exactly when the request has the AVPs that it adds and the one
answer it makes is valid (`handles_handleHMR_iff`, `handles_handleACR_iff`).
-/

namespace SockShop.DiameterServer

open Traced

variable (render : Message → String) (silent : Bool) (request : Message)

/-! ## Rules -/

/-- A line logged. -/
theorem handles_log (line : String) : Handles request (emit (.log line)) := by
  refine ⟨?_, nofun⟩
  intro a ha
  cases List.mem_singleton.1 ha

/-- A line logged unless in silent mode. -/
theorem handles_logUnlessSilent (line : String) : Handles request (logUnlessSilent silent line) := by
  cases silent with
  | true => exact ⟨nofun, nofun⟩
  | false => exact handles_log request line

/-- An event, then the rest. -/
theorem handles_emit_bind (e : Event) (f : Unit → Handler Unit) :
    Handles request (emit e >>= f) ↔ (∀ a, e = .write a → a.Answers request) ∧ Handles request (f ()) := by
  have hresult : (emit e >>= f).result = (f ()).result := rfl
  simp only [Handles, hresult, events_emit_bind, List.mem_cons, eq_comm (b := e), or_imp, forall_and, and_assoc]

/-- A line logged unless in silent mode, then the rest. -/
theorem handles_logUnlessSilent_bind (line : String) (f : Unit → Handler Unit) :
    Handles request (logUnlessSilent silent line >>= f) ↔ Handles request (f ()) := by
  cases silent with
  | true => exact Iff.rfl
  | false => exact (handles_emit_bind request _ f).trans (and_iff_right nofun)

/-- The answer is all that is written at the end of a handler. -/
theorem handles_writeAnswer_iff (x : Inbound) (name : String) (a : Message) :
    Handles request (writeAnswer render silent x name a) ↔ a.Answers request := by
  rw [writeAnswer, handles_emit_bind]
  constructor
  · rintro ⟨h, -⟩
    exact h a rfl
  · intro h
    constructor
    · rintro a' ⟨⟩
      exact h
    · split
      · exact handles_log request _
      · exact handles_logUnlessSilent silent request _

/-- An AVP is put in front of an answer, if there is one. -/
theorem handles_insertAVP_bind (a : Message) (avp : Option AVP) (f : Message → Handler Unit) :
    Handles request (insertAVP a avp >>= f) ↔ ∃ y, avp = some y ∧ Handles request (f ⟨y :: a.avps⟩) := by
  cases avp with
  | none =>
    refine iff_of_false (fun h => h.2 ?_) nofun
    rw [insertAVP, stop_bind]
    rfl
  | some y => simp [insertAVP]

/-- An AVP is put at the end of an answer, if there is one. -/
theorem handles_addAVP_bind (a : Message) (avp : Option AVP) (f : Message → Handler Unit) :
    Handles request (addAVP a avp >>= f) ↔ ∃ y, avp = some y ∧ Handles request (f ⟨a.avps ++ [y]⟩) := by
  cases avp with
  | none =>
    refine iff_of_false (fun h => h.2 ?_) nofun
    rw [addAVP, stop_bind]
    rfl
  | some y => simp [addAVP]

/-- A request that cannot be parsed is only logged. -/
theorem handles_logUnparsed (x : Inbound) (err : String) : Handles request (logUnparsed render x err) := handles_log request _

/-! ## The answers -/

/-- The AVP of a request that is found by a name has that name. -/
theorem name_of_find {m : Message} {name : Name} {avp : AVP} (h : m.find name = some avp) : avp.name = name := by
  have hp := List.find?_some h
  exact of_decide_eq_true hp

/-- An AVP made of the data of a request repeats the AVP that they come from, if the request has it. -/
theorem repeats_data_iff (m : Message) (name name' : Name) (flags : UInt8) :
    Repeats (some ⟨name', flags, m.data name⟩) (m.find name) ↔ (m.find name).isSome := by
  cases h : m.find name with
  | none => simp [Repeats]
  | some y => simp [Repeats, Message.data, h]

/-- The answer of `handleHMR` is not valid: it begins with the result code. -/
theorem not_answers_hello (m : Message) (avps : List AVP) : ¬(Message.mk (⟨.resultCode, Mbit, success⟩ :: avps)).Answers m := by
  rintro ⟨⟨avp, havp, hname⟩, -, -, -⟩
  cases havp
  cases hname

/-- The answer of `handleACR` is valid exactly when the request has what its origin is made of. -/
theorem answers_accounting_iff {m : Message} {session : AVP} (h : m.find .sessionID = some session) (rest : List AVP) :
    (Message.mk (session :: ⟨.resultCode, Mbit, success⟩ :: ⟨.originHost, Mbit, m.data .destinationHost⟩ ::
      ⟨.originRealm, Mbit, m.data .destinationRealm⟩ :: rest)).Answers m ↔
      (m.find .destinationHost).isSome ∧ (m.find .destinationRealm).isSome := by
  have hname := name_of_find h
  rw [← repeats_data_iff m .destinationHost .originHost Mbit, ← repeats_data_iff m .destinationRealm .originRealm Mbit]
  generalize hanswer : Message.mk (session :: _) = a
  have hhost : a.find .originHost = some ⟨.originHost, Mbit, m.data .destinationHost⟩ := by
    simp [← hanswer, Message.find, hname]
  have hrealm : a.find .originRealm = some ⟨.originRealm, Mbit, m.data .destinationRealm⟩ := by
    simp [← hanswer, Message.find, hname]
  have hhead : a.avps.head? = some session := by rw [← hanswer, List.head?_cons]
  rw [← hhost, ← hrealm]
  constructor
  · intro ha
    exact ⟨ha.originHost, ha.originRealm⟩
  · rintro ⟨horiginHost, horiginRealm⟩
    refine ⟨⟨session, hhead, hname⟩, ?_, horiginHost, horiginRealm⟩
    rw [h, hhead]
    exact ⟨session, rfl, session, rfl, rfl⟩

/-! ## The handlers -/

/-- `handleHMR` has done its work only on a request that it cannot parse. -/
theorem handles_handleHMR_iff (x : Inbound) : Handles x.message (handleHMR render silent x) ↔ x.unmarshal.toBool = false := by
  rw [handleHMR, handles_logUnlessSilent_bind]
  cases h : x.unmarshal with
  | error err => exact iff_of_true (handles_logUnparsed render _ x err) rfl
  | ok u =>
    refine iff_of_false (fun hhandles => ?_) nofun
    exact not_answers_hello x.message _ ((handles_writeAnswer_iff render silent _ x "HMA" _).1 hhandles)

/-- `handleACR` has done its work on a request that it cannot parse, and on one that has the AVPs it needs. -/
theorem handles_handleACR_iff (x : Inbound) :
    Handles x.message (handleACR render silent x) ↔
      x.unmarshal.toBool = false ∨ Command.acr.Handleable x.message := by
  rw [handleACR, handles_logUnlessSilent_bind]
  cases h : x.unmarshal with
  | error err => exact iff_of_true (handles_logUnparsed render _ x err) (Or.inl rfl)
  | ok u =>
    simp only [handles_insertAVP_bind, handles_addAVP_bind, handles_writeAnswer_iff]
    rw [or_iff_right nofun, Command.Handleable, Message.Has]
    simp only [List.forall_mem_cons, List.not_mem_nil, false_imp_iff, implies_true, and_true]
    constructor
    · rintro ⟨session, hsession, type, htype, number, hnumber, ha⟩
      obtain ⟨hhost, hrealm⟩ := (answers_accounting_iff hsession _).1 ha
      exact ⟨Option.isSome_of_eq_some hsession, hhost, hrealm, Option.isSome_of_eq_some htype, Option.isSome_of_eq_some hnumber⟩
    · rintro ⟨hsession, hhost, hrealm, htype, hnumber⟩
      obtain ⟨session, hsession⟩ := Option.isSome_iff_exists.1 hsession
      obtain ⟨type, htype⟩ := Option.isSome_iff_exists.1 htype
      obtain ⟨number, hnumber⟩ := Option.isSome_iff_exists.1 hnumber
      exact ⟨session, hsession, type, htype, number, hnumber, (answers_accounting_iff hsession _).2 ⟨hhost, hrealm⟩⟩

end SockShop.DiameterServer
