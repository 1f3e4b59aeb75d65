import SockShop.Lemmas.Sctp
import SockShop.SctpPair

/-!
# What passes between the SCTP client and server

The client's messages and the server's answers are ASCII, so a chunk can be decoded wherever `recv` has cut it off. Nothing is received
from `down`: its length counts the answers, and these bound what the server receives and so what the client can send.
-/

namespace SockShop.SctpPair

open Sctp

/-! ## The texts -/

theorem length_toString_pos (n : Nat) : 0 < (toString n).length := by
  rw [← String.length_toList, Nat.toString_eq_repr, Nat.toList_repr]
  exact Nat.length_toDigits_pos

theorem ascii_literal {text : String} (h : text.toList.all (·.toNat < 128) = true) : AsciiText text := by
  simpa [AsciiText, List.all_eq_true] using h

theorem asciiText_message (cnt : Nat) : AsciiText ("hello world " ++ toString cnt) :=
  (ascii_literal (by decide)).append (AsciiText.ofNat cnt)

theorem asciiText_reply (n : Nat) : AsciiText ("We recieved " ++ toString n ++ " bytes from you") :=
  ((ascii_literal (by decide)).append (AsciiText.ofNat n)).append (ascii_literal (by decide))

theorem ascii_message (cnt : Nat) : Ascii (message cnt) := (asciiText_message cnt).ascii

theorem length_message (cnt : Nat) : 13 ≤ (message cnt).length := by
  have hpos := length_toString_pos cnt
  rw [message, (asciiText_message cnt).length_utf8, String.length_append]
  change 13 ≤ 12 + (toString cnt).length
  omega

theorem length_reply (n : Nat) : 28 ≤ (reply n).length := by
  have hpos := length_toString_pos n
  rw [reply, (asciiText_reply n).length_utf8, String.length_append, String.length_append]
  change 28 ≤ 12 + (toString n).length + 15
  omega

/-- Everything that the client sends is ASCII. -/
theorem ascii_sent (s : State) : Ascii s.sent := by
  intro b hb
  obtain ⟨cnt, -, hb⟩ := List.mem_flatMap.1 hb
  exact ascii_message cnt b hb

/-- Parts of at least `n` each. -/
theorem mul_length_le_length_flatMap {α β : Type} {f : α → List β} {n : Nat} (h : ∀ a, n ≤ (f a).length) (xs : List α) :
    n * xs.length ≤ (xs.flatMap f).length := by
  induction xs with
  | nil => exact Nat.le_refl _
  | cons x xs ih =>
    have hx := h x
    rw [List.flatMap_cons, List.length_append, List.length_cons, Nat.mul_succ]
    omega

/-- Parts of at most `n` each. -/
theorem length_flatMap_le_mul_length {α β : Type} {f : α → List β} {n : Nat} (h : ∀ a, (f a).length ≤ n) (xs : List α) :
    (xs.flatMap f).length ≤ n * xs.length := by
  induction xs with
  | nil => exact Nat.le_refl _
  | cons x xs ih =>
    have hx := h x
    rw [List.flatMap_cons, List.length_append, List.length_cons, Nat.mul_succ]
    omega

theorem length_sent (s : State) : 13 * s.cnt ≤ s.sent.length := by
  simpa [State.sent] using mul_length_le_length_flatMap length_message (List.range s.cnt)

theorem length_received (s : State) : s.received.length ≤ 999 * s.chunks.length :=
  length_flatMap_le_mul_length Chunk.length_le s.chunks

/-! ## What a step does -/

section

variable {upLimit downLimit : Nat}

variable (upLimit downLimit) in
/-- One action that the pair can take. -/
inductive Moves (s : State) : Act → State → Prop where
  | connectFails (hc : s.connected = false) : Moves s .connectFails s
  | connects (hc : s.connected = false) : Moves s .connects { s with connected := true }
  | sends (hc : s.connected = true) (hu : s.up.length < upLimit) :
      Moves s .sends { s with cnt := s.cnt + 1, up := s.up ++ message s.cnt }
  | accepts (hc : s.connected = true) (ha : s.accepted = false) : Moves s .accepts { s with accepted := true }
  | receives {n : Nat} {chunk : Chunk} (ha : s.accepted = true) (hr : s.replying = false) (hb : chunk.bytes = s.up.take n)
      (hn : chunk.bytes.length = n) : Moves s (.receives n) (receive s chunk)
  | replies (hr : s.replying = true) (hd : s.down.length < downLimit) :
      Moves s .replies { s with replying := false, down := s.down ++ reply s.lastLength }

/-- Every step is one of these moves. -/
theorem moves_of_step {s s' : State} {a : Act} (h : step upLimit downLimit s a = some s') : Moves upLimit downLimit s a s' := by
  unfold step at h
  split at h
  · cases h
  · cases a with
    | connectFails =>
      simp only [Option.ite_none_left_eq_some, Bool.not_eq_true, Option.some.injEq] at h
      obtain ⟨hc, rfl⟩ := h
      exact .connectFails hc
    | connects =>
      simp only [Option.ite_none_left_eq_some, Bool.not_eq_true, Option.some.injEq] at h
      obtain ⟨hc, rfl⟩ := h
      exact .connects hc
    | sends =>
      simp only [Option.ite_none_right_eq_some, Option.some.injEq] at h
      obtain ⟨⟨hc, hu⟩, rfl⟩ := h
      exact .sends hc hu
    | accepts =>
      simp only [Option.ite_none_right_eq_some, Option.some.injEq] at h
      obtain ⟨⟨hc, ha⟩, rfl⟩ := h
      exact .accepts hc ha
    | receives n =>
      simp only [Option.ite_none_right_eq_some] at h
      obtain ⟨⟨ha, hr⟩, h⟩ := h
      split at h
      · rename_i hn
        cases h
        exact .receives ha hr rfl (List.length_take_of_le hn.2.2)
      · cases h
    | replies =>
      simp only [Option.ite_none_right_eq_some, Option.some.injEq] at h
      obtain ⟨⟨hr, hd⟩, rfl⟩ := h
      exact .replies hr hd

/-! ## The invariant -/

variable (upLimit downLimit) in
/-- The invariant: no byte is lost, no exception is raised, and each limit bounds what is done. -/
structure Inv (s : State) : Prop where
  stream : s.received ++ s.up = s.sent
  raised : s.raised = false
  connected : s.accepted = true ∨ 0 < s.cnt → s.connected = true
  accepted : s.replying = true → s.accepted = true
  replied : 28 * s.chunks.length ≤ s.down.length + 28 * s.replying.toNat
  chunks_le : s.chunks.length ≤ mostReplies downLimit + s.replying.toNat
  cnt_le : 13 * s.cnt ≤ s.received.length + upLimit + 13

theorem inv_start : Inv upLimit downLimit (system upLimit downLimit).init where
  stream := rfl
  raised := rfl
  connected := by simp [system]
  accepted := nofun
  replied := Nat.zero_le _
  chunks_le := Nat.zero_le _
  cnt_le := Nat.zero_le _

/-- Every chunk under way to the server can be decoded. -/
theorem Inv.decodes {s : State} (hi : Inv upLimit downLimit s) {bytes : List UInt8} (hb : bytes ⊆ s.up) :
    ByteArray.IsValidUTF8 ⟨bytes.toArray⟩ := by
  refine Ascii.isValidUTF8 ((ascii_sent s).mono ?_)
  rw [← hi.stream]
  exact List.Subset.trans hb (List.subset_append_right _ _)

theorem decode_toBool {bytes : List UInt8} (h : ByteArray.IsValidUTF8 ⟨bytes.toArray⟩) : (decode bytes).result.toBool = true := by
  obtain ⟨text, htext⟩ := (decode_eq_ok_iff bytes).2 h
  rw [htext]
  rfl

/-- A chunk of what is under way is received. -/
theorem inv_receive {s : State} (hi : Inv upLimit downLimit s) (ha : s.accepted = true) (hr : s.replying = false) {n : Nat}
    {chunk : Chunk} (hb : chunk.bytes = s.up.take n) (hn : chunk.bytes.length = n) : Inv upLimit downLimit (receive s chunk) := by
  have hdecode := decode_toBool (hi.decodes (hb ▸ List.take_subset n s.up))
  have hreceived : (receive s chunk).received = s.received ++ chunk.bytes := by
    rw [State.received, receive, List.flatMap_append, List.flatMap_singleton]
    rfl
  have hreplied := hi.replied
  have hchunks := hi.chunks_le
  have hcnt := hi.cnt_le
  rw [hr] at hreplied hchunks
  refine ⟨?_, ?_, hi.connected, fun _ => ha, ?_, ?_, ?_⟩
  · rw [hreceived, List.append_assoc]
    simp only [receive, hn]
    rw [hb, List.take_append_drop]
    exact hi.stream
  · simp [receive, hdecode]
  · simp only [receive, hdecode, List.length_append, List.length_singleton, Bool.toNat_true, Bool.toNat_false] at hreplied ⊢
    omega
  · simp only [receive, hdecode, List.length_append, List.length_singleton, Bool.toNat_true, Bool.toNat_false] at hchunks ⊢
    omega
  · rw [hreceived, List.length_append]
    simp only [receive]
    omega

theorem inv_step {s s' : State} {a : Act} (hi : Inv upLimit downLimit s) (h : step upLimit downLimit s a = some s') :
    Inv upLimit downLimit s' := by
  cases moves_of_step h with
  | connectFails _ => exact hi
  | connects _ => exact { hi with connected := fun _ => rfl }
  | sends hc hu =>
    have hsent : (List.range (s.cnt + 1)).flatMap message = s.sent ++ message s.cnt := by
      rw [List.range_succ, List.flatMap_append, List.flatMap_singleton]
      rfl
    have hlen := congrArg List.length hi.stream
    have hle := length_sent s
    rw [List.length_append] at hlen
    refine { hi with stream := ?_, connected := fun _ => hc, cnt_le := ?_ }
    · change s.received ++ (s.up ++ message s.cnt) = (List.range (s.cnt + 1)).flatMap message
      rw [hsent, ← List.append_assoc, hi.stream]
    · change 13 * (s.cnt + 1) ≤ s.received.length + upLimit + 13
      omega
  | accepts hc _ => exact { hi with connected := fun _ => hc, accepted := fun _ => rfl }
  | receives ha hr hb hn => exact inv_receive hi ha hr hb hn
  | replies hr hd =>
    have hreplied := hi.replied
    have hchunks := hi.chunks_le
    have hlen := length_reply s.lastLength
    rw [hr, Bool.toNat_true] at hreplied hchunks
    refine { hi with accepted := nofun, replied := ?_, chunks_le := ?_ }
    · simp only [Bool.toNat_false, List.length_append]
      omega
    · simp only [Bool.toNat_false, mostReplies]
      omega

theorem inv_of_exec : ∀ acts s, (system upLimit downLimit).exec acts = some s → Inv upLimit downLimit s :=
  (system upLimit downLimit).invariant_state (Inv upLimit downLimit) inv_start fun _ _ _ hi h => inv_step hi h

/-! ## Counting the actions -/

/-- The number of actions other than failed attempts to connect. -/
def progress (acts : List Act) : Nat := acts.countP (· ≠ .connectFails)

theorem progress_snoc (acts : List Act) (a : Act) :
    progress (acts ++ [a]) = progress acts + if a = .connectFails then 0 else 1 := by
  by_cases h : a = .connectFails <;> simp [progress, List.countP_append, h]

/-- Every action leaves its mark on the state. -/
theorem progress_eq :
    ∀ acts s, (system upLimit downLimit).exec acts = some s →
      progress acts + s.replying.toNat = s.connected.toNat + s.accepted.toNat + s.cnt + 2 * s.chunks.length := by
  apply (system upLimit downLimit).invariant
  · rfl
  · intro acts s a s' hs ih ha
    have hi := inv_of_exec acts s hs
    rw [progress_snoc]
    cases moves_of_step ha with
    | connectFails _ => exact ih
    | connects hc =>
      simp only [hc, Bool.toNat_false, Bool.toNat_true, reduceCtorEq, if_false] at ih ⊢
      omega
    | sends _ _ =>
      simp only [reduceCtorEq, if_false]
      omega
    | accepts _ hacc =>
      simp only [hacc, Bool.toNat_false, Bool.toNat_true, reduceCtorEq, if_false] at ih ⊢
      omega
    | receives hacc hr hb hn =>
      have hdecode := decode_toBool (hi.decodes (hb ▸ List.take_subset _ s.up))
      simp only [receive, hdecode, hr, Bool.toNat_false, Bool.toNat_true, reduceCtorEq, if_false, List.length_append,
        List.length_singleton] at ih ⊢
      omega
    | replies hr _ =>
      simp only [hr, Bool.toNat_false, Bool.toNat_true, reduceCtorEq, if_false] at ih ⊢
      omega

/-- The limits bound the actions of a run. -/
theorem progress_le {acts : List Act} {s : State} (h : (system upLimit downLimit).exec acts = some s) :
    progress acts ≤ mostActions upLimit downLimit := by
  have hi := inv_of_exec acts s h
  have hprogress := progress_eq acts s h
  have hchunks := hi.chunks_le
  have hcnt := hi.cnt_le
  have hreceived := length_received s
  have hconnected := s.connected.toNat_le
  have haccepted := s.accepted.toNat_le
  have hreplying := s.replying.toNat_le
  have hmessages : s.cnt ≤ mostMessages upLimit downLimit := by
    rw [mostMessages]
    omega
  rw [mostActions]
  omega

/-! ## Where nothing can be done -/

/-- Where nothing but failed attempts to connect can be done, each party waits for the other, and then not even these. -/
theorem stuck_iff (hup : 0 < upLimit) {s : State} (hi : Inv upLimit downLimit s) :
    (∀ a, a ≠ .connectFails → step upLimit downLimit s a = none) ↔ s.Deadlocked upLimit downLimit := by
  constructor
  · intro hstuck
    have hconnects := hstuck .connects nofun
    have hsends := hstuck .sends nofun
    have haccepts := hstuck .accepts nofun
    have hreceives := hstuck (.receives 1) nofun
    have hreplies := hstuck .replies nofun
    simp only [step, hi.raised, Bool.false_eq_true, if_false] at hconnects hsends haccepts hreceives hreplies
    have hc : s.connected = true := by simpa using hconnects
    have hu : upLimit ≤ s.up.length := by simpa [hc] using hsends
    have ha : s.accepted = true := by simpa [hc] using haccepts
    have hr : s.replying = true := by
      have hlen : 1 ≤ s.up.length := Nat.le_trans hup hu
      simpa [ha, hlen] using hreceives
    have hd : downLimit ≤ s.down.length := by simpa [hr] using hreplies
    exact ⟨hc, hu, hr, hd⟩
  · rintro ⟨hc, hu, hr, hd⟩ a ha
    cases a with
    | connectFails => exact absurd rfl ha
    | connects => simp [step, hi.raised, hc]
    | sends => simp [step, hi.raised, Nat.not_lt.2 hu]
    | accepts => simp [step, hi.raised, hi.accepted hr]
    | receives n => simp [step, hi.raised, hr]
    | replies => simp [step, hi.raised, Nat.not_lt.2 hd]

end

end SockShop.SctpPair
