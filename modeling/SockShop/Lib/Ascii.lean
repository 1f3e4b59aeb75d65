import Mathlib.Data.List.Basic

/-!
# ASCII texts as bytes

A text of ASCII characters is sent as one byte below 128 for each character, and every list of such bytes is UTF-8. So wherever an ASCII
text is cut, both parts can be decoded.
-/

/-- A text as it is sent. -/
def utf8 (text : String) : List UInt8 := text.toUTF8.data.toList

/-- Bytes below 128. -/
def Ascii (bytes : List UInt8) : Prop := ∀ b ∈ bytes, b < 128

/-- The characters of ASCII. -/
def AsciiText (text : String) : Prop := ∀ c ∈ text.toList, c.toNat < 128

namespace Ascii

theorem mono {xs ys : List UInt8} (h : Ascii ys) (hsub : xs ⊆ ys) : Ascii xs := fun b hb => h b (hsub hb)

/-- The character of an ASCII byte is sent as that byte. -/
theorem utf8EncodeChar_ofNat {b : UInt8} (h : b < 128) : String.utf8EncodeChar (Char.ofNat b.toNat) = [b] := by
  have hlt : b.toNat < 128 := h
  have hval : (Char.ofNat b.toNat).val.toNat = b.toNat := by
    rw [Char.ofNat, dif_pos (Or.inl (by omega))]
    rfl
  rw [String.utf8EncodeChar, hval, if_pos (by omega), UInt8.ofNat_toNat]

/-- ASCII bytes are UTF-8. -/
theorem isValidUTF8 {bytes : List UInt8} (h : Ascii bytes) : ByteArray.IsValidUTF8 ⟨bytes.toArray⟩ := by
  refine ⟨bytes.map fun b => Char.ofNat b.toNat, ?_⟩
  have hflat : (bytes.map fun b => Char.ofNat b.toNat).flatMap String.utf8EncodeChar = bytes := by
    rw [List.flatMap_map]
    induction bytes with
    | nil => rfl
    | cons b bytes ih =>
      rw [List.flatMap_cons, utf8EncodeChar_ofNat (h b List.mem_cons_self),
        ih (h.mono (List.subset_cons_self b bytes)), List.singleton_append]
  rw [List.utf8Encode, hflat]
  exact ByteArray.ext List.data_toByteArray.symm

end Ascii

namespace AsciiText

theorem append {s t : String} (hs : AsciiText s) (ht : AsciiText t) : AsciiText (s ++ t) := by
  intro c hc
  rw [String.toList_append, List.mem_append] at hc
  rcases hc with hc | hc
  · exact hs c hc
  · exact ht c hc

/-- The digits of a number. -/
theorem ofNat (n : Nat) : AsciiText (toString n) := by
  intro c hc
  rw [Nat.toString_eq_repr, Nat.toList_repr] at hc
  have hdigit := Nat.isDigit_of_mem_toDigits (by decide) (by decide) hc
  simp only [Char.isDigit, Bool.and_eq_true, decide_eq_true_eq] at hdigit
  have hle : c.toNat ≤ 57 := hdigit.2
  omega

/-- An ASCII text is sent as one byte for each character. -/
theorem utf8_eq {text : String} (h : AsciiText text) : utf8 text = text.toList.map fun c => UInt8.ofNat c.toNat := by
  have hchars : utf8 text = text.toList.flatMap String.utf8EncodeChar := by
    conv_lhs => rw [utf8, ← String.ofList_toList (s := text), String.toUTF8_eq_toByteArray, String.toByteArray_ofList]
    exact List.toList_data_toByteArray
  rw [hchars, List.map_eq_flatMap]
  refine List.flatMap_congr fun c hc => ?_
  have hle : c.val.toNat ≤ 0x7f := Nat.le_of_lt_succ (h c hc)
  rw [String.utf8EncodeChar, if_pos hle]
  rfl

theorem ascii {text : String} (h : AsciiText text) : Ascii (utf8 text) := by
  rw [h.utf8_eq]
  intro b hb
  obtain ⟨c, hc, rfl⟩ := List.mem_map.1 hb
  have hlt := h c hc
  rw [UInt8.lt_iff_toNat_lt, UInt8.toNat_ofNat', Nat.mod_eq_of_lt (by omega)]
  exact hlt

theorem length_utf8 {text : String} (h : AsciiText text) : (utf8 text).length = text.length := by
  rw [h.utf8_eq, List.length_map, String.length_toList]

end AsciiText
