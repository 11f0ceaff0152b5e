import Mathlib.Data.String.Basic
import Mathlib.Tactic.SplitIfs

/-!
# The order of texts is the order of their bytes

Texts are compared by their characters and stored as UTF-8 bytes. The encoding of a character
starts with a larger byte, or has a larger byte after the same bytes, when the character is
larger, so a comparison of the bytes gives the same order.
-/

namespace ProgramSynthesis

/-- The UTF-8 bytes of a text. -/
def utf8Bytes (text : String) : List UInt8 :=
  text.toUTF8.data.toList

/-- The bytes of a text are those of its characters in a row. -/
theorem utf8Bytes_eq_flatMap (text : String) :
    utf8Bytes text = text.toList.flatMap String.utf8EncodeChar := by
  conv_lhs => rw [← String.ofList_toList (s := text)]
  rw [utf8Bytes, String.toUTF8_eq_toByteArray, String.toByteArray_ofList, List.utf8Encode,
    List.data_toByteArray]

/-- Texts of the same bytes are equal. -/
theorem utf8Bytes_injective : Function.Injective utf8Bytes := by
  intro first second same
  apply String.toByteArray_inj.mp
  exact ByteArray.ext (Array.toList_inj.mp same)

/-- The bytes of a smaller character come before those of a larger one, whatever follows. A
shorter encoding starts with a smaller byte. -/
theorem utf8EncodeChar_append_lt {first second : Char} (less : first < second)
    (rest other : List UInt8) :
    String.utf8EncodeChar first ++ rest < String.utf8EncodeChar second ++ other := by
  have codes : first.val.toNat < second.val.toNat := less
  have bound : second.val.toNat < 1114112 := second.valid.elim (by omega) And.right
  dsimp only [String.utf8EncodeChar]
  split_ifs <;>
    simp only [List.cons_append, List.nil_append, List.cons_lt_cons_iff, UInt8.lt_iff_toNat_lt,
      UInt8.toNat_ofNat', ← UInt8.toNat_inj] <;>
    simp (disch := omega) only [Nat.mod_eq_of_lt] <;>
    omega

/-- A character has bytes. -/
theorem utf8EncodeChar_ne_nil (character : Char) : String.utf8EncodeChar character ≠ [] := by
  dsimp only [String.utf8EncodeChar]
  split_ifs <;> exact List.cons_ne_nil _ _

/-- A smaller list of characters has smaller bytes. -/
theorem flatMap_utf8EncodeChar_lt {first second : List Char} (less : first < second) :
    first.flatMap String.utf8EncodeChar < second.flatMap String.utf8EncodeChar := by
  induction first generalizing second with
  | nil =>
    cases second with
    | nil => cases less
    | cons character characters =>
      obtain ⟨byte, bytes, encoded⟩ := List.exists_cons_of_ne_nil (utf8EncodeChar_ne_nil character)
      rw [List.flatMap_nil, List.flatMap_cons, encoded, List.cons_append]
      exact List.nil_lt_cons _ _
  | cons character characters ih =>
    cases second with
    | nil => cases less
    | cons other others =>
      rw [List.flatMap_cons, List.flatMap_cons]
      obtain heads | ⟨rfl, tails⟩ := List.cons_lt_cons_iff.mp less
      · exact utf8EncodeChar_append_lt heads _ _
      · exact List.append_left_lt (ih tails)

/-- The order of texts is the order of their bytes. -/
theorem utf8Bytes_lt_iff {first second : String} :
    utf8Bytes first < utf8Bytes second ↔ first < second := by
  have keeps : ∀ {smaller larger : String}, smaller < larger →
      utf8Bytes smaller < utf8Bytes larger := by
    intro smaller larger less
    rw [utf8Bytes_eq_flatMap, utf8Bytes_eq_flatMap]
    exact flatMap_utf8EncodeChar_lt (String.lt_iff_toList_lt.mp less)
  refine ⟨fun less => ?_, keeps⟩
  obtain smaller | rfl | larger := lt_trichotomy first second
  · exact smaller
  · exact absurd less (List.lt_irrefl _)
  · exact absurd less (List.lt_asymm (keeps larger))

end ProgramSynthesis
