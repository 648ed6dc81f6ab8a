import Mathlib.Data.List.Lex
import Mathlib.Tactic.SplitIfs

/-!
# The order of bytes

Texts are compared character by character.  Of two characters the one with the smaller
number also has the smaller code, so the order of texts is that of their bytes.
-/

namespace SemanticDiff.Text

/-- The bytes of a text. -/
def bytesOf (text : String) : List UInt8 :=
  text.toUTF8.data.toList

theorem bytesOf_eq_flatMap (text : String) :
    bytesOf text = text.toList.flatMap String.utf8EncodeChar := by
  rw [bytesOf, String.toUTF8, ← String.utf8Encode_toList, List.utf8Encode,
    List.data_toByteArray]

/-- Of two numbers the smaller one has the smaller digit where they first differ. -/
theorem digits_lt {low high : Nat} (less : low < high) :
    low / 262144 < high / 262144 ∨ low / 262144 = high / 262144 ∧
      (low / 4096 % 64 < high / 4096 % 64 ∨ low / 4096 % 64 = high / 4096 % 64 ∧
        (low / 64 % 64 < high / 64 % 64 ∨ low / 64 % 64 = high / 64 % 64 ∧
          low % 64 < high % 64)) := by
  omega

/-- The codes of two characters differ at some byte, whatever follows them, and there the
smaller character has the smaller byte. -/
theorem utf8EncodeChar_append_lt {c d : Char} (less : c < d) (rest rest' : List UInt8) :
    String.utf8EncodeChar c ++ rest < String.utf8EncodeChar d ++ rest' := by
  have numbers : c.val.toNat < d.val.toNat := less
  have bound : d.val.toNat < 1114112 := by
    rcases d.valid with small | ⟨-, large⟩ <;> omega
  simp only [String.utf8EncodeChar]
  generalize c.val.toNat = low at numbers
  generalize d.val.toNat = high at numbers bound
  split_ifs
  all_goals
    simp only [List.cons_append, List.nil_append, List.cons_lt_cons_iff, UInt8.lt_iff_toNat_lt,
      UInt8.toNat_ofNat']
  -- A longer code begins with a larger byte.
  all_goals try first | exact absurd numbers (by omega) | exact Or.inl (by omega)
  -- Codes of two, three and four bytes are compared digit by digit.
  · rcases digits_lt numbers with lead | ⟨-, second | ⟨-, third | ⟨third, last⟩⟩⟩
    · exact absurd lead (by omega)
    · exact absurd second (by omega)
    · exact Or.inl (by omega)
    · have same : low / 64 = high / 64 := by omega
      exact Or.inr ⟨by rw [same], Or.inl (by omega)⟩
  · rcases digits_lt numbers with lead | ⟨-, second | ⟨second, third | ⟨third, last⟩⟩⟩
    · exact absurd lead (by omega)
    · exact Or.inl (by omega)
    · have same : low / 4096 = high / 4096 := by omega
      exact Or.inr ⟨by rw [same], Or.inl (by omega)⟩
    · have same : low / 4096 = high / 4096 := by omega
      exact Or.inr ⟨by rw [same], Or.inr ⟨by rw [third], Or.inl (by omega)⟩⟩
  · rcases digits_lt numbers with lead | ⟨lead, second | ⟨second, third | ⟨third, last⟩⟩⟩
    · exact Or.inl (by omega)
    · exact Or.inr ⟨by rw [lead], Or.inl (by omega)⟩
    · exact Or.inr ⟨by rw [lead], Or.inr ⟨by rw [second], Or.inl (by omega)⟩⟩
    · refine Or.inr ⟨by rw [lead], Or.inr ⟨by rw [second], Or.inr ⟨by rw [third], ?_⟩⟩⟩
      exact Or.inl (by omega)

theorem append_lt_append_iff {shared first second : List UInt8} :
    shared ++ first < shared ++ second ↔ first < second := by
  induction shared with
  | nil => rfl
  | cons byte shared ih =>
      rw [List.cons_append, List.cons_append, List.cons_lt_cons_iff, ih]
      simp

theorem utf8EncodeChar_ne_nil (c : Char) : String.utf8EncodeChar c ≠ [] := by
  simp only [String.utf8EncodeChar]
  split_ifs <;> exact List.cons_ne_nil _ _

/-- Characters are in the order of their codes, as far as these differ. -/
theorem flatMap_utf8EncodeChar_lt_iff {first second : List Char} :
    first.flatMap String.utf8EncodeChar < second.flatMap String.utf8EncodeChar ↔
      first < second := by
  induction first generalizing second with
  | nil =>
      cases second with
      | nil => exact iff_of_false (List.not_lt_nil _) (List.not_lt_nil _)
      | cons d second =>
          refine iff_of_true ?_ (List.nil_lt_cons d second)
          rw [List.flatMap_cons]
          cases code : String.utf8EncodeChar d with
          | nil => exact absurd code (utf8EncodeChar_ne_nil d)
          | cons byte bytes => exact List.nil_lt_cons _ _
  | cons c first ih =>
      cases second with
      | nil => exact iff_of_false (List.not_lt_nil _) (List.not_lt_nil _)
      | cons d second =>
          rw [List.flatMap_cons, List.flatMap_cons, List.cons_lt_cons_iff]
          rcases Std.lt_trichotomy c d with less | rfl | greater
          · exact iff_of_true (utf8EncodeChar_append_lt less _ _) (Or.inl less)
          · rw [append_lt_append_iff, ih]
            simp
          · refine iff_of_false (List.lt_asymm (utf8EncodeChar_append_lt greater _ _)) ?_
            rintro (less | ⟨rfl, -⟩)
            · exact Std.lt_irrefl (Std.lt_trans less greater)
            · exact Std.lt_irrefl greater

/-- Texts are in the order of their bytes. -/
theorem bytesOf_lt_iff {first second : String} :
    bytesOf first < bytesOf second ↔ first < second := by
  rw [bytesOf_eq_flatMap, bytesOf_eq_flatMap, flatMap_utf8EncodeChar_lt_iff]
  rfl

theorem bytesOf_inj {first second : String} : bytesOf first = bytesOf second ↔ first = second := by
  constructor
  · intro same
    exact String.toByteArray_inj.1 (ByteArray.ext (Array.toList_inj.1 same))
  · rintro rfl
    rfl

/-- Lists of texts are in the order of the bytes of the first text in which they differ. -/
theorem map_bytesOf_lt_iff {first second : List String} :
    first.map bytesOf < second.map bytesOf ↔ first < second := by
  induction first generalizing second with
  | nil => cases second <;> simp
  | cons text first ih =>
      cases second with
      | nil => simp
      | cons other second =>
          rw [List.map_cons, List.map_cons, List.cons_lt_cons_iff, List.cons_lt_cons_iff,
            bytesOf_lt_iff, ih, bytesOf_inj]

end SemanticDiff.Text
