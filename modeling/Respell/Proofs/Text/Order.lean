import Mathlib.Tactic.ByContra
import Mathlib.Tactic.SplitIfs
import Respell.Data.SortedMap

/-!
# The order of texts

Texts are compared character by character. In UTF-8 a greater character has greater bytes, also when
it takes more of them, so the bytes of two texts are in the same order. `precedes_iff` states this,
and with it every listing in ascending order of texts is one in the order of their bytes.
-/

namespace Respell.Text

/-- The bytes of a text. -/
def bytes (s : String) : List UInt8 := s.toUTF8.data.toList

/-- The text `a` comes before `b` in the order of their bytes. -/
def Precedes (a b : String) : Prop := List.Lex (· < ·) (bytes a) (bytes b)

/-- The bytes of a text are those of its characters, one after the other. -/
theorem bytes_eq_flatMap (s : String) : bytes s = s.toList.flatMap String.utf8EncodeChar := by
  rw [bytes, String.toUTF8_eq_toByteArray, ← String.utf8Encode_toList, List.utf8Encode,
    List.toList_data_toByteArray]

/-- The bytes of a smaller character come first, whatever follows either. -/
theorem utf8EncodeChar_lt {c d : Char} (h : c < d) (x y : List UInt8) :
    String.utf8EncodeChar c ++ x < String.utf8EncodeChar d ++ y := by
  have hlt : c.val.toNat < d.val.toNat := h
  have hbound : d.val.toNat < 0x110000 := by
    have := d.valid
    simp only [UInt32.isValidChar, Nat.isValidChar] at this
    omega
  -- All bytes but the first one are digits of the code point to the base 64.
  have hdigits : ∀ k : Nat, k / 4096 = k / 64 / 64 ∧ k / 262144 = k / 64 / 64 / 64 := fun k => by
    constructor <;> omega
  simp only [String.utf8EncodeChar, (hdigits _).1, (hdigits _).2]
  generalize c.val.toNat = m at *
  generalize d.val.toNat = n at *
  -- The first byte tells the number of bytes; where that is the same the first digit decides.
  split_ifs
  all_goals
    simp only [List.cons_append, List.nil_append, List.cons_lt_cons_iff, UInt8.lt_iff_toNat_lt,
      ← UInt8.toNat_inj, UInt8.toNat_ofNat']
    omega

/-- Characters in order have bytes in order. -/
theorem flatMap_utf8EncodeChar_lt {cs ds : List Char} (h : cs < ds) :
    cs.flatMap String.utf8EncodeChar < ds.flatMap String.utf8EncodeChar := by
  induction h with
  | @nil d ds =>
      obtain ⟨b, rest, hd⟩ := List.exists_cons_of_ne_nil (String.utf8EncodeChar_ne_nil (c := d))
      rw [List.flatMap_nil, List.flatMap_cons, hd]
      exact List.nil_lt_cons _ _
  | rel h =>
      rw [List.flatMap_cons, List.flatMap_cons]
      exact utf8EncodeChar_lt h _ _
  | cons _ ih =>
      rw [List.flatMap_cons, List.flatMap_cons]
      exact List.append_left_lt ih

/-- The order of the bytes is that of the texts. -/
theorem precedes_iff {a b : String} : Precedes a b ↔ a < b := by
  have hbytes : ∀ {a b : String}, a < b → Precedes a b := fun {a b} h => by
    rw [Precedes, bytes_eq_flatMap, bytes_eq_flatMap]
    exact flatMap_utf8EncodeChar_lt (String.lt_iff.mp h)
  refine ⟨fun h => ?_, hbytes⟩
  by_contra hnot
  by_cases heq : a = b
  · exact List.lt_irrefl _ (heq ▸ h : bytes b < bytes b)
  · exact List.lt_asymm h (hbytes (SortedMap.lt_of_not_lt_of_ne hnot heq))

end Respell.Text
