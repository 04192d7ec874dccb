import Respell.Text.Bytes

/-!
# Byte lengths and cuts at the ends of known parts

A cut at a byte offset is worked out when the text is written as two parts of which the first has
that many bytes. `slice_append` and `replaceBytes_append` do so for a range of bytes that is read or
replaced.
-/

namespace Respell.Text

/-- The characters from the byte offset `start` up to `stop`. -/
def slice (start stop : Nat) (cs : List Char) : List Char :=
  (splitBytes (stop - start) (splitBytes start cs).2).1

/-- A text that has characters takes bytes. -/
theorem byteLength_pos {cs : List Char} (h : cs ≠ []) : 0 < byteLength cs := by
  obtain ⟨c, cs, rfl⟩ := List.exists_cons_of_ne_nil h
  rw [byteLength_cons]
  exact Nat.add_pos_left c.utf8Size_pos _

/-- Only what is empty has no bytes. -/
theorem byteLength_eq_zero_iff {cs : List Char} : byteLength cs = 0 ↔ cs = [] := by
  cases cs with
  | nil => exact iff_of_true rfl rfl
  | cons c cs =>
      have hne := List.cons_ne_nil c cs
      exact iff_of_false (Nat.ne_of_gt (byteLength_pos hne)) hne

/-- The characters of a string have as many bytes as the string. -/
theorem byteLength_toList (s : String) : byteLength s.toList = s.utf8ByteSize := by
  rw [← utf8ByteSize_ofList, String.ofList_toList]

/-- The order of the characters does not matter to their length. -/
theorem byteLength_reverse (cs : List Char) : byteLength cs.reverse = byteLength cs := by
  induction cs with
  | nil => rfl
  | cons c cs ih =>
      rw [List.reverse_cons, byteLength_append, ih, byteLength_cons, byteLength_cons,
        byteLength_nil, Nat.add_zero, Nat.add_comm]

/-- The range of bytes of a middle part is that part. -/
theorem slice_append (before middle after : List Char) :
    slice (byteLength before) (byteLength (before ++ middle)) (before ++ (middle ++ after)) =
      middle := by
  rw [slice, splitBytes_append, byteLength_append, Nat.add_sub_cancel_left, splitBytes_append]

/-- In the range of bytes of a middle part another text can be put. -/
theorem replaceBytes_append (before middle after new : List Char) :
    replaceBytes (byteLength before) (byteLength (before ++ middle)) new
      (before ++ (middle ++ after)) = before ++ (new ++ after) := by
  rw [replaceBytes, splitBytes_append, byteLength_append, Nat.add_sub_cancel_left]
  dsimp only
  rw [splitBytes_append]

end Respell.Text
