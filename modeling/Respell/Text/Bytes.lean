/-!
# Byte lengths and byte offsets

Places in a text are counted in bytes of UTF-8. A text is worked on as a list of characters, and
`byteLength` measures it. `splitBytes` cuts a text at a byte offset, and `replaceBytes` puts new
text in the place of a range of bytes. The main lemma, `splitBytes_append`, states that a cut at
the byte length of a first part gives back the two parts.
-/

namespace Respell.Text

/-- The number of bytes that the characters take in UTF-8. -/
def byteLength (cs : List Char) : Nat := cs.foldl (fun n c => n + c.utf8Size) 0

/-- The byte length of the second part is added to that of the first. -/
theorem foldl_utf8Size (cs : List Char) (n : Nat) :
    cs.foldl (fun n c => n + c.utf8Size) n = n + byteLength cs := by
  induction cs generalizing n with
  | nil => rfl
  | cons c rest ih =>
      rw [byteLength, List.foldl_cons, List.foldl_cons, ih, ih (0 + _)]
      omega

@[simp] theorem byteLength_nil : byteLength [] = 0 := rfl

@[simp] theorem byteLength_cons (c : Char) (cs : List Char) :
    byteLength (c :: cs) = c.utf8Size + byteLength cs := by
  rw [byteLength, List.foldl_cons, foldl_utf8Size, Nat.zero_add]

@[simp] theorem byteLength_append (cs ds : List Char) :
    byteLength (cs ++ ds) = byteLength cs + byteLength ds := by
  rw [byteLength, List.foldl_append, foldl_utf8Size]
  rfl

/-- A string takes as many bytes as its characters. -/
theorem utf8ByteSize_ofList (cs : List Char) :
    (String.ofList cs).utf8ByteSize = byteLength cs := by
  induction cs with
  | nil => rfl
  | cons c rest ih =>
      have hsplit : String.ofList (c :: rest) = String.singleton c ++ String.ofList rest := by
        rw [String.singleton_eq_ofList, ← String.ofList_append]
        rfl
      rw [hsplit, String.utf8ByteSize_append, String.utf8ByteSize_singleton, ih, byteLength_cons]

/-- The longest first part of the text that takes at most `n` bytes, with the rest of the text. -/
def splitBytes (n : Nat) (cs : List Char) : List Char × List Char := go n [] cs
where
  /-- The same with the characters already taken, the latest first. -/
  go (n : Nat) (taken : List Char) : List Char → List Char × List Char
    | [] => (taken.reverse, [])
    | c :: rest =>
      if c.utf8Size ≤ n then go (n - c.utf8Size) (c :: taken) rest else (taken.reverse, c :: rest)

/-- A cut at the byte length of a first part gives back both parts. -/
theorem splitBytes_append (cs ds : List Char) : splitBytes (byteLength cs) (cs ++ ds) = (cs, ds) := by
  have hgo : ∀ taken : List Char,
      splitBytes.go (byteLength cs) taken (cs ++ ds) = (taken.reverse ++ cs, ds) := by
    induction cs with
    | nil =>
        intro taken
        cases ds with
        | nil => simp [splitBytes.go]
        | cons d rest =>
            have := d.utf8Size_pos
            simp [splitBytes.go, Nat.not_le.mpr this]
    | cons c rest ih =>
        intro taken
        rw [List.cons_append, splitBytes.go, byteLength_cons, if_pos (Nat.le_add_right _ _),
          Nat.add_sub_cancel_left, ih]
        simp
  exact hgo []

/-- Both parts of a cut together are the text. -/
theorem splitBytes_fst_append_snd (n : Nat) (cs : List Char) :
    (splitBytes n cs).1 ++ (splitBytes n cs).2 = cs := by
  have hgo : ∀ taken : List Char,
      (splitBytes.go n taken cs).1 ++ (splitBytes.go n taken cs).2 = taken.reverse ++ cs := by
    induction cs generalizing n with
    | nil => simp [splitBytes.go]
    | cons c rest ih =>
        intro taken
        rw [splitBytes.go]
        split
        · simp [ih]
        · rfl
  exact hgo []

/-- The text with the bytes from `start` up to `stop` replaced by `new`. -/
def replaceBytes (start stop : Nat) (new cs : List Char) : List Char :=
  let (before, rest) := splitBytes start cs
  before ++ (new ++ (splitBytes (stop - start) rest).2)

end Respell.Text
