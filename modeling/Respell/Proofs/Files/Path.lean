import Respell.Files.Path

/-!
# Names of entries

The path of an entry of a folder ends in the name of the entry, which `fileName?_join` states. A
name with an extension consists of its stem, a point and the extension, and the extension has no
point of its own: `splitExtension_eq_some_iff`. So of the names with one extension each is known by
its stem.
-/

namespace Respell.Path

variable {folder name extension : String}

/-- The name can be that of an entry in a folder. -/
def IsEntryName (name : String) : Prop :=
  name ≠ "" ∧ name ≠ here ∧ name ≠ above ∧ '/' ∉ name.toList

instance (name : String) : Decidable (IsEntryName name) := inferInstanceAs (Decidable (_ ∧ _))

/-- The last piece of the path of an entry is its name. -/
theorem exists_pieces_join (folder : String) (h : '/' ∉ name.toList) :
    ∃ front, pieces (join folder name) = front ++ [name] := by
  have hlast : ∀ before path : String, path.toList = before.toList ++ '/' :: name.toList →
      pieces path = pieces before ++ [name] := by
    intro before path hpath
    rw [pieces, hpath, List.splitOn_append_cons_self, List.splitOn_eq_singleton h, List.map_append]
    simp [pieces]
  rw [join]
  split
  · rename_i hslash
    obtain ⟨before, hbefore⟩ := List.getLast?_eq_some_iff.mp hslash
    refine ⟨_, hlast (String.ofList before) _ ?_⟩
    rw [String.toList_append, hbefore, String.toList_ofList, List.append_assoc]
    rfl
  · refine ⟨_, hlast folder _ ?_⟩
    rw [String.toList_append, String.toList_append, List.append_assoc]
    rfl

/-- The path of an entry ends in its name. -/
theorem fileName?_join (folder : String) (h : IsEntryName name) :
    fileName? (join folder name) = some name := by
  obtain ⟨hempty, hhere, habove, hslash⟩ := h
  obtain ⟨front, hpieces⟩ := exists_pieces_join folder hslash
  have hname : [name].filter (fun p => p != "" && p != here) = [name] := by simp [hempty, hhere]
  rw [fileName?, hpieces, List.filter_append, hname, List.getLast?_concat]
  exact if_neg habove

/-- A name is cut at its last point, if it does not begin with that point. -/
theorem splitExtension_eq_some_iff {before : String} :
    splitExtension name = some (before, extension) ↔
      name = before ++ "." ++ extension ∧ before ≠ "" ∧ '.' ∉ extension.toList := by
  have hmark : ∀ {c : Char}, (c != '.') = true ↔ c ≠ '.' := bne_iff_ne
  rw [splitExtension]
  constructor
  · intro h
    split at h
    · cases h
    · rename_i c rest hdrop
      split at h
      · cases h
      · rename_i hrest
        cases h
        have hpoint : c = '.' := by
          have hnot := List.head?_dropWhile_not (· != '.') name.toList.reverse
          rw [hdrop] at hnot
          simpa using hnot
        subst hpoint
        have happend : name.toList.reverse =
            name.toList.reverse.takeWhile (· != '.') ++ '.' :: rest := by
          rw [← hdrop, List.takeWhile_append_dropWhile]
        refine ⟨?_, fun hnil => ?_, fun hmem => ?_⟩
        · have hname : name.toList =
              rest.reverse ++ '.' :: (name.toList.reverse.takeWhile (· != '.')).reverse := by
            simpa using congrArg List.reverse happend
          rw [← String.toList_inj]
          simp only [String.toList_append, String.toList_ofList, List.append_assoc]
          exact hname
        · rw [String.ofList_eq_empty_iff, List.reverse_eq_nil_iff] at hnil
          exact hrest (by rw [hnil]; rfl)
        · rw [String.toList_ofList, List.mem_reverse] at hmem
          have hall := List.all_eq_true.mp List.all_takeWhile _ hmem
          exact hmark.mp hall rfl
  · rintro ⟨rfl, hbefore, hpoint⟩
    have hall : ∀ c ∈ extension.toList.reverse, (c != '.') = true := by
      intro c hc
      refine hmark.mpr ?_
      rintro rfl
      exact hpoint (List.mem_reverse.mp hc)
    have hname : (before ++ "." ++ extension).toList.reverse =
        extension.toList.reverse ++ '.' :: before.toList.reverse := by
      simp
    have hne : before.toList.reverse.isEmpty = false := by
      simpa using hbefore
    rw [hname, List.dropWhile_append_of_pos hall, List.takeWhile_append_of_pos hall]
    simp [hne]

/-- A name is its stem with the extension. -/
theorem eq_of_extension? (h : extension? name = some extension) :
    name = stem name ++ "." ++ extension := by
  obtain ⟨⟨before, _⟩, hsplit, rfl⟩ := Option.map_eq_some_iff.mp h
  rw [stem, hsplit]
  exact (splitExtension_eq_some_iff.mp hsplit).1

end Respell.Path
