import Mathlib.Data.List.Induction
import Respell.Proofs.Text.Offset
import Respell.Text.Position

/-!
# Lines and columns

The line and the column of an offset are found by two cuts: the text is cut at the offset, and what
is before it is cut again behind its last line feed. `ofOffset?_eq` states that both cuts can be
made where a character ends, and that the position is the one found character by character.

The other way round, a line and a column lead to one place of a text at most. `Locates` is the way
there, over the line feeds and then over the characters of the line, and `locates_after_iff` states
that it ends where the position was found.
-/

namespace Respell.Text

/-- The offset of the last line feed in a text of which the last character is given first. -/
def lastLineFeed : List Char → Option Nat
  | [] => none
  | c :: before => if c = '\n' then some (byteLength before) else lastLineFeed before

/-- The last line of the text. -/
def lastLine? (text : List Char) : Option (List Char) :=
  behind? (((lastLineFeed text.reverse).map (· + 1)).getD 0) text

/-- The last line can be cut off, and it tells the column of the end of the text. -/
theorem exists_lastLine (text : List Char) : ∃ line, lastLine? text = some line ∧
    Position.after text = ⟨text.count '\n' + 1, line.length + 1⟩ := by
  induction text using List.reverseRecOn with
  | nil => exact ⟨[], rfl, rfl⟩
  | append_singleton text c ih =>
      obtain ⟨line, hline, hafter⟩ := ih
      have hadvance : Position.after (text ++ [c]) = (Position.after text).advance c := by
        rw [Position.after, Position.after, List.foldl_append]
        rfl
      rw [lastLine?, List.reverse_append, List.reverse_singleton, List.singleton_append,
        lastLineFeed, hadvance, hafter, Position.advance, List.count_append]
      by_cases hfeed : c = '\n'
      · subst hfeed
        refine ⟨[], ?_, by simp⟩
        rw [if_pos rfl, byteLength_reverse]
        exact behind?_eq_some_iff.mpr ⟨text ++ ['\n'], (List.append_nil _).symm, by simp; rfl⟩
      · obtain ⟨before, hbefore, hn⟩ := behind?_eq_some_iff.mp hline
        refine ⟨line ++ [c], ?_, ?_⟩
        · rw [if_neg hfeed]
          exact behind?_eq_some_iff.mpr ⟨before, by rw [hbefore, List.append_assoc], hn⟩
        · rw [if_neg hfeed, List.count_singleton, if_neg (by simpa using hfeed),
            List.length_append, List.length_singleton, Nat.add_zero]

namespace Position

/-- The line and the column of an offset. -/
def ofOffset? (text : List Char) (offset : Nat) : Option Position := do
  let before ← front? offset text
  let line ← lastLine? before
  some ⟨before.count '\n' + 1, line.length + 1⟩

/-- The position of the end of a first part of the text is found. -/
theorem ofOffset?_eq (before after : List Char) :
    ofOffset? (before ++ after) (byteLength before) =
      some (ofOffset (before ++ after) (byteLength before)) := by
  have hfront : front? (byteLength before) (before ++ after) = some before :=
    front?_eq_some_iff.mpr ⟨after, rfl, rfl⟩
  obtain ⟨line, hline, hposition⟩ := exists_lastLine before
  simp only [ofOffset?, hfront, Option.bind_eq_bind, Option.bind_some, hline, ofOffset,
    splitBytes_append, hposition]

/-- `p.Locates before`: behind `before` is the place that one comes to over the line feeds before
the line of `p` and then over the characters before its column. -/
def Locates (p : Position) (before : List Char) : Prop :=
  ∃ lines last, before = lines ++ last ∧ lines.count '\n' + 1 = p.line ∧
    (lines = [] ∨ lines.getLast? = some '\n') ∧ last.length + 1 = p.column ∧ '\n' ∉ last

/-- Characters that are no line feeds move the column on. -/
theorem after_append {last : List Char} (h : '\n' ∉ last) (lines : List Char) :
    after (lines ++ last) = ⟨(after lines).line, (after lines).column + last.length⟩ := by
  induction last using List.reverseRecOn with
  | nil => rw [List.append_nil]; rfl
  | append_singleton last c ih =>
      rw [List.mem_append, not_or, List.mem_singleton] at h
      rw [← List.append_assoc, after, List.foldl_append, ← after, ih h.1]
      show advance _ c = _
      rw [advance, if_neg (Ne.symm h.2), List.length_append, List.length_singleton, Nat.add_assoc]

/-- A line feed begins a line. -/
theorem after_feed {lines : List Char} (h : lines = [] ∨ lines.getLast? = some '\n') :
    after lines = ⟨lines.count '\n' + 1, 1⟩ := by
  rcases h with rfl | h
  · rfl
  · obtain ⟨front, rfl⟩ := List.getLast?_eq_some_iff.mp h
    obtain ⟨line, _, hfront⟩ := exists_lastLine front
    rw [after, List.foldl_append, ← after, hfront, List.count_append]
    rfl

/-- The position of a place locates it. -/
theorem locates_after (before : List Char) : (after before).Locates before := by
  induction before using List.reverseRecOn with
  | nil => exact ⟨[], [], rfl, rfl, Or.inl rfl, rfl, List.not_mem_nil⟩
  | append_singleton before c ih =>
      by_cases hfeed : c = '\n'
      · subst hfeed
        have hlast : before ++ ['\n'] = [] ∨ (before ++ ['\n']).getLast? = some '\n' :=
          Or.inr (by simp)
        rw [after_feed hlast]
        exact ⟨before ++ ['\n'], [], (List.append_nil _).symm, rfl, hlast, rfl, List.not_mem_nil⟩
      · obtain ⟨lines, last, rfl, hline, hfeeds, hcolumn, hlast⟩ := ih
        rw [after_append (by simpa using Ne.symm hfeed)]
        refine ⟨lines, last ++ [c], List.append_assoc _ _ _, hline, hfeeds, ?_, ?_⟩
        · show _ = (after (lines ++ last)).column + 1
          rw [← hcolumn, List.length_append]
          rfl
        · simpa [hlast] using Ne.symm hfeed

/-- Only one position locates a place. -/
theorem Locates.after_eq {p : Position} {before : List Char} (h : p.Locates before) :
    after before = p := by
  obtain ⟨lines, last, rfl, hline, hfeeds, hcolumn, hlast⟩ := h
  rw [after_append hlast, after_feed hfeeds, hline, Nat.add_comm 1, hcolumn]

/-- Behind a text with more characters the position is another one. -/
theorem eq_nil_of_after_append {before more : List Char}
    (h : after (before ++ more) = after before) : more = [] := by
  obtain ⟨_, _, hbefore⟩ := exists_lastLine before
  obtain ⟨_, _, hboth⟩ := exists_lastLine (before ++ more)
  have hline : (before ++ more).count '\n' + 1 = before.count '\n' + 1 := by
    have hline := congrArg Position.line h
    rwa [hbefore, hboth] at hline
  have hmore : '\n' ∉ more := by
    rw [List.count_append] at hline
    rw [← List.count_eq_zero]
    omega
  have hcolumn := congrArg Position.column h
  rw [after_append hmore] at hcolumn
  exact List.length_eq_zero_iff.mp (Nat.add_left_cancel (hcolumn.trans (Nat.add_zero _).symm))

/-- Of the places of a text a position locates the one behind which it was found, and no other. -/
theorem locates_after_iff {before front text : List Char} (hbefore : before <+: text)
    (hfront : front <+: text) : (after before).Locates front ↔ front = before := by
  refine ⟨fun h => ?_, fun h => h ▸ locates_after before⟩
  have hsame := h.after_eq
  rcases List.prefix_or_prefix_of_prefix hbefore hfront with ⟨more, rfl⟩ | ⟨more, rfl⟩
  · rw [eq_nil_of_after_append hsame, List.append_nil]
  · rw [eq_nil_of_after_append hsame.symm, List.append_nil]

end Position

end Respell.Text
