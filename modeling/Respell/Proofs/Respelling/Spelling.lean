import Respell.Proofs.Token.Form
import Respell.Proofs.Vocabulary

/-!
# Tokens in another spelling

In a respelling from one vocabulary to another a keyword takes the spelling that the other one gives
to its canonical name, and every other token stays as it is. `Token.respelled` is the new text of a
token and `Token.growth` by how many bytes it is longer. `Piece.byteLength_weave` adds the growth up
over the tokens of a text.
-/

namespace Respell

open Text

/-- The text of a token in a respelling from `v` to `w`: a keyword has the spelling that `w` gives
to its canonical name, every other token stays as it is. -/
def Token.respelled (v w : Vocabulary) (t : Token) : String :=
  if t.kind = .keyword then ((v.canonical? t.text).bind w.spelling?).getD t.text else t.text

/-- The characters of a token in a respelling from `v` to `w`. -/
def Token.respelledChars (v w : Vocabulary) (t : Token) : List Char := (t.respelled v w).toList

/-- By how many bytes a token grows in a respelling from `v` to `w`. -/
def Token.growth (v w : Vocabulary) (t : Token) : Int :=
  ((t.respelled v w).utf8ByteSize : Int) - (t.text.utf8ByteSize : Int)

/-- The keyword `t` of `v` has a counterpart in `w`. -/
def Token.HasCounterpart (v w : Vocabulary) (t : Token) : Prop :=
  ∃ canonical spelling, v.canonical? t.text = some canonical ∧ w.spelling? canonical = some spelling

/-- Every keyword of `v` among the tokens of the pieces has a counterpart in `w`. -/
def Piece.HaveCounterparts (v w : Vocabulary) (pieces : List Piece) : Prop :=
  ∀ p ∈ pieces, p.token.kind = .keyword → p.token.HasCounterpart v w

theorem Piece.haveCounterparts_cons {v w : Vocabulary} {p : Piece} {pieces : List Piece} :
    HaveCounterparts v w (p :: pieces) ↔
      (p.token.kind = .keyword → p.token.HasCounterpart v w) ∧ HaveCounterparts v w pieces :=
  List.forall_mem_cons

/-- Apart from keywords nothing is respelled. -/
theorem Token.respelled_of_ne_keyword {v w : Vocabulary} {t : Token} (h : t.kind ≠ .keyword) :
    t.respelled v w = t.text := if_neg h

theorem Token.respelledChars_of_ne_keyword {v w : Vocabulary} {t : Token}
    (h : t.kind ≠ .keyword) : t.respelledChars v w = t.chars := by
  rw [Token.respelledChars, Token.respelled_of_ne_keyword h, Token.chars]

/-- A keyword that has a counterpart is respelled as that. -/
theorem Token.respelled_of_counterpart {v w : Vocabulary} {t : Token} {canonical spelling : String}
    (hkind : t.kind = .keyword) (hcanonical : v.canonical? t.text = some canonical)
    (hspelling : w.spelling? canonical = some spelling) : t.respelled v w = spelling := by
  rw [Token.respelled, if_pos hkind, hcanonical, Option.bind_some, hspelling, Option.getD_some]

/-- A keyword and its new spelling have one canonical name. -/
theorem Token.HasCounterpart.canonical {v w : Vocabulary} {t : Token} (h : t.HasCounterpart v w)
    (hkind : t.kind = .keyword) : ∃ canonical, v.canonical? t.text = some canonical ∧
      w.canonical? (t.respelled v w) = some canonical := by
  obtain ⟨canonical, spelling, hcanonical, hspelling⟩ := h
  refine ⟨canonical, hcanonical, ?_⟩
  rw [Token.respelled_of_counterpart hkind hcanonical hspelling]
  exact Vocabulary.canonical?_eq_some_iff.mpr hspelling

/-- Apart from keywords nothing grows. -/
theorem Token.growth_of_ne_keyword {v w : Vocabulary} {t : Token} (h : t.kind ≠ .keyword) :
    t.growth v w = 0 := by
  rw [Token.growth, Token.respelled_of_ne_keyword h, Int.sub_self]

/-- A respelled token is longer than the token by its growth. -/
theorem Token.byteLength_respelled (v w : Vocabulary) (t : Token) :
    (byteLength (t.respelledChars v w) : Int) = byteLength t.chars + t.growth v w := by
  rw [Token.growth, Token.respelledChars, Token.chars, ← utf8ByteSize_ofList,
    ← utf8ByteSize_ofList, String.ofList_toList, String.ofList_toList]
  omega

/-- By how many bytes the keywords among the tokens grow in a respelling from `v` to `w`. -/
def totalGrowth (v w : Vocabulary) : List Token → Int
  | [] => 0
  | t :: tokens => (if t.kind = .keyword then t.growth v w else 0) + totalGrowth v w tokens

@[simp] theorem totalGrowth_nil (v w : Vocabulary) : totalGrowth v w [] = 0 := rfl

/-- A token that is no keyword makes no difference to the growth. -/
@[simp] theorem totalGrowth_cons (v w : Vocabulary) (t : Token) (tokens : List Token) :
    totalGrowth v w (t :: tokens) = t.growth v w + totalGrowth v w tokens := by
  rw [totalGrowth]
  split
  · rfl
  · rename_i hkind
    rw [Token.growth_of_ne_keyword hkind]

/-- A respelled text is longer than the text by what its tokens grow. -/
theorem Piece.byteLength_weave (v w : Vocabulary) (pieces : List Piece) (last : List Char) :
    (byteLength (weave (Token.respelledChars v w) pieces last) : Int) =
      byteLength (weave Token.chars pieces last) +
        totalGrowth v w (pieces.map token) := by
  induction pieces with
  | nil => simp [weave]
  | cons p pieces ih =>
      have hp := Token.byteLength_respelled v w p.token
      simp only [weave, byteLength_append, List.map_cons, totalGrowth_cons]
      push_cast
      omega

end Respell
