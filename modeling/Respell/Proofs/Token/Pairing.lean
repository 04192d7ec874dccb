import Respell.Proofs.Data.Pairing
import Respell.Token

/-!
# Parentheses in pairs

Every closing parenthesis closes the nearest opening one before it that is not closed yet. `partner`
says so of a list of tokens by the places in the list, without a stack, and `unmatched` lists the
places of the opening parentheses that remain. Both are the pairs and the rest of `Pairing` for
these two tokens, which `partner_eq` and `unmatched_eq` state, so what holds of all pairs holds of
parentheses.
-/

namespace Respell

/-- The token at the place `i` of the list is the punctuator `text`. -/
def punctuatorAt (text : String) (tokens : List Token) (i : Nat) : Bool :=
  tokens[i]?.any (·.isPunctuator text)

/-- The place of the opening parenthesis that the closing one at the place `j` closes: of those
before it that no earlier closing parenthesis closes, the nearest. -/
def partner (tokens : List Token) (j : Nat) : Option Nat :=
  if punctuatorAt ")" tokens j then
    ((List.range j).reverse.filter fun i =>
      punctuatorAt "(" tokens i ∧ ∀ k : Fin j, partner tokens k ≠ some i).head?
  else none
termination_by j

/-- The places of the opening parentheses that no closing one closes, the latest first. -/
def unmatched (tokens : List Token) : List Nat :=
  (List.range tokens.length).reverse.filter fun i =>
    punctuatorAt "(" tokens i ∧ ∀ k < tokens.length, partner tokens k ≠ some i

/-- The place of the latest token for which `p` holds. -/
def latestPlace (p : Token → Bool) (tokens : List Token) : Option Nat :=
  ((List.range tokens.length).reverse.filter fun i => tokens[i]?.any p).head?

variable {tokens more : List Token} {t : Token} {text : String} {i j : Nat}

/-- The tokens behind a place do not matter to it. -/
theorem punctuatorAt_append (h : i < tokens.length) :
    punctuatorAt text (tokens ++ more) i = punctuatorAt text tokens i := by
  rw [punctuatorAt, punctuatorAt, List.getElem?_append_left h]

/-- A token that is added stands at the place after the last one. -/
@[simp] theorem punctuatorAt_length :
    punctuatorAt text (tokens ++ [t]) tokens.length = t.isPunctuator text := by
  rw [punctuatorAt, List.getElem?_concat_length, Option.any_some]

/-- Parentheses are paired as opening and closing members are. -/
theorem partner_eq (tokens : List Token) (j : Nat) : partner tokens j =
    Pairing.partner (·.isPunctuator "(") (·.isPunctuator ")") tokens j := by
  induction j using Nat.strongRecOn with
  | _ j ih =>
      rw [partner, Pairing.partner, punctuatorAt]
      refine if_congr Iff.rfl (congrArg List.head? (List.filter_congr fun i _ => ?_)) rfl
      refine decide_eq_decide.mpr (and_congr Iff.rfl (forall_congr' fun k => ?_))
      rw [ih k k.isLt]

/-- The parentheses that remain are the opening members that do. -/
theorem unmatched_eq (tokens : List Token) : unmatched tokens =
    Pairing.unmatched (·.isPunctuator "(") (·.isPunctuator ")") tokens := by
  rw [unmatched, Pairing.unmatched]
  simp only [partner_eq]
  rfl

/-- A closing parenthesis closes an opening one that stands before it. -/
theorem punctuatorAt_of_partner (h : partner tokens j = some i) :
    i < j ∧ punctuatorAt "(" tokens i = true := by
  rw [partner_eq] at h
  obtain ⟨hlt, hopens, _⟩ := Pairing.opens_of_partner h
  exact ⟨hlt, hopens⟩

/-- What a closing parenthesis closes does not depend on the tokens behind it. -/
theorem partner_append (h : j < tokens.length) (more : List Token) :
    partner (tokens ++ more) j = partner tokens j := by
  rw [partner_eq, partner_eq, Pairing.partner_append h]

/-- A closing parenthesis that is added closes the nearest one that remains. -/
theorem partner_length (h : t.isPunctuator ")" = true) :
    partner (tokens ++ [t]) tokens.length = (unmatched tokens).head? := by
  rw [partner_eq, Pairing.partner_length, if_pos h, unmatched_eq]

/-- An opening parenthesis of the list remains where nothing closes it. -/
theorem mem_unmatched_iff : i ∈ unmatched tokens ↔ i < tokens.length ∧
    punctuatorAt "(" tokens i = true ∧ ∀ k < tokens.length, partner tokens k ≠ some i := by
  rw [unmatched, List.mem_filter, List.mem_reverse, List.mem_range, decide_eq_true_eq]

/-- An opening parenthesis that is added remains before the others. -/
theorem unmatched_opening (h : t.isPunctuator "(" = true) (hclosing : t.isPunctuator ")" = false) :
    unmatched (tokens ++ [t]) = tokens.length :: unmatched tokens := by
  rw [unmatched_eq, unmatched_eq, Pairing.unmatched_concat, if_pos h, if_neg (by simp [hclosing])]
  rfl

/-- A closing parenthesis that is added takes the nearest one away. -/
theorem unmatched_closing (h : t.isPunctuator ")" = true) (hopening : t.isPunctuator "(" = false) :
    unmatched (tokens ++ [t]) = (unmatched tokens).tail := by
  rw [unmatched_eq, unmatched_eq, Pairing.unmatched_concat, if_neg (by simp [hopening]), if_pos h]
  rfl

/-- Any other token leaves what remains. -/
theorem unmatched_other (hopening : t.isPunctuator "(" = false)
    (hclosing : t.isPunctuator ")" = false) : unmatched (tokens ++ [t]) = unmatched tokens := by
  rw [unmatched_eq, unmatched_eq, Pairing.unmatched_concat, if_neg (by simp [hopening]),
    if_neg (by simp [hclosing])]
  rfl

/-- The latest token with a property is one that is added, or the latest before it. -/
theorem latestPlace_concat (p : Token → Bool) (tokens : List Token) (t : Token) :
    latestPlace p (tokens ++ [t]) =
      if p t then some tokens.length else latestPlace p tokens := by
  have hbefore : ((List.range tokens.length).reverse.filter fun i => (tokens ++ [t])[i]?.any p) =
      (List.range tokens.length).reverse.filter fun i => tokens[i]?.any p := by
    refine List.filter_congr fun i hi => ?_
    rw [List.mem_reverse, List.mem_range] at hi
    rw [List.getElem?_append_left hi]
  rw [latestPlace, List.length_append, List.length_singleton, List.range_succ, List.reverse_append,
    List.reverse_singleton, List.singleton_append, List.filter_cons, List.getElem?_concat_length,
    Option.any_some, hbefore]
  split
  · rfl
  · rfl

/-- The latest token with a property stands in the list and has it. -/
theorem any_of_latestPlace {p : Token → Bool} (h : latestPlace p tokens = some i) :
    i < tokens.length ∧ tokens[i]?.any p = true := by
  have hmem := List.mem_of_head? h
  rw [List.mem_filter, List.mem_reverse, List.mem_range] at hmem
  exact hmem

end Respell
