import Respell.Proofs.Token.Checked

/-!
# Places in place of tokens

The checked lexer holds the open parentheses by their places in the list of its tokens, where the
context holds the tokens before them. A place of a token can be looked at, and so can the place
before it; `exists_push` states that one more token keeps all places those of opening parentheses,
and that the context keeps saying the same.
-/

namespace Respell

variable {v : Vocabulary} {names : List String} {text : String} {tokens : List Token} {i : Nat}

/-- The latest token before a place stands right before it. -/
theorem head?_tokensBefore (h : i ≤ tokens.length) :
    (tokensBefore tokens i).head? = if 0 < i then tokens[i - 1]? else none := by
  cases i with
  | zero => rfl
  | succ i => simp [tokensBefore_succ h, List.getElem?_eq_getElem h]

/-- Without the latest token there are those before the place before. -/
theorem tail_tokensBefore (h : i ≤ tokens.length) :
    (tokensBefore tokens i).tail = tokensBefore tokens (i - 1) := by
  cases i with
  | zero => rfl
  | succ i => rw [tokensBefore_succ h, List.tail_cons, Nat.add_sub_cancel]

/-- There are no tokens before the first place only. -/
theorem isEmpty_tokensBefore (h : i ≤ tokens.length) :
    (tokensBefore tokens i).isEmpty = decide (i = 0) := by
  cases i with
  | zero => rfl
  | succ i => simp [tokensBefore_succ h]

namespace Checked

theorem endsInPunctuator_tokensBefore (h : i ≤ tokens.length) :
    endsInPunctuator text (tokensBefore tokens i) = punctuatorBefore text tokens i := by
  rw [endsInPunctuator, head?_tokensBefore h, punctuatorBefore, punctuatorAt]
  split
  · rename_i hpos
    simp [hpos]
  · rename_i hpos
    simp [hpos]

theorem endsInKeyword_tokensBefore (h : i ≤ tokens.length) :
    endsInKeyword v names (tokensBefore tokens i) = keywordBefore v names tokens i := by
  cases i with
  | zero => rfl
  | succ i =>
      rw [endsInKeyword, keywordBefore, keywordAt, tokensBefore_succ h, Nat.add_sub_cancel,
        List.getElem?_eq_getElem h]
      rfl

/-- A name right before a place is left out by going one place back. -/
theorem exists_beforeName (h : i ≤ tokens.length) : ∃ k ≤ tokens.length,
    beforeName tokens i = some k ∧
    Context.dropName (tokensBefore tokens i) = tokensBefore tokens k := by
  cases i with
  | zero => exact ⟨0, h, rfl, rfl⟩
  | succ i =>
      rw [beforeName, if_pos (Nat.succ_pos i), Nat.add_sub_cancel, List.getElem?_eq_getElem h,
        tokensBefore_succ h, Context.dropName, Option.map_some]
      split
      · exact ⟨i, Nat.le_of_succ_le h, rfl, rfl⟩
      · exact ⟨i + 1, h, rfl, (tokensBefore_succ h).symm⟩

theorem beforeStar_le (h : i ≤ tokens.length) : beforeStar tokens i ≤ tokens.length := by
  rw [beforeStar]
  split <;> omega

theorem beforeAsync_le (h : i ≤ tokens.length) : beforeAsync v tokens i ≤ tokens.length := by
  rw [beforeAsync]
  split <;> omega

/-- A star right before a place is left out by going one place back. -/
theorem dropStar_tokensBefore (h : i ≤ tokens.length) :
    Context.dropStar (tokensBefore tokens i) = tokensBefore tokens (beforeStar tokens i) := by
  rw [Context.dropStar, endsInPunctuator_tokensBefore h, tail_tokensBefore h, beforeStar]
  split
  · rfl
  · rfl

/-- An `async` right before a place is left out by going one place back. -/
theorem dropAsync_tokensBefore (h : i ≤ tokens.length) :
    (if endsInKeyword v ["async"] (tokensBefore tokens i) then (tokensBefore tokens i).tail
      else tokensBefore tokens i) = tokensBefore tokens (beforeAsync v tokens i) := by
  rw [endsInKeyword_tokensBefore h, tail_tokensBefore h, beforeAsync]
  split
  · rfl
  · rfl

/-- What a brace behind a group opens is found from the place of the group. -/
theorem braceAfterGroup_eq {group : Option Nat} (h : ∀ i ∈ group, i ≤ tokens.length) :
    braceAfterGroup v tokens group =
      some (Context.braceAfterGroup v (group.map (tokensBefore tokens))) := by
  cases group with
  | none => rfl
  | some i =>
      obtain ⟨k, hk, hname, hdrop⟩ := exists_beforeName (h i rfl)
      have hhead := beforeStar_le hk
      have hfront : beforeStar tokens k - 1 ≤ tokens.length := Nat.le_trans (Nat.sub_le _ _) hhead
      have hlast := beforeAsync_le (v := v) hfront
      simp only [braceAfterGroup, Context.braceAfterGroup, Option.map_some, hname,
        Option.bind_eq_bind, Option.bind_some, hdrop, dropStar_tokensBefore hk,
        endsInKeyword_tokensBefore hhead, tail_tokensBefore hhead, dropAsync_tokensBefore hfront,
        isEmpty_tokensBefore hlast, endsInPunctuator_tokensBefore hlast,
        endsInKeyword_tokensBefore hlast]
      split
      · split
        · rfl
        · rfl
      · rfl

namespace State

variable {x : State} {t : Token}

/-- The places of a sound state are places of tokens. -/
theorem Sound.le (h : x.Sound) {i : Nat} (hi : i ∈ x.places) : i ≤ x.tokens.length :=
  Nat.le_of_lt (h i hi).1

/-- What a brace opens is found in a sound state. -/
theorem openedBrace_eq (h : x.Sound) : x.openedBrace v = some (x.context.openedBrace v) := by
  rw [openedBrace]
  split
  · rename_i hend
    have hgroup : ∀ i ∈ x.group, i ≤ x.tokens.length := fun i hi =>
      h.le (List.mem_append_right _ (Option.mem_toList.mpr hi))
    rw [braceAfterGroup_eq hgroup, Context.openedBrace_of_parenthesis hend]
    rfl
  · rfl

/-- The head of a statement is told by the place of its parenthesis. -/
theorem any_isControlGroup (h : x.Sound) :
    (x.parens.head?.any (keywordBefore v ["if", "while", "for", "with"] x.tokens)) =
      x.context.parens.head?.any (Context.isControlGroup v) := by
  rw [context, List.head?_map, Option.any_map]
  cases hparen : x.parens.head? with
  | none => rfl
  | some i =>
      have hi := h.le (List.mem_append_left _ (List.mem_of_head? hparen))
      exact (endsInKeyword_tokensBefore hi).symm

/-- A parenthesis or brace is taken into account as the context does. A place that is held behind it
was held before it, or it is the one that an opening parenthesis will have. -/
theorem exists_pushPunctuator (v : Vocabulary) (h : x.Sound) (text : String) :
    ∃ y, x.pushPunctuator v text = some y ∧ y.tokens = x.tokens ∧
      y.context = x.context.pushPunctuator v text ∧
      ∀ i ∈ y.places, i ∈ x.places ∨ i = x.tokens.length ∧ text = "(" := by
  rw [pushPunctuator, Context.pushPunctuator]
  split
  · rename_i hopen
    refine ⟨_, rfl, rfl, ?_, fun i hi => ?_⟩
    · simp [context, tokensBefore]
    · rcases List.mem_cons.mp hi with rfl | hi
      · exact Or.inr ⟨rfl, hopen⟩
      · exact Or.inl hi
  · split
    · refine ⟨_, rfl, rfl, ?_, fun i hi => Or.inl ?_⟩
      · rw [any_isControlGroup h]
        simp [context]
      · simp only [places, List.mem_append, Option.mem_toList] at hi ⊢
        exact Or.inl (hi.elim List.mem_of_mem_tail List.mem_of_head?)
    · split
      · rw [openedBrace_eq h]
        exact ⟨_, rfl, rfl, rfl, fun i hi => Or.inl hi⟩
      · split
        · exact ⟨_, rfl, rfl, rfl, fun i hi => Or.inl hi⟩
        · exact ⟨_, rfl, rfl, rfl, fun i hi => Or.inl hi⟩

/-- Behind one more token a state is sound when the places it holds were held before, or are that of
the token, which then is an opening parenthesis. -/
theorem Sound.concat {y : State} (h : x.Sound)
    (hplaces : ∀ i ∈ y.places, i ∈ x.places ∨ i = x.tokens.length ∧ t.isPunctuator "(" = true) :
    Sound { y with tokens := x.tokens ++ [t] } := by
  intro i hi
  rw [List.length_append, List.length_singleton]
  rcases hplaces i hi with hold | ⟨rfl, ht⟩
  · obtain ⟨hlt, hopens⟩ := h i hold
    exact ⟨Nat.lt_succ_of_lt hlt, by rw [punctuatorAt_append hlt, hopens]⟩
  · exact ⟨Nat.lt_succ_self _, by rw [punctuatorAt_length, ht]⟩

/-- One more token does not change what is before the places. -/
theorem context_concat {y : State} (htokens : y.tokens = x.tokens)
    (hplaces : ∀ i ∈ y.places, i ≤ x.tokens.length) :
    context { y with tokens := x.tokens ++ [t] } =
      { y.context with before := t :: x.context.before } := by
  have hparens : y.parens.map (tokensBefore (x.tokens ++ [t])) =
      y.parens.map (tokensBefore x.tokens) :=
    List.map_congr_left fun i hi => tokensBefore_append (hplaces i (List.mem_append_left _ hi))
  have hgroup : y.group.map (tokensBefore (x.tokens ++ [t])) =
      y.group.map (tokensBefore x.tokens) :=
    Option.map_congr fun i hi => tokensBefore_append
      (hplaces i (List.mem_append_right _ (Option.mem_toList.mpr hi)))
  simp [context, htokens, hparens, hgroup]

/-- A token is taken into account as the context does. -/
theorem exists_account (v : Vocabulary) (h : x.Sound) (t : Token) :
    ∃ y, x.account v t = some y ∧ y.tokens = x.tokens ∧
      x.context.push v t = { y.context with before := t :: x.context.before } ∧
      ∀ i ∈ y.places, i ∈ x.places ∨ i = x.tokens.length ∧ t.isPunctuator "(" = true := by
  rw [account, Context.push]
  cases hkind : t.kind with
  | punctuator =>
      obtain ⟨y, hy, htokens, hcontext, hplaces⟩ := exists_pushPunctuator v h t.text
      refine ⟨y, hy, htokens, by rw [hcontext], fun i hi => (hplaces i hi).imp id ?_⟩
      rintro ⟨hi, htext⟩
      exact ⟨hi, by rw [Token.isPunctuator, hkind, htext]; rfl⟩
  | template => exact ⟨_, rfl, rfl, rfl, fun i hi => Or.inl hi⟩
  | _ => exact ⟨x, rfl, rfl, rfl, fun i hi => Or.inl hi⟩

/-- The state behind one more token is sound and has the context behind that token. -/
theorem exists_push (v : Vocabulary) (h : x.Sound) (t : Token) :
    ∃ y, x.push v t = some y ∧ y.Sound ∧ y.context = x.context.push v t := by
  obtain ⟨y, hy, htokens, hcontext, hplaces⟩ := exists_account v h t
  have hsound : Sound { y with tokens := x.tokens ++ [t] } := h.concat hplaces
  refine ⟨{ y with tokens := x.tokens ++ [t] }, ?_, hsound, ?_⟩
  · rw [push, hy]
    exact if_pos hsound
  · rw [hcontext, context_concat htokens]
    intro i hi
    rcases hplaces i hi with hold | ⟨rfl, _⟩
    · exact h.le hold
    · exact Nat.le_refl _

end State

end Checked

end Respell
