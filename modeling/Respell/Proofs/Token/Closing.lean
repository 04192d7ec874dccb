import Respell.Proofs.Token.Again

/-!
# Tokens before a closing mark

A parenthesis and a brace that close something end every token before them alike. `Closed` relates
two texts that are the same up to where one goes on with the parenthesis and the other with the
brace, and `Lexeme.read_closed` states that a token which ends before that place is read in both.
-/

namespace Respell

open Text Text.Matcher

/-- The texts are the same up to where one goes on with a closing parenthesis and the other with a
closing brace. -/
inductive Closed : List Char → List Char → Prop where
  | mark (s other : List Char) : Closed (')' :: s) ('}' :: other)
  | cons (c : Char) {s other : List Char} : Closed s other → Closed (c :: s) (c :: other)

namespace Closed

variable {s other : List Char}

theorem append (t : List Char) (h : Closed s other) : Closed (t ++ s) (t ++ other) := by
  induction t with
  | nil => exact h
  | cons c t ih => exact .cons c ih

/-- What comes before the two marks is the same text. -/
theorem exists_append (h : Closed s other) :
    ∃ t u w, s = t ++ ')' :: u ∧ other = t ++ '}' :: w := by
  induction h with
  | mark s other => exact ⟨[], s, other, rfl, rfl⟩
  | cons c _ ih =>
      obtain ⟨t, u, w, rfl, rfl⟩ := ih
      exact ⟨c :: t, u, w, rfl, rfl⟩

/-- A property of both marks or of none is one of both first characters or of none. -/
theorem any_head (h : Closed s other) {p : Char → Bool} (hp : p ')' = p '}') :
    s.head?.any p = other.head?.any p := by
  cases h with
  | mark => exact hp
  | cons => rfl

/-- Behind any other first character the texts go on in the same way. -/
theorem tail {c : Char} (h : Closed (c :: s) other) (hc : c ≠ ')') :
    ∃ t, other = c :: t ∧ Closed s t := by
  cases h with
  | mark => exact absurd rfl hc
  | cons _ h => exact ⟨_, rfl, h⟩

/-- A beginning without the two marks is one of both texts or of none. -/
theorem isPrefixOf (h : Closed s other) {mark : List Char} (hparen : ')' ∉ mark)
    (hbrace : '}' ∉ mark) : mark.isPrefixOf s = mark.isPrefixOf other := by
  induction h generalizing mark with
  | mark =>
      cases mark with
      | nil => rfl
      | cons d mark =>
          have hne : d ≠ ')' ∧ d ≠ '}' :=
            ⟨fun hd => hparen (hd ▸ List.mem_cons_self), fun hd => hbrace (hd ▸ List.mem_cons_self)⟩
          rw [List.isPrefixOf, List.isPrefixOf, beq_eq_false_iff_ne.mpr hne.1,
            beq_eq_false_iff_ne.mpr hne.2, Bool.false_and, Bool.false_and]
  | cons c _ ih =>
      cases mark with
      | nil => rfl
      | cons d mark =>
          rw [List.isPrefixOf, List.isPrefixOf, ih (fun hd => hparen (List.mem_cons_of_mem _ hd))
            fun hd => hbrace (List.mem_cons_of_mem _ hd)]

end Closed

namespace Trivia

variable {gap s other : List Char}

/-- Where no blank and no comment begins before one mark, none does before the other. -/
theorem Stops.of_closed (h : Stops s) (hclosed : Closed s other) : Stops other := by
  obtain ⟨hblank, hline, hblock⟩ := h
  rw [beginsLineComment, hclosed.isPrefixOf (by decide) (by decide),
    hclosed.isPrefixOf (by decide) (by decide)] at hline
  rw [beginsBlockComment, hclosed.isPrefixOf (by decide) (by decide)] at hblock
  rw [hclosed.any_head (by decide +kernel)] at hblank
  exact ⟨hblank, hline, hblock⟩

/-- A gap before one mark is a gap before the other. -/
theorem IsGap.of_closed (h : IsGap gap s) (hclosed : Closed s other) : IsGap gap other := by
  refine h.congr fun hend c hc => ?_
  cases hclosed with
  | mark => exact absurd (hend ')' rfl) (by decide)
  | cons => exact hend c hc

/-- The gap before a mark is skipped before the other. -/
theorem skip_closed {after : List Char} (h : skip s = .ok (gap, after))
    (hclosed : Closed after other) : skip (gap ++ other) = .ok (gap, other) := by
  obtain ⟨_, hgap, hstops⟩ := skip_eq_ok_iff.mp h
  exact skip_eq_ok_iff.mpr ⟨rfl, hgap.of_closed hclosed, hstops.of_closed hclosed⟩

end Trivia

/-- A word goes on with both texts or with none. -/
theorem Word.continues_closed {s other : List Char} (h : Closed s other) :
    continues s = continues other := by
  rw [continues, continues, h.any_head (by decide), h.isPrefixOf (by decide) (by decide)]

/-- A numeral ends before one mark where it ends before the other. -/
theorem Numeral.numeral_closed {t s other : List Char} (h : numeral (t ++ s) = some (t, s))
    (hclosed : Closed s other) : numeral (t ++ other) = some (t, other) := by
  obtain ⟨middle, u, w, rfl, rfl⟩ := hclosed.exists_append
  exact greedy_numeral.ends splits_numeral takesOnly_numeral middle h rfl

/-- Only alone are the two marks punctuators. -/
theorem Punctuator.closing_of_mem_all :
    ∀ p ∈ all, ')' ∉ p ∧ '}' ∉ p ∨ ∃ d, p = [d] := by
  intro p hp
  have hall : ∀ p ∈ all, ')' ∉ p ∧ '}' ∉ p ∨ p.length = 1 := by decide
  exact (hall p hp).imp id List.length_eq_one_iff.mp

/-- A punctuator ends before one mark where it ends before the other. -/
theorem Punctuator.punctuator_closed {t s other : List Char}
    (h : punctuator (t ++ s) = some (t, s)) (hclosed : Closed s other) :
    punctuator (t ++ other) = some (t, other) := by
  have hwhole := hclosed.append t
  refine punctuator_again h (fun q hq => ?_) fun x hx => ?_
  · rcases closing_of_mem_all q hq with ⟨hparen, hbrace⟩ | ⟨d, rfl⟩
    · exact hwhole.isPrefixOf hparen hbrace
    · obtain ⟨e, t, rfl⟩ := List.exists_cons_of_ne_nil (advances_punctuator _ _ _ h)
      rfl
  · rw [hx] at hwhole
    obtain ⟨_, htext, ht⟩ := hwhole.tail (by decide)
    obtain ⟨y, rfl, hy⟩ := ht.tail (by decide)
    exact ⟨y, htext, hy.any_head (by decide)⟩

namespace Lexeme

variable {v : Vocabulary} {ctx other : Context} {c : Char} {rest after : List Char} {l : Lexeme}
  {f : Form}

/-- Every lexeme ends before one mark where it ends before the other. -/
theorem endsBefore_of_closed (h : readForm v ctx c (l.text ++ l.rest) f = .ok l)
    (hclosed : Closed l.rest after) : EndsBefore l after f := by
  cases f with
  | string | template => trivial
  | privateName | regex =>
      exact (hclosed.any_head (by decide)).symm.trans (any_isPart_of_readForm h (by simp))
  | word => exact (Word.continues_closed hclosed).symm.trans (continues_of_word h)
  | numeral => exact Numeral.numeral_closed (ofMatcher_eq_ok_iff.mp h).2 hclosed
  | punctuator => exact Punctuator.punctuator_closed (ofMatcher_eq_ok_iff.mp h).2 hclosed

/-- A lexeme that ends before one mark is read before the other, where the context answers alike. -/
theorem read_closed (hctx : ctx.AgreesAt v v other c)
    (hproperty : ctx.namesProperty = other.namesProperty) (h : read v ctx c rest = .ok l)
    (hclosed : Closed l.rest after) : ∃ rest', l.text ++ after = c :: rest' ∧
      read v other c rest' = .ok ⟨l.kind, l.text, after⟩ := by
  have hread := h
  rw [read_eq_readForm, ← (reads_of_read h).1] at hread
  refine read_elsewhere hctx hproperty h (fun htext => ?_) (endsBefore_of_closed hread hclosed)
  refine form_congr hctx (fun _ => hclosed.any_head (by decide))
    (fun _ => hclosed.any_head (by decide)) ?_
  rintro rfl
  exact absurd htext (text_ne_backslash h)

end Lexeme

end Respell
