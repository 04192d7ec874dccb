import Mathlib.Data.List.Forall2
import Respell.Token.Context

/-!
# Contexts of the same structure

A context is asked about keywords only by their canonical names, so a text and its translation to
another vocabulary put the same questions to their contexts and get the same answers.
`Context.Matches` relates such contexts, `Matches.push` states that one more token on both sides
keeps them related, and the lemmas between answer the questions one by one. Most of the questions
have the same answer also where an opening parenthesis on one side stands for a piece of a template
on the other, which is what `Token.StandsFor` allows.
-/

namespace Respell

variable {v w : Vocabulary}

/-- The tokens play the same part in a text, the one under `v` and the other under `w`. They are of
one kind, they are one keyword or none, and only as keywords may they be spelled differently. -/
structure Token.Matches (v w : Vocabulary) (t u : Token) : Prop where
  kind : t.kind = u.kind
  text : t.kind ≠ .keyword → t.text = u.text
  canonical : t.canonical? v = u.canonical? w

/-- The tokens of two lists play the same parts, one after the other. -/
abbrev MatchesAll (v w : Vocabulary) : List Token → List Token → Prop :=
  List.Forall₂ (Token.Matches v w)

/-- The tokens play the same part for what is classified behind them: one token or its counterpart,
or an opening parenthesis and a piece of a template, behind which an expression begins as well. -/
inductive Token.StandsFor (v w : Vocabulary) (t u : Token) : Prop where
  | counterpart : t.Matches v w u → StandsFor v w t u
  | opening : t.isPunctuator "(" = true → u.kind = .template → StandsFor v w t u

/-- The tokens of one list stand for those of the other, one after the other. -/
abbrev StandForAll (v w : Vocabulary) : List Token → List Token → Prop :=
  List.Forall₂ (Token.StandsFor v w)

/-- The contexts are the same up to the spelling of keywords and the places of tokens. -/
structure Context.Matches (v w : Vocabulary) (ctx other : Context) : Prop where
  before : MatchesAll v w ctx.before other.before
  parens : List.Forall₂ (MatchesAll v w) ctx.parens other.parens
  group : Option.Rel (MatchesAll v w) ctx.group other.group
  braces : ctx.braces = other.braces
  regexAfterClose : ctx.regexAfterClose = other.regexAfterClose

/-- Both tokens are a punctuator or none is. -/
theorem Token.Matches.isPunctuator {t u : Token} (h : t.Matches v w u) (text : String) :
    t.isPunctuator text = u.isPunctuator text := by
  rw [Token.isPunctuator, Token.isPunctuator, h.kind]
  cases hkind : u.kind == .punctuator with
  | false => rfl
  | true =>
      rw [beq_iff_eq] at hkind
      rw [h.text (by rw [h.kind, hkind]; decide)]

/-- The two tokens are the same punctuator, unless that is the opening parenthesis. -/
theorem Token.StandsFor.isPunctuator {t u : Token} (h : t.StandsFor v w u) {text : String}
    (htext : text ≠ "(") : t.isPunctuator text = u.isPunctuator text := by
  cases h with
  | counterpart h => exact h.isPunctuator text
  | opening ht hu =>
      rw [Token.isPunctuator, Bool.and_eq_true, beq_iff_eq, beq_iff_eq] at ht
      rw [Token.isPunctuator, Token.isPunctuator, ht.2, hu, beq_eq_false_iff_ne.mpr htext.symm,
        Bool.and_false]
      rfl

/-- The two tokens are the same keyword or none. -/
theorem Token.StandsFor.canonical {t u : Token} (h : t.StandsFor v w u) :
    t.canonical? v = u.canonical? w := by
  cases h with
  | counterpart h => exact h.canonical
  | opening ht hu =>
      rw [Token.isPunctuator, Bool.and_eq_true, beq_iff_eq] at ht
      rw [Token.canonical?, Token.canonical?, ht.1, hu]
      rfl

/-- Both tokens are identifiers or none is. -/
theorem Token.StandsFor.identifier_iff {t u : Token} (h : t.StandsFor v w u) :
    t.kind = .identifier ↔ u.kind = .identifier := by
  cases h with
  | counterpart h => rw [h.kind]
  | opening ht hu =>
      rw [Token.isPunctuator, Bool.and_eq_true, beq_iff_eq] at ht
      rw [ht.1, hu]
      decide

theorem MatchesAll.standForAll {before other : List Token} (h : MatchesAll v w before other) :
    StandForAll v w before other := h.imp fun _ _ => .counterpart

namespace StandForAll

variable {before other : List Token}

theorem tail (h : StandForAll v w before other) : StandForAll v w before.tail other.tail := by
  cases h with
  | nil => exact .nil
  | cons _ h => exact h

theorem isEmpty (h : StandForAll v w before other) : before.isEmpty = other.isEmpty := by
  cases h <;> rfl

theorem endsInPunctuator (h : StandForAll v w before other) {text : String} (htext : text ≠ "(") :
    endsInPunctuator text before = endsInPunctuator text other := by
  cases h with
  | nil => rfl
  | cons ht _ => exact ht.isPunctuator htext

theorem endsInKeyword (h : StandForAll v w before other) (names : List String) :
    endsInKeyword v names before = endsInKeyword w names other := by
  cases h with
  | nil => rfl
  | cons ht _ => simp only [Respell.endsInKeyword, List.head?_cons, ht.canonical]

/-- One of these punctuators ends both lists or none. -/
theorem any_endsInPunctuator (h : StandForAll v w before other) {texts : List String}
    (htexts : "(" ∉ texts) : texts.any (Respell.endsInPunctuator · before) =
      texts.any (Respell.endsInPunctuator · other) := by
  rw [Bool.eq_iff_iff, List.any_eq_true, List.any_eq_true]
  refine exists_congr fun text => and_congr_right fun hmem => ?_
  rw [h.endsInPunctuator fun heq => htexts (heq ▸ hmem)]

theorem dropName (h : StandForAll v w before other) :
    StandForAll v w (Context.dropName before) (Context.dropName other) := by
  cases h with
  | nil => exact .nil
  | cons ht h =>
      simp only [Context.dropName, ht.identifier_iff]
      split
      · exact h
      · exact .cons ht h

theorem dropStar (h : StandForAll v w before other) :
    StandForAll v w (Context.dropStar before) (Context.dropStar other) := by
  rw [Context.dropStar, Context.dropStar, h.endsInPunctuator (by decide)]
  split
  · exact h.tail
  · exact h

end StandForAll

namespace Context

/-- The brace after a group is classified by the structure before the group. -/
theorem braceAfterGroup_congr {group other : Option (List Token)}
    (h : Option.Rel (StandForAll v w) group other) :
    braceAfterGroup v group = braceAfterGroup w other := by
  cases h with
  | none => rfl
  | @some opener opener' h =>
      have hhead := h.dropName.dropStar
      have hfront := hhead.tail
      have hasync : StandForAll v w
          (if endsInKeyword v ["async"] (dropStar (dropName opener)).tail then
            (dropStar (dropName opener)).tail.tail else (dropStar (dropName opener)).tail)
          (if endsInKeyword w ["async"] (dropStar (dropName opener')).tail then
            (dropStar (dropName opener')).tail.tail else (dropStar (dropName opener')).tail) := by
        rw [hfront.endsInKeyword]
        split
        · exact hfront.tail
        · exact hfront
      simp only [braceAfterGroup, hhead.endsInKeyword, hasync.isEmpty, hasync.endsInKeyword,
        hasync.any_endsInPunctuator (show "(" ∉ [";", openBrace, closeBrace] by decide)]

section

variable {ctx other : Context}

/-- A brace is classified by the tokens before it and by those before the latest group. -/
theorem openedBrace_congr (hbefore : StandForAll v w ctx.before other.before)
    (hgroup : Option.Rel (StandForAll v w) ctx.group other.group) :
    ctx.openedBrace v = other.openedBrace w := by
  rw [openedBrace, openedBrace, braceAfterGroup_congr hgroup, hbefore.endsInKeyword]
  generalize ctx.before = before at hbefore
  generalize other.before = before' at hbefore
  cases hbefore with
  | nil => rfl
  | @cons t u _ _ ht =>
      dsimp only
      cases ht with
      | counterpart ht =>
          rw [← ht.kind]
          cases hkind : t.kind with
          | punctuator => rw [ht.text (by rw [hkind]; decide)]
          | _ => rfl
      | opening ht hu =>
          rw [Token.isPunctuator, Bool.and_eq_true, beq_iff_eq, beq_iff_eq] at ht
          rw [ht.1, ht.2, hu]
          rfl

/-- What a slash means is up to the token right before it, which has to be the same. -/
theorem allowsRegex_congr (hbefore : StandForAll v w ctx.before other.before)
    (hlast : ∀ t ∈ ctx.before.head?, ∀ u ∈ other.before.head?, t.Matches v w u)
    (hafter : ctx.regexAfterClose = other.regexAfterClose) :
    ctx.allowsRegex v = other.allowsRegex w := by
  rw [allowsRegex, allowsRegex, hafter, hbefore.endsInKeyword]
  generalize ctx.before = before at hbefore hlast
  generalize other.before = before' at hbefore hlast
  cases hbefore with
  | nil => rfl
  | @cons t u _ _ _ =>
      have ht := hlast t rfl u rfl
      dsimp only
      rw [← ht.kind]
      cases hkind : t.kind with
      | punctuator => rw [ht.text (by rw [hkind]; decide)]
      | _ => rfl

/-- A property is named where one of two points stands before. -/
theorem namesProperty_congr (hbefore : StandForAll v w ctx.before other.before) :
    ctx.namesProperty = other.namesProperty := by
  rw [namesProperty, namesProperty, hbefore.endsInPunctuator (by decide),
    hbefore.endsInPunctuator (by decide)]

end

namespace Matches

/-- Before the first token nothing differs. -/
theorem initial (v w : Vocabulary) : Matches v w Context.initial Context.initial :=
  ⟨.nil, .nil, .none, rfl, rfl⟩

variable {ctx other : Context}

/-- A brace is opened for the same purpose. -/
theorem openedBrace (h : Matches v w ctx other) : ctx.openedBrace v = other.openedBrace w := by
  refine openedBrace_congr h.before.standForAll ?_
  have hgroup := h.group
  generalize ctx.group = group at hgroup
  generalize other.group = group' at hgroup
  cases hgroup with
  | none => exact .none
  | some hgroup => exact .some (MatchesAll.standForAll hgroup)

/-- A slash begins a regular expression in both or in none. -/
theorem allowsRegex (h : Matches v w ctx other) : ctx.allowsRegex v = other.allowsRegex w := by
  refine allowsRegex_congr h.before.standForAll (fun t ht u hu => ?_) h.regexAfterClose
  have hbefore := h.before
  generalize ctx.before = before at hbefore ht
  generalize other.before = before' at hbefore hu
  cases hbefore with
  | nil => cases ht
  | cons hlast _ =>
      cases ht
      cases hu
      exact hlast

theorem inSubstitution (h : Matches v w ctx other) :
    ctx.inSubstitution = other.inSubstitution := by
  rw [Context.inSubstitution, Context.inSubstitution, h.braces]

theorem namesProperty (h : Matches v w ctx other) : ctx.namesProperty = other.namesProperty :=
  namesProperty_congr h.before.standForAll

/-- The parenthesis or brace is taken into account in the same way. -/
theorem pushPunctuator (h : Matches v w ctx other) (text : String) :
    Matches v w (ctx.pushPunctuator v text) (other.pushPunctuator w text) := by
  have hopener : Option.Rel (MatchesAll v w) ctx.parens.head? other.parens.head? ∧
      List.Forall₂ (MatchesAll v w) ctx.parens.tail other.parens.tail ∧
      ctx.parens.head?.any (isControlGroup v) = other.parens.head?.any (isControlGroup w) := by
    have hparens := h.parens
    generalize ctx.parens = parens at hparens
    generalize other.parens = parens' at hparens
    cases hparens with
    | nil => exact ⟨.none, .nil, rfl⟩
    | cons hgroup hparens =>
        exact ⟨.some hgroup, hparens, (MatchesAll.standForAll hgroup).endsInKeyword _⟩
  rw [Context.pushPunctuator, Context.pushPunctuator]
  split
  · exact { h with parens := .cons h.before h.parens }
  · split
    · exact { h with group := hopener.1, parens := hopener.2.1, regexAfterClose := hopener.2.2 }
    · split
      · exact { h with braces := congrArg₂ _ h.openedBrace h.braces }
      · split
        · rw [h.braces]
          exact { h with braces := rfl, regexAfterClose := rfl }
        · exact h

theorem pushTemplate (h : Matches v w ctx other) (text : List Char) :
    Matches v w (ctx.pushTemplate text) (other.pushTemplate text) := by
  rw [Context.pushTemplate, Context.pushTemplate, h.braces]
  exact { h with braces := rfl }

/-- One more token on both sides, in the same part, keeps the structure the same. -/
theorem push (h : Matches v w ctx other) {t u : Token} (ht : t.Matches v w u) :
    Matches v w (ctx.push v t) (other.push w u) := by
  have hpushed : ∀ {c d : Context}, Matches v w c d →
      Matches v w { c with before := t :: ctx.before } { d with before := u :: other.before } :=
    fun hcd => { hcd with before := .cons ht h.before }
  rw [Context.push, Context.push, ← ht.kind]
  cases hkind : t.kind with
  | punctuator =>
      rw [← ht.text (by rw [hkind]; decide)]
      exact hpushed (h.pushPunctuator t.text)
  | template =>
      rw [← ht.text (by rw [hkind]; decide)]
      exact hpushed (h.pushTemplate t.text.toList)
  | _ => exact hpushed h

end Matches

end Context

end Respell
