import Respell.Proofs.Token.Closing
import Respell.Proofs.Token.Nesting

/-!
# A text in parentheses and in a substitution

The tokens between two parentheses are read in a context that has one more open parenthesis than the
context between the marks of a substitution, and one open brace less. `Context.Enclosed` relates two
such contexts. Neither of the two outermost ones is ever looked at, as long as the tokens close no
more than they open, which is `Context.StaysInside`. So the same tokens are found between both pairs
of marks: `read_enclosed` finds the next one, `Enclosed.push` keeps the contexts related behind it,
and `Yields.enclosed` is the whole run. Only behind the marks themselves a slash is not read alike.
-/

namespace Respell

open Text

namespace Context

/-- The first context is behind an open parenthesis, the other one in the same way behind the
opening of a substitution. -/
structure Enclosed (v : Vocabulary) (ctx other : Context) : Prop where
  before : StandForAll v v ctx.before other.before
  parens : ∃ inner outer, ctx.parens = inner ++ [outer] ∧
    List.Forall₂ (StandForAll v v) inner other.parens
  group : Option.Rel (StandForAll v v) ctx.group other.group
  braces : other.braces = ctx.braces ++ [.substitution]
  regexAfterClose : ctx.regexAfterClose = other.regexAfterClose

/-- Behind the context the tokens never close its outermost parenthesis, and they close no more
braces and substitutions than are open. -/
def StaysInside (v : Vocabulary) : Context → List Token → Prop
  | _, [] => True
  | ctx, t :: tokens =>
    (t.isPunctuator ")" = true → 2 ≤ ctx.parens.length) ∧
    (t.closesBrace = true → ctx.braces ≠ []) ∧
    StaysInside v (ctx.push v t) tokens

namespace Enclosed

variable {v : Vocabulary} {ctx other : Context} {t u : Token}

/-- The innermost of the open braces is the same where there is one besides the substitution. -/
theorem head?_braces (h : Enclosed v ctx other) (hne : ctx.braces ≠ []) :
    other.braces.head? = ctx.braces.head? := by
  rw [h.braces, List.head?_append_of_ne_nil _ hne]

/-- Closing the innermost of them keeps the others. -/
theorem tail_braces (h : Enclosed v ctx other) (hne : ctx.braces ≠ []) :
    other.braces.tail = ctx.braces.tail ++ [.substitution] := by
  rw [h.braces, List.tail_append_of_ne_nil hne]

/-- A parenthesis or a brace that does not close too much is taken into account in the same way. -/
theorem pushPunctuator (h : Enclosed v ctx other) {text : String}
    (hparens : text = ")" → 2 ≤ ctx.parens.length) (hbraces : text = closeBrace → ctx.braces ≠ []) :
    Enclosed v (ctx.pushPunctuator v text) (other.pushPunctuator v text) := by
  obtain ⟨inner, outer, hctx, hinner⟩ := h.parens
  rw [Context.pushPunctuator, Context.pushPunctuator]
  split
  · refine { h with parens := ⟨ctx.before :: inner, outer, ?_, .cons h.before hinner⟩ }
    rw [hctx]
    rfl
  · split
    · rename_i hclosing
      have hlength := hparens hclosing
      -- The parenthesis that is closed is an inner one.
      rw [hctx, List.length_append, List.length_singleton] at hlength
      rw [hctx]
      generalize other.parens = parens at hinner
      cases hinner with
      | nil => exact absurd hlength (by decide)
      | cons hgroup hrest =>
          exact { h with
            parens := ⟨_, outer, rfl, hrest⟩
            group := .some hgroup
            regexAfterClose := hgroup.endsInKeyword _ }
    · split
      · refine { h with braces := ?_ }
        show other.openedBrace v :: other.braces =
          ctx.openedBrace v :: ctx.braces ++ [.substitution]
        rw [h.braces, openedBrace_congr h.before h.group]
        rfl
      · split
        · rename_i hclosing
          have hne := hbraces hclosing
          refine { h with braces := h.tail_braces hne, regexAfterClose := ?_ }
          show (ctx.braces.head? != _) = (other.braces.head? != _)
          rw [h.head?_braces hne]
        · exact h

/-- So is a piece of a template. -/
theorem pushTemplate (h : Enclosed v ctx other) {text : List Char}
    (hbraces : text.head? = some '}' → ctx.braces ≠ []) :
    Enclosed v (ctx.pushTemplate text) (other.pushTemplate text) := by
  have houter : (if text.head? = some '}' then other.braces.tail else other.braces) =
      (if text.head? = some '}' then ctx.braces.tail else ctx.braces) ++ [.substitution] := by
    split
    · rename_i hclosing
      exact h.tail_braces (hbraces hclosing)
    · exact h.braces
  rw [Context.pushTemplate, Context.pushTemplate]
  refine { h with braces := ?_ }
  dsimp only
  rw [houter]
  split <;> rfl

/-- One more token on both sides keeps the contexts related, unless it closes too much. -/
theorem push (h : Enclosed v ctx other) (ht : t.Matches v v u)
    (hparens : t.isPunctuator ")" = true → 2 ≤ ctx.parens.length)
    (hbraces : t.closesBrace = true → ctx.braces ≠ []) :
    Enclosed v (ctx.push v t) (other.push v u) := by
  have hpushed : ∀ {c d : Context}, Enclosed v c d →
      Enclosed v { c with before := t :: ctx.before } { d with before := u :: other.before } :=
    fun hcd => { hcd with before := .cons (.counterpart ht) h.before }
  rw [Context.push, Context.push, ← ht.kind]
  cases hkind : t.kind with
  | punctuator =>
      have hpunctuator : ∀ a, t.isPunctuator a = (t.text == a) := fun a => by
        rw [Token.isPunctuator, hkind]
        rfl
      rw [← ht.text (by rw [hkind]; decide)]
      refine hpushed (h.pushPunctuator (fun htext => hparens ?_) fun htext => hbraces ?_)
      · rw [hpunctuator, htext]
        rfl
      · rw [Token.closesBrace, hpunctuator, htext]
        rfl
  | template =>
      rw [← ht.text (by rw [hkind]; decide)]
      refine hpushed (h.pushTemplate fun htext => hbraces ?_)
      rw [Token.closesBrace, Token.closesSubstitution, hkind, htext, beq_self_eq_true,
        beq_self_eq_true, Bool.true_and, Bool.or_true]
  | _ => exact hpushed h

end Enclosed

end Context

namespace Lexeme

variable {v : Vocabulary} {ctx other : Context} {c : Char} {rest : List Char} {l : Lexeme}

/-- A token that begins with a closing brace closes a brace or a substitution. -/
theorem closesBrace_of_read (h : read v ctx '}' rest = .ok l) (start : Nat) :
    (l.token start).closesBrace = true := by
  rw [read_closeBrace] at h
  split at h
  · rw [readForm, ofMatcher_eq_ok_iff] at h
    have hfirst := (Literal.ends_of_template h.2).1
    rw [Token.closesBrace, Token.closesSubstitution, token_kind, h.1, ← Token.chars, token_chars,
      hfirst, beq_self_eq_true, beq_self_eq_true, Bool.true_and, Bool.or_true]
  · rw [readForm, ofMatcher_eq_ok_iff] at h
    have hbrace : Punctuator.punctuator ('}' :: rest) = some (['}'], rest) := rfl
    rw [hbrace, Option.some.injEq, Prod.mk.injEq] at h
    rw [Token.closesBrace, Token.isPunctuator, token_kind, token_text, h.1, ← h.2.1]
    rfl

/-- For a token that does not close too much the contexts answer alike, if it is no slash right
behind the opening marks. -/
theorem agreesAt_of_enclosed (hcontext : ctx.Enclosed v other) (h : read v ctx c rest = .ok l)
    {start : Nat} (hbraces : (l.token start).closesBrace = true → ctx.braces ≠ [])
    (hslash : c = '/' → ∀ t ∈ ctx.before.head?, ∀ u ∈ other.before.head?, t.Matches v v u) :
    ctx.AgreesAt v v other c where
  inSubstitution hc := by
    subst hc
    rw [Context.inSubstitution, Context.inSubstitution,
      hcontext.head?_braces (hbraces (closesBrace_of_read h start))]
  allowsRegex hc :=
    Context.allowsRegex_congr hcontext.before (hslash hc) hcontext.regexAfterClose

end Lexeme

/-- The token `n` bytes further on. -/
def Token.shift (n : Nat) (t : Token) : Token := { t with start := t.start + n }

namespace Piece

variable {pieces more : List Piece} {s other : List Char}

/-- What pieces are written of comes before what is behind them. -/
theorem weave_append (f : Token → List Char) (pieces more : List Piece) (last : List Char) :
    weave f (pieces ++ more) last = weave f pieces (weave f more last) := by
  induction pieces with
  | nil => rfl
  | cons p pieces ih => rw [List.cons_append, weave, weave, ih]

/-- What is behind the pieces is written last. -/
theorem weave_eq_append (f : Token → List Char) (pieces : List Piece) (last : List Char) :
    weave f pieces last = weave f pieces [] ++ last := by
  induction pieces with
  | nil => rfl
  | cons p pieces ih => rw [weave, weave, ih, List.append_assoc, List.append_assoc]

/-- The same pieces before both marks. -/
theorem closed_weave (f : Token → List Char) (pieces : List Piece) (h : Closed s other) :
    Closed (weave f pieces s) (weave f pieces other) := by
  induction pieces with
  | nil => exact h
  | cons p pieces ih => exact (ih.append _).append _

end Piece

namespace LexerState

variable {v : Vocabulary} {s t : LexerState} {p : Piece} {last : List Char} {n : Nat}

/-- Where only the substitution is open, the closing brace and the mark of a template behind a gap
are the last token. -/
theorem Yields.closing {gap : List Char} {c : Char} {rest : List Char}
    (hskip : Trivia.skip s.rest = .ok (gap, c :: rest)) (hc : c = ')')
    (hcontext : s.context.Enclosed v t.context) (hbraces : s.context.braces = [])
    (hrest : t.rest = gap ++ ['}', Literal.templateQuote]) :
    Yields v t [⟨gap, ⟨.template, "\x7d\x60", t.offset + byteLength gap⟩⟩] [] := by
  subst hc
  have hskip' := Trivia.skip_closed hskip (.mark rest [Literal.templateQuote])
  rw [← hrest] at hskip'
  have hinside : t.context.inSubstitution = true := by
    rw [Context.inSubstitution, hcontext.braces, hbraces]
    rfl
  have hread : Lexeme.read v t.context '}' [Literal.templateQuote] =
      .ok ⟨.template, ['}', Literal.templateQuote], []⟩ := by
    rw [Lexeme.read_closeBrace, if_pos hinside]
    rfl
  exact .token hskip' hread (.done (Trivia.skip_of_stops ⟨rfl, rfl, rfl⟩))

/-- A gap and a token before one mark are read before the other where the contexts are related,
unless the token closes too much or is a slash right behind the opening marks. -/
theorem read_enclosed {ctx other : Context} {s gap rest after : List Char} {c : Char} {l : Lexeme}
    {start : Nat} (hcontext : ctx.Enclosed v other) (hskip : Trivia.skip s = .ok (gap, c :: rest))
    (hread : Lexeme.read v ctx c rest = .ok l)
    (hbraces : (l.token start).closesBrace = true → ctx.braces ≠ [])
    (hslash : c = '/' → ∀ x ∈ ctx.before.head?, ∀ y ∈ other.before.head?, x.Matches v v y)
    (hclosed : Closed l.rest after) :
    ∃ rest', Trivia.skip (gap ++ (l.text ++ after)) = .ok (gap, c :: rest') ∧
      Lexeme.read v other c rest' = .ok ⟨l.kind, l.text, after⟩ := by
  have hagrees := Lexeme.agreesAt_of_enclosed hcontext hread hbraces hslash
  obtain ⟨rest', htext, hread'⟩ := Lexeme.read_closed hagrees
    (Context.namesProperty_congr hcontext.before) hread hclosed
  have happend := (Lexeme.reads_of_read hread).1
  have hskip' := Trivia.skip_closed hskip (happend ▸ hclosed.append l.text)
  rw [htext] at hskip' ⊢
  exact ⟨rest', hskip', hread'⟩

/-- Tokens that stay between parentheses are found again, further on, in a substitution that the
same text is in. -/
theorem Yields.enclosed {pieces : List Piece} (h : Yields v s (pieces ++ [p]) last)
    (hp : p.token.chars = [')']) (hcontext : s.context.Enclosed v t.context)
    (hinside : Context.StaysInside v s.context (pieces.map Piece.token))
    (hbraces : ((pieces.map Piece.token).foldl (Context.push v) s.context).braces = [])
    (hslash : (∀ x ∈ s.context.before.head?, ∀ y ∈ t.context.before.head?, x.Matches v v y) ∨
      ∀ q ∈ pieces.head?, q.token.chars.head? ≠ some '/')
    (hoffset : t.offset = s.offset + n)
    (hrest : t.rest = Piece.weave Token.chars pieces (p.gap ++ ['}', Literal.templateQuote])) :
    ∃ others, Yields v t others [] ∧ others.map Piece.token =
      (pieces.map Piece.token).map (Token.shift n) ++
        [⟨.template, "\x7d\x60", p.token.start + n⟩] := by
  induction pieces generalizing s t with
  | nil =>
      cases h with
      | @token _ gap rest _ c l _ hskip hread _ =>
          rw [Lexeme.token_chars] at hp
          have happend := (Lexeme.reads_of_read hread).1
          rw [hp, List.singleton_append, List.cons.injEq] at happend
          refine ⟨_, .closing hskip happend.1.symm hcontext hbraces hrest, ?_⟩
          rw [hoffset, Nat.add_right_comm]
          rfl
  | cons q pieces ih =>
      cases h with
      | @token _ gap rest _ c l _ hskip hread hyields =>
          obtain ⟨hparens, hcloses, hinside⟩ := hinside
          have hweave : Piece.weave Token.chars (pieces ++ [p]) last = l.rest := hyields.weave_eq
          have hclosed : Closed l.rest
              (Piece.weave Token.chars pieces (p.gap ++ ['}', Literal.templateQuote])) := by
            rw [← hweave, Piece.weave_append, Piece.weave, hp]
            exact Piece.closed_weave _ _ ((Closed.mark _ _).append _)
          rw [Piece.weave, Lexeme.token_chars] at hrest
          generalize hafter :
            Piece.weave Token.chars pieces (p.gap ++ ['}', Literal.templateQuote]) = after
            at hclosed hrest
          have hfirst : c = '/' → ∀ x ∈ s.context.before.head?, ∀ y ∈ t.context.before.head?,
              x.Matches v v y := by
            intro hc
            refine hslash.resolve_right fun hnone => hnone _ rfl ?_
            rw [Lexeme.token_chars, Lexeme.head?_of_read hread, hc]
          obtain ⟨rest', hskip', hread'⟩ :=
            read_enclosed hcontext hskip hread hcloses hfirst hclosed
          rw [← hrest] at hskip'
          have hmatches : (l.token (s.offset + byteLength gap)).Matches v v
              (l.token (t.offset + byteLength gap)) := ⟨rfl, fun _ => rfl, rfl⟩
          have hstop : (l.token (t.offset + byteLength gap)).stop =
              (l.token (s.offset + byteLength gap)).stop + n := by
            rw [Token.stop_eq, Token.stop_eq, Lexeme.token_chars, Lexeme.token_chars,
              Lexeme.token_start, Lexeme.token_start, hoffset]
            omega
          obtain ⟨others, hothers, htokens⟩ := ih hyields
            (t := accept v t.context (t.offset + byteLength gap) ⟨l.kind, l.text, after⟩)
            (hcontext.push hmatches hparens hcloses) hinside hbraces
            (Or.inl fun x hx y hy => by cases hx; cases hy; exact hmatches) hstop hafter.symm
          refine ⟨_, .token hskip' hread' hothers, ?_⟩
          rw [List.map_cons, htokens, hoffset, Nat.add_right_comm]
          rfl

end LexerState

end Respell
