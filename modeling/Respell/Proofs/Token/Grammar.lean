import Respell.Proofs.Token.Fault
import Respell.Proofs.Token.Literal

/-!
# The grammars of literals and comments

`IsString`, `IsTemplate`, `IsRegex` and `IsComment` say, without a scanner, which texts are literals
and block comments. The body of each is given from its beginning to its end, so an escape is one
unit whatever comes behind the backslash. The scanners know only the state that the part already
read leaves them in; what may still come in each state is said by `pending` or by `RegexRest`, and
an induction on the rest of the text follows the scanner from there.

`scans_exactly` states that a scanner takes a text exactly when it is of its grammar, that at most
one first part of a text is, and that a text without one is reported as not terminated.
-/

namespace Respell.Literal

open Text Text.Matcher

variable {c : Char} {s t rest : List Char}

/-- `StringBody quote body`: what may stand between the quotes of a string. A line goes on behind an
escaped line break, and a carriage return with a line feed is one line break. -/
inductive StringBody (quote : Char) : List Char → Prop where
  | nil : StringBody quote []
  | plain {c : Char} {body : List Char} :
      c ≠ quote → c ≠ '\\' → c ≠ '\n' → c ≠ '\r' → StringBody quote body →
      StringBody quote (c :: body)
  | escape {c : Char} {body : List Char} :
      StringBody quote body → StringBody quote ('\\' :: c :: body)
  | lineBreak {body : List Char} :
      StringBody quote body → StringBody quote ('\\' :: '\r' :: '\n' :: body)

/-- The text is a string in the quotes `quote`. -/
def IsString (quote : Char) (t : List Char) : Prop :=
  ∃ body, t = quote :: (body ++ [quote]) ∧ StringBody quote body

/-- `TemplateBody body`: what may stand in a piece of a template. -/
inductive TemplateBody : List Char → Prop where
  | nil : TemplateBody []
  | plain {c : Char} {body : List Char} :
      c ≠ templateQuote → c ≠ '\\' → ¬ substitutionMark <+: c :: body → TemplateBody body →
      TemplateBody (c :: body)
  | escape {c : Char} {body : List Char} : TemplateBody body → TemplateBody ('\\' :: c :: body)

/-- The text is a piece of a template that begins with `opening`. -/
def IsTemplate (opening : Char) (t : List Char) : Prop :=
  ∃ body mark, t = opening :: (body ++ mark) ∧ TemplateBody body ∧
    (mark = [templateQuote] ∨ mark = substitutionMark)

/-- `ClassBody members`: what may stand between the brackets of a class. -/
inductive ClassBody : List Char → Prop where
  | nil : ClassBody []
  | plain {c : Char} {members : List Char} :
      isLineEnd c = false → c ≠ '\\' → c ≠ ']' → ClassBody members → ClassBody (c :: members)
  | escape {c : Char} {members : List Char} :
      isLineEnd c = false → ClassBody members → ClassBody ('\\' :: c :: members)

/-- `RegexBody body`: what may stand between the slashes of a regular expression. A slash stands
there only in a class or behind a backslash. -/
inductive RegexBody : List Char → Prop where
  | nil : RegexBody []
  | plain {c : Char} {body : List Char} :
      isLineEnd c = false → c ≠ '/' → c ≠ '\\' → c ≠ '[' → RegexBody body → RegexBody (c :: body)
  | escape {c : Char} {body : List Char} :
      isLineEnd c = false → RegexBody body → RegexBody ('\\' :: c :: body)
  | group {members body : List Char} :
      ClassBody members → RegexBody body → RegexBody ('[' :: (members ++ ']' :: body))

/-- The text is a regular expression with all its flags, before the text `after`. -/
def IsRegex (t after : List Char) : Prop :=
  ∃ body flags, t = '/' :: (body ++ '/' :: flags) ∧ RegexBody body ∧
    (∀ c ∈ flags, Identifier.isPart c = true) ∧ after.head?.any Identifier.isPart = false

/-- A symbol and then a scan. -/
theorem enclosed_eq_some_iff {σ : Type} {step : σ → Char → Move σ} {state : σ} :
    sequence (exactly c) (scan step state) s = some (t, rest) ↔
      s = t ++ rest ∧ ∃ u, t = c :: u ∧ Finishes step state u := by
  rw [sequence_eq_some_iff]
  constructor
  · rintro ⟨u, v, mid, rfl, hfirst, hscan⟩
    obtain ⟨rfl, rfl⟩ := exactly_eq_some_iff.mp hfirst
    obtain ⟨rfl, hfinishes⟩ := scan_eq_some_iff.mp hscan
    exact ⟨rfl, v, rfl, hfinishes⟩
  · rintro ⟨rfl, u, rfl, hfinishes⟩
    exact ⟨[c], u, u ++ rest, rfl, exactly_eq_some_iff.mpr ⟨rfl, rfl⟩,
      scan_eq_some_iff.mpr ⟨rfl, hfinishes⟩⟩

section String

variable {quote : Char}

/-- The part of an escape that has been read when the scan of a string is in this state. -/
def StringState.pending : StringState → List Char
  | .plain => []
  | .escape => ['\\']
  | .carriage => ['\\', '\r']

/-- A string ends with its quote. -/
theorem stringMove_quote : stringMove quote .plain quote = .finish := by
  simp [stringMove]

/-- A backslash begins an escape. -/
theorem stringMove_backslash (hquote : '\\' ≠ quote) :
    stringMove quote .plain '\\' = .go .escape := by
  simp [stringMove, hquote]

/-- Any other character but a line break stands for itself. -/
theorem stringMove_plain (hquote : c ≠ quote) (hmark : c ≠ '\\') (hfeed : c ≠ '\n')
    (hreturn : c ≠ '\r') : stringMove quote .plain c = .go .plain := by
  simp [stringMove, hquote, hmark, hfeed, hreturn]

/-- Behind a backslash any character but a carriage return ends the escape. -/
theorem stringMove_escape (hreturn : c ≠ '\r') : stringMove quote .escape c = .go .plain := by
  simp [stringMove, hreturn]

/-- After an escaped carriage return only a line feed is read in a way of its own. -/
theorem stringMove_carriage (h : c ≠ '\n') :
    stringMove quote .carriage c = stringMove quote .plain c := by
  simp [stringMove, h]

/-- A scan of a string that finishes has read a body and the quote. -/
theorem StringBody.of_finishes {state : StringState} (h : Finishes (stringMove quote) state t) :
    ∃ body, state.pending ++ t = body ++ [quote] ∧ StringBody quote body := by
  induction t generalizing state with
  | nil => exact h.elim
  | cons c t ih =>
      have hplain (h : Finishes (stringMove quote) .plain (c :: t)) :
          ∃ body, c :: t = body ++ [quote] ∧ StringBody quote body := by
        by_cases hquote : c = quote
        · subst hquote
          obtain rfl := (finishes_finish stringMove_quote).mp h
          exact ⟨[], rfl, .nil⟩
        · by_cases hmark : c = '\\'
          · subst hmark
            exact ih ((finishes_go (stringMove_backslash hquote)).mp h)
          · by_cases hbreak : c = '\n' ∨ c = '\r'
            · have hstep : stringMove quote .plain c = .refuse := by
                simp [stringMove, hquote, hmark, hbreak]
              exact absurd h (not_finishes_refuse hstep)
            · obtain ⟨hfeed, hreturn⟩ := not_or.mp hbreak
              obtain ⟨body, ht, hbody⟩ :=
                ih ((finishes_go (stringMove_plain hquote hmark hfeed hreturn)).mp h)
              exact ⟨c :: body, congrArg (c :: ·) ht, .plain hquote hmark hfeed hreturn hbody⟩
      cases state with
      | plain => exact hplain h
      | escape =>
          by_cases hcarriage : c = '\r'
          · subst hcarriage
            exact ih ((finishes_go rfl).mp h)
          · obtain ⟨body, ht, hbody⟩ := ih ((finishes_go (stringMove_escape hcarriage)).mp h)
            exact ⟨'\\' :: c :: body, congrArg ('\\' :: c :: ·) ht, .escape hbody⟩
      | carriage =>
          by_cases hfeed : c = '\n'
          · subst hfeed
            obtain ⟨body, ht, hbody⟩ := ih ((finishes_go rfl).mp h)
            exact ⟨'\\' :: '\r' :: '\n' :: body, congrArg ('\\' :: '\r' :: '\n' :: ·) ht,
              .lineBreak hbody⟩
          · -- The carriage return was all of the escape.
            have hsame : ∀ d ∈ (c :: t).head?,
                stringMove quote .carriage d = stringMove quote .plain d := by
              rintro d ⟨⟩
              exact stringMove_carriage hfeed
            obtain ⟨body, ht, hbody⟩ := hplain ((finishes_congr hsame).mp h)
            exact ⟨'\\' :: '\r' :: body, congrArg ('\\' :: '\r' :: ·) ht, .escape hbody⟩

/-- No body of a string begins with a line feed. -/
theorem StringBody.head?_ne {body : List Char} (h : StringBody quote body) :
    body.head? ≠ some '\n' := by
  cases h with
  | plain _ _ hfeed _ _ => simpa using hfeed
  | nil | escape _ | lineBreak _ => simp

/-- A scan of a string goes through a body and finishes with the quote. -/
theorem StringBody.finishes {body : List Char} (hquote : quote = singleQuote ∨ quote = doubleQuote)
    (h : StringBody quote body) : Finishes (stringMove quote) .plain (body ++ [quote]) := by
  have hmark : ('\\' : Char) ≠ quote := by rcases hquote with rfl | rfl <;> decide
  have hfeed : quote ≠ '\n' := by rcases hquote with rfl | rfl <;> decide
  induction h with
  | nil => exact (finishes_finish stringMove_quote).mpr rfl
  | plain hc hbackslash hline hreturn _ ih =>
      exact (finishes_go (stringMove_plain hc hbackslash hline hreturn)).mpr ih
  | @escape c body hbody ih =>
      rw [List.cons_append, List.cons_append, finishes_go (stringMove_backslash hmark)]
      by_cases hcarriage : c = '\r'
      · subst hcarriage
        refine (finishes_go rfl).mpr ((finishes_congr fun d hd => ?_).mpr ih)
        refine stringMove_carriage ?_
        rintro rfl
        rw [Option.mem_def, List.head?_append, Option.or_eq_some_iff] at hd
        rcases hd with hd | ⟨_, hd⟩
        · exact hbody.head?_ne hd
        · exact hfeed (Option.some.inj hd)
      · exact (finishes_go (stringMove_escape hcarriage)).mpr ih
  | lineBreak _ ih =>
      rw [List.cons_append, finishes_go (stringMove_backslash hmark)]
      exact (finishes_go rfl).mpr ((finishes_go rfl).mpr ih)

/-- The strings that are read are the strings. -/
theorem string_eq_some_iff (hquote : quote = singleQuote ∨ quote = doubleQuote) :
    string quote s = some (t, rest) ↔ s = t ++ rest ∧ IsString quote t := by
  rw [string, enclosed_eq_some_iff]
  refine and_congr_right fun _ => ?_
  constructor
  · rintro ⟨u, rfl, hfinishes⟩
    obtain ⟨body, hu, hbody⟩ := StringBody.of_finishes hfinishes
    exact ⟨body, congrArg (quote :: ·) hu, hbody⟩
  · rintro ⟨body, rfl, hbody⟩
    exact ⟨_, rfl, hbody.finishes hquote⟩

end String

section Template

/-- The characters that have been read and may still belong to an escape or a mark. -/
def TemplateState.pending : TemplateState → List Char
  | .plain => []
  | .escape => ['\\']
  | .dollar => ['$']

/-- In a piece of a template any character but the three with a meaning stands for itself. -/
theorem templateMove_plain (hquote : c ≠ templateQuote) (hmark : c ≠ '\\') (hdollar : c ≠ '$') :
    templateMove .plain c = .go .plain := by
  simp [templateMove, hquote, hmark, hdollar]

/-- After a dollar sign only the brace is read in a way of its own. -/
theorem templateMove_dollar (h : c ≠ '{') : templateMove .dollar c = templateMove .plain c := by
  simp [templateMove, h]

/-- A scan of a piece of a template that finishes has read a body and one of the two marks. -/
theorem TemplateBody.of_finishes {state : TemplateState} (h : Finishes templateMove state t) :
    ∃ body mark, state.pending ++ t = body ++ mark ∧ TemplateBody body ∧
      (mark = [templateQuote] ∨ mark = substitutionMark) := by
  induction t generalizing state with
  | nil => exact h.elim
  | cons c t ih =>
      have hplain (h : Finishes templateMove .plain (c :: t)) :
          ∃ body mark, c :: t = body ++ mark ∧ TemplateBody body ∧
            (mark = [templateQuote] ∨ mark = substitutionMark) := by
        by_cases hquote : c = templateQuote
        · subst hquote
          obtain rfl := (finishes_finish rfl).mp h
          exact ⟨[], [templateQuote], rfl, .nil, Or.inl rfl⟩
        · by_cases hmark : c = '\\'
          · subst hmark
            exact ih ((finishes_go rfl).mp h)
          · by_cases hdollar : c = '$'
            · subst hdollar
              exact ih ((finishes_go rfl).mp h)
            · obtain ⟨body, mark, ht, hbody, hend⟩ :=
                ih ((finishes_go (templateMove_plain hquote hmark hdollar)).mp h)
              refine ⟨c :: body, mark, congrArg (c :: ·) ht, .plain hquote hmark ?_ hbody, hend⟩
              exact fun hprefix => hdollar (List.cons_prefix_cons.mp hprefix).1.symm
      cases state with
      | plain => exact hplain h
      | escape =>
          obtain ⟨body, mark, ht, hbody, hend⟩ := ih ((finishes_go rfl).mp h)
          exact ⟨'\\' :: c :: body, mark, congrArg ('\\' :: c :: ·) ht, .escape hbody, hend⟩
      | dollar =>
          by_cases hbrace : c = '{'
          · subst hbrace
            obtain rfl := (finishes_finish rfl).mp h
            exact ⟨[], substitutionMark, rfl, .nil, Or.inr rfl⟩
          · -- The dollar sign opens nothing, so it belongs to the body.
            have hsame : ∀ d ∈ (c :: t).head?, templateMove .dollar d = templateMove .plain d := by
              rintro d ⟨⟩
              exact templateMove_dollar hbrace
            obtain ⟨body, mark, ht, hbody, hend⟩ := hplain ((finishes_congr hsame).mp h)
            refine ⟨'$' :: body, mark, congrArg ('$' :: ·) ht,
              .plain (by decide) (by decide) ?_ hbody, hend⟩
            intro hprefix
            obtain ⟨more, rfl⟩ := (List.cons_prefix_cons.mp hprefix).2
            exact hbrace (List.cons.inj ht).1

/-- A scan of a piece of a template goes through a body and finishes with either mark. -/
theorem TemplateBody.finishes {body mark : List Char} (h : TemplateBody body)
    (hmark : mark = [templateQuote] ∨ mark = substitutionMark) :
    Finishes templateMove .plain (body ++ mark) := by
  induction h with
  | nil =>
      rcases hmark with rfl | rfl
      · exact (finishes_finish rfl).mpr rfl
      · exact (finishes_go rfl).mpr ((finishes_finish rfl).mpr rfl)
  | @plain c body hquote hbackslash hsubstitution _ ih =>
      rw [List.cons_append]
      by_cases hdollar : c = '$'
      · subst hdollar
        refine (finishes_go rfl).mpr ((finishes_congr fun d hd => ?_).mpr ih)
        refine templateMove_dollar ?_
        rintro rfl
        rw [Option.mem_def, List.head?_append, Option.or_eq_some_iff] at hd
        rcases hd with hd | ⟨_, hd⟩
        · obtain ⟨more, rfl⟩ := List.head?_eq_some_iff.mp hd
          exact hsubstitution ⟨more, rfl⟩
        · rcases hmark with rfl | rfl <;> cases hd
      · exact (finishes_go (templateMove_plain hquote hbackslash hdollar)).mpr ih
  | escape _ ih => exact (finishes_go rfl).mpr ((finishes_go rfl).mpr ih)

/-- The pieces of templates that are read are the pieces of templates. -/
theorem template_eq_some_iff {opening : Char} :
    template opening s = some (t, rest) ↔ s = t ++ rest ∧ IsTemplate opening t := by
  rw [template, enclosed_eq_some_iff]
  refine and_congr_right fun _ => ?_
  constructor
  · rintro ⟨u, rfl, hfinishes⟩
    obtain ⟨body, mark, hu, hbody, hmark⟩ := TemplateBody.of_finishes hfinishes
    exact ⟨body, mark, congrArg (opening :: ·) hu, hbody, hmark⟩
  · rintro ⟨body, mark, rfl, hbody, hmark⟩
    exact ⟨_, rfl, hbody.finishes hmark⟩

end Template

section Regex

/-- What may still come before the closing slash when the scan of a regular expression is in this
state. -/
def RegexRest : RegexState → List Char → Prop
  | .plain, u => RegexBody u
  | .escape, u => RegexBody ('\\' :: u)
  | .inClass, u => ∃ members body, u = members ++ ']' :: body ∧ ClassBody members ∧ RegexBody body
  | .classEscape, u =>
    ∃ members body, '\\' :: u = members ++ ']' :: body ∧ ClassBody members ∧ RegexBody body

/-- Outside a class any character but the three with a meaning stands for itself. -/
theorem regexMove_plain (hline : isLineEnd c = false) (hslash : c ≠ '/') (hmark : c ≠ '\\')
    (hopen : c ≠ '[') : regexMove .plain c = .go .plain := by
  simp [regexMove, hline, hslash, hmark, hopen]

/-- In a class any character but the two with a meaning stands for itself. -/
theorem regexMove_inClass (hline : isLineEnd c = false) (hmark : c ≠ '\\') (hclose : c ≠ ']') :
    regexMove .inClass c = .go .inClass := by
  simp [regexMove, hline, hmark, hclose]

/-- A backslash outside a class makes the next character stand for itself. -/
theorem regexMove_escape (hline : isLineEnd c = false) : regexMove .escape c = .go .plain := by
  simp [regexMove, hline]

/-- A backslash in a class makes the next character stand for itself. -/
theorem regexMove_classEscape (hline : isLineEnd c = false) :
    regexMove .classEscape c = .go .inClass := by
  simp [regexMove, hline]

/-- A scan of a regular expression that finishes has read what its state asks for and the slash. -/
theorem RegexRest.of_finishes {state : RegexState} (h : Finishes regexMove state t) :
    ∃ u, t = u ++ ['/'] ∧ RegexRest state u := by
  induction t generalizing state with
  | nil => exact h.elim
  | cons c t ih =>
      cases hline : isLineEnd c with
      | true =>
          have hstep : regexMove state c = .refuse := if_pos hline
          exact absurd h (not_finishes_refuse hstep)
      | false =>
          cases state with
          | plain =>
              by_cases hslash : c = '/'
              · subst hslash
                obtain rfl := (finishes_finish rfl).mp h
                exact ⟨[], rfl, .nil⟩
              · by_cases hmark : c = '\\'
                · subst hmark
                  obtain ⟨u, rfl, hu⟩ := ih ((finishes_go rfl).mp h)
                  exact ⟨'\\' :: u, rfl, hu⟩
                · by_cases hopen : c = '['
                  · subst hopen
                    obtain ⟨_, rfl, members, body, rfl, hmembers, hbody⟩ :=
                      ih ((finishes_go rfl).mp h)
                    exact ⟨'[' :: (members ++ ']' :: body), rfl, .group hmembers hbody⟩
                  · obtain ⟨u, rfl, hu⟩ :=
                      ih ((finishes_go (regexMove_plain hline hslash hmark hopen)).mp h)
                    exact ⟨c :: u, rfl, .plain hline hslash hmark hopen hu⟩
          | escape =>
              obtain ⟨u, rfl, hu⟩ := ih ((finishes_go (regexMove_escape hline)).mp h)
              exact ⟨c :: u, rfl, .escape hline hu⟩
          | inClass =>
              by_cases hmark : c = '\\'
              · subst hmark
                obtain ⟨u, rfl, hu⟩ := ih ((finishes_go rfl).mp h)
                exact ⟨'\\' :: u, rfl, hu⟩
              · by_cases hclose : c = ']'
                · subst hclose
                  obtain ⟨u, rfl, hu⟩ := ih ((finishes_go rfl).mp h)
                  exact ⟨']' :: u, rfl, [], u, rfl, .nil, hu⟩
                · obtain ⟨u, rfl, members, body, rfl, hmembers, hbody⟩ :=
                    ih ((finishes_go (regexMove_inClass hline hmark hclose)).mp h)
                  exact ⟨_, rfl, c :: members, body, rfl, .plain hline hmark hclose hmembers, hbody⟩
          | classEscape =>
              obtain ⟨u, rfl, members, body, hu, hmembers, hbody⟩ :=
                ih ((finishes_go (regexMove_classEscape hline)).mp h)
              exact ⟨c :: u, rfl, '\\' :: c :: members, body, by rw [hu]; rfl,
                .escape hline hmembers, hbody⟩

/-- A scan goes through a class to what stands behind it. -/
theorem ClassBody.finishes {members : List Char} (h : ClassBody members)
    (ht : Finishes regexMove .plain t) : Finishes regexMove .inClass (members ++ ']' :: t) := by
  induction h with
  | nil => exact (finishes_go rfl).mpr ht
  | plain hline hmark hclose _ ih =>
      exact (finishes_go (regexMove_inClass hline hmark hclose)).mpr ih
  | escape hline _ ih =>
      exact (finishes_go rfl).mpr ((finishes_go (regexMove_classEscape hline)).mpr ih)

/-- A scan of a regular expression goes through a body and finishes with the slash. -/
theorem RegexBody.finishes {body : List Char} (h : RegexBody body) :
    Finishes regexMove .plain (body ++ ['/']) := by
  induction h with
  | nil => exact (finishes_finish rfl).mpr rfl
  | plain hline hslash hmark hopen _ ih =>
      exact (finishes_go (regexMove_plain hline hslash hmark hopen)).mpr ih
  | escape hline _ ih =>
      exact (finishes_go rfl).mpr ((finishes_go (regexMove_escape hline)).mpr ih)
  | group hmembers _ ih =>
      rw [List.cons_append, List.append_assoc]
      exact (finishes_go rfl).mpr (hmembers.finishes ih)

/-- The regular expressions that are read are the regular expressions with all their flags. -/
theorem regex_eq_some_iff : regex s = some (t, rest) ↔ s = t ++ rest ∧ IsRegex t rest := by
  rw [regex, ← sequence_assoc, sequence_eq_some_iff]
  constructor
  · rintro ⟨u, flags, mid, rfl, hbody, hflags⟩
    obtain ⟨rfl, _, rfl, hfinishes⟩ := enclosed_eq_some_iff.mp hbody
    obtain ⟨rfl, hall, hend⟩ := many_eq_some_iff.mp hflags
    obtain ⟨body, rfl, hrest⟩ := RegexRest.of_finishes hfinishes
    exact ⟨by simp, body, flags, by simp, hrest, hall, hend⟩
  · rintro ⟨rfl, body, flags, rfl, hbody, hall, hend⟩
    refine ⟨'/' :: (body ++ ['/']), flags, flags ++ rest, by simp, ?_,
      many_eq_some_iff.mpr ⟨rfl, hall, hend⟩⟩
    exact enclosed_eq_some_iff.mpr ⟨by simp, _, rfl, hbody.finishes⟩

end Regex

end Respell.Literal

namespace Respell

open Text Literal

variable {s : List Char}

/-- The text is a block comment: it has its closing mark at its end and nowhere before. -/
def Trivia.IsComment (t : List Char) : Prop := ∃ body, t = ['/', '*'] ++ body ∧ EndsAtFirstMark body

/-- `IsFirstPart P s t rest`: the text `s` is cut into `t` and `rest`, and `P` holds of them. -/
def IsFirstPart (P : List Char → List Char → Prop) (s t rest : List Char) : Prop :=
  s = t ++ rest ∧ P t rest

/-- A scanner of lexemes takes the first parts of `s` of the grammar `P`. There is at most one, and
where there is none, the scanner is at fault. -/
structure Lexeme.ScansExactly (kind : TokenKind) (fault : LexicalFault) (m : Matcher Char)
    (P : List Char → List Char → Prop) (s : List Char) : Prop where
  ok : ∀ l, ofMatcher kind fault m s = .ok l ↔ l.kind = kind ∧ IsFirstPart P s l.text l.rest
  atMostOne : ∀ t rest u last, IsFirstPart P s t rest → IsFirstPart P s u last → t = u ∧ rest = last
  error : ofMatcher kind fault m s = .error ⟨fault, []⟩ ↔ ∀ t rest, ¬ IsFirstPart P s t rest

/-- The scanner of gaps takes the block comment that begins `s`. There is at most one, and where
there is none, the scanner is at fault behind what it has taken before. -/
structure Trivia.ScansCommentExactly (s : List Char) : Prop where
  ok : ∀ t rest, trivium s = some (t, rest) ↔ IsFirstPart (fun t _ => IsComment t) s t rest
  atMostOne : ∀ t rest u last, IsFirstPart (fun t _ => IsComment t) s t rest →
    IsFirstPart (fun t _ => IsComment t) s u last → t = u ∧ rest = last
  error : ∀ taken, skipFrom taken s = .error taken.reverse ↔
    ∀ t rest, ¬ IsFirstPart (fun t _ => IsComment t) s t rest

/-- A matcher that takes what is of a grammar takes at most one first part. -/
theorem IsFirstPart.unique {P : List Char → List Char → Prop} {m : Matcher Char}
    (hm : ∀ t rest, m s = some (t, rest) ↔ IsFirstPart P s t rest) (t rest u last : List Char)
    (ht : IsFirstPart P s t rest) (hu : IsFirstPart P s u last) : t = u ∧ rest = last := by
  have hsame := ((hm t rest).mpr ht).symm.trans ((hm u last).mpr hu)
  rwa [Option.some.injEq, Prod.mk.injEq] at hsame

/-- A matcher that takes what is of a grammar refuses a text without such a first part. -/
theorem IsFirstPart.eq_none_iff {P : List Char → List Char → Prop} {m : Matcher Char}
    (hm : ∀ t rest, m s = some (t, rest) ↔ IsFirstPart P s t rest) :
    m s = none ↔ ∀ t rest, ¬ IsFirstPart P s t rest := by
  rw [Option.eq_none_iff_forall_ne_some, Prod.forall]
  exact forall₂_congr fun t rest => not_congr (hm t rest)

/-- A matcher that takes what is of a grammar makes an exact scanner. -/
theorem Lexeme.scansExactly_of_matcher {kind : TokenKind} {fault : LexicalFault}
    {P : List Char → List Char → Prop} {m : Matcher Char}
    (hm : ∀ t rest, m s = some (t, rest) ↔ IsFirstPart P s t rest) :
    ScansExactly kind fault m P s where
  ok l := ofMatcher_eq_ok_iff.trans (and_congr_right fun _ => hm _ _)
  atMostOne := IsFirstPart.unique hm
  error := by
    rw [← IsFirstPart.eq_none_iff hm, ofMatcher_eq_error_iff]
    exact and_iff_right rfl

/-- Of a text that begins like a block comment, exactly the block comment is taken. -/
theorem Trivia.scansCommentExactly (s : List Char) : ScansCommentExactly ('/' :: '*' :: s) := by
  have hm (t rest : List Char) : trivium ('/' :: '*' :: s) = some (t, rest) ↔
      IsFirstPart (fun t _ => IsComment t) ('/' :: '*' :: s) t rest := by
    have htrivium : trivium ('/' :: '*' :: s) = blockComment ('/' :: '*' :: s) := rfl
    rw [htrivium, blockComment_eq_some_iff]
    constructor
    · rintro ⟨body, rfl, hs, hbody⟩
      exact ⟨hs, body, rfl, hbody⟩
    · rintro ⟨hs, body, rfl, hbody⟩
      exact ⟨body, rfl, hs, hbody⟩
  refine ⟨hm, IsFirstPart.unique hm, fun taken => ?_⟩
  rw [← IsFirstPart.eq_none_iff hm]
  constructor
  · intro h
    -- With a comment taken, the fault would stand behind it.
    cases htrivium : trivium ('/' :: '*' :: s) with
    | none => rfl
    | some result =>
        obtain ⟨t, rest⟩ := result
        rw [skipFrom] at h
        split at h
        · rename_i u mid hsome
          cases htrivium.symm.trans hsome
          obtain ⟨before, _, htaken, _⟩ := fault_of_skipFrom h
          rw [List.reverse_append, List.reverse_reverse, List.append_assoc] at htaken
          have hnil := List.append_cancel_left ((List.append_nil _).trans htaken)
          exact absurd (List.append_eq_nil_iff.mp hnil.symm).1 (advances_trivium _ _ _ hsome)
        · rename_i hnone
          cases htrivium.symm.trans hnone
  · intro hnone
    rw [skipFrom]
    split
    · rename_i hsome
      cases hnone.symm.trans hsome
    · exact if_pos rfl

/-- The scanners of strings, pieces of templates, regular expressions and block comments take a text
exactly when it is of their grammar, and are at fault exactly when it has no such first part. -/
theorem scans_exactly (s : List Char) :
    (∀ quote ∈ [singleQuote, doubleQuote], Lexeme.ScansExactly .string .unterminatedString
      (string quote) (fun t _ => IsString quote t) s) ∧
    (∀ opening, Lexeme.ScansExactly .template .unterminatedTemplate (template opening)
      (fun t _ => IsTemplate opening t) s) ∧
    Lexeme.ScansExactly .regex .unterminatedRegex regex IsRegex s ∧
    Trivia.ScansCommentExactly ('/' :: '*' :: s) := by
  refine ⟨fun quote hquote => Lexeme.scansExactly_of_matcher fun t rest => ?_,
    fun opening => Lexeme.scansExactly_of_matcher fun t rest => template_eq_some_iff,
    Lexeme.scansExactly_of_matcher fun t rest => regex_eq_some_iff,
    Trivia.scansCommentExactly s⟩
  exact string_eq_some_iff (by simpa using hquote)

end Respell
