import Respell.Proofs.Text.Position
import Respell.Proofs.Token.Grammar
import Respell.Proofs.Token.Numeral
import Respell.Proofs.Token.Punctuator

/-!
# What a lexical error points at

An error names a construct and a place. `Shows` says what the text behind the place has to be for
each construct: the beginning of a literal or of a comment that the text does not close, an escape
that is not complete, or a character with which neither a gap nor a token goes on. A step finds a
fault at one of the nine places where a scanner gives up, and `shows_of_next` follows it there from
the beginning of the step. `located_of_tokenize` is what a reader of the error relies on: the
construct stands at the offset, and the line and the column lead to the same place.
-/

namespace Respell

open Text

/-- The text begins as some token does: with the first characters of one of the forms, and where the
form is that of punctuators, with one of them. -/
def CanBeginToken (v : Vocabulary) (s : List Char) : Prop :=
  ∃ ctx c rest f, s = c :: rest ∧ Form.Begins v ctx c rest.head? f ∧
    (f = .punctuator → ∃ p ∈ Punctuator.all, p <+: s)

/-- What stands at the place of a fault, of which the text behind the place is `after`. -/
def LexicalFault.Shows (v : Vocabulary) (after : List Char) : LexicalFault → Prop
  | .unterminatedString => ∃ quote ∈ [singleQuote, doubleQuote], after.head? = some quote ∧
      ∀ t rest, ¬ IsFirstPart (fun t _ => Literal.IsString quote t) after t rest
  | .unterminatedTemplate => ∃ opening ∈ [Literal.templateQuote, '}'], after.head? = some opening ∧
      ∀ t rest, ¬ IsFirstPart (fun t _ => Literal.IsTemplate opening t) after t rest
  | .unterminatedRegex => after.head? = some '/' ∧
      ∀ t rest, ¬ IsFirstPart Literal.IsRegex after t rest
  | .unterminatedComment => ['/', '*'] <+: after ∧
      ∀ t rest, ¬ IsFirstPart (fun t _ => Trivia.IsComment t) after t rest
  | .invalidEscape => ∃ more, after = '\\' :: 'u' :: more ∧
      (¬ ∃ digits rest, more = digits ++ rest ∧ digits.length = 4 ∧
        ∀ d ∈ digits, Numeral.isHexDigit d = true) ∧
      ¬ ∃ digits rest, more = '{' :: (digits ++ '}' :: rest) ∧ digits ≠ [] ∧
        ∀ d ∈ digits, Numeral.isHexDigit d = true
  | .unexpected c => after.head? = some c ∧ Trivia.isBlank c = false ∧ ¬ CanBeginToken v after

/-- Behind the place of a fault the text goes on. -/
theorem LexicalFault.Shows.ne_nil {v : Vocabulary} {after : List Char} {fault : LexicalFault}
    (h : fault.Shows v after) : after ≠ [] := by
  rintro rfl
  cases fault with
  | unterminatedString | unterminatedTemplate =>
      obtain ⟨_, _, hhead, _⟩ := h
      cases hhead
  | unterminatedComment => exact absurd (List.prefix_nil.mp h.1) (List.cons_ne_nil _ _)
  | invalidEscape =>
      obtain ⟨_, hnil, _⟩ := h
      cases hnil
  | unterminatedRegex | unexpected c => cases h.1

namespace Lexeme

variable {v : Vocabulary} {ctx : Context} {c : Char} {rest s : List Char}

/-- What is read as a token can begin one. -/
theorem canBeginToken_of_read {l : Lexeme} (h : read v ctx c rest = .ok l) :
    CanBeginToken v (c :: rest) := by
  refine ⟨ctx, c, rest, _, rfl, begins_of_form rfl, fun hform => ?_⟩
  rw [read_eq_readForm, hform] at h
  obtain ⟨p, hfind, _⟩ := Punctuator.punctuator_eq_some_iff.mp (ofMatcher_eq_ok_iff.mp h).2
  exact ⟨p, List.mem_of_find?_eq_some hfind, Punctuator.prefix_of_find?_eq_some hfind⟩

/-- A character that begins no other form of tokens begins the form of punctuators. -/
theorem form_eq_punctuator (f : Form) {next : Option Char}
    (h : form v ctx c next = .punctuator) (hbegins : f.Begins v ctx c next) : f = .punctuator := by
  unfold form at h
  split_ifs at h
  cases f with
  | punctuator => rfl
  | _ => contradiction

/-- Where no other form of tokens begins, a token can begin exactly if a punctuator is read. -/
theorem not_canBeginToken_iff (hform : form v ctx c rest.head? = .punctuator) :
    ¬ CanBeginToken v (c :: rest) ↔ Punctuator.punctuator (c :: rest) = none := by
  constructor
  · intro hnone
    by_contra hsome
    obtain ⟨⟨t, last⟩, hsome⟩ := Option.ne_none_iff_exists'.mp hsome
    have hread : read v ctx c rest = .ok ⟨.punctuator, t, last⟩ := by
      rw [read_eq_readForm, hform]
      exact ofMatcher_eq_ok_iff.mpr ⟨rfl, hsome⟩
    exact hnone (canBeginToken_of_read hread)
  · intro h
    have hall := Punctuator.not_prefix_of_eq_none h
    have hmark {d : Char} (hd : [d] ∈ Punctuator.all) : c ≠ d := by
      rintro rfl
      exact hall _ hd ⟨rest, rfl⟩
    rintro ⟨other, _, _, f, hs, hbegins, hpunctuator⟩
    obtain ⟨rfl, rfl⟩ := List.cons.inj hs
    -- A brace or a slash that begins a token of another form elsewhere is still a punctuator.
    cases f with
    | string => cases form_eq_punctuator .string hform hbegins
    | privateName => cases form_eq_punctuator .privateName hform hbegins
    | word => cases form_eq_punctuator .word hform hbegins
    | numeral => cases form_eq_punctuator .numeral hform hbegins
    | template =>
        rcases hbegins with hquote | ⟨hbrace, _⟩
        · cases form_eq_punctuator .template hform (Or.inl hquote)
        · exact hmark (by decide) hbrace
    | regex => exact hmark (by decide) hbegins.1
    | punctuator =>
        obtain ⟨p, hp, hprefix⟩ := hpunctuator rfl
        exact hall p hp hprefix

/-- A token that cannot be read shows its fault. -/
theorem shows_of_read {e : LexemeFault} (hblank : Trivia.isBlank c = false)
    (h : read v ctx c rest = .error e) :
    ∃ after, c :: rest = e.before ++ after ∧ e.fault.Shows v after := by
  rw [read_eq_readForm] at h
  have hbegins := begins_of_form (rfl : form v ctx c rest.head? = _)
  cases hform : form v ctx c rest.head? with
  | string =>
      rw [hform] at h hbegins
      obtain ⟨rfl, hnone⟩ := ofMatcher_eq_error_iff.mp h
      refine ⟨c :: rest, rfl, c, by simpa [Form.Begins] using hbegins, rfl, ?_⟩
      exact (IsFirstPart.eq_none_iff fun t rest => Literal.string_eq_some_iff hbegins).mp hnone
  | template =>
      rw [hform] at h hbegins
      obtain ⟨rfl, hnone⟩ := ofMatcher_eq_error_iff.mp h
      have hopening : c ∈ [Literal.templateQuote, '}'] := by
        rcases hbegins with rfl | ⟨rfl, _⟩ <;> decide
      refine ⟨c :: rest, rfl, c, hopening, rfl, ?_⟩
      exact (IsFirstPart.eq_none_iff fun t rest => Literal.template_eq_some_iff).mp hnone
  | privateName =>
      rw [hform] at h hbegins
      obtain ⟨_, hnone⟩ := ofMatcher_eq_error_iff.mp h
      obtain ⟨rfl, _⟩ := hbegins
      cases hnone
  | word =>
      rw [hform, readForm, word] at h
      split at h
      · cases h
      · rename_i before hscan
        cases h
        obtain ⟨front, more, rfl, htext, hescape⟩ := Word.fault_of_scanFrom hscan
        exact ⟨_, htext, more, rfl, Word.escape_eq_none_iff.mp hescape⟩
  | numeral =>
      rw [hform] at h hbegins
      obtain ⟨_, hnone⟩ := ofMatcher_eq_error_iff.mp h
      exact absurd hnone (Numeral.numeral_ne_none hbegins)
  | regex =>
      rw [hform] at h hbegins
      obtain ⟨rfl, hnone⟩ := ofMatcher_eq_error_iff.mp h
      refine ⟨c :: rest, rfl, congrArg some hbegins.1, ?_⟩
      exact (IsFirstPart.eq_none_iff fun t rest => Literal.regex_eq_some_iff).mp hnone
  | punctuator =>
      rw [hform] at h
      obtain ⟨rfl, hnone⟩ := ofMatcher_eq_error_iff.mp h
      exact ⟨c :: rest, rfl, rfl, hblank, (not_canBeginToken_iff hform).mpr hnone⟩

end Lexeme

/-- A gap that cannot be skipped shows its fault. -/
theorem Trivia.shows_of_skip {v : Vocabulary} {s gap : List Char} (h : skip s = .error gap) :
    ∃ after, s = gap ++ after ∧ LexicalFault.unterminatedComment.Shows v after := by
  obtain ⟨_, after, rfl, htext, hopen, hnone⟩ := fault_of_skipFrom h
  have hopen := List.isPrefixOf_iff_prefix.mp hopen
  obtain ⟨more, rfl⟩ := hopen
  refine ⟨_, htext, ⟨more, rfl⟩, ?_⟩
  exact (IsFirstPart.eq_none_iff (scansCommentExactly more).ok).mp hnone

namespace LexerState

variable {v : Vocabulary} {text : List Char} {s : LexerState} {fault : LexicalFault} {offset : Nat}

/-- A step that fails shows its fault behind a first part of the rest. -/
theorem shows_of_next (h : s.next v = .error (fault, offset)) :
    ∃ before after, s.rest = before ++ after ∧ offset = s.offset + byteLength before ∧
      fault.Shows v after := by
  rw [next] at h
  split at h
  · rename_i gap hskip
    cases h
    obtain ⟨after, hrest, hshows⟩ := Trivia.shows_of_skip hskip
    exact ⟨gap, after, hrest, rfl, hshows⟩
  · cases h
  · rename_i gap c rest hskip
    dsimp only at h
    split at h
    · rename_i e hread
      cases h
      obtain ⟨hrest, _, hstops⟩ := Trivia.skip_eq_ok_iff.mp hskip
      obtain ⟨after, htext, hshows⟩ := Lexeme.shows_of_read hstops.blank hread
      refine ⟨gap ++ e.before, after, ?_, ?_, hshows⟩
      · rw [hrest, htext, List.append_assoc]
      · rw [byteLength_append, Nat.add_assoc]
    · cases h

/-- A run that fails shows its fault behind a first part of the text. -/
theorem Reaches.shows_of_run (hreaches : Reaches v text s)
    (h : s.run v = .error (fault, offset)) :
    ∃ before after, text = before ++ after ∧ offset = byteLength before ∧ fault.Shows v after := by
  obtain ⟨t, ht, hnext⟩ := hreaches.exists_next_of_run h
  obtain ⟨front, htext, hoffset⟩ := ht.text_eq
  obtain ⟨before, after, hrest, hfault, hshows⟩ := shows_of_next hnext
  refine ⟨front ++ before, after, ?_, ?_, hshows⟩
  · rw [htext, hrest, List.append_assoc]
  · rw [hfault, hoffset, byteLength_append]

/-- A run is at fault behind a first part of the text. -/
theorem Reaches.fault_of_run (hreaches : Reaches v text s)
    (h : s.run v = .error (fault, offset)) :
    ∃ before after, text = before ++ after ∧ offset = byteLength before := by
  obtain ⟨before, after, htext, hoffset, _⟩ := hreaches.shows_of_run h
  exact ⟨before, after, htext, hoffset⟩

end LexerState

/-- An error stands inside the text, before the construct that its fault names, and of all the
places of the text its line and its column lead to that one. -/
theorem located_of_tokenize {v : Vocabulary} {text : String} {e : LexicalError}
    (h : tokenize v text = .error e) :
    ∃ before after, text.toList = before ++ after ∧ after ≠ [] ∧ e.offset = byteLength before ∧
      e.fault.Shows v after ∧
      ∀ front, front <+: text.toList → (e.position.Locates front ↔ front = before) := by
  rw [tokenize] at h
  split at h
  · cases h
  · rename_i fault offset hrun
    cases h
    obtain ⟨before, after, htext, rfl, hshows⟩ := LexerState.Reaches.initial.shows_of_run hrun
    refine ⟨before, after, htext, hshows.ne_nil, rfl, hshows, fun front hfront => ?_⟩
    have hposition : Position.ofOffset text.toList (byteLength before) = Position.after before := by
      rw [htext, Position.ofOffset, splitBytes_append]
    rw [LexicalError.at, hposition]
    exact Position.locates_after_iff ⟨after, htext.symm⟩ hfront

/-- The place of an escape that is not complete is inside the word, in the second line. -/
theorem located_broken_escape :
    let v : Vocabulary := ⟨"plain", ⟨[("if", "if")], List.pairwise_singleton _ _⟩,
      List.pairwise_singleton _ _⟩
    let text := "π\n  a\\u00g"
    let e : LexicalError := ⟨.invalidEscape, 6, ⟨2, 4⟩⟩
    tokenize v text = .error e ∧ ∃ before after, text.toList = before ++ after ∧ after ≠ [] ∧
      e.offset = byteLength before ∧ e.fault.Shows v after ∧
      ∀ front, front <+: text.toList → (e.position.Locates front ↔ front = before) := by
  intro v text e
  have h : tokenize v text = .error e := by decide +kernel
  exact ⟨h, located_of_tokenize h⟩

end Respell
