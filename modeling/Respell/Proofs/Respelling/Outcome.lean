import Respell.Proofs.Respelling.Splice

/-!
# The outcome of a respelling

A respelling fails for one of four reasons, which are looked for in order: the first vocabulary is
not known, the second one is not, the text does not consist of tokens, or a keyword of it has no
counterpart. `Before.run_of_missing` finds the last of these in the middle of the replacements: the
loop stops at the first keyword without a counterpart, whatever it has replaced before.
`respellText_outcome` puts the four together for a whole text.
-/

namespace Respell

open Text

/-- The token is a keyword of `v` whose canonical name `w` does not spell. -/
def Token.isMissing (v w : Vocabulary) (t : Token) : Bool :=
  t.kind == .keyword && (v.canonical? t.text).any fun canonical => (w.spelling? canonical).isNone

/-- A keyword that is a spelling is missing exactly when the lookup of its counterpart fails. -/
theorem Token.isMissing_iff {v w : Vocabulary} {t : Token} (hkind : t.kind = .keyword)
    (hspelling : v.isSpelling t.text = true) :
    t.isMissing v w = true ↔ (v.canonical? t.text).bind w.spelling? = none := by
  obtain ⟨canonical, hcanonical⟩ := Vocabulary.isSpelling_iff.mp hspelling
  rw [isMissing, hkind, hcanonical]
  simp

/-- A keyword that is a spelling and not missing has a counterpart. -/
theorem Token.hasCounterpart_of_isMissing {v w : Vocabulary} {t : Token} (hkind : t.kind = .keyword)
    (hspelling : v.isSpelling t.text = true) (h : t.isMissing v w = false) :
    t.HasCounterpart v w := by
  obtain ⟨canonical, hcanonical⟩ := Vocabulary.isSpelling_iff.mp hspelling
  cases hfound : w.spelling? canonical with
  | some spelling => exact ⟨canonical, spelling, hcanonical, hfound⟩
  | none =>
      have hmissing : t.isMissing v w = true :=
        (isMissing_iff hkind hspelling).mpr (by rw [hcanonical, Option.bind_some, hfound])
      rw [h] at hmissing
      cases hmissing

namespace Dictionary

variable {d : Dictionary} {subset : String}

/-- The names of a dictionary are those under which a vocabulary is found. -/
theorem mem_names_iff : subset ∈ d.names ↔ ∃ v, d.get subset = .ok v := by
  have hget : ∀ v, d.get subset = .ok v ↔ d.subsets.get? subset = some v := by
    intro v
    rw [get]
    cases d.subsets.get? subset with
    | none => simp
    | some found => simp
  simp only [hget, ← SortedMap.mem_entries_iff]
  rw [names, SortedMap.keys, List.mem_map]
  constructor
  · rintro ⟨e, he, rfl⟩
    exact ⟨e.2, he⟩
  · rintro ⟨v, hv⟩
    exact ⟨(subset, v), hv, rfl⟩

/-- A name under which no vocabulary is found is reported as it is. -/
theorem get_eq_error_iff {e : Error} :
    d.get subset = .error e ↔ subset ∉ d.names ∧ e = .unknownSubset subset := by
  rw [mem_names_iff, get]
  cases d.subsets.get? subset with
  | none => simp [eq_comm]
  | some v => simp

/-- A word without a counterpart is reported with both names. -/
theorem respell_eq_error {v w : Vocabulary} {source destination word : String}
    (hv : d.get source = .ok v) (hw : d.get destination = .ok w)
    (h : (v.canonical? word).bind w.spelling? = none) :
    d.respell word source destination = .error (.noCounterpart word source destination) := by
  rw [respell, hv, hw]
  simp only [bind, Except.bind]
  rw [h]

end Dictionary

namespace Respelling.Progress

variable {v w : Vocabulary} {p q : Progress} {finished last : List Char} {start : Nat}
  {x : Piece} {pieces : List Piece}

/-- A missing keyword stops the replacements with an error that names it. -/
theorem Before.step_of_isMissing (h : Before v w p finished start (x :: pieces) last)
    (hmissing : x.token.isMissing v w = true) :
    p.step x.token = .error (.noCounterpart x.token.text v.name w.name) := by
  have hkind : x.token.kind = .keyword := by
    rw [Token.isMissing, Bool.and_eq_true, beq_iff_eq] at hmissing
    exact hmissing.1
  have hspelling := h.keywords x List.mem_cons_self hkind
  have hrespell : p.respelling.respell x.token.text =
      .error (.noCounterpart x.token.text v.name w.name) := by
    rw [respell, h.source, h.destination]
    exact Dictionary.respell_eq_error (h.source ▸ h.ready.1) (h.destination ▸ h.ready.2)
      ((Token.isMissing_iff hkind hspelling).mp hmissing)
  rw [Progress.step, h.isTarget_iff.mpr hkind, if_pos rfl, hrespell]
  rfl

/-- Any other token is taken over. -/
theorem Before.exists_step (h : Before v w p finished start (x :: pieces) last)
    (hmissing : x.token.isMissing v w = false) : ∃ q, p.step x.token = .ok q := by
  cases htarget : p.respelling.isTarget x.token with
  | false => exact ⟨p, (step_eq_ok_iff h.ready).mpr (Or.inl ⟨htarget, rfl⟩)⟩
  | true =>
      have hkind := h.isTarget_iff.mp htarget
      have hcounterpart := Token.hasCounterpart_of_isMissing hkind
        (h.keywords x List.mem_cons_self hkind) hmissing
      rw [← h.source, ← h.destination] at hcounterpart
      exact ⟨_, (step_eq_ok_iff h.ready).mpr (Or.inr ⟨htarget, hcounterpart, rfl⟩)⟩

/-- A step records the replacement of a keyword and nothing for any other token. -/
theorem Before.step_keywords (h : Before v w p finished start (x :: pieces) last)
    (hstep : p.step x.token = .ok q) :
    q.replacements.reverse.map Replacement.keyword = p.replacements.reverse.map Replacement.keyword ++
      ([x.token].filter (·.kind == .keyword)).map Token.text := by
  obtain ⟨hfalse, rfl⟩ | ⟨htrue, _, rfl⟩ := (step_eq_ok_iff h.ready).mp hstep
  · have hkind : ¬ x.token.kind = .keyword := fun hkind => by
      rw [h.isTarget_iff.mpr hkind] at hfalse
      cases hfalse
    simp [hkind]
  · simp [replaced, h.isTarget_iff.mp htrue]

/-- The replacements stop at the first missing keyword, whatever was replaced before it. -/
theorem Before.run_of_missing (h : Before v w p finished start pieces last) {t : Token}
    (hfirst : (pieces.map Piece.token).find? (Token.isMissing v w) = some t) :
    (pieces.map Piece.token).foldlM Progress.step p =
      .error (.noCounterpart t.text v.name w.name) := by
  induction pieces generalizing p finished start with
  | nil => cases hfirst
  | cons x pieces ih =>
      rw [List.map_cons] at hfirst
      rw [List.map_cons, List.foldlM_cons]
      cases hmissing : x.token.isMissing v w with
      | true =>
          rw [List.find?_cons_of_pos hmissing] at hfirst
          cases hfirst
          rw [h.step_of_isMissing hmissing]
          rfl
      | false =>
          rw [List.find?_cons_of_neg (by simp [hmissing])] at hfirst
          obtain ⟨m, hstep⟩ := h.exists_step hmissing
          rw [hstep]
          exact ih (h.step hstep).1 hfirst

/-- Where no keyword is missing every one is replaced. -/
theorem Before.run_of_none (h : Before v w p finished start pieces last)
    (hnone : (pieces.map Piece.token).find? (Token.isMissing v w) = none) :
    ∃ q, (pieces.map Piece.token).foldlM Progress.step p = .ok q ∧
      q.replacements.reverse.map Replacement.keyword =
        p.replacements.reverse.map Replacement.keyword ++
          ((pieces.map Piece.token).filter (·.kind == .keyword)).map Token.text := by
  induction pieces generalizing p finished start with
  | nil => exact ⟨p, rfl, by simp⟩
  | cons x pieces ih =>
      rw [List.map_cons, List.find?_eq_none, List.forall_mem_cons] at hnone
      obtain ⟨m, hstep⟩ := h.exists_step (by simpa using hnone.1)
      obtain ⟨q, hrun, hkeywords⟩ := ih (h.step hstep).1 (List.find?_eq_none.mpr hnone.2)
      refine ⟨q, ?_, ?_⟩
      · rw [List.map_cons, List.foldlM_cons, hstep]
        exact hrun
      · rw [hkeywords, h.step_keywords hstep, List.append_assoc, ← List.map_append,
          ← List.filter_append, List.singleton_append, List.map_cons]

end Respelling.Progress

namespace Dictionary

variable {d : Dictionary} {source destination text : String} {v w : Vocabulary}

/-- Where the first subset is not known nothing else is looked at. -/
theorem respellText_of_source (h : source ∉ d.names) :
    d.respellText source destination text = .error (.unknownSubset source) := by
  rw [respellText, Respelling.begin, get_eq_error_iff.mpr ⟨h, rfl⟩]
  rfl

/-- Where the second subset is not known the text is not looked at. -/
theorem respellText_of_destination (hv : d.get source = .ok v) (h : destination ∉ d.names) :
    d.respellText source destination text = .error (.unknownSubset destination) := by
  rw [respellText, Respelling.begin, hv, get_eq_error_iff.mpr ⟨h, rfl⟩]
  rfl

/-- Where both are known the text is split into tokens before a keyword is looked up. -/
theorem respellText_of_fault (hv : d.get source = .ok v) (hw : d.get destination = .ok w)
    {e : LexicalError} (h : tokenize v text = .error e) :
    d.respellText source destination text = .error (.lexical e) := by
  rw [respellText, Respelling.begin_eq_ok_iff.mpr ⟨v, w, hv, hw, rfl⟩]
  simp only [bind, Except.bind, Respelling.run, h, Except.mapError]

/-- A text with a missing keyword is refused with the first one. -/
theorem respellText_of_missing (hv : d.get source = .ok v) (hw : d.get destination = .ok w)
    {tokens : List Token} (h : tokenize v text = .ok tokens) {t : Token}
    (hfirst : tokens.find? (Token.isMissing v w) = some t) :
    d.respellText source destination text = .error (.noCounterpart t.text source destination) := by
  obtain ⟨pieces, last, hyields, rfl⟩ := tokenize_eq_ok_iff.mp h
  obtain ⟨line, hoffset, htext, _⟩ := LexerState.initial_eq text.toList
  have hrun := (before_first hv hw hyields hoffset htext).run_of_missing hfirst
  rw [name_of_get hv, name_of_get hw] at hrun
  rw [respellText, Respelling.begin_eq_ok_iff.mpr ⟨v, w, hv, hw, rfl⟩]
  simp only [bind, Except.bind, Respelling.run, h, Except.mapError, Respelling.replaceTokens, hrun]

/-- A text without a missing keyword is respelled, and every keyword of it is replaced. -/
theorem respellText_of_none (hv : d.get source = .ok v) (hw : d.get destination = .ok w)
    {tokens : List Token} (h : tokenize v text = .ok tokens)
    (hnone : tokens.find? (Token.isMissing v w) = none) :
    ∃ out, d.respellText source destination text = .ok out ∧
      out.replacements.map Replacement.keyword =
        (tokens.filter (·.kind == .keyword)).map Token.text := by
  obtain ⟨pieces, last, hyields, rfl⟩ := tokenize_eq_ok_iff.mp h
  obtain ⟨line, hoffset, htext, _⟩ := LexerState.initial_eq text.toList
  obtain ⟨q, hrun, hkeywords⟩ := (before_first hv hw hyields hoffset htext).run_of_none hnone
  exact ⟨_, respellText_eq_ok_iff.mpr ⟨v, w, _, q, hv, hw, h, hrun, rfl⟩, hkeywords⟩

/-- One of five things happens, and each of them decides what is returned. -/
theorem respellText_cases (d : Dictionary) (source destination text : String) :
    (source ∉ d.names ∧
      d.respellText source destination text = .error (.unknownSubset source)) ∨
    ∃ v, d.get source = .ok v ∧
      ((destination ∉ d.names ∧
        d.respellText source destination text = .error (.unknownSubset destination)) ∨
      ∃ w, d.get destination = .ok w ∧
        ((∃ e, tokenize v text = .error e ∧
          d.respellText source destination text = .error (.lexical e)) ∨
        ∃ tokens, tokenize v text = .ok tokens ∧
          ((∃ t, tokens.find? (Token.isMissing v w) = some t ∧
            d.respellText source destination text =
              .error (.noCounterpart t.text source destination)) ∨
          (tokens.find? (Token.isMissing v w) = none ∧
            ∃ out, d.respellText source destination text = .ok out ∧
              out.replacements.map Replacement.keyword =
                (tokens.filter (·.kind == .keyword)).map Token.text)))) := by
  by_cases hsource : source ∈ d.names
  · obtain ⟨v, hv⟩ := mem_names_iff.mp hsource
    refine Or.inr ⟨v, hv, ?_⟩
    by_cases hdestination : destination ∈ d.names
    · obtain ⟨w, hw⟩ := mem_names_iff.mp hdestination
      refine Or.inr ⟨w, hw, ?_⟩
      cases htokens : tokenize v text with
      | error e => exact Or.inl ⟨e, rfl, respellText_of_fault hv hw htokens⟩
      | ok tokens =>
          refine Or.inr ⟨tokens, rfl, ?_⟩
          cases hfirst : tokens.find? (Token.isMissing v w) with
          | some t => exact Or.inl ⟨t, rfl, respellText_of_missing hv hw htokens hfirst⟩
          | none => exact Or.inr ⟨rfl, respellText_of_none hv hw htokens hfirst⟩
    · exact Or.inl ⟨hdestination, respellText_of_destination hv hdestination⟩
  · exact Or.inl ⟨hsource, respellText_of_source hsource⟩

end Dictionary

/-- What a respelling returns is decided in this order: an unknown first subset, an unknown second
subset, a fault in the text, the first keyword that the second subset lacks; and where none of these
is found, the whole text with each of its tokens in the new spelling, and a replacement for every
keyword. -/
theorem respellText_outcome (d : Dictionary) (source destination text : String) :
    (d.respellText source destination text = .error (.unknownSubset source) ↔ source ∉ d.names) ∧
    (source ∈ d.names →
      (d.respellText source destination text = .error (.unknownSubset destination) ↔
        destination ∉ d.names)) ∧
    (∀ v w, d.get source = .ok v → d.get destination = .ok w →
      (∀ e, d.respellText source destination text = .error (.lexical e) ↔
        tokenize v text = .error e) ∧
      ∀ tokens, tokenize v text = .ok tokens →
        (∀ e, d.respellText source destination text = .error e ↔
          ∃ t, tokens.find? (Token.isMissing v w) = some t ∧
            e = .noCounterpart t.text source destination) ∧
        ((∃ out, d.respellText source destination text = .ok out) ↔
          tokens.find? (Token.isMissing v w) = none) ∧
        ∀ out, d.respellText source destination text = .ok out →
          out.text.toList = splice (Token.respelledChars v w) text.toList 0 tokens ∧
          out.replacements.map Replacement.keyword =
            (tokens.filter (·.kind == .keyword)).map Token.text) ∧
    ∀ e, d.respellText source destination text = .error e →
      e = .unknownSubset source ∨ e = .unknownSubset destination ∨ (∃ fault, e = .lexical fault) ∨
        ∃ keyword, e = .noCounterpart keyword source destination := by
  rcases d.respellText_cases source destination text with ⟨hsource, h⟩ | ⟨v, hv, hknown⟩
  · -- An unknown first subset has no vocabulary, so nothing is asked of the others.
    have hget : ∀ v, d.get source ≠ .ok v := fun v hv =>
      hsource (Dictionary.mem_names_iff.mpr ⟨v, hv⟩)
    exact ⟨iff_of_true h hsource, fun hmem => absurd hmem hsource,
      fun v _ hv => absurd hv (hget v), fun e he => Or.inl (Except.error.inj (he.symm.trans h))⟩
  have hsource : source ∈ d.names := Dictionary.mem_names_iff.mpr ⟨v, hv⟩
  rcases hknown with ⟨hdestination, h⟩ | ⟨w, hw, hknown⟩
  · have hne : source ≠ destination := fun heq => hdestination (heq ▸ hsource)
    have hget : ∀ w, d.get destination ≠ .ok w := fun w hw =>
      hdestination (Dictionary.mem_names_iff.mpr ⟨w, hw⟩)
    refine ⟨iff_of_false (fun he => hne ?_) (not_not_intro hsource),
      fun _ => iff_of_true h hdestination, fun _ w _ hw => absurd hw (hget w),
      fun e he => Or.inr (Or.inl (Except.error.inj (he.symm.trans h)))⟩
    exact Error.unknownSubset.inj (Except.error.inj (he.symm.trans h))
  have hdestination : destination ∈ d.names := Dictionary.mem_names_iff.mpr ⟨w, hw⟩
  rcases hknown with ⟨e, htokens, h⟩ | ⟨tokens, htokens, hknown⟩
  · refine ⟨iff_of_false (by simp [h]) (not_not_intro hsource),
      fun _ => iff_of_false (by simp [h]) (not_not_intro hdestination), fun v' w' hv' hw' => ?_,
      fun e' he => Or.inr (Or.inr (Or.inl ⟨e, Except.error.inj (he.symm.trans h)⟩))⟩
    cases hv.symm.trans hv'
    cases hw.symm.trans hw'
    exact ⟨fun e' => by simp [h, htokens], fun _ htokens' => by cases htokens.symm.trans htokens'⟩
  rcases hknown with ⟨t, hfirst, h⟩ | ⟨hnone, out, h, hkeywords⟩
  · refine ⟨iff_of_false (by simp [h]) (not_not_intro hsource),
      fun _ => iff_of_false (by simp [h]) (not_not_intro hdestination), fun v' w' hv' hw' => ?_,
      fun e' he => Or.inr (Or.inr (Or.inr ⟨t.text, Except.error.inj (he.symm.trans h)⟩))⟩
    cases hv.symm.trans hv'
    cases hw.symm.trans hw'
    refine ⟨fun e' => by simp [h, htokens], fun tokens' htokens' => ?_⟩
    cases htokens.symm.trans htokens'
    exact ⟨fun e' => by simp [h, hfirst, eq_comm], by simp [h, hfirst], by simp [h]⟩
  · refine ⟨iff_of_false (by simp [h]) (not_not_intro hsource),
      fun _ => iff_of_false (by simp [h]) (not_not_intro hdestination), fun v' w' hv' hw' => ?_,
      fun e' he => by cases he.symm.trans h⟩
    cases hv.symm.trans hv'
    cases hw.symm.trans hw'
    refine ⟨fun e' => by simp [h, htokens], fun tokens' htokens' => ?_⟩
    cases htokens.symm.trans htokens'
    refine ⟨fun e' => by simp [h, hnone], iff_of_true ⟨out, h⟩ hnone, fun out' hout => ?_⟩
    cases h.symm.trans hout
    exact ⟨Dictionary.splice_of_respellText hv hw htokens h, hkeywords⟩

/-- The second keyword of a text is missing, so the replacement of the first one is given up. An
unknown subset is reported before that. -/
theorem respellText_outcome_missing :
    let text := "if(a)async b"
    let plain : Vocabulary :=
      ⟨"plain", ⟨[("async", "async"), ("if", "if")], by decide⟩, by decide⟩
    let short : Vocabulary :=
      ⟨"short", ⟨[("if", "whenever")], List.pairwise_singleton _ _⟩, List.pairwise_singleton _ _⟩
    let d := (Dictionary.empty.insert plain).insert short
    d.respellText "plain" "short" text = .error (.noCounterpart "async" "plain" "short") ∧
      d.respellText "plain" "other" text = .error (.unknownSubset "other") := by
  intro text plain short d
  let tokens : List Token := [⟨.keyword, "if", 0⟩, ⟨.punctuator, "(", 2⟩, ⟨.identifier, "a", 3⟩,
    ⟨.punctuator, ")", 4⟩, ⟨.keyword, "async", 5⟩, ⟨.identifier, "b", 11⟩]
  have hplain : d.get "plain" = .ok plain := by decide +kernel
  have hshort : d.get "short" = .ok short := by decide +kernel
  have htokens : tokenize plain text = .ok tokens := by decide +kernel
  have hfirst : tokens.find? (Token.isMissing plain short) = some ⟨.keyword, "async", 5⟩ := by
    decide +kernel
  have hknown := ((respellText_outcome d "plain" "short" text).2.2.1 plain short hplain hshort).2
    tokens htokens
  have hunknown := (respellText_outcome d "plain" "other" text).2.1 (by decide +kernel)
  exact ⟨(hknown.1 _).mpr ⟨_, hfirst, rfl⟩, hunknown.mpr (by decide +kernel)⟩

end Respell
