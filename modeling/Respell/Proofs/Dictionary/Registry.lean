import Mathlib.Data.List.Induction
import Respell.Proofs.Respelling.Outcome
import Respell.Vocabulary.Document

/-!
# Dictionaries as registries

A dictionary is filled by attempts to build vocabularies, from pairs or from documents, of which the
successful ones are registered. `get_register` states what one attempt does to what is found under a
name, and `get_registerAll` by induction on the attempts what any run of them does: the last
vocabulary of a name that was built is found under that name, and no other. A respelling keeps the
two vocabularies it begins with and looks them up again by their names for every keyword.
`respell_of_begin` states that both are the same, and `registry_consistent` that all of this holds
of every dictionary that attempts have filled.
-/

namespace Respell

namespace Dictionary

/-- An attempt to build a vocabulary of a name: from pairs of a canonical name and a spelling, or
from a document and its place. -/
inductive Attempt where
  | ofPairs (name : String) (pairs : List (String × String))
  | ofDocument (name path document : String)

namespace Attempt

/-- The vocabulary, or why it cannot be built. -/
def result : Attempt → Except Error Vocabulary
  | ofPairs name pairs => Vocabulary.ofPairs name pairs
  | ofDocument name path document => (Vocabulary.ofDocument name path document).result

/-- The attempt builds the vocabulary, and it has the name. -/
def Builds (a : Attempt) (subset : String) (v : Vocabulary) : Prop :=
  a.result = .ok v ∧ v.name = subset

end Attempt

/-- The dictionary after an attempt: a vocabulary that was built is registered under its name, and
an attempt that failed changes nothing. -/
def register (d : Dictionary) (a : Attempt) : Dictionary :=
  match a.result with
  | .ok v => d.insert v
  | .error _ => d

/-- The dictionary after several attempts. -/
def registerAll (d : Dictionary) (attempts : List Attempt) : Dictionary := attempts.foldl register d

/-- Some attempt builds the vocabulary of this name, and no later one builds any of this name. -/
def BuiltLast (attempts : List Attempt) (subset : String) (v : Vocabulary) : Prop :=
  ∃ front a back, attempts = front ++ a :: back ∧ a.Builds subset v ∧
    ∀ b ∈ back, ∀ w, ¬ b.Builds subset w

variable {d : Dictionary} {a : Attempt} {attempts : List Attempt} {subset : String}
  {v : Vocabulary}

/-- What is found under a name after a vocabulary has been put into the dictionary. -/
theorem get_insert (d : Dictionary) (w : Vocabulary) (subset : String) :
    (d.insert w).get subset = if subset = w.name then .ok w else d.get subset := by
  rw [get, insert, SortedMap.get?_insert]
  by_cases hname : subset = w.name
  · rw [if_pos hname, if_pos hname]
  · rw [if_neg hname, if_neg hname]
    rfl

/-- After an attempt its vocabulary is found under its name, and under every other name what was
found there before. -/
theorem get_register : (d.register a).get subset = .ok v ↔
    a.Builds subset v ∨ (∀ w, ¬ a.Builds subset w) ∧ d.get subset = .ok v := by
  rw [register]
  cases hresult : a.result with
  | error e =>
      have hnone : ∀ w, ¬ a.Builds subset w := fun w hw => by cases hresult.symm.trans hw.1
      exact ⟨fun h => Or.inr ⟨hnone, h⟩, fun h => (h.resolve_left (hnone v)).2⟩
  | ok w =>
      have hbuilds : ∀ u, a.Builds subset u ↔ u = w ∧ subset = w.name := by
        intro u
        rw [Attempt.Builds, hresult, Except.ok.injEq]
        constructor
        · rintro ⟨rfl, rfl⟩
          exact ⟨rfl, rfl⟩
        · rintro ⟨rfl, rfl⟩
          exact ⟨rfl, rfl⟩
      simp only [get_insert, hbuilds]
      by_cases hname : subset = w.name
      · simp [hname, eq_comm]
      · simp [hname]

/-- One more attempt builds the last vocabulary of a name, or the last one so far stays the last. -/
theorem builtLast_concat : BuiltLast (attempts ++ [a]) subset v ↔
    a.Builds subset v ∨ (∀ w, ¬ a.Builds subset w) ∧ BuiltLast attempts subset v := by
  constructor
  · rintro ⟨front, b, back, happend, hbuilds, hlast⟩
    rcases List.eq_nil_or_concat back with rfl | ⟨others, c, rfl⟩
    · obtain ⟨rfl, hab⟩ := List.append_inj' happend rfl
      cases hab
      exact Or.inl hbuilds
    · rw [List.concat_eq_append, ← List.cons_append, ← List.append_assoc] at happend
      obtain ⟨rfl, hac⟩ := List.append_inj' happend rfl
      cases hac
      rw [List.concat_eq_append] at hlast
      exact Or.inr ⟨hlast a (by simp), front, b, others, rfl, hbuilds,
        fun b hb => hlast b (List.mem_append_left _ hb)⟩
  · rintro (hbuilds | ⟨hnone, front, b, back, rfl, hbuilds, hlast⟩)
    · exact ⟨attempts, a, [], rfl, hbuilds, List.forall_mem_nil _⟩
    · refine ⟨front, b, back ++ [a], by simp, hbuilds, fun c hc => ?_⟩
      rcases List.mem_append.mp hc with hc | hc
      · exact hlast c hc
      · rw [List.mem_singleton.mp hc]
        exact hnone

theorem registerAll_append (d : Dictionary) (front back : List Attempt) :
    d.registerAll (front ++ back) = (d.registerAll front).registerAll back := List.foldl_append

/-- An attempt that failed may as well not have been made. -/
theorem registerAll_of_error {front back : List Attempt} {e : Error} (h : a.result = .error e) :
    d.registerAll (front ++ a :: back) = d.registerAll (front ++ back) := by
  have hsame : (d.registerAll front).register a = d.registerAll front := by
    rw [register, h]
  rw [registerAll_append, registerAll_append]
  show ((d.registerAll front).register a).registerAll back = _
  rw [hsame]

/-- After several attempts the last vocabulary of a name is found, and where none was built what was
found before. -/
theorem get_registerAll (d : Dictionary) (attempts : List Attempt) :
    (d.registerAll attempts).get subset = .ok v ↔ BuiltLast attempts subset v ∨
      (∀ a ∈ attempts, ∀ w, ¬ a.Builds subset w) ∧ d.get subset = .ok v := by
  induction attempts using List.reverseRecOn with
  | nil =>
      have hnone : ¬ BuiltLast [] subset v := by
        rintro ⟨front, a, back, happend, _⟩
        exact List.append_ne_nil_of_right_ne_nil _ (List.cons_ne_nil _ _) happend.symm
      simp [registerAll, hnone]
  | append_singleton attempts a ih =>
      rw [registerAll_append]
      show ((d.registerAll attempts).register a).get subset = .ok v ↔ _
      rw [get_register, ih, builtLast_concat]
      simp only [List.mem_append, List.mem_singleton, or_imp, forall_and, forall_eq]
      tauto

/-- Of an empty dictionary nothing is found but what was registered. -/
theorem get_registerAll_empty : (empty.registerAll attempts).get subset = .ok v ↔
    BuiltLast attempts subset v := by
  have hnone : empty.get subset = .error (.unknownSubset subset) := rfl
  rw [get_registerAll, hnone]
  simp

/-- A name for which some attempt built a vocabulary has a last one. -/
theorem exists_builtLast_iff : (∃ v, BuiltLast attempts subset v) ↔
    ∃ a ∈ attempts, ∃ v, a.Builds subset v := by
  constructor
  · rintro ⟨v, front, a, back, rfl, hbuilds, _⟩
    exact ⟨a, by simp, v, hbuilds⟩
  · induction attempts using List.reverseRecOn with
    | nil =>
        rintro ⟨a, ha, _⟩
        cases ha
    | append_singleton attempts a ih =>
        rintro ⟨b, hb, v, hbuilds⟩
        by_cases hlast : ∃ w, a.Builds subset w
        · obtain ⟨w, hw⟩ := hlast
          exact ⟨w, builtLast_concat.mpr (Or.inl hw)⟩
        · rw [not_exists] at hlast
          rcases List.mem_append.mp hb with hb | hb
          · obtain ⟨w, hw⟩ := ih ⟨b, hb, v, hbuilds⟩
            exact ⟨w, builtLast_concat.mpr (Or.inr ⟨hlast, hw⟩)⟩
          · rw [List.mem_singleton.mp hb] at hbuilds
            exact absurd hbuilds (hlast v)

end Dictionary

namespace Respelling

variable {d : Dictionary} {source destination : String} {r : Respelling}

/-- A respelling begins with vocabularies of the names that were asked for. -/
theorem names_of_begin (h : begin d source destination = .ok r) :
    r.source.name = source ∧ r.destination.name = destination := by
  obtain ⟨v, w, hv, hw, rfl⟩ := begin_eq_ok_iff.mp h
  exact ⟨Dictionary.name_of_get hv, Dictionary.name_of_get hw⟩

/-- A word is respelled by the vocabularies that the respelling began with. -/
theorem respell_of_begin (h : begin d source destination = .ok r) (word : String) :
    r.respell word = match (r.source.canonical? word).bind r.destination.spelling? with
      | some spelling => .ok spelling
      | none => .error (.noCounterpart word source destination) := by
  obtain ⟨v, w, hv, hw, rfl⟩ := begin_eq_ok_iff.mp h
  rw [respell, Dictionary.name_of_get hv, Dictionary.name_of_get hw, Dictionary.respell, hv, hw]
  rfl

/-- A respelling of a text is the run of the one that begins. -/
theorem respellText_of_begin (h : begin d source destination = .ok r) (text : String) :
    d.respellText source destination text = r.run text := by
  rw [Dictionary.respellText, h]
  rfl

/-- Every keyword among the tokens of a text is a target. -/
theorem isTarget_of_tokenize {text : String} {tokens : List Token} {t : Token}
    (h : tokenize r.source text = .ok tokens) (ht : t ∈ tokens) (hkind : t.kind = .keyword) :
    r.isTarget t = true := by
  obtain ⟨pieces, last, hyields, rfl⟩ := tokenize_eq_ok_iff.mp h
  obtain ⟨p, hp, rfl⟩ := List.mem_map.mp ht
  rw [isTarget, Bool.and_eq_true, beq_iff_eq]
  exact ⟨hkind, (hyields.isName_of_keyword hp hkind).2⟩

/-- A run that succeeds has replaced every keyword, in their order. -/
theorem keywords_of_run (h : begin d source destination = .ok r) {text : String}
    {tokens : List Token} (htokens : tokenize r.source text = .ok tokens) {out : Respelled}
    (hrun : r.run text = .ok out) :
    out.replacements.map Replacement.keyword =
      (tokens.filter (·.kind == .keyword)).map Token.text := by
  rw [← respellText_of_begin h] at hrun
  obtain ⟨v, w, hv, hw, rfl⟩ := begin_eq_ok_iff.mp h
  cases hfirst : tokens.find? (Token.isMissing v w) with
  | some t => cases hrun.symm.trans (Dictionary.respellText_of_missing hv hw htokens hfirst)
  | none =>
      obtain ⟨out', hout, hkeywords⟩ := Dictionary.respellText_of_none hv hw htokens hfirst
      cases hrun.symm.trans hout
      exact hkeywords

end Respelling

/-- After any attempts to build vocabularies: under a name the last one of this name that was built
is found, and otherwise the name is reported as unknown; every vocabulary has the name under which
it stands; the names are in ascending order, each of them once; and a failed attempt changes
nothing. A respelling over such a dictionary has the vocabularies that were asked for, respells a
word by these, and replaces exactly the keywords of its text. -/
theorem registry_consistent (attempts : List Dictionary.Attempt) :
    let d := Dictionary.empty.registerAll attempts
    (∀ subset v, d.get subset = .ok v ↔ Dictionary.BuiltLast attempts subset v) ∧
    (∀ subset e, d.get subset = .error e ↔
      e = .unknownSubset subset ∧ ∀ a ∈ attempts, ∀ v, ¬ a.Builds subset v) ∧
    (∀ entry ∈ d.subsets.entries, entry.2.name = entry.1) ∧
    (d.names.Pairwise (· < ·) ∧
      ∀ subset, subset ∈ d.names ↔ ∃ a ∈ attempts, ∃ v, a.Builds subset v) ∧
    (∀ front a back e, attempts = front ++ a :: back → a.result = .error e →
      d = Dictionary.empty.registerAll (front ++ back)) ∧
    ∀ source destination r, Respelling.begin d source destination = .ok r →
      (r.source.name = source ∧ r.destination.name = destination) ∧
      (∀ word, r.respell word =
        match (r.source.canonical? word).bind r.destination.spelling? with
        | some spelling => .ok spelling
        | none => .error (.noCounterpart word source destination)) ∧
      ∀ text tokens, tokenize r.source text = .ok tokens →
        (∀ t ∈ tokens, t.kind = .keyword → r.isTarget t = true) ∧
        ∀ out, r.run text = .ok out →
          out.replacements.length = (tokens.filter (·.kind == .keyword)).length := by
  intro d
  have hget : ∀ subset v, d.get subset = .ok v ↔ Dictionary.BuiltLast attempts subset v :=
    fun _ _ => Dictionary.get_registerAll_empty
  have hnames : ∀ subset, subset ∈ d.names ↔ ∃ a ∈ attempts, ∃ v, a.Builds subset v := by
    intro subset
    rw [Dictionary.mem_names_iff, ← Dictionary.exists_builtLast_iff]
    exact exists_congr (hget subset)
  refine ⟨hget, fun subset e => ?_, d.named, ⟨?_, hnames⟩, ?_, fun source destination r h => ?_⟩
  · rw [Dictionary.get_eq_error_iff, hnames, and_comm]
    simp
  · exact List.pairwise_map.mpr d.subsets.ascending
  · rintro front a back e rfl hfailed
    exact Dictionary.registerAll_of_error hfailed
  · refine ⟨Respelling.names_of_begin h, Respelling.respell_of_begin h, fun text tokens ht => ?_⟩
    refine ⟨fun t hmem => Respelling.isTarget_of_tokenize ht hmem, fun out hrun => ?_⟩
    have hlength := congrArg List.length (Respelling.keywords_of_run h ht hrun)
    rwa [List.length_map, List.length_map] at hlength

/-- Of three attempts to build one vocabulary the second fails and the last one counts. Both
keywords of the text are replaced by its spelling. -/
theorem registry_consistent_replaced :
    let attempts : List Dictionary.Attempt := [.ofPairs "plain" [("if", "if")],
      .ofDocument "short" "short.json" "\x7b\"if\": \"whenever\"\x7d",
      .ofPairs "short" [("for", "x"), ("if", "x")], .ofPairs "short" [("if", "x")]]
    let d := Dictionary.empty.registerAll attempts
    let plain : Vocabulary :=
      ⟨"plain", ⟨[("if", "if")], List.pairwise_singleton _ _⟩, List.pairwise_singleton _ _⟩
    let short : Vocabulary :=
      ⟨"short", ⟨[("if", "x")], List.pairwise_singleton _ _⟩, List.pairwise_singleton _ _⟩
    let r : Respelling := ⟨d, plain, short, 0⟩
    Respelling.begin d "plain" "short" = .ok r ∧
      d = Dictionary.empty.registerAll (attempts.take 2 ++ attempts.drop 3) ∧
      r.respell "if" = .ok "x" ∧
      ∃ out, r.run "if(a)if" = .ok out ∧ out.text = "x(a)x" ∧ out.replacements.length = 2 := by
  intro attempts d plain short r
  let tokens : List Token := [⟨.keyword, "if", 0⟩, ⟨.punctuator, "(", 2⟩, ⟨.identifier, "a", 3⟩,
    ⟨.punctuator, ")", 4⟩, ⟨.keyword, "if", 5⟩]
  obtain ⟨hget, _, _, _, hfailed, hrespelling⟩ := registry_consistent attempts
  have hplain : d.get "plain" = .ok plain := by decide +kernel
  have hshort : d.get "short" = .ok short :=
    (hget "short" short).mpr ⟨attempts.take 3, attempts[3], [], rfl,
      ⟨by decide +kernel, rfl⟩, List.forall_mem_nil _⟩
  have hbegin : Respelling.begin d "plain" "short" = .ok r :=
    Respelling.begin_eq_ok_iff.mpr ⟨plain, short, hplain, hshort, rfl⟩
  have htokens : tokenize plain "if(a)if" = .ok tokens := by decide +kernel
  obtain ⟨_, hrespell, htargets⟩ := hrespelling "plain" "short" r hbegin
  obtain ⟨_, hlength⟩ := htargets "if(a)if" tokens htokens
  obtain ⟨out, hrun, htext⟩ : ∃ out, r.run "if(a)if" = .ok out ∧ out.text = "x(a)x" :=
    ⟨⟨"x(a)x", [⟨"if", "x", 0, 2, 0⟩, ⟨"if", "x", 4, 6, -1⟩], 5, -2⟩, by decide +kernel, rfl⟩
  exact ⟨hbegin, hfailed (attempts.take 2) attempts[2] (attempts.drop 3)
    (.duplicateSpelling "short" "x") rfl (by decide +kernel), hrespell "if",
    out, hrun, htext, hlength out hrun⟩

end Respell
