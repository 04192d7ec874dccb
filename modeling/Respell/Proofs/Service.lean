import Respell.Proofs.Respelling.Outcome
import Respell.Service

/-!
# The answers of the service

The service selects the subsets of a task itself and respells the text between them. `respell_cases`
sums up what it answers in three cases, by the reasons for which a respelling fails; the errors of
other kinds never come from a respelling. `respell_agrees` states from this that each status is
given for its reason and no other, that a request which brings the task has this answer, and that no
request at all is answered as an internal error.
-/

namespace Respell

/-- One of the two subsets is not in the dictionary. -/
def Dictionary.LacksSubset (d : Dictionary) (source destination : String) : Prop :=
  source ∉ d.names ∨ destination ∉ d.names

/-- Both subsets are in the dictionary, and the text is not one of tokens under the first, or it has
a keyword that the second one lacks. -/
def Dictionary.RefusesText (d : Dictionary) (source destination text : String) : Prop :=
  ∃ v w, d.get source = .ok v ∧ d.get destination = .ok w ∧
    ((∃ e, tokenize v text = .error e) ∨
      ∃ tokens, tokenize v text = .ok tokens ∧ ∃ t ∈ tokens, t.isMissing v w = true)

section

variable {d : Dictionary} {source destination text : String} {v w : Vocabulary}

/-- Subsets that are found are in the dictionary. -/
theorem Dictionary.not_lacksSubset (hv : d.get source = .ok v) (hw : d.get destination = .ok w) :
    ¬ d.LacksSubset source destination :=
  not_or.mpr ⟨not_not_intro (mem_names_iff.mpr ⟨v, hv⟩),
    not_not_intro (mem_names_iff.mpr ⟨w, hw⟩)⟩

/-- A text is refused only between subsets that are in the dictionary. -/
theorem Dictionary.RefusesText.not_lacksSubset (h : d.RefusesText source destination text) :
    ¬ d.LacksSubset source destination := by
  obtain ⟨v, w, hv, hw, _⟩ := h
  exact Dictionary.not_lacksSubset hv hw

/-- A text of tokens is refused only for a keyword that is missing. -/
theorem Dictionary.not_refusesText (hv : d.get source = .ok v) (hw : d.get destination = .ok w)
    {tokens : List Token} (htokens : tokenize v text = .ok tokens)
    (hnone : tokens.find? (Token.isMissing v w) = none) :
    ¬ d.RefusesText source destination text := by
  rintro ⟨v', w', hv', hw', hrefused⟩
  cases hv.symm.trans hv'
  cases hw.symm.trans hw'
  rcases hrefused with ⟨e, he⟩ | ⟨tokens', htokens', t, ht, hmissing⟩
  · cases htokens.symm.trans he
  · cases htokens.symm.trans htokens'
    exact List.find?_eq_none.mp hnone t ht hmissing

end

namespace Service

/-- What a task is answered: its text respelled where nothing stands in the way, and otherwise the
error, with one status for a subset that is not known and another for a text that is refused. -/
theorem respell_cases (r : Respeller) (task : Task) :
    let source := (r.resolve task.choice).1
    let destination := (r.resolve task.choice).2
    (∃ out, r.respell task.text task.choice = .ok out ∧
      respell r task = ⟨200, .respelled out.text source destination⟩ ∧
      ¬ r.dictionary.LacksSubset source destination ∧
      ¬ r.dictionary.RefusesText source destination task.text) ∨
    (∃ e, r.respell task.text task.choice = .error e ∧
      respell r task = ⟨400, .failed e.message⟩ ∧
      r.dictionary.LacksSubset source destination) ∨
    ∃ e, r.respell task.text task.choice = .error e ∧
      respell r task = ⟨422, .failed e.message⟩ ∧
      r.dictionary.RefusesText source destination task.text := by
  intro source destination
  have hrespelled : ∀ {out}, r.dictionary.respellText source destination task.text = .ok out →
      respell r task = ⟨200, .respelled out.text source destination⟩ := by
    intro out h
    simp only [respell, source, destination] at h ⊢
    rw [h]
  have hfailed : ∀ {e}, r.dictionary.respellText source destination task.text = .error e →
      respell r task = ⟨errorStatus e, .failed e.message⟩ := by
    intro e h
    simp only [respell, source, destination] at h ⊢
    rw [h]
  rcases r.dictionary.respellText_cases source destination task.text with
    ⟨hsource, h⟩ | ⟨v, hv, ⟨hdestination, h⟩ | ⟨w, hw, hknown⟩⟩
  · exact Or.inr (Or.inl ⟨_, h, hfailed h, Or.inl hsource⟩)
  · exact Or.inr (Or.inl ⟨_, h, hfailed h, Or.inr hdestination⟩)
  rcases hknown with ⟨e, htokens, h⟩ | ⟨tokens, htokens, ⟨t, hfirst, h⟩ | ⟨hnone, out, h, _⟩⟩
  · exact Or.inr (Or.inr ⟨_, h, hfailed h, v, w, hv, hw, Or.inl ⟨e, htokens⟩⟩)
  · have hmissing := List.find?_some (p := Token.isMissing v w) hfirst
    exact Or.inr (Or.inr ⟨_, h, hfailed h, v, w, hv, hw,
      Or.inr ⟨tokens, htokens, t, List.mem_of_find?_eq_some hfirst, hmissing⟩⟩)
  · exact Or.inl ⟨out, h, hrespelled h, Dictionary.not_lacksSubset hv hw,
      Dictionary.not_refusesText hv hw htokens hnone⟩

/-- An answer to a body is no internal error. -/
theorem answerBody_status (r : Respeller) (contentType : Option String) (body : List UInt8) :
    (answerBody r contentType body).status ≠ 500 := by
  rw [answerBody]
  split
  · decide
  · split
    · decide
    · split
      · rename_i task _
        rcases respell_cases r task with ⟨_, _, h, _⟩ | ⟨_, _, h, _⟩ | ⟨_, _, h, _⟩ <;>
          · rw [h]
            exact fun heq => by cases heq
      · decide
      · decide

/-- No request is answered as an internal error. -/
theorem answer_status (r : Respeller) (request : Request) : (answer r request).status ≠ 500 := by
  simp only [answer]
  split
  · decide
  · split
    · split
      · exact fun heq => by cases heq
      · split <;> decide
    · split
      · split
        · exact answerBody_status r _ _
        · decide
      · decide

/-- The request brings the task to the address where texts are respelled. -/
structure Request.Brings (request : Request) (task : Task) : Prop where
  method : request.method = "POST"
  path : path request.address = "/api/translate"
  json : request.contentType.any (fun t => MediaType.isJson t.toList) = true
  small : request.body.length ≤ bodyLimit
  decoded : Task.ofBody request.body = .ok task

/-- A request that brings a task is answered as the task is. -/
theorem Request.Brings.answer_eq {r : Respeller} {request : Request} {task : Task}
    (h : request.Brings task) : answer r request = respell r task := by
  have hbody : answerBody r request.contentType request.body = respell r task := by
    rw [answerBody, if_neg (not_not_intro h.json), if_neg (Nat.not_lt.mpr h.small), h.decoded]
  simp only [answer, h.method, h.path]
  exact hbody

/-- The service answers a task with the text that the respeller gives for it, exactly when there is
one. A subset that is not known is told before the text is looked at, a text that is refused only
between known subsets, and both with the words of the error. No other status is given, and no
request reaches the one of an internal error. -/
theorem respell_agrees (r : Respeller) (task : Task) :
    let source := (r.resolve task.choice).1
    let destination := (r.resolve task.choice).2
    let response := respell r task
    (∀ text first second, response = ⟨200, .respelled text first second⟩ ↔
      (∃ out, r.respell task.text task.choice = .ok out ∧ out.text = text) ∧
        first = source ∧ second = destination) ∧
    (response.status = 200 ↔ ∃ out, r.respell task.text task.choice = .ok out) ∧
    (response.status = 400 ↔ r.dictionary.LacksSubset source destination) ∧
    (response.status = 422 ↔ r.dictionary.RefusesText source destination task.text) ∧
    (∀ message, response.content = .failed message ↔
      ∃ e, r.respell task.text task.choice = .error e ∧ e.message = message) ∧
    response.status ∈ [200, 400, 422] ∧
    (∀ request : Request, request.Brings task → answer r request = response) ∧
    ∀ request, (answer r request).status ≠ 500 := by
  intro source destination response
  have hrequests : (∀ request : Request, request.Brings task → answer r request = response) ∧
      ∀ request, (answer r request).status ≠ 500 :=
    ⟨fun _ hbrings => hbrings.answer_eq, answer_status r⟩
  rcases respell_cases r task with ⟨out, hrespell, h, hknown, haccepted⟩ |
    ⟨e, hrespell, h, hlacks⟩ | ⟨e, hrespell, h, hrefuses⟩
  · have hresponse : response = ⟨200, .respelled out.text source destination⟩ := h
    refine ⟨fun text first second => ?_, ?_, ?_, ?_, fun message => ?_, ?_, hrequests⟩ <;>
      simp [hresponse, hrespell, hknown, haccepted, source, destination, eq_comm]
  · have hresponse : response = ⟨400, .failed e.message⟩ := h
    have haccepted : ¬ r.dictionary.RefusesText source destination task.text :=
      fun hrefuses => hrefuses.not_lacksSubset hlacks
    refine ⟨fun text first second => ?_, ?_, ?_, ?_, fun message => ?_, ?_, hrequests⟩ <;>
      simp [hresponse, hrespell, hlacks, haccepted, source, destination]
  · have hresponse : response = ⟨422, .failed e.message⟩ := h
    have hknown := hrefuses.not_lacksSubset
    refine ⟨fun text first second => ?_, ?_, ?_, ?_, fun message => ?_, ?_, hrequests⟩ <;>
      simp [hresponse, hrespell, hknown, hrefuses, source, destination]

/-- A request that names the second subset only is answered with the text respelled from the subset
of the settings. -/
theorem respell_agrees_request :
    let plain : Vocabulary :=
      ⟨"plain", ⟨[("if", "if")], List.pairwise_singleton _ _⟩, List.pairwise_singleton _ _⟩
    let short : Vocabulary :=
      ⟨"short", ⟨[("if", "x")], List.pairwise_singleton _ _⟩, List.pairwise_singleton _ _⟩
    let r : Respeller :=
      ⟨(Dictionary.empty.insert plain).insert short, ⟨none, "plain", "plain"⟩⟩
    let request : Request := ⟨"POST", "/api/translate", some "application/json",
      "\x7b\"source\":\"if(a)\",\"to\":\"short\"\x7d".toUTF8.data.toList⟩
    request.Brings ⟨"if(a)", ⟨none, some "short"⟩⟩ ∧
      answer r request = ⟨200, .respelled "x(a)" "plain" "short"⟩ := by
  intro plain short r request
  have hbrings : request.Brings ⟨"if(a)", ⟨none, some "short"⟩⟩ :=
    ⟨rfl, by decide +kernel, by decide +kernel, by decide +kernel, by decide +kernel⟩
  have hrespelled : r.respell "if(a)" ⟨none, some "short"⟩ =
      .ok ⟨"x(a)", [⟨"if", "x", 0, 2, 0⟩], 4, -1⟩ := by decide +kernel
  obtain ⟨htext, _, _, _, _, _, hanswer, _⟩ :=
    respell_agrees r ⟨"if(a)", ⟨none, some "short"⟩⟩
  exact ⟨hbrings, (hanswer request hbrings).trans
    ((htext "x(a)" "plain" "short").mpr ⟨⟨_, hrespelled, rfl⟩, rfl, rfl⟩)⟩

end Service

end Respell
