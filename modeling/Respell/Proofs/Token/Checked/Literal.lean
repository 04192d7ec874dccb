import Respell.Proofs.Token.Checked

/-!
# Checked literals

The checked scanners of strings, templates, regular expressions and private names find what the
matchers of these constructs take, and no check fails on the way. A turn of a checked loop takes up
to three characters where the scan of the matcher takes one after the other; `leads_stringTurn` and
its like follow one turn, and `loop_eq` does the rest.
-/

namespace Respell.Checked

open Text Text.Matcher

variable {text s : List Char} {start n : Nat} {c : Char} {fault : LexicalFault}

/-- The characters for which `p` holds are gone over. -/
theorem eatWhile_eq (p : Char → Bool) (h : behind? n text = some s) :
    eatWhile p text n = some (n + byteLength (s.takeWhile p)) := by
  refine loop_eq (fun _ => True) (fun _ n s => n + byteLength (s.takeWhile p))
    (fun _ n s _ hs => ?_) () trivial h
  cases s with
  | nil =>
      simp only [eatTurn, peek?_eq hs, Option.bind_eq_bind, Option.bind_some]
      exact .done
  | cons c s =>
      simp only [eatTurn, peek?_eq hs, bump?_cons hs, Option.bind_eq_bind, Option.bind_some,
        List.head?_cons, Option.any_some]
      by_cases hp : p c = true
      · rw [if_pos hp]
        refine .again (Nat.lt_add_of_pos_right c.utf8Size_pos) (behind?_next hs) trivial ?_
        rw [List.takeWhile_cons_of_pos hp, byteLength_cons, Nat.add_assoc]
      · rw [if_neg hp, List.takeWhile_cons_of_neg hp]
        exact .done

/-- What is found when a matcher reads from the offset `n` on: the end of what it takes, or the fault
at the offset `start`. -/
def ending (fault : LexicalFault) (start n : Nat) : Option (List Char × List Char) → Found Nat
  | some (t, _) => .ok (n + byteLength t)
  | none => .error (fault, start)

/-- A symbol that has been taken moves the offset from which on the matcher reads. -/
theorem ending_prepend (fault : LexicalFault) (start n : Nat) (c : Char)
    (r : Option (List Char × List Char)) :
    ending fault start n (r.map (prepend c)) = ending fault start (n + c.utf8Size) r := by
  cases r with
  | none => rfl
  | some r => simp [ending, prepend, Nat.add_assoc]

section Scan

variable {σ : Type} {step : σ → Char → Move σ} {state : σ}

/-- What is found when a scan reads from the offset `n` on. -/
def scanned (fault : LexicalFault) (start : Nat) (step : σ → Char → Move σ) (state : σ) (n : Nat)
    (s : List Char) : Found Nat :=
  ending fault start n (scan step state s)

theorem scanned_go {q : σ} (h : step state c = .go q) :
    scanned fault start step state n (c :: s) =
      scanned fault start step q (n + c.utf8Size) s := by
  rw [scanned, scan_go h, ending_prepend, scanned]

theorem scanned_finish (h : step state c = .finish) :
    scanned fault start step state n (c :: s) = .ok (n + c.utf8Size) := by
  rw [scanned, scan, scanFrom, h]
  simp [ending]

theorem scanned_refuse (h : step state c = .refuse) :
    scanned fault start step state n (c :: s) = .error (fault, start) := by
  rw [scanned, scan, scanFrom, h, ending]

/-- States that read the next character alike find the same. -/
theorem scanned_congr {other : σ} (h : ∀ c ∈ s.head?, step state c = step other c) :
    scanned fault start step state n s = scanned fault start step other n s := by
  rw [scanned, scanned, scan_congr h]

variable {τ : Type} {view : τ → σ}

/-- A turn that ends behind a character at which the scan finishes. -/
theorem leads_finish (x : τ) (h : step (view x) c = .finish) :
    Leads text (fun _ => True) (fun x => scanned fault start step (view x)) n
      (scanned fault start step (view x) n (c :: s)) (some (.done (.ok (n + c.utf8Size)))) := by
  rw [scanned_finish h]
  exact .done

/-- A turn that ends with the fault where the scan refuses a character. -/
theorem leads_refuse (x : τ) (h : step (view x) c = .refuse) :
    Leads text (fun _ => True) (fun x => scanned fault start step (view x)) n
      (scanned fault start step (view x) n (c :: s)) (some (.done (.error (fault, start)))) := by
  rw [scanned_refuse h]
  exact .done

/-- A turn that is followed by one behind a character with which the scan goes on. -/
theorem leads_go (x y : τ) (h : step (view x) c = .go (view y))
    (hs : behind? (n + c.utf8Size) text = some s) :
    Leads text (fun _ => True) (fun x => scanned fault start step (view x)) n
      (scanned fault start step (view x) n (c :: s)) (some (.again y (n + c.utf8Size))) :=
  .again (Nat.lt_add_of_pos_right c.utf8Size_pos) hs trivial (scanned_go h).symm

end Scan

/-- The rest of an escape in a string is gone over up to where the string goes on. -/
theorem stringEscape_spec (quote : Char) (fault : LexicalFault) (start : Nat)
    (h : behind? n text = some s) : ∃ m rest, stringEscape text n = some m ∧ n ≤ m ∧
      behind? m text = some rest ∧
      scanned fault start (Literal.stringMove quote) .plain m rest =
        scanned fault start (Literal.stringMove quote) .escape n s := by
  cases s with
  | nil =>
      refine ⟨n, [], ?_, Nat.le_refl _, h, rfl⟩
      simp [stringEscape, bump?_nil h, peek?_eq h]
  | cons c s =>
      have hs := behind?_next h
      have hgo : Literal.stringMove quote .escape c =
          .go (if c = '\r' then .carriage else .plain) := rfl
      simp only [stringEscape, bump?_cons h, peek?_eq hs, Option.bind_eq_bind, Option.bind_some,
        scanned_go hgo]
      by_cases hcarriage : c = '\r'
      · rw [if_pos hcarriage]
        cases s with
        | nil => exact ⟨_, [], by simp, Nat.le_add_right _ _, hs, rfl⟩
        | cons d s =>
            by_cases hfeed : d = '\n'
            · refine ⟨_, s, ?_, ?_, behind?_next hs, ?_⟩
              · rw [if_pos ⟨congrArg some hcarriage, congrArg some hfeed⟩, bump?_cons hs,
                  Option.bind_some]
              · omega
              · rw [scanned_go (q := .plain) (by simp [Literal.stringMove, hfeed])]
            · refine ⟨_, d :: s, by simp [hfeed], Nat.le_add_right _ _, hs, ?_⟩
              refine scanned_congr fun e he => ?_
              cases he
              simp [Literal.stringMove, hfeed]
      · rw [if_neg hcarriage]
        exact ⟨_, s, by simp [hcarriage], Nat.le_add_right _ _, hs, rfl⟩

/-- One turn of a string leads to what the scan finds. -/
theorem leads_stringTurn (quote : Char) (start : Nat) (h : behind? n text = some s) :
    Leads text (fun _ => True)
      (fun _ => scanned .unterminatedString start (Literal.stringMove quote) .plain) n
      (scanned .unterminatedString start (Literal.stringMove quote) .plain n s)
      (stringTurn quote text start () n) := by
  cases s with
  | nil =>
      simp only [stringTurn, bump?_nil h, Option.bind_eq_bind, Option.bind_some]
      exact .done
  | cons c s =>
      have hs := behind?_next h
      simp only [stringTurn, bump?_cons h, Option.bind_eq_bind, Option.bind_some]
      split
      · rename_i hquote
        exact leads_finish () (by simp [Literal.stringMove, hquote])
      · rename_i hquote
        split
        · rename_i hescape
          subst hescape
          obtain ⟨m, rest, hm, hle, hrest, hresult⟩ :=
            stringEscape_spec quote .unterminatedString start hs
          have hlt : n < n + '\\'.utf8Size := Nat.lt_add_of_pos_right (Char.utf8Size_pos _)
          rw [hm, Option.bind_some, scanned_go (q := .escape)
            (by simp [Literal.stringMove, hquote])]
          exact .again (Nat.lt_of_lt_of_le hlt hle) hrest trivial hresult
        · rename_i hescape
          split
          · rename_i hline
            exact leads_refuse () (by simp [Literal.stringMove, hquote, hescape, hline])
          · rename_i hline
            exact leads_go () () (by simp [Literal.stringMove, hquote, hescape, hline]) hs

/-- A string is found where its matcher takes one. -/
theorem string_eq (quote : Char) (h : behind? start text = some (quote :: s)) :
    string quote text start =
      some (ending .unterminatedString start start (Literal.string quote (quote :: s))) := by
  have hloop := loop_eq (fun _ => True) _
    (fun _ _ _ _ hs => leads_stringTurn quote start hs) () trivial (behind?_next h)
  rw [string, bump?_cons h, Literal.string, exactly_sequence, ending_prepend]
  exact hloop

/-- One turn of a piece of a template leads to what the scan finds. -/
theorem leads_templateTurn (start : Nat) (h : behind? n text = some s) :
    Leads text (fun _ => True)
      (fun _ => scanned .unterminatedTemplate start Literal.templateMove .plain) n
      (scanned .unterminatedTemplate start Literal.templateMove .plain n s)
      (templateTurn text start () n) := by
  cases s with
  | nil =>
      simp only [templateTurn, bump?_nil h, Option.bind_eq_bind, Option.bind_some]
      exact .done
  | cons c s =>
      have hs := behind?_next h
      have hlt : n < n + c.utf8Size := Nat.lt_add_of_pos_right c.utf8Size_pos
      simp only [templateTurn, bump?_cons h, peek?_eq hs, Option.bind_eq_bind, Option.bind_some]
      split
      · rename_i hquote
        exact leads_finish () (by simp [Literal.templateMove, hquote])
      · rename_i hquote
        split
        · rename_i hescape
          subst hescape
          rw [scanned_go (q := .escape) (by simp [Literal.templateMove, hquote])]
          cases s with
          | nil =>
              simp only [bump?_nil hs, Option.bind_some]
              exact .again hlt hs trivial rfl
          | cons d s =>
              simp only [bump?_cons hs, Option.bind_some]
              rw [scanned_go (q := .plain) rfl]
              exact .again (Nat.lt_add_right _ hlt) (behind?_next hs) trivial rfl
        · rename_i hescape
          split
          · rename_i hmark
            obtain ⟨rfl, hbrace⟩ := hmark
            cases s with
            | nil => cases hbrace
            | cons d s =>
                cases hbrace
                simp only [bump?_cons hs, Option.bind_some]
                rw [scanned_go (q := .dollar) rfl, scanned_finish rfl]
                exact .done
          · rename_i hmark
            refine .again hlt hs trivial ?_
            by_cases hdollar : c = '$'
            · -- Behind a dollar sign only a brace is read in another way.
              subst hdollar
              rw [scanned_go (q := .dollar) rfl]
              refine scanned_congr fun d hd => ?_
              have hbrace : d ≠ '{' := by
                rintro rfl
                exact hmark ⟨rfl, hd⟩
              simp [Literal.templateMove, hbrace]
            · rw [scanned_go (q := .plain)
                (by simp [Literal.templateMove, hquote, hescape, hdollar])]

/-- A piece of a template is found where its matcher takes one. -/
theorem template_eq (h : behind? start text = some (c :: s)) :
    template text start =
      some (ending .unterminatedTemplate start start (Literal.template c (c :: s))) := by
  have hloop := loop_eq (fun _ => True) _
    (fun _ _ _ _ hs => leads_templateTurn start hs) () trivial (behind?_next h)
  rw [template, bump?_cons h, Literal.template, exactly_sequence, ending_prepend]
  exact hloop

/-- How a regular expression is read on, inside a class or not. -/
def regexState (inClass : Bool) : Literal.RegexState := if inClass then .inClass else .plain

/-- Behind a backslash any character but the end of a line is taken, and the expression goes on as
before. -/
theorem exists_regexEscape (inClass : Bool) : ∃ q,
    Literal.regexMove (regexState inClass) '\\' = .go q ∧
    ∀ d, Literal.regexMove q d =
      if Literal.isLineEnd d then .refuse else .go (regexState inClass) := by
  cases inClass with
  | false => exact ⟨.escape, rfl, fun _ => rfl⟩
  | true => exact ⟨.classEscape, rfl, fun _ => rfl⟩

/-- A character without a meaning of its own leaves a regular expression as it is. -/
theorem regexMove_plain {inClass : Bool} (hescape : c ≠ '\\') (hopen : c ≠ '[') (hclose : c ≠ ']')
    (hslash : ¬ (c = '/' ∧ inClass = false)) (hline : ¬ Literal.isLineEnd c = true) :
    Literal.regexMove (regexState inClass) c = .go (regexState inClass) := by
  cases inClass with
  | false =>
      have hslash : c ≠ '/' := fun h => hslash ⟨h, rfl⟩
      simp [Literal.regexMove, regexState, hline, hslash, hescape, hopen]
  | true => simp [Literal.regexMove, regexState, hline, hescape, hclose]

/-- One turn of a regular expression leads to what the scan finds. -/
theorem leads_regexTurn (start : Nat) (inClass : Bool) (h : behind? n text = some s) :
    Leads text (fun _ => True)
      (fun inClass => scanned .unterminatedRegex start Literal.regexMove (regexState inClass)) n
      (scanned .unterminatedRegex start Literal.regexMove (regexState inClass) n s)
      (regexTurn text start inClass n) := by
  cases s with
  | nil =>
      simp only [regexTurn, bump?_nil h, Option.bind_eq_bind, Option.bind_some]
      exact .done
  | cons c s =>
      have hs := behind?_next h
      simp only [regexTurn, bump?_cons h, Option.bind_eq_bind, Option.bind_some]
      split
      · rename_i hescape
        subst hescape
        obtain ⟨q, hmove, hnext⟩ := exists_regexEscape inClass
        rw [scanned_go hmove]
        cases s with
        | nil =>
            simp only [bump?_nil hs, Option.bind_some]
            exact .done
        | cons d s =>
            have hlt : n < n + '\\'.utf8Size := Nat.lt_add_of_pos_right (Char.utf8Size_pos _)
            simp only [bump?_cons hs, Option.bind_some, Option.all_some]
            split
            · rename_i hline
              rw [scanned_refuse (by rw [hnext, if_pos hline])]
              exact .done
            · rename_i hline
              rw [scanned_go (by rw [hnext, if_neg hline])]
              exact .again (Nat.lt_add_right _ hlt) (behind?_next hs) trivial rfl
      · rename_i hescape
        split
        · rename_i hopen
          exact leads_go inClass true (by subst hopen; cases inClass <;> rfl) hs
        · rename_i hopen
          split
          · rename_i hclose
            exact leads_go inClass false (by subst hclose; cases inClass <;> rfl) hs
          · rename_i hclose
            split
            · rename_i hslash
              exact leads_finish inClass (by rw [hslash.1, hslash.2]; rfl)
            · rename_i hslash
              split
              · rename_i hline
                exact leads_refuse inClass (by simp [Literal.regexMove, hline])
              · rename_i hline
                exact leads_go inClass inClass
                  (regexMove_plain hescape hopen hclose hslash hline) hs

/-- A regular expression is found, with its flags, where its matcher takes one. -/
theorem regex_eq (h : behind? start text = some ('/' :: s)) :
    regex text start =
      some (ending .unterminatedRegex start start (Literal.regex ('/' :: s))) := by
  have hs := behind?_next h
  have hloop := loop_eq (fun _ => True) _
    (fun inClass _ _ _ hs => leads_regexTurn start inClass hs) false trivial hs
  rw [regex, bump?_cons h, Literal.regex, exactly_sequence, ending_prepend]
  simp only [Option.bind_eq_bind, Option.bind_some, hloop, scanned, regexState, Bool.false_eq_true,
    if_false]
  cases hscan : scan Literal.regexMove .plain s with
  | none => simp [ending, Matcher.sequence, hscan]
  | some result =>
      obtain ⟨t, rest⟩ := result
      have hsplit := splits_scan _ _ _ _ _ hscan
      rw [← hsplit] at hs
      simp only [ending, Matcher.sequence, hscan, many]
      rw [eatWhile_eq _ (behind?_add hs), Option.map_some, byteLength_append, Nat.add_assoc]

/-- The name of a private member is found with its hash. -/
theorem privateName_eq (h : behind? start text = some ('#' :: s)) :
    ∃ t rest, Lexeme.privateName ('#' :: s) = some (t, rest) ∧
      privateName text start = some (start + byteLength t) := by
  refine ⟨'#' :: s.takeWhile Identifier.isPart, s.dropWhile Identifier.isPart,
    exactly_sequence '#' (many Identifier.isPart) s, ?_⟩
  simp only [privateName, bump?_cons h, Option.bind_eq_bind, Option.bind_some,
    eatWhile_eq _ (behind?_next h), byteLength_cons, Nat.add_assoc]

end Respell.Checked
