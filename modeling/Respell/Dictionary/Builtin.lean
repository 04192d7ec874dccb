import Respell.Dictionary

/-!
# The dictionary that is always there

Without a folder of vocabularies there are two: the keywords as the language has them, and a second
spelling of each.
-/

namespace Respell.Dictionary

/-- The keywords with their spellings in the two vocabularies: the canonical name, which is also the
first spelling, and the second spelling. -/
def builtinKeywords : List (String × String) :=
  [("break", "escape"), ("case", "when"), ("catch", "rescue"), ("class", "blueprint"),
   ("const", "fixed"), ("continue", "skip"), ("debugger", "pause"), ("default", "otherwise"),
   ("delete", "erase"), ("do", "perform"), ("else", "elsewise"), ("export", "share"),
   ("extends", "inherits"), ("finally", "lastly"), ("for", "each"), ("function", "routine"),
   ("if", "whenever"), ("import", "borrow"), ("in", "within"), ("instanceof", "kindof"),
   ("new", "spawn"), ("return", "giveback"), ("super", "ancestor"), ("switch", "choose"),
   ("this", "myself"), ("throw", "raise"), ("try", "attempt"), ("typeof", "typeis"),
   ("var", "variable"), ("void", "nothing"), ("while", "aslongas"), ("with", "using"),
   ("yield", "produce"), ("let", "have"), ("static", "steady"), ("enum", "choices"),
   ("await", "wait"), ("async", "later")]

/-- The name of the vocabulary in which every keyword is spelled as its canonical name. -/
def plainSubset : String := "javascript"

/-- The name of the vocabulary of the second spellings. -/
def secondSubset : String := "yourscript"

/-- The dictionary of the two vocabularies. -/
def builtin : Except Error Dictionary := do
  let plain ← Vocabulary.ofPairs plainSubset (builtinKeywords.map fun k => (k.1, k.1))
  let second ← Vocabulary.ofPairs secondSubset builtinKeywords
  return (empty.insert plain).insert second

end Respell.Dictionary
