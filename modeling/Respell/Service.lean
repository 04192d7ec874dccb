import Respell.Json.Record
import Respell.Service.MediaType
import Respell.Settings

/-!
# The service

Two addresses answer requests: one lists the subsets, the other respells a text. A request with a
text is a record; whether its body can be used at all is decided before the text is looked at, and
the errors of a respelling are answers like any other.
-/

namespace Respell.Service

/-- A request: the method, the address, the media type of the body if one is named, and the body. -/
structure Request where
  method : String
  address : String
  contentType : Option String
  body : List UInt8
  deriving DecidableEq, Repr

/-- The content of an answer. -/
inductive Content where
  | empty
  | subsets (names : List String) (source destination : String)
  | respelled (text source destination : String)
  | failed (message : String)
  deriving DecidableEq, Repr

/-- An answer: the status and the content. -/
structure Response where
  status : Nat
  content : Content
  deriving DecidableEq, Repr

/-- A text to respell, with the choice of subsets. -/
structure Task where
  text : String
  choice : Choice
  deriving DecidableEq, Repr

/-- The number of bytes that a body may have. -/
def bodyLimit : Nat := 2 * 1024 * 1024

/-- The field of the text, which must be there. -/
def textField : Json.Field := ⟨"source", false, true⟩

/-- The field of the subset to respell from. -/
def sourceField : Json.Field := ⟨"from", true, false⟩

/-- The field of the subset to respell to. -/
def destinationField : Json.Field := ⟨"to", true, false⟩

/-- The task in a body. -/
def Task.ofBody (body : List UInt8) : Except Json.Rejection Task := do
  let found ← Json.Record.ofBytes [textField, sourceField, destinationField] body
  return ⟨(found.get? textField.name).getD "",
    ⟨found.get? sourceField.name, found.get? destinationField.name⟩⟩

/-- The status of an error. -/
def errorStatus : Error → Nat
  | .unknownSubset _ => 400
  | .noCounterpart .. | .lexical _ => 422
  | _ => 500

/-- The answer to a task. -/
def respell (r : Respeller) (task : Task) : Response :=
  let (source, destination) := r.resolve task.choice
  match r.dictionary.respellText source destination task.text with
  | .ok respelled => ⟨200, .respelled respelled.text source destination⟩
  | .error e => ⟨errorStatus e, .failed e.message⟩

/-- The answer to a body with its media type. -/
def answerBody (r : Respeller) (contentType : Option String) (body : List UInt8) : Response :=
  if ¬ contentType.any (fun t => MediaType.isJson t.toList) then ⟨415, .empty⟩
  else if body.length > bodyLimit then ⟨413, .empty⟩
  else
    match Task.ofBody body with
    | .ok task => respell r task
    | .error .malformed => ⟨400, .empty⟩
    | .error .mismatched => ⟨422, .empty⟩

/-- The answer to the question for the subsets. -/
def listSubsets (r : Respeller) : Response :=
  ⟨200, .subsets r.dictionary.names r.settings.source r.settings.destination⟩

/-- The text after the first occurrence of a mark, if there is one. -/
def after? (mark : List Char) : List Char → Option (List Char)
  | [] => if mark.isEmpty then some [] else none
  | c :: rest => if mark.isPrefixOf (c :: rest) then some ((c :: rest).drop mark.length)
    else after? mark rest

/-- The path of an address: what comes before the query and the fragment, without the scheme and the
host if they are named. -/
def path (address : String) : String :=
  let cs := address.toList
  let rooted := if cs.head? = some '/' then cs
    else match after? [':', '/', '/'] cs with
      | some rest => rest.dropWhile fun c => c != '/' && c != '?' && c != '#'
      | none => cs
  String.ofList (rooted.takeWhile fun c => c != '?' && c != '#')

/-- The answer to a request. A question for what is allowed is answered everywhere. -/
def answer (r : Respeller) (request : Request) : Response :=
  let path := path request.address
  if request.method = "OPTIONS" then ⟨200, .empty⟩
  else if path = "/api/subsets" then
    if request.method = "GET" then listSubsets r
    else if request.method = "HEAD" then ⟨200, .empty⟩
    else ⟨405, .empty⟩
  else if path = "/api/translate" then
    if request.method = "POST" then answerBody r request.contentType request.body
    else ⟨405, .empty⟩
  else ⟨404, .empty⟩

end Respell.Service
