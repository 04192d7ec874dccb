import Respell.Json.Token

/-!
# Reading values

A value is read from the tokens of a document by a machine that remembers what is still open around
it and what may come next. What becomes of the scalars, the keys and the parts of a container is up
to a `Reader`: `valueReader` builds the value, and `skipReader` only follows its brackets, so that
what is passed over need not be convertible and may be nested to any depth.

`Reader.length_lt_of_run` states that a value leaves fewer tokens.
-/

namespace Respell.Json

/-- A value of a document. The members of an object stand in their order in the document. -/
inductive Value where
  | null
  | boolean (value : Bool)
  | number (text : List UInt8)
  | string (text : String)
  | array (items : List Value)
  | object (members : List (String × Value))

/-- What becomes of the parts of a value, and how deep containers may be nested. -/
structure Reader (α : Type) where
  depth : Option Nat
  scalar : Token → Option α
  key : List UInt8 → Option String
  array : List α → α
  object : List (String × α) → α

/-- A container that is still open: the items of an array, or the members of an object and the key
of the value that is being read. The latest parts stand first. -/
inductive Frame (α : Type) where
  | array (items : List α)
  | object (members : List (String × α)) (key : String)

/-- What may come next: a value, a value or the end of an array, a key or the end of an object, a
key, a colon, or, after the value of an item or member, a comma or the end of its container. -/
inductive Expectation (α : Type) where
  | value
  | firstItem
  | firstKey
  | nextKey (members : List (String × α))
  | colon (members : List (String × α)) (key : String)
  | separator (value : α)

/-- The result of a step: the reading goes on, is over, or is refused. -/
inductive Progress (α : Type) where
  | go (stack : List (Frame α)) (next : Expectation α)
  | finish (value : α)
  | refuse

namespace Reader

variable {α : Type}

/-- One more container may be opened inside those of the stack. -/
def mayOpen (r : Reader α) (stack : List (Frame α)) : Bool :=
  r.depth.all (stack.length < ·)

/-- After a complete value the reading is over when nothing is open around it. -/
def complete (stack : List (Frame α)) (value : α) : Progress α :=
  if stack.isEmpty then .finish value else .go stack (.separator value)

/-- A token at the beginning of a value. -/
def beginValue (r : Reader α) (stack : List (Frame α)) : Token → Progress α
  | .beginArray => if r.mayOpen stack then .go (.array [] :: stack) .firstItem else .refuse
  | .beginObject => if r.mayOpen stack then .go stack .firstKey else .refuse
  | t =>
    match r.scalar t with
    | some value => complete stack value
    | none => .refuse

/-- A token at the place of a key. -/
def beginMember (r : Reader α) (stack : List (Frame α)) (members : List (String × α)) :
    Token → Progress α
  | .string text =>
    match r.key text with
    | some key => .go stack (.colon members key)
    | none => .refuse
  | _ => .refuse

/-- A token after the value of an item or a member. -/
def endValue (r : Reader α) (value : α) : List (Frame α) → Token → Progress α
  | .array items :: stack, .comma => .go (.array (value :: items) :: stack) .value
  | .array items :: stack, .endArray => complete stack (r.array (value :: items).reverse)
  | .object members key :: stack, .comma => .go stack (.nextKey ((key, value) :: members))
  | .object members key :: stack, .endObject =>
    complete stack (r.object ((key, value) :: members).reverse)
  | _, _ => .refuse

/-- One step of the reading. -/
def step (r : Reader α) (stack : List (Frame α)) : Expectation α → Token → Progress α
  | .value, t => r.beginValue stack t
  | .firstItem, .endArray => complete stack.tail (r.array [])
  | .firstItem, t => r.beginValue stack t
  | .firstKey, .endObject => complete stack (r.object [])
  | .firstKey, t => r.beginMember stack [] t
  | .nextKey members, t => r.beginMember stack members t
  | .colon members key, .colon => .go (.object members key :: stack) .value
  | .colon _ _, _ => .refuse
  | .separator value, t => r.endValue value stack t

/-- Reads on from the given stack and expectation; the result is the value with the tokens after
it. -/
def runFrom (r : Reader α) (stack : List (Frame α)) (next : Expectation α) :
    List Token → Option (α × List Token)
  | [] => none
  | t :: rest =>
    match r.step stack next t with
    | .go stack next => r.runFrom stack next rest
    | .finish value => some (value, rest)
    | .refuse => none

/-- Reads one value; the result is the value with the tokens after it. -/
def run (r : Reader α) (ts : List Token) : Option (α × List Token) := r.runFrom [] .value ts

/-- A value leaves fewer tokens. -/
theorem length_lt_of_runFrom {r : Reader α} {stack : List (Frame α)} {next : Expectation α}
    {ts rest : List Token} {value : α} (h : r.runFrom stack next ts = some (value, rest)) :
    rest.length < ts.length := by
  induction ts generalizing stack next with
  | nil => cases h
  | cons t ts ih =>
      rw [runFrom] at h
      split at h
      · exact Nat.lt_succ_of_lt (ih h)
      · cases h
        exact Nat.lt_succ_self _
      · cases h

theorem length_lt_of_run {r : Reader α} {ts rest : List Token} {value : α}
    (h : r.run ts = some (value, rest)) : rest.length < ts.length := length_lt_of_runFrom h

end Reader

/-- The scalar value of a token. A number must be near a finite double, a string must be a text. -/
def scalarValue? : Token → Option Value
  | .null => some .null
  | .boolean b => some (.boolean b)
  | .number text => if Number.isFinite text then some (.number text) else none
  | .string text => (decode text).map .string
  | _ => none

/-- The token is a scalar, whatever its content. -/
def isScalar : Token → Bool
  | .null | .boolean _ | .number _ | .string _ => true
  | _ => false

/-- Builds values, nested to a depth of at most 127. -/
def valueReader : Reader Value :=
  ⟨some 127, scalarValue?, decode, .array, .object⟩

/-- Passes over values. -/
def skipReader : Reader Unit :=
  ⟨none, fun t => if isScalar t then some () else none, fun _ => some "", fun _ => (),
    fun _ => ()⟩

/-- The value of a document, which holds nothing else. -/
def Value.ofBytes (document : List UInt8) : Option Value :=
  match valueReader.run (Token.all document) with
  | some (value, []) => some value
  | _ => none

/-- The value of a document given as a text. -/
def Value.ofString (document : String) : Option Value :=
  Value.ofBytes document.toUTF8.data.toList

end Respell.Json
