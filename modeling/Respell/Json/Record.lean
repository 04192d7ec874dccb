import Respell.Json.Reader

/-!
# Reading records

A record is a document with a fixed set of fields that hold texts: an object with a member for each
field, or an array with the fields in their order. Other members are passed over. A document is
rejected at the first token that makes it impossible, either because no document continues so or
because it is not the record that is wanted, and the two causes are told apart.
-/

namespace Respell.Json

/-- Why a record was not read: the bytes are no document, or the document is not the record. -/
inductive Rejection where
  | malformed
  | mismatched
  deriving DecidableEq, Repr

/-- A field of a record: its name, whether it may be null, and whether it may be left out. -/
structure Field where
  name : String
  nullable : Bool
  required : Bool
  deriving DecidableEq, Repr

/-- The fields that were found with their texts, `none` where a field was null. -/
abbrev Found := List (String × Option String)

/-- The text of a field, or `none` when the field was null or left out. -/
def Found.get? (found : Found) (name : String) : Option String := (found.lookup name).bind id

namespace Record

/-- The cause when a token stands where another kind of value is wanted: a scalar that cannot be
read is no part of a document, any other value is not what is wanted. -/
def rejection : Token → Rejection
  | .null | .boolean _ | .beginArray | .beginObject => .mismatched
  | .number text => if Number.isFinite text then .mismatched else .malformed
  | .string text => if (decode text).isSome then .mismatched else .malformed
  | _ => .malformed

/-- The value of a field, with the tokens after it. -/
def value (field : Field) : List Token → Except Rejection (Option String × List Token)
  | [] => .error .malformed
  | .string text :: rest =>
    match decode text with
    | some s => .ok (some s, rest)
    | none => .error .malformed
  | .null :: rest => if field.nullable then .ok (none, rest) else .error .mismatched
  | t :: _ => .error (rejection t)

/-- No field that must be there is missing. -/
def isComplete (fields : List Field) (found : Found) : Bool :=
  fields.all fun f => !f.required || found.any (·.1 == f.name)

/-- One member of an object, from its key on: the fields found with it, and the tokens after it. A
field that comes a second time is rejected at its key. -/
def member (fields : List Field) (found : Found) (keyText : List UInt8) (ts : List Token) :
    Except Rejection (Found × List Token) :=
  match decode keyText with
  | none => .error .malformed
  | some key =>
    match fields.find? (·.name == key) with
    | some field =>
      if found.any (·.1 == key) then .error .mismatched
      else
        match ts with
        | .colon :: ts =>
          match value field ts with
          | .ok (v, rest) => .ok ((key, v) :: found, rest)
          | .error e => .error e
        | _ => .error .malformed
    | none =>
      match ts with
      | .colon :: ts =>
        match skipReader.run ts with
        | some (_, rest) => .ok (found, rest)
        | none => .error .malformed
      | _ => .error .malformed

/-- The value of a field leaves fewer tokens. -/
theorem length_lt_of_value {field : Field} {ts rest : List Token} {v : Option String}
    (h : value field ts = .ok (v, rest)) : rest.length < ts.length := by
  rw [value.eq_def] at h
  split at h
  · cases h
  · split at h
    · cases h
      exact Nat.lt_succ_self _
    · cases h
  · split at h
    · cases h
      exact Nat.lt_succ_self _
    · cases h
  · cases h

/-- A member leaves fewer tokens. -/
theorem length_lt_of_member {fields : List Field} {found found' : Found} {keyText : List UInt8}
    {ts rest : List Token} (h : member fields found keyText ts = .ok (found', rest)) :
    rest.length < ts.length := by
  unfold member at h
  split at h
  · cases h
  · split at h
    · split at h
      · cases h
      · split at h
        · split at h
          · rename_i hv
            cases h
            exact Nat.lt_succ_of_lt (length_lt_of_value hv)
          · cases h
        · cases h
    · split at h
      · split at h
        · rename_i hskip
          cases h
          exact Nat.lt_succ_of_lt (Reader.length_lt_of_run hskip)
        · cases h
      · cases h

/-- The members that follow a member, up to the end of the object. -/
def moreMembers (fields : List Field) (found : Found) (ts : List Token) :
    Except Rejection (Found × List Token) :=
  match ts with
  | .endObject :: rest =>
    if isComplete fields found then .ok (found, rest) else .error .mismatched
  | .comma :: .string keyText :: rest =>
    match _ : member fields found keyText rest with
    | .ok (found', after) => moreMembers fields found' after
    | .error e => .error e
  | _ => .error .malformed
termination_by ts.length
decreasing_by
  have := length_lt_of_member (by assumption)
  simp only [List.length_cons]
  omega

/-- The members of an object, up to its end. -/
def members (fields : List Field) : List Token → Except Rejection (Found × List Token)
  | .string keyText :: rest =>
    match member fields [] keyText rest with
    | .ok (found, after) => moreMembers fields found after
    | .error e => .error e
  | .endObject :: rest =>
    if isComplete fields [] then .ok ([], rest) else .error .mismatched
  | _ => .error .malformed

/-- The fields that follow in an array, up to its end. Trailing fields may be left out, and nothing
may come after the last one. -/
def moreItems (found : Found) : List Field → List Token → Except Rejection (Found × List Token)
  | fields, .endArray :: rest =>
    if isComplete fields [] then .ok (found, rest) else .error .mismatched
  | field :: fields, .comma :: ts =>
    if ts.head? = some .endArray then .error .malformed
    else
      match value field ts with
      | .ok (v, rest) => moreItems ((field.name, v) :: found) fields rest
      | .error e => .error e
  | _, _ => .error .malformed

/-- The fields in an array, up to its end. -/
def items (fields : List Field) : List Token → Except Rejection (Found × List Token)
  | .endArray :: rest => if isComplete fields [] then .ok ([], rest) else .error .mismatched
  | ts =>
    match fields with
    | [] => .error .malformed
    | field :: fields =>
      match value field ts with
      | .ok (v, rest) => moreItems [(field.name, v)] fields rest
      | .error e => .error e

/-- The fields of a record in the tokens of a document. -/
def ofTokens (fields : List Field) : List Token → Except Rejection Found
  | [] => .error .malformed
  | t :: ts =>
    let result :=
      match t with
      | .beginObject => members fields ts
      | .beginArray => items fields ts
      | t => .error (rejection t)
    match result with
    | .ok (found, []) => .ok found
    | .ok (_, _ :: _) => .error .malformed
    | .error e => .error e

/-- The fields of a record in a document. -/
def ofBytes (fields : List Field) (document : List UInt8) : Except Rejection Found :=
  ofTokens fields (Token.all document)

end Record

end Respell.Json
