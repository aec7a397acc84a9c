import AnalysisScheduler.Json.Token

/-!
# Reading JSON

A value is built token by token. The values that are still open are kept on a stack, each with what
it holds so far, and what may come next is known at every token.
-/

namespace AnalysisScheduler.Json

/-- A value that is not yet complete, the last part of it first. -/
inductive Frame where
  | array (before : List Json)
  /-- An object and the key of the member that is being read. -/
  | object (before : List (List Char × Json)) (key : List Char)

/-- What may come next. -/
inductive Want where
  | value
  /-- The first item of an array, or its end. -/
  | firstItem
  /-- The first key of an object, or its end. -/
  | firstKey
  /-- The next key of an object. -/
  | key (before : List (List Char × Json))
  /-- The colon after a key. -/
  | colon (before : List (List Char × Json)) (key : List Char)
  /-- Whatever may follow a complete value. -/
  | after (value : Json)

/-- A value that begins with a token. -/
def Want.beginValue? : Token → Option Want
  | .null => some (.after .null)
  | .bool b => some (.after (.bool b))
  | .number literal => some (.after (.number literal))
  | .string body => some (.after (.string body))
  | .beginArray => some .firstItem
  | .beginObject => some .firstKey
  | _ => none

/-- Reads one token. -/
def readToken? (state : List Frame × Want) (token : Token) : Option (List Frame × Want) :=
  match state, token with
  | (stack, .value), t => (Want.beginValue? t).map (stack, ·)
  | (stack, .firstItem), .endArray => some (stack, .after (.array []))
  | (stack, .firstItem), t => (Want.beginValue? t).map (.array [] :: stack, ·)
  | (stack, .firstKey), .endObject => some (stack, .after (.object []))
  | (stack, .firstKey), .string k => some (stack, .colon [] k)
  | (stack, .key before), .string k => some (stack, .colon before k)
  | (stack, .colon before k), .colon => some (.object before k :: stack, .value)
  | (.array before :: stack, .after j), .comma => some (.array (j :: before) :: stack, .value)
  | (.array before :: stack, .after j), .endArray =>
    some (stack, .after (.array (j :: before).reverse))
  | (.object before k :: stack, .after j), .comma => some (stack, .key ((k, j) :: before))
  | (.object before k :: stack, .after j), .endObject =>
    some (stack, .after (.object ((k, j) :: before).reverse))
  | _, _ => none

/-- Reads a text that is one value, with white space around it. -/
def read? (cs : List Char) : Option Json := do
  let tokens ← Token.ofText? cs
  match ← tokens.foldlM readToken? ([], .value) with
  | ([], .after j) => some j
  | _ => none

end AnalysisScheduler.Json
