import AnalysisScheduler.Json.Basic

/-!
# JSON tokens

A text is cut into tokens character by character. Marks and strings are read as they come; any run
of other characters is an atom, which has to be a name or a numeral as a whole.
-/

namespace AnalysisScheduler.Json

/-- The smallest parts of a JSON text. -/
inductive Token where
  | beginArray
  | endArray
  | beginObject
  | endObject
  | comma
  | colon
  | null
  | bool (value : Bool)
  | number (literal : List Char)
  | string (body : List Char)
deriving DecidableEq, Repr

namespace Token

/-- The white space of JSON. -/
def isSpace (c : Char) : Bool := c = ' ' || c = '\t' || c = '\n' || c = '\r'

/-- The token of a mark. -/
def ofMark? (c : Char) : Option Token :=
  match c with
  | '[' => some .beginArray
  | ']' => some .endArray
  | '\x7b' => some .beginObject
  | '\x7d' => some .endObject
  | ',' => some .comma
  | ':' => some .colon
  | _ => none

/-- Whether a text is nothing or an exponent. -/
def isExponent : List Char → Bool
  | [] => true
  | c :: rest =>
    (c = 'e' || c = 'E') &&
      let digits := match rest with
        | '+' :: ds => ds
        | '-' :: ds => ds
        | ds => ds
      !digits.isEmpty && digits.all Char.isDigit

/-- Whether a text is a numeral: no zero in front of other digits, and a digit on both sides of the
point. -/
def isNumeral (cs : List Char) : Bool :=
  let unsigned := match cs with
    | '-' :: rest => rest
    | cs => cs
  let whole := unsigned.takeWhile Char.isDigit
  let rest := unsigned.dropWhile Char.isDigit
  (whole = ['0'] || (!whole.isEmpty && whole.head? != some '0')) &&
    match rest with
    | '.' :: more =>
      !(more.takeWhile Char.isDigit).isEmpty && isExponent (more.dropWhile Char.isDigit)
    | rest => isExponent rest

/-- The token of an atom. -/
def ofAtom? (cs : List Char) : Option Token :=
  if cs = "null".toList then some .null
  else if cs = "true".toList then some (.bool true)
  else if cs = "false".toList then some (.bool false)
  else if isNumeral cs then some (.number cs)
  else none

/-- What the next character belongs to; the characters of a part so far are listed backwards. -/
inductive Reading where
  | between
  | atom (before : List Char)
  | string (before : List Char)

/-- The token that ends where something else begins. -/
def Reading.finish? : Reading → Option (List Token)
  | .between => some []
  | .atom before => (ofAtom? before.reverse).map ([·])
  | .string _ => none

/-- The tokens of the rest of a text. -/
def readFrom? : Reading → List Char → Option (List Token)
  | r, [] => r.finish?
  | .string before, '"' :: cs => do
    let tokens ← readFrom? .between cs
    return .string before.reverse :: tokens
  | .string before, '\\' :: 'u' :: a :: b :: c :: d :: cs =>
    if (hexQuad? a b c d).isSome then
      readFrom? (.string (d :: c :: b :: a :: 'u' :: '\\' :: before)) cs
    else none
  | .string before, '\\' :: c :: cs =>
    if (shortEscape? c).isSome then readFrom? (.string (c :: '\\' :: before)) cs else none
  | .string before, c :: cs =>
    if c.toNat < 32 ∨ c = '\\' then none else readFrom? (.string (c :: before)) cs
  | .between, c :: cs =>
    if isSpace c then readFrom? .between cs
    else if c = '"' then readFrom? (.string []) cs
    else match ofMark? c with
      | some mark => do
        let tokens ← readFrom? .between cs
        return mark :: tokens
      | none => readFrom? (.atom [c]) cs
  | .atom before, c :: cs =>
    if isSpace c then do
      let token ← ofAtom? before.reverse
      let tokens ← readFrom? .between cs
      return token :: tokens
    else if c = '"' then do
      let token ← ofAtom? before.reverse
      let tokens ← readFrom? (.string []) cs
      return token :: tokens
    else match ofMark? c with
      | some mark => do
        let token ← ofAtom? before.reverse
        let tokens ← readFrom? .between cs
        return token :: mark :: tokens
      | none => readFrom? (.atom (c :: before)) cs

/-- The tokens of a text. -/
def ofText? (cs : List Char) : Option (List Token) := readFrom? .between cs

end Token

end AnalysisScheduler.Json
