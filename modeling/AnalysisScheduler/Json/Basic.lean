import AnalysisScheduler.Number.Decimal
import AnalysisScheduler.Text.Quoted

/-!
# JSON values

A value keeps its numerals and strings as they are written. What a numeral is worth and what a
string says is decided by whoever reads the value, so a part that nobody reads may hold a number
beyond every range or half of a surrogate pair.
-/

namespace AnalysisScheduler

/-- A JSON value; objects keep the order of their members and may repeat a key. -/
inductive Json where
  | null
  | bool (value : Bool)
  /-- A numeral as written. -/
  | number (literal : List Char)
  /-- What stands between the quotes, escapes included. -/
  | string (body : List Char)
  | array (items : List Json)
  | object (members : List (List Char × Json))
deriving Inhabited

namespace Json

/-! ## Strings -/

/-- How one character is written in a string. Only the quote, the backslash and the controls below
the space are escaped. -/
def escapeChar (c : Char) : List Char :=
  if c = '"' then ['\\', '"']
  else if c = '\\' then ['\\', '\\']
  else if c = '\n' then ['\\', 'n']
  else if c = '\r' then ['\\', 'r']
  else if c = '\t' then ['\\', 't']
  else if c = '\x08' then ['\\', 'b']
  else if c = '\x0c' then ['\\', 'f']
  else if c.toNat < 32 then
    ['\\', 'u', '0', '0', Text.hexDigit (c.toNat / 16), Text.hexDigit (c.toNat % 16)]
  else [c]

def escape (cs : List Char) : List Char := cs.flatMap escapeChar

/-- The value of a hexadecimal digit of either case. -/
def hexValue? (c : Char) : Option Nat :=
  if '0' ≤ c ∧ c ≤ '9' then some (c.toNat - 48)
  else if 'a' ≤ c ∧ c ≤ 'f' then some (c.toNat - 87)
  else if 'A' ≤ c ∧ c ≤ 'F' then some (c.toNat - 55)
  else none

/-- The value of four hexadecimal digits. -/
def hexQuad? (a b c d : Char) : Option Nat := do
  let a ← hexValue? a
  let b ← hexValue? b
  let c ← hexValue? c
  let d ← hexValue? d
  return ((a * 16 + b) * 16 + c) * 16 + d

/-- The character of an escape of one letter. -/
def shortEscape? (c : Char) : Option Char :=
  match c with
  | '"' => some '"'
  | '\\' => some '\\'
  | '/' => some '/'
  | 'b' => some '\x08'
  | 'f' => some '\x0c'
  | 'n' => some '\n'
  | 'r' => some '\r'
  | 't' => some '\t'
  | _ => none

/-- The text of a string body; none if a surrogate stands without its other half. -/
def unescape? : List Char → Option (List Char)
  | [] => some []
  | '\\' :: 'u' :: a :: b :: c :: d :: rest => do
    let code ← hexQuad? a b c d
    if 0xD800 ≤ code ∧ code < 0xDC00 then
      match rest with
      | '\\' :: 'u' :: e :: f :: g :: h :: rest =>
        let low ← hexQuad? e f g h
        if 0xDC00 ≤ low ∧ low < 0xE000 then
          let text ← unescape? rest
          return Char.ofNat (0x10000 + (code - 0xD800) * 0x400 + (low - 0xDC00)) :: text
        else none
      | _ => none
    else if 0xDC00 ≤ code ∧ code < 0xE000 then none
    else
      let text ← unescape? rest
      return Char.ofNat code :: text
  | '\\' :: c :: rest => do
    let char ← shortEscape? c
    let text ← unescape? rest
    return char :: text
  | c :: rest => do
    let text ← unescape? rest
    return c :: text

/-- The string that says `s`. -/
def ofText (s : String) : Json := .string (escape s.toList)

/-- What a string says. -/
def text? : Json → Option String
  | .string body => (unescape? body).map .ofList
  | _ => none

/-! ## Numbers -/

def ofNat (n : Nat) : Json := .number (Decimal.digits n)

/-- A whole number below two to the power 64, written with digits alone. -/
def unsigned64? : Json → Option UInt64
  | .number literal => do
    let n ← Decimal.read? literal
    if n < Nat.pow 2 64 then some (.ofNat n) else none
  | _ => none

/-! ## Arrays and records -/

def items? : Json → Option (List Json)
  | .array items => some items
  | _ => none

/-- The members of an object under their keys as texts. -/
def members? : Json → Option (List (String × Json))
  | .object members => members.mapM fun m => (unescape? m.1).map fun k => (.ofList k, m.2)
  | _ => none

/-- The fields of a record by their names: `none` in the place of a field that is missing. A record
is an object, in which unknown keys do not matter and no name comes twice, or an array of its
fields in order. -/
def fields? (names : List String) (j : Json) : Option (List (Option Json)) :=
  match j with
  | .array items =>
    if items.length ≤ names.length then
      some (items.map some ++ List.replicate (names.length - items.length) none)
    else none
  | j => do
    let members ← j.members?
    names.mapM fun name =>
      match members.filter (·.1 = name) with
      | [] => some none
      | [m] => some (some m.2)
      | _ => none

/-! ## Writing -/

mutual

/-- The compact text of a value. -/
def write : Json → List Char
  | .null => "null".toList
  | .bool true => "true".toList
  | .bool false => "false".toList
  | .number literal => literal
  | .string body => '"' :: (body ++ ['"'])
  | .array items => '[' :: (writeItems items ++ [']'])
  | .object members => '\x7b' :: (writeMembers members ++ ['\x7d'])

/-- The items of an array, with commas between them. -/
def writeItems : List Json → List Char
  | [] => []
  | [j] => write j
  | j :: rest => write j ++ ',' :: writeItems rest

/-- The members of an object, with commas between them. -/
def writeMembers : List (List Char × Json) → List Char
  | [] => []
  | [(k, j)] => '"' :: (k ++ ['"', ':'] ++ write j)
  | (k, j) :: rest => '"' :: (k ++ ['"', ':'] ++ write j ++ ',' :: writeMembers rest)

end

end Json

end AnalysisScheduler
