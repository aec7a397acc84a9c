import AnalysisScheduler.Number.Shortest

/-!
# Floating point numerals

Numbers are written with the fewest digits that read back. `display` never uses an exponent and
leaves whole numbers without a point. `inspect` marks a number as fractional by `.0` and turns to an
exponent below `0.0001` and from ten to the sixteenth on. `read?` takes both, the names of the
special values in any case, and decimals of any length.
-/

namespace AnalysisScheduler.FloatText

/-! ## Writing -/

def zeros (n : Nat) : List Char := List.replicate n '0'

def minus (negative : Bool) : List Char := if negative then ['-'] else []

/-- The whole part and the places after the point. -/
def positional (d : Shortest.Digits) : List Char × List Char :=
  let count := d.digits.length
  if d.point ≤ 0 then (['0'], zeros (-d.point).toNat ++ d.digits)
  else if (count : Int) ≤ d.point then (d.digits ++ zeros (d.point.toNat - count), [])
  else (d.digits.take d.point.toNat, d.digits.drop d.point.toNat)

/-- Two parts of a numeral with a point between them, which is left out before no places. -/
def joined (whole places : List Char) : List Char :=
  if places = [] then whole else whole ++ '.' :: places

/-- A decimal with one digit before the point and an exponent. -/
def scientific (d : Shortest.Digits) : List Char :=
  let e := d.point - 1
  joined (d.digits.take 1) (d.digits.drop 1) ++ 'e' :: (minus (e < 0) ++ Decimal.digits e.natAbs)

/-- The numeral of a number in a text for readers. -/
def display (x : Float) : List Char :=
  match Binary64.view x with
  | .notANumber => "NaN".toList
  | .infinite negative => minus negative ++ "inf".toList
  | .finite negative 0 _ => minus negative ++ ['0']
  | .finite negative m e =>
    let (whole, places) := positional (Shortest.shortest m e)
    minus negative ++ joined whole places

/-- The numeral of a number in a description of a value. -/
def inspect (x : Float) : List Char :=
  match Binary64.view x with
  | .finite negative 0 _ => minus negative ++ "0.0".toList
  | .finite negative m e =>
    let d := Shortest.shortest m e
    minus negative ++
      if -3 ≤ d.point ∧ d.point ≤ 16 then
        let (whole, places) := positional d
        joined whole (if places = [] then ['0'] else places)
      else scientific d
  | _ => display x

/-! ## Reading -/

/-- What follows the digits: nothing, or an exponent. -/
def readExponent? : List Char → Option Int
  | [] => some 0
  | c :: rest =>
    if c = 'e' ∨ c = 'E' then
      let (negative, ds) := Decimal.splitSign rest
      (Decimal.read? ds).map fun n => if negative then -(n : Int) else n
    else none

/-- Digits with an optional point, at least one of them, and an optional exponent. -/
def readDecimal? (negative : Bool) (cs : List Char) : Option Float :=
  let whole := cs.takeWhile Char.isDigit
  let rest := cs.dropWhile Char.isDigit
  let (places, tail) :=
    match rest with
    | '.' :: more => (more.takeWhile Char.isDigit, more.dropWhile Char.isDigit)
    | _ => ([], rest)
  if whole = [] ∧ places = [] then none
  else (readExponent? tail).map fun e =>
    Binary64.ofDecimal negative (whole ++ places) (e - places.length)

/-- The names of the special values, in small letters. -/
def special? (negative : Bool) (name : List Char) : Option Float :=
  if name = "inf".toList ∨ name = "infinity".toList then some (Binary64.infinity negative)
  else if name = "nan".toList then
    some (Binary64.ofMagnitude negative (Binary64.infinityBits + Nat.pow 2 51))
  else none

/-- Reads a numeral with an optional sign. -/
def read? (cs : List Char) : Option Float :=
  let (negative, rest) := Decimal.splitSign cs
  (readDecimal? negative rest).or (special? negative (rest.map Char.toLower))

end AnalysisScheduler.FloatText
