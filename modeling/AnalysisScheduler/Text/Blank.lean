/-!
# Blanks in a text

Sets of characters are lists of ranges of code points (`CodeRanges`). Blanks are the characters with
the Unicode property `White_Space`; the zero-width characters and the information separators are
none. A text can be read without the blanks at its two ends (`trim`), and a list in one line as the
entries between its commas, blanks around an entry not counted and empty entries left out
(`entries`).
-/

namespace AnalysisScheduler.Text

/-! ## Sets of characters -/

/-- Ranges of code points, both ends included, in ascending order. -/
abbrev CodeRanges := List (Nat × Nat)

/-- Whether a code point lies in one of the ranges; the search ends at the first range beyond it. -/
def CodeRanges.covers : CodeRanges → Nat → Bool
  | [], _ => false
  | (first, last) :: rest, code =>
    if code < first then false else if code ≤ last then true else CodeRanges.covers rest code

/-! ## Blanks -/

/-- The code points with the property `White_Space`. -/
def blankRanges : CodeRanges :=
  [(0x9, 0xD), (0x20, 0x20), (0x85, 0x85), (0xA0, 0xA0), (0x1680, 0x1680), (0x2000, 0x200A),
   (0x2028, 0x2029), (0x202F, 0x202F), (0x205F, 0x205F), (0x3000, 0x3000)]

/-- Whether a character is white space. -/
def isBlank (c : Char) : Bool := blankRanges.covers c.toNat

/-- The text without the blanks in front. -/
def trimStart (cs : List Char) : List Char := cs.dropWhile isBlank

/-- The text without the blanks at the end. -/
def trimEnd (cs : List Char) : List Char := (cs.reverse.dropWhile isBlank).reverse

/-- The text without the blanks at either end. -/
def trim (cs : List Char) : List Char := trimEnd (trimStart cs)

example : trim " \tMax Line\u3000".toList = "Max Line".toList := by decide +kernel
example : trim "\u200bx\u001f".toList = "\u200bx\u001f".toList := by decide +kernel

/-! ## Entries -/

/-- The entries of a line. -/
def entries (cs : List Char) : List (List Char) := ((cs.splitOn ',').map trim).filter (· ≠ [])

example : entries "a, b c ,,d".toList = ["a".toList, "b c".toList, "d".toList] := by
  decide +kernel

end AnalysisScheduler.Text
