import AnalysisScheduler.Text.GraphemeExtend
import AnalysisScheduler.Text.Unprintable

/-!
# Quoted text

How messages show a text between double quotes: the quote and the backslash escaped, the common
controls by a letter, and every character that would not show by itself as its code point.
-/

namespace AnalysisScheduler.Text

/-- The digit for a value below sixteen, in small letters. -/
def hexDigit (n : Nat) : Char := if n < 10 then Char.ofNat (48 + n) else Char.ofNat (87 + n)

/-- A number in hexadecimal, without leading zeros. -/
def hexDigits (n : Nat) : List Char :=
  if n < 16 then [hexDigit n] else hexDigits (n / 16) ++ [hexDigit (n % 16)]

/-- How one character is written between quotes. -/
def quoteChar (c : Char) : List Char :=
  match c with
  | '\x00' => ['\\', '0']
  | '\t' => ['\\', 't']
  | '\n' => ['\\', 'n']
  | '\r' => ['\\', 'r']
  | '"' => ['\\', '"']
  | '\\' => ['\\', '\\']
  | c =>
    if extendsGrapheme c || isUnprintable c then
      ['\\', 'u', '\x7b'] ++ hexDigits c.toNat ++ ['\x7d']
    else [c]

/-- A text between double quotes. -/
def quote (cs : List Char) : List Char := '"' :: (cs.flatMap quoteChar ++ ['"'])

/-- `quote` on strings. -/
def quoted (s : String) : String := .ofList (quote s.toList)

example : quote "a\"b\\\n\u0301\u00ad'".toList =
    "\"a\\\"b\\\\\\n\\u\x7b301\x7d\\u\x7bad\x7d'\"".toList := by decide +kernel

end AnalysisScheduler.Text
