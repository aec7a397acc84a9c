import AnalysisScheduler.Text.LowercaseRun
import AnalysisScheduler.Text.Cased
import AnalysisScheduler.Text.CaseIgnorable

/-!
# Lowercase text

The full lowercase mapping of Unicode, for any language. One capital has a small form of two
characters, and the small form of the capital sigma depends on whether it ends a word.
-/

namespace AnalysisScheduler.Text

/-- The small form of a character by itself. -/
def lowerChar (c : Char) : List Char :=
  if c = 'İ' then ['i', '\u0307'] else
    match lowercaseRuns.find? (·.covers c.toNat) with
    | some run => [Char.ofNat (run.lower c.toNat)]
    | none => [c]

/-- Whether the first character that counts is a letter with case. -/
def startsCased (cs : List Char) : Bool :=
  match cs.dropWhile isCaseIgnorable with
  | c :: _ => isCased c
  | [] => false

/-- Whether a sigma between these texts ends a word; `before` is read backwards. -/
def endsWord (before after : List Char) : Bool := startsCased before && !startsCased after

/-- The small form of a text that follows `before`, which is read backwards. -/
def lowerAfter (before : List Char) : List Char → List Char
  | [] => []
  | c :: rest =>
    (if c = 'Σ' then [if endsWord before rest then 'ς' else 'σ'] else lowerChar c) ++
      lowerAfter (c :: before) rest

/-- The small form of a text. -/
def lower (cs : List Char) : List Char := lowerAfter [] cs

/-- `lower` on strings. -/
def lowered (s : String) : String := .ofList (lower s.toList)

example : lower "ΑΣ Σ ΣΑΣ".toList = "ας σ σας".toList := by decide +kernel
example : lower "İK\u212a".toList = "i\u0307kk".toList := by decide +kernel

end AnalysisScheduler.Text
