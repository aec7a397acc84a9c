import AnalysisScheduler.Proofs.Settings.OptionValue
import AnalysisScheduler.Proofs.Text.Ascii

/-!
# Boolean words

Which raw settings are booleans: those that are one of eleven words, in ASCII letters of either case
and with any blanks around it (`boolean_words_exact`). The case is taken away by full lowercasing,
but none of the words has a letter that anything outside of ASCII turns into.
-/

namespace AnalysisScheduler

namespace OptionKind

/-- A raw setting without the blanks around it and with small letters in place of the ASCII
capitals; all else stays as it is. -/
def asciiWord (raw : String) : String := .ofList ((Text.trim raw.toList).map Char.toLower)

theorem isPlain_of_mem_words {word : List Char} (mem : word ∈ trueWords ++ falseWords) :
    ∀ d ∈ word, Text.IsPlain d := by
  have all : (trueWords ++ falseWords).all (·.all fun d => Text.IsPlain d) = true := by decide
  have plain := List.all_eq_true.1 (List.all_eq_true.1 all word mem)
  exact fun d here => of_decide_eq_true (plain d here)

/-- No word is one for both. -/
theorem not_mem_trueWords {word : List Char} (mem : word ∈ falseWords) : word ∉ trueWords := by
  have all : ∀ word ∈ falseWords, word ∉ trueWords := by decide
  exact all word mem

theorem lower_mem_iff {cs : List Char} {words : List (List Char)}
    (known : ∀ word ∈ words, word ∈ trueWords ++ falseWords) :
    Text.lower cs ∈ words ↔ cs.map Char.toLower ∈ words := by
  constructor
  · intro mem
    rwa [(Text.lower_eq_iff_of_isPlain (isPlain_of_mem_words (known _ mem))).1 rfl]
  · intro mem
    rwa [(Text.lower_eq_iff_of_isPlain (isPlain_of_mem_words (known _ mem))).2 rfl]

theorem parseBoolean?_eq_true_iff {cs : List Char} :
    parseBoolean? cs = some true ↔ cs.map Char.toLower ∈ trueWords := by
  rw [← lower_mem_iff fun _ => List.mem_append_left _]
  unfold parseBoolean?
  by_cases yes : Text.lower cs ∈ trueWords
  · simp [yes]
  · by_cases no : Text.lower cs ∈ falseWords <;> simp [yes, no]

theorem parseBoolean?_eq_false_iff {cs : List Char} :
    parseBoolean? cs = some false ↔ cs.map Char.toLower ∈ falseWords := by
  rw [← lower_mem_iff fun _ => List.mem_append_right _]
  unfold parseBoolean?
  by_cases no : Text.lower cs ∈ falseWords
  · simp [not_mem_trueWords no, no]
  · by_cases yes : Text.lower cs ∈ trueWords <;> simp [yes, no]

theorem parseBoolean?_eq_none_iff {cs : List Char} : parseBoolean? cs = none ↔
    cs.map Char.toLower ∉ trueWords ∧ cs.map Char.toLower ∉ falseWords := by
  rw [← parseBoolean?_eq_true_iff, ← parseBoolean?_eq_false_iff]
  cases parseBoolean? cs with
  | none => exact ⟨fun _ => ⟨nofun, nofun⟩, fun _ => rfl⟩
  | some b => cases b <;> simp

theorem isAscii_of_parseBoolean? {cs : List Char} {b : Bool} (read : parseBoolean? cs = some b) :
    ∀ c ∈ cs, Text.IsAscii c := by
  have word : cs.map Char.toLower ∈ trueWords ++ falseWords := by
    cases b with
    | true => exact List.mem_append_left _ (parseBoolean?_eq_true_iff.1 read)
    | false => exact List.mem_append_right _ (parseBoolean?_eq_false_iff.1 read)
  exact fun c mem => Text.isAscii_of_isAscii_toLower
    (isPlain_of_mem_words word _ (List.mem_map_of_mem mem)).1

theorem parse?_boolean_eq_some_iff {raw : String} {b : Bool} :
    boolean.parse? raw = some (.boolean b) ↔ parseBoolean? (Text.trim raw.toList) = some b := by
  rw [parse?_boolean, Option.map_eq_some_iff]
  constructor
  · rintro ⟨b', read, same⟩
    cases same
    exact read
  · exact fun read => ⟨b, read, rfl⟩

theorem asciiWord_mem_iff {raw : String} {words : List String} :
    asciiWord raw ∈ words ↔
      (Text.trim raw.toList).map Char.toLower ∈ words.map String.toList := by
  rw [List.mem_map]
  constructor
  · exact fun mem => ⟨_, mem, String.toList_ofList⟩
  · rintro ⟨word, mem, same⟩
    rwa [asciiWord, ← same, String.ofList_toList]

end OptionKind

/-- A raw setting is true, false or no boolean by what it is without the blanks around it, the case
of ASCII letters apart. So nothing that is a boolean has a character outside of ASCII between the
blanks, although there are such characters whose small forms are ASCII letters. -/
theorem boolean_words_exact (raw : String) :
    (OptionKind.boolean.parse? raw = some (.boolean true) ↔
      OptionKind.asciiWord raw ∈ ["true", "yes", "on", "y", "1"]) ∧
    (OptionKind.boolean.parse? raw = some (.boolean false) ↔
      OptionKind.asciiWord raw ∈ ["false", "no", "off", "n", "0", "none"]) ∧
    (OptionKind.boolean.parse? raw = none ↔
      OptionKind.asciiWord raw ∉ ["true", "yes", "on", "y", "1"] ∧
        OptionKind.asciiWord raw ∉ ["false", "no", "off", "n", "0", "none"]) ∧
    ((∃ c ∈ Text.trim raw.toList, ¬ Text.IsAscii c) → OptionKind.boolean.parse? raw = none) := by
  simp only [OptionKind.parse?_boolean_eq_some_iff, OptionKind.asciiWord_mem_iff]
  refine ⟨OptionKind.parseBoolean?_eq_true_iff, OptionKind.parseBoolean?_eq_false_iff, ?_, ?_⟩
  · rw [OptionKind.parse?_boolean, Option.map_eq_none_iff]
    exact OptionKind.parseBoolean?_eq_none_iff
  · rintro ⟨c, mem, outside⟩
    rw [OptionKind.parse?_boolean, Option.map_eq_none_iff]
    refine Option.eq_none_iff_forall_ne_some.2 fun b read => outside ?_
    exact OptionKind.isAscii_of_parseBoolean? read c mem

/-- Capitals between wide blanks, and a long s in the place of the last letter. -/
theorem boolean_words_exact_of_yes :
    OptionKind.asciiWord " YeS\u3000" ∈ ["true", "yes", "on", "y", "1"] ∧
      OptionKind.boolean.parse? " YeS\u3000" = some (.boolean true) ∧
      (∃ c ∈ Text.trim "ye\u017f".toList, ¬ Text.IsAscii c) ∧
      OptionKind.boolean.parse? "ye\u017f" = none := by
  have word : OptionKind.asciiWord " YeS\u3000" ∈ ["true", "yes", "on", "y", "1"] := by
    decide +kernel
  have outside : ∃ c ∈ Text.trim "ye\u017f".toList, ¬ Text.IsAscii c :=
    ⟨'\u017f', by decide +kernel, by decide⟩
  obtain ⟨yes, -⟩ := boolean_words_exact " YeS\u3000"
  obtain ⟨-, -, -, refused⟩ := boolean_words_exact "ye\u017f"
  exact ⟨word, yes.2 word, outside, refused outside⟩

end AnalysisScheduler
