import AnalysisScheduler.Json.Token

/-!
# Strings in JSON texts

What may stand between the quotes of a string (`Body`), and that escaping a text gives such a body
(`body_escape`) that says the text again (`unescape?_escape`). A string whose body is complete is
read as one token (`Token.readFrom?_body`).
-/

namespace AnalysisScheduler.Json

/-! ## Single characters -/

/-- The ways to write a character in a string. -/
inductive Spells : List Char → Char → Prop
  | plain {c : Char} : 32 ≤ c.toNat → c ≠ '"' → c ≠ '\\' → Spells [c] c
  | short {letter c : Char} : shortEscape? letter = some c → Spells ['\\', letter] c
  /-- Controls are written by their number. -/
  | code {high low c : Char} : hexQuad? '0' '0' high low = some c.toNat → c.toNat < 32 →
      Spells ['\\', 'u', '0', '0', high, low] c

theorem hexQuad?_control {n : Nat} (control : n < 32) :
    hexQuad? '0' '0' (Text.hexDigit (n / 16)) (Text.hexDigit (n % 16)) = some n := by
  have all : ∀ n, n < 32 →
      hexQuad? '0' '0' (Text.hexDigit (n / 16)) (Text.hexDigit (n % 16)) = some n := by decide
  exact all n control

/-- Every character is written in one of the ways. -/
theorem spells_escapeChar (c : Char) : Spells (escapeChar c) c := by
  unfold escapeChar
  -- The quote, the backslash and five of the controls have a letter each.
  iterate 7
    split
    · next same => subst same; exact .short rfl
  split
  · next control => exact .code (hexQuad?_control control) control
  · next notQuote notBackslash _ _ _ _ _ notControl =>
    exact .plain (Nat.le_of_not_lt notControl) notQuote notBackslash

theorem ne_u_of_shortEscape? {letter c : Char} (short : shortEscape? letter = some c) :
    letter ≠ 'u' := by
  rintro rfl
  cases short

/-! ## Bodies -/

/-- What may stand between the quotes of a string. -/
inductive Body : List Char → Prop
  | nil : Body []
  | plain {c : Char} {cs : List Char} :
      32 ≤ c.toNat → c ≠ '"' → c ≠ '\\' → Body cs → Body (c :: cs)
  | short {letter c : Char} {cs : List Char} :
      shortEscape? letter = some c → Body cs → Body ('\\' :: letter :: cs)
  | code {a b c d : Char} {n : Nat} {cs : List Char} :
      hexQuad? a b c d = some n → Body cs → Body ('\\' :: 'u' :: a :: b :: c :: d :: cs)

theorem Spells.body {written : List Char} {c : Char} (spells : Spells written c) {cs : List Char}
    (rest : Body cs) : Body (written ++ cs) := by
  cases spells with
  | plain visible notQuote notBackslash => exact .plain visible notQuote notBackslash rest
  | short found => exact .short found rest
  | code found => exact .code found rest

theorem body_escape (cs : List Char) : Body (escape cs) := by
  induction cs with
  | nil => exact .nil
  | cons c cs ih => exact (spells_escapeChar c).body ih

/-- A text in which nothing is escaped. -/
theorem body_of_escape_eq {cs : List Char} (same : escape cs = cs) : Body cs :=
  same ▸ body_escape cs

/-- However a character is written, it is read again, whatever follows. -/
theorem Spells.unescape?_append {written : List Char} {c : Char} (spells : Spells written c)
    (cs : List Char) : unescape? (written ++ cs) = (unescape? cs).map (c :: ·) := by
  cases spells with
  | plain _ _ notBackslash =>
    show unescape? (c :: cs) = _
    rw [unescape?]
    · cases unescape? cs <;> rfl
    · exact fun _ _ _ _ _ same => absurd same notBackslash
    · exact fun _ _ same => absurd same notBackslash
  | @short letter _ found =>
    show unescape? ('\\' :: letter :: cs) = _
    rw [unescape?, found]
    · cases unescape? cs <;> rfl
    · exact fun _ _ _ _ _ same => absurd same (ne_u_of_shortEscape? found)
  | @code high low _ found small =>
    -- The number of a control is below those of the surrogates.
    show unescape? ('\\' :: 'u' :: '0' :: '0' :: high :: low :: cs) = _
    have notHigh : ¬ (0xD800 ≤ c.toNat ∧ c.toNat < 0xDC00) := by omega
    have notLow : ¬ (0xDC00 ≤ c.toNat ∧ c.toNat < 0xE000) := by omega
    rw [unescape?, found]
    simp only [Option.bind_eq_bind, Option.bind_some, if_neg notHigh, if_neg notLow,
      Char.ofNat_toNat]
    cases unescape? cs <;> rfl

theorem unescape?_escape (cs : List Char) : unescape? (escape cs) = some cs := by
  induction cs with
  | nil => rfl
  | cons c cs ih =>
    show unescape? (escapeChar c ++ escape cs) = _
    rw [(spells_escapeChar c).unescape?_append, ih]
    rfl

theorem text?_ofText (s : String) : (ofText s).text? = some s := by
  show (unescape? (escape s.toList)).map String.ofList = some s
  rw [unescape?_escape]
  exact congrArg some String.ofList_toList

/-! ## Tokens -/

/-- A string whose body is complete is one token. -/
theorem Token.readFrom?_body {body : List Char} (legal : Body body) (before rest : List Char) :
    readFrom? (.string before) (body ++ '"' :: rest) =
      (readFrom? .between rest).map (.string (before.reverse ++ body) :: ·) := by
  induction legal generalizing before with
  | nil =>
    rw [List.append_nil]
    show readFrom? (.string before) ('"' :: rest) = _
    rw [readFrom?]
    cases readFrom? .between rest <;> rfl
  | @plain c cs visible notQuote notBackslash _ ih =>
    show readFrom? (.string before) (c :: (cs ++ '"' :: rest)) = _
    have legal : ¬ (c.toNat < 32 ∨ c = '\\') := by
      rintro (control | same)
      · omega
      · exact notBackslash same
    rw [readFrom?, if_neg legal, ih]
    · simp
    · exact notQuote
    · exact fun _ _ _ _ _ same => absurd same notBackslash
    · exact fun _ _ same => absurd same notBackslash
  | @short letter c cs found _ ih =>
    show readFrom? (.string before) ('\\' :: letter :: (cs ++ '"' :: rest)) = _
    rw [readFrom?, found, Option.isSome_some, if_pos rfl, ih]
    · simp
    · exact fun _ _ _ _ _ same => absurd same (ne_u_of_shortEscape? found)
  | @code a b c d n cs found _ ih =>
    show readFrom? (.string before) ('\\' :: 'u' :: a :: b :: c :: d :: (cs ++ '"' :: rest)) = _
    rw [readFrom?, found, Option.isSome_some, if_pos rfl, ih]
    simp

end AnalysisScheduler.Json
