import AnalysisScheduler.Json.Reader
import AnalysisScheduler.Proofs.Json.Strings

/-!
# Written values are read again

A value whose numerals and strings are well formed (`Legal`) is read as what it was written from
(`read?_write`). Between the text and the value stand the tokens of the value: the text is cut into
them (`Legal.reads`), and they are put together to the value (`Legal.builds`).

A numeral or a name ends only where something else begins. So what a text is cut into is said for
every text that may follow it (`Token.Reads`), and such statements are joined at marks.
-/

namespace AnalysisScheduler.Json

/-- A value whose numerals and strings are well formed. -/
inductive Legal : Json → Prop
  | null : Legal .null
  | bool (b : Bool) : Legal (.bool b)
  | number {literal : List Char} : Token.isNumeral literal = true → Legal (.number literal)
  | string {body : List Char} : Body body → Legal (.string body)
  | array {items : List Json} : (∀ j ∈ items, Legal j) → Legal (.array items)
  | object {members : List (List Char × Json)} :
      (∀ m ∈ members, Body m.1) → (∀ m ∈ members, Legal m.2) → Legal (.object members)

/-! ## The tokens of a value -/

mutual

def tokens : Json → List Token
  | .null => [.null]
  | .bool b => [.bool b]
  | .number literal => [.number literal]
  | .string body => [.string body]
  | .array items => .beginArray :: (itemTokens items ++ [.endArray])
  | .object members => .beginObject :: (memberTokens members ++ [.endObject])

def itemTokens : List Json → List Token
  | [] => []
  | [j] => tokens j
  | j :: rest => tokens j ++ .comma :: itemTokens rest

def memberTokens : List (List Char × Json) → List Token
  | [] => []
  | [(k, j)] => .string k :: .colon :: tokens j
  | (k, j) :: rest => .string k :: .colon :: (tokens j ++ .comma :: memberTokens rest)

end

/-! ## From the text to the tokens -/

namespace Token

/-- What a value may be followed by: nothing, or a mark. -/
inductive Ends : List Char → Prop
  | nil : Ends []
  | mark {c : Char} {m : Token} (cs : List Char) : ofMark? c = some m → Ends (c :: cs)

/-- A character that goes on with an atom. -/
def IsAtomic (c : Char) : Prop := isSpace c = false ∧ c ≠ '"' ∧ ofMark? c = none

instance (c : Char) : Decidable (IsAtomic c) := inferInstanceAs (Decidable (_ ∧ _))

/-- A text is cut into some tokens, whatever the value at its end is followed by. -/
def Reads (cs : List Char) (ts : List Token) : Prop :=
  ∀ rest, Ends rest → readFrom? .between (cs ++ rest) = (readFrom? .between rest).map (ts ++ ·)

theorem isSpace_eq_false_of_mark {c : Char} {m : Token} (mark : ofMark? c = some m) :
    isSpace c = false ∧ c ≠ '"' := by
  unfold ofMark? at mark
  split at mark
  case h_7 => cases mark
  all_goals exact ⟨rfl, by decide⟩

theorem readFrom?_mark {c : Char} {m : Token} (mark : ofMark? c = some m) (cs : List Char) :
    readFrom? .between (c :: cs) = (readFrom? .between cs).map (m :: ·) := by
  obtain ⟨notSpace, notQuote⟩ := isSpace_eq_false_of_mark mark
  rw [readFrom?, notSpace, mark]
  simp only [Bool.false_eq_true, if_false, if_neg notQuote]
  cases readFrom? .between cs <;> rfl

theorem readFrom?_atom_append {cs : List Char} (atomic : ∀ c ∈ cs, IsAtomic c)
    (before rest : List Char) :
    readFrom? (.atom before) (cs ++ rest) = readFrom? (.atom (cs.reverse ++ before)) rest := by
  induction cs generalizing before with
  | nil => rfl
  | cons c cs ih =>
    obtain ⟨notSpace, notQuote, notMark⟩ := atomic c List.mem_cons_self
    rw [List.cons_append, readFrom?, notSpace, notMark]
    simp only [Bool.false_eq_true, if_false, if_neg notQuote]
    rw [ih (fun c mem => atomic c (List.mem_cons_of_mem _ mem)), List.reverse_cons,
      List.append_assoc, List.singleton_append]

/-- An atom is over where nothing follows, or a mark. -/
theorem readFrom?_atom_of_ends {before rest : List Char} {t : Token} (ends : Ends rest)
    (atom : ofAtom? before.reverse = some t) :
    readFrom? (.atom before) rest = (readFrom? .between rest).map (t :: ·) := by
  cases ends with
  | nil =>
    rw [readFrom?, readFrom?, Reading.finish?, Reading.finish?, atom]
    rfl
  | mark cs mark =>
    obtain ⟨notSpace, notQuote⟩ := isSpace_eq_false_of_mark mark
    rw [readFrom?_mark mark, readFrom?, notSpace, mark, atom]
    simp only [Bool.false_eq_true, if_false, if_neg notQuote]
    cases readFrom? .between cs <;> rfl

namespace Reads

variable {cs cs' : List Char} {ts ts' : List Token}

theorem nil : Reads [] [] := fun rest _ => by simp

theorem atom {c : Char} {t : Token} (atomic : ∀ d ∈ c :: cs, IsAtomic d)
    (found : ofAtom? (c :: cs) = some t) : Reads (c :: cs) [t] := by
  intro rest ends
  obtain ⟨notSpace, notQuote, notMark⟩ := atomic c List.mem_cons_self
  have whole : ofAtom? (cs.reverse ++ [c]).reverse = some t := by simpa using found
  rw [List.cons_append, readFrom?, notSpace, notMark]
  simp only [Bool.false_eq_true, if_false, if_neg notQuote]
  rw [readFrom?_atom_append fun d mem => atomic d (List.mem_cons_of_mem _ mem)]
  exact readFrom?_atom_of_ends ends whole

theorem string_cons {body : List Char} (legal : Body body) (reads : Reads cs ts) :
    Reads ('"' :: (body ++ '"' :: cs)) (.string body :: ts) := by
  intro rest ends
  have quote : readFrom? .between ('"' :: (body ++ '"' :: (cs ++ rest))) =
      readFrom? (.string []) (body ++ '"' :: (cs ++ rest)) := by
    rw [readFrom?]
    rfl
  simp only [List.cons_append, List.append_assoc]
  rw [quote, readFrom?_body legal, reads rest ends, Option.map_map]
  rfl

theorem mark_cons {c : Char} {m : Token} (mark : ofMark? c = some m) (reads : Reads cs ts) :
    Reads (c :: cs) (m :: ts) := by
  intro rest ends
  rw [List.cons_append, readFrom?_mark mark, reads rest ends, Option.map_map]
  rfl

/-- Texts can be joined at a mark. -/
theorem append {c : Char} {m : Token} (reads : Reads cs ts) (mark : ofMark? c = some m)
    (reads' : Reads cs' ts') : Reads (cs ++ c :: cs') (ts ++ m :: ts') := by
  intro rest ends
  rw [List.append_assoc, List.cons_append, reads _ (.mark _ mark), readFrom?_mark mark,
    reads' rest ends, Option.map_map, Option.map_map]
  simp [Function.comp_def]

end Reads

/-! ### Atoms -/

/-- The characters at which an atom ends. -/
def separators : List Char := " \t\n\r\"[]\x7b\x7d,:".toList

theorem isAtomic_of_not_mem {c : Char} (inside : c ∉ separators) : IsAtomic c := by
  have outside {d : Char} (mem : d ∈ separators) : c ≠ d := fun same => inside (same ▸ mem)
  refine ⟨?_, outside (by decide), ?_⟩
  · unfold isSpace
    simp [outside (d := ' ') (by decide), outside (d := '\t') (by decide),
      outside (d := '\n') (by decide), outside (d := '\r') (by decide)]
  · unfold ofMark?
    split
    case h_7 => rfl
    all_goals exact absurd rfl (outside (by decide))

theorem isAtomic_of_all {cs : List Char} (all : cs.all (fun c => decide (IsAtomic c)) = true) :
    ∀ c ∈ cs, IsAtomic c :=
  fun c mem => of_decide_eq_true (List.all_eq_true.1 all c mem)

theorem isAtomic_of_isDigit {c : Char} (digit : c.isDigit = true) : IsAtomic c := by
  have none : separators.all (!·.isDigit) = true := by decide
  refine isAtomic_of_not_mem fun mem => ?_
  have other := List.all_eq_true.1 none c mem
  rw [digit] at other
  cases other

theorem isAtomic_of_all_isDigit {cs : List Char} (digits : cs.all Char.isDigit = true) :
    ∀ c ∈ cs, IsAtomic c :=
  fun c mem => isAtomic_of_isDigit (List.all_eq_true.1 digits c mem)

theorem isAtomic_of_isExponent {cs : List Char} (exponent : isExponent cs = true) :
    ∀ c ∈ cs, IsAtomic c := by
  cases cs with
  | nil => simp
  | cons e rest =>
    simp only [isExponent, Bool.and_eq_true, Bool.or_eq_true, decide_eq_true_eq] at exponent
    obtain ⟨letter, _, digits⟩ := exponent
    have first : IsAtomic e := by
      rcases letter with rfl | rfl <;> decide
    refine List.forall_mem_cons.2 ⟨first, ?_⟩
    split at digits
    · exact List.forall_mem_cons.2 ⟨by decide, isAtomic_of_all_isDigit digits⟩
    · exact List.forall_mem_cons.2 ⟨by decide, isAtomic_of_all_isDigit digits⟩
    · exact isAtomic_of_all_isDigit digits

theorem isAtomic_of_takeWhile_isDigit {cs : List Char}
    (rest : ∀ c ∈ cs.dropWhile Char.isDigit, IsAtomic c) : ∀ c ∈ cs, IsAtomic c := by
  intro c mem
  rw [← List.takeWhile_append_dropWhile (p := Char.isDigit) (l := cs), List.mem_append] at mem
  rcases mem with mem | mem
  · exact isAtomic_of_all_isDigit List.all_takeWhile c mem
  · exact rest c mem

theorem isAtomic_of_isNumeral {cs : List Char} (numeral : isNumeral cs = true) :
    ∀ c ∈ cs, IsAtomic c := by
  unfold isNumeral at numeral
  split at numeral
  case' h_1 => refine List.forall_mem_cons.2 ⟨by decide, ?_⟩
  -- After the sign, digits alternate with the point and the exponent.
  all_goals
    obtain ⟨_, tail⟩ := Bool.and_eq_true_iff.1 numeral
    refine isAtomic_of_takeWhile_isDigit ?_
    split at tail
    · next more found =>
      rw [found]
      obtain ⟨_, exponent⟩ := Bool.and_eq_true_iff.1 tail
      exact List.forall_mem_cons.2
        ⟨by decide, isAtomic_of_takeWhile_isDigit (isAtomic_of_isExponent exponent)⟩
    · exact isAtomic_of_isExponent tail

theorem ofAtom?_of_isNumeral {cs : List Char} (numeral : isNumeral cs = true) :
    ofAtom? cs = some (.number cs) := by
  have other {name : List Char} (isName : isNumeral name = false) : cs ≠ name := by
    rintro rfl
    rw [isName] at numeral
    cases numeral
  unfold ofAtom?
  rw [if_neg (other (by decide)), if_neg (other (by decide)), if_neg (other (by decide)),
    if_pos numeral]

theorem Reads.number {literal : List Char} (numeral : isNumeral literal = true) :
    Reads literal [.number literal] := by
  cases literal with
  | nil => cases numeral
  | cons c cs => exact .atom (isAtomic_of_isNumeral numeral) (ofAtom?_of_isNumeral numeral)

theorem Reads.null : Reads "null".toList [.null] := .atom (isAtomic_of_all (by decide)) (by decide)

theorem Reads.bool (b : Bool) : Reads (Json.bool b).write [.bool b] := by
  cases b with
  | true =>
    show Reads "true".toList _
    exact .atom (isAtomic_of_all (by decide)) (by decide)
  | false =>
    show Reads "false".toList _
    exact .atom (isAtomic_of_all (by decide)) (by decide)

end Token

/-! ### Values -/

theorem reads_writeItems {items : List Json}
    (each : ∀ j ∈ items, Token.Reads j.write j.tokens) :
    Token.Reads (writeItems items) (itemTokens items) := by
  induction items with
  | nil => exact .nil
  | cons j rest ih =>
    obtain ⟨first, others⟩ := List.forall_mem_cons.1 each
    cases rest with
    | nil => exact first
    | cons k rest => exact first.append rfl (ih others)

theorem reads_writeMembers {members : List (List Char × Json)}
    (keys : ∀ m ∈ members, Body m.1) (each : ∀ m ∈ members, Token.Reads m.2.write m.2.tokens) :
    Token.Reads (writeMembers members) (memberTokens members) := by
  induction members with
  | nil => exact .nil
  | cons m rest ih =>
    obtain ⟨k, j⟩ := m
    obtain ⟨key, otherKeys⟩ := List.forall_mem_cons.1 keys
    obtain ⟨first, others⟩ := List.forall_mem_cons.1 each
    cases rest with
    | nil =>
      have reads := Token.Reads.string_cons key (.mark_cons (c := ':') rfl first)
      simpa [writeMembers, memberTokens] using reads
    | cons m' rest =>
      have reads := Token.Reads.string_cons key
        (.mark_cons (c := ':') rfl (first.append (c := ',') rfl (ih otherKeys others)))
      simpa [writeMembers, memberTokens] using reads

/-- The text of a value is cut into the tokens of the value. -/
theorem Legal.reads {j : Json} (legal : j.Legal) : Token.Reads j.write j.tokens := by
  induction legal with
  | null => exact .null
  | bool b => exact .bool b
  | number numeral => exact .number numeral
  | string body => exact .string_cons body .nil
  | array _ ih => exact .mark_cons rfl ((reads_writeItems ih).append rfl .nil)
  | object keys _ ih => exact .mark_cons rfl ((reads_writeMembers keys ih).append rfl .nil)

theorem ofText?_write {j : Json} (legal : j.Legal) : Token.ofText? j.write = some j.tokens := by
  have reads := legal.reads [] .nil
  rw [List.append_nil, Token.readFrom?, Token.Reading.finish?, Option.map_some,
    List.append_nil] at reads
  exact reads

/-! ## From the tokens to the value -/

/-- Reads tokens one after another. -/
def readTokens? (state : List Frame × Want) (ts : List Token) : Option (List Frame × Want) :=
  ts.foldlM readToken? state

theorem readTokens?_append (state : List Frame × Want) (ts ts' : List Token) :
    readTokens? state (ts ++ ts') = (readTokens? state ts).bind (readTokens? · ts') :=
  List.foldlM_append

/-- Reading the tokens of a value completes the value, whatever is still open. -/
def Builds (ts : List Token) (j : Json) : Prop :=
  ∀ stack, readTokens? (stack, .value) ts = some (stack, .after j)

/-- The first token of a value does not end an array. -/
theorem exists_tokens_cons (j : Json) : ∃ t rest, j.tokens = t :: rest ∧ t ≠ .endArray := by
  cases j <;> exact ⟨_, _, rfl, nofun⟩

theorem exists_itemTokens_cons (j : Json) (items : List Json) :
    ∃ t rest, itemTokens (j :: items) = t :: rest ∧ t ≠ .endArray := by
  cases items with
  | nil => exact exists_tokens_cons j
  | cons k items =>
    obtain ⟨t, rest, first, inside⟩ := exists_tokens_cons j
    refine ⟨t, rest ++ .comma :: itemTokens (k :: items), ?_, inside⟩
    rw [itemTokens, first, List.cons_append]
    exact nofun

/-- An array that has just been opened takes its first item as it would take a later one. -/
theorem readTokens?_firstItem (stack : List Frame) (j : Json) (items : List Json)
    (ts : List Token) :
    readTokens? (stack, .firstItem) (itemTokens (j :: items) ++ ts) =
      readTokens? (.array [] :: stack, .value) (itemTokens (j :: items) ++ ts) := by
  obtain ⟨t, rest, first, inside⟩ := exists_itemTokens_cons j items
  have same : readToken? (stack, .firstItem) t = readToken? (.array [] :: stack, .value) t := by
    cases t with
    | endArray => exact absurd rfl inside
    | _ => rfl
  rw [first, List.cons_append, readTokens?, readTokens?, List.foldlM_cons, List.foldlM_cons, same]

/-- An object that has just been opened takes its first key as it would take a later one. -/
theorem readTokens?_firstKey (stack : List Frame) (m : List Char × Json)
    (members : List (List Char × Json)) (ts : List Token) :
    readTokens? (stack, .firstKey) (memberTokens (m :: members) ++ ts) =
      readTokens? (stack, .key []) (memberTokens (m :: members) ++ ts) := by
  cases members <;> rfl

theorem readTokens?_items {j : Json} {items : List Json}
    (each : ∀ i ∈ j :: items, Builds i.tokens i) (before : List Json) (stack : List Frame) :
    readTokens? (.array before :: stack, .value) (itemTokens (j :: items) ++ [.endArray]) =
      some (stack, .after (.array (before.reverse ++ j :: items))) := by
  induction items generalizing j before with
  | nil =>
    have first := each j List.mem_cons_self (.array before :: stack)
    show readTokens? _ (j.tokens ++ [.endArray]) = _
    rw [readTokens?_append, first]
    show some (stack, Want.after (.array (j :: before).reverse)) = _
    rw [List.reverse_cons]
  | cons k rest ih =>
    obtain ⟨first, others⟩ := List.forall_mem_cons.1 each
    show readTokens? _ (j.tokens ++ .comma :: itemTokens (k :: rest) ++ [.endArray]) = _
    rw [List.append_assoc, readTokens?_append, first]
    show readTokens? (.array (j :: before) :: stack, .value)
      (itemTokens (k :: rest) ++ [.endArray]) = _
    rw [ih others, List.reverse_cons, List.append_assoc, List.singleton_append]

theorem readTokens?_members {m : List Char × Json} {members : List (List Char × Json)}
    (each : ∀ m' ∈ m :: members, Builds m'.2.tokens m'.2) (before : List (List Char × Json))
    (stack : List Frame) :
    readTokens? (stack, .key before) (memberTokens (m :: members) ++ [.endObject]) =
      some (stack, .after (.object (before.reverse ++ m :: members))) := by
  obtain ⟨k, j⟩ := m
  induction members generalizing k j before with
  | nil =>
    have first := each (k, j) List.mem_cons_self (.object before k :: stack)
    show readTokens? (.object before k :: stack, .value) (j.tokens ++ [.endObject]) = _
    rw [readTokens?_append, first]
    show some (stack, Want.after (.object ((k, j) :: before).reverse)) = _
    rw [List.reverse_cons]
  | cons m rest ih =>
    obtain ⟨first, others⟩ := List.forall_mem_cons.1 each
    show readTokens? (.object before k :: stack, .value)
      (j.tokens ++ .comma :: memberTokens (m :: rest) ++ [.endObject]) = _
    rw [List.append_assoc, readTokens?_append, first]
    show readTokens? (stack, .key ((k, j) :: before))
      (memberTokens (m :: rest) ++ [.endObject]) = _
    rw [ih _ m.1 m.2 others, List.reverse_cons, List.append_assoc, List.singleton_append]

/-- The tokens of a value are put together to the value. -/
theorem Legal.builds {j : Json} (legal : j.Legal) : Builds j.tokens j := by
  induction legal with
  | null => exact fun _ => rfl
  | bool b => exact fun _ => rfl
  | number _ => exact fun _ => rfl
  | string _ => exact fun _ => rfl
  | @array items _ ih =>
    intro stack
    cases items with
    | nil => rfl
    | cons j rest =>
      show readTokens? (stack, .firstItem) (itemTokens (j :: rest) ++ [.endArray]) = _
      rw [readTokens?_firstItem]
      exact readTokens?_items ih [] stack
  | @object members _ _ ih =>
    intro stack
    cases members with
    | nil => rfl
    | cons m rest =>
      show readTokens? (stack, .firstKey) (memberTokens (m :: rest) ++ [.endObject]) = _
      rw [readTokens?_firstKey]
      exact readTokens?_members ih [] stack

/-- A value is read as what it was written from. -/
theorem read?_write {j : Json} (legal : j.Legal) : read? j.write = some j := by
  unfold read?
  rw [ofText?_write legal]
  show (readTokens? ([], .value) j.tokens).bind _ = _
  rw [legal.builds]
  rfl

end AnalysisScheduler.Json
