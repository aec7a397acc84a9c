import AnalysisScheduler.Proofs.Json.RoundTrip
import AnalysisScheduler.Report.FindingJson
import Mathlib.Data.List.TakeWhile

/-!
# Findings are read as they were written

The parts of a finding are well formed as JSON and say what they were made of: numbers, texts,
severities and line ranges. So reading the text of a finding gives the finding
(`finding_read_as_written`), whatever its texts contain and even if a range ends before it starts.
-/

namespace AnalysisScheduler

/-! ## Numbers -/

namespace Decimal

/-- Only zero begins with a zero. -/
theorem digits_eq_or_head? (n : Nat) : digits n = ['0'] ∨ (digits n).head? ≠ some '0' := by
  fun_induction digits n with
  | case1 n small =>
    have all : ∀ n, n < 10 → [digit n] = ['0'] ∨ [digit n].head? ≠ some '0' := by decide
    exact all n small
  | case2 n large ih =>
    right
    cases front : digits (n / 10) with
    | nil => exact absurd front (digits_ne_nil _)
    | cons d ds =>
      rw [front] at ih
      rcases ih with zero | other
      · have worth := value_digits (n / 10)
        rw [front, zero] at worth
        change 0 = n / 10 at worth
        omega
      · exact other

end Decimal

namespace Json

/-- Digits that do not begin with a needless zero are a numeral. -/
theorem Token.isNumeral_of_all_isDigit {cs : List Char} (nonempty : cs ≠ [])
    (all : cs.all Char.isDigit = true) (first : cs = ['0'] ∨ cs.head? ≠ some '0') :
    isNumeral cs = true := by
  have digits := List.all_eq_true.1 all
  have whole : cs.takeWhile Char.isDigit = cs := List.takeWhile_eq_self_iff.2 digits
  have rest : cs.dropWhile Char.isDigit = [] := List.dropWhile_eq_nil_iff.2 digits
  unfold isNumeral
  split
  · cases digits '-' List.mem_cons_self
  · dsimp only
    rw [whole, rest]
    rcases first with rfl | first
    · rfl
    · simp [isExponent, nonempty, first]

theorem legal_ofNat (n : Nat) : (ofNat n).Legal :=
  .number (Token.isNumeral_of_all_isDigit (Decimal.digits_ne_nil n) (Decimal.all_isDigit_digits n)
    (Decimal.digits_eq_or_head? n))

theorem legal_ofText (s : String) : (ofText s).Legal := .string (body_escape _)

theorem unsigned64?_ofNat (n : UInt64) : (ofNat n.toNat).unsigned64? = some n := by
  show (Decimal.read? (Decimal.digits n.toNat)).bind _ = _
  rw [Decimal.read?_digits]
  show (if n.toNat < Nat.pow 2 64 then some (UInt64.ofNat n.toNat) else none) = some n
  rw [if_pos n.toNat_lt, UInt64.ofNat_toNat]

end Json

/-! ## Parts of a finding -/

namespace Severity

theorem legal_toJson (s : Severity) : s.toJson.Legal := Json.legal_ofText _

theorem ofJson?_toJson (s : Severity) : ofJson? s.toJson = some s := by
  show (Json.ofText s.name).text?.bind ofName? = some s
  rw [Json.text?_ofText]
  exact ofName?_name s

end Severity

namespace LineRange

theorem legal_toJson (r : LineRange) : r.toJson.Legal := by
  refine .object ?_ ?_
  · simp only [List.forall_mem_cons]
    exact ⟨Json.body_of_escape_eq (by decide), Json.body_of_escape_eq (by decide),
      Json.body_of_escape_eq (by decide), nofun⟩
  · simp only [List.forall_mem_cons]
    exact ⟨Json.legal_ofText _, Json.legal_ofNat _, Json.legal_ofNat _, nofun⟩

theorem ofJson?_toJson (r : LineRange) : ofJson? r.toJson = some r := by
  have fields : r.toJson.fields? ["file", "start_line", "end_line"] =
      some [some (.ofText r.file), some (.ofNat r.first.toNat), some (.ofNat r.last.toNat)] := rfl
  unfold ofJson?
  rw [fields]
  simp only [Option.bind_eq_bind, Option.bind_some, Json.text?_ofText, Json.unsigned64?_ofNat]
  rfl

theorem mapM_ofJson? (rs : List LineRange) : (rs.map toJson).mapM ofJson? = some rs := by
  induction rs with
  | nil => rfl
  | cons r rs ih =>
    rw [List.map_cons, List.mapM_cons, ofJson?_toJson, ih]
    rfl

end LineRange

namespace Finding

theorem legal_toJson (f : Finding) : f.toJson.Legal := by
  have ranges : (Json.array (f.affected.map LineRange.toJson)).Legal :=
    .array (List.forall_mem_map.2 fun r _ => r.legal_toJson)
  have key : Json.Body "affected_code".toList := Json.body_of_escape_eq (by decide)
  refine .object ?_ ?_
  · simp only [List.forall_mem_append, List.forall_mem_cons]
    refine ⟨⟨Json.body_of_escape_eq (by decide), Json.body_of_escape_eq (by decide),
      Json.body_of_escape_eq (by decide), nofun⟩, ?_⟩
    split
    · exact nofun
    · exact List.forall_mem_singleton.2 key
  · simp only [List.forall_mem_append, List.forall_mem_cons]
    refine ⟨⟨Json.legal_ofText _, Json.legal_ofText _, Severity.legal_toJson _, nofun⟩, ?_⟩
    split
    · exact nofun
    · exact List.forall_mem_singleton.2 ranges

theorem fields?_toJson (f : Finding) :
    f.toJson.fields? ["origin", "message", "severity", "affected_code"] =
      some [some (.ofText f.origin), some (.ofText f.message), some f.severity.toJson,
        if f.affected = [] then none else some (.array (f.affected.map LineRange.toJson))] := by
  unfold toJson
  split <;> rfl

theorem ofJson?_toJson (f : Finding) : ofJson? f.toJson = some f := by
  obtain ⟨origin, message, severity, affected⟩ := f
  unfold ofJson?
  rw [fields?_toJson]
  simp only [Option.bind_eq_bind, Option.bind_some, Json.text?_ofText, Severity.ofJson?_toJson]
  cases affected with
  | nil => rfl
  | cons r rs =>
    simp only [reduceCtorEq, if_false, Json.items?, Option.bind_some, LineRange.mapM_ofJson?]
    rfl

end Finding

/-- A finding is read as it was written. The text is one object, in which the affected code is left
out if there is none. -/
theorem finding_read_as_written (f : Finding) :
    Finding.read? f.write = some f ∧
      ∃ members, Json.read? f.write = some (.object members) ∧
        members.map Prod.fst = (["origin", "message", "severity"] ++
          if f.affected = [] then [] else ["affected_code"]).map String.toList := by
  have json : Json.read? f.write = some f.toJson := Json.read?_write f.legal_toJson
  refine ⟨?_, _, json, ?_⟩
  · unfold Finding.read?
    rw [json]
    exact f.ofJson?_toJson
  · split <;> rfl

end AnalysisScheduler
