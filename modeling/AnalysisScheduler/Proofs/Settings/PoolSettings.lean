import AnalysisScheduler.Proofs.Number.Numeral
import AnalysisScheduler.Proofs.Settings.OptionValue
import AnalysisScheduler.Proofs.Settings.Section
import AnalysisScheduler.Settings.PoolSettings

/-!
# The number of workers

Which settings give a number of workers (`PoolSettings.parseJobs?_eq_some_iff`), and what a section
makes of its setting, whatever was written to it before (`jobs_read_exactly`). A pool always has a
worker, also where a stored record asks for none.
-/

namespace AnalysisScheduler

namespace PoolSettings

/-- A raw setting that stands for a number of workers: its digits, which may have blanks around them
and a plus in front, are those of a positive number that fits in 63 bits. -/
structure IsCount (raw : String) (n : Nat) : Prop where
  pos : 1 ≤ n
  small : n ≤ 2 ^ 63 - 1
  numeral : ∃ ds, (Text.trim raw.toList = ds ∨ Text.trim raw.toList = '+' :: ds) ∧
    Decimal.IsNumeral ds n

theorem integer?_parse?_integer (raw : String) :
    (OptionKind.integer.parse? raw).bind (·.integer?) = Signed64.read? (Text.trim raw.toList) := by
  rw [OptionKind.parse?_integer]
  cases Signed64.read? (Text.trim raw.toList) with
  | none => rfl
  | some i => rfl

theorem parseJobs?_eq_some_iff_exists {raw : String} {n : UInt64} : parseJobs? raw = some n ↔
    ∃ i : Int64, Signed64.read? (Text.trim raw.toList) = some i ∧ i.toInt = n.toNat ∧
      0 < n.toNat := by
  unfold parseJobs?
  rw [integer?_parse?_integer]
  refine Option.bind_eq_some_iff.trans (exists_congr fun i => and_congr_right fun _ => ?_)
  rw [Option.ite_none_right_eq_some]
  constructor
  · rintro ⟨pos, same⟩
    have bound : i.toInt < 2 ^ 63 := i.toInt_lt
    have fits : i.toInt.toNat < UInt64.size := by
      unfold UInt64.size
      omega
    rw [← Option.some.inj same, UInt64.toNat_ofNat_of_lt' fits]
    omega
  · rintro ⟨worth, pos⟩
    refine ⟨by omega, ?_⟩
    rw [worth, Int.toNat_natCast, UInt64.ofNat_toNat]

/-- A positive number is written without a minus. -/
theorem isNumeral_iff_of_pos {cs : List Char} {n : Nat} (pos : 0 < n) :
    Signed64.IsNumeral cs n ↔ ∃ ds, (cs = ds ∨ cs = '+' :: ds) ∧ Decimal.IsNumeral ds n := by
  constructor
  · intro numeral
    generalize worth : (n : Int) = j at numeral
    cases numeral with
    | plain numeral => exact ⟨_, .inl rfl, Int.ofNat.inj worth ▸ numeral⟩
    | plus numeral => exact ⟨_, .inr rfl, Int.ofNat.inj worth ▸ numeral⟩
    | minus numeral => omega
  · rintro ⟨ds, rfl | rfl, numeral⟩
    · exact .plain numeral
    · exact .plus numeral

theorem parseJobs?_eq_some_iff {raw : String} {n : UInt64} :
    parseJobs? raw = some n ↔ IsCount raw n.toNat := by
  rw [parseJobs?_eq_some_iff_exists]
  constructor
  · rintro ⟨i, read, worth, pos⟩
    have numeral := Signed64.read?_eq_some_iff.1 read
    have bound := i.toInt_lt
    rw [worth] at numeral
    exact ⟨pos, by omega, (isNumeral_iff_of_pos pos).1 numeral⟩
  · rintro ⟨pos, small, numeral⟩
    have worth : (Int64.ofInt n.toNat).toInt = n.toNat :=
      Int64.toInt_ofInt_of_le (by omega) (by omega)
    refine ⟨_, Signed64.read?_eq_some_iff.2 ?_, worth, pos⟩
    rw [worth]
    exact (isNumeral_iff_of_pos pos).2 numeral

theorem parseJobs?_eq_none_iff {raw : String} :
    parseJobs? raw = none ↔ ∀ n, ¬ IsCount raw n := by
  rw [Option.eq_none_iff_forall_ne_some]
  constructor
  · intro none n count
    have fits : n < UInt64.size := by
      have := count.small
      unfold UInt64.size
      omega
    refine none (.ofNat n) (parseJobs?_eq_some_iff.2 ?_)
    rwa [UInt64.toNat_ofNat_of_lt' fits]
  · exact fun none n read => none _ (parseJobs?_eq_some_iff.1 read)

variable {sec : Section} {raw : String}

theorem ofSection_of_unset (unset : sec.get? "jobs" = none) : ofSection sec = .ok { } := by
  unfold ofSection jobs
  rw [unset]

theorem ofSection_of_set (set : sec.get? "jobs" = some raw) : ofSection sec =
    (parseJobs? raw).elim (.error (.invalid sec.name "jobs" raw "positive integer"))
      fun n => .ok { workers := some n } := by
  unfold ofSection jobs
  rw [set]
  dsimp only
  cases parseJobs? raw with
  | none => rfl
  | some n => rfl

theorem ofSection_eq_ok_iff (set : sec.get? "jobs" = some raw) {s : PoolSettings} :
    ofSection sec = .ok s ↔ ∃ n : UInt64, s = { workers := some n } ∧ IsCount raw n.toNat := by
  simp only [ofSection_of_set set, ← parseJobs?_eq_some_iff]
  cases parseJobs? raw with
  | none => exact ⟨nofun, fun ⟨_, _, impossible⟩ => nomatch impossible⟩
  | some n =>
    constructor
    · intro ok
      cases ok
      exact ⟨n, rfl, rfl⟩
    · rintro ⟨n, rfl, same⟩
      cases same
      rfl

theorem ofSection_eq_error_iff (set : sec.get? "jobs" = some raw) {e : SettingError} :
    ofSection sec = .error e ↔
      (∀ n, ¬ IsCount raw n) ∧ e = .invalid sec.name "jobs" raw "positive integer" := by
  rw [ofSection_of_set set, ← parseJobs?_eq_none_iff]
  cases parseJobs? raw with
  | none =>
    constructor
    · intro failed
      cases failed
      exact ⟨rfl, rfl⟩
    · rintro ⟨-, rfl⟩
      rfl
  | some n => exact ⟨nofun, fun ⟨impossible, _⟩ => nomatch impossible⟩

theorem one_le_effective (s : PoolSettings) {available : UInt64} (offered : 1 ≤ available) :
    1 ≤ s.effective available := by
  unfold effective
  split
  · split
    · next some =>
      rw [UInt64.lt_iff_toNat_lt] at some
      exact UInt64.le_iff_toNat_le.2 some
    · exact offered
  · exact offered

end PoolSettings

/-- A section without the setting leaves the number of workers open, whatever else was written. With
it the number is the one that was written last, in whatever spelling of the name, if that is the
count of a positive number; everything else is an error that tells the raw setting. A pool has a
worker in any case. -/
theorem jobs_read_exactly (name : String) (writes : List (String × String)) :
    (Section.lastWritten? writes "jobs".toList = none →
      PoolSettings.ofSection (.written name writes) = .ok { }) ∧
    (∀ raw, Section.lastWritten? writes "jobs".toList = some raw →
      (∀ s, PoolSettings.ofSection (.written name writes) = .ok s ↔
        ∃ n : UInt64, s = { workers := some n } ∧ PoolSettings.IsCount raw n.toNat) ∧
      ∀ e, PoolSettings.ofSection (.written name writes) = .error e ↔
        (∀ n, ¬ PoolSettings.IsCount raw n) ∧ e = .invalid name "jobs" raw "positive integer") ∧
    ∀ (s : PoolSettings) (available : UInt64), 1 ≤ available → 1 ≤ s.effective available := by
  have normal : Text.lower (Text.trim "jobs".toList) = "jobs".toList := by decide +kernel
  have last := Section.get?_written name writes "jobs"
  rw [normal] at last
  have called : (Section.written name writes).name = name := by rw [Section.settings_written]
  refine ⟨fun unset => ?_, fun raw set => ⟨fun s => ?_, fun e => ?_⟩, fun s available => ?_⟩
  · exact PoolSettings.ofSection_of_unset (last.trans unset)
  · exact PoolSettings.ofSection_eq_ok_iff (last.trans set)
  · rw [PoolSettings.ofSection_eq_error_iff (last.trans set), called]
  · exact s.one_le_effective

/-- Zeros in front of a number, blanks around it and around the name of the setting. -/
theorem jobs_read_exactly_of_plus :
    Section.lastWritten? [("Jobs", "0"), (" JOBS ", " +007\u3000")] "jobs".toList =
        some " +007\u3000" ∧
      PoolSettings.ofSection (.written "cli" [("Jobs", "0"), (" JOBS ", " +007\u3000")]) =
        .ok { workers := some 7 } ∧
      1 ≤ (4 : UInt64) ∧ 1 ≤ PoolSettings.effective { workers := some 0 } 4 := by
  have set : Section.lastWritten? [("Jobs", "0"), (" JOBS ", " +007\u3000")] "jobs".toList =
      some " +007\u3000" := by decide +kernel
  have numeral : Decimal.IsNumeral "007".toList 7 :=
    ⟨by decide, List.all_eq_true.1 (by decide), by decide⟩
  have count : PoolSettings.IsCount " +007\u3000" 7 :=
    ⟨by decide, by decide, _, .inr (by decide +kernel), numeral⟩
  obtain ⟨-, present, worker⟩ :=
    jobs_read_exactly "cli" [("Jobs", "0"), (" JOBS ", " +007\u3000")]
  exact ⟨set, ((present _ set).1 _).2 ⟨7, rfl, count⟩, by decide, worker _ _ (by decide)⟩

end AnalysisScheduler
