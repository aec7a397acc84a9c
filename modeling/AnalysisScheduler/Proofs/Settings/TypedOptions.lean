import AnalysisScheduler.Proofs.Settings.Options

/-!
# Options of the declared kind

What is read from a section is of the kind that its parameter declares
(`OptionKind.kind_of_parse?`). A default is taken as it is, so an option is of the declared kind if
its setting is there or its default is of that kind, and the getter of the kind finds it then
(`typed_if_set_or_typed_default`). Nothing keeps a default from being of another kind
(`default_of_other_kind`).
-/

namespace AnalysisScheduler

/-- A value that was read is of the kind that it was read as. -/
theorem OptionKind.kind_of_parse? {kind : OptionKind} {raw : String} {v : OptionValue}
    (read : kind.parse? raw = some v) : v.kind = kind := by
  cases kind with
  | text =>
    cases read
    rfl
  | integer =>
    obtain ⟨i, -, rfl⟩ := Option.map_eq_some_iff.1 read
    rfl
  | number =>
    obtain ⟨x, -, rfl⟩ := Option.map_eq_some_iff.1 read
    rfl
  | boolean =>
    obtain ⟨b, -, rfl⟩ := Option.map_eq_some_iff.1 read
    rfl
  | list =>
    cases read
    rfl

/-! ## Getters -/

namespace OptionValue

/-- A value as one of a kind, if it is one. -/
def as? (v : OptionValue) : OptionKind → Option OptionValue
  | .text => v.text?.map .text
  | .integer => v.integer?.map .integer
  | .number => v.number?.map .number
  | .boolean => v.boolean?.map .boolean
  | .list => v.list?.map .list

theorem as?_kind (v : OptionValue) : v.as? v.kind = some v := by
  cases v <;> rfl

/-- A value is one of its own kind only, but an integer is a number, too. -/
theorem isSome_as?_iff {v : OptionValue} {kind : OptionKind} :
    (v.as? kind).isSome = true ↔ v.kind = kind ∨ v.kind = .integer ∧ kind = .number := by
  cases v <;> cases kind <;>
    simp [as?, OptionValue.kind, text?, integer?, number?, boolean?, list?]

end OptionValue

namespace Options

/-- What the getter of a kind finds under a name. -/
def typed? (o : Options) (kind : OptionKind) (name : String) : Option OptionValue :=
  match kind with
  | .text => (o.text? name).map .text
  | .integer => (o.integer? name).map .integer
  | .number => (o.number? name).map .number
  | .boolean => (o.boolean? name).map .boolean
  | .list => (o.list? name).map .list

theorem typed?_eq (o : Options) (kind : OptionKind) (name : String) :
    o.typed? kind name = (o.get? name).bind (·.as? kind) := by
  cases kind <;> exact Option.map_bind

variable {bear : String} {sec : Section}

/-- Among parameters with different names each is the last one of its name. -/
theorem lastNamed?_of_nodup {ps : List Parameter} (distinct : (ps.map (Text.lowered ·.name)).Nodup)
    {p : Parameter} (mem : p ∈ ps) : lastNamed? ps (Text.lowered p.name) = some p := by
  cases last : lastNamed? ps (Text.lowered p.name) with
  | none => exact absurd rfl (lastNamed?_eq_none_iff.1 last p mem)
  | some q =>
    obtain ⟨here, named⟩ := List.mem_filter.1 (List.mem_of_getLast? last)
    rw [List.inj_on_of_nodup_map distinct here mem (of_decide_eq_true named)]

theorem exists_takes_of_nodup {ps : List Parameter} {o : Options}
    (ok : readAll bear sec ps = .ok o) (distinct : (ps.map (Text.lowered ·.name)).Nodup)
    {p : Parameter} (mem : p ∈ ps) : ∃ v, p.Takes sec v ∧ o.get? p.name = some v := by
  obtain ⟨v, takes⟩ := exists_readAll_iff.1 ⟨o, ok⟩ p mem
  exact ⟨v, takes, (get?_of_readAll ok).2 ⟨p, lastNamed?_of_nodup distinct mem, takes⟩⟩

end Options

namespace Parameter.Takes

variable {sec : Section} {p : Parameter} {v : OptionValue}

theorem parse?_eq (takes : p.Takes sec v) {raw : String} (set : p.IsSetTo sec raw) :
    p.kind.parse? raw = some v := by
  cases takes with
  | setting set' read =>
    cases (isSetTo_iff.1 set).symm.trans (isSetTo_iff.1 set')
    exact read
  | default unset _ => exact absurd set (unset raw)

theorem default?_eq (takes : p.Takes sec v) (unset : ∀ raw, ¬ p.IsSetTo sec raw) :
    p.default? = some v := by
  cases takes with
  | setting set _ => exact absurd set (unset _)
  | default _ given => exact given

theorem kind_eq_iff (takes : p.Takes sec v) : v.kind = p.kind ↔
    (∃ raw, p.IsSetTo sec raw) ∨ ∃ d, p.default? = some d ∧ d.kind = p.kind := by
  cases takes with
  | setting set read => exact iff_of_true (OptionKind.kind_of_parse? read) (.inl ⟨_, set⟩)
  | default unset given =>
    constructor
    · exact fun same => .inr ⟨v, given, same⟩
    · rintro (⟨raw, set⟩ | ⟨d, given', same⟩)
      · exact absurd set (unset raw)
      · cases given.symm.trans given'
        exact same

end Parameter.Takes

/-- Among parameters with different names each finds the value of its setting, which is of the
declared kind, or else its default as it is. The value is of the declared kind exactly if there is
such a setting or such a default. Then the getter of the kind finds it; that for numbers finds an
integer, too. -/
theorem typed_if_set_or_typed_default {bear : String} {sec : Section} {signature : Signature}
    {o : Options} (ok : Options.resolve bear sec signature = .ok o)
    (distinct : (signature.parameters.map (Text.lowered ·.name)).Nodup) {p : Parameter}
    (mem : p ∈ signature.parameters) :
    ∃ v, o.get? p.name = some v ∧
      (∀ raw, p.IsSetTo sec raw → p.kind.parse? raw = some v ∧ v.kind = p.kind) ∧
      ((∀ raw, ¬ p.IsSetTo sec raw) → p.default? = some v) ∧
      (v.kind = p.kind ↔
        (∃ raw, p.IsSetTo sec raw) ∨ ∃ d, p.default? = some d ∧ d.kind = p.kind) ∧
      (v.kind = p.kind → o.typed? p.kind p.name = some v) ∧
      ((o.typed? p.kind p.name).isSome = true ↔
        v.kind = p.kind ∨ v.kind = .integer ∧ p.kind = .number) := by
  obtain ⟨v, takes, found⟩ := Options.exists_takes_of_nodup ok distinct mem
  have typed : o.typed? p.kind p.name = v.as? p.kind := by
    rw [Options.typed?_eq, found, Option.bind_some]
  refine ⟨v, found, fun raw set => ?_, takes.default?_eq, takes.kind_eq_iff, fun same => ?_, ?_⟩
  · have read := takes.parse?_eq set
    exact ⟨read, OptionKind.kind_of_parse? read⟩
  · rw [typed, ← same, OptionValue.as?_kind]
  · rw [typed, OptionValue.isSome_as?_iff]

namespace Options

/-- A width with a default that is an integer, where numbers are asked for. -/
def indentNumber : Parameter := ⟨"Indent", .number, some (.integer 2), "Width of a level."⟩

/-- A width with a default that is a text, where integers are asked for. -/
def tabDefault : Parameter := ⟨"tab", .integer, some (.text "4"), "Width of a tab."⟩

theorem indentNumber_unset (raw : String) : ¬ indentNumber.IsSetTo tabSection raw := by
  intro set
  have unset : tabSection.get? indentNumber.name = none := by decide +kernel
  cases unset.symm.trans (Parameter.isSetTo_iff.1 set)

theorem exists_resolve_indentNumber :
    ∃ o, resolve "TabBear" tabSection ⟨"", "", [tabNumber, indentNumber]⟩ = .ok o := by
  refine exists_readAll_iff.2 ?_
  simp only [List.forall_mem_cons]
  exact ⟨⟨_, tabNumber_takes⟩, ⟨_, .default indentNumber_unset rfl⟩, nofun⟩

theorem exists_resolve_tabDefault :
    ∃ o, resolve "TabBear" (.new "python") ⟨"", "", [tabDefault]⟩ = .ok o :=
  exists_readAll_iff.2
    (List.forall_mem_singleton.2 ⟨_, .default (fun _ => List.not_mem_nil) rfl⟩)

end Options

/-- One parameter that is set, and one that is not. -/
theorem typed_if_set_or_typed_default_of_two :
    ∃ o, Options.resolve "TabBear" Options.tabSection
        ⟨"", "", [Options.tabNumber, Options.indentNumber]⟩ = .ok o ∧
      (∃ v, o.get? "tab" = some v ∧ v.kind = .integer ∧ o.typed? .integer "tab" = some v) ∧
      o.get? "Indent" = some (.integer 2) ∧ (o.typed? .number "Indent").isSome = true := by
  have distinct : ([Options.tabNumber, Options.indentNumber].map (Text.lowered ·.name)).Nodup := by
    decide +kernel
  have set : Options.tabNumber.IsSetTo Options.tabSection " 4 " := by decide +kernel
  obtain ⟨o, ok⟩ := Options.exists_resolve_indentNumber
  obtain ⟨v, found, read, -, -, typed, -⟩ :=
    typed_if_set_or_typed_default ok distinct (p := Options.tabNumber) List.mem_cons_self
  obtain ⟨v', found', -, given, -, -, getter⟩ :=
    typed_if_set_or_typed_default ok distinct (p := Options.indentNumber)
      (List.mem_cons_of_mem _ List.mem_cons_self)
  have kind := (read _ set).2
  cases given Options.indentNumber_unset
  exact ⟨o, ok, ⟨v, found, kind, typed kind⟩, found', getter.2 (.inr ⟨rfl, rfl⟩)⟩

/-- The default of a parameter can be of another kind than the parameter. -/
theorem default_of_other_kind :
    ¬ ∀ (bear : String) (sec : Section) (signature : Signature) (o : Options),
      Options.resolve bear sec signature = .ok o →
      (signature.parameters.map (Text.lowered ·.name)).Nodup →
      ∀ p ∈ signature.parameters, ∃ v, o.get? p.name = some v ∧ v.kind = p.kind ∧
        (o.typed? p.kind p.name).isSome = true := by
  intro all
  obtain ⟨o, ok⟩ := Options.exists_resolve_tabDefault
  have distinct : ([Options.tabDefault].map (Text.lowered ·.name)).Nodup := List.nodup_singleton _
  obtain ⟨v, found, kind, -⟩ := all _ _ _ o ok distinct _ List.mem_cons_self
  obtain ⟨v', takes, found'⟩ := Options.exists_takes_of_nodup ok distinct List.mem_cons_self
  cases found.symm.trans found'
  cases takes.default?_eq fun _ => List.not_mem_nil
  cases kind

end AnalysisScheduler
