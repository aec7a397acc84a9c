import AnalysisScheduler.Proofs.Settings.OptionValue
import AnalysisScheduler.Proofs.Settings.Section
import AnalysisScheduler.Settings.Options

/-!
# Options are resolved exactly

Each parameter takes a value from its section or fails (`Parameter.resolve_eq_ok_iff`,
`Parameter.resolve_eq_error_iff`). All of them together are resolved if each takes a value, and the
first that fails decides the error; of equal names the first gives the place and the last the value
(`options_resolved_exactly`).

A section takes names for the same without the blanks around them, options do not. So names of the
same setting are names of the same option if they have the same blanks around them
(`same_setting_same_option`), and otherwise in general not (`blanks_part_options`).
-/

namespace AnalysisScheduler

/-! ## One parameter -/

namespace Parameter

variable {bear : String} {sec : Section} {p : Parameter}

/-- The section lists a raw value under the normal form of the parameter's name. -/
def IsSetTo (p : Parameter) (sec : Section) (raw : String) : Prop :=
  (Section.normalise p.name, raw) ∈ sec.toList

instance (p : Parameter) (sec : Section) (raw : String) : Decidable (p.IsSetTo sec raw) :=
  inferInstanceAs (Decidable (_ ∈ _))

/-- The value of a parameter. The default counts only where the section has no value. -/
inductive Takes (sec : Section) (p : Parameter) : OptionValue → Prop
  | setting {raw : String} {v : OptionValue} :
      p.IsSetTo sec raw → p.kind.parse? raw = some v → Takes sec p v
  | default {v : OptionValue} :
      (∀ raw, ¬ p.IsSetTo sec raw) → p.default? = some v → Takes sec p v

/-- The error of a parameter that takes no value. -/
inductive Fails (bear : String) (sec : Section) (p : Parameter) : SettingError → Prop
  | missing : (∀ raw, ¬ p.IsSetTo sec raw) → p.default? = none →
      Fails bear sec p (.missing bear sec.name p.name)
  | invalid {raw : String} : p.IsSetTo sec raw → p.kind.parse? raw = none →
      Fails bear sec p (.invalid sec.name p.name raw p.kind.noun)

theorem isSetTo_iff {raw : String} : p.IsSetTo sec raw ↔ sec.get? p.name = some raw :=
  OrderedMap.get?_eq_some_iff.symm

theorem get?_of_unset (unset : ∀ raw, ¬ p.IsSetTo sec raw) : sec.get? p.name = none :=
  Option.eq_none_iff_forall_ne_some.2 fun raw found => unset raw (isSetTo_iff.2 found)

theorem resolve_of_takes {v : OptionValue} (takes : p.Takes sec v) :
    p.resolve bear sec = .ok v := by
  cases takes with
  | setting set read => simp only [resolve, isSetTo_iff.1 set, read]
  | default unset given => simp only [resolve, get?_of_unset unset, given]

theorem resolve_of_fails {e : SettingError} (fails : p.Fails bear sec e) :
    p.resolve bear sec = .error e := by
  cases fails with
  | missing unset ungiven => simp only [resolve, get?_of_unset unset, ungiven]
  | invalid set unread => simp only [resolve, isSetTo_iff.1 set, unread]

theorem takes_or_fails (bear : String) (sec : Section) (p : Parameter) :
    (∃ v, p.Takes sec v) ∨ ∃ e, p.Fails bear sec e := by
  by_cases unset : ∀ raw, ¬ p.IsSetTo sec raw
  · cases given : p.default? with
    | none => exact .inr ⟨_, .missing unset given⟩
    | some v => exact .inl ⟨v, .default unset given⟩
  · obtain ⟨raw, set⟩ := Classical.not_forall_not.1 unset
    cases read : p.kind.parse? raw with
    | none => exact .inr ⟨_, .invalid set read⟩
    | some v => exact .inl ⟨v, .setting set read⟩

theorem resolve_eq_ok_iff {v : OptionValue} : p.resolve bear sec = .ok v ↔ p.Takes sec v := by
  refine ⟨fun ok => ?_, resolve_of_takes⟩
  rcases takes_or_fails bear sec p with ⟨v', takes⟩ | ⟨e, fails⟩
  · cases ok.symm.trans (resolve_of_takes takes)
    exact takes
  · cases ok.symm.trans (resolve_of_fails fails)

theorem resolve_eq_error_iff {e : SettingError} :
    p.resolve bear sec = .error e ↔ p.Fails bear sec e := by
  refine ⟨fun failed => ?_, resolve_of_fails⟩
  rcases takes_or_fails bear sec p with ⟨v, takes⟩ | ⟨e', fails⟩
  · cases failed.symm.trans (resolve_of_takes takes)
  · cases failed.symm.trans (resolve_of_fails fails)
    exact fails

theorem Takes.unique {v v' : OptionValue} (takes : p.Takes sec v) (takes' : p.Takes sec v') :
    v = v' := by
  have ok : p.resolve "" sec = .ok v := resolve_of_takes takes
  rw [resolve_of_takes takes'] at ok
  exact (Except.ok.inj ok).symm

end Parameter

/-! ## All parameters -/

namespace Options

variable {bear : String} {sec : Section}

/-- The options of parameters that are read one after another. -/
def readAll (bear : String) (sec : Section) (ps : List Parameter) : Except SettingError Options :=
  ps.foldlM (fun o p => (p.resolve bear sec).map (o.set p.name)) empty

/-- The last parameter of a name, given in small letters. -/
def lastNamed? (ps : List Parameter) (name : String) : Option Parameter :=
  (ps.filter (Text.lowered ·.name = name)).getLast?

theorem get?_set (o : Options) (name name' : String) (value : OptionValue) :
    (o.set name value).get? name' =
      if Text.lowered name' = Text.lowered name then some value else o.get? name' :=
  o.values.get?_insert _ _ _

theorem readAll_concat (ps : List Parameter) (p : Parameter) :
    readAll bear sec (ps ++ [p]) =
      (readAll bear sec ps).bind fun o => (p.resolve bear sec).map (o.set p.name) := by
  unfold readAll
  rw [List.foldlM_append]
  exact bind_congr fun o => bind_pure _

theorem readAll_concat_eq_ok_iff {ps : List Parameter} {p : Parameter} {o : Options} :
    readAll bear sec (ps ++ [p]) = .ok o ↔
      ∃ o' v, readAll bear sec ps = .ok o' ∧ p.Takes sec v ∧ o = o'.set p.name v := by
  rw [readAll_concat]
  constructor
  · intro ok
    cases front : readAll bear sec ps with
    | error e =>
      rw [front] at ok
      cases ok
    | ok o' =>
      rw [front] at ok
      cases last : p.resolve bear sec with
      | error e =>
        rw [last] at ok
        cases ok
      | ok v =>
        rw [last] at ok
        cases ok
        exact ⟨o', v, rfl, Parameter.resolve_eq_ok_iff.1 last, rfl⟩
  · rintro ⟨o', v, front, takes, rfl⟩
    rw [front, Parameter.resolve_eq_ok_iff.2 takes]
    rfl

theorem readAll_concat_eq_error_iff {ps : List Parameter} {p : Parameter} {e : SettingError} :
    readAll bear sec (ps ++ [p]) = .error e ↔
      readAll bear sec ps = .error e ∨
        (∃ o, readAll bear sec ps = .ok o) ∧ p.Fails bear sec e := by
  rw [readAll_concat, ← Parameter.resolve_eq_error_iff]
  cases readAll bear sec ps with
  | error e' =>
    refine ⟨.inl, ?_⟩
    rintro (same | ⟨⟨o, impossible⟩, -⟩)
    · exact same
    · cases impossible
  | ok o =>
    constructor
    · intro failed
      cases last : p.resolve bear sec with
      | error e' =>
        rw [last] at failed
        cases failed
        exact .inr ⟨⟨o, rfl⟩, rfl⟩
      | ok v =>
        rw [last] at failed
        cases failed
    · rintro (impossible | ⟨-, failed⟩)
      · cases impossible
      · rw [failed]
        rfl

/-- All parameters are read if each takes a value. -/
theorem exists_readAll_iff {ps : List Parameter} :
    (∃ o, readAll bear sec ps = .ok o) ↔ ∀ p ∈ ps, ∃ v, p.Takes sec v := by
  induction ps using List.reverseRecOn with
  | nil => exact ⟨fun _ => nofun, fun _ => ⟨empty, rfl⟩⟩
  | append_singleton ps p ih =>
    rw [List.forall_mem_append, ← ih, List.forall_mem_singleton]
    constructor
    · rintro ⟨o, ok⟩
      obtain ⟨o', v, front, takes, -⟩ := readAll_concat_eq_ok_iff.1 ok
      exact ⟨⟨o', front⟩, v, takes⟩
    · rintro ⟨⟨o', front⟩, v, takes⟩
      exact ⟨_, readAll_concat_eq_ok_iff.2 ⟨o', v, front, takes, rfl⟩⟩

/-- The first parameter that fails decides the error. -/
theorem readAll_eq_error_iff {ps : List Parameter} {e : SettingError} :
    readAll bear sec ps = .error e ↔ ∃ before p after, ps = before ++ p :: after ∧
      (∀ q ∈ before, ∃ v, q.Takes sec v) ∧ p.Fails bear sec e := by
  induction ps using List.reverseRecOn with
  | nil =>
    refine ⟨nofun, ?_⟩
    rintro ⟨before, p, after, split, -⟩
    cases before <;> cases split
  | append_singleton ps q ih =>
    rw [readAll_concat_eq_error_iff, ih, exists_readAll_iff]
    constructor
    · rintro (⟨before, p, after, rfl, taken, fails⟩ | ⟨taken, fails⟩)
      · exact ⟨before, p, after ++ [q], by rw [List.append_assoc, List.cons_append], taken, fails⟩
      · exact ⟨ps, q, [], rfl, taken, fails⟩
    · rintro ⟨before, p, after, split, taken, fails⟩
      rcases List.eq_nil_or_concat after with rfl | ⟨after, last, rfl⟩
      · obtain ⟨rfl, same⟩ := List.append_inj' split rfl
        cases same
        exact .inr ⟨taken, fails⟩
      · rw [List.concat_eq_append, ← List.cons_append, ← List.append_assoc] at split
        obtain ⟨rfl, -⟩ := List.append_inj' split rfl
        exact .inl ⟨before, p, after, rfl, taken, fails⟩

theorem lastNamed?_concat (ps : List Parameter) (p : Parameter) (name : String) :
    lastNamed? (ps ++ [p]) name =
      if Text.lowered p.name = name then some p else lastNamed? ps name := by
  unfold lastNamed?
  rw [List.filter_append]
  by_cases named : Text.lowered p.name = name
  · simp [named]
  · simp [named]

theorem lastNamed?_eq_none_iff {ps : List Parameter} {name : String} :
    lastNamed? ps name = none ↔ ∀ p ∈ ps, Text.lowered p.name ≠ name := by
  rw [lastNamed?, List.getLast?_eq_none_iff, List.filter_eq_nil_iff]
  simp only [decide_eq_true_eq]

/-- The last parameter of a name gives the value. -/
theorem get?_of_readAll {ps : List Parameter} {o : Options} (ok : readAll bear sec ps = .ok o)
    {name : String} {v : OptionValue} :
    o.get? name = some v ↔ ∃ p, lastNamed? ps (Text.lowered name) = some p ∧ p.Takes sec v := by
  induction ps using List.reverseRecOn generalizing o with
  | nil =>
    cases ok
    refine ⟨nofun, ?_⟩
    rintro ⟨p, impossible, -⟩
    cases impossible
  | append_singleton ps p ih =>
    obtain ⟨o', v', front, takes, rfl⟩ := readAll_concat_eq_ok_iff.1 ok
    rw [get?_set, lastNamed?_concat]
    by_cases named : Text.lowered p.name = Text.lowered name
    · rw [if_pos named, if_pos named.symm]
      constructor
      · intro same
        cases same
        exact ⟨p, rfl, takes⟩
      · rintro ⟨q, same, takes'⟩
        cases same
        rw [takes.unique takes']
    · rw [if_neg named, if_neg (Ne.symm named)]
      exact ih front

theorem lastNamed?_some {ps : List Parameter} {p : Parameter} {name : String}
    (last : lastNamed? ps name = some p) : p ∈ ps :=
  (List.mem_filter.1 (List.mem_of_getLast? last)).1

theorem get?_eq_none_iff {ps : List Parameter} {o : Options} (ok : readAll bear sec ps = .ok o)
    {name : String} :
    o.get? name = none ↔ ∀ p ∈ ps, Text.lowered p.name ≠ Text.lowered name := by
  rw [← lastNamed?_eq_none_iff]
  constructor
  · intro none
    refine Option.eq_none_iff_forall_ne_some.2 fun p last => ?_
    obtain ⟨v, takes⟩ := exists_readAll_iff.1 ⟨o, ok⟩ p (lastNamed?_some last)
    cases none.symm.trans ((get?_of_readAll ok).2 ⟨p, last, takes⟩)
  · intro none
    refine Option.eq_none_iff_forall_ne_some.2 fun v found => ?_
    obtain ⟨p, last, -⟩ := (get?_of_readAll ok).1 found
    cases none.symm.trans last

/-- The first parameter of a name gives the place. -/
theorem map_fst_toList_of_readAll {ps : List Parameter} {o : Options}
    (ok : readAll bear sec ps = .ok o) :
    o.toList.map Prod.fst = (ps.map (Text.lowered ·.name)).eraseDups := by
  rw [← foldl_appendNew_nil]
  induction ps using List.reverseRecOn generalizing o with
  | nil =>
    cases ok
    rfl
  | append_singleton ps p ih =>
    obtain ⟨o', v, front, -, rfl⟩ := readAll_concat_eq_ok_iff.1 ok
    rw [List.map_append, List.map_singleton, List.foldl_concat, ← ih front]
    exact OrderedMap.keys_insert o'.values _ v

/-- What is listed is found under the name that it is listed with. -/
theorem get?_of_mem_toList {ps : List Parameter} {o : Options} (ok : readAll bear sec ps = .ok o)
    {e : String × OptionValue} (mem : e ∈ o.toList) : o.get? e.1 = some e.2 := by
  have listed : e.1 ∈ o.toList.map Prod.fst := List.mem_map_of_mem mem
  rw [map_fst_toList_of_readAll ok, List.mem_eraseDups] at listed
  obtain ⟨p, -, small⟩ := List.mem_map.1 listed
  have normal : Text.lowered e.1 = e.1 := by rw [← small, Text.lowered_lowered]
  rw [get?, normal]
  exact OrderedMap.get?_eq_some_iff.2 mem

/-! ## Names -/

/-- Names are the same in small letters if they are names of one setting and have the same blanks
around them. -/
theorem lowered_eq_iff {name name' : String} : Text.lowered name = Text.lowered name' ↔
    Section.normalise name = Section.normalise name' ∧ Text.SameMargins name name' := by
  unfold Text.lowered Section.normalise Text.SameMargins
  rw [String.ofList_inj, String.ofList_inj]
  constructor
  · intro small
    obtain ⟨before, behind⟩ := Text.margins_lower name.toList
    obtain ⟨before', behind'⟩ := Text.margins_lower name'.toList
    rw [← Text.trim_lower, ← Text.trim_lower, ← before, ← behind, small]
    exact ⟨rfl, before', behind'⟩
  · rintro ⟨inner, before, behind⟩
    rw [Text.lower_eq_append name.toList, Text.lower_eq_append name'.toList, before, inner, behind]

/-- Whether two names are names of no parameter, or of such that take the same value. -/
inductive Agree (sec : Section) (ps : List Parameter) (name name' : String) : Prop
  | undeclared : (∀ p ∈ ps, Text.lowered p.name ≠ Text.lowered name) →
      (∀ p ∈ ps, Text.lowered p.name ≠ Text.lowered name') → Agree sec ps name name'
  | declared {p p' : Parameter} {v : OptionValue} :
      lastNamed? ps (Text.lowered name) = some p → p.Takes sec v →
      lastNamed? ps (Text.lowered name') = some p' → p'.Takes sec v → Agree sec ps name name'

theorem get?_eq_get?_iff {ps : List Parameter} {o : Options} (ok : readAll bear sec ps = .ok o)
    {name name' : String} : o.get? name = o.get? name' ↔ Agree sec ps name name' := by
  constructor
  · intro same
    cases found : o.get? name with
    | none =>
      exact .undeclared ((get?_eq_none_iff ok).1 found)
        ((get?_eq_none_iff ok).1 (same.symm.trans found))
    | some v =>
      obtain ⟨p, last, takes⟩ := (get?_of_readAll ok).1 found
      obtain ⟨p', last', takes'⟩ := (get?_of_readAll ok).1 (same.symm.trans found)
      exact .declared last takes last' takes'
  · rintro (⟨none, none'⟩ | ⟨last, takes, last', takes'⟩)
    · rw [(get?_eq_none_iff ok).2 none, (get?_eq_none_iff ok).2 none']
    · rw [(get?_of_readAll ok).2 ⟨_, last, takes⟩, (get?_of_readAll ok).2 ⟨_, last', takes'⟩]

/-- A name is that of an option if a parameter of its setting has the same blanks around its own. -/
theorem exists_get?_iff {ps : List Parameter} {o : Options} (ok : readAll bear sec ps = .ok o)
    {name : String} : (∃ v, o.get? name = some v) ↔
      ∃ p ∈ ps, Section.normalise p.name = Section.normalise name ∧
        Text.SameMargins p.name name := by
  simp only [← Option.ne_none_iff_exists', Ne, get?_eq_none_iff ok, ← lowered_eq_iff, not_forall,
    not_not, exists_prop]

/-- One parameter that takes its default. -/
theorem exists_resolve_default (name : String) :
    ∃ o, resolve "" (.new "") ⟨"", "", [⟨name, .text, some (.text ""), ""⟩]⟩ = .ok o := by
  have takes : Parameter.Takes (.new "") ⟨name, .text, some (.text ""), ""⟩ (.text "") :=
    .default (fun _ => List.not_mem_nil) rfl
  exact exists_readAll_iff.2 (List.forall_mem_singleton.2 ⟨_, takes⟩)

theorem get?_congr (o : Options) {name name' : String}
    (same : Text.lowered name = Text.lowered name') : o.get? name = o.get? name' := by
  rw [get?, get?, same]

end Options

/-- Options are resolved if every parameter takes a value, which is that of its setting, or its
default if there is no such setting. The first parameter that takes none decides the error. Of
parameters with the same name the last one gives the value and the first one the place. -/
theorem options_resolved_exactly (bear : String) (sec : Section) (signature : Signature) :
    ((∃ o, Options.resolve bear sec signature = .ok o) ↔
      ∀ p ∈ signature.parameters, ∃ v, p.Takes sec v) ∧
    (∀ e, Options.resolve bear sec signature = .error e ↔
      ∃ before p after, signature.parameters = before ++ p :: after ∧
        (∀ q ∈ before, ∃ v, q.Takes sec v) ∧ p.Fails bear sec e) ∧
    ∀ o, Options.resolve bear sec signature = .ok o →
      (∀ name,
        (∀ v, o.get? name = some v ↔
          ∃ p, Options.lastNamed? signature.parameters (Text.lowered name) = some p ∧
            p.Takes sec v) ∧
        (o.get? name = none ↔
          ∀ p ∈ signature.parameters, Text.lowered p.name ≠ Text.lowered name)) ∧
      o.toList.map Prod.fst = (signature.parameters.map (Text.lowered ·.name)).eraseDups ∧
      ∀ e ∈ o.toList, o.get? e.1 = some e.2 :=
  ⟨Options.exists_readAll_iff, fun _ => Options.readAll_eq_error_iff, fun _ ok =>
    ⟨fun _ => ⟨fun _ => Options.get?_of_readAll ok, Options.get?_eq_none_iff ok⟩,
      Options.map_fst_toList_of_readAll ok, fun _ => Options.get?_of_mem_toList ok⟩⟩

namespace Options

/-- A section in which the width of a tab is set. -/
def tabSection : Section := .written "python" [("Tab", " 4 ")]

/-- The width of a tab as a number. -/
def tabNumber : Parameter := ⟨"tab", .integer, none, "Width of a tab."⟩

/-- The width of a tab once more, as it is written. -/
def tabText : Parameter := ⟨"TAB", .text, some (.text "8"), "As it is written."⟩

theorem tabNumber_takes : tabNumber.Takes tabSection (.integer 4) := by
  have read : Signed64.read? (Text.trim " 4 ".toList) = some 4 := by decide +kernel
  have listed : tabNumber.IsSetTo tabSection " 4 " := by decide +kernel
  refine .setting listed ?_
  show OptionKind.integer.parse? " 4 " = _
  rw [OptionKind.parse?_integer, read, Option.map_some]

theorem tabText_takes : tabText.Takes tabSection (.text " 4 ") :=
  .setting (by decide +kernel) rfl

theorem exists_resolve_tabNumber (bear : String) :
    ∃ o, resolve bear tabSection ⟨"", "", [tabNumber]⟩ = .ok o :=
  exists_readAll_iff.2 (List.forall_mem_singleton.2 ⟨_, tabNumber_takes⟩)

end Options

/-- Two parameters of one name. -/
theorem options_resolved_exactly_of_two :
    ∃ o, Options.resolve "TabBear" Options.tabSection
        ⟨"", "", [Options.tabNumber, Options.tabText]⟩ = .ok o ∧
      o.get? "Tab" = some (.text " 4 ") ∧
      o.toList.map Prod.fst = ["tab"] := by
  obtain ⟨resolved, -, exact⟩ := options_resolved_exactly "TabBear" Options.tabSection
    ⟨"", "", [Options.tabNumber, Options.tabText]⟩
  have takes : ∀ p ∈ [Options.tabNumber, Options.tabText],
      ∃ v, p.Takes Options.tabSection v := by
    simp only [List.forall_mem_cons]
    exact ⟨⟨_, Options.tabNumber_takes⟩, ⟨_, Options.tabText_takes⟩, nofun⟩
  obtain ⟨o, ok⟩ := resolved.2 takes
  obtain ⟨found, names, -⟩ := exact o ok
  refine ⟨o, ok, ((found _).1 _).2 ⟨Options.tabText, ?_, Options.tabText_takes⟩, ?_⟩
  · exact (Options.lastNamed?_concat [Options.tabNumber] Options.tabText _).trans
      (if_pos (by decide +kernel))
  · rw [names]
    decide +kernel

/-- Names of one setting are names of one option, whatever the section and the parameters, exactly
if they have the same blanks around them. With a given section and given parameters they are so,
too, if both have no parameter or ones that take the same value. A parameter is found under exactly
those names of its setting that have the blanks of its name or of that of another parameter. -/
theorem same_setting_same_option {name name' : String}
    (same : Section.normalise name = Section.normalise name') :
    ((∀ bear sec signature o, Options.resolve bear sec signature = .ok o →
      o.get? name = o.get? name') ↔ Text.SameMargins name name') ∧
    ∀ bear sec signature o, Options.resolve bear sec signature = .ok o →
      (o.get? name = o.get? name' ↔ Options.Agree sec signature.parameters name name') ∧
      ((∃ v, o.get? name = some v) ↔
        ∃ p ∈ signature.parameters, Section.normalise p.name = Section.normalise name ∧
          Text.SameMargins p.name name) := by
  refine ⟨⟨fun all => ?_, fun margins _ _ _ o _ => ?_⟩, fun bear sec signature o ok => ?_⟩
  · -- A parameter of the one name alone, which takes its default, is found under both names.
    obtain ⟨o, ok⟩ := Options.exists_resolve_default name
    have found : o.get? name' ≠ none := by
      rw [← all "" (.new "") _ o ok]
      exact fun none => (Options.get?_eq_none_iff ok).1 none _ List.mem_cons_self rfl
    refine (Options.lowered_eq_iff.1 (Classical.not_not.1 fun other => found ?_)).2
    exact (Options.get?_eq_none_iff ok).2 (List.forall_mem_singleton.2 other)
  · exact o.get?_congr (Options.lowered_eq_iff.2 ⟨same, margins⟩)
  · exact ⟨Options.get?_eq_get?_iff ok, Options.exists_get?_iff ok⟩

/-- Any letters of a name may be capitals. -/
theorem same_setting_same_option_of_capitals :
    Section.normalise "TaB" = Section.normalise "tab" ∧
      ∃ o, Options.resolve "TabBear" Options.tabSection ⟨"", "", [Options.tabNumber]⟩ = .ok o ∧
        o.get? "TaB" = o.get? "tab" ∧ ∃ v, o.get? "TaB" = some v := by
  have setting : Section.normalise "TaB" = Section.normalise "tab" := by decide +kernel
  have margins : Text.SameMargins "TaB" "tab" := by decide +kernel
  obtain ⟨o, ok⟩ := Options.exists_resolve_tabNumber "TabBear"
  obtain ⟨everywhere, here⟩ := same_setting_same_option setting
  refine ⟨setting, o, ok, everywhere.2 margins _ _ _ o ok, (here _ _ _ o ok).2.2 ?_⟩
  exact ⟨Options.tabNumber, List.mem_cons_self, setting.symm, margins.1.symm, margins.2.symm⟩

/-- Blanks around a name, which do not matter in a section, part it from the option. -/
theorem blanks_part_options :
    ¬ ∀ (bear : String) (sec : Section) (signature : Signature) (o : Options),
      Options.resolve bear sec signature = .ok o →
      ∀ name name', Section.normalise name = Section.normalise name' →
        o.get? name = o.get? name' := by
  intro all
  obtain ⟨o, ok⟩ := Options.exists_resolve_tabNumber ""
  have same := all "" Options.tabSection ⟨"", "", [Options.tabNumber]⟩ o ok
    "tab" " TAB " (by decide +kernel)
  have found : o.get? "tab" ≠ none := fun none =>
    (Options.get?_eq_none_iff ok).1 none Options.tabNumber List.mem_cons_self rfl
  have lost : o.get? " TAB " = none :=
    (Options.get?_eq_none_iff ok).2 (List.forall_mem_singleton.2 (by decide +kernel))
  exact found (same.trans lost)

end AnalysisScheduler
