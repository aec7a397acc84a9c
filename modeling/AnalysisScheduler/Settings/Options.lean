import AnalysisScheduler.Settings.OptionValue
import AnalysisScheduler.Settings.Section

/-!
# Options

A bear declares the options of its analysis in a `Signature`. They are resolved against its section
once: a parameter takes its value from the setting of its name, and from its default only where the
section has no such setting. The first parameter in order that gets no value decides the error.

Options are found by their names in any case. Unlike in a section, blanks around a name count.
-/

namespace AnalysisScheduler

/-- Why a setting cannot be used. -/
inductive SettingError where
  /-- A bear needs a setting that its section does not have. -/
  | missing (bear sectionName setting : String)
  /-- A setting is there, but its raw value is not of the expected kind. -/
  | invalid (sectionName setting value expected : String)
deriving DecidableEq, Repr

def SettingError.message : SettingError → String
  | missing bear sectionName setting =>
    "bear `" ++ bear ++ "` requires setting `" ++ setting ++ "`, which section `" ++ sectionName ++
      "` does not provide"
  | invalid sectionName setting value expected =>
    "setting `" ++ setting ++ "` of section `" ++ sectionName ++ "` is not a valid " ++ expected ++
      ": " ++ Text.quoted value

/-- The declaration of one option; without a default it must be set. -/
structure Parameter where
  name : String
  kind : OptionKind
  default? : Option OptionValue
  description : String
deriving Repr

/-- The options that an analysis takes. -/
structure Signature where
  name : String
  description : String
  parameters : List Parameter
deriving Repr

/-- The options of one bear, under their names in small letters. -/
structure Options where
  values : OrderedMap String OptionValue
deriving Repr, Inhabited

namespace Parameter

def isRequired (p : Parameter) : Bool := p.default?.isNone

/-- The value of a parameter in a section; `bear` is the name of whoever needs it. -/
def resolve (bear : String) (sec : Section) (p : Parameter) : Except SettingError OptionValue :=
  match sec.get? p.name, p.default? with
  | some raw, _ =>
    match p.kind.parse? raw with
    | some value => .ok value
    | none => .error (.invalid sec.name p.name raw p.kind.noun)
  | none, some value => .ok value
  | none, none => .error (.missing bear sec.name p.name)

end Parameter

namespace Signature

/-- The signature of an analysis without options. -/
def empty : Signature := ⟨"", "", []⟩

def required (s : Signature) : List Parameter := s.parameters.filter (·.isRequired)

def optional (s : Signature) : List Parameter := s.parameters.filter fun p => !p.isRequired

end Signature

namespace Options

def empty : Options := ⟨.empty⟩

/-- Writes an option. -/
def set (o : Options) (name : String) (value : OptionValue) : Options :=
  ⟨o.values.insert (Text.lowered name) value⟩

/-- The values of all parameters, read one after another. -/
def resolve (bear : String) (sec : Section) (signature : Signature) :
    Except SettingError Options :=
  signature.parameters.foldlM
    (fun o p => (p.resolve bear sec).map (o.set p.name)) empty

def get? (o : Options) (name : String) : Option OptionValue :=
  o.values.get? (Text.lowered name)

def text? (o : Options) (name : String) : Option String := (o.get? name).bind (·.text?)

def integer? (o : Options) (name : String) : Option Int64 := (o.get? name).bind (·.integer?)

def number? (o : Options) (name : String) : Option Float := (o.get? name).bind (·.number?)

def boolean? (o : Options) (name : String) : Option Bool := (o.get? name).bind (·.boolean?)

def list? (o : Options) (name : String) : Option (List String) := (o.get? name).bind (·.list?)

/-- The options in the order in which their names were first declared. -/
def toList (o : Options) : List (String × OptionValue) := o.values.entries

def size (o : Options) : Nat := o.values.size

def isEmpty (o : Options) : Bool := o.values.isEmpty

/-- The description of the options. -/
def inspect (o : Options) : String :=
  Description.record "Options"
    [("values", Description.map (o.toList.map fun e => (Text.quoted e.1, e.2.inspect)))]

end Options

end AnalysisScheduler
