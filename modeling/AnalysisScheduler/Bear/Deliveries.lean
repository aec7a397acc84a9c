import AnalysisScheduler.Bear.Basic
import AnalysisScheduler.Text.Description

/-!
# Deliveries

The results that a bear has received from its dependencies, by the kind of the dependency. Kinds
come in the order of their first delivery, even an empty one. A kind stands for the bear that
delivered first, and all its results follow in the order in which they came.
-/

namespace AnalysisScheduler

/-- What one dependency has delivered. -/
structure Delivery (w : Workspace) (ρ : Type) where
  source : Bear w
  results : List ρ

/-- What all dependencies have delivered. -/
structure Deliveries (w : Workspace) (ρ : Type) where
  byKind : OrderedMap (KindId w) (Delivery w ρ)

namespace Deliveries

variable {w : Workspace} {ρ : Type}

def empty : Deliveries w ρ := ⟨.empty⟩

instance : Inhabited (Deliveries w ρ) := ⟨empty⟩

def get? (d : Deliveries w ρ) (k : KindId w) : Option (Delivery w ρ) := d.byKind.get? k

/-- Adds results of a bear. -/
def receive (d : Deliveries w ρ) (source : Bear w) (results : List ρ) : Deliveries w ρ :=
  let before := (d.get? source.kindId).getD ⟨source, []⟩
  ⟨d.byKind.insert source.kindId { before with results := before.results ++ results }⟩

/-- The results of a kind. -/
def resultsOf (d : Deliveries w ρ) (k : KindId w) : List ρ :=
  ((d.get? k).map (·.results)).getD []

/-- The deliveries in order. -/
def toList (d : Deliveries w ρ) : List (KindId w × Delivery w ρ) := d.byKind.entries

/-- Every delivered result with the bear that stands for its kind. -/
def items (d : Deliveries w ρ) : List (Bear w × ρ) :=
  d.toList.flatMap fun e => e.2.results.map (e.2.source, ·)

/-- The number of results. -/
def total (d : Deliveries w ρ) : Nat := d.items.length

def isEmpty (d : Deliveries w ρ) : Bool := d.byKind.isEmpty

end Deliveries

/-- The description of a delivery, with the number of its results. -/
def Delivery.inspect {w : Workspace} {ρ : Type} (d : Delivery w ρ) : String :=
  Description.record "DependencyOutput"
    [("bear", label d.source), ("results", Decimal.text d.results.length)]

/-- The description of deliveries. -/
def Deliveries.inspect {w : Workspace} {ρ : Type} (d : Deliveries w ρ) : String :=
  Description.map (d.toList.map fun e => ((w.kind e.1).name, e.2.inspect))

end AnalysisScheduler
