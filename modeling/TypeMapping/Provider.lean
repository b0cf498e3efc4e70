import TypeMapping.Handler
import TypeMapping.Text.Quoted

/-!
# Providers

A provider is a component that contributes declarations, if it manages to list them.

* `LoadFailure`          : why a component could not list its declarations;
* `Provider`             : a component and its declarations;
* `Provider.ofInventory` : a list of declarations, sorted into one provider per component.
-/

namespace TypeMapping

/-- A component could not list its declarations. -/
structure LoadFailure where
  component : String
  reason : String
  deriving DecidableEq, Repr

/-- The failure as users read it. -/
def LoadFailure.message (f : LoadFailure) : String :=
  "failed to load type maps from component '" ++ f.component ++ "': " ++ f.reason

/-- The failure with its fields spelled out. -/
def LoadFailure.describe (f : LoadFailure) : String :=
  "ComponentLoad \x7b component: " ++ Text.quote f.component ++ ", reason: " ++ Text.quote f.reason ++
  " \x7d"

/-- A component that contributes declarations. -/
structure Provider where
  /-- The name of the component, and the origin of its handlers. -/
  component : String
  declarations : Except LoadFailure (List Declaration)

namespace Provider

/-- The provider of a list that is at hand. -/
def ofList (component : String) (declarations : List Declaration) : Provider :=
  ⟨component, .ok declarations⟩

/-- The components that a list of declarations comes from, each once, in increasing order. -/
def components (ds : List Declaration) : List String :=
  (ds.map Declaration.origin).eraseDups.mergeSort (· ≤ ·)

/-- The declarations of one component, in increasing order of their names; declarations of one name
keep their order. -/
def declarationsOf (component : String) (ds : List Declaration) : List Declaration :=
  (ds.filter (·.origin = component)).mergeSort (·.name ≤ ·.name)

/-- One provider per component, so that registration does not depend on the order of the list unless
one component declares a name twice. -/
def ofInventory (ds : List Declaration) : List Provider :=
  (components ds).map fun c => ofList c (declarationsOf c ds)

end Provider

end TypeMapping
