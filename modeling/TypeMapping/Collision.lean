import TypeMapping.Options
import TypeMapping.Text.Quoted

/-!
# Claims to a taken name

* `Ambiguity` : the refusal of a registration whose name is taken;
* `Collision` : the record that is kept of each claim to a taken name, whichever handler won.
-/

namespace TypeMapping

/-- The refusal of a registration whose name is taken. -/
structure Ambiguity where
  name : String
  /-- The origin of the handler that holds the name. -/
  existing : String
  /-- The origin of the handler that was refused. -/
  incoming : String
  deriving DecidableEq, Repr

/-- The refusal as users read it. -/
def Ambiguity.message (a : Ambiguity) : String :=
  "ambiguous type map registration for '" ++ a.name ++ "': registered by " ++ a.existing ++
  ", rejected from " ++ a.incoming

/-- The refusal with its fields spelled out. -/
def Ambiguity.describe (a : Ambiguity) : String :=
  "Ambiguous \x7b name: " ++ Text.quote a.name ++ ", existing: " ++ Text.quote a.existing ++
  ", incoming: " ++ Text.quote a.incoming ++ " \x7d"

/-- The record of two registrations that claimed one name. -/
structure Collision where
  name : String
  /-- The origin of the handler that held the name. -/
  existing : String
  /-- The origin of the handler that came later. -/
  incoming : String
  /-- The policy that settled it. -/
  policy : DuplicatePolicy
  deriving DecidableEq, Repr

namespace Collision

/-- The origin of the handler that has the name from then on. -/
def kept (c : Collision) : String :=
  match c.policy with
  | .lastWins => c.incoming
  | .reject => c.existing

/-- The record as users read it. -/
def message (c : Collision) : String :=
  "'" ++ c.name ++ "' claimed by " ++ c.existing ++ " and " ++ c.incoming ++ " (" ++ c.kept ++ " kept)"

/-- The record with its fields spelled out. -/
def describe (c : Collision) : String :=
  "Collision \x7b name: " ++ Text.quote c.name ++ ", existing: " ++ Text.quote c.existing ++
  ", incoming: " ++ Text.quote c.incoming ++ ", policy: " ++ c.policy.label ++ " \x7d"

end Collision

end TypeMapping
