import TypeMapping.Target

/-!
# Options of a session

* `DuplicatePolicy` : which of two handlers that claim one name is kept;
* `Options`         : the target, the names that start disabled, and the policy.
-/

namespace TypeMapping

/-- What happens when a handler claims a name that is taken. -/
inductive DuplicatePolicy
  /-- The later registration replaces the earlier one. -/
  | lastWins
  /-- The earlier registration stays and the later one is refused. -/
  | reject
  deriving DecidableEq, Repr

namespace DuplicatePolicy

instance : Inhabited DuplicatePolicy := ⟨lastWins⟩

/-- Every policy, in the order in which they are listed to users. -/
def all : List DuplicatePolicy := [lastWins, reject]

/-- The name of a policy in options. -/
def name : DuplicatePolicy → String
  | lastWins => "last_wins"
  | reject => "reject"

/-- The name of a policy inside a description of a collision. -/
def label : DuplicatePolicy → String
  | lastWins => "LastWins"
  | reject => "Reject"

/-- The policy of that name. -/
def ofName? (s : String) : Option DuplicatePolicy := all.find? (·.name == s)

theorem mem_all (p : DuplicatePolicy) : p ∈ all := by cases p <;> decide

theorem ofName?_name (p : DuplicatePolicy) : ofName? p.name = some p := by cases p <;> rfl

theorem ofName?_eq_some_iff {s : String} {p : DuplicatePolicy} : ofName? s = some p ↔ s = p.name := by
  refine ⟨fun h => ?_, fun h => h ▸ ofName?_name p⟩
  rw [ofName?] at h
  have := List.find?_some h
  exact (beq_iff_eq.1 this).symm

end DuplicatePolicy

/-- The options of one session. -/
structure Options where
  /-- The backend that code is generated for. -/
  target : Target := .csharp
  /-- The names whose handlers start disabled, as the user listed them. -/
  disabled : List String := []
  policy : DuplicatePolicy := .lastWins
  deriving DecidableEq, Repr, Inhabited

/-- Do handlers under `name` start disabled? -/
def Options.disables (o : Options) (name : String) : Bool := o.disabled.contains name

end TypeMapping
