/-!
# Output targets

* `Target`        : a code generation backend, `csharp` when nothing else is said;
* `Target.name`   : its name in options and reports; `Target.ofName?` reads it;
* `Target.Filter` : the targets that a handler serves, one of them or all.

Main statement: `ofName?_eq_some_iff`, the names and the targets correspond one to one.
-/

namespace TypeMapping

/-- A code generation backend. -/
inductive Target
  | c
  | cpp
  | csharp
  | cli
  | emscripten
  | quickjs
  | napi
  | typescript
  deriving DecidableEq, Repr

namespace Target

instance : Inhabited Target := ⟨csharp⟩

/-- Every target, in the order in which they are listed to users. -/
def all : List Target := [c, cpp, csharp, cli, emscripten, quickjs, napi, typescript]

/-- The name by which options and reports call a target. -/
def name : Target → String
  | c => "c"
  | cpp => "cpp"
  | csharp => "csharp"
  | cli => "cli"
  | emscripten => "emscripten"
  | quickjs => "quickjs"
  | napi => "napi"
  | typescript => "typescript"

/-- The name of a target inside a description of an entry. -/
def label : Target → String
  | c => "C"
  | cpp => "Cpp"
  | csharp => "CSharp"
  | cli => "Cli"
  | emscripten => "Emscripten"
  | quickjs => "QuickJs"
  | napi => "Napi"
  | typescript => "TypeScript"

/-- The target of that name. -/
def ofName? (s : String) : Option Target := all.find? (·.name == s)

theorem mem_all (t : Target) : t ∈ all := by cases t <;> decide

theorem ofName?_name (t : Target) : ofName? t.name = some t := by cases t <;> rfl

theorem ofName?_eq_some_iff {s : String} {t : Target} : ofName? s = some t ↔ s = t.name := by
  refine ⟨fun h => ?_, fun h => h ▸ ofName?_name t⟩
  rw [ofName?] at h
  have := List.find?_some h
  exact (beq_iff_eq.1 this).symm

/-- The targets that a handler serves. -/
inductive Filter
  | any
  | only (target : Target)
  deriving DecidableEq, Repr

namespace Filter

instance : Inhabited Filter := ⟨any⟩

/-- Does the filter let the target through? -/
def admits : Filter → Target → Bool
  | any, _ => true
  | only t, target => t == target

/-- The filter as reports show it. -/
def name : Filter → String
  | any => "any"
  | only t => t.name

/-- The filter inside a description of an entry. -/
def label : Filter → String
  | any => "Any"
  | only t => "Only(" ++ t.label ++ ")"

end Filter

end Target

end TypeMapping
