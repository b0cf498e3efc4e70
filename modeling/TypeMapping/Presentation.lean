/-!
# Presentations

A type has many spellings: with or without qualifiers and modifiers, with typedefs kept or resolved,
with bare or fully scoped names. A `Presentation` fixes these four choices.

* `Presentation`             : the four choices;
* `Presentation.searchOrder` : all sixteen, in the order in which spellings are tried;
* `Presentation.code`        : a presentation in four characters, `ofCode?` reads it;
* `Renderer`                 : the name of a node in every presentation.

Main statements: `mem_searchOrder`, `nodup_searchOrder`, `ofCode?_code`.
-/

namespace TypeMapping

/-- How far a declared name is scoped. -/
inductive Scope
  /-- The bare name. -/
  | unscoped
  /-- The name through all its enclosing namespaces and classes. -/
  | qualified
  deriving DecidableEq, Repr

/-- One way to spell a type. -/
structure Presentation where
  /-- Are qualifiers such as `const` printed? -/
  qualifiers : Bool := true
  /-- Are modifiers such as `*` printed? -/
  modifiers : Bool := true
  /-- Is a typedef replaced by the type that it names? -/
  resolveTypedefs : Bool := false
  scope : Scope := .unscoped
  deriving DecidableEq, Repr, Inhabited

namespace Presentation

/-- All presentations: modifiers vary slowest, then qualifiers, then typedefs, and the scope fastest. -/
def searchOrder : List Presentation :=
  [true, false].flatMap fun modifiers =>
  [true, false].flatMap fun qualifiers =>
  [false, true].flatMap fun resolveTypedefs =>
  [Scope.unscoped, Scope.qualified].map fun scope =>
    { qualifiers, modifiers, resolveTypedefs, scope }

theorem length_searchOrder : searchOrder.length = 16 := rfl

theorem nodup_searchOrder : searchOrder.Nodup := by decide

theorem mem_searchOrder (p : Presentation) : p ∈ searchOrder := by
  obtain ⟨q, m, t, s⟩ := p
  cases q <;> cases m <;> cases t <;> cases s <;> decide

/-! ## Written forms -/

/-- Qualifiers, modifiers, typedefs, each `0` or `1`, and `L` or `Q` for the scope. -/
def code (p : Presentation) : String :=
  let bit (b : Bool) : Char := if b then '1' else '0'
  String.ofList [bit p.qualifiers, bit p.modifiers, bit p.resolveTypedefs,
    match p.scope with
    | .unscoped => 'L'
    | .qualified => 'Q']

/-- The presentation with that code. -/
def ofCode? (s : String) : Option Presentation := searchOrder.find? (·.code == s)

theorem ofCode?_code (p : Presentation) : ofCode? p.code = some p := by
  obtain ⟨q, m, t, s⟩ := p
  cases q <;> cases m <;> cases t <;> cases s <;> decide

/-- A presentation as reports spell it out. -/
def describe (p : Presentation) : String :=
  "PrintConfig \x7b print_type_qualifiers: " ++ toString p.qualifiers ++
  ", print_type_modifiers: " ++ toString p.modifiers ++
  ", resolve_typedefs: " ++ toString p.resolveTypedefs ++
  ", scope_kind: " ++ (match p.scope with
    | .unscoped => "Local"
    | .qualified => "Qualified") ++ " \x7d"

end Presentation

/-- The name of a node in every presentation. -/
abbrev Renderer (Node : Type) := Node → Presentation → String

end TypeMapping
