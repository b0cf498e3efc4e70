import TypeMapping.FrontEnd
import TypeMapping.Text.Quoted

/-!
# Type terms

Types as terms, with every shape that resolution tells apart.

* `TypeTerm`          : names, typedefs, pointers and template specializations;
* `TypeTerm.frontEnd` : the answers to the questions of resolution, where two types are the same
  only when they are equal, and a declaration is known by its name;
* `TypeTerm.wrap`     : a type under a stack of typedefs and pointers;
* `TypeTerm.describe` : a type spelled out, constructor by constructor.

Main statement: `TypeTerm.grounded`, every type term is grounded.
-/

namespace TypeMapping

/-- A type. -/
inductive TypeTerm
  /-- A type that is known by its name only. -/
  | named (name : String)
  /-- Another name of a type. -/
  | typedef (name : String) (target : TypeTerm)
  | pointer (pointee : TypeTerm)
  /-- A template with arguments; the names of the class declared for these arguments and of the
  declaration that the template is defined over, where there are such. -/
  | specialization (template : String) (arguments : List TypeTerm)
      (classDeclaration? templateDeclaration? : Option String)
  deriving Repr

namespace TypeTerm

instance : Inhabited TypeTerm := ⟨named ""⟩

/-! ## Equality -/

mutual

/-- Are two types equal? Names are compared first and what lies below them last, so that a stack of
typedefs and pointers of any height is compared in a loop. -/
def beq : TypeTerm → TypeTerm → Bool
  | named x, named y => x == y
  | typedef x s, typedef y t => x == y && beq s t
  | pointer s, pointer t => beq s t
  | specialization x ss c d, specialization y ts c' d' =>
    x == y && c == c' && d == d' && beqEach ss ts
  | _, _ => false

/-- Are two lists of types equal? -/
def beqEach : List TypeTerm → List TypeTerm → Bool
  | [], [] => true
  | s :: ss, t :: ts => beq s t && beqEach ss ts
  | _, _ => false

end

mutual

theorem beq_iff : (s t : TypeTerm) → (beq s t = true ↔ s = t)
  | named .., named .. => by simp [beq]
  | typedef _ s, typedef _ t => by simp [beq, beq_iff s t]
  | pointer s, pointer t => by simp [beq, beq_iff s t]
  | specialization _ ss _ _, specialization _ ts _ _ => by
      simp only [beq, Bool.and_eq_true, beq_iff_eq, beqEach_iff ss ts, specialization.injEq]
      grind
  | named .., typedef .. | named .., pointer .. | named .., specialization ..
  | typedef .., named .. | typedef .., pointer .. | typedef .., specialization ..
  | pointer .., named .. | pointer .., typedef .. | pointer .., specialization ..
  | specialization .., named .. | specialization .., typedef ..
  | specialization .., pointer .. => by simp [beq]

theorem beqEach_iff : (ss ts : List TypeTerm) → (beqEach ss ts = true ↔ ss = ts)
  | [], [] | [], _ :: _ | _ :: _, [] => by simp [beqEach]
  | s :: ss, t :: ts => by simp [beqEach, beq_iff s t, beqEach_iff ss ts]

end

instance : DecidableEq TypeTerm := fun s t => decidable_of_iff _ (beq_iff s t)

/-! ## As nodes -/

/-- The type that a typedef names; any other type itself. -/
def stripSugar : TypeTerm → TypeTerm
  | typedef _ target => target
  | t => t

/-- The type below a pointer. -/
def pointee? : TypeTerm → Option TypeTerm
  | pointer t => some t
  | _ => none

/-- The class declared for a specialization. -/
def class? : TypeTerm → Option String
  | specialization _ _ c _ => c
  | _ => none

/-- The declaration that the template of a specialization is defined over. -/
def template? : TypeTerm → Option String
  | specialization _ _ _ d => d
  | _ => none

/-- Types as nodes. -/
def frontEnd : FrontEnd TypeTerm String TypeTerm where
  key := id
  stripSugar := stripSugar
  isIndirect t := (pointee? t).isSome
  pointee? := pointee?
  isSpecialization
    | specialization .. => true
    | _ => false
  classDeclaration? := class?
  templateDeclaration? := template?
  tag := named

theorem not_below_named {m : TypeTerm} {name : String} : ¬ frontEnd.Below m (named name) := by
  simp [FrontEnd.Below, FrontEnd.classTag?, FrontEnd.templateTag?, FrontEnd.unwrap?, frontEnd, stripSugar,
    pointee?]

theorem grounded_named (name : String) : frontEnd.Grounded (named name) :=
  ⟨_, fun _ h => (not_below_named h).elim⟩

theorem eq_of_below_typedef {m t : TypeTerm} {name : String} (h : frontEnd.Below m (typedef name t)) :
    m = t := by
  revert h
  simp only [FrontEnd.Below, FrontEnd.classTag?, FrontEnd.templateTag?, FrontEnd.unwrap?, frontEnd,
    stripSugar, pointee?, id_eq]
  grind

theorem eq_of_below_pointer {m t : TypeTerm} (h : frontEnd.Below m (pointer t)) : m = t := by
  revert h
  simp only [FrontEnd.Below, FrontEnd.classTag?, FrontEnd.templateTag?, FrontEnd.unwrap?, frontEnd,
    stripSugar, pointee?, id_eq]
  grind

theorem exists_named_of_below_specialization {m : TypeTerm} {template : String}
    {arguments : List TypeTerm} {c d : Option String}
    (h : frontEnd.Below m (specialization template arguments c d)) : ∃ name, m = named name := by
  rcases h with h | h | ⟨l, h⟩
  · obtain ⟨name, -, rfl⟩ := Option.map_eq_some_iff.1 h
    exact ⟨name, rfl⟩
  · obtain ⟨name, -, rfl⟩ := Option.map_eq_some_iff.1 h
    exact ⟨name, rfl⟩
  · simp [FrontEnd.unwrap?, frontEnd, stripSugar, pointee?] at h

/-- No endless way leads down from a type. -/
theorem grounded : ∀ t : TypeTerm, frontEnd.Grounded t
  | named name => grounded_named name
  | typedef _ t => ⟨_, fun _ h => eq_of_below_typedef h ▸ grounded t⟩
  | pointer t => ⟨_, fun _ h => eq_of_below_pointer h ▸ grounded t⟩
  | specialization .. => ⟨_, fun _ h => by
      obtain ⟨name, rfl⟩ := exists_named_of_below_specialization h
      exact grounded_named name⟩

/-! ## Stacks of wrappers -/

/-- What can be put around a type. -/
inductive Wrapper
  | typedef (name : String)
  | pointer
  deriving DecidableEq, Repr

/-- A type with one wrapper around it. -/
def Wrapper.around : Wrapper → TypeTerm → TypeTerm
  | .typedef name, t => .typedef name t
  | .pointer, t => .pointer t

/-- A type with wrappers around it, the first of them innermost. -/
def wrap (ws : List Wrapper) (t : TypeTerm) : TypeTerm := ws.foldl (fun t w => w.around t) t

/-! ## Description -/

/-- A declaration, if there is one, as reports spell it out. -/
def describeDecl? : Option String → String
  | none => "None"
  | some name => "Some(SyntheticDecl \x7b name: " ++ Text.quote name ++ " \x7d)"

mutual

/-- A type as reports spell it out. -/
def describe : TypeTerm → String
  | named name => "Named(" ++ Text.quote name ++ ")"
  | typedef name target =>
    "Alias \x7b name: " ++ Text.quote name ++ ", target: " ++ describe target ++ " \x7d"
  | pointer t => "Pointer(" ++ describe t ++ ")"
  | specialization template arguments c d =>
    "Specialization \x7b template: " ++ Text.quote template ++
    ", arguments: [" ++ ", ".intercalate (describeEach arguments) ++
    "], class_declaration: " ++ describeDecl? c ++
    ", templated_declaration: " ++ describeDecl? d ++ " \x7d"

/-- Types as reports spell them out. -/
def describeEach : List TypeTerm → List String
  | [] => []
  | t :: ts => describe t :: describeEach ts

end

end TypeTerm

end TypeMapping
