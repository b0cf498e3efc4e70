import TypeMapping.Walk

/-!
# Resolution

A resolution is a walk together with its effect on the session.

* `Session.apply`, `conclude` : the session after one step, and after a walk;
* `Session.resolve?`          : the resolution of a node, `none` when it does not end;
* `Session.resolve`           : the resolution of a grounded node, which does end.

Main statement: `resolve?_eq_some`.
-/

namespace TypeMapping

/-- A resolution that has taken place. -/
structure Resolution (Node Key : Type) where
  /-- The session after it. -/
  session : Session Node Key
  /-- What it did. -/
  trail : List (Step Node)
  /-- The entry and the node that it came to. -/
  answer : Option (EntryId × Node)

namespace Session

variable {Node Decl Key : Type} [DecidableEq Key] (lang : Language Node Decl Key)

/-- The session after one step. -/
def apply (s : Session Node Key) : Step Node → Session Node Key
  | .stored id n => { s with memo := s.memo.insert (lang.key n) id }
  | .bound id n | .barred id n => { s with bound := s.bound.insert id n }
  | _ => s

/-- The resolution that a walk amounts to. -/
def conclude (s : Session Node Key) (w : Walk Node) : Resolution Node Key where
  session := w.trail.foldl (apply lang) s
  trail := w.trail
  answer := w.answer

/-- Resolves a node, if that comes to an end. -/
def resolve? (s : Session Node Key) (n : Node) : Option (Resolution Node Key) :=
  (s.outlook.walk? lang n n).map (s.conclude lang)

theorem isSome_resolve? (s : Session Node Key) {n : Node} (h : lang.Grounded n) :
    (s.resolve? lang n).isSome := by
  obtain ⟨w, hw⟩ := Outlook.exists_walk? (o := s.outlook) h n
  simp [resolve?, hw]

/-- Resolves a grounded node. -/
def resolve (s : Session Node Key) (n : Node) (h : lang.Grounded n) : Resolution Node Key :=
  (s.resolve? lang n).get (s.isSome_resolve? lang h)

/-- Resolves the type of a declaration. -/
def resolveDeclaration (s : Session Node Key) (d : Decl) (h : lang.Grounded (lang.tag d)) :
    Resolution Node Key :=
  s.resolve lang (lang.tag d) h

theorem resolve?_eq_some (s : Session Node Key) {n : Node} (h : lang.Grounded n) :
    s.resolve? lang n = some (s.resolve lang n h) := by
  simp [resolve]

end Session

end TypeMapping
