/-!
# Front ends

Resolution never looks inside a type. A `FrontEnd` answers all that it asks about a type node.

* `FrontEnd`                  : the questions about nodes and declarations;
* `classTag?`, `templateTag?` : the two declarations behind a template specialization, as types;
* `unwrap?`                   : the node with one layer of sugar or indirection off;
* `Below`, `Grounded`         : the nodes that a node leads to, and the nodes from which no endless
  way leads down.

Main statement: `Grounded.below`, what lies below a grounded node is grounded.
-/

namespace TypeMapping

/-- What resolution asks of the nodes of a type graph. -/
structure FrontEnd (Node Decl Key : Type) where
  /-- Two nodes are presentations of one type exactly when their keys are equal. -/
  key : Node → Key
  /-- The node with one layer of sugar off, such as a typedef; a node of the same key when there is none. -/
  stripSugar : Node → Node
  /-- Is the node a pointer or a reference? -/
  isIndirect : Node → Bool
  /-- The node one level of indirection below. -/
  pointee? : Node → Option Node
  /-- Does the node instantiate a template? -/
  isSpecialization : Node → Bool
  /-- The class declared for this very instantiation. -/
  classDeclaration? : Node → Option Decl
  /-- The declaration that the template is defined over. -/
  templateDeclaration? : Node → Option Decl
  /-- The nominal type of a declaration. -/
  tag : Decl → Node

/-- The two layers that can be taken off a node. -/
inductive Layer
  /-- Sugar, such as a typedef. -/
  | sugar
  /-- A level of indirection. -/
  | indirection
  deriving DecidableEq, Repr

namespace FrontEnd

variable {Node Decl Key : Type} [DecidableEq Key] (fe : FrontEnd Node Decl Key)

/-- The type of the class declared for a specialization. -/
def classTag? (n : Node) : Option Node :=
  if fe.isSpecialization n then (fe.classDeclaration? n).map fe.tag else none

/-- The type of the declaration that the template of a specialization is defined over. -/
def templateTag? (n : Node) : Option Node :=
  if fe.isSpecialization n then (fe.templateDeclaration? n).map fe.tag else none

/-- The node with its outermost layer off: sugar if there is any, otherwise indirection. -/
def unwrap? (n : Node) : Option (Layer × Node) :=
  if fe.key (fe.stripSugar n) ≠ fe.key n then some (.sugar, fe.stripSugar n)
  else if fe.isIndirect n then (fe.pointee? n).map (.indirection, ·)
  else none

/-- The nodes that `n` leads to in one step. -/
def Below (m n : Node) : Prop :=
  fe.classTag? n = some m ∨ fe.templateTag? n = some m ∨ ∃ l, fe.unwrap? n = some (l, m)

/-- No endless way leads down from the node. -/
def Grounded (n : Node) : Prop := Acc fe.Below n

variable {fe}

theorem Grounded.below {m n : Node} (h : fe.Grounded n) (hm : fe.Below m n) : fe.Grounded m := h.inv hm

theorem Grounded.classTag {m n : Node} (h : fe.Grounded n) (hm : fe.classTag? n = some m) :
    fe.Grounded m := h.below (.inl hm)

theorem Grounded.templateTag {m n : Node} (h : fe.Grounded n) (hm : fe.templateTag? n = some m) :
    fe.Grounded m := h.below (.inr (.inl hm))

theorem Grounded.unwrap {m n : Node} {l : Layer} (h : fe.Grounded n) (hm : fe.unwrap? n = some (l, m)) :
    fe.Grounded m := h.below (.inr (.inr ⟨l, hm⟩))

end FrontEnd

end TypeMapping
