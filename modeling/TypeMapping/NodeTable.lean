import TypeMapping.Dict
import TypeMapping.FrontEnd
import TypeMapping.Presentation

/-!
# Node tables

A type graph written down as a table. A node is the number of a row, and each row leads to earlier
rows only. Several rows may share a key: they are presentations of one type.

* `NodeTable`          : the rows;
* `NodeTable.ofRows?`  : the table of a list of rows, if none of them leads to itself or a later row;
* `NodeTable.frontEnd` : the answers to the questions of resolution;
* `NodeTable.render`   : the spellings that the rows give.

Main statement: `NodeTable.grounded`, every node of a table is grounded.
-/

namespace TypeMapping

namespace NodeTable

/-- A node as written down. Rows that it leads to are given by their numbers. -/
structure Row where
  /-- The spelling in all presentations without one of their own. -/
  name : String := ""
  /-- Presentations with a spelling of their own. -/
  names : Dict Presentation String := .empty
  key : Int
  /-- The node with one layer of sugar off, if there is any. -/
  stripped? : Option Nat := none
  pointee? : Option Nat := none
  isIndirect : Bool := false
  class? : Option Nat := none
  template? : Option Nat := none
  isSpecialization : Bool := false

/-- The rows that a row leads to. -/
def Row.links (r : Row) : List Nat :=
  [r.stripped?, r.pointee?, r.class?, r.template?].filterMap id

end NodeTable

/-- Rows of which each leads to earlier rows only. -/
structure NodeTable where
  rows : Array NodeTable.Row
  earlier : ∀ i : Fin rows.size, ∀ j ∈ (rows[i]).links, j < i.val

namespace NodeTable

/-- The table with these rows, if each of them leads to earlier rows only. -/
def ofRows? (rows : Array Row) : Option NodeTable :=
  if h : ∀ i : Fin rows.size, (rows[i].links.all (· < i.val)) = true then
    some ⟨rows, fun i j hj => by simpa using List.all_eq_true.1 (h i) j hj⟩
  else none

variable (t : NodeTable)

/-- A node is the number of a row. -/
abbrev Node : Type := Fin t.rows.size

/-- The row of a node. -/
def row (n : t.Node) : Row := t.rows[n]

/-- The node that a row leads to by one of its links. -/
def follow (n : t.Node) (link : Option Nat) (h : ∀ j ∈ link, j ∈ (t.row n).links) : Option t.Node :=
  match link with
  | none => none
  | some j => some ⟨j, Nat.lt_trans (t.earlier n j (h j rfl)) n.isLt⟩

theorem lt_of_follow {n m : t.Node} {link : Option Nat} {h : ∀ j ∈ link, j ∈ (t.row n).links}
    (hm : t.follow n link h = some m) : m < n := by
  cases link with
  | none => cases hm
  | some j =>
    obtain rfl := Option.some.inj hm
    exact t.earlier n j (h j rfl)

/-- The rows as nodes. A declaration is the node of its type. -/
def frontEnd : FrontEnd t.Node t.Node Int where
  key n := (t.row n).key
  stripSugar n := (t.follow n (t.row n).stripped? (by simp +contextual [Row.links])).getD n
  isIndirect n := (t.row n).isIndirect
  pointee? n := t.follow n (t.row n).pointee? (by simp +contextual [Row.links])
  isSpecialization n := (t.row n).isSpecialization
  classDeclaration? n := t.follow n (t.row n).class? (by simp +contextual [Row.links])
  templateDeclaration? n := t.follow n (t.row n).template? (by simp +contextual [Row.links])
  tag := id

/-- The spellings that the rows give. -/
def render : Renderer t.Node := fun n p => ((t.row n).names.get? p).getD (t.row n).name

theorem lt_of_below {m n : t.Node} (h : t.frontEnd.Below m n) : m < n := by
  rcases h with h | h | ⟨l, h⟩
  · simp only [FrontEnd.classTag?, frontEnd, Option.map_id_fun, id_eq] at h
    split at h
    · exact t.lt_of_follow h
    · cases h
  · simp only [FrontEnd.templateTag?, frontEnd, Option.map_id_fun, id_eq] at h
    split at h
    · exact t.lt_of_follow h
    · cases h
  · simp only [FrontEnd.unwrap?] at h
    split at h
    · next hk =>
      simp only [Option.some.injEq, Prod.mk.injEq] at h
      obtain ⟨-, rfl⟩ := h
      simp only [frontEnd] at hk ⊢
      cases hf : t.follow n (t.row n).stripped? (by simp +contextual [Row.links]) with
      | none => simp [hf] at hk
      | some m => simpa [hf] using t.lt_of_follow hf
    · split at h
      · obtain ⟨m', hm, he⟩ := Option.map_eq_some_iff.1 h
        obtain rfl := (Prod.mk.inj he).2
        exact t.lt_of_follow hm
      · cases h

/-- No endless way leads down from a node of a table. -/
theorem grounded (n : t.Node) : t.frontEnd.Grounded n :=
  Subrelation.accessible (fun h => t.lt_of_below h) ((measure Fin.val).wf.apply n)

/-- A node as reports spell it out. -/
def describe (n : t.Node) : String := "#" ++ toString n.val

end NodeTable

end TypeMapping
