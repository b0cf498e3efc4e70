import Mathlib.Logic.Relation
import TypeMapping.NodeTable
import TypeMapping.Session
import TypeMapping.TypeTerm.Spelling

/-!
# Derivations

Which names may a node be resolved to? The rules are stated without a registry, a memo or an order.

* `Language.Interchangeable` : nodes with equal keys cannot be told apart;
* `TypeTerm.language`        : type terms with the names that a renderer gives them, and
  `NodeTable.language`, the rows of a table with their spellings;
* `Language.Spells`          : a name of a node, in some presentation of the search order;
* `FrontEnd.Leads`           : one step down from a node, by sugar, indirection or the class of a
  specialization;
* `Language.Derives`         : a name derivable from a node, with the node that it is resolved to;
* `Language.MayBind`         : the nodes that an entry of a given name may be bound to.

Main statements: `Derives.of_leads`, `Derives.mayBind`.
-/

namespace TypeMapping

open Relation

variable {Node Decl Key : Type}

/-! ## Nodes with equal keys -/

theorem exists_of_map_eq_map {α β : Type} {f : α → β} {a b : Option α} (h : a.map f = b.map f) {x : α}
    (ha : a = some x) : ∃ y, b = some y ∧ f x = f y := by
  obtain ⟨y, hb, hy⟩ := Option.map_eq_some_iff.1 (h.symm.trans (congrArg _ ha))
  exact ⟨y, hb, hy.symm⟩

theorem eq_none_of_map_eq_map {α β : Type} {f : α → β} {a b : Option α} (h : a.map f = b.map f)
    (ha : a = none) : b = none := by
  rw [ha] at h
  exact Option.map_eq_none_iff.1 h.symm

/-- Nodes with equal keys answer every question alike, where nodes in answers count by their keys. -/
structure Language.Interchangeable (lang : Language Node Decl Key) : Prop where
  render : ∀ {n m}, lang.key n = lang.key m → lang.render n = lang.render m
  stripSugar : ∀ {n m}, lang.key n = lang.key m →
    lang.key (lang.stripSugar n) = lang.key (lang.stripSugar m)
  isIndirect : ∀ {n m}, lang.key n = lang.key m → lang.isIndirect n = lang.isIndirect m
  pointee : ∀ {n m}, lang.key n = lang.key m →
    (lang.pointee? n).map lang.key = (lang.pointee? m).map lang.key
  isSpecialization : ∀ {n m}, lang.key n = lang.key m →
    lang.isSpecialization n = lang.isSpecialization m
  classDeclaration : ∀ {n m}, lang.key n = lang.key m →
    (lang.classDeclaration? n).map (lang.key ∘ lang.tag) =
      (lang.classDeclaration? m).map (lang.key ∘ lang.tag)
  templateDeclaration : ∀ {n m}, lang.key n = lang.key m →
    (lang.templateDeclaration? n).map (lang.key ∘ lang.tag) =
      (lang.templateDeclaration? m).map (lang.key ∘ lang.tag)

namespace Language

/-- Languages in which a node is its own key have no two nodes with equal keys. -/
theorem interchangeable_of_injective {lang : Language Node Decl Key}
    (h : Function.Injective lang.key) : lang.Interchangeable where
  render e := by rw [h e]
  stripSugar e := by rw [h e]
  isIndirect e := by rw [h e]
  pointee e := by rw [h e]
  isSpecialization e := by rw [h e]
  classDeclaration e := by rw [h e]
  templateDeclaration e := by rw [h e]

end Language

/-- Type terms with the names that a renderer gives them. -/
def TypeTerm.language (render : Renderer TypeTerm) : Language TypeTerm String TypeTerm :=
  { TypeTerm.frontEnd with render }

/-- The rows of a table with the spellings that they give. -/
def NodeTable.language (t : NodeTable) : Language t.Node t.Node Int :=
  { t.frontEnd with render := t.render }

/-- Type terms with the same name in every presentation. -/
def TypeTerm.plain : Language TypeTerm String TypeTerm := language fun t _ => t.spell

theorem TypeTerm.interchangeable (render : Renderer TypeTerm) : (language render).Interchangeable :=
  Language.interchangeable_of_injective fun _ _ h => h

namespace Language

variable {lang : Language Node Decl Key} {n m : Node}

theorem Interchangeable.classTag (hx : lang.Interchangeable) (h : lang.key n = lang.key m) :
    (lang.classTag? n).map lang.key = (lang.classTag? m).map lang.key := by
  unfold FrontEnd.classTag?
  rw [hx.isSpecialization h]
  split
  · simpa using hx.classDeclaration h
  · rfl

theorem Interchangeable.templateTag (hx : lang.Interchangeable) (h : lang.key n = lang.key m) :
    (lang.templateTag? n).map lang.key = (lang.templateTag? m).map lang.key := by
  unfold FrontEnd.templateTag?
  rw [hx.isSpecialization h]
  split
  · simpa using hx.templateDeclaration h
  · rfl

theorem Interchangeable.unwrap [DecidableEq Key] (hx : lang.Interchangeable)
    (h : lang.key n = lang.key m) :
    (lang.unwrap? n).map (fun p => lang.key p.2) = (lang.unwrap? m).map fun p => lang.key p.2 := by
  unfold FrontEnd.unwrap?
  rw [hx.stripSugar h, h, hx.isIndirect h]
  split
  · exact congrArg some (hx.stripSugar h)
  · split
    · simpa [Function.comp_def] using hx.pointee h
    · rfl

end Language

/-! ## Steps down -/

/-- One step down from a node. -/
inductive FrontEnd.Leads (fe : FrontEnd Node Decl Key) (n : Node) : Node → Prop
  /-- The sugar comes off, if that changes the node. -/
  | sugar (h : fe.key (fe.stripSugar n) ≠ fe.key n) : FrontEnd.Leads fe n (fe.stripSugar n)
  /-- A level of indirection comes off a node without sugar. -/
  | indirection {m : Node} (h : fe.key (fe.stripSugar n) = fe.key n) (hi : fe.isIndirect n = true)
      (hm : fe.pointee? n = some m) : FrontEnd.Leads fe n m
  /-- The class declared for a specialization stands in for it. -/
  | ofClass {d : Decl} (hn : fe.isSpecialization n = true) (hd : fe.classDeclaration? n = some d) :
      FrontEnd.Leads fe n (fe.tag d)

namespace FrontEnd

variable {fe : FrontEnd Node Decl Key} {n m : Node}

theorem leads_of_classTag? (h : fe.classTag? n = some m) : fe.Leads n m := by
  unfold classTag? at h
  split at h
  · next hn =>
    obtain ⟨d, hd, rfl⟩ := Option.map_eq_some_iff.1 h
    exact .ofClass hn hd
  · cases h

theorem leads_of_unwrap? [DecidableEq Key] {layer : Layer} (h : fe.unwrap? n = some (layer, m)) :
    fe.Leads n m := by
  unfold unwrap? at h
  split at h
  · next hk =>
    obtain ⟨-, rfl⟩ := Prod.mk.inj (Option.some.inj h)
    exact .sugar hk
  · next hk =>
    split at h
    · next hi =>
      obtain ⟨m', hm, he⟩ := Option.map_eq_some_iff.1 h
      obtain ⟨-, rfl⟩ := Prod.mk.inj he
      exact .indirection (Decidable.not_not.1 hk) hi hm
    · cases h

theorem templateTag?_eq_some_iff : fe.templateTag? n = some m ↔
    fe.isSpecialization n = true ∧ ∃ d, fe.templateDeclaration? n = some d ∧ fe.tag d = m := by
  unfold templateTag?
  split <;> simp_all

theorem templateTag?_eq_none_iff : fe.templateTag? n = none ↔
    ¬ (fe.isSpecialization n = true ∧ (fe.templateDeclaration? n).isSome) := by
  unfold templateTag?
  split <;> simp_all

end FrontEnd

/-! ## Derivable names -/

namespace Language

/-- Some presentation of the search order gives the node that name. -/
def Spells (lang : Language Node Decl Key) (n : Node) (name : String) : Prop :=
  ∃ p ∈ Presentation.searchOrder, lang.render n p = name

/-- The name is derivable from the first node, and the second is what it is resolved to. -/
inductive Derives (lang : Language Node Decl Key) : Node → String → Node → Prop
  /-- A node below has the name. -/
  | spelled {ty n : Node} {name : String} (hn : ReflTransGen lang.Leads ty n)
      (hs : lang.Spells n name) : Derives lang ty name n
  /-- A specialization below goes by the declaration that its template is defined over. -/
  | ofTemplate {ty n u : Node} {d : Decl} {name : String} (hn : ReflTransGen lang.Leads ty n)
      (hi : lang.isSpecialization n = true) (hd : lang.templateDeclaration? n = some d)
      (h : Derives lang (lang.tag d) name u) : Derives lang ty name n

/-- An entry of that name may be bound to the node: it is a name of the node, or derivable from the
declaration that the template of the node is defined over. -/
def MayBind (lang : Language Node Decl Key) (n : Node) (name : String) : Prop :=
  lang.Spells n name ∨ lang.isSpecialization n = true ∧
    ∃ d u, lang.templateDeclaration? n = some d ∧ lang.Derives (lang.tag d) name u

variable {lang : Language Node Decl Key} {n m u : Node} {name : String}

theorem Interchangeable.spells (hx : lang.Interchangeable) (h : lang.key n = lang.key m)
    (hs : lang.Spells n name) : lang.Spells m name := by
  obtain ⟨p, hp, rfl⟩ := hs
  exact ⟨p, hp, by rw [hx.render h]⟩

theorem Derives.of_leads (h : lang.Leads n m) (hd : lang.Derives m name u) :
    lang.Derives n name u := by
  cases hd with
  | spelled hn hs => exact .spelled (.head h hn) hs
  | ofTemplate hn hi hd hu => exact .ofTemplate (.head h hn) hi hd hu

theorem Derives.of_templateTag? {v : Node} (ht : lang.templateTag? n = some m)
    (hd : lang.Derives m name v) : lang.Derives n name n := by
  obtain ⟨hi, d, he, rfl⟩ := FrontEnd.templateTag?_eq_some_iff.1 ht
  exact .ofTemplate .refl hi he hd

theorem Derives.mayBind (h : lang.Derives n name u) : lang.MayBind u name := by
  cases h with
  | spelled _ hs => exact .inl hs
  | ofTemplate _ hi hd hu => exact .inr ⟨hi, _, _, hd, hu⟩

end Language

end TypeMapping
