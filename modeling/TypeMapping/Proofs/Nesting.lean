import Mathlib.Order.WellFounded
import TypeMapping.Proofs.Wrappers

/-!
# Termination and nesting

A walk goes down from node to node, and begins walks of their own for the declarations of a specialization.

* `FrontEnd.Child`    : the nodes that a walk goes on to;
* `FrontEnd.Descends` : an endless way down from a node;
* `Outlook.Nests`     : the walks from a node at a stage, with the number of walks that are under way at one time;
* `TypeTerm.levels`   : a bound on that number for a type.

Main statements: `grounded_iff`, a node is grounded if no endless way leads down from it; `nests_unique`, the number of
walks under way is a matter of the walk; `exists_nests`, resolutions without an endless way down end, those of types with
no more than two walks under way.
-/

namespace TypeMapping

variable {Node Decl Key : Type}

/-! ## Endless ways down -/

namespace FrontEnd

/-- The nodes that a walk may go on to. -/
inductive Child (fe : FrontEnd Node Decl Key) (n : Node) : Node → Prop
  /-- The node below a layer, or the class declared for a specialization. -/
  | leads {m : Node} (h : fe.Leads n m) : Child fe n m
  /-- The declaration that the template of a specialization is defined over. -/
  | ofTemplate {d : Decl} (hn : fe.isSpecialization n = true) (hd : fe.templateDeclaration? n = some d) :
      Child fe n (fe.tag d)

/-- There is an endless way down from the node. -/
def Descends (fe : FrontEnd Node Decl Key) (n : Node) : Prop :=
  ∃ way : Nat → Node, way 0 = n ∧ ∀ i, fe.Child (way i) (way (i + 1))

variable [DecidableEq Key] {fe : FrontEnd Node Decl Key} {n m : Node}

theorem below_of_leads (h : fe.Leads n m) : fe.Below m n := by
  cases h with
  | sugar h => exact .inr (.inr ⟨.sugar, if_pos h⟩)
  | indirection h hi hm =>
    refine .inr (.inr ⟨.indirection, ?_⟩)
    rw [unwrap?, if_neg (not_not.2 h), if_pos hi, hm]
    rfl
  | ofClass hn hd =>
    refine .inl ?_
    rw [classTag?, if_pos hn, hd]
    rfl

theorem below_iff_child : fe.Below m n ↔ fe.Child n m := by
  constructor
  · rintro (h | h | ⟨l, h⟩)
    · exact .leads (leads_of_classTag? h)
    · obtain ⟨hn, d, hd, rfl⟩ := templateTag?_eq_some_iff.1 h
      exact .ofTemplate hn hd
    · exact .leads (leads_of_unwrap? h)
  · rintro (h | ⟨hn, hd⟩)
    · exact below_of_leads h
    · exact .inr (.inl (templateTag?_eq_some_iff.2 ⟨hn, _, hd, rfl⟩))

/-- A node is grounded if no endless way leads down from it. -/
theorem grounded_iff : fe.Grounded n ↔ ¬ fe.Descends n := by
  rw [Grounded, ← not_iff_not, not_not, not_acc_iff_exists_descending_chain, Descends]
  simp only [below_iff_child]

end FrontEnd

/-! ## Walks within walks -/

namespace Outlook

variable [DecidableEq Key] (lang : Language Node Decl Key) (o : Outlook Key)

/-- The walks from a node at a stage, each with the number of walks that are under way at one time. A walk begins another
one for a declaration, and waits for it. -/
inductive Nests : Stage → Node → Node → Walk Node → Nat → Prop
  | ready {start n : Node} {id : EntryId} (hr : o.consult (lang.key n) = .ready id) :
      Nests .untried start n (.found id n) 1
  | barred {start n : Node} {id : EntryId} (hr : o.consult (lang.key n) = .barred id) :
      Nests .untried start n ⟨[.barred id n], none⟩ 1
  | unsettled {start n : Node} {w : Walk Node} {k : Nat} (hr : (o.consult (lang.key n)).isOpen = true)
      (hw : Nests .unsettled start n w k) :
      Nests .untried start n (w.after ((o.consult (lang.key n)).steps n)) k
  | classless {start n : Node} {w : Walk Node} {k : Nat} (hc : lang.classTag? n = none)
      (hw : Nests .classless start n w k) : Nests .unsettled start n w k
  | ofClass {start n m : Node} {w : Walk Node} {k : Nat} (hc : lang.classTag? n = some m)
      (hm : Nests .untried m m w k) (ha : w.answer ≠ none) : Nests .unsettled start n w (k + 1)
  | classFailed {start n m : Node} {c w : Walk Node} {j k : Nat} (hc : lang.classTag? n = some m)
      (hm : Nests .untried m m c j) (ha : c.answer = none) (hw : Nests .classless start n w k) :
      Nests .unsettled start n (w.after c.trail) (max (j + 1) k)
  | ofTemplate {start n m : Node} {w : Walk Node} {k : Nat} (ht : lang.templateTag? n = some m)
      (hm : Nests .untried m m w k) : Nests .classless start n (w.rebind n) (k + 1)
  | spelled {start n : Node} {id : EntryId} (ht : lang.templateTag? n = none)
      (hs : (o.search lang n Presentation.searchOrder).2 = some id) :
      Nests .classless start n ((Walk.found id n).after
        ((o.search lang n Presentation.searchOrder).1 ++ [.stored id n])) 1
  | unwrapped {start n m : Node} {layer : Layer} {w : Walk Node} {k : Nat} (ht : lang.templateTag? n = none)
      (hs : (o.search lang n Presentation.searchOrder).2 = none)
      (hu : lang.unwrap? n = some (layer, m)) (hm : Nests .untried start m w k) :
      Nests .classless start n (w.after
        ((o.search lang n Presentation.searchOrder).1 ++ [.unwrapped layer n m])) k
  | unmatched {start n : Node} (ht : lang.templateTag? n = none)
      (hs : (o.search lang n Presentation.searchOrder).2 = none) (hu : lang.unwrap? n = none) :
      Nests .classless start n
        ⟨(o.search lang n Presentation.searchOrder).1 ++ [.unmatched start], none⟩ 1

variable {lang o} {st : Stage} {start n : Node} {v w : Walk Node} {j k : Nat}

theorem Nests.walks (h : o.Nests lang st start n w k) : o.Walks lang st start n w := by
  induction h with
  | ready hr => exact .ready hr
  | barred hr => exact .barred hr
  | unsettled hr _ ih => exact .unsettled hr ih
  | classless hc _ ih => exact .classless hc ih
  | ofClass hc _ ha ih => exact .ofClass hc ih ha
  | classFailed hc _ ha _ ihm ih => exact .classFailed hc ihm ha ih
  | ofTemplate ht _ ih => exact .ofTemplate ht ih
  | spelled ht hs => exact .spelled ht hs
  | unwrapped ht hs hu _ ih => exact .unwrapped ht hs hu ih
  | unmatched ht hs hu => exact .unmatched ht hs hu

theorem Nests.pos (h : o.Nests lang st start n w k) : 1 ≤ k := by
  induction h <;> omega

theorem exists_nests_of_walks (h : o.Walks lang st start n w) : ∃ k, o.Nests lang st start n w k := by
  induction h with
  | ready hr => exact ⟨1, .ready hr⟩
  | barred hr => exact ⟨1, .barred hr⟩
  | unsettled hr _ ih =>
    obtain ⟨k, hk⟩ := ih
    exact ⟨k, .unsettled hr hk⟩
  | classless hc _ ih =>
    obtain ⟨k, hk⟩ := ih
    exact ⟨k, .classless hc hk⟩
  | ofClass hc _ ha ih =>
    obtain ⟨k, hk⟩ := ih
    exact ⟨k + 1, .ofClass hc hk ha⟩
  | classFailed hc _ ha _ ihm ih =>
    obtain ⟨j, hj⟩ := ihm
    obtain ⟨k, hk⟩ := ih
    exact ⟨max (j + 1) k, .classFailed hc hj ha hk⟩
  | ofTemplate ht _ ih =>
    obtain ⟨k, hk⟩ := ih
    exact ⟨k + 1, .ofTemplate ht hk⟩
  | spelled ht hs => exact ⟨1, .spelled ht hs⟩
  | unwrapped ht hs hu _ ih =>
    obtain ⟨k, hk⟩ := ih
    exact ⟨k, .unwrapped ht hs hu hk⟩
  | unmatched ht hs hu => exact ⟨1, .unmatched ht hs hu⟩

/-- The number of walks under way is a matter of the walk. -/
theorem nests_unique (hv : o.Nests lang st start n v j) (hw : o.Nests lang st start n w k) : j = k := by
  induction hv generalizing w k with
  | ready hr | barred hr =>
    cases hw with
    | ready | barred => rfl
    | unsettled hr' =>
      rw [hr] at hr'
      cases hr'
  | unsettled hr _ ih =>
    cases hw with
    | ready hr' | barred hr' =>
      rw [hr'] at hr
      cases hr
    | unsettled _ hw => exact ih hw
  | classless hc _ ih =>
    cases hw with
    | classless _ hw => exact ih hw
    | ofClass hc' | classFailed hc' =>
      cases hc.symm.trans hc'
  | ofClass hc hm ha ih =>
    cases hw with
    | classless hc' =>
      cases hc.symm.trans hc'
    | ofClass hc' hm' =>
      obtain rfl := Option.some.inj (hc.symm.trans hc')
      rw [ih hm']
    | classFailed hc' hm' ha' =>
      obtain rfl := Option.some.inj (hc.symm.trans hc')
      exact absurd (walks_unique hm.walks hm'.walks ▸ ha') ha
  | classFailed hc hm ha _ ihm ih =>
    cases hw with
    | classless hc' =>
      cases hc.symm.trans hc'
    | ofClass hc' hm' ha' =>
      obtain rfl := Option.some.inj (hc.symm.trans hc')
      exact absurd (walks_unique hm.walks hm'.walks ▸ ha) ha'
    | classFailed hc' hm' _ hw' =>
      obtain rfl := Option.some.inj (hc.symm.trans hc')
      rw [ihm hm', ih hw']
  | ofTemplate ht _ ih =>
    cases hw with
    | ofTemplate ht' hm' =>
      obtain rfl := Option.some.inj (ht.symm.trans ht')
      rw [ih hm']
    | spelled ht' | unwrapped ht' | unmatched ht' => cases ht.symm.trans ht'
  | spelled ht hs =>
    cases hw with
    | ofTemplate ht' =>
      cases ht.symm.trans ht'
    | spelled => rfl
    | unwrapped _ hs' | unmatched _ hs' =>
      cases hs.symm.trans hs'
  | unwrapped ht hs hu _ ih =>
    cases hw with
    | ofTemplate ht' =>
      cases ht.symm.trans ht'
    | spelled _ hs' =>
      cases hs.symm.trans hs'
    | unwrapped _ _ hu' hm' =>
      obtain ⟨-, rfl⟩ := Prod.mk.inj (Option.some.inj (hu.symm.trans hu'))
      exact ih hm'
    | unmatched _ _ hu' =>
      cases hu.symm.trans hu'
  | unmatched ht hs hu =>
    cases hw with
    | ofTemplate ht' =>
      cases ht.symm.trans ht'
    | spelled _ hs' =>
      cases hs.symm.trans hs'
    | unwrapped _ _ hu' =>
      cases hu.symm.trans hu'
    | unmatched => rfl

end Outlook

/-! ## Types -/

namespace TypeTerm

/-- The number of walks that a type makes to be under way at one time at most. -/
def levels : TypeTerm → Nat
  | named _ => 1
  | typedef _ t => levels t
  | pointer t => levels t
  | specialization .. => 2

theorem levels_le_two : ∀ t : TypeTerm, levels t ≤ 2
  | named _ => Nat.le_succ 1
  | typedef _ t => levels_le_two t
  | pointer t => levels_le_two t
  | specialization .. => Nat.le_refl 2

theorem levels_pos : ∀ t : TypeTerm, 1 ≤ levels t
  | named _ => Nat.le_refl 1
  | typedef _ t => levels_pos t
  | pointer t => levels_pos t
  | specialization .. => Nat.le_succ 1

variable {render : Renderer TypeTerm} {o : Outlook TypeTerm} {st : Stage} {start t u : TypeTerm}

theorem levels_of_unwrap? {layer : Layer} (h : (language render).unwrap? t = some (layer, u)) : levels u = levels t := by
  obtain ⟨w, rfl⟩ := exists_around_of_unwrap? h
  cases w <;> rfl

theorem levels_of_tag (h : (language render).classTag? t = some u ∨ (language render).templateTag? t = some u) :
    levels u + 1 ≤ levels t := by
  obtain ⟨⟨x, as, c, d, rfl⟩, name, rfl⟩ := exists_specialization_of_tag h
  exact Nat.le_refl 2

theorem le_levels_of_nests {w : Walk TypeTerm} {k : Nat} (h : o.Nests (language render) st start t w k) :
    k ≤ levels t := by
  induction h with
  | ready | barred | spelled | unmatched => exact levels_pos _
  | unsettled _ _ ih | classless _ _ ih => exact ih
  | ofClass hc _ _ ih =>
    have := levels_of_tag (.inl hc)
    omega
  | classFailed hc _ _ _ ihm ih =>
    have := levels_of_tag (.inl hc)
    omega
  | ofTemplate ht _ ih =>
    have := levels_of_tag (.inr ht)
    omega
  | unwrapped _ _ hu _ ih => rwa [← levels_of_unwrap? hu]

end TypeTerm

/-! ## Main statement -/

/-- **Resolutions end.** In every session, whatever the memo holds, a node from which no endless way leads down is resolved;
so is every type, with two walks under way at most, where a walk that was begun for a declaration begins no other. -/
theorem exists_nests :
    (∀ {Node Decl Key : Type} [DecidableEq Key] (lang : Language Node Decl Key) (n : Node), ¬ lang.Descends n →
      ∀ s : Session Node Key, ∃ r k, s.resolve? lang n = some r ∧
        s.outlook.Nests lang .untried n n ⟨r.trail, r.answer⟩ k) ∧
    ∀ (render : Renderer TypeTerm) (s : Session TypeTerm TypeTerm),
      (∀ t, ¬ (TypeTerm.language render).Descends t ∧ ∃ r k, s.resolve? (TypeTerm.language render) t = some r ∧
        s.outlook.Nests (TypeTerm.language render) .untried t t ⟨r.trail, r.answer⟩ k ∧ k ≤ 2) ∧
      ∀ declaration w k, s.outlook.Nests (TypeTerm.language render) .untried
        ((TypeTerm.language render).tag declaration) ((TypeTerm.language render).tag declaration) w k → k = 1 := by
  have hends : ∀ {Node Decl Key : Type} [DecidableEq Key] (lang : Language Node Decl Key) (n : Node), lang.Grounded n →
      ∀ s : Session Node Key, ∃ r k, s.resolve? lang n = some r ∧
        s.outlook.Nests lang .untried n n ⟨r.trail, r.answer⟩ k := by
    intro Node Decl Key _ lang n hn s
    obtain ⟨w, hw⟩ := Outlook.exists_walks (o := s.outlook) hn n
    obtain ⟨k, hk⟩ := Outlook.exists_nests_of_walks hw
    exact ⟨_, k, Session.resolve?_of_walks hw, hk⟩
  refine ⟨fun lang n hn s => hends lang n (FrontEnd.grounded_iff.2 hn) s, fun render s => ⟨fun t => ?_, ?_⟩⟩
  · have hground : (TypeTerm.language render).Grounded t := TypeTerm.grounded t
    obtain ⟨r, k, hr, hk⟩ := hends _ t hground s
    exact ⟨FrontEnd.grounded_iff.1 hground, r, k, hr, hk,
      Nat.le_trans (TypeTerm.le_levels_of_nests hk) (TypeTerm.levels_le_two t)⟩
  · intro declaration w k hk
    have hle : k ≤ 1 := TypeTerm.le_levels_of_nests hk
    exact Nat.le_antisymm hle hk.pos

/-- A template over a specialization whose class has no name. -/
def NodeTable.nested : NodeTable where
  rows := #[{ name := "X", key := 0 }, { name := "Y", key := 1, class? := some 0, isSpecialization := true },
    { name := "Z", key := 2, template? := some 1, isSpecialization := true }]
  earlier := by decide

/-- In a table there may be more: three walks are under way at the class of the declaration of the template. -/
theorem exists_nests_of_nested : ∃ (s : Session NodeTable.nested.Node Int) (r : Resolution NodeTable.nested.Node Int),
    s = .new (.new {}) ∧ ¬ NodeTable.nested.language.Descends (2 : Fin 3) ∧
    s.resolve? NodeTable.nested.language (2 : Fin 3) = some r ∧
    s.outlook.Nests NodeTable.nested.language .untried (2 : Fin 3) (2 : Fin 3) ⟨r.trail, r.answer⟩ 3 := by
  let s : Session NodeTable.nested.Node Int := Session.new (.new {})
  have hground : NodeTable.nested.language.Grounded (2 : Fin 3) := NodeTable.nested.grounded (2 : Fin 3)
  have hway := FrontEnd.grounded_iff.1 hground
  obtain ⟨r, k, hr, hk⟩ := exists_nests.1 NodeTable.nested.language (2 : Fin 3) hway s
  have hnested : s.outlook.Nests NodeTable.nested.language .untried (2 : Fin 3) (2 : Fin 3) _ 3 :=
    .unsettled rfl (.classless rfl (.ofTemplate rfl (.unsettled rfl (.classFailed rfl
      (.unsettled rfl (.classless rfl (.unmatched rfl rfl rfl))) rfl (.unmatched rfl rfl rfl)))))
  obtain rfl := Outlook.nests_unique hk hnested
  exact ⟨s, r, rfl, hway, hr, hk⟩

end TypeMapping
