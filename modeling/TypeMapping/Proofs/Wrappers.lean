import TypeMapping.Proofs.Alike
import TypeMapping.Proofs.FirstMatch
import TypeMapping.Proofs.Soundness

/-!
# Wrappers without a name

A node of which no name is registered is no more than a way to the node below its outermost layer.

* `Outlook.Passes`  : walks from the first node go straight on to the second one;
* `TypeTerm.layers` : the types that a stack of wrappers makes of a type, one for each wrapper.

Main statements: `Passes.exists_walks`, to pass a node takes as many names as there are presentations;
`isOpen_of_unregistered`, the memo does not settle a node without a registered name; `resolve?_wrap`, wrappers without a
registered name are transparent.
-/

namespace TypeMapping

variable {Node Decl Key : Type} [DecidableEq Key] {lang : Language Node Decl Key}

/-! ## Nodes that are passed -/

/-- A longer walk leaves the same session behind. -/
theorem Walk.Prolongs.session_eq {w w' : Walk Node} {k : Nat} (h : w'.Prolongs k w) (s : Session Node Key) :
    (s.conclude lang w').session = (s.conclude lang w).session := by
  have hregistry : (s.conclude lang w').session.registry = (s.conclude lang w).session.registry := by
    rw [Session.registry_conclude, Session.registry_conclude]
  have hmemo : (s.conclude lang w').session.memo = (s.conclude lang w).session.memo := by
    rw [Session.memo_conclude, Session.memo_conclude, h.stores]
  have hbound : (s.conclude lang w').session.bound = (s.conclude lang w).session.bound := by
    rw [Session.bound_conclude, Session.bound_conclude, h.bindings]
  cases hs : (s.conclude lang w).session
  cases hs' : (s.conclude lang w').session
  simp_all

namespace Outlook

variable {o : Outlook Key} {start n m : Node} {w : Walk Node}

omit [DecidableEq Key] in
/-- A search that fails has given the node all names that there are. -/
theorem renderings_search_of_none {ps : List Presentation} (h : (o.search lang n ps).2 = none) :
    (o.search lang n ps).1.countP Step.isRendering = ps.length := by
  induction ps with
  | nil => rfl
  | cons p ps ih =>
    rw [search] at h ⊢
    cases hl : o.lookup? (lang.render n p) with
    | some id => simp [hl] at h
    | none =>
      simp only [hl] at h ⊢
      rw [List.countP_cons_of_pos rfl, ih h, List.length_cons]

/-- Neither the memo nor a declaration nor a name settles the first node, and the second one lies below its outermost
layer. -/
structure Passes (lang : Language Node Decl Key) (o : Outlook Key) (n m : Node) : Prop where
  isOpen : (o.consult (lang.key n)).isOpen = true
  classless : lang.classTag? n = none
  templateless : lang.templateTag? n = none
  nameless : ∀ p, o.lookup? (lang.render n p) = none
  unwraps : ∃ layer, lang.unwrap? n = some (layer, m)

/-- A walk that passes a node goes on as one from the node below, after a name for each presentation. -/
theorem Passes.exists_walks (h : o.Passes lang n m) (hw : o.Walks lang .untried start m w) :
    ∃ w', o.Walks lang .untried start n w' ∧ w'.Prolongs 16 w := by
  obtain ⟨layer, hu⟩ := h.unwraps
  have hs : (o.search lang n Presentation.searchOrder).2 = none := by
    rw [search_snd, List.findSome?_eq_none_iff]
    exact fun p _ => h.nameless p
  have hsilent : ∀ a ∈ (o.search lang n Presentation.searchOrder).1 ++ [.unwrapped layer n m],
      a.writes = false := by
    intro a ha
    rcases List.mem_append.1 ha with ha | ha
    · exact writes_of_mem_search ha
    · obtain rfl := List.mem_singleton.1 ha
      rfl
  have hlayer := Walk.prolongs_after hsilent w
  rw [List.countP_append, renderings_search_of_none hs, Presentation.length_searchOrder] at hlayer
  exact ⟨_, .unsettled h.isOpen (.classless h.classless (.unwrapped h.templateless hs hu hw)),
    (Walk.prolongs_recall _ n _).trans hlayer⟩

end Outlook

/-! ## Nodes without a registered name -/

namespace Session

variable {s : Session Node Key} {n : Node}

/-- The memo does not settle a node without a registered name, since it settles a node by an entry that is registered under
one of its names. -/
theorem isOpen_of_unregistered (hx : lang.Interchangeable) (hs : s.Slots lang lang.Nameable)
    (hn : ∀ p, s.registry.get? (lang.render n p) = none) : (s.consult (lang.key n)).isOpen = true := by
  cases hopen : (s.consult (lang.key n)).isOpen with
  | true => rfl
  | false =>
    obtain ⟨m, id, e, hk, hsp, -, -, hg⟩ := hs.exists_spells hopen
    obtain ⟨p, -, hp⟩ := hx.spells hk hsp
    rw [← hp, hn p] at hg
    cases hg

end Session

/-! ## Stacks of wrappers -/

namespace TypeTerm

/-- The types that wrappers make of a type, the innermost first. -/
def layers : List Wrapper → TypeTerm → List TypeTerm
  | [], _ => []
  | w :: ws, t => w.around t :: layers ws (w.around t)

variable {render : Renderer TypeTerm} {s : Session TypeTerm TypeTerm}

theorem unwrap?_around (w : Wrapper) (t : TypeTerm) :
    ∃ layer, (language render).unwrap? (w.around t) = some (layer, t) := by
  cases w with
  | typedef name => exact ⟨.sugar, unwrap?_typedef name t⟩
  | pointer => exact ⟨.indirection, unwrap?_pointer t⟩

theorem isSpecialization_around (w : Wrapper) (t : TypeTerm) :
    (language render).isSpecialization (w.around t) = false := by
  cases w <;> rfl

/-- What a layer comes off of is a wrapper around the rest. -/
theorem exists_around_of_unwrap? {t u : TypeTerm} {layer : Layer}
    (h : (language render).unwrap? t = some (layer, u)) : ∃ w : Wrapper, t = w.around u := by
  cases t with
  | named x =>
    rw [unwrap?_named] at h
    cases h
  | typedef x t =>
    rw [unwrap?_typedef] at h
    obtain ⟨-, rfl⟩ := Prod.mk.inj (Option.some.inj h)
    exact ⟨.typedef x, rfl⟩
  | pointer t =>
    rw [unwrap?_pointer] at h
    obtain ⟨-, rfl⟩ := Prod.mk.inj (Option.some.inj h)
    exact ⟨.pointer, rfl⟩
  | specialization x as c d =>
    rw [unwrap?_specialization] at h
    cases h

/-- Only a specialization has declarations, and a declaration is a type that is known by its name only. -/
theorem exists_specialization_of_tag {t u : TypeTerm}
    (h : (language render).classTag? t = some u ∨ (language render).templateTag? t = some u) :
    (∃ x as c d, t = specialization x as c d) ∧ ∃ name, u = named name := by
  cases t with
  | specialization x as c d =>
    refine ⟨⟨x, as, c, d, rfl⟩, ?_⟩
    rcases h with h | h
    · obtain ⟨name, -, rfl⟩ := Option.map_eq_some_iff.1 h
      exact ⟨name, rfl⟩
    · obtain ⟨name, -, rfl⟩ := Option.map_eq_some_iff.1 h
      exact ⟨name, rfl⟩
  | named | typedef | pointer => rcases h with h | h <;> cases h

theorem passes_around (hs : s.Slots (language render) (language render).Nameable) (w : Wrapper) (t : TypeTerm)
    (hn : ∀ p, s.registry.get? (render (w.around t) p) = none) :
    s.outlook.Passes (language render) (w.around t) t where
  isOpen := Session.isOpen_of_unregistered (interchangeable render) hs hn
  classless := if_neg (by simp [isSpecialization_around])
  templateless := if_neg (by simp [isSpecialization_around])
  nameless p := by
    show s.registry.lookup? (render (w.around t) p) = none
    rw [Registry.lookup?, hn p, Option.filter_none]
  unwraps := unwrap?_around w t

/-- Walks pass a stack of wrappers without a registered name, one wrapper after the other. -/
theorem exists_walks_wrap (hs : s.Slots (language render) (language render).Nameable) {start : TypeTerm}
    (ws : List Wrapper) {b : TypeTerm} {v : Walk TypeTerm}
    (hn : ∀ t ∈ layers ws b, ∀ p, s.registry.get? (render t p) = none)
    (hv : s.outlook.Walks (language render) .untried start b v) :
    ∃ w, s.outlook.Walks (language render) .untried start (wrap ws b) w ∧ w.Prolongs (16 * ws.length) v := by
  induction ws generalizing b v with
  | nil => exact ⟨v, hv, .refl v⟩
  | cons w ws ih =>
    have hfirst : ∀ p, s.registry.get? (render (w.around b) p) = none := hn _ List.mem_cons_self
    have hrest : ∀ t ∈ layers ws (w.around b), ∀ p, s.registry.get? (render t p) = none :=
      fun t ht => hn t (List.mem_cons_of_mem _ ht)
    obtain ⟨u, hu, hp⟩ := (passes_around hs w b hfirst).exists_walks hv
    obtain ⟨u', hu', hp'⟩ := ih hrest hu
    refine ⟨u', hu', ?_⟩
    rw [List.length_cons, Nat.mul_succ, Nat.add_comm]
    exact hp'.trans hp

/-- **Wrappers without a registered name are transparent.** After every run, whatever was resolved before, a type under a
stack of typedefs and pointers of which no name is registered is resolved as the type itself: to the same answer, with the
same session afterwards, and with one name more for each presentation of each wrapper. -/
theorem resolve?_wrap {registry : Registry} {as : List (Action TypeTerm)}
    (hs : (Session.new registry).run (language render) as = some s) (ws : List Wrapper) (b : TypeTerm)
    (hn : ∀ t ∈ layers ws b, ∀ p, s.registry.get? (render t p) = none) :
    ∃ r r', s.resolve? (language render) b = some r ∧ s.resolve? (language render) (wrap ws b) = some r' ∧
      r'.answer = r.answer ∧ r'.session = r.session ∧ r'.renderings = r.renderings + 16 * ws.length := by
  have hslots := Session.slots_run hs
  have hb : (language render).Grounded b := grounded b
  obtain ⟨v, hv⟩ := Outlook.exists_walks (o := s.outlook) hb b
  -- the same walk as part of a resolution that begins with the wrapped type
  obtain ⟨v', hv', hp⟩ := Outlook.exists_walks_restart hv (wrap ws b)
  obtain ⟨w, hw, hp'⟩ := exists_walks_wrap hslots ws hn hv'
  have hwrap : w.Prolongs (0 + 16 * ws.length) v := hp'.trans hp
  rw [Nat.zero_add] at hwrap
  exact ⟨_, _, Session.resolve?_of_walks hv, Session.resolve?_of_walks hw, hwrap.answer, hwrap.session_eq s,
    hwrap.renderings⟩

/-- A typedef and a pointer around it. -/
def Wrapper.sample : List Wrapper := ["A"].map typedef ++ [pointer]

/-- A pointer to a typedef of `V`, where the memo leads from `V` to an entry that has lost the name. -/
theorem resolve?_wrap_past_slot :
    ∃ s r r', (Session.new (.new {})).run plain [.register { name := "V", origin := "a" }, .resolve (named "V"),
        .register { name := "V", origin := "b" }] = some s ∧
      (∀ t ∈ layers Wrapper.sample (named "V"), ∀ _ : Presentation, s.registry.get? t.spell = none) ∧
      (wrap Wrapper.sample (named "V")).spell = "A*" ∧
      s.resolve? plain (named "V") = some r ∧ s.resolve? plain (wrap Wrapper.sample (named "V")) = some r' ∧
      r.answer = some (1, named "V") ∧ r'.answer = some (1, named "V") ∧ r'.session = r.session ∧
      r.renderings = 1 ∧ r'.renderings = 33 := by
  let s := (Session.sample.conclude plain .sample).session.register { name := "V", origin := "b" }
  have hs : (Session.new (.new {})).run plain [.register { name := "V", origin := "a" }, .resolve (named "V"),
      .register { name := "V", origin := "b" }] = some s := Session.run_resolve (Session.walks_sample _) _
  have hn : ∀ t ∈ layers Wrapper.sample (named "V"), ∀ _ : Presentation, s.registry.get? t.spell = none := by
    intro t ht _
    rcases List.mem_cons.1 ht with rfl | ht
    · rfl
    · obtain rfl := List.mem_singleton.1 ht
      rfl
  obtain ⟨r, r', hr, hr', ha, hsession, hcount⟩ := resolve?_wrap hs Wrapper.sample (named "V") hn
  -- the slot of the memo is outdated, and `V` is found by its first name
  obtain ⟨w, hw, hwa, hwc⟩ : ∃ w, s.outlook.Walks plain .untried (named "V") (named "V") w ∧
      w.answer = some (1, named "V") ∧ w.renderings = 1 :=
    ⟨_, .unsettled rfl (.classless rfl (.spelled rfl rfl)), rfl, rfl⟩
  obtain rfl : s.conclude plain w = r := Option.some.inj ((Session.resolve?_of_walks hw).symm.trans hr)
  have hone : (s.conclude plain w).renderings = 1 := hwc
  rw [hone] at hcount
  exact ⟨s, _, r', hs, hn, rfl, hr, hr', hwa, ha.trans hwa, hsession, hone, hcount⟩

end TypeTerm

end TypeMapping
