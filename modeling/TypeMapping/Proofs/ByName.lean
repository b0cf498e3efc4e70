import TypeMapping.Proofs.Soundness

/-!
# Resolution by name and by node

A node that leads nowhere and has one name only asks no more than what the name stands for.

* `Language.Bare`    : a node with nothing to take off and no declaration behind it;
* `Session.Diverts`  : the memo leads from a node to an entry that is registered under another name;
* `NodeTable.synonyms` : a table of two nodes that count as one, each with a name of its own.

Main statement: `resolve_bare`, a bare node with one name is resolved to what the name stands for, unless the memo diverts it.
-/

namespace TypeMapping

variable {Node Decl Key : Type} [DecidableEq Key] {lang : Language Node Decl Key}

/-! ## Bare nodes -/

/-- The node is no specialization, it has no sugar, and it is no pointer. -/
structure Language.Bare (lang : Language Node Decl Key) (u : Node) : Prop where
  isSpecialization : lang.isSpecialization u = false
  stripSugar : lang.key (lang.stripSugar u) = lang.key u
  isIndirect : lang.isIndirect u = false

namespace Language.Bare

variable {u : Node}

omit [DecidableEq Key] in
theorem classTag? (hu : lang.Bare u) : lang.classTag? u = none := by
  unfold FrontEnd.classTag?
  rw [hu.isSpecialization, if_neg Bool.false_ne_true]

omit [DecidableEq Key] in
theorem templateTag? (hu : lang.Bare u) : lang.templateTag? u = none := by
  unfold FrontEnd.templateTag?
  rw [hu.isSpecialization, if_neg Bool.false_ne_true]

theorem unwrap? (hu : lang.Bare u) : lang.unwrap? u = none := by
  unfold FrontEnd.unwrap?
  rw [if_neg (not_not_intro hu.stripSugar), hu.isIndirect, if_neg Bool.false_ne_true]

theorem grounded (hu : lang.Bare u) : lang.Grounded u := by
  refine ⟨_, fun m hm => ?_⟩
  rcases hm with hc | ht | ⟨layer, hl⟩
  · rw [hu.classTag?] at hc
    cases hc
  · rw [hu.templateTag?] at ht
    cases ht
  · rw [hu.unwrap?] at hl
    cases hl

end Language.Bare

/-! ## Walks from bare nodes -/

namespace Outlook

variable {o : Outlook Key} {u : Node} {name : String}

omit [DecidableEq Key] in
/-- To search a node that has one name only is to look the name up. -/
theorem search_eq_lookup? (hn : ∀ p, lang.render u p = name) :
    (o.search lang u Presentation.searchOrder).2 = o.lookup? name := by
  have hconst : (fun p => o.lookup? (lang.render u p)) = fun _ => o.lookup? name := by
    funext p
    rw [hn p]
  rw [search_snd, hconst]
  cases o.lookup? name <;> rfl

theorem exists_walks_bare (hu : lang.Bare u) (hn : ∀ p, lang.render u p = name)
    (hr : (o.consult (lang.key u)).isOpen = true) (start : Node) :
    ∃ w, o.Walks lang .untried start u w ∧ w.answer = (o.lookup? name).map (·, u) := by
  obtain ⟨w, hw, ha⟩ := exists_walks_leaf (o := o) hu.templateTag? hu.unwrap? start
  rw [search_eq_lookup? hn] at ha
  exact ⟨_, .unsettled hr (.classless hu.classTag? hw), ha⟩

end Outlook

namespace Session

variable {s : Session Node Key} {u : Node} {name : String} {id : EntryId}

/-! ## Diversions -/

/-- The memo leads from the node to an entry that is registered, but under another name. -/
structure Diverts (lang : Language Node Decl Key) (s : Session Node Key) (u : Node) (name : String) (id : EntryId) :
    Prop where
  slot : s.memo.get? (lang.key u) = some id
  registered : ∃ e, s.registry.byId? id = some e ∧ e.name ≠ name ∧ s.registry.get? e.name = some id

theorem Diverts.preempts (h : s.Diverts lang u name id) : s.Preempts (lang.key u) id := by
  obtain ⟨e, he, -, hg⟩ := h.registered
  exact ⟨h.slot, e, he, hg⟩

/-- A diversion goes back to a node with the same key that has the other name. -/
theorem Diverts.exists_spells (hs : s.Slots lang lang.Nameable) (h : s.Diverts lang u name id) :
    ∃ m e, lang.key m = lang.key u ∧ s.registry.byId? id = some e ∧ e.name ≠ name ∧ lang.Spells m e.name := by
  obtain ⟨e, he, hne, -⟩ := h.registered
  obtain ⟨m, hk, hsp⟩ := hs.exists_spells_of_get? h.slot he
  exact ⟨m, e, hk, he, hne, hsp⟩

omit [DecidableEq Key] in
theorem map_resolveName_of_get? (h : s.registry.get? name = some id) :
    (s.resolveName name).map (·, u) = if s.registry.isEnabled id then some (id, u) else none := by
  rw [resolveName, Registry.lookup?, h, Option.filter_some]
  split <;> rfl

/-- The walk from a bare node with one name, with and without a diversion. -/
theorem exists_walks_resolveName (s : Session Node Key) (hu : lang.Bare u) (hn : ∀ p, lang.render u p = name)
    (start : Node) : ∃ w, s.outlook.Walks lang .untried start u w ∧
      ((∀ id, ¬ s.Diverts lang u name id) → w.answer = (s.resolveName name).map (·, u)) ∧
      ∀ id, s.Diverts lang u name id → w.answer = if s.registry.isEnabled id then some (id, u) else none := by
  cases hopen : (s.consult (lang.key u)).isOpen with
  | true =>
    obtain ⟨w, hw, ha⟩ := Outlook.exists_walks_bare (o := s.outlook) hu hn hopen start
    refine ⟨w, hw, fun _ => ha, fun id hd => ?_⟩
    rw [isOpen_eq_false_iff.2 ⟨id, hd.preempts⟩] at hopen
    cases hopen
  | false =>
    obtain ⟨id, hp⟩ := isOpen_eq_false_iff.1 hopen
    obtain ⟨w, hw, ha⟩ := exists_walks_of_preempts hp start
    refine ⟨w, hw, fun hno => ?_, fun id' hd => ?_⟩
    · -- the entry of the slot has the name, which therefore stands for it
      obtain ⟨e, he, hg⟩ := hp.registered
      have hname : e.name = name := Classical.byContradiction fun hne => hno id ⟨hp.slot, e, he, hne, hg⟩
      rw [ha, map_resolveName_of_get? (hname ▸ hg)]
    · obtain rfl : id' = id := Option.some.inj (hd.slot.symm.trans hp.slot)
      exact ha

/-! ## Main statement -/

/-- **A bare node with one name is resolved to what the name stands for.** This holds after every run, and of declarations
whose type is such a node as well, unless the memo diverts the node: then it is resolved to the entry that the memo leads
to, if that is enabled. The memo diverts it only to a name of another node that counts as the same one. -/
theorem resolve_bare {registry : Registry} {as : List (Action Node)}
    (hs : (Session.new registry).run lang as = some s) (hu : lang.Bare u) (hn : ∀ p, lang.render u p = name) :
    ∃ h : lang.Grounded u,
      ((∀ id, ¬ s.Diverts lang u name id) → (s.resolve lang u h).answer = (s.resolveName name).map (·, u)) ∧
      (∀ id, s.Diverts lang u name id →
        (s.resolve lang u h).answer = (if s.registry.isEnabled id then some (id, u) else none) ∧
        ∃ m e, lang.key m = lang.key u ∧ s.registry.byId? id = some e ∧ e.name ≠ name ∧ lang.Spells m e.name) ∧
      ((∀ m, lang.key m = lang.key u → ∀ p, lang.render m p = name) → ∀ id, ¬ s.Diverts lang u name id) ∧
      ∀ d (hd : lang.tag d = u), (s.resolveDeclaration lang d (hd ▸ h)).answer = (s.resolve lang u h).answer := by
  have hslots : s.Slots lang lang.Nameable := slots_run hs
  obtain ⟨w, hw, hagree, hdivert⟩ := exists_walks_resolveName s hu hn u
  have hr : s.resolve lang u hu.grounded = s.conclude lang w :=
    Option.some.inj ((resolve?_eq_some lang s hu.grounded).symm.trans (resolve?_of_walks hw))
  refine ⟨hu.grounded, ?_, fun id hd => ⟨?_, hd.exists_spells hslots⟩, fun hone id hd => ?_, ?_⟩
  · rw [hr]
    exact hagree
  · rw [hr]
    exact hdivert id hd
  · obtain ⟨m, e, hk, -, hne, p, -, hp⟩ := hd.exists_spells hslots
    exact hne (hp.symm.trans (hone m hk p))
  · intro d hd
    subst hd
    rfl

/-- `V` and its declaration, where the memo leads from `V` to an entry that has lost the name. -/
theorem resolve_bare_past_slot : ∃ s h, (Session.new (.new {})).run TypeTerm.plain [
      .register { name := "V", origin := "a" }, .resolve (.named "V"), .register { name := "V", origin := "b" }] =
        some s ∧ TypeTerm.plain.Bare (.named "V") ∧ (∀ p, TypeTerm.plain.render (.named "V") p = "V") ∧
    s.memo.get? (.named "V") = some 0 ∧ s.resolveName "V" = some 1 ∧
    (s.resolve TypeTerm.plain (.named "V") h).answer = some (1, .named "V") ∧
    (s.resolveDeclaration TypeTerm.plain "V" h).answer = some (1, .named "V") := by
  let s := (sample.conclude TypeTerm.plain .sample).session.register { name := "V", origin := "b" }
  have hs : (Session.new (.new {})).run TypeTerm.plain [.register { name := "V", origin := "a" },
      .resolve (.named "V"), .register { name := "V", origin := "b" }] = some s := run_resolve (walks_sample _) _
  have hu : TypeTerm.plain.Bare (.named "V") := ⟨rfl, rfl, rfl⟩
  have hn : ∀ p, TypeTerm.plain.render (.named "V") p = "V" := fun _ => rfl
  obtain ⟨h, hagree, -, hnone, hdecl⟩ := resolve_bare hs hu hn
  have ha := hagree (hnone fun m hm p => by rw [show m = .named "V" from hm, hn])
  exact ⟨s, h, hs, hu, hn, rfl, rfl, ha, (hdecl "V" rfl).trans ha⟩

end Session

/-- Two nodes with one key, of which the first is printed as `V` and the second as `W`. -/
def NodeTable.synonyms : NodeTable where
  rows := #[{ name := "V", key := 0 }, { name := "W", key := 0 }]
  earlier := by decide

/-- After the first of two nodes with one key was resolved, the second is resolved to the same entry, whatever its own name
stands for. -/
theorem Session.resolve_bare_diverted : ∃ s h, (Session.new (.new {})).run NodeTable.synonyms.language [
      .register { name := "V", origin := "a" }, .register { name := "W", origin := "a" }, .resolve (0 : Fin 2)] =
        some s ∧
    NodeTable.synonyms.language.Bare (1 : Fin 2) ∧ (∀ p, NodeTable.synonyms.language.render (1 : Fin 2) p = "W") ∧
    s.resolveName "W" = some 1 ∧
    (s.resolve NodeTable.synonyms.language (1 : Fin 2) h).answer = some (0, (1 : Fin 2)) ∧
    ¬ ∀ id, (s.resolve NodeTable.synonyms.language (1 : Fin 2) h).answer = some (id, (1 : Fin 2)) ↔
      s.resolveName "W" = some id := by
  let lang := NodeTable.synonyms.language
  let n₀ : NodeTable.synonyms.Node := (0 : Fin 2)
  let n₁ : NodeTable.synonyms.Node := (1 : Fin 2)
  let s₀ : Session NodeTable.synonyms.Node Int :=
    ((new (.new {})).register { name := "V", origin := "a" }).register { name := "W", origin := "a" }
  let w₀ : Walk NodeTable.synonyms.Node := ⟨[.rendered n₀ {} "V" true, .stored 0 n₀, .bound 0 n₀], some (0, n₀)⟩
  have h₀ : s₀.outlook.Walks lang .untried n₀ n₀ w₀ := .unsettled rfl (.classless rfl (.spelled rfl rfl))
  let s := (s₀.conclude lang w₀).session
  have hs : (Session.new (.new {})).run lang [.register { name := "V", origin := "a" },
      .register { name := "W", origin := "a" }, .resolve n₀] = some s := run_resolve h₀ _
  -- the memo knows both nodes by their key
  have h₁ : s.outlook.Walks lang .untried n₁ n₁ (.found 0 n₁) := .ready rfl
  have hg : lang.Grounded n₁ := NodeTable.grounded _ _
  have hr : s.resolve lang n₁ hg = s.conclude lang (.found 0 n₁) :=
    Option.some.inj ((resolve?_eq_some lang s hg).symm.trans (resolve?_of_walks h₁))
  have ha : (s.resolve lang n₁ hg).answer = some (0, n₁) := by rw [hr, answer_conclude, Walk.answer_found]
  have hl : s.resolveName "W" = some 1 := rfl
  refine ⟨s, hg, hs, ⟨rfl, rfl, rfl⟩, fun _ => rfl, hl, ha, fun hiff => ?_⟩
  have hzero := (hiff 0).1 ha
  rw [hl] at hzero
  cases hzero

end TypeMapping
