import TypeMapping.Proofs.Slots

/-!
# Soundness of answers, slots and bindings

* `Language.Nameable` : a node that goes by a name of its own;
* `Session.Sound`     : every slot of the memo and every binding is justified by the rules of derivation;
* `sound_run`         : it holds after every run; `slots_run`, the part of it that is about slots.

Main statements: `answer_derives`, what a resolution answers stands for its own name and is derivable
from the node; `slots_and_bindings_sound`, the same of all that the memo and the bindings hold.
-/

namespace TypeMapping

variable {Node Decl Key : Type} [DecidableEq Key] {lang : Language Node Decl Key}

omit [DecidableEq Key] in
theorem Outlook.spells_of_search {o : Outlook Key} {n : Node} {id : EntryId}
    (h : (o.search lang n Presentation.searchOrder).2 = some id) :
    ∃ name, lang.Spells n name ∧ o.lookup? name = some id := by
  rw [search_snd] at h
  obtain ⟨p, hp, hl⟩ := List.exists_of_findSome?_eq_some h
  exact ⟨_, ⟨p, hp, rfl⟩, hl⟩

/-! ## The invariant -/

/-- A node that goes by that name, and not by a template. -/
def Language.Nameable (lang : Language Node Decl Key) (n : Node) (name : String) : Prop :=
  lang.Spells n name ∧ lang.templateTag? n = none

omit [DecidableEq Key] in
theorem Language.Nameable.congr (hx : lang.Interchangeable) {m n : Node} {name : String}
    (hk : lang.key m = lang.key n) (h : lang.Nameable m name) : lang.Nameable n name :=
  ⟨hx.spells hk h.1, eq_none_of_map_eq_map (hx.templateTag hk) h.2⟩

namespace Session

/-- Every slot and every binding is justified: a slot belongs to a node that goes by the name of its entry, and
its entry is bound; an entry is bound to a node that its name allows. -/
structure Sound (lang : Language Node Decl Key) (s : Session Node Key) : Prop where
  slots : s.Slots lang lang.Nameable
  slotsBound : ∀ k id, s.memo.get? k = some id → (s.boundTo? id).isSome
  bindings : ∀ id u, s.boundTo? id = some u →
    ∃ e, s.registry.byId? id = some e ∧ lang.MayBind u e.name

variable {s : Session Node Key}

/-- Whatever node it is that the memo leads from, it goes by the name of the entry. -/
theorem Sound.nameable (hx : lang.Interchangeable) (hs : s.Sound lang) {n : Node} {id : EntryId}
    (h : s.memo.get? (lang.key n) = some id) {e : Entry} (he : s.registry.byId? id = some e) :
    lang.Nameable n e.name :=
  hs.slots.of_get? (fun _ _ hk hn => hn.congr hx hk) h he

/-! ## One walk -/

variable {st : Stage} {start n : Node} {w : Walk Node}

/-- The answer of a walk stands for its name, and the name is derivable. -/
theorem lookup?_and_derives (hx : lang.Interchangeable) (hs : s.Sound lang)
    (h : s.outlook.Walks lang st start n w) {id : EntryId} {u : Node} (ha : w.answer = some (id, u)) :
    ∃ name, s.registry.lookup? name = some id ∧ lang.Derives n name u := by
  induction h generalizing u with
  | ready hr =>
    obtain ⟨rfl, rfl⟩ := Prod.mk.inj (Option.some.inj ha)
    obtain ⟨hm, e, he, hl⟩ := consult_eq_ready hr
    exact ⟨e.name, hl, .spelled .refl (hs.nameable hx hm he).1⟩
  | barred _ => cases ha
  | unsettled _ _ ih => exact ih ha
  | classless _ _ ih => exact ih ha
  | ofClass hc _ _ ih =>
    obtain ⟨name, hl, hd⟩ := ih ha
    exact ⟨name, hl, hd.of_leads (FrontEnd.leads_of_classTag? hc)⟩
  | classFailed _ _ _ _ _ ih => exact ih ha
  | ofTemplate ht _ ih =>
    rw [Walk.answer_rebind] at ha
    obtain ⟨⟨i, v⟩, hw, he⟩ := Option.map_eq_some_iff.1 ha
    obtain ⟨rfl, rfl⟩ := Prod.mk.inj he
    obtain ⟨name, hl, hd⟩ := ih hw
    exact ⟨name, hl, hd.of_templateTag? ht⟩
  | spelled _ hs =>
    obtain ⟨rfl, rfl⟩ := Prod.mk.inj (Option.some.inj ha)
    obtain ⟨name, hsp, hl⟩ := Outlook.spells_of_search hs
    exact ⟨name, hl, .spelled .refl hsp⟩
  | unwrapped _ _ hu _ ih =>
    obtain ⟨name, hl, hd⟩ := ih ha
    exact ⟨name, hl, hd.of_leads (FrontEnd.leads_of_unwrap? hu)⟩
  | unmatched => cases ha

/-- A walk binds entries only to nodes that their names allow. -/
theorem get?_and_mayBind_of_mem_bindings (hx : lang.Interchangeable) (hs : s.Sound lang)
    (h : s.outlook.Walks lang st start n w) {id : EntryId} {u : Node} (hb : (id, u) ∈ w.bindings) :
    ∃ name, s.registry.get? name = some id ∧ lang.MayBind u name := by
  induction h with
  | ready hr =>
    obtain ⟨rfl, rfl⟩ := Prod.mk.inj (List.mem_singleton.1 hb)
    obtain ⟨hm, e, he, hl⟩ := consult_eq_ready hr
    exact ⟨e.name, Registry.get?_of_lookup? hl, .inl (hs.nameable hx hm he).1⟩
  | barred hr =>
    obtain ⟨rfl, rfl⟩ := Prod.mk.inj (List.mem_singleton.1 hb)
    obtain ⟨hm, -, e, he, hg⟩ := consult_eq_barred hr
    exact ⟨e.name, hg, .inl (hs.nameable hx hm he).1⟩
  | unsettled _ _ ih => exact ih (by simpa [Walk.bindings_after] using hb)
  | classless _ _ ih => exact ih hb
  | ofClass _ _ _ ih => exact ih hb
  | classFailed _ _ _ _ ihc ih =>
    rw [Walk.bindings_after_trail, List.mem_append] at hb
    exact hb.elim ihc ih
  | ofTemplate ht hm ih =>
    rw [Walk.bindings_rebind, List.mem_append] at hb
    refine hb.elim ih fun hb => ?_
    obtain ⟨⟨i, v⟩, hw, he⟩ := Option.map_eq_some_iff.1 (Option.mem_toList.1 hb)
    obtain ⟨rfl, rfl⟩ := Prod.mk.inj he
    obtain ⟨name, hl, hd⟩ := lookup?_and_derives hx hs hm hw
    exact ⟨name, Registry.get?_of_lookup? hl, (hd.of_templateTag? ht).mayBind⟩
  | spelled _ hs =>
    obtain ⟨rfl, rfl⟩ : id = _ ∧ u = _ := by simpa [Walk.bindings_after, Step.binding?] using hb
    obtain ⟨name, hsp, hl⟩ := Outlook.spells_of_search hs
    exact ⟨name, Registry.get?_of_lookup? hl, .inl hsp⟩
  | unwrapped _ _ _ _ ih => exact ih (by simpa [Walk.bindings_after, Step.binding?] using hb)
  | unmatched => simp [Walk.bindings, Step.binding?] at hb

/-- What a walk stores goes by a name of the node and not by a template, and is bound as well. -/
theorem lookup?_and_nameable_of_mem_stores {o : Outlook Key} (h : o.Walks lang st start n w)
    {id : EntryId} {m : Node} (hm : (id, m) ∈ w.stores) :
    (∃ name, o.lookup? name = some id ∧ lang.Nameable m name) ∧ (id, m) ∈ w.bindings := by
  induction h with
  | ready _ | barred _ => simp at hm
  | unsettled _ _ ih => simpa [Walk.bindings_after] using ih (by simpa [Walk.stores_after] using hm)
  | classless _ _ ih => exact ih hm
  | ofClass _ _ _ ih => exact ih hm
  | classFailed _ _ _ _ ihc ih =>
    rw [Walk.stores_after_trail, List.mem_append] at hm
    rw [Walk.bindings_after_trail, List.mem_append]
    rcases hm with hm | hm
    · exact ⟨(ihc hm).1, .inl (ihc hm).2⟩
    · exact ⟨(ih hm).1, .inr (ih hm).2⟩
  | ofTemplate _ _ ih =>
    rw [Walk.stores_rebind] at hm
    rw [Walk.bindings_rebind, List.mem_append]
    exact ⟨(ih hm).1, .inl (ih hm).2⟩
  | spelled ht hs =>
    obtain ⟨rfl, rfl⟩ : id = _ ∧ m = _ := by simpa [Walk.stores_after, Step.store?] using hm
    obtain ⟨name, hsp, hl⟩ := Outlook.spells_of_search hs
    exact ⟨⟨name, hl, hsp, ht⟩, by simp [Walk.bindings_after]⟩
  | unwrapped _ _ _ _ ih =>
    simpa [Walk.bindings_after, Step.binding?] using
      ih (by simpa [Walk.stores_after, Step.store?] using hm)
  | unmatched => simp [Walk.stores, Step.store?] at hm

/-! ## Runs -/

theorem sound_new (r : Registry) : (Session.new r : Session Node Key).Sound lang where
  slots := slots_of_empty fun _ => rfl
  slotsBound k id h := by cases h
  bindings id u h := by cases h

theorem Sound.conclude (hx : lang.Interchangeable) (hs : s.Sound lang)
    (h : s.outlook.Walks lang st start n w) : (s.conclude lang w).session.Sound lang := by
  refine ⟨hs.slots.conclude fun id m hm => (lookup?_and_nameable_of_mem_stores h hm).1,
    fun k id hk => isSome_boundTo?_conclude ?_, fun id u hb => ?_⟩
  · rcases mem_stores_or_get? hk with ⟨m, hm, -⟩ | hk
    · exact .inl ⟨m, (lookup?_and_nameable_of_mem_stores h hm).2⟩
    · exact .inr (hs.slotsBound k id hk)
  · rw [registry_conclude]
    rcases mem_bindings_or_boundTo? hb with hb | hb
    · obtain ⟨name, hg, hm⟩ := get?_and_mayBind_of_mem_bindings hx hs h hb
      obtain ⟨e, he, rfl⟩ := Registry.exists_entry_of_get? hg
      exact ⟨e, he, hm⟩
    · exact hs.bindings id u hb

theorem Sound.extend {s' : Session Node Key} (hs : s.Sound lang) (hr : s.registry.Extends s'.registry)
    (hm : s'.memo = s.memo ∨ s'.memo = .empty) (hb : s'.bound = s.bound) : s'.Sound lang := by
  refine ⟨hs.slots.extend hr hm, fun k id hk => ?_, fun id u hu => ?_⟩
  · rw [boundTo?, hb]
    rcases hm with hm | hm
    · exact hs.slotsBound k id (hm ▸ hk)
    · rw [hm] at hk
      cases hk
  · rw [boundTo?, hb] at hu
    obtain ⟨e, he, hm⟩ := hs.bindings id u hu
    obtain ⟨b, he⟩ := hr.entries id e he
    exact ⟨_, he, hm⟩

theorem Sound.perform (hx : lang.Interchangeable) (hs : s.Sound lang) {a : Action Node}
    {s' : Session Node Key} (h : s.perform lang a = some s') : s'.Sound lang := by
  rcases perform_cases h with ⟨hr, hm, hb⟩ | ⟨n, r, -, hr, rfl⟩
  · exact hs.extend hr hm hb
  · obtain ⟨w, hw, rfl⟩ := resolve?_eq_some_iff.1 hr
    exact hs.conclude hx hw

/-- Slots and bindings are justified after every run. -/
theorem sound_run (hx : lang.Interchangeable) {r : Registry} {as : List (Action Node)}
    (h : (Session.new r).run lang as = some s) : s.Sound lang :=
  of_run (fun _ _ _ hs ha => hs.perform hx ha) (sound_new r) h

/-! ## Slots alone

What is true of the slots needs no assumption on nodes with equal keys. -/

theorem slots_perform {a : Action Node} {s' : Session Node Key} (hs : s.Slots lang lang.Nameable)
    (ha : s.perform lang a = some s') : s'.Slots lang lang.Nameable := by
  rcases perform_cases ha with ⟨hr, hm, -⟩ | ⟨n, r, -, hr, rfl⟩
  · exact hs.extend hr hm
  · obtain ⟨w, hw, rfl⟩ := resolve?_eq_some_iff.1 hr
    exact hs.conclude fun id m hm => (lookup?_and_nameable_of_mem_stores hw hm).1

theorem slots_run {r : Registry} {as : List (Action Node)} (h : (Session.new r).run lang as = some s) :
    s.Slots lang lang.Nameable :=
  of_run (fun _ _ _ hs ha => slots_perform hs ha) (slots_of_empty fun _ => rfl) h

/-- The name of the entry that a slot leads to is that of a node with the key of the slot. -/
theorem Slots.exists_spells_of_get? (hs : s.Slots lang lang.Nameable) {k : Key} {id : EntryId} {e : Entry}
    (hm : s.memo.get? k = some id) (he : s.registry.byId? id = some e) :
    ∃ m, lang.key m = k ∧ lang.Spells m e.name := by
  obtain ⟨m, e', hk, he', hsp, -⟩ := hs k id hm
  obtain rfl : e' = e := Option.some.inj (he'.symm.trans he)
  exact ⟨m, hk, hsp⟩

/-- Where the memo settles a node, a node with its key has a name that is registered. -/
theorem Slots.exists_spells (hs : s.Slots lang lang.Nameable) {k : Key} (h : (s.consult k).isOpen = false) :
    ∃ m id e, lang.key m = k ∧ lang.Spells m e.name ∧ s.memo.get? k = some id ∧
      s.registry.byId? id = some e ∧ s.registry.get? e.name = some id := by
  obtain ⟨id, hm, e, he, hg⟩ := isOpen_eq_false_iff.1 h
  obtain ⟨m, hk, hsp⟩ := hs.exists_spells_of_get? hm he
  exact ⟨m, id, e, hk, hsp, hm, he, hg⟩

/-! ## Main statements -/

/-- **Answers are sound.** After every run, what a resolution answers is the enabled entry that its own
name stands for, and the name is derivable from the node, with the node that the answer gives. -/
theorem answer_derives (hx : lang.Interchangeable) {registry : Registry} {as : List (Action Node)}
    (hs : (Session.new registry).run lang as = some s) {n u : Node} {r : Resolution Node Key}
    (hr : s.resolve? lang n = some r) {id : EntryId} (ha : r.answer = some (id, u)) :
    ∃ e, r.session.registry.byId? id = some e ∧ r.session.registry.lookup? e.name = some id ∧
      lang.Derives n e.name u := by
  have hsound : s.Sound lang := sound_run hx hs
  obtain ⟨w, hw, rfl⟩ := resolve?_eq_some_iff.1 hr
  obtain ⟨name, hl, hd⟩ := lookup?_and_derives hx hsound hw ha
  obtain ⟨e, he, rfl⟩ := Registry.exists_entry_of_lookup? hl
  exact ⟨e, by rwa [registry_conclude], by rwa [registry_conclude], hd⟩

/-- A pointer to a specialization goes by the declaration of the template, past a slot whose entry was
replaced. -/
theorem answer_derives_past_slot :
    ∃ s r e, (Session.new (.new {})).run TypeTerm.plain [.register { name := "V", origin := "a" },
        .resolve (.named "V"), .register { name := "V", origin := "b" }] = some s ∧
      s.resolve? TypeTerm.plain (.pointer (.specialization "V" [] none (some "V"))) = some r ∧
      r.answer = some (1, .specialization "V" [] none (some "V")) ∧
      r.session.registry.byId? 1 = some e ∧ r.session.registry.lookup? e.name = some 1 ∧
      TypeTerm.plain.Derives (.pointer (.specialization "V" [] none (some "V"))) e.name
        (.specialization "V" [] none (some "V")) := by
  let s₂ := (sample.conclude TypeTerm.plain .sample).session.register { name := "V", origin := "b" }
  have hs : (Session.new (.new {})).run TypeTerm.plain [.register { name := "V", origin := "a" },
      .resolve (.named "V"), .register { name := "V", origin := "b" }] = some s₂ :=
    run_resolve (walks_sample _) _
  have h₂ : ∃ w, s₂.outlook.Walks TypeTerm.plain .untried
      (.pointer (.specialization "V" [] none (some "V")))
      (.pointer (.specialization "V" [] none (some "V"))) w ∧ w.answer = some (1, .specialization "V" [] none (some "V")) :=
    ⟨_, .unsettled (by rfl) (.classless rfl (.unwrapped rfl (by rfl) (by rfl) (.unsettled (by rfl)
      (.classless rfl (.ofTemplate (by rfl) (.unsettled (by rfl) (.classless rfl
        (.spelled rfl (by rfl))))))))), rfl⟩
  obtain ⟨w₂, hw₂, ha⟩ := h₂
  have hr := resolve?_of_walks hw₂
  obtain ⟨e, he, hl, hd⟩ := answer_derives (TypeTerm.interchangeable _) hs hr ha
  exact ⟨s₂, _, e, hs, hr, ha, he, hl, hd⟩

/-- **Slots and bindings are sound.** After every run, a slot of the memo leads from a node to a bound entry
that goes by a name of the node and was stored by a registration whose filter admits the target; the node
is no specialization of a template with a declaration. An entry is bound to a node of its name, or to a
specialization whose template derives the name. -/
theorem slots_and_bindings_sound (hx : lang.Interchangeable) {o : Options} {as : List (Action Node)}
    (hs : (Session.new (.new o)).run lang as = some s) :
    (∀ k id, s.memo.get? k = some id → (∃ n, lang.key n = k) ∧
      ∃ e, s.registry.byId? id = some e ∧ (∀ n, lang.key n = k → lang.Spells n e.name) ∧
        e.StemsFrom o (as.flatMap Action.declarations) ∧ (s.boundTo? id).isSome) ∧
    (∀ n id, s.memo.get? (lang.key n) = some id →
      ¬ (lang.isSpecialization n = true ∧ (lang.templateDeclaration? n).isSome)) ∧
    ∀ id u, s.boundTo? id = some u → ∃ e, s.registry.byId? id = some e ∧
      (lang.Spells u e.name ∨ lang.isSpecialization u = true ∧
        ∃ d v, lang.templateDeclaration? u = some d ∧ lang.Derives (lang.tag d) e.name v) := by
  have hsound := sound_run hx hs
  have hstems := run_stems (Registry.stemsFrom_new o) hs
  refine ⟨fun k id hk => ?_, fun n id hk => ?_, hsound.bindings⟩
  · obtain ⟨n, e, rfl, he, hn⟩ := hsound.slots k id hk
    exact ⟨⟨n, rfl⟩, e, he, fun m hm => hx.spells hm.symm hn.1, by simpa using hstems.2 id e he,
      hsound.slotsBound _ id hk⟩
  · obtain ⟨m, e, -, he, -⟩ := hsound.slots _ id hk
    exact FrontEnd.templateTag?_eq_none_iff.1 (hsound.nameable hx hk he).2

/-- The slot that a specialization left behind, whose entry was replaced by one that is switched off. -/
theorem slots_and_bindings_sound_past_template :
    ∃ s e, (Session.new (.new {})).run TypeTerm.plain [.register { name := "V", origin := "a" },
        .resolve (.specialization "V" [] none (some "V")), .register { name := "V", origin := "b" },
        .setEnabled 1 false] = some s ∧
      s.memo.get? (.named "V") = some 0 ∧ s.boundTo? 0 = some (.specialization "V" [] none (some "V")) ∧
      s.registry.byId? 0 = some e ∧ TypeTerm.plain.Spells (.named "V") e.name ∧
      TypeTerm.plain.MayBind (.specialization "V" [] none (some "V")) e.name := by
  let u := TypeTerm.specialization "V" [] none (some "V")
  let s₂ := ((sample.conclude TypeTerm.plain (Walk.sample.rebind u)).session.register
    { name := "V", origin := "b" }).setEnabled 1 false
  have h₁ : sample.outlook.Walks TypeTerm.plain .untried u u (Walk.sample.rebind u) :=
    .unsettled rfl (.classless rfl (.ofTemplate (w := .sample) rfl (walks_sample _)))
  have hs : (Session.new (.new {})).run TypeTerm.plain [.register { name := "V", origin := "a" },
      .resolve u, .register { name := "V", origin := "b" }, .setEnabled 1 false] = some s₂ :=
    run_resolve h₁ _
  obtain ⟨hslots, -, hbindings⟩ := slots_and_bindings_sound (TypeTerm.interchangeable _) hs
  obtain ⟨-, e, he, hsp, -⟩ := hslots (.named "V") 0 rfl
  obtain ⟨e', he', hm⟩ := hbindings 0 u rfl
  obtain rfl := Option.some.inj (he.symm.trans he')
  exact ⟨s₂, e, hs, rfl, rfl, he, hsp _ rfl, hm⟩

end Session

end TypeMapping
