import TypeMapping.Proofs.Slots

/-!
# What a resolution changes

* `Walk.landings`         : the nodes that a walk binds its answer to, the one where it was found first;
* `Outlook.Finds`         : a node that the memo leaves open, with the entry that it goes by;
* `Outlook.Lands`         : how a walk comes to its answer;
* `Resolution.ByTemplate` : the declaration of a template produced the answer;
* `Session.Frame`         : what a resolution leaves as it was, and what it may change.

Main statements: `exists_lands`, a walk with an answer found the entry at one node, in the memo or by a name,
and stores no other; `barred_or_answer_of_mem_bindings`, apart from it only entries that are switched off are
bound; `resolve?_frame`, a resolution changes no more than that.
-/

namespace TypeMapping

variable {Node Decl Key : Type}

/-! ## Landings -/

/-- The node that a step binds the entry of the answer to, with the entry. -/
def Step.landing? : Step Node → Option (EntryId × Node)
  | .bound id n => some (id, n)
  | _ => none

/-- The nodes that the walk binds the entry of its answer to. A second one comes from the declaration of a
template, and is the specialization. -/
def Walk.landings (w : Walk Node) : List (EntryId × Node) := w.trail.filterMap Step.landing?

/-- The declaration of a template produced the answer: the entry was bound to what the declaration came to, and
once more to the specialization. -/
def Resolution.ByTemplate (r : Resolution Node Key) : Prop :=
  2 ≤ (r.trail.filterMap Step.landing?).length

namespace Walk

@[simp] theorem landings_found (id : EntryId) (n : Node) : (found id n).landings = [(id, n)] := rfl

theorem landings_after (steps : List (Step Node)) (w : Walk Node) :
    (w.after steps).landings = steps.filterMap Step.landing? ++ w.landings := List.filterMap_append ..

@[simp] theorem landings_after_trail (c w : Walk Node) :
    (w.after c.trail).landings = c.landings ++ w.landings := landings_after ..

@[simp] theorem landings_rebind (w : Walk Node) (n : Node) :
    (w.rebind n).landings = w.landings ++ (w.answer.map fun a => (a.1, n)).toList := by
  unfold rebind
  split <;> simp_all [landings, Step.landing?]

end Walk

theorem Step.landing?_of_silent {a : Step Node} (h : a.writes = false) : a.landing? = none := by
  cases a <;> simp_all [writes, landing?]

@[simp] theorem Recall.landings_steps (r : Recall) (n : Node) :
    (r.steps n).filterMap Step.landing? = [] :=
  r.filterMap_steps (fun _ => Step.landing?_of_silent) n

namespace Outlook

variable {lang : Language Node Decl Key} {o : Outlook Key}

@[simp] theorem landings_search (n : Node) (ps : List Presentation) :
    (o.search lang n ps).1.filterMap Step.landing? = [] :=
  filterMap_search (fun _ => Step.landing?_of_silent) n ps

/-- The memo leaves the node open, and the entry is what its first name stands for that is enabled. -/
structure Finds (lang : Language Node Decl Key) (o : Outlook Key) (v : Node) (id : EntryId) : Prop where
  isOpen : (o.consult (lang.key v)).isOpen = true
  templateless : lang.templateTag? v = none
  found : (o.search lang v Presentation.searchOrder).2 = some id

/-- How a walk comes to its answer: at `v` the entry is found, and `u` is what the answer gives for `v`. -/
structure Lands (lang : Language Node Decl Key) (o : Outlook Key) (w : Walk Node) (id : EntryId)
    (v u : Node) : Prop where
  /-- The memo leads from `v` to the entry, or a name of `v` does, and `v` is stored. -/
  found : o.consult (lang.key v) = .ready id ∧ w.stores = [] ∨
    o.Finds lang v id ∧ w.stores = [(id, v)]
  /-- The answer gives `v` itself, or a specialization whose template led on. -/
  landed : u = v ∧ w.landings = [(id, v)] ∨ (lang.templateTag? u).isSome ∧ 2 ≤ w.landings.length
  entry : ∀ a ∈ w.landings, a.1 = id
  bound : ∃ bs, w.bindings = bs ++ [(id, u)]

variable {w : Walk Node} {id : EntryId} {v u n : Node}

/-- A node that the memo settles is another one, by its key. -/
theorem Finds.key_ne (h : o.Finds lang v id) (hn : (o.consult (lang.key n)).isOpen = false) :
    lang.key n ≠ lang.key v := by
  intro hk
  rw [hk, h.isOpen] at hn
  cases hn

theorem Lands.after (h : o.Lands lang w id v u) {steps : List (Step Node)}
    (hs : steps.filterMap Step.store? = []) (hl : steps.filterMap Step.landing? = []) :
    o.Lands lang (w.after steps) id v u where
  found := by simpa only [Walk.stores_after, hs, List.nil_append] using h.found
  landed := by simpa only [Walk.landings_after, hl, List.nil_append] using h.landed
  entry := by simpa only [Walk.landings_after, hl, List.nil_append] using h.entry
  bound := by
    obtain ⟨bs, hb⟩ := h.bound
    exact ⟨_, by rw [Walk.bindings_after, hb, ← List.append_assoc]⟩

theorem Lands.rebind (h : o.Lands lang w id v u) (ha : w.answer = some (id, u)) {m : Node}
    (ht : lang.templateTag? n = some m) : o.Lands lang (w.rebind n) id v n where
  found := by simpa only [Walk.stores_rebind] using h.found
  landed := by
    have hlong : 1 ≤ w.landings.length := by
      rcases h.landed with ⟨-, hl⟩ | ⟨-, hl⟩
      · simp [hl]
      · omega
    exact .inr ⟨by simp [ht], by simpa [ha] using hlong⟩
  entry := by simpa [ha, or_imp, forall_and] using h.entry
  bound := ⟨w.bindings, by simp [ha]⟩

variable [DecidableEq Key] {st : Stage} {start : Node}

/-- A walk without an answer lands nowhere. -/
theorem landings_eq_nil (h : o.Walks lang st start n w) (ha : w.answer = none) : w.landings = [] :=
  filterMap_eq_nil_of_answer (fun a hl => by cases a <;> simp_all [Step.isLanding, Step.landing?]) h ha

/-- A walk with an answer found its entry at one node. A node past its memo has to be open, so that what is
stored was not in the memo. -/
theorem exists_lands (h : o.Walks lang st start n w)
    (hst : st ≠ .untried → (o.consult (lang.key n)).isOpen = true) (ha : w.answer = some (id, u)) :
    ∃ v, o.Lands lang w id v u := by
  induction h generalizing u with
  | @ready _ n _ hr =>
    obtain ⟨rfl, rfl⟩ := Prod.mk.inj (Option.some.inj ha)
    exact ⟨n, .inl ⟨hr, rfl⟩, .inl ⟨rfl, rfl⟩, by simp, [], rfl⟩
  | barred _ => cases ha
  | unsettled hr _ ih =>
    obtain ⟨v, hv⟩ := ih (fun _ => hr) ha
    exact ⟨v, hv.after (Recall.stores_steps _ _) (Recall.landings_steps _ _)⟩
  | classless _ _ ih => exact ih (fun _ => hst (by simp)) ha
  | ofClass _ _ _ ih => exact ih (by simp) ha
  | classFailed _ hm hca _ _ ih =>
    obtain ⟨v, hv⟩ := ih (fun _ => hst (by simp)) ha
    exact ⟨v, hv.after (Session.stores_eq_nil hm hca) (landings_eq_nil hm hca)⟩
  | ofTemplate ht _ ih =>
    rw [Walk.answer_rebind] at ha
    obtain ⟨⟨i, u'⟩, hw, he⟩ := Option.map_eq_some_iff.1 ha
    obtain ⟨rfl, rfl⟩ := Prod.mk.inj he
    obtain ⟨v, hv⟩ := ih (by simp) hw
    exact ⟨v, hv.rebind hw ht⟩
  | @spelled _ n _ ht hs =>
    obtain ⟨rfl, rfl⟩ := Prod.mk.inj (Option.some.inj ha)
    refine ⟨n, .inr ⟨⟨hst (by simp), ht, hs⟩, ?_⟩, .inl ⟨rfl, ?_⟩, ?_, ?_⟩
    · simp [Walk.stores_after, Step.store?]
    · simp [Walk.landings_after, Step.landing?]
    · simp [Walk.landings_after, Step.landing?]
    · exact ⟨[], by simp [Walk.bindings_after, Step.binding?]⟩
  | unwrapped _ _ _ _ ih =>
    obtain ⟨v, hv⟩ := ih (by simp) ha
    exact ⟨v, hv.after (by simp [Step.store?]) (by simp [Step.landing?])⟩
  | unmatched => cases ha

theorem stores_cases (h : o.Walks lang .untried n n w) :
    w.stores = [] ∨ ∃ id v, w.stores = [(id, v)] ∧ o.Finds lang v id := by
  cases ha : w.answer with
  | none => exact .inl (Session.stores_eq_nil h ha)
  | some a =>
    obtain ⟨v, hv⟩ : ∃ v, o.Lands lang w a.1 v a.2 := exists_lands h (by simp) ha
    rcases hv.found with ⟨-, hs⟩ | ⟨hf, hs⟩
    · exact .inl hs
    · exact .inr ⟨a.1, v, hs, hf⟩

/-- A walk that binds an entry as the one it came to has it for its answer. -/
theorem answer_of_mem_bound (h : o.Walks lang .untried n n w) {f : EntryId} {m : Node}
    (hb : .bound f m ∈ w.trail) : ∃ u, w.answer = some (f, u) := by
  have hl : (f, m) ∈ w.landings := List.mem_filterMap.2 ⟨_, hb, rfl⟩
  cases ha : w.answer with
  | none =>
    rw [landings_eq_nil h ha] at hl
    cases hl
  | some a =>
    obtain ⟨id, u⟩ := a
    obtain ⟨v, hv⟩ := exists_lands h (by simp) ha
    obtain rfl : f = id := hv.entry _ hl
    exact ⟨u, rfl⟩

/-- Where a walk was barred, the memo leads to an entry that is switched off. -/
theorem consult_of_mem_barred (h : o.Walks lang st start n w) {f : EntryId} {m : Node}
    (hb : .barred f m ∈ w.trail) : o.consult (lang.key m) = .barred f := by
  induction h with
  | ready _ => simp [Walk.found] at hb
  | barred hr =>
    obtain ⟨rfl, rfl⟩ : f = _ ∧ m = _ := by simpa using hb
    exact hr
  | unsettled _ _ ih =>
    rcases List.mem_append.1 hb with hb | hb
    · cases Recall.writes_of_mem_steps hb
    · exact ih hb
  | classless _ _ ih => exact ih hb
  | ofClass _ _ _ ih => exact ih hb
  | classFailed _ _ _ _ ihc ih => exact (List.mem_append.1 hb).elim ihc ih
  | @ofTemplate _ _ _ w _ _ ih =>
    unfold Walk.rebind at hb
    split at hb
    · exact ih (by simpa using hb)
    · exact ih hb
  | spelled _ _ =>
    rw [Walk.trail_after, List.append_assoc] at hb
    rcases List.mem_append.1 hb with hb | hb
    · cases writes_of_mem_search hb
    · simp [Walk.found] at hb
  | unwrapped _ _ _ _ ih =>
    rw [Walk.trail_after, List.append_assoc] at hb
    rcases List.mem_append.1 hb with hb | hb
    · cases writes_of_mem_search hb
    · exact ih (by simpa using hb)
  | unmatched =>
    rcases List.mem_append.1 hb with hb | hb
    · cases writes_of_mem_search hb
    · simp at hb

/-- A walk binds the entry of its answer, and otherwise only entries that are switched off, to nodes from which
the memo leads to them. -/
theorem barred_or_answer_of_mem_bindings (h : o.Walks lang .untried n n w) {f : EntryId} {m : Node}
    (hb : (f, m) ∈ w.bindings) :
    (.barred f m ∈ w.trail ∧ o.consult (lang.key m) = .barred f) ∨ ∃ u, w.answer = some (f, u) := by
  obtain ⟨a, ha, hab⟩ := List.mem_filterMap.1 hb
  cases a with
  | bound _ _ =>
    obtain ⟨rfl, rfl⟩ := Prod.mk.inj (Option.some.inj hab)
    exact .inr (answer_of_mem_bound h ha)
  | barred _ _ =>
    obtain ⟨rfl, rfl⟩ := Prod.mk.inj (Option.some.inj hab)
    exact .inl ⟨ha, consult_of_mem_barred h ha⟩
  | superseded _ _ | rendered _ _ _ _ | unwrapped _ _ _ | stored _ _ | unmatched _ => cases hab

end Outlook

namespace Session

variable [DecidableEq Key] {lang : Language Node Decl Key} {s : Session Node Key}

/-! ## The frame of a resolution -/

/-- What a resolution leaves as it was, and what it may change. -/
structure Frame (lang : Language Node Decl Key) (s : Session Node Key) (r : Resolution Node Key) :
    Prop where
  /-- Names, entries, switches and collisions stay. -/
  registry : r.session.registry = s.registry
  /-- Without an answer the memo stays. -/
  failed : r.answer = none → r.session.memo = s.memo
  /-- With an answer, one slot may change, and it leads to the entry of the answer. -/
  stored : ∀ id u, r.answer = some (id, u) →
    r.session.memo = s.memo ∨ ∃ k, r.session.memo = s.memo.insert k id
  slot : ∀ id u, r.answer = some (id, u) → ∃ k, r.session.memo.get? k = some id
  /-- The slot of the node that the answer gives is one, if no template produced the answer. -/
  direct : ∀ id u, r.answer = some (id, u) → ¬ r.ByTemplate →
    r.session.memo.get? (lang.key u) = some id
  template : ∀ id u, r.answer = some (id, u) → r.ByTemplate → (lang.templateTag? u).isSome
  bound : ∀ id u, r.answer = some (id, u) → r.session.boundTo? id = some u
  /-- Another entry is bound to a node only if it has its name and is switched off, and the memo leads from the
  node to it. -/
  others : ∀ f, (∀ u, r.answer ≠ some (f, u)) → r.session.boundTo? f ≠ s.boundTo? f →
    s.registry.isCurrent f = true ∧ s.registry.isEnabled f = false ∧
      ∃ m, r.session.boundTo? f = some m ∧ r.session.memo.get? (lang.key m) = some f
  /-- Another entry that is switched on is not even bound to the node that it was bound to. -/
  enabled : ∀ f, (∀ u, r.answer ≠ some (f, u)) → s.registry.isEnabled f = true →
    ∀ m, .bound f m ∉ r.trail ∧ .barred f m ∉ r.trail

variable {n : Node} {w : Walk Node}

theorem memo_conclude_of_stores_eq {id : EntryId} {v : Node} (h : w.stores = [(id, v)]) :
    (s.conclude lang w).session.memo = s.memo.insert (lang.key v) id := by
  rw [memo_conclude, h, List.foldl_cons, List.foldl_nil]

theorem memo_conclude_of_stores_eq_nil (h : w.stores = []) :
    (s.conclude lang w).session.memo = s.memo := by
  rw [memo_conclude, h, List.foldl_nil]

/-- The node at which the entry of an answer was found has a slot with the entry afterwards. -/
theorem get?_conclude_of_lands {id : EntryId} {v u : Node} (h : s.outlook.Lands lang w id v u) :
    (s.conclude lang w).session.memo.get? (lang.key v) = some id := by
  rcases h.found with ⟨hr, hs⟩ | ⟨-, hs⟩
  · rw [memo_conclude_of_stores_eq_nil hs]
    exact (consult_eq_ready hr).1
  · rw [memo_conclude_of_stores_eq hs, Dict.get?_insert, if_pos rfl]

/-- The slot of an entry that is switched off stays: what is stored was not settled by the memo. -/
theorem get?_conclude_of_barred (hw : s.outlook.Walks lang .untried n n w) {m : Node} {f : EntryId}
    (hr : s.consult (lang.key m) = .barred f) :
    (s.conclude lang w).session.memo.get? (lang.key m) = some f := by
  have hm := (consult_eq_barred hr).1
  cases ha : w.answer with
  | none => rwa [memo_conclude_of_stores_eq_nil (stores_eq_nil hw ha)]
  | some a =>
    obtain ⟨id, u⟩ := a
    obtain ⟨v, hv⟩ := Outlook.exists_lands hw (by simp) ha
    rcases hv.found with ⟨-, hs⟩ | ⟨hf, hs⟩
    · rwa [memo_conclude_of_stores_eq_nil hs]
    · have hk : lang.key m ≠ lang.key v := hf.key_ne (congrArg Recall.isOpen hr)
      rwa [memo_conclude_of_stores_eq hs, Dict.get?_insert, if_neg hk.symm]

/-- **A resolution changes nothing else.** The registry stays. The memo stays without an answer, and otherwise
gets at most one slot, of the entry of the answer, which is bound to the node of the answer. Other entries are
bound only where the memo leads to them and they are switched off. -/
theorem resolve?_frame {r : Resolution Node Key} (h : s.resolve? lang n = some r) : s.Frame lang r := by
  obtain ⟨w, hw, rfl⟩ := resolve?_eq_some_iff.1 h
  have hlands : ∀ id u, w.answer = some (id, u) → ∃ v, s.outlook.Lands lang w id v u :=
    fun _ _ ha => Outlook.exists_lands hw (by simp) ha
  have hbarred : ∀ f m, (∀ u, w.answer ≠ some (f, u)) → (f, m) ∈ w.bindings →
      s.consult (lang.key m) = .barred f := fun f m hf hb =>
    ((Outlook.barred_or_answer_of_mem_bindings hw hb).resolve_right fun ⟨u, hu⟩ => hf u hu).2
  refine {
    registry := registry_conclude
    failed := fun ha => memo_conclude_of_stores_eq_nil (stores_eq_nil hw ha)
    stored := fun id u ha => ?_
    slot := fun id u ha => ?_
    direct := fun id u ha hd => ?_
    template := fun id u ha ht => ?_
    bound := fun id u ha => ?_
    others := fun f hf hne => ?_
    enabled := fun f hf he m => ?_ }
  · obtain ⟨v, hv⟩ := hlands id u ha
    rcases hv.found with ⟨-, hs⟩ | ⟨-, hs⟩
    · exact .inl (memo_conclude_of_stores_eq_nil hs)
    · exact .inr ⟨_, memo_conclude_of_stores_eq hs⟩
  · obtain ⟨v, hv⟩ := hlands id u ha
    exact ⟨_, get?_conclude_of_lands hv⟩
  · obtain ⟨v, hv⟩ := hlands id u ha
    rcases hv.landed with ⟨rfl, -⟩ | ⟨-, ht⟩
    · exact get?_conclude_of_lands hv
    · exact absurd ht hd
  · obtain ⟨v, hv⟩ := hlands id u ha
    rcases hv.landed with ⟨-, hl⟩ | ⟨hs, -⟩
    · have hlong : 2 ≤ w.landings.length := ht
      simp [hl] at hlong
    · exact hs
  · obtain ⟨v, hv⟩ := hlands id u ha
    obtain ⟨bs, hb⟩ := hv.bound
    rw [boundTo?_conclude, Walk.boundBy?_of_bindings_eq hb, Option.some_or]
  · rw [boundTo?_conclude] at hne ⊢
    cases hm : w.boundBy? f with
    | none => simp [hm] at hne
    | some m =>
      have hr := hbarred f m hf (Walk.mem_bindings_of_boundBy? hm)
      obtain ⟨-, hoff, hcur⟩ := consult_eq_barred hr
      exact ⟨Registry.isCurrent_eq_true_iff.2 hcur, hoff, m, rfl, get?_conclude_of_barred hw hr⟩
  · have hnot : (f, m) ∉ w.bindings := by
      intro hb
      have hoff := (consult_eq_barred (hbarred f m hf hb)).2.1
      rw [he] at hoff
      cases hoff
    exact ⟨fun hb => hnot (List.mem_filterMap.2 ⟨_, hb, rfl⟩),
      fun hb => hnot (List.mem_filterMap.2 ⟨_, hb, rfl⟩)⟩

/-- A specialization goes by its template, past a class whose entry is switched off: that entry moves from the
specialization that it was bound to last to the class, where the memo leads to it. -/
theorem resolve?_frame_past_barred :
    ∃ s r, (Session.new (.new {})).run TypeTerm.plain [.register { name := "V", origin := "a" },
        .register { name := "W", origin := "a" }, .resolve (.named "V"),
        .resolve (.specialization "T" [] none (some "V")), .setEnabled 0 false] = some s ∧
      s.resolve? TypeTerm.plain (.specialization "X" [] (some "V") (some "W")) = some r ∧
      r.answer = some (1, .specialization "X" [] (some "V") (some "W")) ∧
      s.boundTo? 0 = some (.specialization "T" [] none (some "V")) ∧
      r.session.boundTo? 0 = some (.named "V") ∧ s.Frame TypeTerm.plain r := by
  let s₀ : Session TypeTerm TypeTerm := sample.register { name := "W", origin := "a" }
  let s₁ := (s₀.conclude TypeTerm.plain .sample).session
  let t : TypeTerm := .specialization "T" [] none (some "V")
  let w₁ : Walk TypeTerm := (Walk.found 0 (.named "V")).rebind t
  let s := (s₁.conclude TypeTerm.plain w₁).session.setEnabled 0 false
  let n : TypeTerm := .specialization "X" [] (some "V") (some "W")
  have h₀ : s₀.outlook.Walks TypeTerm.plain .untried (.named "V") (.named "V") .sample :=
    .unsettled rfl (.classless rfl (.spelled rfl rfl))
  have h₁ : s₁.outlook.Walks TypeTerm.plain .untried t t w₁ :=
    .unsettled rfl (.classless rfl (.ofTemplate rfl (.ready rfl)))
  have hs : (Session.new (.new {})).run TypeTerm.plain [.register { name := "V", origin := "a" },
      .register { name := "W", origin := "a" }, .resolve (.named "V"), .resolve t,
      .setEnabled 0 false] = some s :=
    (run_resolve h₀ _).trans (run_resolve h₁ _)
  have hV : s.outlook.Walks TypeTerm.plain .untried (.named "V") (.named "V") ⟨[.barred 0 (.named "V")], none⟩ :=
    .barred rfl
  have hW : s.outlook.Walks TypeTerm.plain .classless (.named "W") (.named "W")
      ((Walk.found 1 (.named "W")).after ([.rendered (.named "W") {} "W" true] ++ [.stored 1 (.named "W")])) :=
    .spelled rfl rfl
  obtain ⟨w, hw, ha, hb⟩ : ∃ w, s.outlook.Walks TypeTerm.plain .untried n n w ∧ w.answer = some (1, n) ∧
      w.bindings = [(0, .named "V"), (1, .named "W"), (1, n)] :=
    ⟨_, .unsettled rfl (.classFailed rfl hV rfl (.ofTemplate rfl (.unsettled rfl (.classless rfl hW)))), rfl,
      by simp [Walk.bindings_after, List.filterMap_cons, Step.binding?]⟩
  have hr := resolve?_of_walks hw
  refine ⟨s, _, hs, hr, ha, rfl, ?_, resolve?_frame hr⟩
  rw [boundTo?_conclude, Walk.boundBy?, hb]
  rfl

end Session

end TypeMapping
