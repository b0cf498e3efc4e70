import TypeMapping.Proofs.Derivation
import TypeMapping.Proofs.Effect

/-!
# Walks that are alike

A walk sees of a node no more than its key, its names and what it leads to, and it makes nothing of the number of
an entry.

* `Walk.renderings`   : the number of names that a walk gives to nodes;
* `Language.Respects` : what a view of the nodes has to keep apart;
* `Outlook.Alike`     : outlooks that say the same, but for the numbers of the entries;
* `Walk.Alike`        : walks to the same answer, by as many names;
* `Walk.Prolongs`     : a walk that comes to the same as another one and writes the same, by more names.

Main statements: `Alike.exists_walks`, nodes of one view have walks that are alike under outlooks that are alike;
`exists_walks_restart`, the node that a resolution began with leaves no trace in what it comes to.
-/

namespace TypeMapping

variable {Node Decl Key α β : Type}

/-! ## Renderings -/

/-- Does the step give a node a name? -/
def Step.isRendering : Step Node → Bool
  | .rendered .. => true
  | _ => false

/-- The number of names that the walk gives to nodes. -/
def Walk.renderings (w : Walk Node) : Nat := w.trail.countP Step.isRendering

/-- The number of names that the resolution gave to nodes. -/
def Resolution.renderings (r : Resolution Node Key) : Nat := r.trail.countP Step.isRendering

namespace Walk

theorem renderings_after (steps : List (Step Node)) (w : Walk Node) :
    (w.after steps).renderings = steps.countP Step.isRendering + w.renderings := List.countP_append

@[simp] theorem renderings_found (id : EntryId) (n : Node) : (found id n).renderings = 0 := rfl

@[simp] theorem renderings_rebind (w : Walk Node) (n : Node) : (w.rebind n).renderings = w.renderings := by
  unfold rebind
  split <;> simp [renderings, Step.isRendering]

end Walk

@[simp] theorem Recall.renderings_steps (r : Recall) (n : Node) :
    (r.steps n).countP Step.isRendering = 0 := by
  cases r <;> rfl

/-! ## Views of nodes -/

/-- Nodes that look the same to `g` have the same key and the same names, and lead to nodes that look the same. -/
structure Language.Respects [DecidableEq Key] (lang : Language Node Decl Key) (g : Node → β) : Prop where
  key : ∀ {n m}, g n = g m → lang.key n = lang.key m
  render : ∀ {n m}, g n = g m → lang.render n = lang.render m
  classTag : ∀ {n m}, g n = g m → (lang.classTag? n).map g = (lang.classTag? m).map g
  templateTag : ∀ {n m}, g n = g m → (lang.templateTag? n).map g = (lang.templateTag? m).map g
  unwrap : ∀ {n m}, g n = g m →
    (lang.unwrap? n).map (fun p => g p.2) = (lang.unwrap? m).map fun p => g p.2

theorem Language.Interchangeable.respects [DecidableEq Key] {lang : Language Node Decl Key}
    (hx : lang.Interchangeable) : lang.Respects lang.key where
  key := id
  render := hx.render
  classTag := hx.classTag
  templateTag := hx.templateTag
  unwrap := hx.unwrap

theorem Language.respects_id [DecidableEq Key] (lang : Language Node Decl Key) : lang.Respects id where
  key h := congrArg lang.key h
  render h := congrArg lang.render h
  classTag h := congrArg (fun n => (lang.classTag? n).map id) h
  templateTag h := congrArg (fun n => (lang.templateTag? n).map id) h
  unwrap h := congrArg (fun n => (lang.unwrap? n).map fun p => p.2) h

/-! ## Outlooks that say the same -/

/-- Two memos say the same of a node, where `f` and `f'` tell which numbers stand for the same entry. -/
inductive Recall.Alike (f f' : EntryId → α) : Recall → Recall → Prop
  | isOpen {r r' : Recall} (h : r.isOpen = true) (h' : r'.isOpen = true) : Recall.Alike f f' r r'
  | barred (id id' : EntryId) : Recall.Alike f f' (.barred id) (.barred id')
  | ready {id id' : EntryId} (h : f id = f' id') : Recall.Alike f f' (.ready id) (.ready id')

namespace Recall.Alike

variable {f f' : EntryId → α} {r r' : Recall} {id : EntryId}

theorem refl (f : EntryId → α) : ∀ r : Recall, Recall.Alike f f r r
  | .absent | .superseded _ => .isOpen rfl rfl
  | .barred id => .barred id id
  | .ready _ => .ready rfl

theorem of_ready (h : Recall.Alike f f' (.ready id) r') : ∃ id', r' = .ready id' ∧ f id = f' id' := by
  cases h with
  | isOpen h _ => cases h
  | ready h => exact ⟨_, rfl, h⟩

theorem of_barred (h : Recall.Alike f f' (.barred id) r') : ∃ id', r' = .barred id' := by
  cases h with
  | isOpen h _ => cases h
  | barred _ id' => exact ⟨id', rfl⟩

theorem of_isOpen (h : Recall.Alike f f' r r') (hr : r.isOpen = true) : r'.isOpen = true := by
  cases h with
  | isOpen _ h' => exact h'
  | barred | ready => cases hr

end Recall.Alike

/-- Two walks come to the same answer by as many names. -/
structure Walk.Alike (f f' : EntryId → α) (g : Node → β) (w w' : Walk Node) : Prop where
  answer : w.answer.map (Prod.map f g) = w'.answer.map (Prod.map f' g)
  renderings : w.renderings = w'.renderings

namespace Walk.Alike

variable {f f' : EntryId → α} {g : Node → β} {c c' w w' : Walk Node}

theorem answer_ne_none (h : w.Alike f f' g w') (ha : w.answer ≠ none) : w'.answer ≠ none := by
  intro ha'
  have heq := h.answer
  rw [ha', Option.map_none, Option.map_eq_none_iff] at heq
  exact ha heq

theorem answer_eq_none (h : w.Alike f f' g w') (ha : w.answer = none) : w'.answer = none := by
  have heq := h.answer
  rw [ha, Option.map_none] at heq
  exact Option.map_eq_none_iff.1 heq.symm

theorem after (h : w.Alike f f' g w') {steps steps' : List (Step Node)}
    (hs : steps.countP Step.isRendering = steps'.countP Step.isRendering) :
    (w.after steps).Alike f f' g (w'.after steps') where
  answer := h.answer
  renderings := by rw [renderings_after, renderings_after, hs, h.renderings]

theorem rebind (h : w.Alike f f' g w') {n n' : Node} (hn : g n = g n') :
    (w.rebind n).Alike f f' g (w'.rebind n') where
  answer := by
    have hid := congrArg (Option.map fun a => (a.1, g n)) h.answer
    simpa [Function.comp_def, hn] using hid
  renderings := by rw [renderings_rebind, renderings_rebind, h.renderings]

end Walk.Alike

namespace Outlook

/-- Two outlooks say the same of all nodes and names, but for the numbers of the entries. -/
structure Alike (f f' : EntryId → α) (o o' : Outlook Key) : Prop where
  consult : ∀ k, Recall.Alike f f' (o.consult k) (o'.consult k)
  lookup : ∀ name, (o.lookup? name).map f = (o'.lookup? name).map f'

theorem Alike.refl (f : EntryId → α) (o : Outlook Key) : Alike f f o o :=
  ⟨fun k => .refl f (o.consult k), fun _ => rfl⟩

variable {f f' : EntryId → α} {o o' : Outlook Key} {g : Node → β}

theorem Alike.search {lang : Language Node Decl Key} (ho : Alike f f' o o') {n n' : Node}
    (hn : lang.render n = lang.render n') (ps : List Presentation) :
    (o.search lang n ps).2.map f = (o'.search lang n' ps).2.map f' ∧
      (o.search lang n ps).1.countP Step.isRendering = (o'.search lang n' ps).1.countP Step.isRendering := by
  induction ps with
  | nil => exact ⟨rfl, rfl⟩
  | cons p ps ih =>
    have hl := ho.lookup (lang.render n p)
    simp only [Outlook.search, ← hn]
    cases h : o.lookup? (lang.render n p) with
    | some id =>
      obtain ⟨id', h', hf⟩ := Option.map_eq_some_iff.1 (hl.symm.trans (by rw [h]; rfl))
      simp [h', hf, Step.isRendering]
    | none =>
      have h' : o'.lookup? (lang.render n p) = none := by simpa [h] using hl.symm
      simp [h', ih, List.countP_cons, Step.isRendering]

/-- **Walks are alike.** From nodes of one view, under outlooks that say the same. -/
theorem Alike.exists_walks [DecidableEq Key] {lang : Language Node Decl Key} (ho : Alike f f' o o')
    (hg : lang.Respects g) {st : Stage} {start n n' : Node} {w : Walk Node} (h : o.Walks lang st start n w)
    (start' : Node) (hn : g n = g n') : ∃ w', o'.Walks lang st start' n' w' ∧ w.Alike f f' g w' := by
  have hconsult : ∀ {n n' : Node}, g n = g n' →
      Recall.Alike f f' (o.consult (lang.key n)) (o'.consult (lang.key n')) := fun hn =>
    hg.key hn ▸ ho.consult _
  induction h generalizing start' n' with
  | ready hr =>
    obtain ⟨id', hr', hf⟩ := (hr ▸ hconsult hn).of_ready
    exact ⟨_, .ready hr', by simp [hf, hn], rfl⟩
  | barred hr =>
    obtain ⟨id', hr'⟩ := (hr ▸ hconsult hn).of_barred
    exact ⟨_, .barred hr', rfl, rfl⟩
  | unsettled hr _ ih =>
    obtain ⟨w', hw', ha⟩ := ih start' hn
    exact ⟨_, .unsettled ((hconsult hn).of_isOpen hr) hw', ha.after (by simp)⟩
  | classless hc _ ih =>
    obtain ⟨w', hw', ha⟩ := ih start' hn
    exact ⟨w', .classless (eq_none_of_map_eq_map (hg.classTag hn) hc) hw', ha⟩
  | ofClass hc _ hne ih =>
    obtain ⟨m', hc', hm⟩ := exists_of_map_eq_map (hg.classTag hn) hc
    obtain ⟨w', hw', ha⟩ := ih m' hm
    exact ⟨w', .ofClass hc' hw' (ha.answer_ne_none hne), ha⟩
  | classFailed hc _ hca _ ihc ih =>
    obtain ⟨m', hc', hm⟩ := exists_of_map_eq_map (hg.classTag hn) hc
    obtain ⟨c', hcw, hcl⟩ := ihc m' hm
    obtain ⟨w', hw', ha⟩ := ih start' hn
    exact ⟨_, .classFailed hc' hcw (hcl.answer_eq_none hca) hw', ha.after hcl.renderings⟩
  | ofTemplate ht _ ih =>
    obtain ⟨m', ht', hm⟩ := exists_of_map_eq_map (hg.templateTag hn) ht
    obtain ⟨w', hw', ha⟩ := ih m' hm
    exact ⟨_, .ofTemplate ht' hw', ha.rebind hn⟩
  | spelled ht hs =>
    obtain ⟨hl, hcount⟩ := ho.search (hg.render hn) Presentation.searchOrder
    obtain ⟨id', hs', hf⟩ := Option.map_eq_some_iff.1 (hl.symm.trans (by rw [hs]; rfl))
    exact ⟨_, .spelled (eq_none_of_map_eq_map (hg.templateTag hn) ht) hs', by simp [hf, hn],
      by simp [Walk.renderings_after, hcount, Step.isRendering]⟩
  | unwrapped ht hs hu _ ih =>
    obtain ⟨hl, hcount⟩ := ho.search (hg.render hn) Presentation.searchOrder
    have hs' := Option.map_eq_none_iff.1 (hl.symm.trans (by rw [hs]; rfl))
    obtain ⟨⟨layer, m'⟩, hu', hm⟩ := exists_of_map_eq_map (hg.unwrap hn) hu
    obtain ⟨w', hw', ha⟩ := ih start' hm
    exact ⟨_, .unwrapped (eq_none_of_map_eq_map (hg.templateTag hn) ht) hs' hu' hw',
      ha.after (by simp [hcount, Step.isRendering])⟩
  | unmatched ht hs hu =>
    obtain ⟨hl, hcount⟩ := ho.search (hg.render hn) Presentation.searchOrder
    have hs' := Option.map_eq_none_iff.1 (hl.symm.trans (by rw [hs]; rfl))
    exact ⟨_, .unmatched (eq_none_of_map_eq_map (hg.templateTag hn) ht) hs'
      (eq_none_of_map_eq_map (hg.unwrap hn) hu), rfl,
      by simp [Walk.renderings, hcount, Step.isRendering]⟩

end Outlook

/-! ## Longer walks -/

namespace Walk

/-- The first walk comes to the answer of the second one and writes the same, and it gives nodes `k` names more. -/
structure Prolongs (w' : Walk Node) (k : Nat) (w : Walk Node) : Prop where
  answer : w'.answer = w.answer
  stores : w'.stores = w.stores
  bindings : w'.bindings = w.bindings
  renderings : w'.renderings = w.renderings + k

variable {u v w w' : Walk Node} {k l : Nat} {steps : List (Step Node)}

theorem Prolongs.refl (w : Walk Node) : w.Prolongs 0 w := ⟨rfl, rfl, rfl, rfl⟩

theorem Prolongs.trans (h : u.Prolongs l v) (h' : v.Prolongs k w) : u.Prolongs (k + l) w where
  answer := h.answer.trans h'.answer
  stores := h.stores.trans h'.stores
  bindings := h.bindings.trans h'.bindings
  renderings := by rw [h.renderings, h'.renderings, Nat.add_assoc]

theorem Prolongs.after (h : w'.Prolongs k w) (steps : List (Step Node)) :
    (w'.after steps).Prolongs k (w.after steps) where
  answer := h.answer
  stores := by rw [stores_after, stores_after, h.stores]
  bindings := by rw [bindings_after, bindings_after, h.bindings]
  renderings := by rw [renderings_after, renderings_after, h.renderings, Nat.add_assoc]

/-- Steps that write nothing make a walk longer. -/
theorem prolongs_after (h : ∀ a ∈ steps, a.writes = false) (w : Walk Node) :
    (w.after steps).Prolongs (steps.countP Step.isRendering) w where
  answer := rfl
  stores := by
    have hnone : steps.filterMap Step.store? = [] :=
      List.filterMap_eq_nil_iff.2 fun a ha => Step.store?_of_silent (h a ha)
    rw [stores_after, hnone, List.nil_append]
  bindings := by
    have hnone : steps.filterMap Step.binding? = [] :=
      List.filterMap_eq_nil_iff.2 fun a ha => Step.binding?_of_silent (h a ha)
    rw [bindings_after, hnone, List.nil_append]
  renderings := by rw [renderings_after, Nat.add_comm]

/-- To pass over an outdated memo takes no name. -/
theorem prolongs_recall (r : Recall) (n : Node) (w : Walk Node) : (w.after (r.steps n)).Prolongs 0 w := by
  simpa using prolongs_after (fun _ ha => Recall.writes_of_mem_steps (r := r) (n := n) ha) w

end Walk

/-- The node that a resolution began with is read only where a walk fails, for the record. -/
theorem Outlook.exists_walks_restart [DecidableEq Key] {lang : Language Node Decl Key} {o : Outlook Key} {st : Stage}
    {start n : Node} {w : Walk Node} (h : o.Walks lang st start n w) (start' : Node) :
    ∃ w', o.Walks lang st start' n w' ∧ w'.Prolongs 0 w := by
  induction h with
  | ready hr => exact ⟨_, .ready hr, .refl _⟩
  | barred hr => exact ⟨_, .barred hr, .refl _⟩
  | unsettled hr _ ih =>
    obtain ⟨w', hw', hp⟩ := ih
    exact ⟨_, .unsettled hr hw', hp.after _⟩
  | classless hc _ ih =>
    obtain ⟨w', hw', hp⟩ := ih
    exact ⟨w', .classless hc hw', hp⟩
  -- declarations are resolved on their own, whatever the resolution began with
  | ofClass hc hm ha _ => exact ⟨_, .ofClass hc hm ha, .refl _⟩
  | classFailed hc hm ha _ _ ih =>
    obtain ⟨w', hw', hp⟩ := ih
    exact ⟨_, .classFailed hc hm ha hw', hp.after _⟩
  | ofTemplate ht hm _ => exact ⟨_, .ofTemplate ht hm, .refl _⟩
  | spelled ht hs => exact ⟨_, .spelled ht hs, .refl _⟩
  | unwrapped ht hs hu _ ih =>
    obtain ⟨w', hw', hp⟩ := ih
    exact ⟨_, .unwrapped ht hs hu hw', hp.after _⟩
  | unmatched ht hs hu =>
    refine ⟨_, .unmatched ht hs hu, rfl, ?_, ?_, ?_⟩
    · simp [Walk.stores, List.filterMap_cons, Step.store?]
    · simp [Walk.bindings, List.filterMap_cons, Step.binding?]
    · simp [Walk.renderings, Step.isRendering]

end TypeMapping
