import TypeMapping.Proofs.Frame
import TypeMapping.Proofs.Soundness

/-!
# Resolving a node twice

The first resolution may fill a slot of the memo, so that the second one reads another session.

* `Outlook.remember`   : an outlook with one more slot in the memo;
* `Walk.Shortens`      : a walk to the same answer that stores nothing and binds no more;
* `Resolution.Repeats` : what a second resolution may change after the first one.

Main statements: `key_ne_of_below`, a grounded node does not come back below itself; `exists_walks_remember`, with
the slot that it has filled a walk is shortened; `resolve?_again`, a second resolution changes nothing but the nodes
of entries that are switched off, and a third one nothing at all.
-/

namespace TypeMapping

open Relation

variable {Node Decl Key : Type} [DecidableEq Key] {lang : Language Node Decl Key}

/-! ## Nodes below a node -/

/-- What lies below a node lies, by its key, below every node of the same key. -/
theorem Language.Interchangeable.below (hx : lang.Interchangeable) {m n n' : Node} (h : lang.Below m n)
    (hk : lang.key n = lang.key n') : ∃ m', lang.Below m' n' ∧ lang.key m = lang.key m' := by
  rcases h with hc | ht | ⟨layer, hu⟩
  · obtain ⟨m', hm, he⟩ := exists_of_map_eq_map (hx.classTag hk) hc
    exact ⟨m', .inl hm, he⟩
  · obtain ⟨m', hm, he⟩ := exists_of_map_eq_map (hx.templateTag hk) ht
    exact ⟨m', .inr (.inl hm), he⟩
  · obtain ⟨⟨layer', m'⟩, hm, he⟩ := exists_of_map_eq_map (hx.unwrap hk) hu
    exact ⟨m', .inr (.inr ⟨layer', hm⟩), he⟩

/-- No node below a grounded one has its key. -/
theorem key_ne_of_below (hx : lang.Interchangeable) {n v : Node} (hn : lang.Grounded n)
    (h : TransGen lang.Below v n) : lang.key v ≠ lang.key n := by
  induction hn generalizing v with
  | intro n _ ih =>
    intro hk
    obtain ⟨m, hvm, hmn⟩ := TransGen.tail'_iff.1 h
    -- `v` leads to a node with the key of `m`, and that node lies below `m`
    obtain ⟨m', hm', hkm⟩ := hx.below hmn hk.symm
    exact ih m hmn (TransGen.head' hm' hvm) hkm.symm

/-! ## Walks with one more slot in the memo -/

namespace Walk

/-- The walk comes to the same answer, stores nothing, and binds what the other one binds or less. -/
structure Shortens (w' w : Walk Node) : Prop where
  answer : w'.answer = w.answer
  stores : w'.stores = []
  bindings : w'.bindings.Sublist w.bindings

variable {w w' : Walk Node}

omit [DecidableEq Key] in
theorem Shortens.after (h : w'.Shortens w) {steps : List (Step Node)}
    (hs : steps.filterMap Step.store? = []) : (w'.after steps).Shortens (w.after steps) where
  answer := h.answer
  stores := by rw [stores_after, hs, h.stores, List.append_nil]
  bindings := by
    rw [bindings_after, bindings_after]
    exact h.bindings.append_left _

theorem Shortens.rebind (h : w'.Shortens w) (n : Node) : (w'.rebind n).Shortens (w.rebind n) where
  answer := by rw [answer_rebind, answer_rebind, h.answer]
  stores := by rw [stores_rebind, h.stores]
  bindings := by
    rw [bindings_rebind, bindings_rebind, h.answer]
    exact h.bindings.append_right _

end Walk

namespace Outlook

/-- The outlook in which the memo leads from the nodes with that key to the entry. -/
def remember (o : Outlook Key) (k : Key) (id : EntryId) : Outlook Key :=
  { o with consult := fun j => if j = k then .ready id else o.consult j }

variable {o : Outlook Key} {k : Key} {st : Stage} {start n v u : Node} {w : Walk Node} {id : EntryId}

@[simp] theorem consult_remember : (o.remember k id).consult k = .ready id := if_pos rfl

theorem consult_remember_of_ne {j : Key} (h : j ≠ k) : (o.remember k id).consult j = o.consult j := if_neg h

@[simp] theorem search_remember (ps : List Presentation) :
    (o.remember k id).search lang n ps = o.search lang n ps :=
  search_congr lang (show (o.remember k id).lookup? = o.lookup? from rfl) n ps

omit [DecidableEq Key] in
theorem Finds.congr (hx : lang.Interchangeable) (h : o.Finds lang v id) (hk : lang.key v = lang.key n) :
    o.Finds lang n id where
  isOpen := hk ▸ h.isOpen
  templateless := eq_none_of_map_eq_map (hx.templateTag hk) h.templateless
  found := by rw [search_snd, ← hx.render hk, ← search_snd, h.found]

/-- A walk that tries a node with an enabled name has an answer, if not from its class then by the name. -/
theorem answer_ne_none_of_finds (hf : o.Finds lang n id) (h : o.Walks lang st start n w) :
    w.answer ≠ none := by
  induction h with
  | ready _ | spelled _ _ => simp
  | barred hr => simpa [hr, Recall.isOpen] using hf.isOpen
  | unsettled _ _ ih | classless _ _ ih | classFailed _ _ _ _ _ ih => exact ih hf
  | ofClass _ _ hne _ => exact hne
  | ofTemplate ht _ _ => simp [hf.templateless] at ht
  | unwrapped _ hs _ _ _ | unmatched _ hs _ => simp [hf.found] at hs

/-- A walk without an answer never comes to a node that could be stored, so it does the same with the slot. -/
theorem Walks.remember (hx : lang.Interchangeable) (hf : o.Finds lang v id)
    (h : o.Walks lang st start n w) (ha : w.answer = none) :
    (o.remember (lang.key v) id).Walks lang st start n w := by
  induction h with
  | ready _ => cases ha
  | @barred start n i hr =>
    have hk : lang.key n ≠ lang.key v := hf.key_ne (congrArg Recall.isOpen hr)
    exact .barred ((consult_remember_of_ne hk).trans hr)
  | @unsettled start n w hr hw ih =>
    have hk : lang.key n ≠ lang.key v := fun hk => answer_ne_none_of_finds (hf.congr hx hk.symm) hw ha
    rw [← consult_remember_of_ne hk] at hr ⊢
    exact .unsettled hr (ih ha)
  | classless hc _ ih => exact .classless hc (ih ha)
  | ofClass _ _ hne _ => exact absurd ha hne
  | classFailed hc _ hca _ ihc ih => exact .classFailed hc (ihc hca) hca (ih ha)
  | ofTemplate ht _ ih =>
    rw [Walk.answer_rebind, Option.map_eq_none_iff] at ha
    exact .ofTemplate ht (ih ha)
  | spelled _ _ => cases ha
  | @unwrapped start n m layer w ht hs hu _ ih =>
    rw [← search_remember] at hs ⊢
    exact .unwrapped ht hs hu (ih ha)
  | @unmatched start n ht hs hu =>
    rw [← search_remember] at hs ⊢
    exact .unmatched ht hs hu

/-- What a walk stores is the node that it set out from or lies below it. -/
theorem reaches_of_mem_stores (h : o.Walks lang st start n w) (hm : (id, v) ∈ w.stores) :
    ReflTransGen lang.Below v n := by
  induction h with
  | ready _ | barred _ => simp at hm
  | unsettled _ _ ih => exact ih (by simpa [Walk.stores_after] using hm)
  | classless _ _ ih => exact ih hm
  | ofClass hc _ _ ih => exact (ih hm).tail (.inl hc)
  | classFailed hc _ _ _ ihc ih =>
    rw [Walk.stores_after_trail, List.mem_append] at hm
    exact hm.elim (fun hm => (ihc hm).tail (.inl hc)) ih
  | ofTemplate ht _ ih => exact (ih (by simpa using hm)).tail (.inr (.inl ht))
  | spelled _ _ =>
    obtain ⟨rfl, rfl⟩ : id = _ ∧ v = _ := by simpa [Walk.stores_after, Step.store?] using hm
    exact .refl
  | @unwrapped _ _ _ layer _ _ _ hu _ ih =>
    exact (ih (by simpa [Walk.stores_after, Step.store?] using hm)).tail (.inr (.inr ⟨layer, hu⟩))
  | unmatched => simp [Walk.stores, Step.store?] at hm

/-- What a walk from below a node stores is no node of the same key. -/
theorem key_ne_of_mem_stores (hx : lang.Interchangeable) (hn : lang.Grounded n) {m : Node}
    (hmn : lang.Below m n) (h : o.Walks lang st start m w) (hv : (id, v) ∈ w.stores) :
    lang.key n ≠ lang.key v :=
  (key_ne_of_below hx hn (TransGen.tail' (reaches_of_mem_stores h hv) hmn)).symm

/-- **The slot that a walk has filled shortens it.** Either the walk stores the node that it is at, and the slot
answers for it, or it stores one below, whose slot is met where the node was tried and nowhere before. -/
theorem exists_walks_remember (hx : lang.Interchangeable) (hn : lang.Grounded n) (hf : o.Finds lang v id)
    (h : o.Walks lang st start n w) (ha : w.answer = some (id, u)) (hs : w.stores = [(id, v)]) :
    (st ≠ .untried ∧ v = n ∧ u = n) ∨ (st ≠ .untried → lang.key n ≠ lang.key v) ∧
      ∃ w', (o.remember (lang.key v) id).Walks lang st start n w' ∧ w'.Shortens w := by
  -- where the walk goes on below a node, the slot that it fills is not the one of the node
  have hbelow : ∀ {n m start : Node} {w : Walk Node}, lang.Grounded n → lang.Below m n →
      o.Walks lang .untried start m w → w.stores = [(id, v)] → lang.key n ≠ lang.key v :=
    fun hn hmn hm hs => key_ne_of_mem_stores hx hn hmn hm (hs ▸ List.mem_singleton_self _)
  induction h generalizing u with
  | ready _ => simp at hs
  | barred _ => cases ha
  | @unsettled start n w hr hw ih =>
    refine .inr ⟨absurd rfl, ?_⟩
    rcases ih hn ha (by simpa [Walk.stores_after] using hs) with ⟨-, rfl, rfl⟩ | ⟨hk, w', hw', hshort⟩
    · obtain ⟨_, hlands⟩ := exists_lands hw (fun _ => hr) ha
      obtain ⟨bs, hb⟩ := hlands.bound
      refine ⟨.found id u, .ready consult_remember, ⟨ha.symm, rfl, ?_⟩⟩
      rw [Walk.bindings_found, Walk.bindings_after, hb]
      exact (List.sublist_append_right _ _).trans (List.sublist_append_right _ _)
    · refine ⟨_, ?_, hshort.after (Recall.stores_steps (o.consult (lang.key n)) n)⟩
      rw [← consult_remember_of_ne (hk (by simp))] at hr ⊢
      exact .unsettled hr hw'
  | classless hc _ ih =>
    rcases ih hn ha hs with ⟨-, hv, hu⟩ | ⟨hk, w', hw', hshort⟩
    · exact .inl ⟨by simp, hv, hu⟩
    · exact .inr ⟨fun _ => hk (by simp), w', .classless hc hw', hshort⟩
  | ofClass hc hm hne ih =>
    obtain ⟨-, w', hw', hshort⟩ := (ih (hn.classTag hc) ha hs).resolve_left fun h => h.1 rfl
    exact .inr ⟨fun _ => hbelow hn (.inl hc) hm hs, w', .ofClass hc hw' (hshort.answer ▸ hne), hshort⟩
  | @classFailed _ _ _ c w hc hm hca _ _ ih =>
    have hcs : c.stores = [] := Session.stores_eq_nil hm hca
    rcases ih hn ha (by simpa [hcs] using hs) with ⟨-, hv, hu⟩ | ⟨hk, w', hw', hshort⟩
    · exact .inl ⟨by simp, hv, hu⟩
    · exact .inr ⟨fun _ => hk (by simp), _, .classFailed hc (hm.remember hx hf hca) hca hw', hshort.after hcs⟩
  | @ofTemplate _ n _ w ht hm ih =>
    rw [Walk.answer_rebind] at ha
    rw [Walk.stores_rebind] at hs
    obtain ⟨⟨i, u'⟩, hw, he⟩ := Option.map_eq_some_iff.1 ha
    obtain ⟨rfl, -⟩ := Prod.mk.inj he
    obtain ⟨-, w', hw', hshort⟩ := (ih (hn.templateTag ht) hw hs).resolve_left fun h => h.1 rfl
    exact .inr ⟨fun _ => hbelow hn (.inr (.inl ht)) hm hs, _, .ofTemplate ht hw', hshort.rebind n⟩
  | spelled _ _ =>
    obtain ⟨-, rfl⟩ : id = _ ∧ v = _ := by simpa [Walk.stores_after, Step.store?] using hs.symm
    exact .inl ⟨by simp, rfl, (Prod.mk.inj (Option.some.inj ha)).2.symm⟩
  | @unwrapped _ n m layer w ht hnone hu hm ih =>
    have hsilent : ((o.search lang n Presentation.searchOrder).1 ++ [Step.unwrapped layer n m]).filterMap
        Step.store? = [] := by simp [Step.store?]
    rw [Walk.stores_after, hsilent, List.nil_append] at hs
    obtain ⟨-, w', hw', hshort⟩ := (ih (hn.unwrap hu) ha hs).resolve_left fun h => h.1 rfl
    refine .inr ⟨fun _ => hbelow hn (.inr (.inr ⟨layer, hu⟩)) hm hs, _, ?_, hshort.after hsilent⟩
    rw [← search_remember] at hnone ⊢
    exact .unwrapped ht hnone hu hw'
  | unmatched => cases ha

end Outlook

namespace Session

variable {s : Session Node Key} {n v u : Node} {w w' : Walk Node} {id : EntryId}

/-! ## The session after a walk -/

/-- The session after a walk that stores a node reads as before, with one more slot. -/
theorem outlook_conclude_of_stores_eq (hf : s.outlook.Finds lang v id) (hs : w.stores = [(id, v)]) :
    (s.conclude lang w).session.outlook = s.outlook.remember (lang.key v) id := by
  obtain ⟨name, -, hl⟩ := Outlook.spells_of_search hf.found
  obtain ⟨hg, hon⟩ := Registry.lookup?_eq_some_iff.1 hl
  have hmemo : (s.conclude lang w).session.memo = s.memo.insert (lang.key v) id :=
    memo_conclude_of_stores_eq hs
  have hconsult : ∀ k, (s.conclude lang w).session.consult k =
      if k = lang.key v then .ready id else s.consult k := by
    intro k
    split
    · next hk =>
      have hk' : (s.conclude lang w).session.memo.get? k = some id := by
        rw [hmemo, Dict.get?_insert, if_pos hk.symm]
      rw [consult_of_isCurrent hk' (by rw [registry_conclude, Registry.isCurrent_of_get? hg]),
        registry_conclude, if_pos hon]
    · next hk => simp only [consult, hmemo, Dict.get?_insert, if_neg (Ne.symm hk), registry_conclude]
  unfold outlook Outlook.remember
  rw [registry_conclude]
  congr 1
  exact funext hconsult

/-- After a walk the memo leads from the node where the entry of its answer was found to that entry. -/
theorem consult_conclude_of_lands (h : s.outlook.Lands lang w id v u) :
    (s.conclude lang w).session.consult (lang.key v) = .ready id := by
  rcases h.found with ⟨hr, hs⟩ | ⟨hf, hs⟩
  · show (s.conclude lang w).session.outlook.consult _ = _
    rw [outlook_conclude hs, hr]
  · show (s.conclude lang w).session.outlook.consult _ = _
    rw [outlook_conclude_of_stores_eq hf hs, Outlook.consult_remember]

/-- A walk that stores nothing, and leaves entries bound as they are, changes nothing. -/
theorem conclude_eq_self (hs : w.stores = [])
    (hb : ∀ f m, w.boundBy? f = some m → s.boundTo? f = some m) : (s.conclude lang w).session = s := by
  have hbound : (s.conclude lang w).session.bound = s.bound := by
    rw [bound_conclude]
    exact Dict.foldl_insert_eq_self hb
  calc (s.conclude lang w).session
      = ⟨(s.conclude lang w).session.registry, (s.conclude lang w).session.memo,
          (s.conclude lang w).session.bound⟩ := rfl
    _ = s := by rw [registry_conclude, memo_conclude_of_stores_eq_nil hs, hbound]

/-- To resolve a node that the memo leads from, to an entry that is bound to it, changes nothing. -/
theorem resolve?_of_ready (hr : s.consult (lang.key u) = .ready id) (hb : s.boundTo? id = some u) :
    ∃ r, s.resolve? lang u = some r ∧ r.answer = some (id, u) ∧ r.trail = [.bound id u] ∧ r.session = s := by
  refine ⟨_, resolve?_of_walks (.ready hr), rfl, rfl, conclude_eq_self rfl fun f m hm => ?_⟩
  obtain ⟨rfl, rfl⟩ := Prod.mk.inj (List.mem_singleton.1 (Walk.mem_bindings_of_boundBy? hm))
  exact hb

/-- After a walk, the same node has a walk to the same answer that stores nothing; it is the same walk if that one
stored nothing. -/
theorem exists_walks_again (hx : lang.Interchangeable) (hn : lang.Grounded n)
    (hw : s.outlook.Walks lang .untried n n w) :
    ∃ w', (s.conclude lang w).session.outlook.Walks lang .untried n n w' ∧ w'.Shortens w ∧
      (w.stores = [] → w' = w) := by
  by_cases hs : w.stores = []
  · exact ⟨w, by rwa [outlook_conclude hs], ⟨rfl, hs, .refl _⟩, fun _ => rfl⟩
  · obtain ⟨⟨id, u⟩, ha⟩ := Option.ne_none_iff_exists'.1 fun ha => hs (stores_eq_nil hw ha)
    obtain ⟨v, hv⟩ := Outlook.exists_lands hw (by simp) ha
    obtain ⟨hf, hs'⟩ := hv.found.resolve_left fun h => hs h.2
    obtain ⟨-, w', hw', hshort⟩ :=
      (Outlook.exists_walks_remember hx hn hf hw ha hs').resolve_left fun h => h.1 rfl
    exact ⟨w', by rwa [outlook_conclude_of_stores_eq hf hs'], hshort, fun h => absurd h hs⟩

/-- A walk that leaves the memo as it is stores nothing: what it stores was not to be found there. -/
theorem stores_eq_nil_of_memo (hw : s.outlook.Walks lang .untried n n w)
    (hm : (s.conclude lang w).session.memo = s.memo) : w.stores = [] := by
  refine Classical.byContradiction fun hs => ?_
  obtain ⟨⟨id, u⟩, ha⟩ := Option.ne_none_iff_exists'.1 fun ha => hs (stores_eq_nil hw ha)
  obtain ⟨v, hv⟩ := Outlook.exists_lands hw (by simp) ha
  obtain ⟨hf, -⟩ := hv.found.resolve_left fun h => hs h.2
  have hr := consult_conclude_of_lands hv
  unfold consult at hr
  rw [hm, registry_conclude] at hr
  have hready : s.consult (lang.key v) = .ready id := hr
  exact hf.key_ne (congrArg Recall.isOpen hready) rfl

/-! ## Main statement -/

/-- What a second resolution of a node may change after the first one. -/
structure Repeats (lang : Language Node Decl Key) (s : Session Node Key) (r₁ r₂ : Resolution Node Key) :
    Prop where
  answer : r₂.answer = r₁.answer
  registry : r₂.session.registry = r₁.session.registry
  memo : r₂.session.memo = r₁.session.memo
  /-- An entry is bound to another node only if it is not the one of the answer, has its name and is switched off,
  and the first resolution was barred at both nodes. -/
  bound : ∀ f, r₂.session.boundTo? f ≠ r₁.session.boundTo? f →
    (∀ u, r₁.answer ≠ some (f, u)) ∧ r₁.session.registry.isCurrent f = true ∧
      r₁.session.registry.isEnabled f = false ∧
      ∃ m m', .barred f m ∈ r₁.trail ∧ .barred f m' ∈ r₁.trail ∧
        r₁.session.boundTo? f = some m ∧ r₂.session.boundTo? f = some m'
  /-- Nothing changes if the first resolution filled no slot, or was barred from no entry at two nodes. -/
  unchanged : r₁.session.memo = s.memo ∨
    (∀ f m m', .barred f m ∈ r₁.trail → .barred f m' ∈ r₁.trail → m = m') → r₂.session = r₁.session
  /-- The node of the answer is resolved by the memo alone, if no template produced the answer. -/
  direct : ∀ id u, r₁.answer = some (id, u) → ¬ r₁.ByTemplate → ∀ t ∈ [r₁.session, r₂.session],
    ∃ r, t.resolve? lang u = some r ∧ r.answer = some (id, u) ∧ r.trail = [.bound id u] ∧ r.session = t

/-- An entry that a shortened walk binds to another node is switched off, and the walk was barred from it twice. -/
theorem barred_of_boundTo?_ne (hw : s.outlook.Walks lang .untried n n w)
    (hw' : (s.conclude lang w).session.outlook.Walks lang .untried n n w') (hshort : w'.Shortens w) {f : EntryId}
    (hne : ((s.conclude lang w).session.conclude lang w').session.boundTo? f ≠
      (s.conclude lang w).session.boundTo? f) :
    (∀ u, w.answer ≠ some (f, u)) ∧ s.registry.isCurrent f = true ∧ s.registry.isEnabled f = false ∧
      ∃ m m', .barred f m ∈ w.trail ∧ .barred f m' ∈ w.trail ∧
        (s.conclude lang w).session.boundTo? f = some m ∧
        ((s.conclude lang w).session.conclude lang w').session.boundTo? f = some m' := by
  have hother : ∀ u, w.answer ≠ some (f, u) := by
    -- both walks bind the entry of the answer to the node of the answer
    intro u ha
    have h₁ := (resolve?_frame (resolve?_of_walks hw)).bound f u ha
    have h₂ := (resolve?_frame (resolve?_of_walks hw')).bound f u (hshort.answer.trans ha)
    exact hne (h₂.trans h₁.symm)
  have hbarred : ∀ m, (f, m) ∈ w.bindings →
      .barred f m ∈ w.trail ∧ s.consult (lang.key m) = .barred f := fun m hm =>
    (Outlook.barred_or_answer_of_mem_bindings hw hm).resolve_right fun ⟨u, hu⟩ => hother u hu
  have hagain : ((s.conclude lang w).session.conclude lang w').session.boundTo? f =
      (w'.boundBy? f).or ((s.conclude lang w).session.boundTo? f) := boundTo?_conclude f
  rw [hagain] at hne ⊢
  cases hm' : w'.boundBy? f with
  | none => simp [hm'] at hne
  | some m' =>
    have hmem' := hshort.bindings.subset (Walk.mem_bindings_of_boundBy? hm')
    obtain ⟨m, hm⟩ := Option.isSome_iff_exists.1 (Walk.isSome_boundBy? hmem')
    have hmem := Walk.mem_bindings_of_boundBy? hm
    obtain ⟨ht, hr⟩ := hbarred m hmem
    obtain ⟨-, hoff, hcur⟩ := consult_eq_barred hr
    refine ⟨hother, Registry.isCurrent_eq_true_iff.2 hcur, hoff, m, m', ht, (hbarred m' hmem').1, ?_, rfl⟩
    rw [boundTo?_conclude, hm, Option.some_or]

theorem repeats_of_walks (hw : s.outlook.Walks lang .untried n n w)
    (hw' : (s.conclude lang w).session.outlook.Walks lang .untried n n w') (hshort : w'.Shortens w)
    (hsame : w.stores = [] → w' = w) :
    s.Repeats lang (s.conclude lang w) ((s.conclude lang w).session.conclude lang w') := by
  have hbound := fun f => barred_of_boundTo?_ne (f := f) hw hw' hshort
  refine {
    answer := hshort.answer
    registry := registry_conclude
    memo := memo_conclude_of_stores_eq_nil hshort.stores
    bound := fun f hne => by rw [registry_conclude]; exact hbound f hne
    unchanged := fun h => conclude_eq_self hshort.stores fun f m' hm' => ?_
    direct := fun id u ha ht t hmem => ?_ }
  · rcases h with hmemo | honce
    · obtain rfl := hsame (stores_eq_nil_of_memo hw hmemo)
      rw [boundTo?_conclude, hm', Option.some_or]
    · have hb : ((s.conclude lang w).session.conclude lang w').session.boundTo? f = some m' := by
        rw [boundTo?_conclude, hm', Option.some_or]
      refine Classical.byContradiction fun hne => ?_
      obtain ⟨-, -, -, m, m'', ht, ht', h₁, h₂⟩ := hbound f (by rw [hb]; exact Ne.symm hne)
      obtain rfl := Option.some.inj (hb.symm.trans h₂)
      obtain rfl := honce f m m' ht ht'
      exact hne h₁
  · obtain ⟨v, hv⟩ := Outlook.exists_lands hw (by simp) ha
    obtain ⟨rfl, -⟩ := hv.landed.resolve_right fun h => ht h.2
    have hr := consult_conclude_of_lands hv
    have hframe := resolve?_frame (resolve?_of_walks hw)
    have hframe' := resolve?_frame (resolve?_of_walks hw')
    rcases List.mem_cons.1 hmem with rfl | hmem
    · exact resolve?_of_ready hr (hframe.bound id u ha)
    · obtain rfl := List.mem_singleton.1 hmem
      refine resolve?_of_ready ?_ (hframe'.bound id u (hshort.answer.trans ha))
      show ((s.conclude lang w).session.conclude lang w').session.outlook.consult _ = _
      rw [outlook_conclude hshort.stores]
      exact hr

/-- **To resolve a node again changes next to nothing.** In every session, resolutions of a grounded node that follow
upon each other have the same answer. The second one changes neither registry nor memo, and it binds an entry to
another node only if the entry is switched off; the third one changes nothing. -/
theorem resolve?_again (hx : lang.Interchangeable) (s : Session Node Key) (hn : lang.Grounded n) :
    ∃ r₁ r₂ r₃, s.resolve? lang n = some r₁ ∧ r₁.session.resolve? lang n = some r₂ ∧
      r₂.session.resolve? lang n = some r₃ ∧ s.Repeats lang r₁ r₂ ∧
      r₃.answer = r₁.answer ∧ r₃.session = r₂.session := by
  obtain ⟨w, hw⟩ := Outlook.exists_walks (o := s.outlook) hn n
  obtain ⟨w', hw', hshort, hsame⟩ := exists_walks_again hx hn hw
  have hw'' := hw'
  rw [← outlook_conclude hshort.stores] at hw''
  refine ⟨_, _, _, resolve?_of_walks hw, resolve?_of_walks hw', resolve?_of_walks hw'',
    repeats_of_walks hw hw' hshort hsame, hshort.answer, conclude_eq_self hshort.stores fun f m hm => ?_⟩
  rw [boundTo?_conclude, hm, Option.some_or]

/-- A pointer whose pointee has lost its entry is resolved to the new one, and then by the memo. -/
theorem resolve?_again_past_replacement :
    ∃ s r₁ r₂, (Session.new (.new {})).run TypeTerm.plain [.register { name := "V", origin := "a" },
        .resolve (.named "V"), .register { name := "V", origin := "b" }] = some s ∧
      s.consult (.named "V") = .superseded 0 ∧
      s.resolve? TypeTerm.plain (.pointer (.named "V")) = some r₁ ∧
      r₁.session.resolve? TypeTerm.plain (.pointer (.named "V")) = some r₂ ∧
      r₂.answer = some (1, .named "V") ∧ s.Repeats TypeTerm.plain r₁ r₂ := by
  let s := (sample.conclude TypeTerm.plain .sample).session.register { name := "V", origin := "b" }
  have hs : (Session.new (.new {})).run TypeTerm.plain [.register { name := "V", origin := "a" },
      .resolve (.named "V"), .register { name := "V", origin := "b" }] = some s := run_resolve (walks_sample _) _
  obtain ⟨w, hw, ha⟩ : ∃ w, s.outlook.Walks TypeTerm.plain .untried (.pointer (.named "V"))
      (.pointer (.named "V")) w ∧ w.answer = some (1, .named "V") :=
    ⟨_, .unsettled (by rfl) (.classless rfl (.unwrapped rfl (by rfl) (by rfl) (.unsettled (by rfl)
      (.classless rfl (.spelled rfl (by rfl)))))), rfl⟩
  obtain ⟨r₁, r₂, -, hr₁, hr₂, -, hrepeats, -⟩ :=
    resolve?_again (TypeTerm.interchangeable _) s (TypeTerm.grounded (.pointer (.named "V")))
  obtain rfl := Option.some.inj (hr₁.symm.trans (resolve?_of_walks hw))
  exact ⟨s, _, r₂, hs, rfl, hr₁, hr₂, hrepeats.answer.trans ha, hrepeats⟩

end Session

/-! ## An entry that moves once more -/

/-- Two nodes of the name `F`; a specialization `E` whose class is the second one; and sugar over it that is a
specialization itself, whose class is the first one. -/
def NodeTable.sugared : NodeTable where
  rows := #[{ name := "F", key := 0 }, { name := "F", key := 1 },
    { name := "E", key := 2, class? := some 1, isSpecialization := true },
    { name := "G", key := 3, stripped? := some 2, class? := some 0, isSpecialization := true }]
  earlier := by decide

theorem NodeTable.interchangeable_sugared : sugared.language.Interchangeable :=
  Language.interchangeable_of_injective fun n m h => by
    revert n m
    decide

/-- A second resolution may rebind an entry that is switched off: it is barred at the class of the sugar and no longer
comes to the class below, for the memo leads from there. -/
theorem Session.resolve?_again_rebinds : ∃ s r₁ r₂, (Session.new (.new {})).run NodeTable.sugared.language [
      .register { name := "F", origin := "a" }, .register { name := "E", origin := "a" },
      .resolve (0 : Fin 4), .resolve (1 : Fin 4), .setEnabled 0 false] = some s ∧
    NodeTable.sugared.language.Interchangeable ∧ NodeTable.sugared.language.Grounded (3 : Fin 4) ∧
    s.resolve? NodeTable.sugared.language (3 : Fin 4) = some r₁ ∧
    r₁.session.resolve? NodeTable.sugared.language (3 : Fin 4) = some r₂ ∧
    r₁.session.boundTo? 0 = some (1 : Fin 4) ∧ r₂.session.boundTo? 0 = some (0 : Fin 4) := by
  let lang := NodeTable.sugared.language
  let n₀ : NodeTable.sugared.Node := (0 : Fin 4)
  let n₁ : NodeTable.sugared.Node := (1 : Fin 4)
  let n₂ : NodeTable.sugared.Node := (2 : Fin 4)
  let n₃ : NodeTable.sugared.Node := (3 : Fin 4)
  let s₀ : Session NodeTable.sugared.Node Int :=
    ((new (.new {})).register { name := "F", origin := "a" }).register { name := "E", origin := "a" }
  let w₀ : Walk NodeTable.sugared.Node := ⟨[.rendered n₀ {} "F" true, .stored 0 n₀, .bound 0 n₀], some (0, n₀)⟩
  let w₁ : Walk NodeTable.sugared.Node := ⟨[.rendered n₁ {} "F" true, .stored 0 n₁, .bound 0 n₁], some (0, n₁)⟩
  let s₁ := (s₀.conclude lang w₀).session
  let s := (s₁.conclude lang w₁).session.setEnabled 0 false
  have h₀ : s₀.outlook.Walks lang .untried n₀ n₀ w₀ := .unsettled rfl (.classless rfl (.spelled rfl rfl))
  have h₁ : s₁.outlook.Walks lang .untried n₁ n₁ w₁ := .unsettled rfl (.classless rfl (.spelled rfl rfl))
  have hrun : (Session.new (.new {})).run lang [
      .register { name := "F", origin := "a" }, .register { name := "E", origin := "a" },
      .resolve n₀, .resolve n₁, .setEnabled 0 false] = some s :=
    (run_resolve h₀ _).trans (run_resolve h₁ _)
  have hF₀ : s.outlook.Walks lang .untried n₀ n₀ ⟨[.barred 0 n₀], none⟩ := .barred rfl
  have hF₁ : s.outlook.Walks lang .untried n₁ n₁ ⟨[.barred 0 n₁], none⟩ := .barred rfl
  have hE : s.outlook.Walks lang .classless n₃ n₂
      ((Walk.found 1 n₂).after ([.rendered n₂ {} "E" true] ++ [.stored 1 n₂])) := .spelled rfl rfl
  -- barred at both classes, one below the other
  obtain ⟨w, hw, hb, hs⟩ : ∃ w, s.outlook.Walks lang .untried n₃ n₃ w ∧
      w.bindings = [(0, n₀), (0, n₁), (1, n₂)] ∧ w.stores = [(1, n₂)] :=
    ⟨_, .unsettled rfl (.classFailed rfl hF₀ rfl (.unwrapped (m := n₂) rfl rfl rfl (.unsettled rfl
      (.classFailed rfl hF₁ rfl hE)))),
      by simp [Walk.bindings_after, List.filterMap_cons, Step.binding?],
      by simp [Walk.stores_after, List.filterMap_cons, Step.store?]⟩
  have ho : (s.conclude lang w).session.outlook = s.outlook.remember 2 1 :=
    outlook_conclude_of_stores_eq ⟨rfl, rfl, rfl⟩ hs
  have hF : (s.outlook.remember 2 1).Walks lang .untried n₀ n₀ ⟨[.barred 0 n₀], none⟩ := .barred rfl
  -- barred at the first class only
  obtain ⟨w', hw', hb'⟩ : ∃ w', (s.outlook.remember 2 1).Walks lang .untried n₃ n₃ w' ∧
      w'.bindings = [(0, n₀), (1, n₂)] :=
    ⟨_, .unsettled rfl (.classFailed rfl hF rfl (.unwrapped (m := n₂) rfl rfl rfl (.ready rfl))),
      by simp [Walk.bindings_after, List.filterMap_cons, Step.binding?]⟩
  rw [← ho] at hw'
  refine ⟨s, _, _, hrun, NodeTable.interchangeable_sugared, NodeTable.grounded _ _, resolve?_of_walks hw,
    resolve?_of_walks hw', ?_, ?_⟩
  · rw [boundTo?_conclude, Walk.boundBy?, hb]
    rfl
  · rw [boundTo?_conclude, Walk.boundBy?, hb']
    rfl

end TypeMapping
