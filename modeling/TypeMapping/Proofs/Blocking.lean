import TypeMapping.Proofs.Alike
import TypeMapping.Proofs.Transparency

/-!
# What the memo does for a walk

A slot of a settled node stands for the rest of a walk, and an entry that is switched off blocks the node of its slot.

* `Outlook.blocking` : the outlook whose memo does nothing but block nodes;
* `Outlook.Settles`  : every node that the memo leads from to an entry that is ready is settled;
* `Walk.Saves`       : a walk does what another one does, or what it does before it comes to a slot.

Main statements: `Settled.exists_walks_blocking`, a settled node is found past blocked ones as it is without a memo;
`Settles.exists_walks_blocking`, a walk comes to the answer that the blocks alone leave, and saves the names of the
node whose slot it meets.
-/

namespace TypeMapping

variable {Node Decl Key : Type} [DecidableEq Key] {lang : Language Node Decl Key}

namespace Outlook

variable {o o' : Outlook Key} {K : Key → Bool} {st : Stage} {start n : Node} {w : Walk Node}

/-! ## Blocked nodes -/

/-- The outlook whose memo blocks the nodes with these keys, and says nothing else. -/
def blocking (o : Outlook Key) (K : Key → Bool) : Outlook Key :=
  { o with consult := fun k => if K k then .barred 0 else .absent }

omit [DecidableEq Key] in
theorem blocking_false (o : Outlook Key) : (o.blocking fun _ => false) = o.unmemoized := rfl

omit [DecidableEq Key] in
@[simp] theorem search_blocking (n : Node) (ps : List Presentation) :
    (o.blocking K).search lang n ps = o.search lang n ps :=
  search_congr lang (show (o.blocking K).lookup? = o.lookup? from rfl) n ps

omit [DecidableEq Key] in
theorem isOpen_blocking {k : Key} (h : K k = false) : ((o.blocking K).consult k).isOpen = true := by
  simp [blocking, h, Recall.isOpen]

omit [DecidableEq Key] in
/-- A search in vain is in vain where fewer names are enabled. -/
theorem search_eq_none_of_subset (hN : o'.names ⊆ o.names) {ps : List Presentation}
    (h : (o.search lang n ps).2 = none) : (o'.search lang n ps).2 = none := by
  rw [search_snd, List.findSome?_eq_none_iff] at h ⊢
  intro p hp
  refine Option.not_isSome_iff_eq_none.1 fun hs => ?_
  have hmem : lang.render n p ∈ o.names := hN hs
  simp [names, h p hp] at hmem

/-- A walk without a memo and without an answer has none where nodes are blocked and fewer names are enabled. -/
theorem exists_walks_blocking_of_none (hN : o'.names ⊆ o.names) (h : o.unmemoized.Walks lang st start n w)
    (ha : w.answer = none) (start' : Node) :
    ∃ w', (o'.blocking K).Walks lang st start' n w' ∧ w'.answer = none := by
  induction h generalizing start' with
  | ready hr | barred hr => cases hr
  | @unsettled _ n _ _ _ ih =>
    cases hK : K (lang.key n) with
    | true => exact ⟨_, .barred (if_pos hK), rfl⟩
    | false =>
      obtain ⟨w', hw', ha'⟩ := ih ha start'
      exact ⟨_, .unsettled (isOpen_blocking hK) hw', ha'⟩
  | classless hc _ ih =>
    obtain ⟨w', hw', ha'⟩ := ih ha start'
    exact ⟨w', .classless hc hw', ha'⟩
  | ofClass _ _ hne _ => exact absurd ha hne
  | @classFailed _ _ m _ _ hc _ hca _ ihc ih =>
    obtain ⟨c', hcw, hca'⟩ := ihc hca m
    obtain ⟨w', hw', ha'⟩ := ih ha start'
    exact ⟨_, .classFailed hc hcw hca' hw', ha'⟩
  | @ofTemplate _ _ m _ ht _ ih =>
    rw [Walk.answer_rebind, Option.map_eq_none_iff] at ha
    obtain ⟨w', hw', ha'⟩ := ih ha m
    exact ⟨_, .ofTemplate ht hw', by simp [ha']⟩
  | spelled => cases ha
  | unwrapped ht hs hu _ ih =>
    rw [search_unmemoized] at hs
    obtain ⟨w', hw', ha'⟩ := ih ha start'
    exact ⟨_, .unwrapped ht (by rw [search_blocking, search_eq_none_of_subset hN hs]) hu hw', ha'⟩
  | unmatched ht hs hu =>
    rw [search_unmemoized] at hs
    exact ⟨_, .unmatched ht (by rw [search_blocking, search_eq_none_of_subset hN hs]) hu, rfl⟩

end Outlook

/-! ## Settled nodes -/

omit [DecidableEq Key] in
/-- The first name among the names is the first one among fewer names, if it is left. -/
theorem Language.GoesBy.mono {N N' : Set String} {n : Node} {name : String} (h : lang.GoesBy N n name)
    (hN : N' ⊆ N) (hname : name ∈ N') : lang.GoesBy N' n name := by
  obtain ⟨ps, p, qs, ho, hp, -, hn⟩ := h
  exact ⟨ps, p, qs, ho, hp, hname, fun q hq hmem => hn q hq (hN hmem)⟩

/-- Past blocked nodes, the walk from a settled node comes to the entry of its name and stores the node. -/
theorem Language.Settled.exists_walks_blocking {N : Set String} {n : Node} {name : String}
    (h : lang.Settled N n name) {o : Outlook Key} (hN : o.names ⊆ N) {id : EntryId} (hl : o.lookup? name = some id)
    {K : Key → Bool} (hK : K (lang.key n) = false) (start : Node) :
    ∃ w, (o.blocking K).Walks lang .untried start n w ∧ w.answer = some (id, n) ∧ w.stores = [(id, n)] := by
  have hs : ((o.blocking K).search lang n Presentation.searchOrder).2 = some id := by
    rw [Outlook.search_blocking]
    exact Outlook.search_eq_some_iff.2 ⟨name, h.goesBy.mono hN (by simp [Outlook.names, hl]), hl⟩
  have hown : ∃ w, (o.blocking K).Walks lang .classless start n w ∧ w.answer = some (id, n) ∧
      w.stores = [(id, n)] :=
    ⟨_, .spelled h.templateless hs, rfl, by simp [Walk.stores_after, Step.store?]⟩
  obtain ⟨w, hw, ha, hst⟩ := hown
  cases hc : lang.classTag? n with
  | none =>
    exact ⟨_, .unsettled (Outlook.isOpen_blocking hK) (.classless hc hw), ha, by simpa [Walk.stores_after] using hst⟩
  | some m =>
    obtain ⟨o₀, rfl, c₀, hc₀, hca₀⟩ := h.classFails m hc
    obtain ⟨c, hcw, hca⟩ := Outlook.exists_walks_blocking_of_none hN hc₀ hca₀ m
    refine ⟨_, .unsettled (Outlook.isOpen_blocking hK) (.classFailed hc hcw hca hw), ha, ?_⟩
    rw [Walk.stores_after, Recall.stores_steps, Walk.stores_after_trail, Session.stores_eq_nil hcw hca, hst]
    rfl

/-! ## Walks that meet a slot -/

/-- The walk `w` stores what `v` stores, by as many names; or it stores nothing, for it meets a slot of the node that
`v` stores, and saves the names that the walk `c` from there takes. -/
inductive Walk.Saves (lang : Language Node Decl Key) (o : Outlook Key) (K : Key → Bool) (v w : Walk Node) : Prop
  | nothing (hs : v.stores = w.stores) (hr : v.renderings = w.renderings)
  | slot {id : EntryId} {u : Node} {c : Walk Node} (hv : v.stores = [(id, u)]) (hw : w.stores = [])
      (hu : o.consult (lang.key u) = .ready id) (hc : (o.blocking K).Walks lang .untried u u c)
      (hr : v.renderings = w.renderings + c.renderings)

omit [DecidableEq Key] in
theorem Walk.mem_trail_rebind {w : Walk Node} {a : Step Node} (h : a ∈ w.trail) (n : Node) :
    a ∈ (w.rebind n).trail := by
  unfold rebind
  split
  · exact List.mem_append_left _ h
  · exact h

namespace Walk.Saves

variable {o : Outlook Key} {K : Key → Bool} {v w : Walk Node}

theorem after (h : v.Saves lang o K w) {steps steps' : List (Step Node)}
    (hs : steps.filterMap Step.store? = []) (hs' : steps'.filterMap Step.store? = [])
    (hr : steps.countP Step.isRendering = steps'.countP Step.isRendering) :
    (v.after steps).Saves lang o K (w.after steps') := by
  cases h with
  | nothing h hr' =>
    exact .nothing (by rw [stores_after, stores_after, hs, hs', h])
      (by rw [renderings_after, renderings_after, hr, hr'])
  | slot hv hw hu hc hr' =>
    refine .slot (by rw [stores_after, hs, hv, List.nil_append]) (by rw [stores_after, hs', hw, List.nil_append]) hu
      hc ?_
    rw [renderings_after, renderings_after, hr, hr', Nat.add_assoc]

theorem rebind (h : v.Saves lang o K w) (n : Node) : (v.rebind n).Saves lang o K (w.rebind n) := by
  cases h with
  | nothing h hr => exact .nothing (by simpa using h) (by simpa using hr)
  | slot hv hw hu hc hr => exact .slot (by simpa using hv) (by simpa using hw) hu hc (by simpa using hr)

end Walk.Saves

namespace Outlook

/-- Every node that the memo leads from to an entry that is ready is settled as long as the names are enabled, and
goes by a name that stands for the entry. -/
def Settles (lang : Language Node Decl Key) (N : Set String) (o : Outlook Key) : Prop :=
  ∀ n id, o.consult (lang.key n) = .ready id → ∃ name, lang.Settled N n name ∧ o.lookup? name = some id

variable {o : Outlook Key} {N : Set String} {K : Key → Bool} {st : Stage} {start n : Node} {w : Walk Node}

/-- **What the memo does for a walk.** The memo blocks nodes from which it leads to entries that are switched off, and
otherwise it saves names. So a walk comes to the answer that the blocks leave; it is enough that the blocks are those
that the walk ran into, and no others than there are. -/
theorem Settles.exists_walks_blocking (ho : o.Settles lang N) (hN : o.names ⊆ N)
    (hK : ∀ k, K k = true → ∃ id, o.consult k = .barred id) (h : o.Walks lang st start n w)
    (hb : ∀ f m, .barred f m ∈ w.trail → K (lang.key m) = true) :
    ∃ v, (o.blocking K).Walks lang st start n v ∧ v.answer = w.answer ∧ v.Saves lang o K w := by
  have hfree : ∀ k, (∀ id, o.consult k ≠ .barred id) → K k = false := fun k hr =>
    Bool.eq_false_iff.2 fun hk => (hK k hk).elim hr
  induction h with
  | @ready start n id hr =>
    -- past the blocks, the name of the slot leads to its entry again
    obtain ⟨name, hs, hl⟩ := ho n id hr
    have hk := hfree (lang.key n) (by simp [hr])
    obtain ⟨v, hv, ha, hst⟩ := hs.exists_walks_blocking hN hl hk start
    obtain ⟨c, hc, hp⟩ := exists_walks_restart hv n
    exact ⟨v, hv, ha, .slot hst rfl hr hc (by simp [hp.renderings])⟩
  | @barred _ n id hr => exact ⟨_, .barred (if_pos (hb id n (by simp))), rfl, .nothing rfl rfl⟩
  | @unsettled _ n w hr _ ih =>
    obtain ⟨v, hv, ha, hs⟩ := ih fun f m hm => hb f m (List.mem_append_right _ hm)
    have hk := hfree (lang.key n) fun id h => by simp [h, Recall.isOpen] at hr
    exact ⟨_, .unsettled (isOpen_blocking hk) hv, ha, hs.after (by simp) (by simp) (by simp)⟩
  | classless hc _ ih =>
    obtain ⟨v, hv, ha, hs⟩ := ih hb
    exact ⟨v, .classless hc hv, ha, hs⟩
  | ofClass hc _ hne ih =>
    obtain ⟨v, hv, ha, hs⟩ := ih hb
    exact ⟨v, .ofClass hc hv (ha ▸ hne), ha, hs⟩
  | classFailed hc hm hca _ ihc ih =>
    obtain ⟨c, hcw, hc', hcs⟩ := ihc fun f m hm => hb f m (List.mem_append_left _ hm)
    obtain ⟨v, hv, ha, hs⟩ := ih fun f m hm => hb f m (List.mem_append_right _ hm)
    have hcst : c.stores = [] := Session.stores_eq_nil hcw (hc'.trans hca)
    refine ⟨_, .classFailed hc hcw (hc'.trans hca) hv, ha, hs.after hcst (Session.stores_eq_nil hm hca) ?_⟩
    cases hcs with
    | nothing _ hr => exact hr
    | slot hst => simp [hcst] at hst
  | ofTemplate ht _ ih =>
    obtain ⟨v, hv, ha, hs⟩ := ih fun f m hm => hb f m (Walk.mem_trail_rebind hm _)
    exact ⟨_, .ofTemplate ht hv, by simp [ha], hs.rebind _⟩
  | spelled ht hs =>
    rw [← search_blocking (K := K)] at hs
    exact ⟨_, .spelled ht hs, rfl, .nothing (by simp [Walk.stores_after]) (by simp [Walk.renderings_after])⟩
  | unwrapped ht hs hu _ ih =>
    obtain ⟨v, hv, ha, hsv⟩ := ih fun f m hm => hb f m (List.mem_append_right _ hm)
    rw [← search_blocking (K := K)] at hs
    exact ⟨_, .unwrapped ht hs hu hv, ha, hsv.after (by simp [Step.store?]) (by simp [Step.store?]) (by simp)⟩
  | unmatched ht hs hu =>
    rw [← search_blocking (K := K)] at hs
    exact ⟨_, .unmatched ht hs hu, rfl, .nothing (by simp [Walk.stores]) (by simp [Walk.renderings])⟩

end Outlook

end TypeMapping
