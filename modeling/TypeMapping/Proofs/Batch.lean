import TypeMapping.Proofs.Blocking
import TypeMapping.Proofs.Idempotence

/-!
# Batches of resolutions

Several nodes are resolved one after the other, from an empty memo and with no registration in between. Nodes share
layers and declarations, so which of them fills a slot and which of them meets it depends on their order.

* `Session.resolveAll?` : the resolutions of several nodes, with their answers and the number of names given;
* `Session.answer?`     : the answer of the resolution of a node;
* `Outlook.cost`        : the number of names that it takes to resolve a node without a memo;
* `Outlook.learn`       : the outlook with the slots that a walk without a memo would fill;
* `Outlook.savings`     : the names that the memo saves.

Main statements: `Coherent.exists_step`, one resolution costs what it costs without a memo, less the savings, and fills
the slots that it would fill then; `learn_comm`, `savings_comm`, two walks may change places; `resolveAll?_perm`, so may
the nodes of a batch.
-/

namespace TypeMapping

variable {Node Decl Key : Type} [DecidableEq Key]

/-- Resolutions that have taken place, one after the other. -/
structure Batch (Node Key : Type) where
  /-- The session after them. -/
  session : Session Node Key
  /-- The answer for each node. -/
  answers : List (Option (EntryId × Node))
  /-- The number of names that were given to nodes. -/
  renderings : Nat

namespace Session

/-- The answer of the resolution of a node. -/
def answer? (lang : Language Node Decl Key) (s : Session Node Key) (n : Node) : Option (EntryId × Node) :=
  (s.resolve? lang n).bind Resolution.answer

/-- Resolves several nodes, one after the other, if that comes to an end. -/
def resolveAll? (lang : Language Node Decl Key) (s : Session Node Key) : List Node → Option (Batch Node Key)
  | [] => some ⟨s, [], 0⟩
  | n :: ns => do
    let r ← s.resolve? lang n
    let b ← r.session |>.resolveAll? lang ns
    return ⟨b.session, r.answer :: b.answers, r.renderings + b.renderings⟩

end Session

variable {lang : Language Node Decl Key}

/-! ## Costs and savings -/

namespace Outlook

/-- The number of names that it takes to resolve the node without a memo. -/
def cost (lang : Language Node Decl Key) (o : Outlook Key) (n : Node) : Nat :=
  ((o.unmemoized.walk? lang n n).map Walk.renderings).getD 0

/-- The outlook with the slots that the walk would fill. -/
def learn (lang : Language Node Decl Key) (o : Outlook Key) (v : Walk Node) : Outlook Key :=
  v.stores.foldl (fun o a => o.remember (lang.key a.2) a.1) o

/-- The names that the memo saves the walk: what it takes from a node on whose slot is there already. -/
def savings (lang : Language Node Decl Key) (o : Outlook Key) (v : Walk Node) : Nat :=
  v.stores.foldl (fun c a => c + if (o.consult (lang.key a.2)).isOpen then 0 else o.cost lang a.2) 0

variable {o : Outlook Key} {n m u : Node} {v v' w : Walk Node} {id : EntryId}

theorem cost_of_walks (h : o.unmemoized.Walks lang .untried n n v) : o.cost lang n = v.renderings := by
  have hv : o.unmemoized.walk? lang n n = some v := from?_of_walks h
  rw [cost, hv]
  rfl

theorem cost_congr (hx : lang.Interchangeable) (hk : lang.key n = lang.key m) :
    o.cost lang n = o.cost lang m := by
  have hwalk : ∀ {n m : Node} {v : Walk Node}, lang.key n = lang.key m →
      o.unmemoized.walk? lang n n = some v →
      ∃ v', o.unmemoized.walk? lang m m = some v' ∧ v.renderings = v'.renderings := by
    intro n m v hk hv
    obtain ⟨v', hv', ha⟩ := (Alike.refl id o.unmemoized).exists_walks hx.respects (walks_of_some.1 _ _ _ hv) m hk
    exact ⟨v', from?_of_walks hv', ha.renderings⟩
  cases hn : o.unmemoized.walk? lang n n with
  | some v =>
    obtain ⟨v', hm, hr⟩ := hwalk hk hn
    simp [cost, hn, hm, hr]
  | none =>
    cases hm : o.unmemoized.walk? lang m m with
    | none => simp [cost, hn, hm]
    | some v' =>
      obtain ⟨v, hv, -⟩ := hwalk hk.symm hm
      rw [hn] at hv
      cases hv

theorem learn_of_nil (h : v.stores = []) : o.learn lang v = o := by
  rw [learn, h, List.foldl_nil]

theorem learn_of_singleton (h : v.stores = [(id, u)]) : o.learn lang v = o.remember (lang.key u) id := by
  rw [learn, h, List.foldl_cons, List.foldl_nil]

theorem savings_of_nil (h : v.stores = []) : o.savings lang v = 0 := by
  rw [savings, h]
  rfl

theorem savings_of_singleton (h : v.stores = [(id, u)]) :
    o.savings lang v = if (o.consult (lang.key u)).isOpen then 0 else o.cost lang u := by
  simp [savings, h]

theorem remember_of_ready {k : Key} (h : o.consult k = .ready id) : o.remember k id = o := by
  have hc : (o.remember k id).consult = o.consult := by
    funext j
    by_cases hj : j = k
    · rw [hj, consult_remember, h]
    · exact consult_remember_of_ne hj
  calc o.remember k id = ⟨(o.remember k id).consult, o.lookup?⟩ := rfl
    _ = o := by rw [hc]

theorem remember_comm {k k' : Key} {id' : EntryId} (h : k = k' → id = id') :
    (o.remember k id).remember k' id' = (o.remember k' id').remember k id := by
  unfold remember
  congr 1
  funext j
  grind

@[simp] theorem cost_remember (k : Key) (n : Node) : (o.remember k id).cost lang n = o.cost lang n := rfl

omit [DecidableEq Key] in
theorem Finds.unique (hx : lang.Interchangeable) {id' : EntryId} (h : o.Finds lang u id) (h' : o.Finds lang m id')
    (hk : lang.key u = lang.key m) : id = id' :=
  Option.some.inj ((h.congr hx hk).found.symm.trans h'.found)

theorem learn_comm (hx : lang.Interchangeable) (h : o.unmemoized.Walks lang .untried n n v)
    (h' : o.unmemoized.Walks lang .untried m m v') :
    (o.learn lang v).learn lang v' = (o.learn lang v').learn lang v := by
  rcases stores_cases h with hs | ⟨id, u, hs, hf⟩
  · rw [learn_of_nil hs, learn_of_nil hs]
  · rcases stores_cases h' with hs' | ⟨id', u', hs', hf'⟩
    · rw [learn_of_nil hs', learn_of_nil hs']
    · simp only [learn_of_singleton hs, learn_of_singleton hs']
      exact remember_comm (hf.unique hx hf')

/-- Two walks are saved the same names in either order: if they store the same node, the second one is saved its
cost, whichever that is. -/
theorem savings_comm (hx : lang.Interchangeable) (h : o.unmemoized.Walks lang .untried n n v)
    (h' : o.unmemoized.Walks lang .untried m m v') :
    o.savings lang v + (o.learn lang v).savings lang v' =
      o.savings lang v' + (o.learn lang v').savings lang v := by
  rcases stores_cases h with hs | ⟨id, u, hs, hf⟩
  · simp only [savings_of_nil hs, learn_of_nil hs, Nat.zero_add, Nat.add_zero]
  · rcases stores_cases h' with hs' | ⟨id', u', hs', hf'⟩
    · simp only [savings_of_nil hs', learn_of_nil hs', Nat.zero_add, Nat.add_zero]
    · simp only [learn_of_singleton hs, learn_of_singleton hs', savings_of_singleton hs, savings_of_singleton hs',
        cost_remember]
      by_cases hk : lang.key u = lang.key u'
      · rw [hk, consult_remember, consult_remember, cost_congr hx hk]
        rfl
      · rw [consult_remember_of_ne hk, consult_remember_of_ne (Ne.symm hk), Nat.add_comm]

end Outlook

/-! ## One resolution -/

/-- The entry that the memo leads to. -/
def Recall.id? : Recall → Option EntryId
  | .absent => none
  | .superseded id | .barred id | .ready id => some id

namespace Session

variable {s t : Session Node Key} {n : Node} {v w : Walk Node}

theorem id?_consult (s : Session Node Key) (k : Key) : (s.consult k).id? = s.memo.get? k := by
  unfold consult
  split
  · next h => rw [h, Recall.id?]
  · next id h =>
    rw [h]
    split
    · split <;> rfl
    · rfl

theorem get?_of_outlook_eq (h : s.outlook = t.outlook) (k : Key) : s.memo.get? k = t.memo.get? k := by
  have hk : s.consult k = t.consult k := congrFun (congrArg Outlook.consult h) k
  rw [← id?_consult, ← id?_consult, hk]

theorem Coherent.settles (hx : lang.Interchangeable) (hs : s.Coherent lang s.registry.enabledNames) :
    s.outlook.Settles lang s.outlook.names := by
  intro n id hr
  obtain ⟨hm, e, he, hl⟩ := consult_eq_ready hr
  exact ⟨e.name, hs.settled hx hm he, hl⟩

theorem Coherent.concluded (hx : lang.Interchangeable) (hs : s.Coherent lang s.registry.enabledNames)
    (hw : s.outlook.Walks lang .untried n n w) :
    (s.conclude lang w).session.Coherent lang (s.conclude lang w).session.registry.enabledNames := by
  rw [registry_conclude]
  exact hs.conclude hx hw

/-- A resolution comes to the answer that it comes to without a memo. It costs as much, less the savings, and the slots
are those that it fills then. -/
theorem Coherent.exists_step (hx : lang.Interchangeable) (hs : s.Coherent lang s.registry.enabledNames)
    (hn : lang.Grounded n) : ∃ v w, s.outlook.unmemoized.Walks lang .untried n n v ∧
      s.outlook.Walks lang .untried n n w ∧ v.answer = w.answer ∧
      w.renderings + s.outlook.savings lang v = v.renderings ∧
      (s.conclude lang w).session.outlook = s.outlook.learn lang v := by
  obtain ⟨w, hw⟩ := Outlook.exists_walks (o := s.outlook) hn n
  obtain ⟨v, hv, ha, hsaves⟩ := (hs.settles hx).exists_walks_blocking (K := fun _ => false) subset_rfl (by simp) hw
    fun f m hb => absurd (Outlook.consult_of_mem_barred hw hb) (hs.consult_ne_barred hx m f)
  rw [Outlook.blocking_false] at hv
  refine ⟨v, w, hv, hw, ha, ?_⟩
  -- either both walks fill the same slot, or the memo has the one already that the walk without a memo would fill
  cases hsaves with
  | nothing hstores hr =>
    rcases Outlook.stores_cases hw with hnil | ⟨id, u, hone, hf⟩
    · rw [Outlook.savings_of_nil (hstores.trans hnil), Outlook.learn_of_nil (hstores.trans hnil)]
      exact ⟨hr.symm, outlook_conclude hnil⟩
    · have hopen : (s.outlook.consult (lang.key u)).isOpen = true := hf.isOpen
      rw [Outlook.savings_of_singleton (hstores.trans hone), Outlook.learn_of_singleton (hstores.trans hone),
        if_pos hopen]
      exact ⟨hr.symm, outlook_conclude_of_stores_eq hf hone⟩
  | slot hone hw' hu hc hr =>
    rw [Outlook.savings_of_singleton hone, Outlook.learn_of_singleton hone, Outlook.remember_of_ready hu, hu,
      Outlook.cost_of_walks hc]
    exact ⟨hr.symm, outlook_conclude hw'⟩

/-! ## Several resolutions -/

theorem unmemoized_conclude : (s.conclude lang w).session.outlook.unmemoized = s.outlook.unmemoized := by
  unfold outlook Outlook.unmemoized
  rw [registry_conclude]

theorem resolveAll?_cons (hw : s.outlook.Walks lang .untried n n w) {ns : List Node} {b : Batch Node Key}
    (hb : (s.conclude lang w).session.resolveAll? lang ns = some b) : s.resolveAll? lang (n :: ns) =
      some ⟨b.session, w.answer :: b.answers, w.renderings + b.renderings⟩ := by
  rw [resolveAll?, resolve?_of_walks hw]
  simp only [Option.bind_eq_bind, Option.bind_some, hb]
  rfl

theorem Coherent.answer?_eq (hx : lang.Interchangeable) (hs : s.Coherent lang s.registry.enabledNames)
    (hn : lang.Grounded n) (hv : s.outlook.unmemoized.Walks lang .untried n n v) :
    s.answer? lang n = v.answer := by
  obtain ⟨v', w, hv', hw, ha, -⟩ := hs.exists_step hx hn
  obtain rfl := Outlook.walks_unique hv hv'
  rw [answer?, resolve?_of_walks hw, ha]
  rfl

theorem Coherent.answers_resolveAll? (hx : lang.Interchangeable) (hs : s.Coherent lang s.registry.enabledNames)
    {ns : List Node} (hn : ∀ n ∈ ns, lang.Grounded n) {b : Batch Node Key} (hb : s.resolveAll? lang ns = some b) :
    b.answers = ns.map (s.answer? lang) := by
  induction ns generalizing s b with
  | nil =>
    obtain rfl := Option.some.inj hb
    rfl
  | cons n ns ih =>
    obtain ⟨hn, hns⟩ := List.forall_mem_cons.1 hn
    obtain ⟨v, w, hv, hw, ha, -⟩ := hs.exists_step hx hn
    rw [resolveAll?, resolve?_of_walks hw, Option.bind_eq_bind, Option.bind_some] at hb
    obtain ⟨b', hb', h⟩ := Option.bind_eq_some_iff.1 hb
    obtain rfl := Option.some.inj h
    have hlater : ∀ m ∈ ns, (s.conclude lang w).session.answer? lang m = s.answer? lang m := by
      intro m hm
      obtain ⟨u, hu⟩ := Outlook.exists_walks (o := s.outlook.unmemoized) (hns m hm) m
      rw [hs.answer?_eq hx (hns m hm) hu,
        (hs.concluded hx hw).answer?_eq hx (hns m hm) (by rwa [unmemoized_conclude])]
    show w.answer :: b'.answers = _
    rw [List.map_cons, hs.answer?_eq hx hn hv, ha, ih (hs.concluded hx hw) hns hb', List.map_congr_left hlater]

theorem Coherent.exists_swap (hx : lang.Interchangeable) (hs : s.Coherent lang s.registry.enabledNames)
    (ht : t.Coherent lang t.registry.enabledNames) (ho : s.outlook = t.outlook) (hn : lang.Grounded n) {m : Node}
    (hm : lang.Grounded m) : ∃ w₁ w₂ w₁' w₂' : Walk Node,
      s.outlook.Walks lang .untried n n w₁ ∧ (s.conclude lang w₁).session.outlook.Walks lang .untried m m w₂ ∧
      t.outlook.Walks lang .untried m m w₁' ∧ (t.conclude lang w₁').session.outlook.Walks lang .untried n n w₂' ∧
      w₁.renderings + w₂.renderings = w₁'.renderings + w₂'.renderings ∧
      ((s.conclude lang w₁).session.conclude lang w₂).session.outlook =
        ((t.conclude lang w₁').session.conclude lang w₂').session.outlook := by
  obtain ⟨v₁, w₁, hv₁, hw₁, -, hc₁, ho₁⟩ := hs.exists_step hx hn
  obtain ⟨v₂, w₂, hv₂, hw₂, -, hc₂, ho₂⟩ := (hs.concluded hx hw₁).exists_step hx hm
  obtain ⟨v₁', w₁', hv₁', hw₁', -, hc₁', ho₁'⟩ := ht.exists_step hx hm
  obtain ⟨v₂', w₂', hv₂', hw₂', -, hc₂', ho₂'⟩ := (ht.concluded hx hw₁').exists_step hx hn
  -- without a memo, both orders take the same two walks
  rw [unmemoized_conclude] at hv₂ hv₂'
  rw [← ho] at hv₁' hv₂' hc₁' ho₁'
  obtain rfl := Outlook.walks_unique hv₂ hv₁'
  obtain rfl := Outlook.walks_unique hv₁ hv₂'
  rw [ho₁] at hc₂ ho₂
  rw [ho₁'] at hc₂' ho₂'
  refine ⟨w₁, w₂, w₁', w₂', hw₁, hw₂, hw₁', hw₂', ?_, ?_⟩
  · have hsaved := Outlook.savings_comm hx hv₁ hv₂
    omega
  · rw [ho₂, ho₂', Outlook.learn_comm hx hv₁ hv₂]

/-- Batches of the same nodes, in any order, cost the same and leave the same to be read. -/
theorem Coherent.exists_resolveAll? (hx : lang.Interchangeable) {ns ms : List Node} (hp : ns.Perm ms)
    (hn : ∀ n ∈ ns, lang.Grounded n) (hs : s.Coherent lang s.registry.enabledNames)
    (ht : t.Coherent lang t.registry.enabledNames) (ho : s.outlook = t.outlook) :
    ∃ b b', s.resolveAll? lang ns = some b ∧ t.resolveAll? lang ms = some b' ∧
      b.session.outlook = b'.session.outlook ∧ b.renderings = b'.renderings := by
  induction hp using List.Perm.recOnSwap' generalizing s t with
  | nil => exact ⟨_, _, rfl, rfl, ho, rfl⟩
  | cons n _ ih =>
    obtain ⟨hn, hns⟩ := List.forall_mem_cons.1 hn
    obtain ⟨v, w, hv, hw, -, -, hos⟩ := hs.exists_step hx hn
    obtain ⟨v', w', hv', hw', -, -, hot⟩ := ht.exists_step hx hn
    obtain rfl := Outlook.walks_unique hw (ho ▸ hw')
    obtain rfl := Outlook.walks_unique hv (ho ▸ hv')
    rw [← ho] at hot
    obtain ⟨b, b', hb, hb', ho, hr⟩ := ih hns (hs.concluded hx hw) (ht.concluded hx hw') (hos.trans hot.symm)
    exact ⟨_, _, resolveAll?_cons hw hb, resolveAll?_cons hw' hb', ho, by simp [hr]⟩
  | swap' n m _ ih =>
    obtain ⟨hm, hn, hns⟩ := by simpa only [List.forall_mem_cons] using hn
    obtain ⟨w₁, w₂, w₁', w₂', hw₁, hw₂, hw₁', hw₂', hr, ho⟩ := hs.exists_swap hx ht ho hm hn
    obtain ⟨b, b', hb, hb', ho, hr'⟩ := ih hns ((hs.concluded hx hw₁).concluded hx hw₂)
      ((ht.concluded hx hw₁').concluded hx hw₂') ho
    refine ⟨_, _, resolveAll?_cons hw₁ (resolveAll?_cons hw₂ hb), resolveAll?_cons hw₁' (resolveAll?_cons hw₂' hb'),
      ho, ?_⟩
    simp only [← Nat.add_assoc, hr, hr']
  | trans hp _ ih₁ ih₂ =>
    -- the batch in the middle order is taken in `s`, for both halves
    obtain ⟨b, b₁, hb, hb₁, ho₁, hr₁⟩ := ih₁ hn hs hs rfl
    obtain ⟨b₂, b', hb₂, hb', ho₂, hr₂⟩ := ih₂ (fun n h => hn n (hp.mem_iff.2 h)) hs ht ho
    obtain rfl := Option.some.inj (hb₁.symm.trans hb₂)
    exact ⟨b, b', hb, hb', ho₁.trans ho₂, hr₁.trans hr₂⟩

/-! ## Main statement -/

/-- **The order of a batch does not matter.** Let nodes be resolved one after the other in a session with an empty memo,
and let the same nodes be resolved in another order. Both batches come to an end. Each node gets the answer that it gets
alone, the memos lead from the same nodes to the same entries, and as many names were given to nodes. -/
theorem resolveAll?_perm (hx : lang.Interchangeable) (h₀ : ∀ k, s.memo.get? k = none) {ns ms : List Node}
    (hp : ns.Perm ms) (hn : ∀ n ∈ ns, lang.Grounded n) :
    ∃ b b', s.resolveAll? lang ns = some b ∧ s.resolveAll? lang ms = some b' ∧
      b.answers = ns.map (s.answer? lang) ∧ b'.answers = ms.map (s.answer? lang) ∧
      b.session.memo.keys.Perm b'.session.memo.keys ∧
      (∀ k, b.session.memo.get? k = b'.session.memo.get? k) ∧ b.renderings = b'.renderings := by
  have hs : s.Coherent lang s.registry.enabledNames := slots_of_empty h₀
  obtain ⟨b, b', hb, hb', ho, hr⟩ := hs.exists_resolveAll? hx hp hn hs rfl
  have hget : ∀ k, b.session.memo.get? k = b'.session.memo.get? k := get?_of_outlook_eq ho
  refine ⟨b, b', hb, hb', hs.answers_resolveAll? hx hn hb,
    hs.answers_resolveAll? hx (fun n h => hn n (hp.mem_iff.2 h)) hb', ?_, hget, hr⟩
  refine (List.perm_ext_iff_of_nodup (Dict.nodup_keys _) (Dict.nodup_keys _)).2 fun k => ?_
  rw [Dict.mem_keys_iff, Dict.mem_keys_iff, hget]

/-- A pointer and its pointee: whichever comes first fills the slot that the other one meets. -/
theorem resolveAll?_perm_pointer :
    ∃ b b', sample.resolveAll? TypeTerm.plain [.pointer (.named "V"), .named "V"] = some b ∧
      sample.resolveAll? TypeTerm.plain [.named "V", .pointer (.named "V")] = some b' ∧
      b.answers = [some (0, .named "V"), some (0, .named "V")] ∧
      (∀ k, b.session.memo.get? k = b'.session.memo.get? k) ∧ b.renderings = b'.renderings := by
  have hx : TypeTerm.plain.Interchangeable := TypeTerm.interchangeable _
  obtain ⟨b, b', hb, hb', ha, -, -, hget, hr⟩ := resolveAll?_perm hx (s := sample) (fun _ => rfl)
    (.swap (.named "V") (.pointer (.named "V")) []) fun n _ => TypeTerm.grounded n
  have hV : sample.answer? TypeTerm.plain (.named "V") = some (0, .named "V") := by
    rw [answer?, resolve?_of_walks (walks_sample _)]
    rfl
  have hpointer : sample.answer? TypeTerm.plain (.pointer (.named "V")) = some (0, .named "V") := by
    rw [answer?, resolve?_of_walks (.unsettled rfl (.classless rfl (.unwrapped rfl (by rfl) (by rfl) (walks_sample _))))]
    rfl
  exact ⟨b, b', hb, hb', by rw [ha, List.map_cons, List.map_singleton, hpointer, hV], hget, hr⟩

end Session

end TypeMapping
