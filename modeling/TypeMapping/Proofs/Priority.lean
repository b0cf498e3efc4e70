import TypeMapping.Proofs.Frame
import TypeMapping.Proofs.Soundness

/-!
# The class of a specialization comes first

What the class declared for a specialization is resolved to stands for the specialization as well. The memo is asked
before the class is, so a slot of the specialization itself is the one thing that comes in between.

* `Session.SpelledBefore` : an earlier resolution stored the node, by a name of its own and for want of its class;
* `Session.early`         : a session with such a slot.

Main statements: `exists_walks_class_of_mem_stores`, a walk stores a node only when it found nothing for the class of the
node; `exists_resolve_of_slot`, every slot of a run was filled by a resolution of the run;
`resolve?_of_classDeclaration`, a specialization is resolved to what its class is resolved to, unless its own slot
preempts the class, and then it is resolved to what the slot leads to.
-/

namespace TypeMapping

variable {Node Decl Key : Type} [DecidableEq Key] {lang : Language Node Decl Key}

/-! ## What is stored has no class that is resolved -/

/-- A walk stores a node only when it found nothing for the class of the node. A node past its class has to be one for
whose class nothing was found. -/
theorem Outlook.exists_walks_class_of_mem_stores {o : Outlook Key} {st : Stage} {start n : Node} {w : Walk Node}
    (h : o.Walks lang st start n w) (hst : st = .classless → ∀ m, lang.classTag? n = some m →
      ∃ c, o.Walks lang .untried m m c ∧ c.answer = none)
    {id : EntryId} {v : Node} (hv : (id, v) ∈ w.stores) {m : Node} (hm : lang.classTag? v = some m) :
    ∃ c, o.Walks lang .untried m m c ∧ c.answer = none := by
  induction h with
  | ready _ | barred _ => simp at hv
  | unsettled _ _ ih => exact ih (by simp) (by simpa [Walk.stores_after] using hv)
  | classless hc _ ih => exact ih (fun _ m hm => absurd (hc.symm.trans hm) (by simp)) hv
  | ofClass _ _ _ ih => exact ih (by simp) hv
  | @classFailed _ n m' c w hc hcw hca _ ihc ih =>
    rw [Walk.stores_after_trail, List.mem_append] at hv
    refine hv.elim (ihc (by simp)) (ih fun _ m hm => ?_)
    -- past its class, the node may be stored: here the class was tried in vain
    obtain rfl := Option.some.inj (hc.symm.trans hm)
    exact ⟨c, hcw, hca⟩
  | ofTemplate _ _ ih => exact ih (by simp) (by simpa using hv)
  | spelled ht hs =>
    obtain ⟨rfl, rfl⟩ : id = _ ∧ v = _ := by simpa [Walk.stores_after, Step.store?] using hv
    exact hst rfl m hm
  | unwrapped _ _ _ _ ih => exact ih (by simp) (by simpa [Walk.stores_after, Step.store?] using hv)
  | unmatched => simp [Walk.stores, Step.store?] at hv

namespace Session

variable {s t : Session Node Key} {n u : Node} {id f : EntryId}

/-! ## Where slots come from -/

theorem extends_run {as : List (Action Node)} (h : s.run lang as = some t) : s.registry.Extends t.registry := by
  refine of_run (P := fun t => s.registry.Extends t.registry) (fun u a u' hu ha => hu.trans ?_) (.refl _) h
  rcases perform_cases ha with ⟨hr, -, -⟩ | ⟨n, r, -, hr, rfl⟩
  · exact hr
  · rw [(resolve?_frame hr).registry]
    exact .refl _

theorem exists_resolve_of_slot {as : List (Action Node)} (h : s.run lang as = some t) {k : Key}
    (hk : t.memo.get? k = some f) : s.memo.get? k = some f ∨
      ∃ bs m cs t₀ w v, as = bs ++ .resolve m :: cs ∧ s.run lang bs = some t₀ ∧
        t₀.outlook.Walks lang .untried m m w ∧ (t₀.conclude lang w).session.run lang cs = some t ∧
        (f, v) ∈ w.stores ∧ lang.key v = k := by
  -- by induction on the actions, from the first one on: the slot is there after it, or a later one fills it
  induction as generalizing s with
  | nil =>
    obtain rfl := Option.some.inj h
    exact .inl hk
  | cons a as ih =>
    obtain ⟨s', ha, h⟩ := run_cons h
    rcases ih h with hk' | ⟨bs, m, cs, t₀, w, v, rfl, hbs, hw, hcs, hv, hkey⟩
    · rcases perform_cases ha with ⟨-, hm | hm, -⟩ | ⟨m, r, rfl, hr, rfl⟩
      · exact .inl (hm ▸ hk')
      · rw [hm] at hk'
        cases hk'
      · obtain ⟨w, hw, rfl⟩ := resolve?_eq_some_iff.1 hr
        rcases mem_stores_or_get? hk' with ⟨v, hv, hkey⟩ | hk'
        · exact .inr ⟨[], m, as, s, w, v, rfl, rfl, hw, h, hv, hkey⟩
        · exact .inl hk'
    · refine .inr ⟨a :: bs, m, cs, t₀, w, v, rfl, ?_, hw, hcs, hv, hkey⟩
      rw [run, ha, Option.bind_some, hbs]

/-! ## Slots that come before the class -/

/-- A resolution of the run stored a node that counts as `n` with the entry, by a name of that node. The node has no
template, and nothing was found for its class then. -/
def SpelledBefore (lang : Language Node Decl Key) (r : Registry) (as : List (Action Node)) (s : Session Node Key)
    (n : Node) (f : EntryId) : Prop :=
  ∃ bs m cs t q v e, as = bs ++ .resolve m :: cs ∧ (Session.new r).run lang bs = some t ∧
    t.resolve? lang m = some q ∧ .stored f v ∈ q.trail ∧ q.session.memo.get? (lang.key n) = some f ∧
    lang.key v = lang.key n ∧ s.registry.byId? f = some e ∧ lang.Spells v e.name ∧ lang.templateTag? v = none ∧
    ∀ c, lang.classTag? v = some c → ∃ q', t.resolve? lang c = some q' ∧ q'.answer = none

theorem spelledBefore_of_slot {r : Registry} {as : List (Action Node)} (hs : (Session.new r).run lang as = some s)
    (hf : s.memo.get? (lang.key n) = some f) : SpelledBefore lang r as s n f := by
  have hnew : (Session.new r : Session Node Key).memo.get? (lang.key n) ≠ some f := by simp [new]
  obtain ⟨bs, m, cs, t, w, v, has, hbs, hw, hcs, hv, hkey⟩ := (exists_resolve_of_slot hs hf).resolve_left hnew
  obtain ⟨⟨name, hl, hspells, ht⟩, -⟩ := lookup?_and_nameable_of_mem_stores hw hv
  obtain ⟨e, he, rfl⟩ := Registry.exists_entry_of_lookup? hl
  obtain ⟨b, he'⟩ := (extends_run hcs).entries f e (by rw [registry_conclude]; exact he)
  refine ⟨bs, m, cs, t, _, v, _, has, hbs, resolve?_of_walks hw, Walk.mem_stores_iff.1 hv, ?_, hkey, he', hspells, ht,
    fun c hcv => ?_⟩
  · rcases Outlook.stores_cases hw with hnil | ⟨i, v', hone, -⟩
    · simp [hnil] at hv
    · obtain ⟨rfl, rfl⟩ : f = i ∧ v = v' := by simpa [hone] using hv
      rw [memo_conclude_of_stores_eq hone, hkey, Dict.get?_insert, if_pos rfl]
  · obtain ⟨q, hq, ha⟩ := Outlook.exists_walks_class_of_mem_stores hw (by simp) hv hcv
    exact ⟨_, resolve?_of_walks hq, ha⟩

/-! ## Main statement -/

/-- **The class comes first, after the memo.** After every run, if the class declared for a specialization is resolved,
so is the specialization, to the same entry and the same node, unless its own slot preempts the class. Then it is
resolved to the entry of the slot, if that is switched on, and to nothing if it is not. A slot preempts the class only
since an earlier resolution found its entry by a name of the specialization and for want of the class. -/
theorem resolve?_of_classDeclaration {registry : Registry} {as : List (Action Node)}
    (hs : (Session.new registry).run lang as = some s) {d : Decl} (hi : lang.isSpecialization n = true)
    (hd : lang.classDeclaration? n = some d) {r : Resolution Node Key}
    (hr : s.resolve? lang (lang.tag d) = some r) (ha : r.answer = some (id, u)) :
    ∃ r', s.resolve? lang n = some r' ∧
      ((∀ f, ¬ s.Preempts (lang.key n) f) → r'.answer = some (id, u)) ∧
      ∀ f, s.Preempts (lang.key n) f → r'.answer = (if s.registry.isEnabled f then some (f, n) else none) ∧
        SpelledBefore lang registry as s n f := by
  obtain ⟨w, hw, rfl⟩ := resolve?_eq_some_iff.1 hr
  have hc : lang.classTag? n = some (lang.tag d) := by
    rw [FrontEnd.classTag?, if_pos hi, hd, Option.map_some]
  cases hopen : (s.consult (lang.key n)).isOpen with
  | true =>
    have hclass : s.outlook.Walks lang .unsettled n n w :=
      .ofClass hc hw (by simp [show w.answer = some (id, u) from ha])
    refine ⟨_, resolve?_of_walks (.unsettled hopen hclass), fun _ => ha, fun f hf => ?_⟩
    rw [isOpen_eq_false_iff.2 ⟨f, hf⟩] at hopen
    cases hopen
  | false =>
    obtain ⟨f, hf⟩ := isOpen_eq_false_iff.1 hopen
    obtain ⟨w', hw', ha'⟩ := exists_walks_of_preempts hf n
    refine ⟨_, resolve?_of_walks hw', fun hno => absurd hf (hno f), fun f' hf' => ?_⟩
    obtain rfl : f' = f := Option.some.inj (hf'.slot.symm.trans hf.slot)
    exact ⟨ha', spelledBefore_of_slot hs hf.slot⟩

/-! ## A specialization that was resolved before its class had a name -/

/-- A specialization with a class of the name `V`. -/
def specialized : TypeTerm := .specialization "X" [] (some "V") none

/-- A session in which the specialization was resolved by a name of its own. -/
def early : Session TypeTerm TypeTerm where
  registry := (Registry.new {}).register { name := "X<>", origin := "a" }
  memo := Dict.empty.insert specialized 0
  bound := Dict.empty.insert 0 specialized

theorem run_early (as : List (Action TypeTerm)) : (Session.new (.new {})).run TypeTerm.plain
    (.register { name := "X<>", origin := "a" } :: .resolve specialized :: as) = early.run TypeTerm.plain as := by
  let s₀ : Session TypeTerm TypeTerm := (new (.new {})).register { name := "X<>", origin := "a" }
  obtain ⟨w, hw, hstores, hbindings⟩ : ∃ w, s₀.outlook.Walks TypeTerm.plain .untried specialized specialized w ∧
      w.stores = [(0, specialized)] ∧ w.bindings = [(0, specialized)] :=
    ⟨_, .unsettled (by rfl) (.classFailed (by rfl) (.unsettled (by rfl) (.classless rfl (.unmatched rfl (by rfl)
      (by rfl)))) rfl (.spelled rfl (by rfl))),
      by simp [Walk.stores_after, List.filterMap_cons, Step.store?, new, Registry.new, Array.empty],
      by simp [Walk.bindings_after, List.filterMap_cons, Step.binding?, new, Registry.new, Array.empty]⟩
  have hs : (s₀.conclude TypeTerm.plain w).session = early := by
    calc (s₀.conclude TypeTerm.plain w).session
        = ⟨(s₀.conclude TypeTerm.plain w).session.registry, (s₀.conclude TypeTerm.plain w).session.memo,
            (s₀.conclude TypeTerm.plain w).session.bound⟩ := rfl
      _ = early := by rw [registry_conclude, memo_conclude, hstores, bound_conclude, hbindings]; rfl
  exact (run_resolve hw as).trans (by rw [hs])

/-- The slot of the specialization stays in the way of its class, as long as its entry has its name. -/
theorem resolve?_of_classDeclaration_preempted :
    ∃ s r r', (Session.new (.new {})).run TypeTerm.plain [.register { name := "X<>", origin := "a" },
        .resolve specialized, .register { name := "V", origin := "a" }] = some s ∧
      TypeTerm.plain.isSpecialization specialized = true ∧
      TypeTerm.plain.classDeclaration? specialized = some "V" ∧
      s.resolve? TypeTerm.plain (TypeTerm.plain.tag "V") = some r ∧ r.answer = some (1, .named "V") ∧
      s.resolve? TypeTerm.plain specialized = some r' ∧ r'.answer = some (0, specialized) := by
  let s := early.register { name := "V", origin := "a" }
  have hclass : s.outlook.Walks TypeTerm.plain .untried (.named "V") (.named "V")
      ⟨[.rendered (.named "V") {} "V" true, .stored 1 (.named "V"), .bound 1 (.named "V")], some (1, .named "V")⟩ :=
    .unsettled rfl (.classless rfl (.spelled rfl rfl))
  have hslot : s.outlook.Walks TypeTerm.plain .untried specialized specialized (.found 0 specialized) := .ready rfl
  exact ⟨s, _, _, run_early _, rfl, rfl, resolve?_of_walks hclass, rfl, resolve?_of_walks hslot, rfl⟩

/-- Once the entry has lost its name, the class comes first again. -/
theorem resolve?_of_classDeclaration_past_slot :
    ∃ s r', (Session.new (.new {})).run TypeTerm.plain [.register { name := "X<>", origin := "a" },
        .resolve specialized, .register { name := "V", origin := "a" }, .register { name := "X<>", origin := "b" }] =
        some s ∧
      s.memo.get? specialized = some 0 ∧ s.resolve? TypeTerm.plain specialized = some r' ∧
      r'.answer = some (1, .named "V") := by
  let s := (early.register { name := "V", origin := "a" }).register { name := "X<>", origin := "b" }
  have hs : (Session.new (.new {})).run TypeTerm.plain [.register { name := "X<>", origin := "a" },
      .resolve specialized, .register { name := "V", origin := "a" }, .register { name := "X<>", origin := "b" }] =
      some s := run_early _
  have hclass : s.outlook.Walks TypeTerm.plain .untried (.named "V") (.named "V")
      ⟨[.rendered (.named "V") {} "V" true, .stored 1 (.named "V"), .bound 1 (.named "V")], some (1, .named "V")⟩ :=
    .unsettled rfl (.classless rfl (.spelled rfl rfl))
  obtain ⟨r', hr', hclass', -⟩ := resolve?_of_classDeclaration hs (n := specialized) (d := "V") rfl rfl
    (resolve?_of_walks hclass) rfl
  refine ⟨s, r', hs, rfl, hr', hclass' fun f hf => ?_⟩
  obtain rfl : 0 = f := Option.some.inj hf.slot
  obtain ⟨e, he, hg⟩ := hf.registered
  obtain rfl := Option.some.inj he
  cases hg

end Session

end TypeMapping
