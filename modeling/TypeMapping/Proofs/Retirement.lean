import TypeMapping.Proofs.Frame
import TypeMapping.Proofs.Resolvable

/-!
# Entries that have lost their name

An entry whose name was taken over stays where it is. Slots of the memo may lead to it for long, and its holder may
still switch it on and off.

* `Registry.ReplacesAmong` : registrations, one of which takes the name of an entry over;
* `Registry.Nameless`      : an entry that has lost its name;
* `Session.SameBut`        : two sessions of which all is the same but the switch of an entry;
* `Session.Inert`          : an entry that plays no part in what comes after;
* `Registry.Faithful`      : a registry in which every entry is what its name stands for.

Main statements: `registry_perform`, what registrations and switches keep every action keeps; `perform_setEnabled`,
`run_setEnabled`, the switch of an entry without a name may as well be set after an action, or after a run, as before;
`inert_of_replaced`, entries that were replaced are inert from then on, and there are none under the policy of
rejection.
-/

namespace TypeMapping

/-! ## Switches and registrations -/

namespace Registry

variable {r : Registry} {id : EntryId} {b : Bool}

theorem eq_of_entries_eq {r' : Registry} (ho : r.options = r'.options) (he : r.entries = r'.entries)
    (hi : r.index = r'.index) (hc : r.collisions = r'.collisions) : r = r' := by
  cases r
  cases r'
  simp_all

@[simp] theorem size_entries_setEnabled (r : Registry) (id : EntryId) (b : Bool) :
    (r.setEnabled id b).entries.size = r.entries.size := Array.size_modify

@[simp] theorem setEnabled_setEnabled (r : Registry) (id : EntryId) (b b' : Bool) :
    (r.setEnabled id b).setEnabled id b' = r.setEnabled id b' := by
  refine eq_of_entries_eq rfl (Array.ext_getElem? fun i => ?_) rfl rfl
  show ((r.setEnabled id b).setEnabled id b').byId? i = (r.setEnabled id b').byId? i
  rw [byId?_setEnabled, byId?_setEnabled, byId?_setEnabled]
  split
  · rw [Option.map_map]
    rfl
  · rfl

theorem setEnabled_comm {i j : EntryId} (h : i ≠ j) (b c : Bool) :
    (r.setEnabled j c).setEnabled i b = (r.setEnabled i b).setEnabled j c := by
  refine eq_of_entries_eq rfl (Array.ext_getElem? fun k => ?_) rfl rfl
  show ((r.setEnabled j c).setEnabled i b).byId? k = ((r.setEnabled i b).setEnabled j c).byId? k
  simp only [byId?_setEnabled]
  grind

@[simp] theorem isCurrent_setEnabled (r : Registry) (id : EntryId) (b : Bool) (i : EntryId) :
    (r.setEnabled id b).isCurrent i = r.isCurrent i := by
  unfold isCurrent
  rw [byId?_setEnabled]
  split
  · rw [Option.any_map]
    rfl
  · rfl

theorem isEnabled_setEnabled_of_ne {i : EntryId} (h : id ≠ i) (b : Bool) :
    (r.setEnabled id b).isEnabled i = r.isEnabled i := by
  rw [isEnabled, byId?_setEnabled, if_neg h, isEnabled]

theorem store_setEnabled {e' : Entry} (h : r.byId? id = some e') (b : Bool) (e : Entry) :
    (r.setEnabled id b).store e = (r.store e).setEnabled id b := by
  have hid := ne_size_of_byId? h
  refine eq_of_entries_eq rfl (Array.ext_getElem? fun i => ?_) ?_ rfl
  · show ((r.setEnabled id b).store e).byId? i = ((r.store e).setEnabled id b).byId? i
    rw [byId?_setEnabled, byId?_store, byId?_store, byId?_setEnabled, size_entries_setEnabled]
    grind
  · show r.index.insert e.name _ = r.index.insert e.name _
    rw [size_entries_setEnabled]

theorem verdict_congr {r' : Registry} {d : Declaration} (ho : r'.options = r.options)
    (hh : ((r'.get? d.name).bind r'.byId?).map Entry.origin = ((r.get? d.name).bind r.byId?).map Entry.origin) :
    r'.verdict d = r.verdict d := by
  unfold verdict
  rw [ho]
  cases h : (r.get? d.name).bind r.byId? <;> cases h' : (r'.get? d.name).bind r'.byId? <;> simp_all

@[simp] theorem verdict_setEnabled (r : Registry) (id : EntryId) (b : Bool) (d : Declaration) :
    (r.setEnabled id b).verdict d = r.verdict d := by
  refine verdict_congr rfl ?_
  rw [get?_setEnabled]
  cases r.get? d.name with
  | none => rfl
  | some i =>
    rw [Option.bind_some, Option.bind_some, byId?_setEnabled]
    split
    · rw [Option.map_map]
      rfl
    · rfl

theorem register_setEnabled {e : Entry} (h : r.byId? id = some e) (b : Bool) (d : Declaration) :
    (r.setEnabled id b).register d = (r.register d).setEnabled id b := by
  unfold register
  rw [verdict_setEnabled]
  cases r.verdict d with
  | filtered => rfl
  | added => exact store_setEnabled h b _
  | replaced existing => exact congrArg (record · _) (store_setEnabled h b _)
  | rejected error => rfl

end Registry

namespace Discovery

/-- The discovery with the entry switched on or off. -/
def setEnabled (s : Discovery) (id : EntryId) (b : Bool) : Discovery :=
  { s with registry := s.registry.setEnabled id b }

variable {s : Discovery} {id : EntryId} {e : Entry}

theorem register_setEnabled (h : s.registry.byId? id = some e) (b : Bool) (d : Declaration) :
    (s.setEnabled id b).register d = (s.register d).setEnabled id b := by
  simp only [register, setEnabled, Registry.verdict_setEnabled, Registry.notices, Registry.register_setEnabled h]
  rfl

theorem foldl_register_setEnabled (h : s.registry.byId? id = some e) (b : Bool) (ds : List Declaration) :
    ds.foldl register (s.setEnabled id b) = (ds.foldl register s).setEnabled id b := by
  induction ds generalizing s e with
  | nil => rfl
  | cons d ds ih =>
    obtain ⟨_, he⟩ := (s.registry.extends_register d).entries id e h
    rw [List.foldl_cons, List.foldl_cons, register_setEnabled h, ih he]

theorem visit_setEnabled (h : s.registry.byId? id = some e) (b : Bool) (p : Provider) :
    (s.setEnabled id b).visit p = (s.visit p).setEnabled id b := by
  unfold visit
  cases p.declarations with
  | error failure => rfl
  | ok ds =>
    exact foldl_register_setEnabled
      (s := { s with report := { s.report with components := s.report.components + 1 } }) h b _

theorem foldl_visit_setEnabled (h : s.registry.byId? id = some e) (b : Bool) (ps : List Provider) :
    ps.foldl visit (s.setEnabled id b) = (ps.foldl visit s).setEnabled id b := by
  induction ps generalizing s e with
  | nil => rfl
  | cons p ps ih =>
    obtain ⟨_, he⟩ := (Registry.extends_foldl_register p.offers s.registry).entries id e h
    rw [← registry_visit] at he
    rw [List.foldl_cons, List.foldl_cons, visit_setEnabled h, ih he]

end Discovery

/-- An entry that is there may be switched before a discovery as well as after it. -/
theorem Registry.discover_setEnabled {r : Registry} {id : EntryId} {e : Entry} (h : r.byId? id = some e) (b : Bool)
    (ps : List Provider) : (r.setEnabled id b).discover ps = (r.discover ps).setEnabled id b := by
  have hfold : ps.foldl Discovery.visit { registry := r.setEnabled id b } = _ :=
    Discovery.foldl_visit_setEnabled (s := { registry := r }) h b ps
  unfold discover
  rw [hfold]
  rfl

/-! ## Names that are lost -/

namespace Registry

variable {r : Registry} {id : EntryId}

theorem of_foldl_register {P : Registry → Prop} (hP : ∀ r d, P r → P (r.register d)) (ds : List Declaration)
    (h : P r) : P (ds.foldl register r) := by
  induction ds generalizing r with
  | nil => exact h
  | cons d ds ih => exact ih (hP r d h)

/-- The entry has lost its name to another one. -/
def Nameless (r : Registry) (id : EntryId) : Prop :=
  ∃ e, r.byId? id = some e ∧ r.get? e.name ≠ some id

/-- The registration takes the name of the entry over. -/
def Replaces (r : Registry) (d : Declaration) (id : EntryId) : Prop :=
  r.get? d.name = some id ∧ ∃ existing, r.verdict d = .replaced existing

/-- One of the registrations does so, made one after the other. -/
def ReplacesAmong (r : Registry) : List Declaration → EntryId → Prop
  | [], _ => False
  | d :: ds, id => r.Replaces d id ∨ (r.register d).ReplacesAmong ds id

theorem Nameless.isCurrent (h : r.Nameless id) : r.isCurrent id = false := by
  obtain ⟨e, he, hg⟩ := h
  simp [Registry.isCurrent, he, hg]

theorem Nameless.get?_ne (h : r.Nameless id) (name : String) : r.get? name ≠ some id := by
  intro hg
  have hc := isCurrent_of_get? hg
  rw [h.isCurrent] at hc
  cases hc

theorem Nameless.store (h : r.Nameless id) (e : Entry) : (r.store e).Nameless id := by
  obtain ⟨e', he, hg⟩ := h
  have hid := ne_size_of_byId? he
  refine ⟨e', by rw [byId?_store, if_neg hid, he], ?_⟩
  rw [get?_store]
  split
  · exact fun h => hid (Option.some.inj h).symm
  · exact hg

theorem Nameless.register (h : r.Nameless id) (d : Declaration) : (r.register d).Nameless id := by
  unfold Registry.register
  cases r.verdict d with
  | filtered => exact h
  | added => exact h.store _
  | replaced existing => exact h.store _
  | rejected error => exact h

theorem Nameless.setEnabled (h : r.Nameless id) (i : EntryId) (b : Bool) : (r.setEnabled i b).Nameless id := by
  obtain ⟨e, he, hg⟩ := h
  obtain ⟨_, hb⟩ := (r.extends_setEnabled i b).entries id e he
  exact ⟨_, hb, hg⟩

theorem nameless_of_replaces {d : Declaration} (h : r.Replaces d id) : (r.register d).Nameless id := by
  obtain ⟨hg, existing, hv⟩ := h
  obtain ⟨e, he, hn⟩ := exists_entry_of_get? hg
  have hid := ne_size_of_byId? he
  unfold register
  rw [hv]
  refine ⟨e, by rw [byId?_record, byId?_store, if_neg hid, he], ?_⟩
  rw [get?_record, get?_store, hn, if_pos (show (d.entry r.options).name = d.name from rfl)]
  exact fun h => hid (Option.some.inj h).symm

theorem nameless_of_replacesAmong {ds : List Declaration} (h : r.ReplacesAmong ds id) :
    (ds.foldl register r).Nameless id := by
  induction ds generalizing r with
  | nil => exact h.elim
  | cons d ds ih =>
    rcases h with hd | hds
    · exact of_foldl_register (P := fun r => r.Nameless id) (fun _ d h => h.register d) ds (nameless_of_replaces hd)
    · exact ih hds

theorem Nameless.lookup?_setEnabled (h : r.Nameless id) (b : Bool) : (r.setEnabled id b).lookup? = r.lookup? := by
  funext name
  rw [lookup?, lookup?, get?_setEnabled]
  cases hg : r.get? name with
  | none => rfl
  | some i =>
    have hi : id ≠ i := fun hi => h.get?_ne name (hi ▸ hg)
    rw [Option.filter_some, Option.filter_some, isEnabled_setEnabled_of_ne hi]

/-- Every entry is what its name stands for. -/
def Faithful (r : Registry) : Prop := ∀ id e, r.byId? id = some e → r.get? e.name = some id

theorem faithful_new (o : Options) : (new o).Faithful := fun id e he => by simp [byId?, new, Array.empty] at he

theorem not_replaced_of_reject {d : Declaration} (hp : r.options.policy = .reject) (existing : String) :
    r.verdict d ≠ .replaced existing := by
  unfold verdict
  rw [hp]
  split
  · split <;> simp
  · simp

theorem Faithful.register (h : r.Faithful) (hp : r.options.policy = .reject) (d : Declaration) :
    (r.register d).Faithful := by
  unfold Registry.register
  cases hv : r.verdict d with
  | filtered => exact h
  | added =>
    intro id e he
    rw [byId?_store] at he
    rw [get?_store]
    split at he
    · next hid =>
      obtain rfl := Option.some.inj he
      rw [if_pos rfl, hid]
    · -- the name of an older entry is taken, so it is not the one that was added
      have hg := h id e he
      have hne : (d.entry r.options).name ≠ e.name := by
        intro hn
        rw [← hn, show (d.entry r.options).name = d.name from rfl, get?_of_verdict_added hv] at hg
        cases hg
      rw [if_neg hne, hg]
  | replaced existing => exact absurd hv (not_replaced_of_reject hp existing)
  | rejected error => exact h

theorem Faithful.setEnabled (h : r.Faithful) (i : EntryId) (b : Bool) : (r.setEnabled i b).Faithful := by
  intro id e he
  rw [byId?_setEnabled] at he
  split at he
  · obtain ⟨e', he', rfl⟩ := Option.map_eq_some_iff.1 he
    exact h id e' he'
  · exact h id e he

end Registry

namespace Session

variable {Node Decl Key : Type} [DecidableEq Key] {lang : Language Node Decl Key} {s s' t : Session Node Key}
  {id : EntryId} {a : Action Node}

/-! ## What is kept -/

/-- What registrations and switches keep of a registry, every action keeps. -/
theorem registry_perform {P : Registry → Prop} (hr : ∀ r d, P r → P (r.register d))
    (hs : ∀ r i b, P r → P (r.setEnabled i b)) (h : P s.registry) (ha : s.perform lang a = some s') :
    P s'.registry := by
  cases a with
  | register d =>
    obtain rfl := Option.some.inj ha
    exact hr _ d h
  | discover ps =>
    obtain rfl := Option.some.inj ha
    simp only [discover, Registry.registry_discover]
    exact Registry.of_foldl_register hr _ h
  | setEnabled i b =>
    obtain rfl := Option.some.inj ha
    exact hs _ i b h
  | forget =>
    obtain rfl := Option.some.inj ha
    exact h
  | resolve n =>
    obtain ⟨r, hr, rfl⟩ := Option.map_eq_some_iff.1 ha
    rwa [(resolve?_frame hr).registry]

theorem nameless_perform (h : s.registry.Nameless id) (ha : s.perform lang a = some s') :
    s'.registry.Nameless id :=
  registry_perform (P := fun r => r.Nameless id) (fun _ d h => h.register d) (fun _ i b h => h.setEnabled i b) h ha

/-- What a resolution answers is the enabled entry that its name stands for. -/
theorem exists_lookup?_of_answer {n u : Node} {r : Resolution Node Key} (hr : s.resolve? lang n = some r)
    (ha : r.answer = some (id, u)) : ∃ e, s.registry.byId? id = some e ∧ s.registry.lookup? e.name = some id := by
  obtain ⟨w, hw, rfl⟩ := resolve?_eq_some_iff.1 hr
  obtain ⟨v, hv⟩ := Outlook.exists_lands hw (by simp) ha
  rcases hv.found with ⟨hr, -⟩ | ⟨hf, -⟩
  · exact (consult_eq_ready hr).2
  · obtain ⟨p, -, hl⟩ := List.exists_of_findSome?_eq_some ((Outlook.search_snd ..).symm.trans hf.found)
    obtain ⟨e, he, hn⟩ := Registry.exists_entry_of_lookup? hl
    exact ⟨e, he, hn ▸ hl⟩

theorem isCurrent_of_answer {n u : Node} {r : Resolution Node Key} (hr : s.resolve? lang n = some r)
    (ha : r.answer = some (id, u)) : s.registry.isCurrent id = true := by
  obtain ⟨e, -, hl⟩ := exists_lookup?_of_answer hr ha
  exact Registry.isCurrent_of_get? (Registry.get?_of_lookup? hl)

theorem boundTo?_of_nameless (h : s.registry.Nameless id) (ha : s.perform lang a = some s') :
    s'.boundTo? id = s.boundTo? id := by
  rcases perform_cases ha with ⟨-, -, hb⟩ | ⟨n, r, -, hr, rfl⟩
  · rw [boundTo?, hb, boundTo?]
  · -- a resolution binds its answer and entries that are switched off, and all of them have their names
    refine Classical.byContradiction fun hne => ?_
    have hanswer : ∀ u, r.answer ≠ some (id, u) := by
      intro u hu
      have hc := isCurrent_of_answer hr hu
      rw [h.isCurrent] at hc
      cases hc
    obtain ⟨hc, -⟩ := (resolve?_frame hr).others id hanswer hne
    rw [h.isCurrent] at hc
    cases hc

theorem nameless_run {as : List (Action Node)} (h : s.registry.Nameless id) (ht : s.run lang as = some t) :
    t.registry.Nameless id ∧ t.boundTo? id = s.boundTo? id :=
  of_run (P := fun t => t.registry.Nameless id ∧ t.boundTo? id = s.boundTo? id)
    (fun _ _ _ hs ha => ⟨nameless_perform hs.1 ha, (boundTo?_of_nameless hs.1 ha).trans hs.2⟩) ⟨h, rfl⟩ ht

/-! ## The switch of an entry without a name -/

omit [DecidableEq Key] in
@[simp] theorem registry_setEnabled (s : Session Node Key) (id : EntryId) (b : Bool) :
    (s.setEnabled id b).registry = s.registry.setEnabled id b := rfl

omit [DecidableEq Key] in
@[simp] theorem memo_setEnabled (s : Session Node Key) (id : EntryId) (b : Bool) :
    (s.setEnabled id b).memo = s.memo := rfl

/-- The switch of an entry that has lost its name is not read by walks. -/
theorem outlook_setEnabled (h : s.registry.Nameless id) (b : Bool) : (s.setEnabled id b).outlook = s.outlook := by
  unfold outlook
  congr 1
  · funext k
    simp only [consult, memo_setEnabled, registry_setEnabled, Registry.isCurrent_setEnabled]
    cases s.memo.get? k with
    | none => rfl
    | some i =>
      by_cases hi : id = i
      · -- the slot leads to the entry itself, and is superseded whatever the switch says
        simp [← hi, h.isCurrent]
      · simp [Registry.isEnabled_setEnabled_of_ne hi]
  · exact h.lookup?_setEnabled b

theorem conclude_setEnabled (id : EntryId) (b : Bool) (w : Walk Node) : (s.setEnabled id b).conclude lang w =
    { s.conclude lang w with session := (s.conclude lang w).session.setEnabled id b } := by
  have hfold : ∀ (steps : List (Step Node)) (s : Session Node Key),
      steps.foldl (apply lang) (s.setEnabled id b) = (steps.foldl (apply lang) s).setEnabled id b := by
    intro steps
    induction steps with
    | nil => exact fun _ => rfl
    | cons a steps ih =>
      intro s
      rw [List.foldl_cons, List.foldl_cons, ← ih]
      cases a <;> rfl
  simp only [conclude, hfold]

theorem resolve?_setEnabled (h : s.registry.Nameless id) (b : Bool) (n : Node) :
    (s.setEnabled id b).resolve? lang n =
      (s.resolve? lang n).map fun r => { r with session := r.session.setEnabled id b } := by
  rw [resolve?, resolve?, outlook_setEnabled h, Option.map_map]
  congr 1
  funext w
  exact conclude_setEnabled id b w

variable (lang) in
/-- The switch of an entry that has lost its name may as well be set after an action as before; only an action that
sets it itself has the last word. -/
theorem perform_setEnabled (h : s.registry.Nameless id) (b : Bool) (a : Action Node) :
    ∃ c, (s.setEnabled id b).perform lang a = (s.perform lang a).map fun t => t.setEnabled id c := by
  have ⟨e, he, _⟩ := h
  cases a with
  | register d =>
    refine ⟨b, congrArg some ?_⟩
    simp only [setEnabled, register, Registry.register_setEnabled he]
  | discover ps =>
    refine ⟨b, congrArg some ?_⟩
    simp only [setEnabled, discover, Registry.discover_setEnabled he, Discovery.setEnabled]
  | setEnabled i b' =>
    by_cases hi : i = id
    · subst hi
      exact ⟨b', congrArg some (by simp only [setEnabled, Registry.setEnabled_setEnabled])⟩
    · exact ⟨b, congrArg some (by simp only [setEnabled, Registry.setEnabled_comm hi])⟩
  | forget => exact ⟨b, rfl⟩
  | resolve n =>
    refine ⟨b, ?_⟩
    simp only [perform, resolve?_setEnabled h, Option.map_map]
    rfl

variable (lang) in
/-- The switch of an entry that has lost its name may as well be set after a run as before. -/
theorem run_setEnabled (h : s.registry.Nameless id) (b : Bool) (as : List (Action Node)) :
    ∃ c, (s.setEnabled id b).run lang as = (s.run lang as).map fun t => t.setEnabled id c := by
  induction as generalizing s b with
  | nil => exact ⟨b, rfl⟩
  | cons a as ih =>
    obtain ⟨c, hc⟩ := perform_setEnabled lang h b a
    rw [run, run, hc]
    cases ha : s.perform lang a with
    | none => exact ⟨b, rfl⟩
    | some s' => exact ih (nameless_perform h ha) c

/-! ## Under the policy of rejection -/

theorem faithful_perform (h : s.registry.Faithful ∧ s.registry.options.policy = .reject)
    (ha : s.perform lang a = some s') : s'.registry.Faithful ∧ s'.registry.options.policy = .reject :=
  registry_perform (P := fun r => r.Faithful ∧ r.options.policy = .reject)
    (fun r d h => ⟨h.1.register h.2 d, by rw [(r.extends_register d).options, h.2]⟩)
    (fun _ i b h => ⟨h.1.setEnabled i b, h.2⟩) h ha

/-! ## Main statement -/

/-- The sessions are the same but for the switch of the entry, and what is asked of them next is answered alike. -/
structure SameBut (lang : Language Node Decl Key) (id : EntryId) (s t : Session Node Key) : Prop where
  switch : ∃ c, t = s.setEnabled id c
  answers : ∀ n, (t.resolve? lang n).map (fun r => (r.trail, r.answer)) =
    (s.resolve? lang n).map fun r => (r.trail, r.answer)
  lookups : ∀ name, t.resolveName name = s.resolveName name
  verdicts : ∀ d, t.registry.verdict d = s.registry.verdict d
  discoveries : ∀ ps, (t.registry.discover ps).report = (s.registry.discover ps).report ∧
    (t.registry.discover ps).notices = (s.registry.discover ps).notices
  names : t.registry.index = s.registry.index
  collisions : t.registry.collisions = s.registry.collisions
  others : ∀ i, i ≠ id → t.registry.byId? i = s.registry.byId? i
  memo : t.memo = s.memo
  bound : t.bound = s.bound

/-- Whatever is done from here on, the entry plays no part in it, and to switch it here makes no difference to it. -/
structure Inert (lang : Language Node Decl Key) (s : Session Node Key) (id : EntryId) : Prop where
  /-- No resolution comes to the entry. -/
  answers : ∀ as t n r u, s.run lang as = some t → t.resolve? lang n = some r → r.answer ≠ some (id, u)
  /-- No name stands for it. -/
  names : ∀ as t name, s.run lang as = some t → t.registry.get? name ≠ some id ∧ t.resolveName name ≠ some id
  bound : ∀ as t, s.run lang as = some t → t.boundTo? id = s.boundTo? id
  /-- The same can be done after it was switched on or off. -/
  runs : ∀ b as, ((s.setEnabled id b).run lang as).isSome = (s.run lang as).isSome
  switch : ∀ b as t t', s.run lang as = some t → (s.setEnabled id b).run lang as = some t' → SameBut lang id t t'

theorem sameBut_setEnabled (h : s.registry.Nameless id) (c : Bool) : SameBut lang id s (s.setEnabled id c) := by
  have ⟨e, he, _⟩ := h
  refine {
    switch := ⟨c, rfl⟩
    answers := fun n => ?_
    lookups := fun name => congrFun (h.lookup?_setEnabled c) name
    verdicts := fun d => Registry.verdict_setEnabled ..
    discoveries := fun ps => ?_
    names := rfl
    collisions := rfl
    others := fun i hi => ?_
    memo := rfl
    bound := rfl }
  · rw [resolve?_setEnabled h, Option.map_map]
    rfl
  · rw [registry_setEnabled, Registry.discover_setEnabled he]
    exact ⟨rfl, rfl⟩
  · rw [registry_setEnabled, Registry.byId?_setEnabled, if_neg hi.symm]

theorem inert_of_nameless (h : s.registry.Nameless id) : s.Inert lang id where
  answers as t n r u ht hr ha := by
    have hc := isCurrent_of_answer hr ha
    rw [(nameless_run h ht).1.isCurrent] at hc
    cases hc
  names as t name ht := by
    have hne := (nameless_run h ht).1.get?_ne name
    exact ⟨hne, fun hl => hne (Registry.get?_of_lookup? hl)⟩
  bound as t ht := (nameless_run h ht).2
  runs b as := by
    obtain ⟨c, hc⟩ := run_setEnabled lang h b as
    rw [hc, Option.isSome_map]
  switch b as t t' ht ht' := by
    obtain ⟨c, hc⟩ := run_setEnabled lang h b as
    rw [ht, ht', Option.map_some] at hc
    obtain rfl := Option.some.inj hc
    exact sameBut_setEnabled (nameless_run h ht).1 c

/-- **Entries that were replaced are inert.** At any time after a registration that takes the name of an entry over,
alone or in a discovery, no resolution and no name leads to the entry any more, its node stays, and to switch it on or
off then makes no difference to anything else. Under the policy of rejection every entry is what its name stands for at
all times, and so every slot of the memo leads to what a name stands for. -/
theorem inert_of_replaced {o : Options} {as : List (Action Node)} (hs : (Session.new (.new o)).run lang as = some s) :
    (∀ a s' id, s.perform lang a = some s' → s.registry.ReplacesAmong a.declarations id →
      ∀ bs t, s'.run lang bs = some t → t.Inert lang id) ∧
    (o.policy = .reject → (∀ id e, s.registry.byId? id = some e → s.registry.get? e.name = some id) ∧
      ∀ k id, s.memo.get? k = some id →
        ∃ e, s.registry.byId? id = some e ∧ s.registry.get? e.name = some id) := by
  refine ⟨fun a s' id ha hr bs t ht => ?_, fun hp => ?_⟩
  · suffices hs' : s'.registry.Nameless id from inert_of_nameless (nameless_run hs' ht).1
    cases a with
    | register d =>
      obtain rfl := Option.some.inj ha
      exact Registry.nameless_of_replacesAmong hr
    | discover ps =>
      obtain rfl := Option.some.inj ha
      simp only [discover, Registry.registry_discover]
      exact Registry.nameless_of_replacesAmong hr
    | setEnabled _ _ | forget | resolve _ => exact hr.elim
  · obtain ⟨hfaithful, -⟩ := of_run (P := fun t => t.registry.Faithful ∧ t.registry.options.policy = .reject)
      (fun _ _ _ ht ha => faithful_perform ht ha) ⟨Registry.faithful_new o, hp⟩ hs
    have hslots : s.Slots lang lang.Nameable :=
      of_run (fun _ _ _ ht ha => slots_perform ht ha) (slots_of_empty fun _ => rfl) hs
    refine ⟨hfaithful, fun k id hk => ?_⟩
    obtain ⟨-, e, -, he, -⟩ := hslots k id hk
    exact ⟨e, he, hfaithful id e he⟩

/-- The memo still leads to the first entry of the name `V` after the second one took the name over, the first one was
switched off, and another name was registered; under the policy of rejection it is the second one that is refused. -/
theorem inert_of_replaced_past_slot :
    (∃ s s' t, (Session.new (.new {})).run TypeTerm.plain [.register { name := "V", origin := "a" },
        .resolve (.named "V")] = some s ∧
      s.perform TypeTerm.plain (.register { name := "V", origin := "b" }) = some s' ∧
      s'.run TypeTerm.plain [.setEnabled 0 false, .register { name := "W", origin := "a" }] = some t ∧
      t.memo.get? (.named "V") = some 0 ∧ t.registry.get? "V" = some 1 ∧ t.Inert TypeTerm.plain 0) ∧
    ∃ s e, (Session.new (.new { policy := .reject })).run TypeTerm.plain [
        .register { name := "V", origin := "a" }, .resolve (.named "V"),
        .register { name := "V", origin := "b" }] = some s ∧
      s.memo.get? (.named "V") = some 0 ∧ s.registry.byId? 0 = some e ∧ s.registry.get? e.name = some 0 := by
  constructor
  · let s := (sample.conclude TypeTerm.plain .sample).session
    have hs : (Session.new (.new {})).run TypeTerm.plain [.register { name := "V", origin := "a" },
        .resolve (.named "V")] = some s := run_resolve (walks_sample _) _
    have hr : s.registry.ReplacesAmong [{ name := "V", origin := "b" }] 0 := .inl ⟨rfl, "a", rfl⟩
    let s' := s.register { name := "V", origin := "b" }
    have ht : s'.run TypeTerm.plain [.setEnabled 0 false, .register { name := "W", origin := "a" }] =
        some ((s'.setEnabled 0 false).register { name := "W", origin := "a" }) := rfl
    exact ⟨s, s', _, hs, rfl, ht, rfl, rfl,
      (inert_of_replaced hs).1 (.register { name := "V", origin := "b" }) s' 0 rfl hr _ _ ht⟩
  · let s₀ : Session TypeTerm TypeTerm :=
      (new (.new { policy := .reject })).register { name := "V", origin := "a" }
    have hw : s₀.outlook.Walks TypeTerm.plain .untried (.named "V") (.named "V") .sample :=
      .unsettled rfl (.classless rfl (.spelled rfl rfl))
    have hs : (Session.new (.new { policy := .reject })).run TypeTerm.plain [
        .register { name := "V", origin := "a" }, .resolve (.named "V"),
        .register { name := "V", origin := "b" }] =
        some ((s₀.conclude TypeTerm.plain .sample).session.register { name := "V", origin := "b" }) :=
      run_resolve hw _
    obtain ⟨-, hslots⟩ := (inert_of_replaced hs).2 rfl
    obtain ⟨e, he, hg⟩ := hslots (.named "V") 0 rfl
    exact ⟨_, e, hs, rfl, he, hg⟩

end Session

end TypeMapping
