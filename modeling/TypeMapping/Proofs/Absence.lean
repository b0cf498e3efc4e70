import TypeMapping.Proofs.Blocking
import TypeMapping.Proofs.Retirement

/-!
# Entries that are switched off, and entries that are not there

A search passes over an entry that is switched off, but a slot of the memo that leads to it ends the resolution. So to
switch an entry off is to remove its name, and to block the nodes of its slots.

* `Registry.holder?`       : the entry that a name stands for, with its fields;
* `Registry.populated`     : the registry after registrations, made one after the other;
* `Registry.Without`       : a registry from which a name was left out;
* `Session.without`        : the session that was never told of a name;
* `Session.resolveBlocked?`: resolutions that find nothing at certain nodes.

Main statements: `without_populated`, registrations of other names come to the same without those of one name;
`resolve?_setEnabled_false`, with an entry switched off, a node is resolved as if its name had never been registered and
nothing were found at the nodes of its slots.
-/

namespace TypeMapping

/-! ## Registries without a name -/

namespace Registry

/-- The entry that the name stands for. -/
def holder? (r : Registry) (name : String) : Option Entry := (r.get? name).bind r.byId?

/-- The registry of a session with options `o` after these registrations. -/
def populated (o : Options) (ds : List Declaration) : Registry := ds.foldl register (new o)

variable {r r' : Registry} {name x : String} {d : Declaration}

theorem holder?_store (r : Registry) (e : Entry) (name : String) :
    (r.store e).holder? name = if e.name = name then some e else r.holder? name := by
  unfold holder?
  rw [get?_store]
  split
  · rw [Option.bind_some, byId?_store, if_pos rfl]
  · cases h : r.get? name with
    | none => rfl
    | some id =>
      obtain ⟨e', he, -⟩ := exists_entry_of_get? h
      rw [Option.bind_some, Option.bind_some, byId?_store, if_neg (ne_size_of_byId? he)]

@[simp] theorem holder?_record (r : Registry) (c : Collision) (name : String) :
    (r.record c).holder? name = r.holder? name := rfl

theorem holder?_register (r : Registry) (d : Declaration) (name : String) : (r.register d).holder? name =
    if d.name = name ∧ (r.verdict d).stores = true then some (d.entry r.options) else r.holder? name := by
  have hstore : (r.store (d.entry r.options)).holder? name =
      if d.name = name then some (d.entry r.options) else r.holder? name := holder?_store ..
  unfold register
  cases r.verdict d with
  | added => simpa [Verdict.stores] using hstore
  | replaced existing => simpa [Verdict.stores] using hstore
  | filtered => simp [Verdict.stores]
  | rejected error => simp [Verdict.stores]

theorem map_byId?_lookup? (r : Registry) (name : String) :
    (r.lookup? name).map r.byId? = ((r.holder? name).filter Entry.enabled).map some := by
  unfold lookup? holder? isEnabled
  cases h : r.get? name with
  | none => rfl
  | some id =>
    obtain ⟨e, he, -⟩ := exists_entry_of_get? h
    cases hon : e.enabled <;> simp [he, hon, Option.filter_some]

/-- The second registry is the first one with a name left out. -/
structure Without (x : String) (r r' : Registry) : Prop where
  options : r'.options = r.options
  missing : r'.holder? x = none
  others : ∀ name, name ≠ x → r'.holder? name = r.holder? name

theorem Without.register_left (h : Without x r r') (hd : d.name = x) : Without x (r.register d) r' := by
  refine ⟨h.options.trans (r.extends_register d).options.symm, h.missing, fun name hn => ?_⟩
  rw [holder?_register, if_neg fun hname => hn (hname.1.symm.trans hd)]
  exact h.others name hn

theorem Without.register (h : Without x r r') (hd : d.name ≠ x) : Without x (r.register d) (r'.register d) := by
  have hv : r'.verdict d = r.verdict d :=
    verdict_congr h.options (congrArg (Option.map Entry.origin) (h.others d.name hd))
  refine ⟨?_, ?_, fun name hn => ?_⟩
  · rw [(r'.extends_register d).options, (r.extends_register d).options, h.options]
  · rw [holder?_register, if_neg fun hname => hd hname.1, h.missing]
  · rw [holder?_register, holder?_register, hv, h.options, h.others name hn]

/-- Registrations of other names come to the same without those of one name. -/
theorem without_populated (o : Options) (ds : List Declaration) (x : String) :
    Without x (populated o ds) (populated o (ds.filter (·.name ≠ x))) := by
  have hfold : ∀ (ds : List Declaration) {r r' : Registry}, Without x r r' →
      Without x (ds.foldl Registry.register r) ((ds.filter (·.name ≠ x)).foldl Registry.register r') := by
    intro ds
    induction ds with
    | nil => exact fun h => h
    | cons d ds ih =>
      intro r r' h
      by_cases hd : d.name = x
      · rw [List.filter_cons_of_neg (by simpa using hd)]
        exact ih (h.register_left hd)
      · rw [List.filter_cons_of_pos (by simpa using hd)]
        exact ih (h.register hd)
  exact hfold ds ⟨rfl, rfl, fun _ _ => rfl⟩

/-- To switch an entry off leaves the enabled names that are left without its name. -/
theorem Without.map_byId?_lookup? (h : Without x r r') {id : EntryId} (hid : r.get? x = some id) (name : String) :
    ((r.setEnabled id false).lookup? name).map (r.setEnabled id false).byId? = (r'.lookup? name).map r'.byId? := by
  rw [Registry.map_byId?_lookup?, Registry.map_byId?_lookup?]
  by_cases hn : name = x
  · subst hn
    obtain ⟨e, he, -⟩ := exists_entry_of_get? hid
    have hoff : (r.setEnabled id false).holder? name = some { e with enabled := false } := by
      rw [holder?, get?_setEnabled, hid, Option.bind_some, byId?_setEnabled, if_pos rfl, he]
      rfl
    rw [hoff, h.missing]
    rfl
  · have hsame : (r.setEnabled id false).holder? name = r.holder? name := by
      unfold holder?
      rw [get?_setEnabled]
      cases hg : r.get? name with
      | none => rfl
      | some i =>
        have hi : id ≠ i := by
          -- an entry has one name
          rintro rfl
          obtain ⟨e, he, rfl⟩ := exists_entry_of_get? hid
          obtain ⟨e', he', rfl⟩ := exists_entry_of_get? hg
          obtain rfl := Option.some.inj (he.symm.trans he')
          exact hn rfl
        rw [Option.bind_some, Option.bind_some, byId?_setEnabled, if_neg hi]
    rw [hsame, h.others name hn]

end Registry

variable {Node Decl Key : Type}

/-! ## Populated sessions -/

/-- Is the action a registration, or several? -/
def Action.isRegistration : Action Node → Bool
  | .register _ | .discover _ => true
  | .setEnabled _ _ | .forget | .resolve _ => false

/-- The answer with the entry itself instead of its number. -/
def Resolution.reading (r : Resolution Node Key) : Option (Option Entry × Node) :=
  r.answer.map fun a => (r.session.registry.byId? a.1, a.2)

namespace Session

/-- The session after the registrations, but for those of the name, where nothing was resolved yet. -/
def without (o : Options) (ds : List Declaration) (name : String) : Session Node Key :=
  new (.populated o (ds.filter (·.name ≠ name)))

variable [DecidableEq Key] {lang : Language Node Decl Key} {s t : Session Node Key} {n : Node} {id : EntryId}

/-- Resolves a node, if that comes to an end, where there is no memo and nothing is found at nodes with these keys. -/
def resolveBlocked? (lang : Language Node Decl Key) (s : Session Node Key) (K : Key → Bool) (n : Node) :
    Option (Resolution Node Key) :=
  ((s.outlook.blocking K).walk? lang n n).map (s.conclude lang)

theorem resolveBlocked?_of_walks {K : Key → Bool} {w : Walk Node}
    (h : (s.outlook.blocking K).Walks lang .untried n n w) :
    s.resolveBlocked? lang K n = some (s.conclude lang w) := by
  rw [resolveBlocked?, ← Outlook.from?, Outlook.from?_of_walks h, Option.map_some]

theorem run_registrations (s : Session Node Key) {as : List (Action Node)}
    (h : ∀ a ∈ as, a.isRegistration = true) : s.run lang as =
      some { s with registry := (as.flatMap Action.declarations).foldl Registry.register s.registry } := by
  induction as generalizing s with
  | nil => rfl
  | cons a as ih =>
    obtain ⟨ha, has⟩ := List.forall_mem_cons.1 h
    rw [run, List.flatMap_cons, List.foldl_append]
    cases a with
    | register d => exact ih (s.register d) has
    | discover ps =>
      rw [perform, Option.bind_some, ih (s.discover ps) has]
      simp only [discover, Registry.registry_discover, Action.declarations]
    | setEnabled _ _ | forget | resolve _ => cases ha

theorem Coherent.run_resolves (hx : lang.Interchangeable) (hs : s.Coherent lang s.registry.enabledNames)
    {ns : List Node} (h : s.run lang (ns.map .resolve) = some t) :
    t.registry = s.registry ∧ t.Coherent lang t.registry.enabledNames := by
  induction ns generalizing s with
  | nil =>
    obtain rfl := Option.some.inj h
    exact ⟨rfl, hs⟩
  | cons n ns ih =>
    obtain ⟨u, hu, h⟩ := run_cons h
    obtain ⟨r, hr, rfl⟩ := Option.map_eq_some_iff.1 hu
    have hreg := (resolve?_frame hr).registry
    have hu' : r.session.Coherent lang r.session.registry.enabledNames := by
      rw [hreg]
      exact hs.perform hx hu fun _ _ => rfl
    obtain ⟨hreg', ht⟩ := ih hu' h
    exact ⟨hreg'.trans hreg, ht⟩

/-! ## An entry that is switched off -/

/-- With an entry switched off, the memo bars the nodes of its slots and no others. -/
theorem Coherent.consult_setEnabled_eq_barred_iff (hx : lang.Interchangeable)
    (hs : s.Coherent lang s.registry.enabledNames) {x : String} (hid : s.registry.get? x = some id) (m : Node)
    (f : EntryId) : (s.setEnabled id false).consult (lang.key m) = .barred f ↔
      f = id ∧ s.memo.get? (lang.key m) = some id := by
  have hcur : (s.setEnabled id false).registry.isCurrent id = true := by
    rw [registry_setEnabled, Registry.isCurrent_setEnabled]
    exact Registry.isCurrent_of_get? hid
  have hoff : (s.setEnabled id false).registry.isEnabled id = false := by
    obtain ⟨e, he, -⟩ := Registry.exists_entry_of_get? hid
    rw [registry_setEnabled, Registry.isEnabled, Registry.byId?_setEnabled, if_pos rfl, he]
    rfl
  constructor
  · intro h
    obtain ⟨hm, hf, e, he, hg⟩ := consult_eq_barred h
    by_cases hne : f = id
    · exact ⟨hne, hne ▸ hm⟩
    · -- the slots of the other entries were ready before
      have hf' : s.registry.isEnabled f = false :=
        (Registry.isEnabled_setEnabled_of_ne (Ne.symm hne) false).symm.trans hf
      have hc : s.registry.isCurrent f = true := by
        rw [← Registry.isCurrent_setEnabled s.registry id false]
        exact Registry.isCurrent_eq_true_iff.2 ⟨e, he, hg⟩
      refine absurd ?_ (hs.consult_ne_barred hx m f)
      rw [consult_of_isCurrent (s := s) hm hc, hf']
      rfl
  · rintro ⟨rfl, hm⟩
    rw [consult_of_isCurrent (s := s.setEnabled f false) hm hcur, hoff]
    rfl

theorem Coherent.settles_setEnabled (hx : lang.Interchangeable) (hs : s.Coherent lang s.registry.enabledNames)
    (id : EntryId) : (s.setEnabled id false).outlook.Settles lang s.registry.enabledNames := by
  intro n f hr
  obtain ⟨hm, e, he, hl⟩ := consult_eq_ready hr
  rw [registry_setEnabled, Registry.byId?_setEnabled] at he
  split at he
  · obtain ⟨e', he', rfl⟩ := Option.map_eq_some_iff.1 he
    exact ⟨_, hs.settled hx hm he', hl⟩
  · exact ⟨_, hs.settled hx hm he, hl⟩

theorem names_setEnabled_subset (s : Session Node Key) (id : EntryId) :
    (s.setEnabled id false).outlook.names ⊆ s.registry.enabledNames := by
  intro name hname
  obtain ⟨i, hi⟩ := Option.isSome_iff_exists.1 hname
  obtain ⟨hg, hon⟩ := Registry.lookup?_eq_some_iff.1 hi
  have hne : id ≠ i := by
    rintro rfl
    rw [registry_setEnabled, Registry.isEnabled, Registry.byId?_setEnabled, if_pos rfl] at hon
    cases hb : s.registry.byId? id <;> simp [hb] at hon
  rw [registry_setEnabled, Registry.isEnabled_setEnabled_of_ne hne] at hon
  exact Option.isSome_iff_exists.2 ⟨i, Registry.lookup?_eq_some_iff.2 ⟨hg, hon⟩⟩

theorem alike_blocking {x : String} {r' : Registry} (h : s.registry.Without x r') (hid : s.registry.get? x = some id)
    (K : Key → Bool) : Outlook.Alike (s.registry.setEnabled id false).byId? r'.byId?
      ((s.setEnabled id false).outlook.blocking K) ((new r' : Session Node Key).outlook.blocking K) where
  consult k := by
    simp only [Outlook.blocking]
    split
    · exact .barred 0 0
    · exact .isOpen rfl rfl
  lookup := h.map_byId?_lookup? hid

/-- What a walk comes to with the entry switched off, it comes to without its name, where those slots of the entry block
their nodes that the walk has met. -/
theorem Coherent.exists_walks_without (hx : lang.Interchangeable) (hs : s.Coherent lang s.registry.enabledNames)
    {x : String} {r' : Registry} (h : s.registry.Without x r') (hid : s.registry.get? x = some id) {w : Walk Node}
    (hw : (s.setEnabled id false).outlook.Walks lang .untried n n w) {K : Key → Bool}
    (hK : ∀ k, K k = true → s.memo.get? k = some id) (hb : ∀ m, .barred id m ∈ w.trail → K (lang.key m) = true) :
    ∃ v, ((new r' : Session Node Key).outlook.blocking K).Walks lang .untried n n v ∧
      ((s.setEnabled id false).conclude lang w).reading = ((new r').conclude lang v).reading := by
  have hbarred : ∀ f m, .barred f m ∈ w.trail → K (lang.key m) = true := by
    intro f m hm
    obtain ⟨rfl, -⟩ := (hs.consult_setEnabled_eq_barred_iff hx hid m f).1 (Outlook.consult_of_mem_barred hw hm)
    exact hb m hm
  have hblocked : ∀ k, K k = true → ∃ f, (s.setEnabled id false).consult k = .barred f := by
    intro k hk
    obtain ⟨m, -, rfl, -⟩ := hs k id (hK k hk)
    exact ⟨id, (hs.consult_setEnabled_eq_barred_iff hx hid m id).2 ⟨rfl, hK _ hk⟩⟩
  obtain ⟨u, hu, ha, -⟩ := (hs.settles_setEnabled hx id).exists_walks_blocking (s.names_setEnabled_subset id) hblocked
    hw hbarred
  obtain ⟨v, hv, halike⟩ := (alike_blocking h hid K).exists_walks lang.respects_id hu n rfl
  refine ⟨v, hv, ?_⟩
  have hreading := halike.answer
  rw [ha] at hreading
  simp only [Resolution.reading, registry_conclude, answer_conclude]
  exact hreading

/-- **To be switched off is to be missing, but for the slots.** Let a session be populated and then resolve nodes, and
let an entry be switched off that a name stands for. Then a node is resolved as in the session that was populated without
the name and has resolved nothing, where nothing is found at the nodes whose slots lead to the entry. If no such node is
met, it is resolved as in that session. -/
theorem resolve?_setEnabled_false (hx : lang.Interchangeable) {o : Options} {as : List (Action Node)} {ns : List Node}
    (has : ∀ a ∈ as, a.isRegistration = true)
    (hs : (Session.new (.new o)).run lang (as ++ ns.map .resolve) = some s) {x : String}
    (hid : s.registry.get? x = some id) (hn : lang.Grounded n) :
    ∃ r r₀ r', (s.setEnabled id false).resolve? lang n = some r ∧
      (without o (as.flatMap Action.declarations) x).resolveBlocked? lang (fun k => s.memo.get? k = some id) n =
        some r₀ ∧
      (without o (as.flatMap Action.declarations) x).resolve? lang n = some r' ∧
      r.reading = r₀.reading ∧ ((∀ m, .barred id m ∉ r.trail) → r.reading = r'.reading) := by
  rw [run_append, run_registrations _ has, Option.bind_some] at hs
  obtain ⟨hreg, hcoherent⟩ := Coherent.run_resolves hx (slots_of_empty fun _ => rfl) hs
  have hwithout : s.registry.Without x (.populated o ((as.flatMap Action.declarations).filter (·.name ≠ x))) := by
    rw [hreg]
    exact Registry.without_populated o _ x
  obtain ⟨w, hw⟩ := Outlook.exists_walks (o := (s.setEnabled id false).outlook) hn n
  obtain ⟨v₀, hv₀, h₀⟩ := hcoherent.exists_walks_without hx hwithout hid hw
    (K := fun k => s.memo.get? k = some id) (fun k hk => of_decide_eq_true hk) fun m hm =>
      decide_eq_true ((hcoherent.consult_setEnabled_eq_barred_iff hx hid m id).1 (Outlook.consult_of_mem_barred hw hm)).2
  obtain ⟨v, hv⟩ := Outlook.exists_walks
    (o := (without o (as.flatMap Action.declarations) x : Session Node Key).outlook) hn n
  refine ⟨_, _, _, resolve?_of_walks hw, resolveBlocked?_of_walks hv₀, resolve?_of_walks hv, h₀, fun hfree => ?_⟩
  -- no block was met, so none is needed
  obtain ⟨v', hv', h'⟩ := hcoherent.exists_walks_without hx hwithout hid hw (K := fun _ => false)
    (fun _ hk => by cases hk) fun m hm => absurd hm (hfree m)
  rw [Outlook.blocking_false] at hv'
  obtain rfl := Outlook.walks_unique hv hv'
  exact h'

/-- A pointer of the name of an entry that is switched off is resolved by its pointee, past the slot that another node of
that name has left. -/
theorem resolve?_setEnabled_false_past_name :
    ∃ s r r', (Session.new (.new {})).run TypeTerm.plain ([.register { name := "B*", origin := "a" },
        .register { name := "B", origin := "a" }] ++ [.named "B*"].map .resolve) = some s ∧
      s.registry.get? "B*" = some 0 ∧ s.memo.get? (.named "B*") = some 0 ∧
      (s.setEnabled 0 false).resolve? TypeTerm.plain (.pointer (.named "B")) = some r ∧
      (without {} [{ name := "B*", origin := "a" }, { name := "B", origin := "a" }] "B*").resolve? TypeTerm.plain
        (.pointer (.named "B")) = some r' ∧
      r.answer = some (1, .named "B") ∧ r.reading = r'.reading := by
  let s₀ : Session TypeTerm TypeTerm :=
    ((new (.new {})).register { name := "B*", origin := "a" }).register { name := "B", origin := "a" }
  let w₀ : Walk TypeTerm :=
    ⟨[.rendered (.named "B*") {} "B*" true, .stored 0 (.named "B*"), .bound 0 (.named "B*")], some (0, .named "B*")⟩
  let s := (s₀.conclude TypeTerm.plain w₀).session
  have h₀ : s₀.outlook.Walks TypeTerm.plain .untried (.named "B*") (.named "B*") w₀ :=
    .unsettled rfl (.classless rfl (.spelled rfl rfl))
  have hs : (Session.new (.new {})).run TypeTerm.plain ([.register { name := "B*", origin := "a" },
      .register { name := "B", origin := "a" }] ++ [.named "B*"].map .resolve) = some s := run_resolve h₀ _
  obtain ⟨w, hw, ha, hbindings⟩ : ∃ w, (s.setEnabled 0 false).outlook.Walks TypeTerm.plain .untried
      (.pointer (.named "B")) (.pointer (.named "B")) w ∧ w.answer = some (1, .named "B") ∧
      w.bindings = [(1, .named "B")] :=
    ⟨_, .unsettled (by rfl) (.classless rfl (.unwrapped rfl (by rfl) (by rfl) (.unsettled (by rfl)
      (.classless rfl (.spelled rfl (by rfl)))))), rfl, by simp [Walk.bindings_after, List.filterMap_cons, Step.binding?]⟩
  have hfree : ∀ m, .barred 0 m ∉ w.trail := by
    intro m hm
    have hb : (0, m) ∈ w.bindings := List.mem_filterMap.2 ⟨_, hm, rfl⟩
    simp [hbindings] at hb
  obtain ⟨r, -, r', hr, -, hr', -, hreading⟩ := resolve?_setEnabled_false (TypeTerm.interchangeable _)
    (by simp [Action.isRegistration]) hs (x := "B*") rfl (TypeTerm.grounded (.pointer (.named "B")))
  obtain rfl := Option.some.inj (hr.symm.trans (resolve?_of_walks hw))
  exact ⟨s, _, r', hs, rfl, rfl, hr, hr', ha, hreading hfree⟩

/-- Where the slot of the pointer itself leads to the entry, nothing is found any more. -/
theorem resolve?_setEnabled_false_barred :
    ∃ s r r', (Session.new (.new {})).run TypeTerm.plain ([.register { name := "B*", origin := "a" },
        .register { name := "B", origin := "a" }] ++ [.pointer (.named "B")].map .resolve) = some s ∧
      s.registry.get? "B*" = some 0 ∧
      (s.setEnabled 0 false).resolve? TypeTerm.plain (.pointer (.named "B")) = some r ∧
      (without {} [{ name := "B*", origin := "a" }, { name := "B", origin := "a" }] "B*").resolve? TypeTerm.plain
        (.pointer (.named "B")) = some r' ∧
      r.answer = none ∧ r'.answer = some (0, .named "B") ∧ r.reading ≠ r'.reading := by
  let u : TypeTerm := .pointer (.named "B")
  let s₀ : Session TypeTerm TypeTerm :=
    ((new (.new {})).register { name := "B*", origin := "a" }).register { name := "B", origin := "a" }
  let w₀ : Walk TypeTerm := ⟨[.rendered u {} "B*" true, .stored 0 u, .bound 0 u], some (0, u)⟩
  let s := (s₀.conclude TypeTerm.plain w₀).session
  have h₀ : s₀.outlook.Walks TypeTerm.plain .untried u u w₀ := .unsettled rfl (.classless rfl (.spelled rfl rfl))
  have hs : (Session.new (.new {})).run TypeTerm.plain ([.register { name := "B*", origin := "a" },
      .register { name := "B", origin := "a" }] ++ [u].map .resolve) = some s := run_resolve h₀ _
  have hw : (s.setEnabled 0 false).outlook.Walks TypeTerm.plain .untried u u ⟨[.barred 0 u], none⟩ := .barred rfl
  obtain ⟨w', hw', ha'⟩ : ∃ w', (without {} [{ name := "B*", origin := "a" }, { name := "B", origin := "a" }] "B*" :
      Session TypeTerm TypeTerm).outlook.Walks TypeTerm.plain .untried u u w' ∧ w'.answer = some (0, .named "B") :=
    ⟨_, .unsettled (by rfl) (.classless rfl (.unwrapped rfl (by rfl) (by rfl) (.unsettled (by rfl)
      (.classless rfl (.spelled rfl (by rfl)))))), rfl⟩
  refine ⟨s, _, _, hs, rfl, resolve?_of_walks hw, resolve?_of_walks hw', rfl, ha', ?_⟩
  simp [Resolution.reading, ha']

end Session

end TypeMapping
