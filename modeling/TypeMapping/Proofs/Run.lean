import TypeMapping.Proofs.Effect

/-!
# Runs

* `Action`           : what is done to a session; `Action.declarations` are those that it registers;
* `perform`, `run`   : the session after an action, and after several, if all resolutions end;
* `Registry.Extends` : nothing is lost from one registry to the other but the state of switches.

Main statements: `exists_run`, runs from grounded nodes end; `perform_cases`, an action extends the registry and
leaves the rest, or it is a resolution; `registry_perform_cases`, it makes its registrations, or it is a switch;
`of_run`, what every action keeps a run keeps; `run_stems`, every entry of a run comes from an admitted
declaration of the run.
-/

namespace TypeMapping

/-! ## Registries that grow -/

namespace Registry

/-- `r'` holds the entries of `r` under their numbers, switched on or off since. -/
structure Extends (r r' : Registry) : Prop where
  options : r'.options = r.options
  entries : ∀ id e, r.byId? id = some e → ∃ b, r'.byId? id = some { e with enabled := b }

theorem Extends.refl (r : Registry) : Extends r r := ⟨rfl, fun _ e h => ⟨e.enabled, h⟩⟩

theorem Extends.trans {r₁ r₂ r₃ : Registry} (h₁ : Extends r₁ r₂) (h₂ : Extends r₂ r₃) :
    Extends r₁ r₃ := by
  refine ⟨h₂.options.trans h₁.options, fun id e he => ?_⟩
  obtain ⟨b, hb⟩ := h₁.entries id e he
  obtain ⟨c, hc⟩ := h₂.entries id _ hb
  exact ⟨c, hc⟩

theorem extends_store (r : Registry) (e : Entry) : Extends r (r.store e) := by
  refine ⟨rfl, fun id e' he => ⟨e'.enabled, ?_⟩⟩
  rw [byId?_store, if_neg (ne_size_of_byId? he), he]

theorem extends_record (r : Registry) (c : Collision) : Extends r (r.record c) :=
  ⟨rfl, fun _ e he => ⟨e.enabled, he⟩⟩

theorem extends_setEnabled (r : Registry) (i : EntryId) (b : Bool) : Extends r (r.setEnabled i b) := by
  refine ⟨rfl, fun id e he => ?_⟩
  rw [byId?_setEnabled, he]
  split
  · exact ⟨b, rfl⟩
  · exact ⟨e.enabled, rfl⟩

theorem extends_register (r : Registry) (d : Declaration) : Extends r (r.register d) := by
  unfold register
  split
  · exact .refl r
  · exact r.extends_store _
  · exact (r.extends_store _).trans (extends_record _ _)
  · exact r.extends_record _

/-- A registration stores nothing but its own declaration, and only if the filter admits the target. -/
theorem byId?_register {r : Registry} {d : Declaration} {id : EntryId} {e : Entry}
    (h : (r.register d).byId? id = some e) :
    r.byId? id = some e ∨ d.filter.admits r.options.target = true ∧ e = d.entry r.options := by
  have hstore : (r.store (d.entry r.options)).byId? id = some e →
      r.byId? id = some e ∨ e = d.entry r.options := by
    intro h
    rw [byId?_store] at h
    split at h
    · exact .inr (Option.some.inj h).symm
    · exact .inl h
  unfold register at h
  by_cases ha : d.filter.admits r.options.target = true
  · split at h
    · exact .inl h
    · exact (hstore h).imp_right fun he => ⟨ha, he⟩
    · exact (hstore (by simpa using h)).imp_right fun he => ⟨ha, he⟩
    · exact .inl h
  · simp only [verdict, if_neg ha] at h
    exact .inl h

end Registry

/-! ## Discoveries as registrations -/

/-- The declarations of a provider as a discovery registers them, none if it fails to list them. -/
def Provider.offers (p : Provider) : List Declaration :=
  match p.declarations with
  | .error _ => []
  | .ok ds => ds.map fun d => { d with origin := p.component }

namespace Discovery

theorem registry_foldl_register (ds : List Declaration) (s : Discovery) :
    (ds.foldl register s).registry = ds.foldl Registry.register s.registry := by
  induction ds generalizing s with
  | nil => rfl
  | cons d ds ih => exact ih (s.register d)

theorem registry_visit (s : Discovery) (p : Provider) :
    (s.visit p).registry = p.offers.foldl Registry.register s.registry := by
  unfold visit Provider.offers
  cases p.declarations with
  | error failure => rfl
  | ok ds => exact registry_foldl_register _ _

theorem registry_foldl_visit (ps : List Provider) (s : Discovery) :
    (ps.foldl visit s).registry = (ps.flatMap Provider.offers).foldl Registry.register s.registry := by
  induction ps generalizing s with
  | nil => rfl
  | cons p ps ih => rw [List.foldl_cons, ih, registry_visit, List.flatMap_cons, List.foldl_append]

end Discovery

theorem Registry.registry_discover (r : Registry) (ps : List Provider) :
    (r.discover ps).registry = (ps.flatMap Provider.offers).foldl Registry.register r :=
  Discovery.registry_foldl_visit ps _

theorem Registry.extends_foldl_register (ds : List Declaration) (r : Registry) :
    Extends r (ds.foldl register r) := by
  induction ds generalizing r with
  | nil => exact .refl r
  | cons d ds ih => exact (r.extends_register d).trans (ih _)

/-! ## Actions -/

/-- What is done to a session. -/
inductive Action (Node : Type)
  | register (d : Declaration)
  | discover (ps : List Provider)
  | setEnabled (id : EntryId) (enabled : Bool)
  /-- The memo is emptied. -/
  | forget
  | resolve (n : Node)

/-- The declarations that an action registers, whatever becomes of them. -/
def Action.declarations {Node : Type} : Action Node → List Declaration
  | .register d => [d]
  | .discover ps => ps.flatMap Provider.offers
  | _ => []

namespace Session

variable {Node Decl Key : Type} [DecidableEq Key] (lang : Language Node Decl Key)

/-- The session after an action, `none` if the action is a resolution that does not end. -/
def perform (s : Session Node Key) : Action Node → Option (Session Node Key)
  | .register d => some (s.register d)
  | .discover ps => some (s.discover ps)
  | .setEnabled id enabled => some (s.setEnabled id enabled)
  | .forget => some s.forget
  | .resolve n => (s.resolve? lang n).map Resolution.session

/-- The session after several actions, one after the other. -/
def run (s : Session Node Key) : List (Action Node) → Option (Session Node Key)
  | [] => some s
  | a :: as => (s.perform lang a).bind fun s => run s as

variable {lang}

theorem run_resolve {s : Session Node Key} {n : Node} {w : Walk Node}
    (h : s.outlook.Walks lang .untried n n w) (as : List (Action Node)) :
    s.run lang (.resolve n :: as) = (s.conclude lang w).session.run lang as := by
  rw [run, perform, resolve?_of_walks h]
  rfl

theorem run_cons {s s' : Session Node Key} {a : Action Node} {as : List (Action Node)}
    (h : s.run lang (a :: as) = some s') :
    ∃ t, s.perform lang a = some t ∧ t.run lang as = some s' := Option.bind_eq_some_iff.1 h

theorem run_append (s : Session Node Key) (as bs : List (Action Node)) :
    s.run lang (as ++ bs) = (s.run lang as).bind fun t => t.run lang bs := by
  induction as generalizing s with
  | nil => rfl
  | cons a as ih => simp only [List.cons_append, run, ih, Option.bind_assoc]

/-- A run from grounded nodes comes to its end. -/
theorem exists_run (s : Session Node Key) {as : List (Action Node)} (h : ∀ n, .resolve n ∈ as → lang.Grounded n) :
    ∃ t, s.run lang as = some t := by
  induction as generalizing s with
  | nil => exact ⟨s, rfl⟩
  | cons a as ih =>
    obtain ⟨t, ht⟩ : ∃ t, s.perform lang a = some t := by
      cases a with
      | resolve n => exact ⟨_, by rw [perform, resolve?_eq_some lang s (h n List.mem_cons_self)]; rfl⟩
      | register _ | discover _ | setEnabled _ _ | forget => exact ⟨_, rfl⟩
    obtain ⟨u, hu⟩ := ih t fun n hn => h n (List.mem_cons_of_mem a hn)
    exact ⟨u, by rw [run, ht, Option.bind_some, hu]⟩

/-- An action extends the registry and leaves the rest, but for a memo that it may empty, or it is a
resolution. -/
theorem perform_cases {s s' : Session Node Key} {a : Action Node} (h : s.perform lang a = some s') :
    (s.registry.Extends s'.registry ∧ (s'.memo = s.memo ∨ s'.memo = .empty) ∧ s'.bound = s.bound) ∨
    ∃ n r, a = .resolve n ∧ s.resolve? lang n = some r ∧ s' = r.session := by
  cases a with
  | register d =>
    obtain rfl := Option.some.inj h
    exact .inl ⟨s.registry.extends_register d, .inl rfl, rfl⟩
  | discover ps =>
    obtain rfl := Option.some.inj h
    refine .inl ⟨?_, .inl rfl, rfl⟩
    simp only [discover, Registry.registry_discover]
    exact Registry.extends_foldl_register _ _
  | setEnabled id enabled =>
    obtain rfl := Option.some.inj h
    exact .inl ⟨s.registry.extends_setEnabled id enabled, .inl rfl, rfl⟩
  | forget =>
    obtain rfl := Option.some.inj h
    exact .inl ⟨.refl _, .inr rfl, rfl⟩
  | resolve n =>
    obtain ⟨r, hr, rfl⟩ := Option.map_eq_some_iff.1 h
    exact .inr ⟨n, r, rfl, hr, rfl⟩

/-- An action makes its registrations and leaves the rest of the registry, or it is a switch. -/
theorem registry_perform_cases {s s' : Session Node Key} {a : Action Node} (h : s.perform lang a = some s') :
    (∀ i b, a ≠ .setEnabled i b) ∧ s'.registry = a.declarations.foldl Registry.register s.registry ∨
    ∃ i b, a = .setEnabled i b ∧ s'.registry = s.registry.setEnabled i b := by
  cases a with
  | register d =>
    obtain rfl := Option.some.inj h
    exact .inl ⟨by simp, rfl⟩
  | discover ps =>
    obtain rfl := Option.some.inj h
    exact .inl ⟨by simp, Registry.registry_discover _ _⟩
  | setEnabled i b =>
    obtain rfl := Option.some.inj h
    exact .inr ⟨i, b, rfl, rfl⟩
  | forget =>
    obtain rfl := Option.some.inj h
    exact .inl ⟨by simp, rfl⟩
  | resolve n =>
    obtain ⟨r, hr, rfl⟩ := Option.map_eq_some_iff.1 h
    obtain ⟨w, -, rfl⟩ := resolve?_eq_some_iff.1 hr
    exact .inl ⟨by simp, registry_conclude⟩

/-- What every action keeps, a run keeps. -/
theorem of_run {P : Session Node Key → Prop}
    (hstep : ∀ s a s', P s → s.perform lang a = some s' → P s') {s s' : Session Node Key}
    {as : List (Action Node)} (hs : P s) (h : s.run lang as = some s') : P s' := by
  induction as generalizing s with
  | nil => exact Option.some.inj h ▸ hs
  | cons a as ih =>
    obtain ⟨t, ht, h⟩ := run_cons h
    exact ih (hstep s a t hs ht) h

/-! ## Where entries come from -/

end Session

/-- The entry is what a session with options `o` made of one of the declarations, whose filter admits the
target of the session; it may have been switched on or off since. -/
def Entry.StemsFrom (e : Entry) (o : Options) (ds : List Declaration) : Prop :=
  ∃ d ∈ ds, d.filter.admits o.target = true ∧ ∃ b, e = { d.entry o with enabled := b }

/-- All entries of the registry stem from the declarations. -/
def Registry.StemsFrom (r : Registry) (o : Options) (ds : List Declaration) : Prop :=
  r.options = o ∧ ∀ id e, r.byId? id = some e → e.StemsFrom o ds

namespace Registry

theorem StemsFrom.mono {r : Registry} {o : Options} {ds ds' : List Declaration} (h : r.StemsFrom o ds)
    (hd : ∀ d ∈ ds, d ∈ ds') : r.StemsFrom o ds' := by
  refine ⟨h.1, fun id e he => ?_⟩
  obtain ⟨d, hm, ha, hb⟩ := h.2 id e he
  exact ⟨d, hd d hm, ha, hb⟩

theorem stemsFrom_new (o : Options) : (new o).StemsFrom o [] :=
  ⟨rfl, fun id e he => by simp [byId?, new, Array.empty] at he⟩

theorem StemsFrom.register {r : Registry} {o : Options} {ds : List Declaration} (h : r.StemsFrom o ds)
    (d : Declaration) : (r.register d).StemsFrom o (ds ++ [d]) := by
  refine ⟨(r.extends_register d).options.trans h.1, fun id e he => ?_⟩
  rcases byId?_register he with he | ⟨ha, rfl⟩
  · exact (h.mono (fun _ hm => List.mem_append_left _ hm)).2 id e he
  · rw [h.1] at ha ⊢
    exact ⟨d, by simp, ha, _, rfl⟩

theorem StemsFrom.foldl_register {r : Registry} {o : Options} {ds : List Declaration}
    (h : r.StemsFrom o ds) (ds' : List Declaration) :
    (ds'.foldl Registry.register r).StemsFrom o (ds ++ ds') := by
  induction ds' generalizing r ds with
  | nil => simpa using h
  | cons d ds' ih => simpa using ih (h.register d)

theorem StemsFrom.setEnabled {r : Registry} {o : Options} {ds : List Declaration}
    (h : r.StemsFrom o ds) (i : EntryId) (b : Bool) : (r.setEnabled i b).StemsFrom o ds := by
  refine ⟨h.1, fun id e he => ?_⟩
  rw [byId?_setEnabled] at he
  split at he
  · obtain ⟨e', he', rfl⟩ := Option.map_eq_some_iff.1 he
    obtain ⟨d, hm, ha, b', rfl⟩ := h.2 id e' he'
    exact ⟨d, hm, ha, b, rfl⟩
  · exact h.2 id e he

end Registry

namespace Session

variable {Node Decl Key : Type} [DecidableEq Key] {lang : Language Node Decl Key}

theorem stemsFrom_perform {s s' : Session Node Key} {a : Action Node} {o : Options}
    {ds : List Declaration} (h : s.registry.StemsFrom o ds) (ha : s.perform lang a = some s') :
    s'.registry.StemsFrom o (ds ++ a.declarations) := by
  cases a with
  | register d =>
    obtain rfl := Option.some.inj ha
    exact h.register d
  | discover ps =>
    obtain rfl := Option.some.inj ha
    simp only [discover, Registry.registry_discover, Action.declarations]
    exact h.foldl_register _
  | setEnabled id enabled =>
    obtain rfl := Option.some.inj ha
    exact (h.setEnabled id enabled).mono fun d hd => List.mem_append_left _ hd
  | forget =>
    obtain rfl := Option.some.inj ha
    exact h.mono fun d hd => List.mem_append_left _ hd
  | resolve n =>
    obtain ⟨r, hr, rfl⟩ := Option.map_eq_some_iff.1 ha
    obtain ⟨w, -, rfl⟩ := resolve?_eq_some_iff.1 hr
    simpa [Action.declarations] using h

/-- Every entry of a run comes from a declaration of the run whose filter admits the target. -/
theorem run_stems {s s' : Session Node Key} {as : List (Action Node)} {o : Options}
    {ds : List Declaration} (h : s.registry.StemsFrom o ds) (hs : s.run lang as = some s') :
    s'.registry.StemsFrom o (ds ++ as.flatMap Action.declarations) := by
  induction as generalizing s ds with
  | nil => simpa using Option.some.inj hs ▸ h
  | cons a as ih =>
    obtain ⟨t, ht, hs⟩ := run_cons hs
    simpa using ih (stemsFrom_perform h ht) hs

end Session

end TypeMapping
