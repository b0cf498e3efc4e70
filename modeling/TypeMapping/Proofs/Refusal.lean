import TypeMapping.Proofs.Verdicts

/-!
# Registrations that are refused

A registration whose handler is not stored leaves the registry as it was, but for the record of a collision. The record
is kept for reports, and nothing else reads it.

* `Registry.recordBefore`    : a registry with older collisions on record;
* `Registry.Refused`         : what a registration that is refused does to the registry;
* `Session.SameButOnRecord`  : two sessions of which all is the same but a part of the record.

Main statements: `perform_recordBefore`, `run_recordBefore`, older collisions may be put on record after an action, or
after a run, as well as before; `run_refused`, a session goes on after a refusal as if there had been no registration.
-/

namespace TypeMapping

/-! ## Older collisions -/

namespace Registry

variable {r : Registry} {d : Declaration}

/-- The registry with these collisions on record before its own. -/
def recordBefore (r : Registry) (cs : List Collision) : Registry := { r with collisions := cs ++ r.collisions }

/-- The registry with nothing on record. -/
def unrecorded (r : Registry) : Registry := { r with collisions := [] }

variable (r) in
theorem recordBefore_unrecorded : r.unrecorded.recordBefore r.collisions = r :=
  eq_of_entries_eq rfl rfl rfl (List.append_nil _)

@[simp] theorem verdict_recordBefore (r : Registry) (cs : List Collision) (d : Declaration) :
    (r.recordBefore cs).verdict d = r.verdict d := rfl

theorem record_recordBefore (r : Registry) (cs : List Collision) (c : Collision) :
    (r.recordBefore cs).record c = (r.record c).recordBefore cs :=
  eq_of_entries_eq rfl rfl rfl (List.append_assoc ..)

theorem register_recordBefore (r : Registry) (cs : List Collision) (d : Declaration) :
    (r.recordBefore cs).register d = (r.register d).recordBefore cs := by
  unfold register
  rw [verdict_recordBefore]
  cases r.verdict d with
  | filtered => rfl
  | added => rfl
  | replaced existing => exact record_recordBefore (r.store (d.entry r.options)) cs _
  | rejected error => exact record_recordBefore r cs _

theorem foldl_register_recordBefore (r : Registry) (cs : List Collision) (ds : List Declaration) :
    ds.foldl register (r.recordBefore cs) = (ds.foldl register r).recordBefore cs :=
  List.foldl_hom (fun r : Registry => r.recordBefore cs) fun r d => r.register_recordBefore cs d

end Registry

namespace Discovery

/-- The discovery with these collisions on record before its own. -/
def recordBefore (s : Discovery) (cs : List Collision) : Discovery :=
  { s with registry := s.registry.recordBefore cs }

theorem register_recordBefore (s : Discovery) (cs : List Collision) (d : Declaration) :
    (s.recordBefore cs).register d = (s.register d).recordBefore cs := by
  simp only [register, recordBefore, Registry.notices, Registry.verdict_recordBefore, Registry.register_recordBefore]
  rfl

theorem foldl_register_recordBefore (s : Discovery) (cs : List Collision) (ds : List Declaration) :
    ds.foldl register (s.recordBefore cs) = (ds.foldl register s).recordBefore cs :=
  List.foldl_hom (fun s : Discovery => s.recordBefore cs) fun s d => s.register_recordBefore cs d

theorem visit_recordBefore (s : Discovery) (cs : List Collision) (p : Provider) :
    (s.recordBefore cs).visit p = (s.visit p).recordBefore cs := by
  unfold visit
  cases p.declarations with
  | error failure => rfl
  | ok ds =>
    exact foldl_register_recordBefore { s with report := { s.report with components := s.report.components + 1 } } cs _

theorem foldl_visit_recordBefore (s : Discovery) (cs : List Collision) (ps : List Provider) :
    ps.foldl visit (s.recordBefore cs) = (ps.foldl visit s).recordBefore cs :=
  List.foldl_hom (fun s : Discovery => s.recordBefore cs) fun s p => s.visit_recordBefore cs p

end Discovery

/-- Older collisions may be put on record after a discovery as well as before it. -/
theorem Registry.discover_recordBefore (r : Registry) (cs : List Collision) (ps : List Provider) :
    (r.recordBefore cs).discover ps = (r.discover ps).recordBefore cs := by
  have hfold : ps.foldl Discovery.visit { registry := r.recordBefore cs } = _ :=
    Discovery.foldl_visit_recordBefore { registry := r } cs ps
  unfold discover
  rw [hfold]
  rfl

namespace Session

variable {Node Decl Key : Type} {s t : Session Node Key}

/-- The session with these collisions on record before its own. -/
def recordBefore (s : Session Node Key) (cs : List Collision) : Session Node Key :=
  { s with registry := s.registry.recordBefore cs }

variable [DecidableEq Key] {lang : Language Node Decl Key}

variable (lang) in
theorem conclude_recordBefore (s : Session Node Key) (cs : List Collision) (w : Walk Node) :
    (s.recordBefore cs).conclude lang w =
      { s.conclude lang w with session := (s.conclude lang w).session.recordBefore cs } := by
  have hfold : w.trail.foldl (apply lang) (s.recordBefore cs) = (w.trail.foldl (apply lang) s).recordBefore cs :=
    List.foldl_hom (fun s : Session Node Key => s.recordBefore cs) fun s a => by cases a <;> rfl
  simp only [conclude, hfold]

variable (lang) in
/-- A resolution does not read the record. -/
theorem resolve?_recordBefore (s : Session Node Key) (cs : List Collision) (n : Node) :
    (s.recordBefore cs).resolve? lang n =
      (s.resolve? lang n).map fun r => { r with session := r.session.recordBefore cs } := by
  rw [resolve?, resolve?, Option.map_map]
  congr 1
  funext w
  exact s.conclude_recordBefore lang cs w

variable (lang) in
/-- Older collisions may be put on record after an action as well as before it. -/
theorem perform_recordBefore (s : Session Node Key) (cs : List Collision) (a : Action Node) :
    (s.recordBefore cs).perform lang a = (s.perform lang a).map fun t => t.recordBefore cs := by
  cases a with
  | register d => exact congrArg some (by simp only [recordBefore, register, Registry.register_recordBefore])
  | discover ps =>
    refine congrArg some ?_
    simp only [recordBefore, discover, Registry.discover_recordBefore, Discovery.recordBefore]
  | setEnabled i b => rfl
  | forget => rfl
  | resolve n =>
    simp only [perform, resolve?_recordBefore, Option.map_map]
    rfl

variable (lang) in
/-- Older collisions may be put on record after a run as well as before it. -/
theorem run_recordBefore (s : Session Node Key) (cs : List Collision) (as : List (Action Node)) :
    (s.recordBefore cs).run lang as = (s.run lang as).map fun t => t.recordBefore cs := by
  induction as generalizing s with
  | nil => rfl
  | cons a as ih =>
    rw [run, run, perform_recordBefore]
    cases s.perform lang a with
    | none => rfl
    | some t => exact ih t

end Session

/-! ## Refusals -/

namespace Registry

variable {r : Registry} {d : Declaration}

/-- What a registration that is refused does to the registry. -/
structure Refused (r : Registry) (d : Declaration) : Prop where
  options : (r.register d).options = r.options
  /-- The entries stay, with all their fields and switches. -/
  entries : (r.register d).entries = r.entries
  index : (r.register d).index = r.index
  filtered : r.verdict d = .filtered → (r.register d).collisions = r.collisions
  /-- A refusal is under the policy of rejection, and it is on record with its own name and origins. -/
  rejected : ∀ error, r.verdict d = .rejected error → r.options.policy = .reject ∧
    (r.register d).collisions = r.collisions ++ [⟨error.name, error.existing, error.incoming, .reject⟩]

theorem policy_of_rejected {error : Ambiguity} (h : r.verdict d = .rejected error) : r.options.policy = .reject := by
  cases hp : r.options.policy with
  | reject => rfl
  | lastWins =>
    have hnone := error?_eq_none_of_lastWins hp d
    rw [h] at hnone
    cases hnone

theorem refused_of_not_stores (h : (r.verdict d).stores = false) : r.Refused d := by
  have hstays : (r.register d).entries = r.entries ∧ (r.register d).index = r.index := by
    unfold register
    cases hv : r.verdict d with
    | filtered | rejected error => exact ⟨rfl, rfl⟩
    | added | replaced existing =>
      rw [hv] at h
      cases h
  exact {
    options := (r.extends_register d).options
    entries := hstays.1
    index := hstays.2
    filtered := fun hv => by simp [register, hv]
    rejected := fun error hv => ⟨policy_of_rejected hv, by simp [register, hv, record, policy_of_rejected hv]⟩ }

theorem register_of_not_stores (h : (r.verdict d).stores = false) : r.register d =
    r.unrecorded.recordBefore (r.collisions ++ ((r.verdict d).collision? r.options d).toList) := by
  have hr := refused_of_not_stores h
  exact eq_of_entries_eq hr.options hr.entries hr.index ((r.collisions_register d).trans (List.append_nil _).symm)

end Registry

/-! ## Main statement -/

namespace Session

variable {Node Decl Key : Type} [DecidableEq Key] {lang : Language Node Decl Key} {s t : Session Node Key}

/-- The sessions are the same but for what the second one has on record in addition, and what is asked of them next is
answered alike. -/
structure SameButOnRecord (lang : Language Node Decl Key) (before extra : List Collision) (s t : Session Node Key) :
    Prop where
  options : t.registry.options = s.registry.options
  entries : t.registry.entries = s.registry.entries
  index : t.registry.index = s.registry.index
  memo : t.memo = s.memo
  bound : t.bound = s.bound
  names : t.registry.names = s.registry.names
  size : t.registry.size = s.registry.size
  lookups : ∀ name, t.resolveName name = s.resolveName name
  /-- A node is given the same names, in the same order, and its resolution takes the same steps. -/
  answers : ∀ n, (t.resolve? lang n).map (fun r => (r.trail, r.answer)) =
    (s.resolve? lang n).map fun r => (r.trail, r.answer)
  verdicts : ∀ d, t.registry.verdict d = s.registry.verdict d
  discoveries : ∀ ps, (t.registry.discover ps).report = (s.registry.discover ps).report ∧
    (t.registry.discover ps).notices = (s.registry.discover ps).notices
  collisions : ∃ more, s.registry.collisions = before ++ more ∧ t.registry.collisions = before ++ extra ++ more

theorem sameButOnRecord (s : Session Node Key) (before extra : List Collision) :
    SameButOnRecord lang before extra (s.recordBefore before) (s.recordBefore (before ++ extra)) where
  options := rfl
  entries := rfl
  index := rfl
  memo := rfl
  bound := rfl
  names := rfl
  size := rfl
  lookups _ := rfl
  answers n := by
    rw [resolve?_recordBefore, resolve?_recordBefore, Option.map_map, Option.map_map]
    rfl
  verdicts _ := rfl
  discoveries ps := by
    simp only [recordBefore, Registry.discover_recordBefore]
    exact ⟨rfl, rfl⟩
  collisions := ⟨s.registry.collisions, rfl, rfl⟩

variable (lang) in
/-- **Refusals leave no trace.** Let a registration be refused, alone or among others in a discovery. The registry stays
as it was, but for the record of a refusal. Whatever is done from then on comes to the same, in every respect but the
record, as if the other registrations had been made without this one. -/
theorem run_refused (s : Session Node Key) {a : Action Node} (ha : a.isRegistration = true) {ds ds' : List Declaration}
    {d : Declaration} (hd : a.declarations = ds ++ d :: ds')
    (hr : ((ds.foldl Registry.register s.registry).verdict d).stores = false) :
    (ds.foldl Registry.register s.registry).Refused d ∧
    ∀ bs : List (Action Node), (∀ b ∈ bs, b.isRegistration = true) → bs.flatMap Action.declarations = ds ++ ds' →
      ∀ cs, (s.run lang (a :: cs)).isSome = (s.run lang (bs ++ cs)).isSome ∧
        ∀ t t', s.run lang (bs ++ cs) = some t → s.run lang (a :: cs) = some t' →
          let u := ds.foldl Registry.register s.registry
          SameButOnRecord lang u.collisions ((u.verdict d).collision? u.options d).toList t t' := by
  refine ⟨Registry.refused_of_not_stores hr, fun bs hbs hds cs => ?_⟩
  generalize hu : ds.foldl Registry.register s.registry = u at hr ⊢
  -- both runs go on from the session after the other registrations, with more or less on record
  let v : Session Node Key := { s with registry := ds'.foldl Registry.register u.unrecorded }
  have hwith : s.run lang (a :: cs) =
      (v.run lang cs).map fun t => t.recordBefore (u.collisions ++ ((u.verdict d).collision? u.options d).toList) := by
    rw [← run_recordBefore, ← List.singleton_append, run_append, run_registrations s (by simpa using ha)]
    simp only [List.flatMap_singleton, hd, List.foldl_append, hu, List.foldl_cons, Registry.register_of_not_stores hr,
      Registry.foldl_register_recordBefore, Option.bind_some]
    rfl
  have hwithout : s.run lang (bs ++ cs) = (v.run lang cs).map fun t => t.recordBefore u.collisions := by
    rw [← run_recordBefore, run_append, run_registrations s hbs, hds, List.foldl_append, hu]
    conv => lhs; rw [← u.recordBefore_unrecorded]
    rw [Registry.foldl_register_recordBefore, Option.bind_some]
    rfl
  rw [hwith, hwithout]
  refine ⟨by rw [Option.isSome_map, Option.isSome_map], fun t t' ht ht' => ?_⟩
  obtain ⟨w, hw, rfl⟩ := Option.map_eq_some_iff.1 ht
  obtain ⟨w', hw', rfl⟩ := Option.map_eq_some_iff.1 ht'
  obtain rfl := Option.some.inj (hw.symm.trans hw')
  exact w.sameButOnRecord _ _

/-- A second handler of the name `V` is refused in the middle of a discovery, after which the name `V` is resolved and
the name `W` is claimed again: the two refusals are on record, or the latter alone. -/
theorem run_refused_amid_discovery :
    ∃ t t' : Session TypeTerm TypeTerm,
      (Session.new (.new { policy := .reject })).run TypeTerm.plain ([.register { name := "V", origin := "a" },
        .register { name := "W", origin := "b" }] ++ [.resolve (.named "V"),
        .register { name := "W", origin := "c" }]) = some t ∧
      (Session.new (.new { policy := .reject })).run TypeTerm.plain [
        .discover [.ofList "a" [{ name := "V", origin := "" }],
          .ofList "b" [{ name := "V", origin := "" }, { name := "W", origin := "" }]],
        .resolve (.named "V"), .register { name := "W", origin := "c" }] = some t' ∧
      SameButOnRecord TypeTerm.plain [] [⟨"V", "a", "b", .reject⟩] t t' ∧
      t.registry.collisions = [⟨"W", "b", "c", .reject⟩] := by
  let s₀ : Session TypeTerm TypeTerm := ((new (.new { policy := .reject })).register
    { name := "V", origin := "a" }).register { name := "W", origin := "b" }
  have hw : s₀.outlook.Walks TypeTerm.plain .untried (.named "V") (.named "V") .sample :=
    .unsettled rfl (.classless rfl (.spelled rfl rfl))
  have hd : (Action.discover [.ofList "a" [{ name := "V", origin := "" }], .ofList "b" [{ name := "V", origin := "" },
      { name := "W", origin := "" }]] : Action TypeTerm).declarations =
      [{ name := "V", origin := "a" }] ++ { name := "V", origin := "b" } :: [{ name := "W", origin := "b" }] := rfl
  obtain ⟨-, hrun⟩ := run_refused TypeTerm.plain (new (.new { policy := .reject })) rfl hd (by decide)
  obtain ⟨hends, hsame⟩ := hrun [.register { name := "V", origin := "a" }, .register { name := "W", origin := "b" }]
    (by simp [Action.isRegistration]) rfl [.resolve (.named "V"), .register { name := "W", origin := "c" }]
  have ht : (Session.new (.new { policy := .reject })).run TypeTerm.plain ([.register { name := "V", origin := "a" },
      .register { name := "W", origin := "b" }] ++ [.resolve (.named "V"), .register { name := "W", origin := "c" }]) =
      some ((s₀.conclude TypeTerm.plain .sample).session.register { name := "W", origin := "c" }) := run_resolve hw _
  rw [ht] at hends
  obtain ⟨t', ht'⟩ := Option.isSome_iff_exists.1 hends
  exact ⟨_, t', ht, ht', hsame _ t' ht ht', by decide⟩

end Session

end TypeMapping
