import TypeMapping.Proofs.Absence

/-!
# Verdicts on several registrations

* `Registry.verdicts`            : what becomes of each of several registrations, made one after the other;
* `Verdict.isReplaced`, `error?` : did the handler take a name over, and the refusal if it was refused;
* `Verdict.collision?`           : the collision that is put on record;
* `Discovery.Report.ofVerdicts`  : the summary of verdicts; `Discovery.Report.ofProviders`, that of the providers apart
  from what they declare;
* `Discovery.Report.append`      : two summaries as one.

Main statements: `verdict_eq_filtered_iff`, `verdict_of_admits`, `verdict_of_holder?`, the verdict by what the name
stood for; `size_foldl_register`, there is one more name for each handler that was added;
`collisions_foldl_register`, there is one more collision on record for each claim to a taken name; `report_discover`,
a discovery reports its providers and the verdicts on what they declare.
-/

namespace TypeMapping

/-- Did the handler take its name over? -/
def Verdict.isReplaced : Verdict → Bool
  | .replaced _ => true
  | .added | .filtered | .rejected _ => false

/-- The refusal, if the handler was refused. -/
def Verdict.error? : Verdict → Option Ambiguity
  | .rejected error => some error
  | .added | .replaced _ | .filtered => none

/-- The collision that the verdict on `d` puts on record. -/
def Verdict.collision? (v : Verdict) (o : Options) (d : Declaration) : Option Collision :=
  match v with
  | .replaced existing => some ⟨d.name, existing, d.origin, o.policy⟩
  | .rejected error => some ⟨error.name, error.existing, error.incoming, o.policy⟩
  | .added | .filtered => none

namespace Registry

/-- What becomes of each of the registrations, made one after the other. -/
def verdicts (r : Registry) : List Declaration → List Verdict
  | [] => []
  | d :: ds => r.verdict d :: (r.register d).verdicts ds

variable {r : Registry} {d : Declaration}

theorem verdicts_append (r : Registry) (ds es : List Declaration) :
    r.verdicts (ds ++ es) = r.verdicts ds ++ (ds.foldl register r).verdicts es := by
  induction ds generalizing r with
  | nil => rfl
  | cons d ds ih => exact congrArg (r.verdict d :: ·) (ih (r.register d))

@[simp] theorem length_verdicts (r : Registry) (ds : List Declaration) : (r.verdicts ds).length = ds.length := by
  induction ds generalizing r with
  | nil => rfl
  | cons d ds ih => exact congrArg (· + 1) (ih (r.register d))

/-! ## The verdict by what the name stood for -/

theorem verdict_of_not_admits (h : d.filter.admits r.options.target = false) : r.verdict d = .filtered := by
  simp [verdict, h]

theorem verdict_of_admits (h : d.filter.admits r.options.target = true) (hd : r.holder? d.name = none) :
    r.verdict d = .added := by
  unfold holder? at hd
  simp [verdict, h, hd]

theorem verdict_of_holder? (h : d.filter.admits r.options.target = true) {e : Entry}
    (he : r.holder? d.name = some e) : r.verdict d =
      match r.options.policy with
      | .lastWins => .replaced e.origin
      | .reject => .rejected ⟨d.name, e.origin, d.origin⟩ := by
  unfold holder? at he
  cases hp : r.options.policy <;> simp [verdict, h, he, hp]

theorem verdict_eq_filtered_iff : r.verdict d = .filtered ↔ d.filter.admits r.options.target = false := by
  refine ⟨fun hv => ?_, verdict_of_not_admits⟩
  refine Bool.eq_false_iff.2 fun ha => ?_
  cases hd : r.holder? d.name with
  | none =>
    rw [verdict_of_admits ha hd] at hv
    cases hv
  | some e =>
    rw [verdict_of_holder? ha hd] at hv
    split at hv <;> cases hv

/-! ## The number of names -/

theorem size_store (r : Registry) (e : Entry) :
    (r.store e).size = if (r.get? e.name).isSome then r.size else r.size + 1 := by
  unfold size store
  rw [Dict.size_insert]
  simp only [Dict.mem_keys_iff]
  rfl

theorem isSome_get?_of_replaced {existing : String} (h : r.verdict d = .replaced existing) :
    (r.get? d.name).isSome := by
  cases hg : r.get? d.name with
  | some id => rfl
  | none =>
    unfold verdict at h
    rw [hg] at h
    split at h <;> cases h

theorem size_register (r : Registry) (d : Declaration) :
    (r.register d).size = r.size + [r.verdict d].count .added := by
  unfold register
  cases hv : r.verdict d with
  | filtered => rfl
  | rejected error => rfl
  | added =>
    rw [size_store, show (d.entry r.options).name = d.name from rfl, get?_of_verdict_added hv]
    rfl
  | replaced existing =>
    show (r.store (d.entry r.options)).size = r.size + 0
    rw [size_store, show (d.entry r.options).name = d.name from rfl, if_pos (isSome_get?_of_replaced hv)]
    rfl

theorem size_foldl_register (r : Registry) (ds : List Declaration) :
    (ds.foldl register r).size = r.size + (r.verdicts ds).count .added := by
  induction ds generalizing r with
  | nil => rfl
  | cons d ds ih =>
    rw [List.foldl_cons, ih, size_register, Nat.add_assoc, ← List.count_append]
    rfl

/-! ## Collisions on record -/

theorem collisions_register (r : Registry) (d : Declaration) :
    (r.register d).collisions = r.collisions ++ ((r.verdict d).collision? r.options d).toList := by
  unfold register
  cases r.verdict d with
  | filtered | added => exact (List.append_nil _).symm
  | replaced existing | rejected error => rfl

theorem collisions_foldl_register (r : Registry) (ds : List Declaration) : (ds.foldl register r).collisions =
    r.collisions ++ (ds.zip (r.verdicts ds)).filterMap fun x => x.2.collision? r.options x.1 := by
  induction ds generalizing r with
  | nil => simp
  | cons d ds ih =>
    rw [List.foldl_cons, ih, collisions_register, (r.extends_register d).options, verdicts, List.zip_cons_cons,
      List.append_assoc, List.filterMap_cons]
    cases (r.verdict d).collision? r.options d <;> rfl

/-! ## How many verdicts there are of each kind -/

/-- Every verdict is of one of the four kinds. -/
theorem count_add_count (vs : List Verdict) : vs.count .added + vs.countP Verdict.isReplaced + vs.count .filtered +
    (vs.filterMap Verdict.error?).length = vs.length := by
  induction vs with
  | nil => rfl
  | cons v vs ih =>
    rw [List.length_cons, ← ih]
    cases v <;> simp [Verdict.isReplaced, Verdict.error?, List.countP_cons, List.filterMap_cons] <;> omega

theorem count_filtered_verdicts (r : Registry) (ds : List Declaration) :
    (r.verdicts ds).count .filtered = ds.countP fun d => !d.filter.admits r.options.target := by
  induction ds generalizing r with
  | nil => rfl
  | cons d ds ih =>
    rw [verdicts, List.count_cons, List.countP_cons, ih, (r.extends_register d).options]
    simp only [beq_iff_eq, verdict_eq_filtered_iff, Bool.not_eq_true']

theorem count_admitted_verdicts (r : Registry) (ds : List Declaration) :
    (r.verdicts ds).count .added + (r.verdicts ds).countP Verdict.isReplaced +
      ((r.verdicts ds).filterMap Verdict.error?).length = ds.countP fun d => d.filter.admits r.options.target := by
  have hkinds := count_add_count (r.verdicts ds)
  have hfiltered := count_filtered_verdicts r ds
  have hlength : ds.length = ds.countP (fun d => d.filter.admits r.options.target) +
      ds.countP (fun d => !d.filter.admits r.options.target) := by
    simpa using List.length_eq_countP_add_countP (fun d : Declaration => d.filter.admits r.options.target) (l := ds)
  rw [length_verdicts] at hkinds
  omega

theorem error?_eq_none_of_lastWins (hp : r.options.policy = .lastWins) (d : Declaration) :
    (r.verdict d).error? = none := by
  unfold verdict
  rw [hp]
  split
  · split <;> rfl
  · rfl

theorem isReplaced_of_reject (hp : r.options.policy = .reject) (d : Declaration) :
    (r.verdict d).isReplaced = false := by
  cases hv : r.verdict d with
  | replaced existing => exact absurd hv (not_replaced_of_reject hp existing)
  | added | filtered | rejected _ => rfl

theorem errors_eq_nil_of_lastWins (hp : r.options.policy = .lastWins) (ds : List Declaration) :
    (r.verdicts ds).filterMap Verdict.error? = [] := by
  induction ds generalizing r with
  | nil => rfl
  | cons d ds ih =>
    rw [verdicts, List.filterMap_cons_none (error?_eq_none_of_lastWins hp d)]
    exact ih ((congrArg Options.policy (r.extends_register d).options).trans hp)

theorem countP_isReplaced_of_reject (hp : r.options.policy = .reject) (ds : List Declaration) :
    (r.verdicts ds).countP Verdict.isReplaced = 0 := by
  induction ds generalizing r with
  | nil => rfl
  | cons d ds ih =>
    rw [verdicts, List.countP_cons_of_neg (by simp [isReplaced_of_reject hp])]
    exact ih ((congrArg Options.policy (r.extends_register d).options).trans hp)

end Registry

/-! ## Summaries -/

namespace Discovery.Report

/-- Two summaries as one: the numbers are added, and the errors of the second follow those of the first. -/
def append (a b : Report) : Report where
  components := a.components + b.components
  registered := a.registered + b.registered
  replaced := a.replaced + b.replaced
  filtered := a.filtered + b.filtered
  failures := a.failures ++ b.failures
  rejected := a.rejected ++ b.rejected

/-- The summary of verdicts. -/
def ofVerdicts (vs : List Verdict) : Report where
  registered := vs.count .added
  replaced := vs.countP Verdict.isReplaced
  filtered := vs.count .filtered
  rejected := vs.filterMap Verdict.error?

theorem append_assoc (a b c : Report) : (a.append b).append c = a.append (b.append c) := by
  simp [append, Nat.add_assoc]

theorem append_empty (a : Report) : a.append {} = a := by simp [append]

theorem count_eq_append (a : Report) (v : Verdict) : a.count v = a.append (ofVerdicts [v]) := by
  cases v <;> simp [count, append, ofVerdicts, Verdict.isReplaced, Verdict.error?]

theorem ofVerdicts_append (vs ws : List Verdict) :
    ofVerdicts (vs ++ ws) = (ofVerdicts vs).append (ofVerdicts ws) := by
  simp [ofVerdicts, append]

theorem foldl_count (vs : List Verdict) (a : Report) : vs.foldl count a = a.append (ofVerdicts vs) := by
  induction vs generalizing a with
  | nil => exact (append_empty a).symm
  | cons v vs ih =>
    rw [List.foldl_cons, ih, count_eq_append, append_assoc, ← ofVerdicts_append]
    rfl

end Discovery.Report

/-- The failure of a provider that could not list its declarations. -/
def Provider.failure? (p : Provider) : Option LoadFailure :=
  match p.declarations with
  | .error failure => some failure
  | .ok _ => none

namespace Discovery

/-- The summary of providers, apart from what they declare. -/
def Report.ofProviders (ps : List Provider) : Report where
  components := ps.countP fun p => p.failure?.isNone
  failures := ps.filterMap Provider.failure?

theorem Report.ofProviders_append (ps qs : List Provider) :
    ofProviders (ps ++ qs) = (ofProviders ps).append (ofProviders qs) := by
  simp [ofProviders, append]

theorem Report.ofVerdicts_append_ofProviders (vs : List Verdict) (ps : List Provider) :
    (ofVerdicts vs).append (ofProviders ps) = (ofProviders ps).append (ofVerdicts vs) := by
  simp [ofProviders, ofVerdicts, append]

theorem report_foldl_register (ds : List Declaration) (s : Discovery) :
    (ds.foldl register s).report = s.report.append (.ofVerdicts (s.registry.verdicts ds)) := by
  rw [← Report.foldl_count]
  induction ds generalizing s with
  | nil => rfl
  | cons d ds ih => exact ih (s.register d)

theorem report_visit (s : Discovery) (p : Provider) : (s.visit p).report =
    s.report.append ((Report.ofProviders [p]).append (.ofVerdicts (s.registry.verdicts p.offers))) := by
  unfold visit Provider.offers
  cases hp : p.declarations with
  | error failure =>
    simp [Report.append, Report.ofProviders, Report.ofVerdicts, Provider.failure?, hp, Registry.verdicts]
  | ok ds =>
    have hcount : { s.report with components := s.report.components + 1 } =
        s.report.append (Report.ofProviders [p]) := by
      simp [Report.append, Report.ofProviders, Provider.failure?, hp]
    show (List.foldl register _ _).report = _
    rw [report_foldl_register, hcount, Report.append_assoc]

theorem report_foldl_visit (ps : List Provider) (s : Discovery) : (ps.foldl visit s).report = s.report.append
    ((Report.ofProviders ps).append (.ofVerdicts (s.registry.verdicts (ps.flatMap Provider.offers)))) := by
  induction ps generalizing s with
  | nil => exact (Report.append_empty s.report).symm
  | cons p ps ih =>
    have hps : Report.ofProviders (p :: ps) = _ := Report.ofProviders_append [p] ps
    rw [List.foldl_cons, ih, report_visit, registry_visit, List.flatMap_cons, Registry.verdicts_append, hps,
      Report.ofVerdicts_append]
    -- the providers that are left come before the verdicts on the first one
    simp only [Report.append_assoc]
    rw [← Report.append_assoc (Report.ofVerdicts _) (Report.ofProviders ps), Report.ofVerdicts_append_ofProviders,
      Report.append_assoc]

end Discovery

/-- A discovery reports its providers and the verdicts on what they declare. -/
theorem Registry.report_discover (r : Registry) (ps : List Provider) : (r.discover ps).report =
    (Discovery.Report.ofProviders ps).append (.ofVerdicts (r.verdicts (ps.flatMap Provider.offers))) := by
  show (ps.foldl Discovery.visit _).report = _
  rw [Discovery.report_foldl_visit]
  simp [Discovery.Report.append]

end TypeMapping
