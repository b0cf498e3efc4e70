import TypeMapping.Proofs.Verdicts

/-!
# Discoveries and their reports

A discovery is told by what its providers list, one after the other, and by what the registry makes of it.

* `Provider.works`       : did the provider list its declarations?
* `Discovery.Balances`   : the report of a discovery adds up to what has become of the registry.

Main statements: `discover_isolates`, providers that fail leave no trace but their failures, and two discoveries one after
the other come to the same as one; `discover_balances`, the report of a discovery balances.
-/

namespace TypeMapping

/-- Did the provider list its declarations? -/
def Provider.works (p : Provider) : Bool := p.failure?.isNone

namespace Provider

variable {p : Provider} {ps : List Provider}

theorem offers_of_not_works (h : p.works = false) : p.offers = [] := by
  unfold works failure? at h
  unfold offers
  cases hp : p.declarations with
  | error failure => rfl
  | ok ds =>
    rw [hp] at h
    cases h

theorem flatMap_offers_works (ps : List Provider) : (ps.filter works).flatMap offers = ps.flatMap offers := by
  induction ps with
  | nil => rfl
  | cons p ps ih =>
    rw [List.flatMap_cons]
    by_cases hp : p.works = true
    · rw [List.filter_cons_of_pos hp, List.flatMap_cons, ih]
    · rw [List.filter_cons_of_neg hp, ih, offers_of_not_works (by simpa using hp), List.nil_append]

theorem failures_eq_nil_iff : ps.filterMap failure? = [] ↔ ∀ p ∈ ps, p.works = true := by
  rw [List.filterMap_eq_nil_iff]
  apply forall₂_congr
  intro p _
  exact Option.isNone_iff_eq_none.symm

theorem failures_works (ps : List Provider) : (ps.filter works).filterMap failure? = [] := by
  rw [failures_eq_nil_iff]
  intro p hp
  exact (List.mem_filter.1 hp).2

theorem countP_works (ps : List Provider) : ps.countP works + (ps.filterMap failure?).length = ps.length := by
  induction ps with
  | nil => rfl
  | cons p ps ih =>
    rw [List.countP_cons, List.length_cons, List.filterMap_cons]
    unfold works at ih ⊢
    cases p.failure? <;> simp <;> omega

/-- What the providers offer is what they list, with the origins changed. -/
theorem length_offers (ps : List Provider) :
    (ps.flatMap offers).length = (ps.filterMap fun p => p.declarations.toOption).flatten.length := by
  induction ps with
  | nil => rfl
  | cons p ps ih =>
    rw [List.flatMap_cons, List.length_append, ih, List.filterMap_cons]
    unfold offers
    cases p.declarations <;> simp [Except.toOption]

end Provider

namespace Registry

variable {r : Registry}

/-- The report of a discovery, field by field. -/
theorem report_discover_eq (r : Registry) (ps : List Provider) : (r.discover ps).report =
    let vs := r.verdicts (ps.flatMap Provider.offers)
    { components := ps.countP Provider.works
      registered := vs.count .added
      replaced := vs.countP Verdict.isReplaced
      filtered := vs.count .filtered
      failures := ps.filterMap Provider.failure?
      rejected := vs.filterMap Verdict.error? } := by
  rw [report_discover]
  simp only [Discovery.Report.append, Discovery.Report.ofProviders, Discovery.Report.ofVerdicts, Nat.zero_add,
    Nat.add_zero, List.nil_append, List.append_nil]
  rfl

/-! ## Broken components -/

/-- A discovery after another one goes on where the first one ended. -/
theorem discover_append (r : Registry) (ps qs : List Provider) :
    ((r.discover ps).registry.discover qs).registry = (r.discover (ps ++ qs)).registry ∧
    (r.discover (ps ++ qs)).report = (r.discover ps).report.append ((r.discover ps).registry.discover qs).report := by
  constructor
  · rw [registry_discover, registry_discover, registry_discover, List.flatMap_append, List.foldl_append]
  · simp only [report_discover_eq, registry_discover, List.flatMap_append, verdicts_append, Discovery.Report.append,
      List.countP_append, List.count_append, List.filterMap_append]

/-- **Broken components are isolated.** A discovery leaves the registry, its collisions included, as the discovery of the
providers that work leaves it. The report is the same as well, but for the failures, which it lists in the order of the
providers. Wherever the providers are parted in two, two discoveries come to the same registry as one, and its report is
the sum of theirs. -/
theorem discover_isolates (r : Registry) (ps : List Provider) :
    (r.discover ps).registry = (r.discover (ps.filter Provider.works)).registry ∧
    (r.discover ps).report =
      { (r.discover (ps.filter Provider.works)).report with failures := ps.filterMap Provider.failure? } ∧
    (r.discover (ps.filter Provider.works)).report.failures = [] ∧
    ∀ n, let first := r.discover (ps.take n)
      let second := first.registry.discover (ps.drop n)
      second.registry = (r.discover ps).registry ∧ (r.discover ps).report = first.report.append second.report := by
  refine ⟨?_, ?_, ?_, fun n => ?_⟩
  · rw [registry_discover, registry_discover, Provider.flatMap_offers_works]
  · rw [report_discover_eq, report_discover_eq, Provider.flatMap_offers_works, List.countP_filter]
    simp only [Bool.and_self]
  · rw [report_discover_eq]
    exact Provider.failures_works ps
  · have hsplit := discover_append r (ps.take n) (ps.drop n)
    rwa [List.take_append_drop] at hsplit

end Registry

/-! ## What a report adds up to -/

namespace Verdict

/-- There is one collision for each handler that took a name over or was refused. -/
theorem length_collisions (o : Options) : ∀ (ds : List Declaration) (vs : List Verdict), ds.length = vs.length →
    ((ds.zip vs).filterMap fun x => x.2.collision? o x.1).length =
      vs.countP isReplaced + (vs.filterMap error?).length
  | [], [], _ => rfl
  | d :: ds, v :: vs, h => by
    have ih := length_collisions o ds vs (Nat.succ.inj h)
    rw [List.zip_cons_cons, List.filterMap_cons, List.filterMap_cons, List.countP_cons]
    cases v <;> simp [collision?, isReplaced, error?] at ih ⊢ <;> omega

/-- Where no handler takes a name over, the collisions are the refusals. -/
theorem collisions_eq_map_errors (o : Options) : ∀ (ds : List Declaration) (vs : List Verdict), ds.length = vs.length →
    vs.countP isReplaced = 0 → ((ds.zip vs).filterMap fun x => x.2.collision? o x.1) =
      (vs.filterMap error?).map fun e => ⟨e.name, e.existing, e.incoming, o.policy⟩
  | [], [], _, _ => rfl
  | d :: ds, v :: vs, h, hv => by
    rw [List.countP_cons, Nat.add_eq_zero_iff] at hv
    have ih := collisions_eq_map_errors o ds vs (Nat.succ.inj h) hv.1
    rw [List.zip_cons_cons, List.filterMap_cons, List.filterMap_cons]
    cases v with
    | replaced existing => cases hv.2
    | rejected error => exact congrArg (_ :: ·) ih
    | added | filtered => exact ih

end Verdict

/-- The report adds up to what has become of the registry `r`, where `cs` are the collisions put on record. -/
structure Discovery.Balances (r : Registry) (ps : List Provider) (cs : List Collision) (D : Discovery) : Prop where
  providers : D.report.components + D.report.failures.length = ps.length
  /-- Each declaration of the providers that work is counted once. -/
  declarations : D.report.registered + D.report.replaced + D.report.filtered + D.report.rejected.length =
    (ps.filterMap fun p => p.declarations.toOption).flatten.length
  names : D.registry.size = r.size + D.report.registered
  record : D.registry.collisions = r.collisions ++ cs
  collisions : D.report.replaced + D.report.rejected.length = cs.length
  policy : match r.options.policy with
    | .lastWins => D.report.rejected = []
    | .reject => D.report.replaced = 0 ∧
      cs = D.report.rejected.map fun e => ⟨e.name, e.existing, e.incoming, .reject⟩
  clean : D.report.isClean = true ↔ (∀ p ∈ ps, p.works = true) ∧ cs = []

namespace Discovery.Report

theorem isClean_iff (a : Report) : a.isClean = true ↔ a.failures = [] ∧ a.replaced + a.rejected.length = 0 := by
  simp only [isClean, Bool.and_eq_true, List.isEmpty_iff, beq_iff_eq, Nat.add_eq_zero_iff, List.length_eq_zero_iff]
  rw [and_assoc, and_congr_right_iff]
  exact fun _ => and_comm

end Discovery.Report

namespace Registry

/-- **The report of a discovery balances.** Providers and declarations are all accounted for, the registry has grown by as
many names and the record by as many collisions as the report says, and the report is clean when no provider failed and
nothing was put on record. -/
theorem discover_balances (r : Registry) (ps : List Provider) : ∃ cs, (r.discover ps).Balances r ps cs := by
  let ds := ps.flatMap Provider.offers
  let vs := r.verdicts ds
  let cs := (ds.zip vs).filterMap fun x => x.2.collision? r.options x.1
  have hlength : ds.length = vs.length := (length_verdicts r ds).symm
  have hcollisions : vs.countP Verdict.isReplaced + (vs.filterMap Verdict.error?).length = cs.length :=
    (Verdict.length_collisions r.options ds vs hlength).symm
  refine ⟨cs, {
    providers := ?providers
    declarations := ?declarations
    names := ?names
    record := ?record
    collisions := ?collisions
    policy := ?policy
    clean := ?clean }⟩
  case providers =>
    rw [report_discover_eq]
    exact Provider.countP_works ps
  case declarations =>
    rw [report_discover_eq, ← Provider.length_offers]
    exact (count_add_count vs).trans hlength.symm
  case names =>
    rw [report_discover_eq, registry_discover]
    exact size_foldl_register r ds
  case record =>
    rw [registry_discover]
    exact collisions_foldl_register r ds
  case collisions =>
    rw [report_discover_eq]
    exact hcollisions
  case policy =>
    rw [report_discover_eq]
    cases hp : r.options.policy with
    | lastWins => exact errors_eq_nil_of_lastWins hp ds
    | reject =>
      have hnone : vs.countP Verdict.isReplaced = 0 := countP_isReplaced_of_reject hp ds
      refine ⟨hnone, ?_⟩
      rw [← hp]
      exact Verdict.collisions_eq_map_errors r.options ds vs hlength hnone
  case clean =>
    rw [Discovery.Report.isClean_iff, report_discover_eq]
    show ps.filterMap Provider.failure? = [] ∧ _ = 0 ↔ _
    rw [Provider.failures_eq_nil_iff, hcollisions, List.length_eq_zero_iff]

/-- One component of three fails, and two handlers are refused: the one of `V`, which the application registered before,
and the second one of `W`. -/
example : (((new { policy := .reject }).register { name := "V", origin := "runtime" }).discover
    [.ofList "a" [{ name := "V", origin := "" }, { name := "W", origin := "" }], ⟨"b", .error ⟨"b", "unreadable"⟩⟩,
      .ofList "c" [{ name := "W", origin := "" }, { name := "X", origin := "", filter := .only .cli }]]).report =
    { components := 2, registered := 1, filtered := 1, failures := [⟨"b", "unreadable"⟩],
      rejected := [⟨"V", "runtime", "a"⟩, ⟨"W", "a", "c"⟩] } := by decide

end Registry

end TypeMapping
