import Mathlib.Data.Finset.Card
import TypeMapping.Proofs.History

/-!
# Discoveries from an inventory

An inventory lists declarations in no particular order. They are sorted by their components, and those of one component
by their names, before they are registered, so that the order of the list makes no difference to names, origins,
collisions and summary. Only declarations of one name in one component keep their order.

* `Declaration.Before`   : the order of declarations, by component and name;
* `Provider.inOrder`     : the declarations as an inventory has them registered;
* `Declaration.claim`, `Options.claims` : the name and the origin of a declaration, and those that serve the target;
* `Registry.ofInventory` : what a session discovers in an inventory;
* `Discovery.TakesStock` : what the declarations say about it.

Main statements: `perm_inOrder`, `pairwise_inOrder`, every declaration is registered once, and in
order; `claims_inOrder_congr`, the claims come in the same order from every order of the list;
`filterMap_judgements_claims`, refusals and collisions depend on the claims only; `takesStock_ofInventory`,
`discover_ofInventory`, the discovery is told by the declarations, in whatever order they are listed.
-/

namespace TypeMapping

/-! ## The order of registration -/

/-- By component, and within a component by name. -/
def Declaration.Before (d d' : Declaration) : Prop := d.origin < d'.origin ∨ d.origin = d'.origin ∧ d.name ≤ d'.name

theorem Declaration.Before.origin_le {d d' : Declaration} (h : d.Before d') : d.origin ≤ d'.origin := by
  rcases h with h | ⟨h, -⟩
  · exact h.le
  · exact h.le

namespace Provider

variable {ds ds' : List Declaration}

theorem nodup_eraseDups : ∀ l : List String, l.eraseDups.Nodup
  | [] => by simp
  | a :: l => by
    rw [List.eraseDups_cons, List.nodup_cons]
    exact ⟨by simp, nodup_eraseDups (l.filter fun b => !b == a)⟩
termination_by l => l.length
decreasing_by exact Nat.lt_succ_of_le (List.length_filter_le ..)

theorem mem_components_iff {c : String} : c ∈ components ds ↔ ∃ d ∈ ds, d.origin = c := by
  simp [components]

theorem pairwise_components (ds : List Declaration) : (components ds).Pairwise (· < ·) :=
  Text.pairwise_lt_mergeSort (nodup_eraseDups _)

theorem nodup_components (ds : List Declaration) : (components ds).Nodup :=
  (pairwise_components ds).imp ne_of_lt

/-- In whatever order the components are collected, they are sorted in the same way. -/
theorem components_eq_mergeSort {cs : List String} (hn : cs.Nodup) (h : ∀ c, c ∈ cs ↔ ∃ d ∈ ds, d.origin = c) :
    components ds = cs.mergeSort (· ≤ ·) :=
  Text.mergeSort_eq_of_mem_iff (nodup_eraseDups _) hn fun c => by simp [h]

theorem length_components (ds : List Declaration) :
    (components ds).length = (ds.map Declaration.origin).toFinset.card := by
  rw [← List.toFinset_card_of_nodup (nodup_components ds)]
  congr 1
  ext c
  simp [mem_components_iff]

theorem perm_declarationsOf (c : String) (ds : List Declaration) :
    (declarationsOf c ds).Perm (ds.filter (·.origin = c)) := List.mergeSort_perm ..

theorem origin_of_mem_declarationsOf {c : String} {d : Declaration} (h : d ∈ declarationsOf c ds) : d.origin = c := by
  simpa using (List.mem_filter.1 ((perm_declarationsOf c ds).mem_iff.1 h)).2

theorem pairwise_declarationsOf (c : String) (ds : List Declaration) :
    (declarationsOf c ds).Pairwise fun d d' => d.name ≤ d'.name := Text.pairwise_mergeSort_key Declaration.name _

/-- The declarations as an inventory has them registered. -/
def inOrder (ds : List Declaration) : List Declaration := (ofInventory ds).flatMap offers

theorem inOrder_eq (ds : List Declaration) : inOrder ds = (components ds).flatMap fun c => declarationsOf c ds := by
  rw [inOrder, ofInventory, List.flatMap_map]
  congr 1
  funext c
  -- a declaration has its component as its origin already
  refine (List.map_congr_left fun d hd => ?_).trans (List.map_id _)
  rw [← origin_of_mem_declarationsOf hd]
  rfl

theorem perm_flatMap_filter {cs : List String} (hn : cs.Nodup) (h : ∀ d ∈ ds, d.origin ∈ cs) :
    (cs.flatMap fun c => ds.filter (·.origin = c)).Perm ds := by
  induction cs generalizing ds with
  | nil =>
    cases ds with
    | nil => exact .refl _
    | cons d ds => exact absurd (h d List.mem_cons_self) List.not_mem_nil
  | cons c cs ih =>
    obtain ⟨hc, hn⟩ := List.nodup_cons.1 hn
    have hrest : (cs.flatMap fun c' => ds.filter (·.origin = c')) =
        cs.flatMap fun c' => (ds.filter fun d => !decide (d.origin = c)).filter (·.origin = c') := by
      refine List.flatMap_congr fun c' hc' => ?_
      rw [List.filter_filter]
      refine List.filter_congr fun d _ => ?_
      by_cases hd : d.origin = c'
      · have hne : c' ≠ c := fun heq => hc (heq ▸ hc')
        simp [hd, hne]
      · simp [hd]
    rw [List.flatMap_cons, hrest]
    refine (List.Perm.append_left _ (ih hn fun d hd => ?_)).trans (List.filter_append_perm _ ds)
    obtain ⟨hd, hne⟩ := List.mem_filter.1 hd
    exact (List.mem_cons.1 (h d hd)).resolve_left (by simpa using hne)

/-- Every declaration is registered once. -/
theorem perm_inOrder (ds : List Declaration) : (inOrder ds).Perm ds := by
  rw [inOrder_eq]
  refine (List.Perm.flatMap_left _ fun c _ => perm_declarationsOf c ds).trans ?_
  exact perm_flatMap_filter (nodup_components ds) fun d hd => mem_components_iff.2 ⟨d, hd, rfl⟩

/-- They are registered in order. -/
theorem pairwise_inOrder (ds : List Declaration) : (inOrder ds).Pairwise Declaration.Before := by
  rw [inOrder_eq, List.pairwise_flatMap]
  refine ⟨fun c _ => ?_, (pairwise_components ds).imp fun hlt d hd d' hd' => .inl ?_⟩
  · refine (pairwise_declarationsOf c ds).imp_of_mem fun hd hd' hle => .inr ⟨?_, hle⟩
    rw [origin_of_mem_declarationsOf hd, origin_of_mem_declarationsOf hd']
  · rwa [origin_of_mem_declarationsOf hd, origin_of_mem_declarationsOf hd']

end Provider

/-! ## Claims -/

/-- The name and the origin of a declaration, and nothing else of it. -/
def Declaration.claim (d : Declaration) : Declaration := { name := d.name, origin := d.origin }

namespace Options

variable {o : Options} {ds ds' before : List Declaration} {d k : Declaration} {name : String}

/-- The claims of the declarations that serve the target. -/
def claims (o : Options) (ds : List Declaration) : List Declaration :=
  (ds.filter fun d => d.filter.admits o.target).map Declaration.claim

theorem claims_append (o : Options) (ds es : List Declaration) : o.claims (ds ++ es) = o.claims ds ++ o.claims es := by
  simp [claims]

theorem contenders_claims (o : Options) (ds : List Declaration) (name : String) :
    o.contenders (o.claims ds) name = (o.contenders ds name).map Declaration.claim := by
  unfold contenders claims
  rw [List.filter_map, List.filter_filter]
  congr 1
  refine List.filter_congr fun d _ => ?_
  simp [Declaration.claim, Target.Filter.admits, Bool.and_comm]

theorem keeper?_claims (o : Options) (ds : List Declaration) (name : String) :
    o.keeper? (o.claims ds) name = (o.keeper? ds name).map Declaration.claim := by
  unfold keeper?
  rw [contenders_claims]
  cases o.policy with
  | lastWins => exact List.getLast?_map
  | reject => exact List.head?_map

theorem judge_claim (ha : d.filter.admits o.target = true) : o.judge (o.claims before) d.claim = o.judge before d := by
  have hclaim : d.claim.filter.admits o.target = true := rfl
  unfold judge
  rw [if_pos ha, if_pos hclaim, show d.claim.name = d.name from rfl, keeper?_claims]
  cases o.keeper? before d.name <;> rfl

/-- What is read of verdicts, and of claims where they are not filtered, is read of the verdicts on the claims. -/
theorem filterMap_judgements_claims {β : Type} {f : Declaration × Verdict → Option β}
    (hfiltered : ∀ d, f (d, .filtered) = none) (hclaim : ∀ d v, f (d.claim, v) = f (d, v)) :
    (o.judgements before ds).filterMap f = (o.judgements (o.claims before) (o.claims ds)).filterMap f := by
  induction ds generalizing before with
  | nil => rfl
  | cons d ds ih =>
    rw [judgements, List.filterMap_cons, ih, claims_append]
    cases ha : d.filter.admits o.target with
    | true =>
      have hd : o.claims (d :: ds) = d.claim :: o.claims ds := by simp [claims, ha]
      have hd' : o.claims [d] = [d.claim] := by simp [claims, ha]
      rw [hd, hd', judgements, List.filterMap_cons, hclaim, judge_claim ha]
    | false =>
      have hd : o.claims (d :: ds) = o.claims ds := by simp [claims, ha]
      have hd' : o.claims [d] = [] := by simp [claims, ha]
      rw [hd, hd', List.append_nil, judge, if_neg (by simp [ha]), hfiltered]

/-- Of declarations in order, the keeper of a name is the last one or the first one by its origin. -/
theorem origin_le_of_keeper? (hs : ds.Pairwise Declaration.Before) (hk : o.keeper? ds name = some k)
    (hd : d ∈ o.contenders ds name) :
    match o.policy with
    | .lastWins => d.origin ≤ k.origin
    | .reject => k.origin ≤ d.origin := by
  have hc : (o.contenders ds name).Pairwise Declaration.Before := hs.filter _
  unfold keeper? at hk
  cases hp : o.policy with
  | lastWins =>
    rw [hp] at hk
    obtain ⟨l, hl⟩ := List.getLast?_eq_some_iff.1 hk
    rw [hl] at hc hd
    rcases List.mem_append.1 hd with hd | hd
    · exact ((List.pairwise_append.1 hc).2.2 d hd k (List.mem_singleton_self k)).origin_le
    · exact (congrArg Declaration.origin (List.mem_singleton.1 hd)).le
  | reject =>
    rw [hp] at hk
    obtain ⟨l, hl⟩ := List.head?_eq_some_iff.1 hk
    rw [hl] at hc hd
    rcases List.mem_cons.1 hd with rfl | hd
    · exact le_rfl
    · exact (List.rel_of_pairwise_cons hc hd).origin_le

/-- Claims of the same declarations come in the same order, if they come in order. -/
theorem claims_eq_of_perm (hp : ds'.Perm ds) (hs : ds.Pairwise Declaration.Before)
    (hs' : ds'.Pairwise Declaration.Before) : o.claims ds' = o.claims ds := by
  have hclaims : ∀ {ds : List Declaration}, ds.Pairwise Declaration.Before →
      (o.claims ds).Pairwise Declaration.Before := fun h => List.pairwise_map.2 (h.filter _)
  refine List.Perm.eq_of_pairwise (fun d d' hd hd' h h' => ?_) (hclaims hs') (hclaims hs) ((hp.filter _).map _)
  obtain ⟨d, -, rfl⟩ := List.mem_map.1 hd
  obtain ⟨d', -, rfl⟩ := List.mem_map.1 hd'
  have horigin : d.origin = d'.origin := le_antisymm h.origin_le h'.origin_le
  have hname : d.name = d'.name :=
    le_antisymm (h.resolve_left horigin.not_lt).2 (h'.resolve_left horigin.symm.not_lt).2
  rw [Declaration.claim, Declaration.claim, horigin, hname]

end Options

/-! ## Main statement -/

namespace Discovery

variable {o : Options} {ds ds' : List Declaration} {D D' : Discovery}

/-- What the declarations say about the discovery. -/
structure TakesStock (o : Options) (ds : List Declaration) (D : Discovery) : Prop where
  /-- The names are those of the declarations that serve the target. -/
  mem_names : ∀ name, name ∈ D.registry.names ↔ ∃ d ∈ ds, d.filter.admits o.target = true ∧ d.name = name
  /-- They are listed in the order of their bytes, each once. -/
  sorted : (D.registry.names.map Text.bytes).Pairwise (· < ·)
  /-- Under each name is a handler of the last component, or the first one, that declares it for the target. -/
  origin : ∀ name ∈ D.registry.names, ∃ e, D.registry.holder? name = some e ∧
    (∃ d ∈ ds, d.filter.admits o.target = true ∧ d.name = name ∧ d.origin = e.origin) ∧
    ∀ d ∈ ds, d.filter.admits o.target = true → d.name = name →
      match o.policy with
      | .lastWins => Text.bytes d.origin ≤ Text.bytes e.origin
      | .reject => Text.bytes e.origin ≤ Text.bytes d.origin
  components : D.report.components = (ds.map Declaration.origin).toFinset.card
  failures : D.report.failures = []
  filtered : D.report.filtered = ds.countP fun d => !d.filter.admits o.target
  registered : D.report.registered =
    ((ds.filter fun d => d.filter.admits o.target).map Declaration.name).toFinset.card
  /-- The declarations for the target that were not the first of their names took them over, or were refused. -/
  taken : match o.policy with
    | .lastWins => D.report.registered + D.report.replaced = (ds.countP fun d => d.filter.admits o.target) ∧
        D.report.rejected = []
    | .reject => D.report.registered + D.report.rejected.length = (ds.countP fun d => d.filter.admits o.target) ∧
        D.report.replaced = 0

/-- The summary is told by the declarations but for the refusals. -/
theorem TakesStock.report_eq (h : D.TakesStock o ds) (h' : D'.TakesStock o ds') (hp : ds'.Perm ds)
    (hr : D'.report.rejected = D.report.rejected) : D'.report = D.report := by
  have hcomponents : D'.report.components = D.report.components := by
    rw [h.components, h'.components, List.toFinset_eq_of_perm _ _ (hp.map _)]
  have hfiltered : D'.report.filtered = D.report.filtered := by rw [h.filtered, h'.filtered, hp.countP_eq]
  have hregistered : D'.report.registered = D.report.registered := by
    rw [h.registered, h'.registered, List.toFinset_eq_of_perm _ _ ((hp.filter _).map _)]
  have hreplaced : D'.report.replaced = D.report.replaced := by
    have ht := h.taken
    have ht' := h'.taken
    rw [hp.countP_eq] at ht'
    cases hpol : o.policy <;> rw [hpol] at ht ht' <;> dsimp only at ht ht' <;> omega
  have hfailures : D'.report.failures = D.report.failures := by rw [h.failures, h'.failures]
  cases hD : D.report
  cases hD' : D'.report
  simp_all

end Discovery

namespace Registry

variable {o : Options} {ds ds' : List Declaration}

/-- What a session discovers in an inventory. -/
def ofInventory (o : Options) (ds : List Declaration) : Discovery := (new o).discover (Provider.ofInventory ds)

theorem recounts_ofInventory (o : Options) (ds : List Declaration) :
    (ofInventory o ds).registry.Recounts Entry.switchless o (Provider.inOrder ds) := by
  rw [ofInventory, registry_discover]
  exact (recounts_new _ o).foldl_register Entry.origin_switchless _

theorem report_ofInventory (o : Options) (ds : List Declaration) : (ofInventory o ds).report =
    (Discovery.Report.ofProviders (Provider.ofInventory ds)).append
      (.ofVerdicts ((new o).verdicts (Provider.inOrder ds))) := report_discover ..

theorem ofProviders_ofInventory (ds : List Declaration) : Discovery.Report.ofProviders (Provider.ofInventory ds) =
    { components := (Provider.components ds).length } := by
  have hp : ∀ p ∈ Provider.ofInventory ds, p.failure? = none := by
    intro p hp
    obtain ⟨c, -, rfl⟩ := List.mem_map.1 hp
    rfl
  have hcomponents : (Provider.ofInventory ds).countP (fun p => p.failure?.isNone) =
      (Provider.components ds).length := by
    rw [List.countP_eq_length.2 fun p hm => by rw [hp p hm]; rfl, Provider.ofInventory, List.length_map]
  have hfailures : (Provider.ofInventory ds).filterMap Provider.failure? = [] := List.filterMap_eq_nil_iff.2 hp
  rw [Discovery.Report.ofProviders, hcomponents, hfailures]

/-- There is one name for each that a declaration claims for the target. -/
theorem size_ofInventory (o : Options) (ds : List Declaration) : (ofInventory o ds).registry.size =
    ((ds.filter fun d => d.filter.admits o.target).map Declaration.name).toFinset.card := by
  have hn : (ofInventory o ds).registry.names.Nodup :=
    (Text.pairwise_lt_mergeSort (ofInventory o ds).registry.index.nodup_keys).imp ne_of_lt
  rw [← length_names, ← List.toFinset_card_of_nodup hn]
  congr 1
  ext name
  simp [(recounts_ofInventory o ds).mem_names_iff, (Provider.perm_inOrder ds).mem_iff, and_assoc]

/-- Under each name is a handler of the last component that declares it for the target, or of the first one. -/
theorem exists_holder?_ofInventory {name : String} (h : name ∈ (ofInventory o ds).registry.names) :
    ∃ e, (ofInventory o ds).registry.holder? name = some e ∧
      (∃ d ∈ ds, d.filter.admits o.target = true ∧ d.name = name ∧ d.origin = e.origin) ∧
      ∀ d ∈ ds, d.filter.admits o.target = true → d.name = name →
        match o.policy with
        | .lastWins => Text.bytes d.origin ≤ Text.bytes e.origin
        | .reject => Text.bytes e.origin ≤ Text.bytes d.origin := by
  have hperm := Provider.perm_inOrder ds
  obtain ⟨id, e, k, hg, hb, hk, -, -, horigin, -, -⟩ := (recounts_ofInventory o ds).sumsUp.entry name h
  obtain ⟨hk', ha, hn⟩ := Options.mem_contenders_iff.1 (Options.mem_contenders_of_keeper? hk)
  refine ⟨e, by rw [holder?, hg, Option.bind_some, hb], ⟨k, hperm.mem_iff.1 hk', ha, hn, horigin.symm⟩,
    fun d hd ha' hn' => ?_⟩
  have hle := Options.origin_le_of_keeper? (Provider.pairwise_inOrder ds) hk
    (Options.mem_contenders_iff.2 ⟨hperm.mem_iff.2 hd, ha', hn'⟩)
  rw [horigin]
  cases hp : o.policy <;> rw [hp] at hle <;> exact Text.bytes_le_bytes.2 hle

theorem takesStock_ofInventory (o : Options) (ds : List Declaration) : (ofInventory o ds).TakesStock o ds := by
  have hperm := Provider.perm_inOrder ds
  have hsum := (recounts_ofInventory o ds).sumsUp
  have hreport := report_ofInventory o ds
  rw [ofProviders_ofInventory] at hreport
  have hadmitted := (count_admitted_verdicts (new o) (Provider.inOrder ds)).trans (hperm.countP_eq _)
  have hadded : ((new o).verdicts (Provider.inOrder ds)).count .added =
      ((ds.filter fun d => d.filter.admits o.target).map Declaration.name).toFinset.card := by
    rw [← size_ofInventory, ofInventory, registry_discover, size_foldl_register]
    exact (Nat.zero_add _).symm
  refine {
    mem_names := fun name => by simpa only [hperm.mem_iff] using hsum.mem_names name
    sorted := hsum.sorted
    origin := fun name hname => exists_holder?_ofInventory hname
    components := by rw [hreport, ← Provider.length_components]; rfl
    failures := by rw [hreport]; rfl
    filtered := ?_
    registered := ?_
    taken := ?_ } <;>
    simp only [hreport, Discovery.Report.append, Discovery.Report.ofVerdicts, Nat.zero_add, List.nil_append]
  · exact (count_filtered_verdicts ..).trans (hperm.countP_eq _)
  · exact hadded
  · cases hp : o.policy with
    | lastWins =>
      have herrors := errors_eq_nil_of_lastWins (r := new o) hp (Provider.inOrder ds)
      rw [herrors, List.length_nil, Nat.add_zero] at hadmitted
      exact ⟨hadmitted, herrors⟩
    | reject =>
      have hreplaced := countP_isReplaced_of_reject (r := new o) hp (Provider.inOrder ds)
      rw [hreplaced, Nat.add_zero] at hadmitted
      exact ⟨hadmitted, hreplaced⟩

theorem claims_inOrder_congr (hp : ds'.Perm ds) :
    o.claims (Provider.inOrder ds') = o.claims (Provider.inOrder ds) :=
  Options.claims_eq_of_perm ((Provider.perm_inOrder ds').trans (hp.trans (Provider.perm_inOrder ds).symm))
    (Provider.pairwise_inOrder ds) (Provider.pairwise_inOrder ds')

/-- Refusals come in the same order. -/
theorem rejected_ofInventory_congr (hp : ds'.Perm ds) :
    (ofInventory o ds').report.rejected = (ofInventory o ds).report.rejected := by
  have hclaims : ∀ ds, (ofInventory o ds).report.rejected =
      (o.judgements [] (o.claims (Provider.inOrder ds))).filterMap fun x => x.2.error? := by
    intro ds
    rw [report_ofInventory, (recounts_new _ o).verdicts Entry.origin_switchless, ofProviders_ofInventory]
    show [] ++ ((o.judgements [] _).map Prod.snd).filterMap Verdict.error? = _
    rw [List.nil_append, List.filterMap_map]
    exact Options.filterMap_judgements_claims (fun _ => rfl) fun _ _ => rfl
  rw [hclaims, hclaims, claims_inOrder_congr hp]

/-- Collisions come in the same order. -/
theorem collisions_ofInventory_congr (hp : ds'.Perm ds) :
    (ofInventory o ds').registry.collisions = (ofInventory o ds).registry.collisions := by
  have hclaims : ∀ ds, (ofInventory o ds).registry.collisions =
      (o.judgements [] (o.claims (Provider.inOrder ds))).filterMap fun x => x.2.collision? o x.1 := by
    intro ds
    rw [ofInventory, registry_discover, collisions_foldl_register,
      (recounts_new _ o).zip_verdicts Entry.origin_switchless]
    exact Options.filterMap_judgements_claims (f := fun x => x.2.collision? o x.1) (fun _ => rfl) fun _ v => by
      cases v <;> rfl
  rw [hclaims, hclaims, claims_inOrder_congr hp]

theorem origin_ofInventory_congr (hp : ds'.Perm ds) (name : String) :
    ((ofInventory o ds').registry.holder? name).map Entry.origin =
      ((ofInventory o ds).registry.holder? name).map Entry.origin := by
  have hclaims : ∀ ds, ((ofInventory o ds).registry.holder? name).map Entry.origin =
      (o.keeper? (o.claims (Provider.inOrder ds)) name).map Declaration.origin := by
    intro ds
    have hh := congrArg (Option.map Entry.origin) ((recounts_ofInventory o ds).holder name)
    simp only [Option.map_map, Function.comp_def] at hh
    rw [Options.keeper?_claims, Option.map_map]
    exact hh
  rw [hclaims, hclaims, claims_inOrder_congr hp]

/-- **The order of an inventory makes no difference.** What a session discovers in an inventory is told by the
declarations that serve the target and their components. To list them in another order gives the same names, the same
origin under each name, the same collisions in the same order, and the same summary; and so does to collect the
components in another order before they are sorted. -/
theorem discover_ofInventory (o : Options) (ds : List Declaration) :
    (ofInventory o ds).TakesStock o ds ∧
    (∀ cs : List String, cs.Nodup → (∀ c, c ∈ cs ↔ ∃ d ∈ ds, d.origin = c) → Provider.ofInventory ds =
      (cs.mergeSort (· ≤ ·)).map fun c => Provider.ofList c (Provider.declarationsOf c ds)) ∧
    ∀ ds' : List Declaration, ds'.Perm ds →
      (ofInventory o ds').registry.names = (ofInventory o ds).registry.names ∧
      (∀ name, ((ofInventory o ds').registry.holder? name).map Entry.origin =
        ((ofInventory o ds).registry.holder? name).map Entry.origin) ∧
      (ofInventory o ds').registry.collisions = (ofInventory o ds).registry.collisions ∧
      (ofInventory o ds').report = (ofInventory o ds).report := by
  refine ⟨takesStock_ofInventory o ds, fun cs hn hcs => ?_, fun ds' hp => ⟨?_, ?_, ?_, ?_⟩⟩
  · rw [Provider.ofInventory, Provider.components_eq_mergeSort hn hcs]
  · refine names_eq_of_mem_iff fun name => ?_
    rw [(takesStock_ofInventory o ds').mem_names, (takesStock_ofInventory o ds).mem_names]
    simp only [hp.mem_iff]
  · exact origin_ofInventory_congr hp
  · exact collisions_ofInventory_congr hp
  · exact (takesStock_ofInventory o ds).report_eq (takesStock_ofInventory o ds') hp (rejected_ofInventory_congr hp)

/-- A component declares the name `V` twice, with handlers that are not the same, and another component once. -/
theorem discover_ofInventory_of_twice :
    let ds : List Declaration := [{ name := "V", origin := "b" }, { name := "V", origin := "a" },
      { name := "W", origin := "a", filter := .only .cpp },
      { name := "V", origin := "a", factory := Handler.disabled }]
    (ofInventory {} ds).report.registered = 1 ∧ (ofInventory {} ds).report.replaced = 2 ∧
      (ofInventory {} ds.reverse).report = (ofInventory {} ds).report ∧
      ((ofInventory {} ds.reverse).registry.holder? "V").map Entry.origin = some "b" := by
  intro ds
  obtain ⟨hstock, -, horder⟩ := discover_ofInventory {} ds
  obtain ⟨-, horigin, -, hreport⟩ := horder ds.reverse ds.reverse_perm
  have hregistered : (ofInventory {} ds).report.registered = 1 := hstock.registered.trans (by decide)
  have hV : "V" ∈ (ofInventory {} ds).registry.names := (hstock.mem_names "V").2 ⟨_, List.mem_cons_self, rfl, rfl⟩
  obtain ⟨e, he, ⟨d, hd, -, -, hde⟩, hle⟩ := hstock.origin "V" hV
  have hb : e.origin = "b" := by
    have hle : "b" ≤ e.origin := Text.bytes_le_bytes.1 (hle _ List.mem_cons_self rfl rfl)
    have hd : d.origin = "b" ∨ d.origin = "a" := by
      simp only [ds, List.mem_cons, List.not_mem_nil, or_false] at hd
      rcases hd with rfl | rfl | rfl | rfl <;> simp
    refine (hde ▸ hd).resolve_right fun ha => ?_
    rw [ha] at hle
    exact absurd hle (by decide)
  refine ⟨hregistered, ?_, hreport, ?_⟩
  · have htaken : (ofInventory {} ds).report.registered + (ofInventory {} ds).report.replaced = 3 := hstock.taken.1
    omega
  · rw [horigin, he, Option.map_some, hb]

end Registry

end TypeMapping
