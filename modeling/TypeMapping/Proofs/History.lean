import Mathlib.Data.List.Sort
import TypeMapping.Proofs.ByteOrder
import TypeMapping.Proofs.Verdicts

/-!
# The registry as the sum of its registrations

After any run, the registry is told by the registrations of the run alone: by those whose filters admit the target, in
their order, name by name.

* `Options.contenders`, `Options.keeper?` : the registrations that claim a name, and the one whose handler has it;
* `Entry.switchless`                      : an entry, whatever its switch says;
* `Registry.Recounts`                     : every name stands for what its keeper made;
* `Options.judge`, `Options.judgements`   : the verdicts by the registrations before;
* `Session.outcomes`                      : the registrations of a run with the verdicts on them;
* `Registry.SumsUp`, `Options.Decides`    : what the registrations say about the registry, and about a verdict.

Main statements: `Recounts.register`, `Recounts.run`, registrations, and then runs, keep the account; `outcomes_eq`, the
verdicts of a run are those by the registrations before; `sumsUp_run`, the registry is the sum of the registrations, and
the same in every order that keeps those of each name in order.
-/

namespace TypeMapping

/-! ## Who has a name -/

namespace Options

variable {o : Options} {ds : List Declaration} {d : Declaration} {name : String}

/-- The registrations of the name that serve the target, in order. -/
def contenders (o : Options) (ds : List Declaration) (name : String) : List Declaration :=
  ds.filter fun d => d.filter.admits o.target && d.name == name

/-- The registration whose handler has the name in the end: the last contender or, where later ones are refused, the
first one. -/
def keeper? (o : Options) (ds : List Declaration) (name : String) : Option Declaration :=
  match o.policy with
  | .lastWins => (o.contenders ds name).getLast?
  | .reject => (o.contenders ds name).head?

theorem mem_contenders_iff :
    d ∈ o.contenders ds name ↔ d ∈ ds ∧ d.filter.admits o.target = true ∧ d.name = name := by
  simp [contenders]

theorem keeper?_congr {ds' : List Declaration} (h : o.contenders ds name = o.contenders ds' name) :
    o.keeper? ds name = o.keeper? ds' name := by
  unfold keeper?
  rw [h]

theorem mem_contenders_of_keeper? (h : o.keeper? ds name = some d) : d ∈ o.contenders ds name := by
  unfold keeper? at h
  split at h
  · exact List.mem_of_getLast? h
  · exact List.mem_of_head? h

theorem keeper?_eq_none_iff : o.keeper? ds name = none ↔ o.contenders ds name = [] := by
  unfold keeper?
  split
  · exact List.getLast?_eq_none_iff
  · exact List.head?_eq_none_iff

theorem exists_keeper?_iff : (∃ k, o.keeper? ds name = some k) ↔
    ∃ d ∈ ds, d.filter.admits o.target = true ∧ d.name = name := by
  rw [← Option.isSome_iff_exists, Option.isSome_iff_ne_none, Ne, keeper?_eq_none_iff, List.eq_nil_iff_forall_not_mem]
  simp only [mem_contenders_iff, not_forall, not_not]

theorem contenders_append (o : Options) (ds es : List Declaration) (name : String) :
    o.contenders (ds ++ es) name = o.contenders ds name ++ o.contenders es name := List.filter_append ..

/-- A registration that does not contend leaves the keeper. -/
theorem keeper?_concat_of_not (h : ¬ (d.filter.admits o.target = true ∧ d.name = name)) :
    o.keeper? (ds ++ [d]) name = o.keeper? ds name := by
  have hd : o.contenders [d] name = [] := by simpa [contenders] using h
  exact keeper?_congr (by rw [contenders_append, hd, List.append_nil])

/-- A contender becomes the keeper, unless later ones are refused and there is one. -/
theorem keeper?_concat (ha : d.filter.admits o.target = true) (hn : d.name = name) :
    o.keeper? (ds ++ [d]) name =
      match o.policy with
      | .lastWins => some d
      | .reject => (o.keeper? ds name).or (some d) := by
  have hd : o.contenders [d] name = [d] := by simp [contenders, ha, hn]
  unfold keeper?
  rw [contenders_append, hd]
  cases o.policy with
  | lastWins => simp
  | reject => simp [List.head?_append]

/-- Only the registrations of its own name count for the keeper. -/
theorem contenders_filter (o : Options) (ds : List Declaration) (name : String) :
    o.contenders (ds.filter fun d => d.name = name) name = o.contenders ds name := by
  unfold contenders
  rw [List.filter_filter]
  refine List.filter_congr fun d _ => ?_
  by_cases hn : d.name = name <;> simp [hn]

/-! ## Verdicts by the registrations before -/

/-- The verdict on `d` where `before` has been registered. -/
def judge (o : Options) (before : List Declaration) (d : Declaration) : Verdict :=
  if d.filter.admits o.target then
    match o.keeper? before d.name with
    | none => .added
    | some k =>
      match o.policy with
      | .lastWins => .replaced k.origin
      | .reject => .rejected ⟨d.name, k.origin, d.origin⟩
  else .filtered

/-- The registrations `ds`, each with its verdict, where `before` has been registered. -/
def judgements (o : Options) (before : List Declaration) : List Declaration → List (Declaration × Verdict)
  | [] => []
  | d :: ds => (d, o.judge before d) :: o.judgements (before ++ [d]) ds

variable {before : List Declaration}

theorem judgements_append (o : Options) (before ds es : List Declaration) :
    o.judgements before (ds ++ es) = o.judgements before ds ++ o.judgements (before ++ ds) es := by
  induction ds generalizing before with
  | nil => simp [judgements]
  | cons d ds ih => simp [judgements, ih]

@[simp] theorem map_fst_judgements (o : Options) (before ds : List Declaration) :
    (o.judgements before ds).map Prod.fst = ds := by
  induction ds generalizing before with
  | nil => rfl
  | cons d ds ih => exact congrArg (d :: ·) (ih _)

theorem eq_judge_of_judgements_eq {xs ys : List (Declaration × Verdict)} {v : Verdict}
    (h : o.judgements before ds = xs ++ (d, v) :: ys) : v = o.judge (before ++ xs.map Prod.fst) d := by
  induction xs generalizing before ds with
  | nil =>
    cases ds with
    | nil => cases h
    | cons e ds =>
      obtain ⟨⟨rfl, rfl⟩, -⟩ : (e = d ∧ o.judge before e = v) ∧ _ := by simpa [judgements] using h
      simp
  | cons x xs ih =>
    cases ds with
    | nil => cases h
    | cons e ds =>
      simp only [judgements, List.cons_append, List.cons.injEq] at h
      obtain ⟨rfl, h⟩ := h
      simpa using ih h

/-- The registrations of one name are judged as if there were no others. -/
theorem filter_judgements (o : Options) (before ds : List Declaration) (name : String) :
    (o.judgements before ds).filter (fun x => x.1.name = name) =
      o.judgements (before.filter fun d => d.name = name) (ds.filter fun d => d.name = name) := by
  induction ds generalizing before with
  | nil => rfl
  | cons d ds ih =>
    by_cases hn : d.name = name
    · have hd : o.judge (before.filter fun d => d.name = name) d = o.judge before d := by
        unfold judge
        rw [hn, keeper?_congr (contenders_filter o before name)]
      rw [judgements, List.filter_cons_of_pos (by simpa using hn), List.filter_cons_of_pos (by simpa using hn),
        judgements, hd, ih, List.filter_append, List.filter_cons_of_pos (by simpa using hn), List.filter_nil]
    · rw [judgements, List.filter_cons_of_neg (by simpa using hn), List.filter_cons_of_neg (by simpa using hn), ih,
        List.filter_append, List.filter_cons_of_neg (by simpa using hn), List.filter_nil, List.append_nil]

/-- What the registrations before say about a verdict. -/
structure Decides (o : Options) (before : List Declaration) (d : Declaration) (v : Verdict) : Prop where
  filtered : v = .filtered ↔ d.filter.admits o.target = false
  /-- The name is new if no registration of it was admitted before. -/
  added : v = .added ↔ d.filter.admits o.target = true ∧
    ∀ d' ∈ before, d'.filter.admits o.target = true → d'.name ≠ d.name
  /-- Otherwise the policy settles it, between the handler and the keeper of the name. -/
  taken : d.filter.admits o.target = true → (∃ d' ∈ before, d'.filter.admits o.target = true ∧ d'.name = d.name) →
    ∃ k, o.keeper? before d.name = some k ∧ v =
      match o.policy with
      | .lastWins => .replaced k.origin
      | .reject => .rejected ⟨d.name, k.origin, d.origin⟩

theorem decides_judge (o : Options) (before : List Declaration) (d : Declaration) :
    o.Decides before d (o.judge before d) := by
  have hnone : o.keeper? before d.name = none ↔
      ∀ d' ∈ before, d'.filter.admits o.target = true → d'.name ≠ d.name := by
    rw [keeper?_eq_none_iff, List.eq_nil_iff_forall_not_mem]
    simp only [mem_contenders_iff, not_and]
  unfold judge
  refine ⟨?_, ?_, ?_⟩
  · split
    · next ha =>
      simp only [ha, Bool.true_eq_false, iff_false]
      split
      · simp
      · split <;> simp
    · next ha => simpa using ha
  · rw [← hnone]
    split
    · next ha =>
      simp only [ha, true_and]
      split
      · next hk => simp [hk]
      · next hk => split <;> simp [hk]
    · next ha => simp [ha]
  · intro ha hd
    obtain ⟨k, hk⟩ := exists_keeper?_iff.2 hd
    exact ⟨k, hk, by simp only [ha, hk, if_true]⟩

end Options

/-! ## Registries that recount their registrations -/

/-- The entry, whatever its switch says. -/
def Entry.switchless (e : Entry) : Entry := { e with enabled := true }

theorem Entry.origin_switchless (e : Entry) : e.switchless.origin = e.origin := rfl

namespace Registry

/-- Every name stands for what its keeper made, as far as `f` shows of an entry. -/
structure Recounts (f : Entry → Entry) (o : Options) (ds : List Declaration) (r : Registry) : Prop where
  options : r.options = o
  holder : ∀ name, (r.holder? name).map f = (o.keeper? ds name).map fun d => f (d.entry o)

variable {f : Entry → Entry} {o : Options} {ds : List Declaration} {r : Registry} {d : Declaration}

theorem recounts_new (f : Entry → Entry) (o : Options) : (new o).Recounts f o [] :=
  ⟨rfl, fun name => by cases hp : o.policy <;> simp [Options.keeper?, Options.contenders, hp] <;> rfl⟩

/-- The verdict is the one by the registrations before. -/
theorem Recounts.verdict (hf : ∀ e, (f e).origin = e.origin) (h : r.Recounts f o ds) (d : Declaration) :
    r.verdict d = o.judge ds d := by
  have hd := h.holder d.name
  unfold Options.judge
  rw [← h.options] at hd ⊢
  cases ha : d.filter.admits r.options.target with
  | false => exact verdict_of_not_admits ha
  | true =>
    cases hk : r.options.keeper? ds d.name with
    | none =>
      rw [hk] at hd
      exact verdict_of_admits ha (Option.map_eq_none_iff.1 hd)
    | some k =>
      rw [hk] at hd
      obtain ⟨e, he, hek⟩ := Option.map_eq_some_iff.1 hd
      have ho : e.origin = k.origin := by
        rw [← hf e, hek, hf]
        rfl
      rw [verdict_of_holder? ha he, ho]
      rfl

/-- A registration keeps the account. -/
theorem Recounts.register (hf : ∀ e, (f e).origin = e.origin) (h : r.Recounts f o ds) (d : Declaration) :
    (r.register d).Recounts f o (ds ++ [d]) := by
  refine ⟨(r.extends_register d).options.trans h.options, fun name => ?_⟩
  rw [holder?_register, h.verdict hf, h.options]
  by_cases hc : d.filter.admits o.target = true ∧ d.name = name
  · obtain ⟨ha, rfl⟩ := hc
    have hd := h.holder d.name
    rw [Options.keeper?_concat ha rfl, Options.judge, if_pos ha]
    -- the name is new, or taken over, or it stays with its keeper
    cases hk : o.keeper? ds d.name with
    | none => cases o.policy <;> simp [Verdict.stores]
    | some k =>
      rw [hk] at hd
      cases o.policy with
      | lastWins => simp [Verdict.stores]
      | reject => simpa [Verdict.stores] using hd
  · have hstay : ¬ (d.name = name ∧ (o.judge ds d).stores = true) := by
      rintro ⟨hn, hs⟩
      have ha : ¬ d.filter.admits o.target = true := fun ha => hc ⟨ha, hn⟩
      rw [Options.judge, if_neg ha] at hs
      cases hs
    rw [Options.keeper?_concat_of_not hc, if_neg hstay, h.holder]

theorem Recounts.foldl_register (hf : ∀ e, (f e).origin = e.origin) (h : r.Recounts f o ds) (es : List Declaration) :
    (es.foldl Registry.register r).Recounts f o (ds ++ es) := by
  induction es generalizing r ds with
  | nil => simpa using h
  | cons d es ih => simpa using ih (h.register hf d)

/-- What does not show the switches does not show that one was set. -/
theorem Recounts.setEnabled (hf : ∀ e b, f { e with enabled := b } = f e) (h : r.Recounts f o ds) (i : EntryId)
    (b : Bool) : (r.setEnabled i b).Recounts f o ds := by
  refine ⟨h.options, fun name => ?_⟩
  rw [← h.holder, holder?, holder?, get?_setEnabled]
  cases r.get? name with
  | none => rfl
  | some id =>
    rw [Option.bind_some, Option.bind_some, byId?_setEnabled]
    split
    · simp only [Option.map_map, Function.comp_def, hf]
    · rfl

theorem Recounts.zip_verdicts (hf : ∀ e, (f e).origin = e.origin) (h : r.Recounts f o ds) (es : List Declaration) :
    es.zip (r.verdicts es) = o.judgements ds es := by
  induction es generalizing r ds with
  | nil => rfl
  | cons d es ih => rw [verdicts, List.zip_cons_cons, h.verdict hf, ih (h.register hf d), Options.judgements]

theorem Recounts.verdicts (hf : ∀ e, (f e).origin = e.origin) (h : r.Recounts f o ds) (es : List Declaration) :
    r.verdicts es = (o.judgements ds es).map Prod.snd := by
  rw [← h.zip_verdicts hf, List.map_snd_zip (by simp)]

end Registry

/-! ## Runs -/

namespace Session

variable {Node Decl Key : Type} [DecidableEq Key] {lang : Language Node Decl Key} {s t : Session Node Key}
  {f : Entry → Entry} {o : Options} {ds : List Declaration}

theorem recounts_perform (hf : ∀ e, (f e).origin = e.origin) {a : Action Node}
    (hs : (∀ i b, a ≠ .setEnabled i b) ∨ ∀ e b, f { e with enabled := b } = f e) (h : s.registry.Recounts f o ds)
    (ha : s.perform lang a = some t) : t.registry.Recounts f o (ds ++ a.declarations) := by
  rcases registry_perform_cases ha with ⟨-, hr⟩ | ⟨i, b, rfl, hr⟩
  · rw [hr]
    exact h.foldl_register hf _
  · rw [hr]
    simpa [Action.declarations] using h.setEnabled (hs.resolve_left fun hne => hne i b rfl) i b

/-- A run keeps the account of its registrations, switches included if it sets none. -/
theorem recounts_run (hf : ∀ e, (f e).origin = e.origin) {as : List (Action Node)}
    (hs : (∀ a ∈ as, ∀ i b, a ≠ .setEnabled i b) ∨ ∀ e b, f { e with enabled := b } = f e)
    (h : s.registry.Recounts f o ds) (ht : s.run lang as = some t) :
    t.registry.Recounts f o (ds ++ as.flatMap Action.declarations) := by
  induction as generalizing s ds with
  | nil => simpa using Option.some.inj ht ▸ h
  | cons a as ih =>
    obtain ⟨u, hu, ht⟩ := run_cons ht
    have ha := recounts_perform hf (hs.imp_left fun hne => hne a List.mem_cons_self) h hu
    simpa using ih (hs.imp_left fun hne b hb => hne b (List.mem_cons_of_mem a hb)) ha ht

variable (lang) in
/-- The registrations of a run, each with its verdict. -/
def outcomes (s : Session Node Key) : List (Action Node) → List (Declaration × Verdict)
  | [] => []
  | a :: as => a.declarations.zip (s.registry.verdicts a.declarations) ++
      (s.perform lang a).elim [] fun t => outcomes t as

/-- The verdicts of a run are those by the registrations before. -/
theorem outcomes_eq {as : List (Action Node)} (h : s.registry.Recounts Entry.switchless o ds)
    (ht : s.run lang as = some t) : s.outcomes lang as = o.judgements ds (as.flatMap Action.declarations) := by
  induction as generalizing s ds with
  | nil => rfl
  | cons a as ih =>
    obtain ⟨u, hu, ht⟩ := run_cons ht
    have hu' := recounts_perform Entry.origin_switchless (.inr fun _ _ => rfl) h hu
    rw [outcomes, hu, List.flatMap_cons, Options.judgements_append,
      h.zip_verdicts Entry.origin_switchless]
    exact congrArg _ (ih hu' ht)

end Session

/-! ## Main statement -/

namespace Registry

variable {r r' : Registry} {o : Options} {ds ds' : List Declaration} {name : String}

/-- What the registrations say about the registry. -/
structure SumsUp (o : Options) (ds : List Declaration) (r : Registry) : Prop where
  /-- The names are those of the registrations that serve the target. -/
  mem_names : ∀ name, name ∈ r.names ↔ ∃ d ∈ ds, d.filter.admits o.target = true ∧ d.name = name
  /-- They are listed in the order of their bytes, each once. -/
  sorted : (r.names.map Text.bytes).Pairwise (· < ·)
  size : r.size = r.names.length
  /-- Under each name is the handler of its keeper. -/
  entry : ∀ name ∈ r.names, ∃ id e d, r.get? name = some id ∧ r.byId? id = some e ∧ o.keeper? ds name = some d ∧
    e.name = name ∧ e.filter.admits o.target = true ∧ e.origin = d.origin ∧ e.filter = d.filter ∧
    e.handler = d.factory o

theorem mem_names_iff : name ∈ r.names ↔ (r.holder? name).isSome := by
  rw [names, List.mem_mergeSort, Dict.mem_keys_iff]
  show (r.get? name).isSome ↔ _
  unfold holder?
  cases hg : r.get? name with
  | none => simp
  | some id =>
    obtain ⟨e, he, -⟩ := exists_entry_of_get? hg
    simp [he]

theorem names_eq_of_mem_iff (h : ∀ name, name ∈ r.names ↔ name ∈ r'.names) : r.names = r'.names :=
  Text.mergeSort_eq_of_mem_iff r.index.nodup_keys r'.index.nodup_keys fun name => by
    simpa only [names, List.mem_mergeSort] using h name

theorem pairwise_lt_names (r : Registry) : (r.names.map Text.bytes).Pairwise (· < ·) :=
  List.pairwise_map.2 ((Text.pairwise_lt_mergeSort r.index.nodup_keys).imp Text.bytes_lt_bytes_of_lt)

theorem length_names (r : Registry) : r.names.length = r.size := by
  rw [names, List.length_mergeSort, Dict.length_keys, size]

theorem Recounts.mem_names_iff {f : Entry → Entry} (h : r.Recounts f o ds) :
    name ∈ r.names ↔ ∃ d ∈ ds, d.filter.admits o.target = true ∧ d.name = name := by
  rw [Registry.mem_names_iff, ← Option.isSome_map (f := f), h.holder, Option.isSome_map, Option.isSome_iff_exists,
    Options.exists_keeper?_iff]

theorem Recounts.sumsUp (h : r.Recounts Entry.switchless o ds) : r.SumsUp o ds where
  mem_names _ := h.mem_names_iff
  sorted := r.pairwise_lt_names
  size := r.length_names.symm
  entry name hname := by
    obtain ⟨d, hd⟩ := Options.exists_keeper?_iff.2 (h.mem_names_iff.1 hname)
    have hh := h.holder name
    rw [hd] at hh
    obtain ⟨e, he, hed⟩ := Option.map_eq_some_iff.1 hh
    obtain ⟨id, hg, hb⟩ := Option.bind_eq_some_iff.1 he
    obtain ⟨-, ha, hn⟩ := Options.mem_contenders_iff.1 (Options.mem_contenders_of_keeper? hd)
    -- but for the switch, the entry is the one that was made of the registration
    have hfields : e.name = d.name ∧ e.origin = d.origin ∧ e.filter = d.filter ∧ e.handler = d.factory o := by
      have := congrArg (fun e : Entry => (e.name, e.origin, e.filter, e.handler)) hed
      simpa [Entry.switchless, Declaration.entry] using this
    obtain ⟨hname', horigin, hfilter, hhandler⟩ := hfields
    exact ⟨id, e, d, hg, hb, hd, hname'.trans hn, by rwa [hfilter], horigin, hfilter, hhandler⟩

/-- Two orders that keep the registrations of each name in order come to the same. -/
theorem Recounts.map_holder?_congr {f : Entry → Entry} (h : r.Recounts f o ds) (h' : r'.Recounts f o ds')
    (hd : ∀ name, ds'.filter (·.name = name) = ds.filter (·.name = name)) (name : String) :
    (r'.holder? name).map f = (r.holder? name).map f := by
  rw [h.holder, h'.holder, Options.keeper?_congr]
  rw [← Options.contenders_filter o ds', hd, Options.contenders_filter]

end Registry

namespace Session

variable {Node Decl Key : Type} [DecidableEq Key] {lang : Language Node Decl Key} {s t : Session Node Key}

/-- **The registry is the sum of its registrations.** After any run, the names, and the handler under each of them, are
told by the registrations that serve the target, and so is each verdict by the registrations before. Another run whose
registrations of each name come in the same order gives the same names and handlers, and the same verdicts on the
registrations of each name; the switches are the same as well if none is set. -/
theorem sumsUp_run {o : Options} {as : List (Action Node)} (hs : (Session.new (.new o)).run lang as = some s) :
    s.registry.SumsUp o (as.flatMap Action.declarations) ∧
    ((Session.new (.new o)).outcomes lang as).map Prod.fst = as.flatMap Action.declarations ∧
    (∀ xs d v ys, (Session.new (.new o)).outcomes lang as = xs ++ (d, v) :: ys → o.Decides (xs.map Prod.fst) d v) ∧
    ∀ as' t, (Session.new (.new o)).run lang as' = some t →
      (∀ name, (as'.flatMap Action.declarations).filter (·.name = name) =
        (as.flatMap Action.declarations).filter (·.name = name)) →
      t.registry.names = s.registry.names ∧
      (∀ name, (t.registry.holder? name).map Entry.switchless = (s.registry.holder? name).map Entry.switchless) ∧
      (∀ name, ((Session.new (.new o)).outcomes lang as').filter (·.1.name = name) =
        ((Session.new (.new o)).outcomes lang as).filter (·.1.name = name)) ∧
      ((∀ a ∈ as ++ as', ∀ i b, a ≠ .setEnabled i b) → ∀ name, t.registry.holder? name = s.registry.holder? name) := by
  have hrun : ∀ {as : List (Action Node)} {s}, (Session.new (.new o)).run lang as = some s →
      s.registry.Recounts Entry.switchless o (as.flatMap Action.declarations) := fun hs =>
    recounts_run Entry.origin_switchless (.inr fun _ _ => rfl) (Registry.recounts_new _ o) hs
  have houtcomes : ∀ {as : List (Action Node)} {s}, (Session.new (.new o)).run lang as = some s →
      (Session.new (.new o)).outcomes lang as = o.judgements [] (as.flatMap Action.declarations) := fun hs =>
    outcomes_eq (Registry.recounts_new _ o) hs
  refine ⟨(hrun hs).sumsUp, ?_, fun xs d v ys h => ?_, fun as' t ht hd => ⟨?_, ?_, fun name => ?_, fun hne name => ?_⟩⟩
  · rw [houtcomes hs, Options.map_fst_judgements]
  · rw [houtcomes hs] at h
    rw [Options.eq_judge_of_judgements_eq h]
    exact o.decides_judge _ d
  · refine Registry.names_eq_of_mem_iff fun name => ?_
    have hsame := congrArg Option.isSome ((hrun hs).map_holder?_congr (hrun ht) hd name)
    rw [Option.isSome_map, Option.isSome_map] at hsame
    rw [Registry.mem_names_iff, Registry.mem_names_iff, hsame]
  · exact (hrun hs).map_holder?_congr (hrun ht) hd
  · rw [houtcomes hs, houtcomes ht, Options.filter_judgements, Options.filter_judgements, hd]
  · -- without a switch the account is of the whole entries
    have hid : ∀ {as : List (Action Node)} {s}, (∀ a ∈ as, ∀ i b, a ≠ .setEnabled i b) →
        (Session.new (.new o)).run lang as = some s →
        s.registry.Recounts id o (as.flatMap Action.declarations) := fun hne hs =>
      recounts_run (f := id) (fun _ => rfl) (.inl hne) (Registry.recounts_new _ o) hs
    simpa using (hid (fun a ha => hne a (List.mem_append_left _ ha)) hs).map_holder?_congr
      (hid (fun a ha => hne a (List.mem_append_right _ ha)) ht) hd name

/-- The name `V` is taken over while its entry is bound, in the memo and switched off, and by a handler that does not
serve the target in between; the same handlers come in another order. -/
theorem sumsUp_run_of_mixed :
    ∃ s t, (Session.new (.new {})).run TypeTerm.plain [.register { name := "V", origin := "a" },
        .resolve (.named "V"), .setEnabled 0 false, .register { name := "V", origin := "b", filter := .only .cpp },
        .discover [.ofList "c" [{ name := "V", origin := "" }, { name := "W", origin := "" }]]] = some s ∧
      (Session.new (.new {})).run TypeTerm.plain [.register { name := "W", origin := "c" },
        .register { name := "V", origin := "a" }, .register { name := "V", origin := "b", filter := .only .cpp },
        .register { name := "V", origin := "c" }] = some t ∧
      s.registry.SumsUp {} [{ name := "V", origin := "a" }, { name := "V", origin := "b", filter := .only .cpp },
        { name := "V", origin := "c" }, { name := "W", origin := "c" }] ∧
      Options.Decides {} [{ name := "W", origin := "c" }, { name := "V", origin := "a" },
        { name := "V", origin := "b", filter := .only .cpp }] { name := "V", origin := "c" } (.replaced "a") ∧
      s.registry.get? "V" = some 1 ∧ t.registry.get? "V" = some 2 ∧ t.registry.names = s.registry.names ∧
      (t.registry.holder? "V").map Entry.switchless = (s.registry.holder? "V").map Entry.switchless := by
  have hs : (Session.new (.new {})).run TypeTerm.plain [.register { name := "V", origin := "a" },
      .resolve (.named "V"), .setEnabled 0 false, .register { name := "V", origin := "b", filter := .only .cpp },
      .discover [.ofList "c" [{ name := "V", origin := "" }, { name := "W", origin := "" }]]] = some _ :=
    run_resolve (walks_sample _) _
  have ht : (Session.new (.new {})).run TypeTerm.plain [.register { name := "W", origin := "c" },
      .register { name := "V", origin := "a" }, .register { name := "V", origin := "b", filter := .only .cpp },
      .register { name := "V", origin := "c" }] = some _ := rfl
  obtain ⟨hsum, -, -, horder⟩ := sumsUp_run hs
  obtain ⟨-, -, hdecides, -⟩ := sumsUp_run ht
  obtain ⟨hnames, hholders, -, -⟩ := horder _ _ ht fun name => by
    by_cases hV : "V" = name
    · subst hV
      rfl
    · by_cases hW : "W" = name <;> simp [Action.declarations, Provider.offers, Provider.ofList, hV, hW]
  exact ⟨_, _, hs, ht, hsum, hdecides [_, _, _] _ _ [] rfl, rfl, rfl, hnames, hholders "V"⟩

end Session

end TypeMapping
