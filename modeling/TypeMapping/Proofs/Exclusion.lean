import TypeMapping.Proofs.Retirement

/-!
# Entries that have to be switched on first

The options exclude the handlers of some names, and a handler may ask to be excluded itself. Such an entry starts
switched off, and no resolution comes to it before it is switched on.

* `Options.Excludes`  : the entry has to be switched on first;
* `Session.SwitchedOn`: in a run, the entry was switched on and not off again;
* `Session.Returns`   : the ways in which a session hands out an entry.

Main statements: `switched_or_enabled_of_perform`, `switchedOn_or_enabled_of_run`, an excluded entry that is enabled
after an action, or after a run, was so before or was switched on; `returns_switchedOn`, what a session hands out serves
the target, and is not excluded or was switched on.
-/

namespace TypeMapping

/-- The options or the handler itself ask for the entry to be switched on first. -/
def Options.Excludes (o : Options) (e : Entry) : Prop := o.disables e.name = true ∨ e.handler.enabled = false

/-- What is excluded starts switched off. -/
theorem Options.Excludes.enabled_entry {o : Options} {d : Declaration} (h : o.Excludes (d.entry o)) :
    (d.entry o).enabled = false := by
  rcases h with hn | hh
  · have hd : o.disables d.name = true := hn
    simp [Declaration.entry, hd]
  · have hd : (d.factory o).enabled = false := hh
    simp [Declaration.entry, hd]

namespace Registry

variable {r : Registry} {id : EntryId} {e : Entry}

/-- Registrations store nothing but their declarations. -/
theorem byId?_foldl_register {ds : List Declaration} (h : (ds.foldl register r).byId? id = some e) :
    r.byId? id = some e ∨ ∃ d ∈ ds, e = d.entry r.options := by
  induction ds generalizing r with
  | nil => exact .inl h
  | cons d ds ih =>
    rcases ih h with h | ⟨d', hd', he⟩
    · exact (byId?_register h).imp_right fun he => ⟨d, List.mem_cons_self, he.2⟩
    · rw [(r.extends_register d).options] at he
      exact .inr ⟨d', List.mem_cons_of_mem d hd', he⟩

end Registry

namespace Session

variable {Node Decl Key : Type} [DecidableEq Key] {lang : Language Node Decl Key} {s t : Session Node Key}
  {o : Options} {id : EntryId} {e : Entry} {a : Action Node} {as : List (Action Node)}

/-! ## How an excluded entry comes to be enabled -/

/-- An excluded entry that is enabled after an action was switched on by it, or it was enabled before. -/
theorem switched_or_enabled_of_perform (ha : s.perform lang a = some t) (he : t.registry.byId? id = some e)
    (hon : e.enabled = true) (hx : s.registry.options.Excludes e) :
    a = .setEnabled id true ∧ (s.registry.byId? id).isSome ∨
    a ≠ .setEnabled id false ∧ s.registry.byId? id = some e := by
  rcases registry_perform_cases ha with ⟨hne, hr⟩ | ⟨i, b, rfl, hr⟩
  · rw [hr] at he
    rcases Registry.byId?_foldl_register he with he | ⟨d, -, rfl⟩
    · exact .inr ⟨hne id false, he⟩
    · rw [hx.enabled_entry] at hon
      cases hon
  · rw [hr, Registry.byId?_setEnabled] at he
    split at he
    · next hi =>
      subst hi
      obtain ⟨e', he', rfl⟩ := Option.map_eq_some_iff.1 he
      obtain rfl : b = true := hon
      exact .inl ⟨rfl, by rw [he']; rfl⟩
    · next hi => exact .inr ⟨fun h => hi (Action.setEnabled.inj h).1, he⟩

/-- In the run from `s`, the entry was switched on while it was there, and not off again. -/
def SwitchedOn (lang : Language Node Decl Key) (s : Session Node Key) (as : List (Action Node)) (id : EntryId) : Prop :=
  ∃ bs cs t, as = bs ++ .setEnabled id true :: cs ∧ s.run lang bs = some t ∧ (t.registry.byId? id).isSome ∧
    .setEnabled id false ∉ cs

theorem SwitchedOn.cons (ha : s.perform lang a = some t) (h : SwitchedOn lang t as id) :
    SwitchedOn lang s (a :: as) id := by
  obtain ⟨bs, cs, u, rfl, hu, hid, hcs⟩ := h
  exact ⟨a :: bs, cs, u, rfl, by rw [run, ha, Option.bind_some, hu], hid, hcs⟩

theorem SwitchedOn.mem (h : SwitchedOn lang s as id) : .setEnabled id true ∈ as := by
  obtain ⟨bs, cs, t, rfl, -⟩ := h
  simp

/-- An excluded entry that is enabled after a run was switched on in it, or it was enabled before. -/
theorem switchedOn_or_enabled_of_run (ho : s.registry.options = o) (hs : s.run lang as = some t)
    (he : t.registry.byId? id = some e) (hon : e.enabled = true) (hx : o.Excludes e) :
    SwitchedOn lang s as id ∨ .setEnabled id false ∉ as ∧ s.registry.byId? id = some e := by
  induction as generalizing s with
  | nil =>
    obtain rfl := Option.some.inj hs
    exact .inr ⟨List.not_mem_nil, he⟩
  | cons a as ih =>
    obtain ⟨u, hu, hs⟩ := run_cons hs
    have hou : u.registry.options = o := registry_perform (P := fun r => r.options = o)
      (fun r d h => (r.extends_register d).options.trans h) (fun _ _ _ h => h) ho hu
    rcases ih hou hs with h | ⟨hoff, hid⟩
    · exact .inl (h.cons hu)
    · rcases switched_or_enabled_of_perform hu hid hon (ho ▸ hx) with ⟨rfl, hid'⟩ | ⟨hne, hid'⟩
      · exact .inl ⟨[], as, s, rfl, rfl, hid', hoff⟩
      · exact .inr ⟨by simp [hoff, hne.symm], hid'⟩

/-! ## Main statement -/

/-- The session hands out the entry. -/
inductive Returns (lang : Language Node Decl Key) (s : Session Node Key) : EntryId → Prop
  | resolve {n u : Node} {r : Resolution Node Key} {id : EntryId} :
      s.resolve? lang n = some r → r.answer = some (id, u) → Returns lang s id
  | resolveDeclaration {d : Decl} {hd : lang.Grounded (lang.tag d)} {u : Node} {id : EntryId} :
      (s.resolveDeclaration lang d hd).answer = some (id, u) → Returns lang s id
  | resolveName {name : String} {id : EntryId} : s.resolveName name = some id → Returns lang s id
  | lookup {name : String} {id : EntryId} : s.registry.lookup? name = some id → Returns lang s id

theorem Returns.exists_lookup? (h : s.Returns lang id) :
    ∃ e, s.registry.byId? id = some e ∧ s.registry.lookup? e.name = some id := by
  have hname : ∀ {name : String} {id : EntryId}, s.registry.lookup? name = some id →
      ∃ e, s.registry.byId? id = some e ∧ s.registry.lookup? e.name = some id := by
    intro name id hl
    obtain ⟨e, he, rfl⟩ := Registry.exists_entry_of_lookup? hl
    exact ⟨e, he, hl⟩
  cases h with
  | resolve hr ha => exact exists_lookup?_of_answer hr ha
  | resolveDeclaration ha => exact exists_lookup?_of_answer (resolve?_eq_some lang s _) ha
  | resolveName hl => exact hname hl
  | lookup hl => exact hname hl

theorem Returns.enabled (h : s.Returns lang id) (he : s.registry.byId? id = some e) :
    e.enabled = true ∧ s.registry.get? e.name = some id := by
  obtain ⟨e', he', hl⟩ := h.exists_lookup?
  obtain rfl := Option.some.inj (he'.symm.trans he)
  obtain ⟨hg, hon⟩ := Registry.lookup?_eq_some_iff.1 hl
  exact ⟨by simpa [Registry.isEnabled, he] using hon, hg⟩

/-- **Exclusions hold on every way to an entry.** What a session hands out after a run serves the target; if the options
or the handler exclude it, it was switched on after it was stored and not off again. As long as nothing is switched,
registrations and resolutions only lead to excluded entries that their names led to already, and none is handed out in a
run without a switch. -/
theorem returns_switchedOn (hs : (Session.new (.new o)).run lang as = some s) :
    (∀ id, s.Returns lang id → ∃ e, s.registry.byId? id = some e ∧ e.filter.admits o.target = true ∧
      (o.Excludes e → SwitchedOn lang (Session.new (.new o)) as id)) ∧
    (∀ bs t, (∀ b ∈ bs, ∀ i c, b ≠ .setEnabled i c) → s.run lang bs = some t → ∀ id e, t.Returns lang id →
      t.registry.byId? id = some e → o.Excludes e → s.registry.lookup? e.name = some id) ∧
    ((∀ a ∈ as, ∀ i c, a ≠ .setEnabled i c) → ∀ id e, s.Returns lang id → s.registry.byId? id = some e →
      ¬ o.Excludes e) := by
  have hstems := run_stems (Registry.stemsFrom_new o) hs
  have hon : ∀ id e, s.Returns lang id → s.registry.byId? id = some e → o.Excludes e →
      SwitchedOn lang (Session.new (.new o)) as id := by
    intro id e hr he hx
    refine (switchedOn_or_enabled_of_run rfl hs he (hr.enabled he).1 hx).resolve_right ?_
    rintro ⟨-, hid⟩
    simp [new, Registry.byId?, Registry.new, Array.empty] at hid
  refine ⟨fun id hr => ?_, fun bs t hbs ht id e hr he hx => ?_, fun hne id e hr he hx => ?_⟩
  · obtain ⟨e, he, -⟩ := hr.exists_lookup?
    obtain ⟨d, -, ha, b, rfl⟩ := hstems.2 id e he
    exact ⟨_, he, ha, hon id _ hr he⟩
  · obtain ⟨hen, hg⟩ := hr.enabled he
    obtain ⟨-, hid⟩ := (switchedOn_or_enabled_of_run hstems.1 ht he hen hx).resolve_left fun h =>
      hbs _ h.mem id true rfl
    refine Registry.lookup?_eq_some_iff.2 ⟨?_, by simpa [Registry.isEnabled, hid] using hen⟩
    -- had the entry lost its name by then, it would not have it now
    refine Classical.byContradiction fun hlost => ?_
    exact (nameless_run ⟨e, hid, hlost⟩ ht).1.get?_ne e.name hg
  · exact hne _ (hon id e hr he hx).mem id true rfl

/-- A listed name is resolved past the slot of its entry, which was switched on; the next handler of that name is not
looked up, though it has taken the name over. -/
theorem returns_switchedOn_of_listed :
    ∃ s r e, (Session.new (.new { disabled := ["V"] })).run TypeTerm.plain [.register { name := "V", origin := "a" },
        .setEnabled 0 true, .resolve (.named "V")] = some s ∧
      s.resolve? TypeTerm.plain (.named "V") = some r ∧ r.answer = some (0, .named "V") ∧
      s.registry.byId? 0 = some e ∧ e.filter.admits .csharp = true ∧
      SwitchedOn TypeTerm.plain (Session.new (.new { disabled := ["V"] })) [.register { name := "V", origin := "a" },
        .setEnabled 0 true, .resolve (.named "V")] 0 ∧
      (s.register { name := "V", origin := "b" }).registry.get? "V" = some 1 ∧
      ¬ (s.register { name := "V", origin := "b" }).Returns TypeTerm.plain 1 := by
  let s₀ : Session TypeTerm TypeTerm :=
    ((new (.new { disabled := ["V"] })).register { name := "V", origin := "a" }).setEnabled 0 true
  let s := (s₀.conclude TypeTerm.plain .sample).session
  have hw : s₀.outlook.Walks TypeTerm.plain .untried (.named "V") (.named "V") .sample :=
    .unsettled rfl (.classless rfl (.spelled rfl rfl))
  have hs : (Session.new (.new { disabled := ["V"] })).run TypeTerm.plain [.register { name := "V", origin := "a" },
      .setEnabled 0 true, .resolve (.named "V")] = some s := run_resolve hw _
  have hr : s.resolve? TypeTerm.plain (.named "V") = some (s.conclude TypeTerm.plain (.found 0 (.named "V"))) :=
    resolve?_of_walks (.ready rfl)
  obtain ⟨hreturns, hquiet, -⟩ := returns_switchedOn hs
  obtain ⟨e, he, ha, hon⟩ := hreturns 0 (.resolve hr rfl)
  have hx : ({ disabled := ["V"] } : Options).Excludes e := by
    obtain rfl := Option.some.inj he
    exact .inl rfl
  refine ⟨s, _, e, hs, hr, rfl, he, ha, hon hx, rfl, fun h => ?_⟩
  have hold := hquiet [.register { name := "V", origin := "b" }] _ (by simp) rfl 1 _ h rfl (.inl rfl)
  cases hold

end Session

end TypeMapping
