import TypeMapping.Proofs.Soundness

/-!
# What keeps a node resolvable

An action may send a resolution another way, but hardly ever into a dead end.

* `Registry.Upholds`   : the names that stand for an enabled entry still do, and no entry gets a name back;
* `Registry.Silences`  : a registration that puts an entry that is switched off in the place of another;
* `Action.MaySilence`  : the actions after which a node may no longer be resolved;
* `Outlook.Eases`      : an outlook under which at least as many nodes are resolved;
* `Renders`            : a name among those that were tried;
* `Session.Resolves`   : the resolution of a node ends with an answer.

Main statements: `Eases.exists_walks`, a walk that had an answer, or tried a name that is enabled now, has an
answer; `resolves_perform`, a node stays resolvable unless a name is silenced; `resolves_register`, a name that was
tried in vain is found as soon as it is registered.
-/

namespace TypeMapping

/-! ## Registries that uphold names -/

/-- Is the handler of the registration stored? -/
def Verdict.stores : Verdict → Bool
  | .added | .replaced _ => true
  | .filtered | .rejected _ => false

namespace Registry

/-- What stands for an enabled entry in `r` does so in `r'`, and an entry that has lost its name in `r` has lost
it in `r'`. -/
structure Upholds (r r' : Registry) : Prop extends Extends r r' where
  names : ∀ name, (r.lookup? name).isSome → (r'.lookup? name).isSome
  retired : ∀ id e, r.byId? id = some e → r'.isCurrent id = true → r.isCurrent id = true

/-- The registration puts an entry that starts switched off in the place of another one. -/
def Silences (r : Registry) (d : Declaration) : Prop :=
  (∃ existing, r.verdict d = .replaced existing) ∧ (d.entry r.options).enabled = false

/-- One of the registrations does so, made one after the other. -/
def SilencesAmong (r : Registry) : List Declaration → Prop
  | [] => False
  | d :: ds => r.Silences d ∨ (r.register d).SilencesAmong ds

theorem Upholds.refl (r : Registry) : Upholds r r := ⟨.refl r, fun _ h => h, fun _ _ _ h => h⟩

theorem Upholds.trans {r₁ r₂ r₃ : Registry} (h₁ : Upholds r₁ r₂) (h₂ : Upholds r₂ r₃) :
    Upholds r₁ r₃ := by
  refine ⟨h₁.toExtends.trans h₂.toExtends, fun name h => h₂.names name (h₁.names name h),
    fun id e he hc => ?_⟩
  obtain ⟨b, hb⟩ := h₁.entries id e he
  exact h₁.retired id e he (h₂.retired id _ hb hc)

theorem upholds_store {r : Registry} {e : Entry} (h : r.get? e.name = none ∨ e.enabled = true) :
    Upholds r (r.store e) := by
  refine ⟨r.extends_store e, fun name hn => ?_, fun id e' he hc => ?_⟩
  · rw [lookup?_store]
    split
    · next heq =>
      rcases h with h | h
      · rw [heq] at h
        simp [lookup?, h] at hn
      · simp [h]
    · exact hn
  · obtain ⟨e'', he'', hg⟩ := isCurrent_eq_true_iff.1 hc
    have hid := ne_size_of_byId? he
    rw [byId?_store, if_neg hid, he] at he''
    obtain rfl := Option.some.inj he''
    rw [get?_store] at hg
    split at hg
    · exact absurd (Option.some.inj hg).symm hid
    · exact isCurrent_eq_true_iff.2 ⟨e', he, hg⟩

theorem upholds_record (r : Registry) (c : Collision) : Upholds r (r.record c) :=
  ⟨r.extends_record c, fun _ h => h, fun _ _ _ h => h⟩

/-- A name is new to the registry when its registration is. -/
theorem get?_of_verdict_added {r : Registry} {d : Declaration} (h : r.verdict d = .added) :
    r.get? d.name = none := by
  cases hg : r.get? d.name with
  | none => rfl
  | some id =>
    obtain ⟨e, he, -⟩ := exists_entry_of_get? hg
    simp only [verdict, hg, Option.bind_some, he] at h
    split at h
    · split at h <;> cases h
    · cases h

theorem upholds_register {r : Registry} {d : Declaration} (h : ¬ r.Silences d) :
    Upholds r (r.register d) := by
  unfold register
  split
  · exact .refl r
  · next hv => exact upholds_store (.inl (get?_of_verdict_added hv))
  · next existing hv =>
    have hon : (d.entry r.options).enabled = true :=
      (Bool.eq_false_or_eq_true _).resolve_right fun hoff => h ⟨⟨existing, hv⟩, hoff⟩
    exact (upholds_store (.inr hon)).trans (upholds_record _ _)
  · exact r.upholds_record _

theorem upholds_foldl_register {ds : List Declaration} {r : Registry} (h : ¬ r.SilencesAmong ds) :
    Upholds r (ds.foldl register r) := by
  induction ds generalizing r with
  | nil => exact .refl r
  | cons d ds ih =>
    obtain ⟨hd, hds⟩ := not_or.1 h
    exact (upholds_register hd).trans (ih hds)

theorem upholds_setEnabled (r : Registry) (i : EntryId) : Upholds r (r.setEnabled i true) := by
  refine ⟨r.extends_setEnabled i true, fun name hn => ?_, fun id e he hc => ?_⟩
  · obtain ⟨id, hl⟩ := Option.isSome_iff_exists.1 hn
    obtain ⟨hg, hon⟩ := lookup?_eq_some_iff.1 hl
    refine Option.isSome_iff_exists.2 ⟨id, lookup?_eq_some_iff.2 ⟨hg, ?_⟩⟩
    rw [isEnabled, byId?_setEnabled]
    split
    · obtain ⟨e, he, -⟩ := exists_entry_of_get? hg
      simp [he]
    · exact hon
  · obtain ⟨e', he', hg⟩ := isCurrent_eq_true_iff.1 hc
    obtain ⟨b, hb⟩ := (r.extends_setEnabled i true).entries id e he
    obtain rfl := Option.some.inj (hb.symm.trans he')
    exact isCurrent_eq_true_iff.2 ⟨e, he, hg⟩

/-- An entry that is stored and starts switched on is what its name stands for. -/
theorem lookup?_register {r : Registry} {d : Declaration} (hv : (r.verdict d).stores = true)
    (he : (d.entry r.options).enabled = true) :
    (r.register d).lookup? d.name = some r.entries.size := by
  have hstore : (r.store (d.entry r.options)).lookup? d.name = some r.entries.size := by
    rw [lookup?_store, if_pos (show (d.entry r.options).name = d.name from rfl), if_pos he]
  unfold register
  cases h : r.verdict d with
  | added => exact hstore
  | replaced existing => exact hstore
  | filtered => simp [h, Verdict.stores] at hv
  | rejected error => simp [h, Verdict.stores] at hv

end Registry

/-- The action may take the last name away by which a node is resolved: it switches an entry off, or one of its
registrations puts an entry that is switched off in the place of another. -/
def Action.MaySilence {Node : Type} (r : Registry) (a : Action Node) : Prop :=
  (∃ id, a = .setEnabled id false) ∨ r.SilencesAmong a.declarations

/-! ## Names that were tried -/

variable {Node Decl Key : Type}

/-- One of the steps gives some node that name. -/
def Renders (steps : List (Step Node)) (name : String) : Prop :=
  ∃ m p found, .rendered m p name found ∈ steps

theorem renders_append {as bs : List (Step Node)} {name : String} :
    Renders (as ++ bs) name ↔ Renders as name ∨ Renders bs name := by
  simp only [Renders, List.mem_append, exists_or]

theorem not_renders_steps (r : Recall) (n : Node) (name : String) : ¬ Renders (r.steps n) name := by
  rintro ⟨m, p, found, h⟩
  cases r <;> simp [Recall.steps] at h

namespace Outlook

variable {lang : Language Node Decl Key} {o o' : Outlook Key} {n : Node} {name : String}

theorem spells_of_renders_search {ps : List Presentation}
    (h : Renders (o.search lang n ps).1 name) : ∃ p ∈ ps, lang.render n p = name := by
  induction ps with
  | nil =>
    obtain ⟨_, _, _, h⟩ := h
    cases h
  | cons p ps ih =>
    simp only [search] at h
    obtain ⟨m, q, found, h⟩ := h
    split at h
    · simp only [List.mem_singleton, Step.rendered.injEq] at h
      exact ⟨p, List.mem_cons_self, h.2.2.1.symm⟩
    · rcases List.mem_cons.1 h with h | h
      · simp only [Step.rendered.injEq] at h
        exact ⟨p, List.mem_cons_self, h.2.2.1.symm⟩
      · obtain ⟨q, hq, hn⟩ := ih ⟨_, _, _, h⟩
        exact ⟨q, List.mem_cons_of_mem p hq, hn⟩

theorem search_of_spells (hs : lang.Spells n name) (hl : (o.lookup? name).isSome) :
    ∃ id, (o.search lang n Presentation.searchOrder).2 = some id := by
  obtain ⟨p, hp, rfl⟩ := hs
  rw [← Option.isSome_iff_exists, search_snd, List.findSome?_isSome_iff]
  exact ⟨p, hp, hl⟩

/-! ## Walks under an outlook that eases -/

variable [DecidableEq Key] {st : Stage} {start : Node} {w : Walk Node}

/-- Past its memo, a grounded node is resolved if it is so past its class, for the class comes before. -/
theorem exists_walks_of_classless (hn : lang.Grounded n)
    (h : ∃ w, o.Walks lang .classless start n w ∧ w.answer ≠ none) :
    ∃ w, o.Walks lang .unsettled start n w ∧ w.answer ≠ none := by
  obtain ⟨w, hw, ha⟩ := h
  cases hc : lang.classTag? n with
  | none => exact ⟨w, .classless hc hw, ha⟩
  | some m =>
    obtain ⟨c, hm⟩ := exists_walks (o := o) (hn.classTag hc) m
    by_cases hca : c.answer = none
    · exact ⟨_, .classFailed hc hm hca hw, ha⟩
    · exact ⟨c, .ofClass hc hm hca, hca⟩

/-- Where a walk under `o` comes to an answer, one under `o'` does: the enabled names are still enabled, no memo
bars a node that it did not bar, and where it led to an entry the node has an enabled name. -/
structure Eases (lang : Language Node Decl Key) (o o' : Outlook Key) : Prop where
  names : ∀ name, (o.lookup? name).isSome → (o'.lookup? name).isSome
  barred : ∀ k id, o'.consult k = .barred id → ∃ id', o.consult k = .barred id'
  ready : ∀ n id, o.consult (lang.key n) = .ready id →
    ∃ name, lang.Nameable n name ∧ (o'.lookup? name).isSome

/-- A node that the memo does not bar is resolved if it is so past its memo. -/
theorem Eases.exists_walks_of_unsettled (he : o.Eases lang o')
    (hr : ∀ id, o.consult (lang.key n) ≠ .barred id)
    (h : ∃ w, o'.Walks lang .unsettled start n w ∧ w.answer ≠ none) :
    ∃ w, o'.Walks lang .untried start n w ∧ w.answer ≠ none := by
  obtain ⟨w, hw, ha⟩ := h
  cases hr' : o'.consult (lang.key n) with
  | ready id => exact ⟨_, .ready hr', by simp⟩
  | barred id =>
    obtain ⟨id', h⟩ := he.barred _ id hr'
    exact absurd h (hr id')
  | absent | superseded id => exact ⟨_, .unsettled (by rw [hr']; rfl) hw, ha⟩

/-- Under an outlook that eases, a walk has an answer if it had one before, or if it tried a name that is enabled
now. The second walk may leave the first one at a class, at a name or at the memo, each time for an answer. -/
theorem Eases.exists_walks (he : o.Eases lang o') (h : o.Walks lang st start n w) (hn : lang.Grounded n)
    (hw : w.answer ≠ none ∨ ∃ name, Renders w.trail name ∧ (o'.lookup? name).isSome) :
    ∃ w', o'.Walks lang st start n w' ∧ w'.answer ≠ none := by
  -- a name of the node that is enabled now settles it, if there is no template
  have hspelled : ∀ {start n : Node}, lang.templateTag? n = none → (∃ name, lang.Spells n name ∧
      (o'.lookup? name).isSome) → ∃ w', o'.Walks lang .classless start n w' ∧ w'.answer ≠ none := by
    rintro start n ht ⟨name, hs, hl⟩
    obtain ⟨id, hf⟩ := search_of_spells hs hl
    exact ⟨_, .spelled ht hf, by simp⟩
  induction h with
  | ready hr =>
    obtain ⟨name, ⟨hs, ht⟩, hl⟩ := he.ready _ _ hr
    exact he.exists_walks_of_unsettled (by simp [hr])
      (exists_walks_of_classless hn (hspelled ht ⟨name, hs, hl⟩))
  | barred _ =>
    rcases hw with ha | ⟨name, ⟨m, p, found, h⟩, -⟩
    · exact absurd rfl ha
    · simp at h
  | @unsettled _ n _ hr _ ih =>
    have hbar : ∀ id, o.consult (lang.key n) ≠ .barred id := fun id h => by simp [h, Recall.isOpen] at hr
    refine he.exists_walks_of_unsettled hbar (ih hn ?_)
    simpa only [Walk.answer_after, Walk.trail_after, renders_append, not_renders_steps, false_or] using hw
  | classless hc _ ih =>
    obtain ⟨w', hw', ha⟩ := ih hn hw
    exact ⟨w', .classless hc hw', ha⟩
  | ofClass hc _ _ ih =>
    obtain ⟨w', hw', ha⟩ := ih (hn.classTag hc) hw
    exact ⟨w', .ofClass hc hw' ha, ha⟩
  | @classFailed _ _ _ c w hc _ _ _ ihc ih =>
    simp only [Walk.answer_after, Walk.trail_after, renders_append] at hw
    have hsplit : (w.answer ≠ none ∨ ∃ name, Renders w.trail name ∧ (o'.lookup? name).isSome) ∨
        ∃ name, Renders c.trail name ∧ (o'.lookup? name).isSome := by
      rcases hw with ha | ⟨name, hc | hw, hl⟩
      · exact .inl (.inl ha)
      · exact .inr ⟨name, hc, hl⟩
      · exact .inl (.inr ⟨name, hw, hl⟩)
    rcases hsplit with hw | hc'
    · exact exists_walks_of_classless hn (ih hn hw)
    · obtain ⟨w', hw', ha⟩ := ihc (hn.classTag hc) (.inr hc')
      exact ⟨w', .ofClass hc hw' ha, ha⟩
  | @ofTemplate _ n _ w ht _ ih =>
    have hw' : w.answer ≠ none ∨ ∃ name, Renders w.trail name ∧ (o'.lookup? name).isSome := by
      cases ha : w.answer with
      | some a => exact .inl (by simp)
      | none => simpa only [Walk.rebind, ha] using hw
    obtain ⟨v, hv, ha⟩ := ih (hn.templateTag ht) hw'
    exact ⟨_, .ofTemplate ht hv, by simpa using ha⟩
  | spelled ht hf =>
    obtain ⟨name, hs, hl⟩ := spells_of_search hf
    exact hspelled ht ⟨name, hs, he.names name (by simp [hl])⟩
  | @unwrapped start n m layer w ht _ hu _ ih =>
    cases hf : (o'.search lang n Presentation.searchOrder).2 with
    | some id => exact ⟨_, .spelled ht hf, by simp⟩
    | none =>
      simp only [Walk.answer_after, Walk.trail_after, renders_append] at hw
      have hw' : w.answer ≠ none ∨ ∃ name, Renders w.trail name ∧ (o'.lookup? name).isSome := by
        rcases hw with ha | ⟨name, (hs | ⟨_, _, _, h⟩) | hw, hl⟩
        · exact .inl ha
        · obtain ⟨id, hid⟩ := search_of_spells (spells_of_renders_search hs) hl
          rw [hf] at hid
          cases hid
        · simp at h
        · exact .inr ⟨name, hw, hl⟩
      obtain ⟨v, hv, ha⟩ := ih (hn.unwrap hu) hw'
      exact ⟨_, .unwrapped ht hf hu hv, ha⟩
  | unmatched ht _ _ =>
    simp only [renders_append] at hw
    rcases hw with ha | ⟨name, hs | ⟨_, _, _, h⟩, hl⟩
    · exact absurd rfl ha
    · exact hspelled ht ⟨name, spells_of_renders_search hs, hl⟩
    · simp at h

end Outlook

namespace Session

variable [DecidableEq Key] {lang : Language Node Decl Key} {s s' : Session Node Key} {n : Node}

/-! ## Actions that ease -/

/-- The resolution of the node ends with an answer. -/
def Resolves (lang : Language Node Decl Key) (s : Session Node Key) (n : Node) : Prop :=
  ∃ r, s.resolve? lang n = some r ∧ r.answer ≠ none

theorem resolves_iff : s.Resolves lang n ↔
    ∃ w, s.outlook.Walks lang .untried n n w ∧ w.answer ≠ none := by
  constructor
  · rintro ⟨r, hr, ha⟩
    obtain ⟨w, hw, rfl⟩ := resolve?_eq_some_iff.1 hr
    exact ⟨w, hw, ha⟩
  · rintro ⟨w, hw, ha⟩
    exact ⟨_, resolve?_of_walks hw, ha⟩

/-- A session eases the walks of another one if it upholds its names, and if its memo has no slot but those of the
other one and such as lead to an entry that is switched on. -/
theorem Sound.eases (hx : lang.Interchangeable) (hs : s.Sound lang)
    (hr : s.registry.Upholds s'.registry)
    (hm : ∀ k id, s'.memo.get? k = some id →
      s.memo.get? k = some id ∨ ∃ name, s'.registry.lookup? name = some id) :
    s.outlook.Eases lang s'.outlook where
  names := hr.names
  barred k id h := by
    obtain ⟨hk, hoff, e', he', hg'⟩ := consult_eq_barred h
    rcases hm k id hk with hk | ⟨name, hl⟩
    · obtain ⟨n, e, -, he, -⟩ := hs.slots k id hk
      have hcur := hr.retired id e he (Registry.isCurrent_eq_true_iff.2 ⟨e', he', hg'⟩)
      have hconsult := consult_of_isCurrent hk hcur
      split at hconsult
      · next hon =>
        -- its name was enabled, so it still is, and stands for this entry
        obtain ⟨b, hb⟩ := hr.entries id e he
        obtain rfl := Option.some.inj (hb.symm.trans he')
        obtain ⟨e'', he'', hg⟩ := Registry.isCurrent_eq_true_iff.1 hcur
        obtain rfl := Option.some.inj (he.symm.trans he'')
        have hname := hr.names e.name (by simp [Registry.lookup?_eq_some_iff.2 ⟨hg, hon⟩])
        obtain ⟨i, hi⟩ := Option.isSome_iff_exists.1 hname
        obtain ⟨hgi, hon'⟩ := Registry.lookup?_eq_some_iff.1 hi
        obtain rfl := Option.some.inj (hg'.symm.trans hgi)
        rw [hoff] at hon'
        cases hon'
      · exact ⟨id, hconsult⟩
    · rw [(Registry.lookup?_eq_some_iff.1 hl).2] at hoff
      cases hoff
  ready n id h := by
    obtain ⟨hk, e, he, hl⟩ := consult_eq_ready h
    exact ⟨e.name, hs.nameable hx hk he, hr.names _ (by simp [hl])⟩

theorem Sound.eases_perform (hx : lang.Interchangeable) (hs : s.Sound lang) {a : Action Node}
    (ha : s.perform lang a = some s') (hq : ¬ a.MaySilence s.registry) :
    s.outlook.Eases lang s'.outlook := by
  obtain ⟨hoff, hds⟩ := not_or.1 hq
  cases a with
  | register d =>
    obtain rfl := Option.some.inj ha
    exact hs.eases hx (Registry.upholds_foldl_register hds) fun _ _ => .inl
  | discover ps =>
    obtain rfl := Option.some.inj ha
    refine hs.eases hx ?_ fun _ _ => .inl
    simp only [discover, Registry.registry_discover]
    exact Registry.upholds_foldl_register hds
  | setEnabled id b =>
    obtain rfl := Option.some.inj ha
    cases b with
    | true => exact hs.eases hx (s.registry.upholds_setEnabled id) fun _ _ => .inl
    | false => exact absurd ⟨id, rfl⟩ hoff
  | forget =>
    obtain rfl := Option.some.inj ha
    exact hs.eases hx (.refl _) fun k id h => by cases h
  | resolve m =>
    obtain ⟨r, hr, rfl⟩ := Option.map_eq_some_iff.1 ha
    obtain ⟨w, hw, rfl⟩ := resolve?_eq_some_iff.1 hr
    refine hs.eases hx (by rw [registry_conclude]; exact .refl _) fun k id hk => ?_
    rcases mem_stores_or_get? hk with ⟨v, hv, -⟩ | hk
    · obtain ⟨⟨name, hl, -⟩, -⟩ := lookup?_and_nameable_of_mem_stores hw hv
      exact .inr ⟨name, by rw [registry_conclude]; exact hl⟩
    · exact .inl hk

/-! ## Main statements -/

/-- **Nodes stay resolvable.** After every run, what can be resolved can still be resolved after one more action,
be it a resolution, a registration, a discovery, a switch or the loss of the memo, unless the action switches an
entry off or puts an entry that starts switched off in the place of another. -/
theorem resolves_perform (hx : lang.Interchangeable) {registry : Registry} {as : List (Action Node)}
    (hs : (Session.new registry).run lang as = some s) (hn : lang.Grounded n) (h : s.Resolves lang n)
    {a : Action Node} (ha : s.perform lang a = some s') :
    s'.Resolves lang n ∨ a.MaySilence s.registry := by
  by_cases hq : a.MaySilence s.registry
  · exact .inr hq
  · obtain ⟨w, hw, hans⟩ := resolves_iff.1 h
    have heases := (sound_run hx hs).eases_perform hx ha hq
    exact .inl (resolves_iff.2 (heases.exists_walks hw hn (.inl hans)))

/-- A pointer is still resolved by the name of its pointee when the entry in the memo gives way to another one. -/
theorem resolves_perform_past_replacement :
    ∃ s s', (Session.new (.new {})).run TypeTerm.plain [.register { name := "V", origin := "a" },
        .resolve (.named "V")] = some s ∧
      s.perform TypeTerm.plain (.register { name := "V", origin := "b" }) = some s' ∧
      s'.consult (.named "V") = .superseded 0 ∧
      s.Resolves TypeTerm.plain (.pointer (.named "V")) ∧
      s'.Resolves TypeTerm.plain (.pointer (.named "V")) := by
  let s := (sample.conclude TypeTerm.plain .sample).session
  have hs : (Session.new (.new {})).run TypeTerm.plain [.register { name := "V", origin := "a" },
      .resolve (.named "V")] = some s := run_resolve (walks_sample _) _
  have h : s.Resolves TypeTerm.plain (.pointer (.named "V")) :=
    resolves_iff.2 ⟨_, .unsettled (by rfl) (.classless rfl (.unwrapped rfl (by rfl) (by rfl) (.ready rfl))),
      by simp⟩
  have hq : ¬ (Action.register { name := "V", origin := "b" } : Action TypeTerm).MaySilence s.registry := by
    rintro (⟨_, h⟩ | ⟨-, h⟩ | h)
    · cases h
    · cases h
    · exact h
  exact ⟨s, _, hs, rfl, rfl, h, (resolves_perform (TypeTerm.interchangeable _) hs
    (TypeTerm.grounded _) h rfl).resolve_right hq⟩

/-- **Failures are not kept.** After every run, if the resolution of a node fails, and some name that it tried for
the node or for any other one is registered next, with an entry that is stored and starts switched on, then the
node can be resolved. -/
theorem resolves_register (hx : lang.Interchangeable) {registry : Registry} {as : List (Action Node)}
    (hs : (Session.new registry).run lang as = some s) (hn : lang.Grounded n) {r : Resolution Node Key}
    (hr : s.resolve? lang n = some r) (ha : r.answer = none) {d : Declaration}
    (hd : Renders r.trail d.name) (hv : (r.session.registry.verdict d).stores = true)
    (he : (d.entry r.session.registry.options).enabled = true) :
    (r.session.register d).Resolves lang n := by
  obtain ⟨w, hw, rfl⟩ := resolve?_eq_some_iff.1 hr
  have hsound : (s.conclude lang w).session.Sound lang := (sound_run hx hs).conclude hx hw
  have hq : ¬ (Action.register d : Action Node).MaySilence (s.conclude lang w).session.registry := by
    rintro (⟨_, h⟩ | ⟨-, hoff⟩ | h)
    · cases h
    · rw [he] at hoff
      cases hoff
    · exact h
  have hperform : (s.conclude lang w).session.perform lang (.register d) =
      some ((s.conclude lang w).session.register d) := rfl
  have heases := hsound.eases_perform hx hperform hq
  -- the walk that failed wrote nothing into the memo, so the session after it reads the same
  rw [outlook_conclude (stores_eq_nil hw ha)] at heases
  refine resolves_iff.2 (heases.exists_walks hw hn (.inr ⟨d.name, hd, ?_⟩))
  exact Option.isSome_iff_exists.2 ⟨_, Registry.lookup?_register hv he⟩

/-- A pointer to a specialization whose class is barred from the memo is resolved once the specialization has a name. -/
theorem resolves_register_past_barred :
    ∃ s r, (Session.new (.new {})).run TypeTerm.plain [.register { name := "V", origin := "a" },
        .resolve (.named "V"), .setEnabled 0 false] = some s ∧
      s.resolve? TypeTerm.plain (.pointer (.specialization "X" [] (some "V") none)) = some r ∧
      r.answer = none ∧ s.consult (.named "V") = .barred 0 ∧ Renders r.trail "X<>" ∧
      (r.session.register { name := "X<>", origin := "b" }).Resolves TypeTerm.plain
        (.pointer (.specialization "X" [] (some "V") none)) := by
  let u : TypeTerm := .specialization "X" [] (some "V") none
  let s := (sample.conclude TypeTerm.plain .sample).session.setEnabled 0 false
  have hs : (Session.new (.new {})).run TypeTerm.plain [.register { name := "V", origin := "a" },
      .resolve (.named "V"), .setEnabled 0 false] = some s := run_resolve (walks_sample _) _
  have h : ∃ w, s.outlook.Walks TypeTerm.plain .untried (.pointer u) (.pointer u) w ∧
      w.answer = none ∧ Renders w.trail "X<>" :=
    ⟨_, .unsettled (by rfl) (.classless rfl (.unwrapped rfl (by rfl) (by rfl) (.unsettled (by rfl)
      (.classFailed (by rfl) (.barred rfl) rfl (.unmatched rfl (by rfl) (by rfl)))))), rfl,
      u, {}, false, @List.mem_of_getElem? _ _ 18 _ rfl⟩
  obtain ⟨w, hw, ha, hren⟩ := h
  have hr := resolve?_of_walks hw
  exact ⟨s, _, hs, hr, ha, rfl, hren, resolves_register (TypeTerm.interchangeable _) hs
    (TypeTerm.grounded _) hr ha hren (by rw [registry_conclude]; rfl) (by rw [registry_conclude]; rfl)⟩

end Session

end TypeMapping
