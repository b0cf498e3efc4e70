import Mathlib.Data.List.Nodup
import TypeMapping.Options.Load

/-!
# Documents that denote options

Which documents are read as options, and as which?

* `Toml.Value.Writes`          : values that write a variant, `Toml.Value.Lists` those that list texts;
* `Toml.Table.Distinct`        : no two keys are the same;
* `Toml.Table.Sets`            : what a table says about a field, or else its default;
* `Toml.Table.Denotes`         : the options that a table denotes, `Toml.Table.WellFormed` the tables that denote any;
* `Options.Assigns`            : what one entry does to the options;
* `lowercase`, `snakeCase`     : how the names of variants come from their identifiers.

Main statements: `setField_eq_ok_iff` and `foldlM_setField_eq_ok_iff`, what one entry does and what all do; `distinct_parse?`,
no key of a document is there twice; `ofTable_denotes`, documents are accepted exactly when they are well formed.
-/

namespace TypeMapping

namespace Toml

/-! ## What values write -/

/-- There is nothing in the list or the table. -/
inductive Value.IsEmpty : Value → Prop
  | array (byHeaders : Bool) : Value.IsEmpty (.array byHeaders [])
  | table (style : Style) : Value.IsEmpty (.table style [])

/-- The value writes the variant of that name: as a text, or as a table with the name as its only key and nothing behind
it. -/
inductive Value.Writes (name : String) : Value → Prop
  | text : Value.Writes name (.string name)
  | keyed {style : Style} {k : Key} {p : Position} {v : Value} (hk : k.text = name) (hv : v.IsEmpty) :
      Value.Writes name (.table style [(k, p, v)])

/-- The value is a list of these texts and of nothing else. -/
def Value.Lists (texts : List String) (v : Value) : Prop :=
  ∃ byHeaders items, v = .array byHeaders items ∧ items.map Prod.snd = texts.map .string

namespace Table

/-! ## What tables say -/

/-- No two keys of the table are the same. -/
def Distinct (t : Table) : Prop := (t.map (·.1.text)).Nodup

/-- The values of the field are as `P` wants them; if there is none, `absent` holds. -/
def Sets (t : Table) (field : String) (P : Value → Prop) (absent : Prop) : Prop :=
  (∀ e ∈ t, e.1.text = field → P e.2.2) ∧ ((∀ e ∈ t, e.1.text ≠ field) → absent)

/-- The table denotes the options `o` where the fields that it does not set are as in `o₀`. -/
structure Denotes (t : Table) (o₀ o : Options) : Prop where
  known : ∀ e ∈ t, e.1.text ∈ Options.fieldNames
  target : t.Sets "generator" (Value.Writes o.target.name) (o.target = o₀.target)
  disabled : t.Sets "disabled_type_maps" (Value.Lists o.disabled) (o.disabled = o₀.disabled)
  policy : t.Sets "duplicate_policy" (Value.Writes o.policy.name) (o.policy = o₀.policy)

/-- All keys are fields, and all values write what the fields are for. -/
structure WellFormed (t : Table) : Prop where
  known : ∀ e ∈ t, e.1.text ∈ Options.fieldNames
  target : ∀ e ∈ t, e.1.text = "generator" → ∃ a : Target, e.2.2.Writes a.name
  disabled : ∀ e ∈ t, e.1.text = "disabled_type_maps" →
    ∃ byHeaders items, e.2.2 = .array byHeaders items ∧ ∀ i ∈ items, ∃ s, i.2 = .string s
  policy : ∀ e ∈ t, e.1.text = "duplicate_policy" → ∃ a : DuplicatePolicy, e.2.2.Writes a.name

variable {t : Table} {k : Key} {p : Position} {v : Value} {field : String} {P : Value → Prop} {absent : Prop}

theorem sets_cons_of_ne (h : k.text ≠ field) : Sets ((k, p, v) :: t) field P absent ↔ t.Sets field P absent := by
  simp [Sets, h]

theorem sets_of_not_mem (h : field ∉ t.map (·.1.text)) : t.Sets field P absent ↔ absent := by
  have hne : ∀ e ∈ t, e.1.text ≠ field := fun e he hf => h (List.mem_map.2 ⟨e, he, hf⟩)
  exact ⟨fun hs => hs.2 hne, fun ha => ⟨fun e he hf => absurd hf (hne e he), fun _ => ha⟩⟩

theorem sets_cons_of_eq (h : k.text = field) (hk : k.text ∉ t.map (·.1.text)) :
    Sets ((k, p, v) :: t) field P absent ↔ P v := by
  subst h
  have hne : ∀ e ∈ t, e.1.text ≠ k.text := fun e he hf => hk (List.mem_map.2 ⟨e, he, hf⟩)
  constructor
  · exact fun hs => hs.1 _ List.mem_cons_self rfl
  · refine fun hp => ⟨fun e he hf => ?_, fun hno => absurd rfl (hno _ List.mem_cons_self)⟩
    rcases List.mem_cons.1 he with rfl | he
    · exact hp
    · exact absurd hf (hne e he)

/-- A field has one value at most, so it can be set. -/
theorem exists_sets {α : Type} (hd : t.Distinct) {P : α → Value → Prop}
    (h : ∀ e ∈ t, e.1.text = field → ∃ a, P a e.2.2) (default : α) : ∃ a, t.Sets field (P a) (a = default) := by
  by_cases hex : ∃ e ∈ t, e.1.text = field
  · obtain ⟨e, he, hf⟩ := hex
    obtain ⟨a, ha⟩ := h e he hf
    refine ⟨a, fun e' he' hf' => ?_, fun hno => absurd hf (hno e he)⟩
    obtain rfl := List.inj_on_of_nodup_map hd he' he (hf'.trans hf.symm)
    exact ha
  · exact ⟨default, fun e he hf => absurd ⟨e, he, hf⟩ hex, fun _ => rfl⟩

theorem exists_lists_iff : (∃ texts, Value.Lists texts v) ↔
    ∃ byHeaders items, v = .array byHeaders items ∧ ∀ i ∈ items, ∃ s, i.2 = .string s := by
  constructor
  · rintro ⟨texts, b, items, rfl, hi⟩
    refine ⟨b, items, rfl, fun i hi' => ?_⟩
    have hmem : i.2 ∈ items.map Prod.snd := List.mem_map_of_mem hi'
    rw [hi] at hmem
    obtain ⟨s, -, hs⟩ := List.mem_map.1 hmem
    exact ⟨s, hs.symm⟩
  · rintro ⟨b, items, rfl, hi⟩
    suffices h : ∃ texts : List String, items.map Prod.snd = texts.map .string by
      obtain ⟨texts, h⟩ := h
      exact ⟨texts, b, items, rfl, h⟩
    induction items with
    | nil => exact ⟨[], rfl⟩
    | cons i items ih =>
      obtain ⟨s, hs⟩ := hi i List.mem_cons_self
      obtain ⟨texts, h⟩ := ih fun j hj => hi j (List.mem_cons_of_mem i hj)
      exact ⟨s :: texts, by rw [List.map_cons, List.map_cons, hs, h]⟩

/-- The tables that denote options are the well formed ones. -/
theorem exists_denotes_iff (hd : t.Distinct) (o₀ : Options) : (∃ o, t.Denotes o₀ o) ↔ t.WellFormed := by
  constructor
  · rintro ⟨o, h⟩
    exact ⟨h.known, fun e he hf => ⟨_, h.target.1 e he hf⟩,
      fun e he hf => exists_lists_iff.1 ⟨_, h.disabled.1 e he hf⟩, fun e he hf => ⟨_, h.policy.1 e he hf⟩⟩
  · intro h
    obtain ⟨target, ht⟩ := exists_sets hd (P := fun a : Target => Value.Writes a.name) h.target o₀.target
    obtain ⟨policy, hp⟩ := exists_sets hd (P := fun a : DuplicatePolicy => Value.Writes a.name) h.policy o₀.policy
    obtain ⟨disabled, hs⟩ := exists_sets hd (P := Value.Lists)
      (fun e he hf => exists_lists_iff.2 (h.disabled e he hf)) o₀.disabled
    exact ⟨⟨target, disabled, policy⟩, h.known, ht, hs, hp⟩

theorem distinct_sorted : t.sorted.Distinct ↔ t.Distinct :=
  ((List.mergeSort_perm t _).map _).nodup_iff

theorem denotes_sorted {o₀ o : Options} : t.sorted.Denotes o₀ o ↔ t.Denotes o₀ o := by
  have hsets : ∀ {field P absent}, t.sorted.Sets field P absent ↔ t.Sets field P absent := by
    simp [Sets, sorted, List.mem_mergeSort]
  have hknown : (∀ e ∈ t.sorted, e.1.text ∈ Options.fieldNames) ↔ ∀ e ∈ t, e.1.text ∈ Options.fieldNames := by
    simp [sorted, List.mem_mergeSort]
  exact ⟨fun h => ⟨hknown.1 h.known, hsets.1 h.target, hsets.1 h.disabled, hsets.1 h.policy⟩,
    fun h => ⟨hknown.2 h.known, hsets.2 h.target, hsets.2 h.disabled, hsets.2 h.policy⟩⟩

end Table

end Toml

/-! ## Reading one entry -/

namespace Options

open Toml

variable {o o' : Options} {k : Key} {p : Position} {v : Value}

theorem targetNamed_eq_ok_iff {s : String} {a : Target} : targetNamed s = .ok a ↔ s = a.name := by
  rw [← Target.ofName?_eq_some_iff, targetNamed, variant, Target.ofName?]
  cases Target.all.find? fun a => a.name == s <;> simp

theorem policyNamed_eq_ok_iff {s : String} {a : DuplicatePolicy} : policyNamed s = .ok a ↔ s = a.name := by
  rw [← DuplicatePolicy.ofName?_eq_some_iff, policyNamed, variant, DuplicatePolicy.ofName?]
  cases DuplicatePolicy.all.find? fun a => a.name == s <;> simp

theorem payloadFault?_eq_none_iff : payloadFault? v = none ↔ v.IsEmpty := by
  constructor
  · intro h
    unfold payloadFault? at h
    split at h
    · exact .array _
    · exact .table _
    all_goals cases h
  · rintro (_ | _) <;> rfl

theorem mapError_eq_ok_iff {ε ε' α : Type} {f : ε → ε'} {x : Except ε α} {a : α} :
    x.mapError f = .ok a ↔ x = .ok a := by
  cases x <;> simp [Except.mapError]

theorem bind_eq_ok_iff {ε α β : Type} {x : Except ε α} {f : α → Except ε β} {b : β} :
    (x >>= f) = .ok b ↔ ∃ a, x = .ok a ∧ f a = .ok b := by
  cases x <;> simp [bind, Except.bind]

/-- A variant is read from the values that write its name. -/
theorem variantOf_eq_ok_iff {α : Type} {named : String → Except Fault α} {nameOf : α → String}
    (hn : ∀ {s a}, named s = .ok a ↔ s = nameOf a) {a : α} : variantOf named p v = .ok a ↔ v.Writes (nameOf a) := by
  constructor
  · intro h
    unfold variantOf at h
    split at h
    · rw [mapError_eq_ok_iff, hn] at h
      exact h ▸ .text
    · cases h
    · next style k q v =>
      obtain ⟨b, hb, h⟩ := bind_eq_ok_iff.1 h
      rw [mapError_eq_ok_iff, hn] at hb
      split at h
      · next he =>
        obtain rfl := Except.ok.inj h
        exact .keyed hb (payloadFault?_eq_none_iff.1 he)
      · cases h
    · cases h
    · cases h
  · rintro (_ | @⟨style, k, q, v, hk, hv⟩)
    · rw [variantOf, mapError_eq_ok_iff, hn]
    · rw [variantOf, bind_eq_ok_iff]
      exact ⟨a, mapError_eq_ok_iff.2 (hn.2 hk), by rw [payloadFault?_eq_none_iff.2 hv]⟩

theorem stringOf_eq_ok_iff {s : String} : stringOf p v = .ok s ↔ v = .string s := by
  unfold stringOf
  split <;> simp_all

/-- A list of texts is read from the values that list them. -/
theorem stringsOf_eq_ok_iff {ss : List String} : stringsOf p v = .ok ss ↔ v.Lists ss := by
  have hitems : ∀ (items : List (Position × Value)) (ss : List String),
      items.mapM (fun i => stringOf i.1 i.2) = .ok ss ↔ items.map Prod.snd = ss.map .string := by
    intro items
    induction items with
    | nil => intro ss; cases ss <;> simp [pure, Except.pure]
    | cons i items ih =>
      intro ss
      rw [List.mapM_cons, bind_eq_ok_iff]
      simp only [bind_eq_ok_iff, stringOf_eq_ok_iff, ih, pure, Except.pure, Except.ok.injEq]
      constructor
      · rintro ⟨s, hs, ss, hss, rfl⟩
        rw [List.map_cons, List.map_cons, hs, hss]
      · intro h
        cases ss with
        | nil => cases h
        | cons s ss =>
          obtain ⟨hs, hss⟩ := List.cons.inj h
          exact ⟨s, hs, ss, hss, rfl⟩
  constructor
  · intro h
    unfold stringsOf at h
    split at h
    · next b items => exact ⟨b, items, rfl, (hitems items ss).1 h⟩
    · cases h
  · rintro ⟨b, items, rfl, h⟩
    exact (hitems items ss).2 h

/-- An entry sets the field that its key names. -/
inductive Assigns (k : Key) (v : Value) (o : Options) : Options → Prop
  | target {a : Target} (hk : k.text = "generator") (hv : v.Writes a.name) : Assigns k v o { o with target := a }
  | disabled {texts : List String} (hk : k.text = "disabled_type_maps") (hv : v.Lists texts) :
      Assigns k v o { o with disabled := texts }
  | policy {a : DuplicatePolicy} (hk : k.text = "duplicate_policy") (hv : v.Writes a.name) :
      Assigns k v o { o with policy := a }

theorem setField_eq_ok_iff : o.setField k p v = .ok o' ↔ o.Assigns k v o' := by
  constructor
  · intro h
    unfold setField at h
    split at h
    · next hk =>
      obtain ⟨a, ha, h⟩ := bind_eq_ok_iff.1 h
      exact Except.ok.inj h ▸ .target hk ((variantOf_eq_ok_iff targetNamed_eq_ok_iff).1 ha)
    · next hk =>
      obtain ⟨texts, ht, h⟩ := bind_eq_ok_iff.1 h
      exact Except.ok.inj h ▸ .disabled hk (stringsOf_eq_ok_iff.1 ht)
    · next hk =>
      obtain ⟨a, ha, h⟩ := bind_eq_ok_iff.1 h
      exact Except.ok.inj h ▸ .policy hk ((variantOf_eq_ok_iff policyNamed_eq_ok_iff).1 ha)
    · cases h
  · rintro (⟨hk, hv⟩ | ⟨hk, hv⟩ | ⟨hk, hv⟩) <;> rw [setField, hk]
    · exact bind_eq_ok_iff.2 ⟨_, (variantOf_eq_ok_iff targetNamed_eq_ok_iff).2 hv, rfl⟩
    · exact bind_eq_ok_iff.2 ⟨_, stringsOf_eq_ok_iff.2 hv, rfl⟩
    · exact bind_eq_ok_iff.2 ⟨_, (variantOf_eq_ok_iff policyNamed_eq_ok_iff).2 hv, rfl⟩

/-! ## Reading a document -/

theorem denotes_nil_iff : Table.Denotes [] o o' ↔ o = o' := by
  have hnil : ∀ {field P absent}, Table.Sets [] field P absent ↔ absent := Table.sets_of_not_mem (by simp)
  constructor
  · rintro ⟨-, ht, hs, hp⟩
    cases o
    cases o'
    simp_all
  · rintro rfl
    exact ⟨by simp, hnil.2 rfl, hnil.2 rfl, hnil.2 rfl⟩

/-- The first entry sets its field, and the others have no say in that field. -/
theorem denotes_cons_iff {t : Table} (hk : k.text ∉ t.map (·.1.text)) :
    Table.Denotes ((k, p, v) :: t) o o' ↔ ∃ o₁, o.Assigns k v o₁ ∧ t.Denotes o₁ o' := by
  have hout : ∀ {field P absent}, k.text = field → (Table.Sets t field P absent ↔ absent) := fun hf =>
    Table.sets_of_not_mem (hf ▸ hk)
  constructor
  · rintro ⟨hknown, ht, hs, hp⟩
    obtain ⟨hfield, hknown⟩ := List.forall_mem_cons.1 hknown
    replace hfield : k.text = "generator" ∨ k.text = "disabled_type_maps" ∨ k.text = "duplicate_policy" := by
      simpa [fieldNames] using hfield
    rcases hfield with hf | hf | hf
    · exact ⟨_, .target hf ((Table.sets_cons_of_eq hf hk).1 ht), hknown, (hout hf).2 rfl,
        (Table.sets_cons_of_ne (by simp [hf])).1 hs, (Table.sets_cons_of_ne (by simp [hf])).1 hp⟩
    · exact ⟨_, .disabled hf ((Table.sets_cons_of_eq hf hk).1 hs), hknown,
        (Table.sets_cons_of_ne (by simp [hf])).1 ht, (hout hf).2 rfl, (Table.sets_cons_of_ne (by simp [hf])).1 hp⟩
    · exact ⟨_, .policy hf ((Table.sets_cons_of_eq hf hk).1 hp), hknown,
        (Table.sets_cons_of_ne (by simp [hf])).1 ht, (Table.sets_cons_of_ne (by simp [hf])).1 hs, (hout hf).2 rfl⟩
  · rintro ⟨o₁, h, hknown, ht, hs, hp⟩
    have hall : k.text ∈ fieldNames → ∀ e ∈ (k, p, v) :: t, e.1.text ∈ fieldNames := fun hmem =>
      List.forall_mem_cons.2 ⟨hmem, hknown⟩
    cases h with
    | target hf hv =>
      exact ⟨hall (by simp [hf, fieldNames]), (Table.sets_cons_of_eq hf hk).2 ((hout hf).1 ht ▸ hv),
        (Table.sets_cons_of_ne (by simp [hf])).2 hs, (Table.sets_cons_of_ne (by simp [hf])).2 hp⟩
    | disabled hf hv =>
      exact ⟨hall (by simp [hf, fieldNames]), (Table.sets_cons_of_ne (by simp [hf])).2 ht,
        (Table.sets_cons_of_eq hf hk).2 ((hout hf).1 hs ▸ hv), (Table.sets_cons_of_ne (by simp [hf])).2 hp⟩
    | policy hf hv =>
      exact ⟨hall (by simp [hf, fieldNames]), (Table.sets_cons_of_ne (by simp [hf])).2 ht,
        (Table.sets_cons_of_ne (by simp [hf])).2 hs, (Table.sets_cons_of_eq hf hk).2 ((hout hf).1 hp ▸ hv)⟩

/-- What all entries do. -/
theorem foldlM_setField_eq_ok_iff {t : Table} (hd : t.Distinct) (o o' : Options) :
    t.foldlM (fun o (k, p, v) => o.setField k p v) o = .ok o' ↔ t.Denotes o o' := by
  induction t generalizing o with
  | nil =>
    rw [denotes_nil_iff]
    exact ⟨Except.ok.inj, congrArg _⟩
  | cons e t ih =>
    obtain ⟨hk, hd⟩ := List.nodup_cons.1 hd
    rw [List.foldlM_cons, bind_eq_ok_iff, denotes_cons_iff hk]
    simp only [setField_eq_ok_iff, ih hd]

theorem ofTable_eq_ok_iff {t : Table} (hd : t.Distinct) (o : Options) : ofTable t = .ok o ↔ t.Denotes {} o := by
  rw [ofTable, foldlM_setField_eq_ok_iff (Table.distinct_sorted.2 hd), Table.denotes_sorted]

end Options

/-! ## The keys of a document -/

namespace Toml

namespace Table

variable {t t' : Table} {k : Key} {p : Position} {v : Value}

theorem not_mem_of_find?_eq_none (h : t.find? k = none) : k.text ∉ t.map (·.1.text) := by
  rw [find?, Option.map_eq_none_iff, List.find?_eq_none] at h
  intro hk
  obtain ⟨e, he, hk⟩ := List.mem_map.1 hk
  exact h e he (by simpa using hk)

theorem Distinct.add (h : t.Distinct) (hk : t.find? k = none) (p : Position) (v : Value) : (t.add k p v).Distinct := by
  rw [Distinct, Table.add, List.map_append, List.nodup_append]
  refine ⟨h, List.nodup_singleton _, fun x hx y hy => ?_⟩
  obtain rfl := List.mem_singleton.1 hy
  rintro rfl
  exact not_mem_of_find?_eq_none hk hx

theorem Distinct.replace (h : t.Distinct) (k : Key) (v : Value) : (t.replace k v).Distinct := by
  have hkeys : (t.replace k v).map (·.1.text) = t.map (·.1.text) := by
    rw [Table.replace, List.map_map]
    refine List.map_congr_left fun e _ => ?_
    simp only [Function.comp_apply]
    split <;> rfl
  rw [Distinct, hkeys]
  exact h

theorem Distinct.erase (h : t.Distinct) (k : Key) : (t.erase k).Distinct :=
  List.Nodup.sublist (List.filter_sublist.map _) h

theorem find?_erase (t : Table) (k : Key) : (t.erase k).find? k = none := by
  rw [find?, Option.map_eq_none_iff, List.find?_eq_none]
  intro e he
  simpa using (List.mem_filter.1 he).2

/-- A new key behind a dotted path leaves the keys of the table distinct. -/
theorem Distinct.define? {path : List Key} (h : t.Distinct) (hd : t.define? path k p v = some t') : t'.Distinct := by
  cases path with
  | nil =>
    rw [Table.define?] at hd
    split at hd
    · cases hd
    · next hf =>
      obtain rfl := Option.some.inj hd
      exact h.add (by simpa using hf) _ _
  | cons k₁ path =>
    rw [Table.define?] at hd
    split at hd
    · next hf =>
      obtain ⟨inner, -, hd⟩ := Option.bind_eq_some_iff.1 hd
      obtain rfl := Option.some.inj hd
      exact h.add hf _ _
    · obtain ⟨inner, -, hd⟩ := Option.bind_eq_some_iff.1 hd
      obtain rfl := Option.some.inj hd
      exact h.replace _ _
    · obtain ⟨inner, -, hd⟩ := Option.bind_eq_some_iff.1 hd
      obtain rfl := Option.some.inj hd
      exact h.replace _ _
    · split at hd
      · split at hd
        · cases hd
        · obtain ⟨inner, -, hd⟩ := Option.bind_eq_some_iff.1 hd
          obtain rfl := Option.some.inj hd
          exact h.replace _ _
      · cases hd
    · cases hd

/-- What is done to a table behind a path leaves the keys of the table distinct, as it does where the path is empty. -/
theorem Distinct.alter? {f : Table → Option Table} (hf : ∀ {t t' : Table}, t.Distinct → f t = some t' → t'.Distinct)
    {path : List Key} (h : t.Distinct) (ha : t.alter? f path = some t') : t'.Distinct := by
  cases path with
  | nil =>
    rw [Table.alter?] at ha
    exact hf h ha
  | cons k path =>
    rw [Table.alter?] at ha
    split at ha
    · next hf =>
      obtain ⟨inner, -, ha⟩ := Option.bind_eq_some_iff.1 ha
      obtain rfl := Option.some.inj ha
      exact h.add hf _ _
    · cases ha
    · obtain ⟨inner, -, ha⟩ := Option.bind_eq_some_iff.1 ha
      obtain rfl := Option.some.inj ha
      exact h.replace _ _
    · split at ha
      · obtain ⟨inner, -, ha⟩ := Option.bind_eq_some_iff.1 ha
        obtain rfl := Option.some.inj ha
        exact h.replace _ _
      · cases ha
    · cases ha

theorem Distinct.openTable? (h : t.Distinct) (ho : t.openTable? k p = some t') : t'.Distinct := by
  unfold Table.openTable? at ho
  split at ho
  · next hf =>
    obtain rfl := Option.some.inj ho
    exact h.add hf _ _
  · obtain rfl := Option.some.inj ho
    exact (h.erase k).add (find?_erase t k) _ _
  · cases ho

theorem Distinct.openElement? (h : t.Distinct) (ho : t.openElement? k p = some t') : t'.Distinct := by
  unfold Table.openElement? at ho
  split at ho
  · next hf =>
    obtain rfl := Option.some.inj ho
    exact h.add hf _ _
  · obtain rfl := Option.some.inj ho
    exact h.replace _ _
  · cases ho

end Table

/-- The statements of a document keep the keys of the table distinct. -/
theorem distinct_statements? {current : List Key} {root t : Table} {ts : List Token} (h : root.Distinct)
    (hs : statements? current root ts = some t) : t.Distinct := by
  fun_induction statements? current root ts with
  | case1 current root =>
    obtain rfl := Option.some.inj hs
    exact h
  | case2 current root t ts ht ih => exact ih h hs
  | case3 current root t ts hn hopen ih =>
    obtain ⟨⟨⟨isElement, path, k⟩, rest, hlt⟩, -, hs⟩ := Option.bind_eq_some_iff.1 hs
    obtain ⟨root', ha, hs⟩ := Option.bind_eq_some_iff.1 hs
    refine ih path k rest hlt root' (h.alter? (fun ht hf => ?_) ha) hs
    cases isElement with
    | true => exact ht.openElement? hf
    | false => exact ht.openTable? hf
  | case4 current root t ts hn hopen ih =>
    obtain ⟨⟨⟨path, k, p, v⟩, rest, hlt⟩, -, hs⟩ := Option.bind_eq_some_iff.1 hs
    obtain ⟨root', ha, hs⟩ := Option.bind_eq_some_iff.1 hs
    exact ih rest hlt root' (h.alter? (fun ht hf => ht.define? hf) ha) hs

/-- No key of a document is there twice. -/
theorem distinct_parse? {text : String} {t : Table} (h : parse? text = some t) : t.Distinct := by
  obtain ⟨ts, -, h⟩ := Option.bind_eq_some_iff.1 h
  obtain ⟨root, hs, h⟩ := Option.bind_eq_some_iff.1 h
  have hnil : Table.Distinct [] := List.nodup_nil
  have hroot : root.Distinct := distinct_statements? hnil hs
  split at h
  · exact Option.some.inj h ▸ hroot
  · cases h

end Toml

/-! ## Main statement -/

namespace Options

open Toml

/-- A text is read as the options that its document denotes. -/
theorem parse_eq_ok_iff {text : String} {o : Options} :
    parse text = .ok o ↔ ∃ t, Toml.parse? text = some t ∧ t.Denotes {} o := by
  unfold parse
  cases ht : Toml.parse? text with
  | none => simp
  | some t => simp [mapError_eq_ok_iff, ofTable_eq_ok_iff (distinct_parse? ht)]

/-- The name that comes from an identifier by writing it in small letters. -/
def lowercase (identifier : String) : String := String.ofList (identifier.toList.map Char.toLower)

/-- The name that comes from an identifier by writing it in small letters, with an underscore before each letter that was a
capital, the first one apart. -/
def snakeCase (identifier : String) : String :=
  match identifier.toList with
  | [] => ""
  | c :: cs => String.ofList (c.toLower :: cs.flatMap fun d => if d.isUpper then ['_', d.toLower] else [d.toLower])

theorem lowercase_label (a : Target) : lowercase a.label = a.name := by cases a <;> decide

theorem snakeCase_label (a : DuplicatePolicy) : snakeCase a.label = a.name := by cases a <;> decide

/-- The names that start disabled are those in the list that the table has for them. -/
theorem disables_iff {t : Table} {o : Options} (h : t.Denotes {} o) (name : String) : o.disables name = true ↔
    ∃ e ∈ t, e.1.text = "disabled_type_maps" ∧ ∃ byHeaders items, e.2.2 = .array byHeaders items ∧
      ∃ i ∈ items, i.2 = .string name := by
  rw [disables, List.contains_iff_mem]
  constructor
  · intro hname
    by_cases hex : ∃ e ∈ t, e.1.text = "disabled_type_maps"
    · obtain ⟨e, he, hf⟩ := hex
      obtain ⟨b, items, hv, hi⟩ := h.disabled.1 e he hf
      have hmem : Value.string name ∈ items.map Prod.snd := hi ▸ List.mem_map_of_mem hname
      obtain ⟨i, hmem, hs⟩ := List.mem_map.1 hmem
      exact ⟨e, he, hf, b, items, hv, i, hmem, hs⟩
    · rw [h.disabled.2 fun e he hf => hex ⟨e, he, hf⟩] at hname
      cases hname
  · rintro ⟨e, he, hf, b, items, hv, i, hi, hs⟩
    obtain ⟨b', items', hv', hi'⟩ := h.disabled.1 e he hf
    obtain ⟨-, rfl⟩ := Value.array.inj (hv.symm.trans hv')
    have hmem : Value.string name ∈ o.disabled.map Value.string := hi' ▸ hs ▸ List.mem_map_of_mem hi
    obtain ⟨s, hmem, he⟩ := List.mem_map.1 hmem
    exact Value.string.inj he ▸ hmem

/-- **Documents are accepted exactly when they are well formed.** A table whose keys are distinct is read as the options
that it denotes, if it denotes any; fields that it does not set are `csharp`, no names and `last_wins`. A text is read as its
table is. The names of targets and policies are those that their identifiers have by the rules for variants. -/
theorem ofTable_denotes :
    (∀ t : Table, t.Distinct → ((∃ o, ofTable t = .ok o) ↔ t.WellFormed) ∧
      (∀ o, ofTable t = .ok o ↔ t.Denotes { target := .csharp, disabled := [], policy := .lastWins } o) ∧
      ∀ o, ofTable t = .ok o → ∀ name, o.disables name = true ↔
        ∃ e ∈ t, e.1.text = "disabled_type_maps" ∧ ∃ byHeaders items, e.2.2 = .array byHeaders items ∧
          ∃ i ∈ items, i.2 = .string name) ∧
    (∀ text, ((∃ o, parse text = .ok o) ↔ ∃ t, Toml.parse? text = some t ∧ t.WellFormed) ∧
      ∀ o, parse text = .ok o ↔ ∃ t, Toml.parse? text = some t ∧
        t.Denotes { target := .csharp, disabled := [], policy := .lastWins } o) ∧
    (∀ a : Target, lowercase a.label = a.name) ∧ ∀ a : DuplicatePolicy, snakeCase a.label = a.name := by
  refine ⟨fun t hd => ⟨?_, ofTable_eq_ok_iff hd, fun o ho => disables_iff ((ofTable_eq_ok_iff hd o).1 ho)⟩,
    fun text => ⟨?_, fun o => parse_eq_ok_iff⟩, lowercase_label, snakeCase_label⟩
  · rw [← Table.exists_denotes_iff hd {}]
    exact exists_congr (ofTable_eq_ok_iff hd)
  · simp only [parse_eq_ok_iff]
    rw [exists_comm]
    refine exists_congr fun t => ?_
    rw [exists_and_left]
    exact and_congr_right fun ht => Table.exists_denotes_iff (distinct_parse? ht) {}

/-- A document with all three fields: two variants, written as a text and as a table, and a list. -/
def sampleTable (items : List (Position × Value)) : Table :=
  [(⟨"duplicate_policy", {}⟩, {}, .string "reject"), (⟨"disabled_type_maps", {}⟩, {}, .array false items),
    (⟨"generator", {}⟩, {}, .table .inline [(⟨"napi", {}⟩, {}, .array false [])])]

/-- The list may have a name twice, and it may have no number. -/
theorem ofTable_denotes_of_sample :
    (sampleTable [({}, .string "b"), ({}, .string "a"), ({}, .string "b")]).Distinct ∧
    ofTable (sampleTable [({}, .string "b"), ({}, .string "a"), ({}, .string "b")]) =
      .ok { target := .napi, disabled := ["b", "a", "b"], policy := .reject } ∧
    (sampleTable [({}, .string "b"), ({}, .integer 1)]).Distinct ∧
    ∀ o, ofTable (sampleTable [({}, .string "b"), ({}, .integer 1)]) ≠ .ok o := by
  have hd : ∀ items, (sampleTable items).Distinct := fun items => by simp [sampleTable, Table.Distinct]
  have hdenotes : (sampleTable [({}, .string "b"), ({}, .string "a"), ({}, .string "b")]).Denotes
      { target := .csharp, disabled := [], policy := .lastWins }
      { target := .napi, disabled := ["b", "a", "b"], policy := .reject } := by
    have hnapi : Value.Writes Target.napi.name (.table .inline [(⟨"napi", {}⟩, {}, .array false [])]) :=
      .keyed rfl (.array false)
    have hreject : Value.Writes DuplicatePolicy.reject.name (.string "reject") := .text
    have hlist : Value.Lists ["b", "a", "b"] (.array false [({}, .string "b"), ({}, .string "a"), ({}, .string "b")]) :=
      ⟨_, _, rfl, rfl⟩
    constructor <;> simp [sampleTable, Table.Sets, fieldNames, hnapi, hreject, hlist]
  refine ⟨hd _, ((ofTable_denotes.1 _ (hd _)).2.1 _).2 hdenotes, hd _, fun o ho => ?_⟩
  obtain ⟨b, items, hv, hi⟩ := ((ofTable_denotes.1 _ (hd _)).1.1 ⟨o, ho⟩).disabled
    (⟨"disabled_type_maps", {}⟩, {}, .array false [({}, .string "b"), ({}, .integer 1)]) (by simp [sampleTable]) rfl
  obtain ⟨-, rfl⟩ := Value.array.inj hv
  obtain ⟨s, hs⟩ := hi ({}, .integer 1) (by simp)
  cases hs

end Options

end TypeMapping
