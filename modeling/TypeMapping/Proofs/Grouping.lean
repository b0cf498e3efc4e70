import TypeMapping.Dict
import TypeMapping.Proofs.Inventory

/-!
# Inventories in groups

The declarations of an inventory are put into a map that holds one group per component. Then the declarations of each
group are sorted by name, and the groups by component. Nothing is known of the order in which a map lists its groups.

* `Provider.enter`, `Provider.groups` : the map of the groups, one declaration after the other;
* `Provider.ofGroups`                 : the providers of groups that are listed in some order;
* `Provider.IsShare`                  : a list holds what one component declares, in order;
* `Provider.Partition`                : providers hold what is declared, each the share of its component.

Main statements: `mem_keys_foldl_enter`, `getD_foldl_enter`, each component has a group, with its declarations in the
order of the inventory; `ofGroups_eq`, the order of the groups makes no difference; `partition_ofInventory`,
`Partition.eq_ofInventory`, the providers of an inventory are its only partition; `partition_ofGroups`, all of this for
groups in any order.
-/

namespace TypeMapping.Provider

variable {ds l m : List Declaration} {gs : List (String × List Declaration)} {ps : List Provider} {c : String}

/-! ## The map of the groups -/

/-- The groups with one more declaration, behind the others of its component. -/
def enter (groups : Dict String (List Declaration)) (d : Declaration) : Dict String (List Declaration) :=
  groups.insert d.origin ((groups.get? d.origin).getD [] ++ [d])

/-- The declarations in groups, one per component. -/
def groups (ds : List Declaration) : Dict String (List Declaration) := ds.foldl enter .empty

section Enter

variable (groups : Dict String (List Declaration)) (d : Declaration)

theorem mem_keys_enter : c ∈ (enter groups d).keys ↔ c ∈ groups.keys ∨ d.origin = c := by
  rw [enter, Dict.keys_insert]
  split
  · next h => exact ⟨.inl, fun hc => hc.elim id fun hd => hd ▸ h⟩
  · simp [eq_comm]

theorem getD_enter (c : String) : ((enter groups d).get? c).getD [] =
    (groups.get? c).getD [] ++ [d].filter (·.origin = c) := by
  rw [enter, Dict.get?_insert]
  by_cases h : d.origin = c
  · subst h
    simp
  · simp [h]

theorem mem_keys_foldl_enter : c ∈ (ds.foldl enter groups).keys ↔ c ∈ groups.keys ∨ ∃ d ∈ ds, d.origin = c := by
  induction ds generalizing groups with
  | nil => simp
  | cons d ds ih => simp [ih, mem_keys_enter, or_assoc]

theorem getD_foldl_enter (ds : List Declaration) (c : String) : ((ds.foldl enter groups).get? c).getD [] =
    (groups.get? c).getD [] ++ ds.filter (·.origin = c) := by
  induction ds generalizing groups with
  | nil => simp
  | cons d ds ih => rw [List.foldl_cons, ih, getD_enter, List.append_assoc, ← List.filter_append, List.singleton_append]

end Enter

theorem mem_keys_groups : c ∈ (groups ds).keys ↔ ∃ d ∈ ds, d.origin = c := by simp [groups, mem_keys_foldl_enter]

theorem eq_filter_of_mem_groups {g : String × List Declaration} (h : g ∈ (groups ds).pairs) :
    g.2 = ds.filter (·.origin = g.1) := by
  have hg := getD_foldl_enter .empty ds g.1
  rwa [← groups, Dict.get?_of_mem h, Dict.get?_empty] at hg

/-! ## Groups in any order -/

/-- The providers of groups that are listed in some order. -/
def ofGroups (gs : List (String × List Declaration)) : List Provider :=
  (gs.map fun g => ofList g.1 (g.2.mergeSort (·.name ≤ ·.name))).mergeSort (·.component ≤ ·.component)

/-- The order in which the map lists its groups makes no difference. -/
theorem ofGroups_eq (h : gs.Perm (groups ds).pairs) : ofGroups gs = ofInventory ds := by
  -- a provider is told by its component, so that to sort the providers is to sort their components
  have hproviders : gs.map (fun g => ofList g.1 (g.2.mergeSort (·.name ≤ ·.name))) =
      (gs.map Prod.fst).map fun c => ofList c (declarationsOf c ds) := by
    rw [List.map_map]
    refine List.map_congr_left fun g hg => ?_
    rw [Function.comp_apply, declarationsOf, ← eq_filter_of_mem_groups (h.mem_iff.1 hg)]
  have hcomponents : components ds = (gs.map Prod.fst).mergeSort (· ≤ ·) :=
    components_eq_mergeSort ((h.map Prod.fst).nodup_iff.2 (groups ds).nodup) fun c =>
      (h.map Prod.fst).mem_iff.trans mem_keys_groups
  have hsorted : ((gs.map Prod.fst).mergeSort (· ≤ ·)).map (fun c => ofList c (declarationsOf c ds)) =
      ((gs.map Prod.fst).map fun c => ofList c (declarationsOf c ds)).mergeSort (·.component ≤ ·.component) :=
    List.map_mergeSort fun _ _ _ _ => rfl
  rw [ofGroups, ofInventory, hproviders, hcomponents, hsorted]

/-! ## Shares -/

/-- The list holds what component `c` declares in `ds`, by name, and in the order of `ds` where names are equal. -/
structure IsShare (ds : List Declaration) (c : String) (l : List Declaration) : Prop where
  ne_nil : l ≠ []
  origin : ∀ d ∈ l, d.origin = c
  sorted : l.Pairwise fun d d' => Text.bytes d.name ≤ Text.bytes d'.name
  filter_name : ∀ name, l.filter (·.name = name) = ds.filter fun d => d.origin = c ∧ d.name = name

theorem isShare_declarationsOf (hc : c ∈ components ds) : IsShare ds c (declarationsOf c ds) where
  ne_nil := by
    obtain ⟨d, hd, hdc⟩ := mem_components_iff.1 hc
    have hmem : d ∈ ds.filter (·.origin = c) := List.mem_filter.2 ⟨hd, by simpa using hdc⟩
    exact List.ne_nil_of_mem ((perm_declarationsOf c ds).mem_iff.2 hmem)
  origin := fun _ hd => origin_of_mem_declarationsOf hd
  sorted := (pairwise_declarationsOf c ds).imp Text.bytes_le_bytes.2
  filter_name := fun name => by
    rw [declarationsOf, Text.filter_mergeSort_key Declaration.name, List.filter_filter]
    simp [and_comm]

/-- There is only one share. -/
theorem IsShare.eq (hl : IsShare ds c l) (hm : IsShare ds c m) : l = m :=
  Text.eq_of_filter_key_eq (hl.sorted.imp Text.bytes_le_bytes.1) (hm.sorted.imp Text.bytes_le_bytes.1) fun name =>
    (hl.filter_name name).trans (hm.filter_name name).symm

/-! ## Partitions -/

/-- The providers hold the declarations `ds`, each the share of its component. -/
structure Partition (ds : List Declaration) (ps : List Provider) : Prop where
  /-- The components come in the order of their bytes, each once. -/
  increasing : ps.Pairwise fun p q => Text.bytes p.component < Text.bytes q.component
  share : ∀ p ∈ ps, ∃ l, p.declarations = .ok l ∧ IsShare ds p.component l
  /-- Each declaration is listed as often as it is declared. -/
  perm : (ps.filterMap fun p => p.declarations.toOption).flatten.Perm ds

theorem partition_ofInventory (ds : List Declaration) : Partition ds (ofInventory ds) where
  increasing := List.pairwise_map.2 ((pairwise_components ds).imp Text.bytes_lt_bytes.2)
  share := by
    intro p hp
    obtain ⟨c, hc, rfl⟩ := List.mem_map.1 hp
    exact ⟨declarationsOf c ds, rfl, isShare_declarationsOf hc⟩
  perm := by
    have hlists : (ofInventory ds).filterMap (fun p => p.declarations.toOption) =
        (components ds).map fun c => declarationsOf c ds := by
      rw [ofInventory, List.filterMap_map]
      exact congrFun List.filterMap_eq_map' _
    rw [hlists, ← List.flatMap_def, ← inOrder_eq]
    exact perm_inOrder ds

namespace Partition

variable (h : Partition ds ps)
include h

theorem mem_map_component_iff : c ∈ ps.map component ↔ ∃ d ∈ ds, d.origin = c := by
  constructor
  · intro hc
    obtain ⟨p, hp, rfl⟩ := List.mem_map.1 hc
    obtain ⟨l, hl, hshare⟩ := h.share p hp
    obtain ⟨d, hd⟩ := List.exists_mem_of_ne_nil l hshare.ne_nil
    refine ⟨d, h.perm.mem_iff.1 (List.mem_flatten.2 ⟨l, ?_, hd⟩), hshare.origin d hd⟩
    exact List.mem_filterMap.2 ⟨p, hp, by rw [hl]; rfl⟩
  · rintro ⟨d, hd, rfl⟩
    obtain ⟨l, hl, hdl⟩ := List.mem_flatten.1 (h.perm.mem_iff.2 hd)
    obtain ⟨p, hp, hpl⟩ := List.mem_filterMap.1 hl
    obtain ⟨l', hl', hshare⟩ := h.share p hp
    obtain rfl : l' = l := by simpa [hl', Except.toOption] using hpl
    exact List.mem_map.2 ⟨p, hp, (hshare.origin d hdl).symm⟩

/-- There is only one partition. -/
theorem eq_ofInventory : ps = ofInventory ds := by
  -- the components are those of the declarations, in the one order, and each has only one share
  have hincreasing : (ps.map component).Pairwise (· < ·) := List.pairwise_map.2 (h.increasing.imp Text.bytes_lt_bytes.1)
  have hcomponents : ps.map component = components ds :=
    hincreasing.eq_of_mem_iff (pairwise_components ds) fun c => h.mem_map_component_iff.trans mem_components_iff.symm
  have hps : ∀ p ∈ ps, ofList p.component (declarationsOf p.component ds) = p := by
    intro p hp
    obtain ⟨l, hl, hshare⟩ := h.share p hp
    have hp' : p.component ∈ components ds := hcomponents ▸ List.mem_map_of_mem hp
    rw [ofList, (isShare_declarationsOf hp').eq hshare, ← hl]
  rw [ofInventory, ← hcomponents, List.map_map]
  exact ((List.map_congr_left hps).trans (List.map_id _)).symm

end Partition

/-! ## Main statement -/

/-- **Grouping an inventory loses nothing.** In whatever order the map lists its groups, the providers come in the order
of their components, each with what its component declares, and together they list every declaration once. No other
providers do, so the order of the groups makes no difference. -/
theorem partition_ofGroups (h : gs.Perm (groups ds).pairs) :
    Partition ds (ofGroups gs) ∧ (∀ ps, Partition ds ps → ps = ofGroups gs) ∧ ofGroups gs = ofInventory ds := by
  rw [ofGroups_eq h]
  exact ⟨partition_ofInventory ds, fun ps hps => hps.eq_ofInventory, rfl⟩

/-- Two components declare in turns, one of them the name `V` twice, and the later group is listed first. -/
theorem partition_ofGroups_of_turns :
    let w : Declaration := { name := "W", origin := "b" }
    let v : Declaration := { name := "V", origin := "a" }
    let u : Declaration := { name := "U", origin := "b", filter := .only .cpp }
    let v' : Declaration := { name := "V", origin := "a", factory := Handler.disabled }
    let gs := [("a", [v, v']), ("b", [w, u])]
    gs.Perm (groups [w, v, u, v']).pairs ∧ Partition [w, v, u, v'] (ofGroups gs) ∧
      ofGroups gs = [ofList "a" [v, v'], ofList "b" [u, w]] := by
  intro w v u v' gs
  have hperm : gs.Perm (groups [w, v, u, v']).pairs := .swap ..
  obtain ⟨hpart, hunique, -⟩ := partition_ofGroups hperm
  have hab : Text.bytes "a" < Text.bytes "b" := Text.bytes_lt_bytes.2 (by decide)
  have huw : Text.bytes "U" ≤ Text.bytes "W" := Text.bytes_le_bytes.2 (by decide)
  have ha : IsShare [w, v, u, v'] "a" [v, v'] :=
    { ne_nil := by simp
      origin := by simp [v, v']
      sorted := by simp [v, v']
      filter_name := fun name => by by_cases hV : "V" = name <;> simp [w, v, u, v', hV] }
  have hb : IsShare [w, v, u, v'] "b" [u, w] :=
    { ne_nil := by simp
      origin := by simp [u, w]
      sorted := by simpa [u, w] using huw
      filter_name := fun name => by
        by_cases hU : "U" = name
        · subst hU
          simp [w, v, u, v']
        · by_cases hW : "W" = name <;> simp [w, v, u, v', hU, hW] }
  refine ⟨hperm, hpart, (hunique _ { increasing := ?_, share := ?_, perm := ?_ }).symm⟩
  · simpa [ofList] using hab
  · simp only [List.forall_mem_cons]
    exact ⟨⟨_, rfl, ha⟩, ⟨_, rfl, hb⟩, by simp⟩
  · show [v, v', u, w].Perm [w, v, u, v']
    exact (List.perm_append_singleton w [v, v', u]).trans (.cons w (.cons v (.swap ..)))

end TypeMapping.Provider
