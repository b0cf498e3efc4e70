/-!
# Finite maps as lists of pairs

A `Dict κ ν` holds at most one value per key. The pairs stand in the order in which their keys first
came; a later value takes the place of the earlier one.

* `get? k`, `contains k` : the value under `k`, and whether there is one;
* `insert k v`           : `v` under `k`;
* `keys`, `size`, `isEmpty`.

Main statements: `get?_insert`, `keys_insert`, `mem_keys_iff`, `insert_get?`, `ext_get?`.
-/

namespace TypeMapping

variable {κ ν : Type}

/-! ## Lists of pairs -/

namespace Dict

variable [DecidableEq κ]

/-- The value that the first pair with key `k` holds. -/
def find (k : κ) : List (κ × ν) → Option ν
  | [] => none
  | p :: ps => if p.1 = k then some p.2 else find k ps

/-- The pairs with `v` in place of the value under `k`, at the end if `k` is new. -/
def put (k : κ) (v : ν) : List (κ × ν) → List (κ × ν)
  | [] => [(k, v)]
  | p :: ps => if p.1 = k then (k, v) :: ps else p :: put k v ps

theorem find_put (k : κ) (v : ν) (ps : List (κ × ν)) (j : κ) :
    find j (put k v ps) = if k = j then some v else find j ps := by
  induction ps with
  | nil => rfl
  | cons p ps ih =>
    by_cases h : p.1 = k
    · subst h
      by_cases hj : p.1 = j <;> simp [put, find, hj]
    · by_cases hj : p.1 = j
      · subst hj
        simp [put, find, h, Ne.symm h]
      · simp [put, find, h, hj, ih]

theorem find_isSome_iff (k : κ) (ps : List (κ × ν)) :
    (find k ps).isSome ↔ k ∈ ps.map Prod.fst := by
  induction ps with
  | nil => simp [find]
  | cons p ps ih =>
    by_cases h : p.1 = k
    · simp [find, h]
    · simp [find, h, ih, Ne.symm h]

theorem find_eq_none {k : κ} {ps : List (κ × ν)} (h : k ∉ ps.map Prod.fst) : find k ps = none := by
  rwa [← find_isSome_iff, Option.not_isSome_iff_eq_none] at h

theorem find_of_mem {k : κ} {v : ν} {ps : List (κ × ν)} (hn : (ps.map Prod.fst).Nodup) (h : (k, v) ∈ ps) :
    find k ps = some v := by
  induction ps with
  | nil => cases h
  | cons p ps ih =>
    obtain ⟨hp, hn⟩ := List.nodup_cons.1 hn
    rcases List.mem_cons.1 h with rfl | h
    · simp [find]
    · have hpk : p.1 ≠ k := fun e => hp (e ▸ List.mem_map_of_mem h)
      simp [find, hpk, ih hn h]

theorem map_fst_put (k : κ) (v : ν) (ps : List (κ × ν)) :
    (put k v ps).map Prod.fst =
      if k ∈ ps.map Prod.fst then ps.map Prod.fst else ps.map Prod.fst ++ [k] := by
  induction ps with
  | nil => simp [put]
  | cons p ps ih =>
    by_cases h : p.1 = k
    · simp [put, h]
    · by_cases hk : k ∈ ps.map Prod.fst
      · simp [put, h, ih, hk]
      · simp [put, h, ih, hk, Ne.symm h]

theorem put_of_find {k : κ} {v : ν} {ps : List (κ × ν)} (h : find k ps = some v) :
    put k v ps = ps := by
  induction ps with
  | nil => cases h
  | cons p ps ih =>
    by_cases hp : p.1 = k
    · obtain ⟨a, b⟩ := p
      obtain rfl : a = k := hp
      obtain rfl : b = v := by simpa [find] using h
      simp [put]
    · simp only [find, hp, if_false] at h
      simp [put, hp, ih h]

/-- Lists of pairs with the same distinct keys, in the same order, differ in a value if they differ. -/
theorem eq_of_find_eq {ps qs : List (κ × ν)} (hn : (ps.map Prod.fst).Nodup)
    (hk : ps.map Prod.fst = qs.map Prod.fst) (h : ∀ k, find k ps = find k qs) : ps = qs := by
  induction ps generalizing qs with
  | nil => exact (List.map_eq_nil_iff.1 hk.symm).symm
  | cons p ps ih =>
    obtain ⟨a, v⟩ := p
    obtain ⟨⟨b, w⟩, qs, rfl⟩ := List.exists_cons_of_ne_nil (show qs ≠ [] by rintro rfl; cases hk)
    simp only [List.map_cons, List.cons.injEq, List.nodup_cons] at hk hn
    obtain ⟨rfl, hk⟩ := hk
    have hv : v = w := by simpa [find] using h a
    have htail : ∀ k, find k ps = find k qs := by
      intro k
      by_cases hak : a = k
      · subst hak
        rw [find_eq_none hn.1, find_eq_none (hk ▸ hn.1)]
      · simpa [find, hak] using h k
    rw [hv, ih hn.2 hk htail]

end Dict

/-! ## Maps -/

/-- A finite map: pairs with distinct keys. -/
structure Dict (κ ν : Type) where
  pairs : List (κ × ν)
  nodup : (pairs.map Prod.fst).Nodup

namespace Dict

/-- The map without keys. -/
def empty : Dict κ ν := ⟨[], List.nodup_nil⟩

/-- The keys, in the order in which they came. -/
def keys (d : Dict κ ν) : List κ := d.pairs.map Prod.fst

/-- The number of keys. -/
def size (d : Dict κ ν) : Nat := d.pairs.length

/-- Is there no key? -/
def isEmpty (d : Dict κ ν) : Bool := d.pairs.isEmpty

@[simp] theorem keys_empty : (empty : Dict κ ν).keys = [] := rfl

@[simp] theorem length_keys (d : Dict κ ν) : d.keys.length = d.size := by simp [keys, size]

theorem nodup_keys (d : Dict κ ν) : d.keys.Nodup := d.nodup

variable [DecidableEq κ]

/-- The value under `k`. -/
def get? (d : Dict κ ν) (k : κ) : Option ν := find k d.pairs

/-- Is there a value under `k`? -/
def contains (d : Dict κ ν) (k : κ) : Bool := (d.get? k).isSome

/-- The map with `v` under `k`. -/
def insert (d : Dict κ ν) (k : κ) (v : ν) : Dict κ ν where
  pairs := put k v d.pairs
  nodup := by
    rw [map_fst_put]
    split
    · exact d.nodup
    · next h =>
      refine List.nodup_append.2 ⟨d.nodup, by simp, ?_⟩
      intro a ha b hb
      obtain rfl := List.mem_singleton.1 hb
      exact fun e => h (e ▸ ha)

@[simp] theorem get?_empty (k : κ) : (empty : Dict κ ν).get? k = none := rfl

theorem get?_insert (d : Dict κ ν) (k : κ) (v : ν) (j : κ) :
    (d.insert k v).get? j = if k = j then some v else d.get? j := find_put k v d.pairs j

theorem get?_of_mem {d : Dict κ ν} {k : κ} {v : ν} (h : (k, v) ∈ d.pairs) : d.get? k = some v := find_of_mem d.nodup h

theorem mem_keys_iff {d : Dict κ ν} {k : κ} : k ∈ d.keys ↔ (d.get? k).isSome :=
  (find_isSome_iff k d.pairs).symm

theorem keys_insert (d : Dict κ ν) (k : κ) (v : ν) :
    (d.insert k v).keys = if k ∈ d.keys then d.keys else d.keys ++ [k] := map_fst_put k v d.pairs

theorem size_insert (d : Dict κ ν) (k : κ) (v : ν) :
    (d.insert k v).size = if k ∈ d.keys then d.size else d.size + 1 := by
  rw [← length_keys, keys_insert]
  split <;> simp

/-- To write what is there already changes nothing. -/
theorem insert_get? {d : Dict κ ν} {k : κ} {v : ν} (h : d.get? k = some v) : d.insert k v = d := by
  obtain ⟨ps, hn⟩ := d
  simp only [insert, Dict.mk.injEq]
  exact put_of_find h

/-- Maps with the same keys, in the same order, and the same values under them are equal. -/
theorem ext_get? {d d' : Dict κ ν} (hk : d.keys = d'.keys) (h : ∀ k, d.get? k = d'.get? k) : d = d' := by
  obtain ⟨ps, hn⟩ := d
  obtain ⟨qs, hn'⟩ := d'
  simp only [Dict.mk.injEq]
  exact eq_of_find_eq hn hk h

end Dict

end TypeMapping
