import Mathlib.Data.List.Sort
import Mathlib.Data.String.Basic

/-!
# The order of texts is that of their bytes

Names are sorted as texts, character by character. A text is kept as its UTF-8 bytes, and to compare these one by one
comes to the same. What has a name is sorted by it.

* `bytes` : the bytes of a text.

Main statements: `utf8EncodeChar_append_lt`, of two characters the lesser one has the lesser bytes, whatever follows
them; `bytes_lt_bytes`, `bytes_le_bytes`, texts are in the order of their bytes; `filter_mergeSort_key`, to sort items
by a key keeps those of one key in their order, and `eq_of_filter_key_eq`, there is one way to do so;
`pairwise_lt_mergeSort`, distinct texts are sorted strictly, and `mergeSort_eq_of_mem_iff`, always in the same way.
-/

namespace TypeMapping.Text

/-- The bytes of a text. -/
def bytes (s : String) : List UInt8 := s.toUTF8.data.toList

theorem bytes_eq_flatMap (s : String) : bytes s = s.toList.flatMap String.utf8EncodeChar := by
  conv => lhs; rw [← String.ofList_toList (s := s)]
  rw [bytes, String.toUTF8_eq_toByteArray, String.toByteArray_ofList, List.utf8Encode, List.toList_data_toByteArray]

/-! ## One character -/

variable {a b : Nat} {l m : List UInt8}

theorem cons_lt_cons_of_lt (hb : b < 256) (h : a < b) : UInt8.ofNat a :: l < UInt8.ofNat b :: m :=
  List.cons_lt_cons_iff.2 (.inl ((UInt8.ofNat_lt_iff_lt (h.trans hb) hb).2 h))

theorem cons_lt_cons_of_le (hb : b < 256) (h : a ≤ b) (ht : a = b → l < m) :
    UInt8.ofNat a :: l < UInt8.ofNat b :: m := by
  rcases Nat.lt_or_eq_of_le h with h | rfl
  · exact cons_lt_cons_of_lt hb h
  · exact List.cons_lt_cons_iff.2 (.inr ⟨rfl, ht rfl⟩)

theorem utf8EncodeChar_append_lt {c d : Char} (h : c < d) (l m : List UInt8) :
    String.utf8EncodeChar c ++ l < String.utf8EncodeChar d ++ m := by
  have hlt : c.val.toNat < d.val.toNat := h
  have hd : d.val.toNat < 0x110000 := by
    have := d.valid
    simp only [UInt32.isValidChar, Nat.isValidChar] at this
    omega
  unfold String.utf8EncodeChar
  generalize c.val.toNat = v at hlt ⊢
  generalize d.val.toNat = w at hlt hd ⊢
  dsimp only
  split_ifs
  any_goals omega
  all_goals simp only [List.cons_append, List.nil_append]
  -- the first byte tells how many follow, so it settles the order of characters of different length
  any_goals (apply cons_lt_cons_of_lt <;> omega)
  -- two, three and four bytes: the leading digits are in order, and the last one decides if they are equal
  · exact cons_lt_cons_of_le (by omega) (by omega) fun _ => cons_lt_cons_of_lt (by omega) (by omega)
  · exact cons_lt_cons_of_le (by omega) (by omega) fun _ =>
      cons_lt_cons_of_le (by omega) (by omega) fun _ => cons_lt_cons_of_lt (by omega) (by omega)
  · exact cons_lt_cons_of_le (by omega) (by omega) fun _ =>
      cons_lt_cons_of_le (by omega) (by omega) fun _ =>
        cons_lt_cons_of_le (by omega) (by omega) fun _ => cons_lt_cons_of_lt (by omega) (by omega)

/-! ## Texts -/

theorem flatMap_utf8EncodeChar_lt {l m : List Char} (h : l < m) :
    l.flatMap String.utf8EncodeChar < m.flatMap String.utf8EncodeChar := by
  induction l generalizing m with
  | nil =>
    obtain ⟨d, m, rfl⟩ := List.exists_cons_of_ne_nil (show m ≠ [] by rintro rfl; cases h)
    obtain ⟨x, xs, hx⟩ := List.exists_cons_of_ne_nil (String.utf8EncodeChar_ne_nil (c := d))
    rw [List.flatMap_nil, List.flatMap_cons, hx]
    exact List.nil_lt_cons ..
  | cons c l ih =>
    obtain ⟨d, m, rfl⟩ := List.exists_cons_of_ne_nil (show m ≠ [] by rintro rfl; cases h)
    rw [List.flatMap_cons, List.flatMap_cons]
    rcases List.cons_lt_cons_iff.1 h with hcd | ⟨rfl, hlm⟩
    · exact utf8EncodeChar_append_lt hcd _ _
    · exact List.append_left_lt (ih hlm)

theorem bytes_lt_bytes_of_lt {s t : String} (h : s < t) : bytes s < bytes t := by
  rw [bytes_eq_flatMap, bytes_eq_flatMap]
  exact flatMap_utf8EncodeChar_lt h

theorem bytes_lt_bytes {s t : String} : bytes s < bytes t ↔ s < t := by
  refine ⟨fun h => ?_, bytes_lt_bytes_of_lt⟩
  rcases lt_trichotomy s t with hst | rfl | hts
  · exact hst
  · exact absurd h (List.lt_irrefl _)
  · exact absurd (bytes_lt_bytes_of_lt hts) (List.lt_asymm h)

theorem bytes_le_bytes {s t : String} : bytes s ≤ bytes t ↔ s ≤ t := by
  rw [← List.not_lt, bytes_lt_bytes, not_lt]

/-! ## Sorting by texts -/

section Key

variable {α : Type} (key : α → String)

theorem le_key_trans (a b c : α) (hab : decide (key a ≤ key b) = true) (hbc : decide (key b ≤ key c) = true) :
    decide (key a ≤ key c) = true := by
  rw [decide_eq_true_iff] at *
  exact hab.trans hbc

theorem le_key_total (a b : α) : (decide (key a ≤ key b) || decide (key b ≤ key a)) = true := by
  simpa using le_total (key a) (key b)

theorem pairwise_mergeSort_key (l : List α) :
    (l.mergeSort fun a b => key a ≤ key b).Pairwise fun a b => key a ≤ key b :=
  (List.pairwise_mergeSort (le_key_trans key) (le_key_total key) l).imp (by simp)

/-- Items with one key keep their order. -/
theorem filter_mergeSort_key (l : List α) (s : String) :
    (l.mergeSort fun a b => key a ≤ key b).filter (fun a => key a = s) = l.filter fun a => key a = s := by
  have hkey : ∀ a ∈ l.filter fun a => key a = s, key a = s := fun a ha => by simpa using (List.mem_filter.1 ha).2
  have hs : (l.filter fun a => key a = s).Pairwise fun a b => decide (key a ≤ key b) = true :=
    List.pairwise_of_forall_mem_list fun a ha b hb => by simp [hkey a ha, hkey b hb]
  -- in order as they are, they come out as a sublist, and no others have the key
  have hsub := (List.sublist_mergeSort (le_key_trans key) (le_key_total key) hs List.filter_sublist).filter
    fun a => key a = s
  rw [List.filter_filter, List.filter_congr (fun a _ => Bool.and_self _)] at hsub
  exact (hsub.eq_of_length ((List.mergeSort_perm l _).filter _).length_eq.symm).symm

variable {key} {l m : List α}

theorem key_le_of_mem_cons {a b : α} (hl : (a :: l).Pairwise fun a b => key a ≤ key b) (hb : b ∈ a :: l) :
    key a ≤ key b := by
  rcases List.mem_cons.1 hb with rfl | hb
  · exact le_rfl
  · exact List.rel_of_pairwise_cons hl hb

theorem mem_iff_of_filter_key_eq (h : ∀ s, (l.filter fun a => key a = s) = m.filter fun a => key a = s) (a : α) :
    a ∈ l ↔ a ∈ m := by simpa using congrArg (a ∈ ·) (h (key a))

/-- Lists that are sorted by a key, and in which the items with one key come in the same order, are equal. -/
theorem eq_of_filter_key_eq (hl : l.Pairwise fun a b => key a ≤ key b) (hm : m.Pairwise fun a b => key a ≤ key b)
    (h : ∀ s, (l.filter fun a => key a = s) = m.filter fun a => key a = s) : l = m := by
  induction l generalizing m with
  | nil =>
    refine (List.eq_nil_iff_forall_not_mem.2 fun a ha => ?_).symm
    exact List.not_mem_nil ((mem_iff_of_filter_key_eq h a).2 ha)
  | cons a l ih =>
    have hmem := mem_iff_of_filter_key_eq h
    obtain ⟨b, m, rfl⟩ := List.exists_cons_of_ne_nil (List.ne_nil_of_mem ((hmem a).1 List.mem_cons_self))
    -- each of the first items has the least key, and comes first of those that have it
    have hab : key a = key b :=
      le_antisymm (key_le_of_mem_cons hl ((hmem b).2 List.mem_cons_self))
        (key_le_of_mem_cons hm ((hmem a).1 List.mem_cons_self))
    obtain rfl : a = b := by simpa [hab] using congrArg List.head? (h (key b))
    have htail : ∀ s, (l.filter fun a => key a = s) = m.filter fun a => key a = s := by
      intro s
      have hs := h s
      by_cases hk : key a = s <;> simpa [List.filter_cons, hk] using hs
    exact congrArg (a :: ·) (ih hl.of_cons hm.of_cons htail)

end Key

/-! ## Sorted texts -/

theorem pairwise_le_mergeSort (l : List String) : (l.mergeSort (· ≤ ·)).Pairwise (· ≤ ·) := pairwise_mergeSort_key id l

/-- Texts that are distinct are sorted strictly. -/
theorem pairwise_lt_mergeSort {l : List String} (h : l.Nodup) : (l.mergeSort (· ≤ ·)).Pairwise (· < ·) := by
  have hn : (l.mergeSort (· ≤ ·)).Nodup := (List.mergeSort_perm l _).nodup_iff.2 h
  exact (pairwise_le_mergeSort l).imp₂ (fun _ _ hle hne => lt_of_le_of_ne hle hne) hn

/-- Distinct texts are sorted in the same way, in whatever order they come. -/
theorem mergeSort_eq_of_mem_iff {l m : List String} (hl : l.Nodup) (hm : m.Nodup) (h : ∀ s, s ∈ l ↔ s ∈ m) :
    l.mergeSort (· ≤ ·) = m.mergeSort (· ≤ ·) :=
  (pairwise_lt_mergeSort hl).eq_of_mem_iff (pairwise_lt_mergeSort hm) fun s => by simp [h s]

end TypeMapping.Text
