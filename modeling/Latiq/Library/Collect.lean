import Latiq.Library.Serde
import Mathlib.Data.List.Induction
import Mathlib.Data.List.Nodup
import Mathlib.Data.List.Perm.Subperm
import Mathlib.Data.String.Basic

/-!
# Entries collected into a map

A map that is ordered by key, from a list of entries: an entry replaces an earlier one with its key.

* `length_collect_iff` — the map has as many entries as the list just where no two of these have one key.
* `collect_perm` — such a list is in the map as it is, in the order of the keys.
* `collect_eq_iff` — two such lists make one map just where they are permutations of each other.
* `Sorted.ext` — two maps are one where they map the same keys to the same values.
-/

namespace Serde

variable {α : Type}

/-- The map that has the entries of a list. -/
def collect (l : List (String × α)) : List (String × α) := l.foldl (fun m e => insert e.1 e.2 m) []

/-- The keys go up. -/
def Sorted (m : List (String × α)) : Prop := m.Pairwise fun e e' => e.1 < e'.1

theorem mem_of_mem_insert {k : String} {v : α} {m : List (String × α)} {e : String × α} (h : e ∈ insert k v m) :
    e = (k, v) ∨ e ∈ m := by
  induction m with
  | nil => exact .inl (List.mem_singleton.1 h)
  | cons e' m ih =>
    obtain ⟨k', v'⟩ := e'
    simp only [insert] at h
    split_ifs at h with heq hlt
    · exact (List.mem_cons.1 h).imp_right (List.mem_cons_of_mem _)
    · exact List.mem_cons.1 h
    · rcases List.mem_cons.1 h with rfl | hmem
      · exact .inr List.mem_cons_self
      · exact (ih hmem).imp_right (List.mem_cons_of_mem _)

theorem Sorted.insert {m : List (String × α)} (h : Sorted m) (k : String) (v : α) : Sorted (insert k v m) := by
  induction m with
  | nil => exact List.pairwise_singleton _ _
  | cons e m ih =>
    obtain ⟨k', v'⟩ := e
    obtain ⟨hhead, htail⟩ := List.pairwise_cons.1 h
    simp only [Serde.insert]
    split_ifs with heq hlt
    · subst heq
      exact List.pairwise_cons.2 ⟨hhead, htail⟩
    · refine List.pairwise_cons.2 ⟨fun e he => ?_, h⟩
      rcases List.mem_cons.1 he with rfl | hmem
      · exact hlt
      · exact hlt.trans (hhead e hmem)
    · refine List.pairwise_cons.2 ⟨fun e he => ?_, ih htail⟩
      rcases mem_of_mem_insert he with rfl | hmem
      · exact lt_of_le_of_ne (not_lt.1 hlt) (Ne.symm heq)
      · exact hhead e hmem

theorem Sorted.nodup {m : List (String × α)} (h : Sorted m) : (m.map Prod.fst).Nodup :=
  List.pairwise_map.2 (h.imp fun hlt => hlt.ne)

/-- An entry with a new key is put beside the others. -/
theorem insert_perm {k : String} {m : List (String × α)} (h : k ∉ m.map Prod.fst) (v : α) :
    (insert k v m).Perm ((k, v) :: m) := by
  induction m with
  | nil => exact .refl _
  | cons e m ih =>
    obtain ⟨k', v'⟩ := e
    rw [List.map_cons, List.mem_cons, not_or] at h
    simp only [insert, if_neg h.1]
    split_ifs with hlt
    · exact .refl _
    · exact ((ih h.2).cons _).trans (.swap _ _ _)

/-! ### A whole list -/

theorem collect_append (l : List (String × α)) (k : String) (v : α) :
    collect (l ++ [(k, v)]) = insert k v (collect l) := List.foldl_append

theorem sorted_collect (l : List (String × α)) : Sorted (collect l) := by
  induction l using List.reverseRecOn with
  | nil => exact List.Pairwise.nil
  | append_singleton l e ih =>
    rw [collect_append]
    exact ih.insert e.1 e.2

theorem collect_subset (l : List (String × α)) : collect l ⊆ l := by
  induction l using List.reverseRecOn with
  | nil => exact List.Subset.refl _
  | append_singleton l e ih =>
    intro e' he'
    rw [collect_append] at he'
    rcases mem_of_mem_insert he' with rfl | hmem
    · exact List.mem_append_right _ (List.mem_singleton_self _)
    · exact List.mem_append_left _ (ih hmem)

/-- **No entry is replaced** where no two entries have one key. -/
theorem collect_perm {l : List (String × α)} (h : (l.map Prod.fst).Nodup) : (collect l).Perm l := by
  induction l using List.reverseRecOn with
  | nil => exact .refl _
  | append_singleton l e ih =>
    rw [List.map_append, List.nodup_append] at h
    have hnew : e.1 ∉ (collect l).map Prod.fst := fun hmem =>
      h.2.2 e.1 (List.map_subset _ (collect_subset l) hmem) e.1 List.mem_cons_self rfl
    rw [collect_append]
    exact ((insert_perm hnew e.2).trans ((ih h.1).cons e)).trans (List.perm_append_singleton e l).symm

/-- **The map has as many entries as the list** just where no two of these have one key. -/
theorem length_collect_iff (l : List (String × α)) : (collect l).length = l.length ↔ (l.map Prod.fst).Nodup := by
  refine ⟨fun h => ?_, fun h => (collect_perm h).length_eq⟩
  -- the keys of the map, which are different, are among as many keys
  have hsub := List.subperm_of_subset (sorted_collect l).nodup (List.map_subset _ (collect_subset l))
  have hperm := hsub.perm_of_length_le (by rw [List.length_map, List.length_map, h])
  exact hperm.nodup_iff.1 (sorted_collect l).nodup

theorem lookup_eq_some_of_mem {l : List (String × α)} (h : (l.map Prod.fst).Nodup) {k : String} {v : α}
    (hmem : (k, v) ∈ l) : l.lookup k = some v := by
  induction l with
  | nil => cases hmem
  | cons e l ih =>
    obtain ⟨k', v'⟩ := e
    rw [List.map_cons, List.nodup_cons] at h
    rw [lookup_cons_ite]
    rcases List.mem_cons.1 hmem with heq | htail
    · cases heq
      exact if_pos rfl
    · have hne : k ≠ k' := by
        rintro rfl
        exact h.1 (List.mem_map.2 ⟨_, htail, rfl⟩)
      rw [if_neg hne, ih h.2 htail]

theorem lookup_collect {l : List (String × α)} (h : (l.map Prod.fst).Nodup) {k : String} {v : α} (hmem : (k, v) ∈ l) :
    (collect l).lookup k = some v :=
  lookup_eq_some_of_mem (sorted_collect l).nodup ((collect_perm h).mem_iff.2 hmem)

/-- **Two lists make one map** just where they are permutations of each other. -/
theorem collect_eq_iff {l l' : List (String × α)} (h : (l.map Prod.fst).Nodup) (h' : (l'.map Prod.fst).Nodup) :
    collect l = collect l' ↔ l.Perm l' := by
  constructor
  · intro heq
    have hperm := collect_perm h
    rw [heq] at hperm
    exact hperm.symm.trans (collect_perm h')
  · intro hperm
    have hmaps := ((collect_perm h).trans hperm).trans (collect_perm h').symm
    exact hmaps.eq_of_pairwise (fun _ _ _ _ hlt hgt => absurd hgt hlt.asymm) (sorted_collect l) (sorted_collect l')

/-- Of two lists with as many entries, one has those of the other. -/
theorem perm_iff_subset {l l' : List (String × α)} (h : (l.map Prod.fst).Nodup) :
    l.Perm l' ↔ l.length = l'.length ∧ l ⊆ l' := by
  refine ⟨fun hperm => ⟨hperm.length_eq, hperm.subset⟩, fun ⟨hlen, hsub⟩ => ?_⟩
  exact (List.subperm_of_subset (h.of_map _) hsub).perm_of_length_le hlen.ge

/-- With the same keys in the same order, they are the same. -/
theorem eq_of_perm {l l' : List (String × α)} (h : (l.map Prod.fst).Nodup) (hkeys : l.map Prod.fst = l'.map Prod.fst)
    (hperm : l.Perm l') : l = l' := by
  induction l generalizing l' with
  | nil => exact (List.nil_perm.1 hperm).symm
  | cons e l ih =>
    obtain ⟨k, v⟩ := e
    cases l' with
    | nil => cases hkeys
    | cons e' l' =>
      obtain ⟨k', v'⟩ := e'
      obtain ⟨rfl, htail⟩ := List.cons.inj hkeys
      rw [List.map_cons, List.nodup_cons] at h
      have hv : v = v' := by
        rcases List.mem_cons.1 (hperm.mem_iff.1 List.mem_cons_self) with heq | hmem
        · exact (Prod.mk.inj heq).2
        · have hkey : k ∈ l'.map Prod.fst := List.mem_map_of_mem (f := Prod.fst) hmem
          exact absurd (htail ▸ hkey) h.1
      subst hv
      rw [ih h.2 htail hperm.cons_inv]

theorem mem_of_lookup {m : List (String × α)} {k : String} {v : α} (h : m.lookup k = some v) : (k, v) ∈ m := by
  obtain ⟨l, r, rfl, -⟩ := List.lookup_eq_some_iff.1 h
  exact List.mem_append_right _ List.mem_cons_self

/-- An entry of a map is looked up. -/
theorem Sorted.mem_iff {m : List (String × α)} (h : Sorted m) {k : String} {v : α} :
    (k, v) ∈ m ↔ m.lookup k = some v := ⟨lookup_eq_some_of_mem h.nodup, mem_of_lookup⟩

/-- **Two maps are one** where they map the same keys to the same values. -/
theorem Sorted.ext {m m' : List (String × α)} (h : Sorted m) (h' : Sorted m') (heq : ∀ k, m.lookup k = m'.lookup k) :
    m = m' := by
  have hperm : m.Perm m' := by
    refine (List.perm_ext_iff_of_nodup (h.nodup.of_map _) (h'.nodup.of_map _)).2 fun e => ?_
    rw [h.mem_iff, h'.mem_iff, heq]
  exact hperm.eq_of_pairwise (fun _ _ _ _ hlt hgt => absurd hgt hlt.asymm) h h'

end Serde
