import Latiq.Library.Serde

/-!
# The objects in a JSON value

* `objects` — all objects in a value, each before those in it.
* `Within` — a value is somewhere in another; `mem_objects` says that `objects` has them all.
-/

namespace Serde

mutual

/-- The objects in a value, from the outside in. -/
def objects : Value → List (List (String × Value))
  | .obj m => m :: memberObjects m
  | .arr items => itemObjects items
  | _ => []

/-- The objects in the members of an object. -/
def memberObjects : List (String × Value) → List (List (String × Value))
  | [] => []
  | (_, v) :: m => objects v ++ memberObjects m

/-- The objects in the items of an array. -/
def itemObjects : List Value → List (List (String × Value))
  | [] => []
  | v :: items => objects v ++ itemObjects items

end

/-- A value is in another. -/
inductive Within (root : Value) : Value → Prop
  /-- The value itself. -/
  | root : Within root root
  /-- A member of an object. -/
  | member {m : List (String × Value)} {e : String × Value} (h : Within root (.obj m)) (he : e ∈ m) : Within root e.2
  /-- An item of an array. -/
  | item {items : List Value} {v : Value} (h : Within root (.arr items)) (hv : v ∈ items) : Within root v

theorem Within.trans {u v w : Value} (huv : Within u v) (hvw : Within v w) : Within u w := by
  induction hvw with
  | root => exact huv
  | member _ he ih => exact ih.member he
  | item _ hv ih => exact ih.item hv

theorem memberObjects_eq (m : List (String × Value)) : memberObjects m = m.flatMap fun e => objects e.2 := by
  induction m with
  | nil => rfl
  | cons e m ih => rw [memberObjects, ih, List.flatMap_cons]

theorem itemObjects_eq (items : List Value) : itemObjects items = items.flatMap objects := by
  induction items with
  | nil => rfl
  | cons v items ih => rw [itemObjects, ih, List.flatMap_cons]

mutual

theorem within_of_mem_objects : ∀ (v : Value) {m : List (String × Value)}, m ∈ objects v → Within v (.obj m)
  | .obj m', m, h => by
    rcases List.mem_cons.1 h with rfl | hm
    · exact .root
    · obtain ⟨e, he, hw⟩ := within_of_mem_memberObjects m' hm
      exact (Within.root.member he).trans hw
  | .arr items, m, h => by
    obtain ⟨v, hv, hw⟩ := within_of_mem_itemObjects items h
    exact (Within.root.item hv).trans hw
  | .null, _, h | .bool _, _, h | .int _, _, h | .float _, _, h | .str _, _, h => nomatch h

theorem within_of_mem_memberObjects : ∀ (m' : List (String × Value)) {m : List (String × Value)},
    m ∈ memberObjects m' → ∃ e ∈ m', Within e.2 (.obj m)
  | (k, v) :: m', m, h => by
    rcases List.mem_append.1 h with hv | hm
    · exact ⟨(k, v), List.mem_cons_self, within_of_mem_objects v hv⟩
    · obtain ⟨e, he, hw⟩ := within_of_mem_memberObjects m' hm
      exact ⟨e, List.mem_cons_of_mem _ he, hw⟩

theorem within_of_mem_itemObjects : ∀ (items : List Value) {m : List (String × Value)},
    m ∈ itemObjects items → ∃ v ∈ items, Within v (.obj m)
  | v :: items, m, h => by
    rcases List.mem_append.1 h with hv | hm
    · exact ⟨v, List.mem_cons_self, within_of_mem_objects v hv⟩
    · obtain ⟨w, hw, hin⟩ := within_of_mem_itemObjects items hm
      exact ⟨w, List.mem_cons_of_mem _ hw, hin⟩

end

theorem Within.objects_subset {root v : Value} (h : Within root v) : objects v ⊆ objects root := by
  induction h with
  | root => exact List.Subset.refl _
  | member _ he ih =>
    intro m hm
    refine ih (List.mem_cons_of_mem _ ?_)
    rw [memberObjects_eq]
    exact List.mem_flatMap.2 ⟨_, he, hm⟩
  | item _ hv ih =>
    intro m hm
    refine ih ?_
    rw [objects, itemObjects_eq]
    exact List.mem_flatMap.2 ⟨_, hv, hm⟩

/-- **All objects in a value** are listed. -/
theorem mem_objects {v : Value} {m : List (String × Value)} : m ∈ objects v ↔ Within v (.obj m) :=
  ⟨within_of_mem_objects v, fun h => h.objects_subset List.mem_cons_self⟩

end Serde
