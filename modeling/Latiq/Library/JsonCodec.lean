import Latiq.Library.Collect
import Latiq.Library.Json

/-!
# Records as JSON texts

A record through its codec and through a text: what is printed of it is read back as its value, as long as the
numbers in it are written as numbers.

* `Codec.Writes`, `Fields.Writes` — a codec, or the fields of a record, that write such values only; there is a lemma
  for each way in which codecs are put together.
* **`Codec.read_print`** — what is kept of a value is read back from its text.
* `Fields.encode_eq_insert` — a record with one member more.
-/

namespace Serde

theorem sorted_record (fields : List (String × Option Value)) : Sorted (record fields) := by
  induction fields with
  | nil => exact List.Pairwise.nil
  | cons f fields ih =>
    obtain ⟨name, _ | v⟩ := f
    · exact ih
    · exact Sorted.insert ih name v

/-- A member of a record is one of its fields. -/
theorem mem_of_mem_record {fields : List (String × Option Value)} {e : String × Value} (h : e ∈ record fields) :
    (e.1, some e.2) ∈ fields := by
  induction fields with
  | nil => cases h
  | cons f fields ih =>
    obtain ⟨name, _ | v⟩ := f
    · exact List.mem_cons_of_mem _ (ih h)
    · rcases mem_of_mem_insert h with rfl | hmem
      · exact List.mem_cons_self
      · exact List.mem_cons_of_mem _ (ih hmem)

theorem written_obj {m : List (String × Value)} : Json.Written (.obj m) ↔ ∀ e ∈ m, Json.Written e.2 := by
  show Json.WrittenMembers m ↔ _
  induction m with
  | nil => exact ⟨fun _ => nofun, fun _ => trivial⟩
  | cons e m ih => rw [Json.WrittenMembers, ih, List.forall_mem_cons]

theorem written_arr {l : List Value} : Json.Written (.arr l) ↔ ∀ v ∈ l, Json.Written v := by
  show Json.WrittenItems l ↔ _
  induction l with
  | nil => exact ⟨fun _ => nofun, fun _ => trivial⟩
  | cons v l ih => rw [Json.WrittenItems, ih, List.forall_mem_cons]

theorem written_insert {k : String} {v : Value} {m : List (String × Value)} (hv : Json.Written v)
    (hm : Json.Written (.obj m)) : Json.Written (.obj (insert k v m)) := by
  rw [written_obj] at hm ⊢
  intro e he
  rcases mem_of_mem_insert he with rfl | hmem
  · exact hv
  · exact hm e hmem

/-! ### Codecs that write -/

/-- A codec whose values can be printed. -/
def Codec.Writes {α : Type} (c : Codec α) : Prop := ∀ a, Json.Written (c.encode a)

/-- The fields of a record whose values can be printed. -/
def Fields.Writes {α : Type} (f : Fields α) : Prop := ∀ a, ∀ e ∈ f.put a, ∀ v, e.2 = some v → Json.Written v

theorem writes_text : text.Writes := fun _ => trivial

theorem writes_bool : bool.Writes := fun _ => trivial

theorem writes_unsigned : unsigned.Writes := fun _ => trivial

theorem writes_signed : signed.Writes := fun _ => trivial

theorem writes_named {α : Type} {asStr : α → String} {all : List α}
    (h : ∀ a, all.find? (fun b => asStr b == asStr a) = some a) : (named asStr all h).Writes := fun _ => trivial

section

variable {α β : Type} {c : Codec α}

theorem writes_list (h : c.Writes) : (list c).Writes := by
  intro l
  refine written_arr.2 fun v hv => ?_
  obtain ⟨a, -, rfl⟩ := List.mem_map.1 hv
  exact h a

theorem writes_option {hne : ∀ a, c.encode a ≠ .null} (h : c.Writes) : (option c hne).Writes := by
  intro o
  cases o with
  | none => trivial
  | some a => exact h a

theorem writes_map (h : c.Writes) : (map c).Writes := by
  intro l
  refine written_obj.2 fun e he => ?_
  obtain ⟨e', -, rfl⟩ := List.mem_map.1 he
  exact h e'.2

theorem Fields.writes_required (name : String) (h : c.Writes) : (required name c).Writes := by
  rintro a e he v hv
  rw [List.mem_singleton.1 he] at hv
  cases hv
  exact h a

theorem Fields.writes_defaulted (name : String) {dflt : α} {skip : α → Bool}
    {hskip : ∀ a, skip a = true → dflt = c.kept a} (h : c.Writes) : (defaulted name c dflt skip hskip).Writes := by
  rintro a e he v hv
  rw [List.mem_singleton.1 he] at hv
  simp only at hv
  split at hv
  · cases hv
  · cases hv
    exact h a

theorem Fields.writes_optional (name : String) {hne : ∀ a, c.encode a ≠ .null} (h : c.Writes) :
    (optional name c hne).Writes := writes_defaulted name (writes_option h)

theorem Fields.writes_orDefault (name : String) (dflt : α) (h : c.Writes) : (orDefault name c dflt).Writes :=
  writes_defaulted name h

theorem Fields.writes_skipped (dflt : α) : (skipped dflt).Writes := fun _ _ he => nomatch he

theorem Fields.Writes.also {f : Fields α} {g : Fields β} (hf : f.Writes) (hg : g.Writes) : (f.also g).Writes :=
  fun p e he => (List.mem_append.1 he).elim (hf p.1 e) (hg p.2 e)

theorem Fields.Writes.of {f : Fields β} (hf : f.Writes) (parts : α → β) (make : β → α) : (f.of parts make).Writes :=
  fun a => hf (parts a)

theorem Fields.Writes.codec {f : Fields α} (hf : f.Writes) (h : f.names.Nodup) : (f.codec h).Writes := fun a =>
  written_obj.2 fun _ he => hf a _ (mem_of_mem_record he) _ rfl

/-- **What is kept of a value** is read back from its text. -/
theorem Codec.read_print (h : c.Writes) (a : α) :
    (Json.read (Json.print (c.encode a))).bind c.decode = some (c.kept a) := by
  rw [Json.read_print (h a), Option.bind_some, c.decode_encode]

/-! ### One member more -/

/-- **A member put into a record** makes the record that has it, where it had none of its name. -/
theorem Fields.encode_eq_insert {f : Fields α} {h : f.names.Nodup} {a b : α} {k : String} {v : Value}
    (hk : (k, some v) ∈ f.put b) (hother : ∀ e ∈ f.put b, e.1 ≠ k → e ∈ f.put a) :
    (f.codec h).encode b = .obj (insert k v (record (f.put a))) := by
  have hnames (a : α) : ((f.put a).map Prod.fst).Nodup := by
    rw [f.names_put]
    exact h
  show Value.obj (record (f.put b)) = _
  congr 1
  refine Sorted.ext (sorted_record _) (Sorted.insert (sorted_record _) k v) fun j => ?_
  rw [lookup_insert]
  split
  · rename_i hj
    subst hj
    exact get?_record (hnames b) hk
  · rename_i hj
    by_cases hmem : j ∈ f.names
    · rw [← f.names_put b, List.mem_map] at hmem
      obtain ⟨e, he, rfl⟩ := hmem
      exact (get?_record (hnames b) he).trans (get?_record (hnames a) (hother e he hj)).symm
    · rw [lookup_record (by rwa [f.names_put]), lookup_record (by rwa [f.names_put])]

end

end Serde
