import Mathlib.Data.Int.Notation
import Mathlib.Data.List.Basic

/-!
# Records as JSON values

JSON values, and the way records are written as values and read back, as a derived serializer does it: a
record is an object with a member for each field, and a field may be left out of the object, or out of the
format.

* `Codec` — a writer, a reader, and `kept`: what of a value a reader gets back.
* `Fields` — a codec for the fields of a record, put together from one field at a time; `Fields.codec` is the
  codec of the record.
-/

namespace Serde

/-- A JSON value. A number with a fraction or an exponent is kept as it is written; the members of an object are
listed as the map that holds them lists them. -/
inductive Value where
  | null
  | bool (b : Bool)
  | int (n : ℤ)
  | float (written : String)
  | str (s : List Char)
  | arr (items : List Value)
  | obj (members : List (String × Value))

/-! ### Objects -/

/-- An entry put into a map that is ordered by key, in place of an entry with its key. -/
def insert {α : Type} (k : String) (v : α) : List (String × α) → List (String × α)
  | [] => [(k, v)]
  | (k', v') :: m =>
    if k = k' then (k, v) :: m else if k < k' then (k, v) :: (k', v') :: m else (k', v') :: insert k v m

theorem lookup_cons_ite {α : Type} {k k' : String} {v : α} {m : List (String × α)} :
    List.lookup k' ((k, v) :: m) = if k' = k then some v else m.lookup k' := by
  by_cases h : k' = k
  · simp [h]
  · have hb : (k' == k) = false := beq_false_of_ne h
    simp [List.lookup_cons, h, hb]

theorem lookup_insert {α : Type} (k k' : String) (v : α) (m : List (String × α)) :
    (insert k v m).lookup k' = if k' = k then some v else m.lookup k' := by
  induction m with
  | nil => rw [insert, lookup_cons_ite]
  | cons p m ih =>
    obtain ⟨j, w⟩ := p
    by_cases hkj : k = j
    · subst hkj
      rw [insert, if_pos rfl, lookup_cons_ite, lookup_cons_ite]
      split <;> rfl
    · by_cases hlt : k < j
      · rw [insert, if_neg hkj, if_pos hlt, lookup_cons_ite]
      · rw [insert, if_neg hkj, if_neg hlt, lookup_cons_ite, lookup_cons_ite, ih]
        by_cases h : k' = j
        · have hk : k' ≠ k := fun hk => hkj (hk.symm.trans h)
          rw [if_pos h, if_neg hk, if_pos h]
        · rw [if_neg h, if_neg h]

/-- The values of a map are mapped where they are. -/
theorem map_insert {α β : Type} (f : α → β) (k : String) (v : α) (m : List (String × α)) :
    (insert k v m).map (fun e => (e.1, f e.2)) = insert k (f v) (m.map fun e => (e.1, f e.2)) := by
  induction m with
  | nil => rfl
  | cons e m ih =>
    obtain ⟨j, w⟩ := e
    simp only [insert, List.map_cons]
    split_ifs
    · rfl
    · rfl
    · rw [List.map_cons, ih]

/-- The member of an object. -/
def Value.get? (name : String) : Value → Option Value
  | .obj m => m.lookup name
  | _ => none

/-- The object with these members, without those that are left out. -/
def record : List (String × Option Value) → List (String × Value)
  | [] => []
  | (name, some v) :: fields => insert name v (record fields)
  | (_, none) :: fields => record fields

theorem lookup_record {name : String} {fields : List (String × Option Value)} (h : name ∉ fields.map Prod.fst) :
    (record fields).lookup name = none := by
  induction fields with
  | nil => rfl
  | cons f fields ih =>
    obtain ⟨n, v⟩ := f
    simp only [List.map_cons, List.mem_cons, not_or] at h
    cases v with
    | none => exact ih h.2
    | some v => rw [record, lookup_insert, if_neg h.1, ih h.2]

/-- **A record's members**, where no two fields have one name. -/
theorem get?_record {fields : List (String × Option Value)} (hd : (fields.map Prod.fst).Nodup) {name : String}
    {v : Option Value} (h : (name, v) ∈ fields) : (Value.obj (record fields)).get? name = v := by
  show (record fields).lookup name = v
  induction fields with
  | nil => cases h
  | cons f fields ih =>
    obtain ⟨n, w⟩ := f
    rw [List.map_cons, List.nodup_cons] at hd
    rcases List.mem_cons.1 h with heq | hmem
    · cases heq
      cases v with
      | none =>
        show (record fields).lookup name = none
        exact lookup_record hd.1
      | some v => rw [record, lookup_insert, if_pos rfl]
    · have hne : name ≠ n := by
        rintro rfl
        exact hd.1 (List.mem_map.2 ⟨_, hmem, rfl⟩)
      cases w with
      | none => exact ih hd.2 hmem
      | some w => rw [record, lookup_insert, if_neg hne, ih hd.2 hmem]

/-! ### Codecs -/

/-- A writer and a reader of one type. -/
structure Codec (α : Type) where
  encode : α → Value
  decode : Value → Option α
  /-- What a reader gets back. -/
  kept : α → α
  decode_encode : ∀ a, decode (encode a) = some (kept a)

/-- A value, as it is. -/
def value : Codec Value := ⟨id, some, id, fun _ => rfl⟩

/-- A text. -/
def text : Codec (List Char) where
  encode := .str
  decode
    | .str s => some s
    | _ => none
  kept := id
  decode_encode _ := rfl

def bool : Codec Bool where
  encode := .bool
  decode
    | .bool b => some b
    | _ => none
  kept := id
  decode_encode _ := rfl

/-- An unsigned number. -/
def unsigned : Codec ℕ where
  encode n := .int n
  decode
    | .int (.ofNat n) => some n
    | _ => none
  kept := id
  decode_encode _ := rfl

/-- A signed number. -/
def signed : Codec ℤ where
  encode := .int
  decode
    | .int n => some n
    | _ => none
  kept := id
  decode_encode _ := rfl

/-- An enumeration without data, by the names of its values. -/
def named {α : Type} (asStr : α → String) (all : List α)
    (h : ∀ a, all.find? (fun b => asStr b == asStr a) = some a) : Codec α where
  encode a := .str (asStr a).toList
  decode
    | .str s => all.find? fun b => asStr b == String.ofList s
    | _ => none
  kept := id
  decode_encode a := by simpa using h a

theorem text_ne_null (s : List Char) : text.encode s ≠ .null := nofun

theorem signed_ne_null (n : ℤ) : signed.encode n ≠ .null := nofun

@[simp] theorem value_kept : value.kept = id := rfl

@[simp] theorem text_kept : text.kept = id := rfl

@[simp] theorem bool_kept : bool.kept = id := rfl

@[simp] theorem unsigned_kept : unsigned.kept = id := rfl

@[simp] theorem signed_kept : signed.kept = id := rfl

@[simp] theorem named_kept {α : Type} {asStr : α → String} {all : List α}
    (h : ∀ a, all.find? (fun b => asStr b == asStr a) = some a) : (named asStr all h).kept = id := rfl

section

variable {α β : Type} (c : Codec α) (d : Codec β)

theorem mapM_encode (l : List α) : (l.map c.encode).mapM c.decode = some (l.map c.kept) := by
  induction l with
  | nil => rfl
  | cons a l ih => simp [List.mapM_cons, c.decode_encode, ih]

/-- A list, as an array. -/
def list : Codec (List α) where
  encode l := .arr (l.map c.encode)
  decode
    | .arr items => items.mapM c.decode
    | _ => none
  kept := List.map c.kept
  decode_encode := mapM_encode c

/-- A pair, as an array of two. -/
def pair : Codec (α × β) where
  encode p := .arr [c.encode p.1, d.encode p.2]
  decode
    | .arr [v, w] => (c.decode v).bind fun a => (d.decode w).map fun b => (a, b)
    | _ => none
  kept p := (c.kept p.1, d.kept p.2)
  decode_encode p := by simp [c.decode_encode, d.decode_encode]

/-- An optional value, as the value or `null`. -/
def option (h : ∀ a, c.encode a ≠ .null) : Codec (Option α) where
  encode
    | none => .null
    | some a => c.encode a
  decode
    | .null => some none
    | v => (c.decode v).map some
  kept := Option.map c.kept
  decode_encode
    | none => rfl
    | some a => by
      have hne := h a
      have hd := c.decode_encode a
      cases hv : c.encode a <;> simp_all

/-- One entry of a map. -/
def decodeEntry (m : String × Value) : Option (String × α) := (c.decode m.2).map fun a => (m.1, a)

/-- A map, by its entries, as an object. -/
def map : Codec (List (String × α)) where
  encode l := .obj (l.map fun e => (e.1, c.encode e.2))
  decode
    | .obj m => m.mapM (decodeEntry c)
    | _ => none
  kept := List.map fun e => (e.1, c.kept e.2)
  decode_encode l := by
    show (l.map fun e => (e.1, c.encode e.2)).mapM (decodeEntry c) = _
    induction l with
    | nil => rfl
    | cons e l ih => simp [List.mapM_cons, decodeEntry, c.decode_encode, ih]

@[simp] theorem list_kept : (list c).kept = List.map c.kept := rfl

@[simp] theorem pair_kept : (pair c d).kept = Prod.map c.kept d.kept := rfl

@[simp] theorem option_kept (h : ∀ a, c.encode a ≠ .null) : (option c h).kept = Option.map c.kept := rfl

@[simp] theorem map_kept : (map c).kept = List.map fun e => (e.1, c.kept e.2) := rfl

end

/-! ### The fields of a record -/

/-- Fields of a record: the members that are written for them, and how they are read from an object. -/
structure Fields (α : Type) where
  names : List String
  put : α → List (String × Option Value)
  take : Value → Option α
  /-- What a reader gets back. -/
  kept : α → α
  names_put : ∀ a, (put a).map Prod.fst = names
  take_put : ∀ a v, (∀ f ∈ put a, v.get? f.1 = f.2) → take v = some (kept a)

namespace Fields

section

variable {α : Type} (name : String) (c : Codec α)

/-- A field that is always written, and has to be there. -/
def required : Fields α where
  names := [name]
  put a := [(name, some (c.encode a))]
  take v := (v.get? name).bind c.decode
  kept := c.kept
  names_put _ := rfl
  take_put a v h := by
    have hv := h _ (List.mem_singleton_self _)
    simp [hv, c.decode_encode]

/-- A field with a default, that is left out where it says so. -/
def defaulted (dflt : α) (skip : α → Bool) (h : ∀ a, skip a = true → dflt = c.kept a) : Fields α where
  names := [name]
  put a := [(name, if skip a then none else some (c.encode a))]
  take v :=
    match v.get? name with
    | none => some dflt
    | some w => c.decode w
  kept := c.kept
  names_put _ := rfl
  take_put a v hv := by
    have hv := hv _ (List.mem_singleton_self _)
    by_cases hs : skip a = true
    · simp [hv, hs, ← h a hs]
    · simp [hv, hs, c.decode_encode]

/-- A field of an optional value, that is left out where there is none. -/
def optional (h : ∀ a, c.encode a ≠ .null) : Fields (Option α) :=
  defaulted name (option c h) none Option.isNone fun a ha => by
    rw [Option.isNone_iff_eq_none.1 ha]
    rfl

/-- A field with a default, that is always written. -/
def orDefault (dflt : α) : Fields α := defaulted name c dflt (fun _ => false) nofun

/-- A field that is not written. -/
def skipped (dflt : α) : Fields α where
  names := []
  put _ := []
  take _ := some dflt
  kept _ := dflt
  names_put _ := rfl
  take_put _ _ _ := rfl

@[simp] theorem required_kept : (required name c).kept = c.kept := rfl

@[simp] theorem defaulted_kept {dflt : α} {skip : α → Bool} (h : ∀ a, skip a = true → dflt = c.kept a) :
    (defaulted name c dflt skip h).kept = c.kept := rfl

@[simp] theorem optional_kept (h : ∀ a, c.encode a ≠ .null) : (optional name c h).kept = Option.map c.kept := rfl

@[simp] theorem orDefault_kept (dflt : α) : (orDefault name c dflt).kept = c.kept := rfl

@[simp] theorem skipped_kept (dflt : α) : (skipped dflt).kept = fun _ => dflt := rfl

end

section

variable {α β : Type}

/-- These fields, and those. -/
def also (f : Fields α) (g : Fields β) : Fields (α × β) where
  names := f.names ++ g.names
  put p := f.put p.1 ++ g.put p.2
  take v := (f.take v).bind fun a => (g.take v).map fun b => (a, b)
  kept p := (f.kept p.1, g.kept p.2)
  names_put p := by rw [List.map_append, f.names_put, g.names_put]
  take_put p v h := by
    have hf := f.take_put p.1 v fun m hm => h m (List.mem_append_left _ hm)
    have hg := g.take_put p.2 v fun m hm => h m (List.mem_append_right _ hm)
    simp [hf, hg]

/-- The fields of a record, from the fields of its parts. -/
def of (parts : α → β) (make : β → α) (f : Fields β) : Fields α where
  names := f.names
  put a := f.put (parts a)
  take v := (f.take v).map make
  kept a := make (f.kept (parts a))
  names_put a := f.names_put (parts a)
  take_put a v h := by simp [f.take_put (parts a) v h]

@[simp] theorem also_kept (f : Fields α) (g : Fields β) : (f.also g).kept = Prod.map f.kept g.kept := rfl

@[simp] theorem of_kept (parts : α → β) (make : β → α) (f : Fields β) :
    (f.of parts make).kept = fun a => make (f.kept (parts a)) := rfl

/-- The codec of a record whose fields have different names. -/
def codec (f : Fields α) (h : f.names.Nodup) : Codec α where
  encode a := .obj (record (f.put a))
  decode
    | .obj m => f.take (.obj m)
    | _ => none
  kept := f.kept
  decode_encode a := f.take_put a _ fun _ hm => get?_record (by rw [f.names_put]; exact h) hm

theorem codec_ne_null (f : Fields α) (h : f.names.Nodup) (a : α) : (f.codec h).encode a ≠ .null := nofun

@[simp] theorem codec_kept (f : Fields α) (h : f.names.Nodup) : (f.codec h).kept = f.kept := rfl

end

end Fields

end Serde
