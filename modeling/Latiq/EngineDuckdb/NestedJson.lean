import Latiq.EngineDuckdb.ValueJson

/-!
# What the JSON of nested values drops

The values of the types that lists, structs and maps are put together to, and what is left of them in the JSON of
`value_to_json`. A column's values are of its type: a field of a struct has the name that the type gives it, the keys of
a map are of one type, and none of them is `NULL`.

## What is proved

* `json_eq_iff` — two values of a type, which drop nothing themselves, have one JSON just where they are `Alike`.
* `drops_nothing_iff` — nothing is dropped from a value just where no struct of it has two fields of one name, and no map
  of it two keys that are alike (`Apart`), in whatever is nested in its items, its fields, its keys and their values.
-/

namespace Latiq.EngineDuckdb.ValueJson

open RustStr (Text)
open Serde (Value collect)

/-- The types that lists, structs and maps are put together to. -/
inductive NestedType where
  | scalar (kind : Kind)
  | list (item : NestedType)
  | array (item : NestedType)
  | struct (fields : List (String × NestedType))
  | map (key value : NestedType)

mutual

/-- A value of a type, as DuckDB promises it. -/
def HasType : NestedType → DuckValue → Prop
  | .scalar k, v => v = .null ∨ v.kind? = some k
  | .list t, v => v = .null ∨ ∃ items, v = .list items ∧ ∀ i ∈ items, HasType t i
  | .array t, v => v = .null ∨ ∃ items, v = .array items ∧ ∀ i ∈ items, HasType t i
  | .struct ts, v => v = .null ∨ ∃ fields, v = .struct fields ∧ HasTypes ts fields
  | .map k t, v =>
    v = .null ∨ ∃ entries, v = .map entries ∧ ∀ e ∈ entries, e.1 ≠ .null ∧ HasType k e.1 ∧ HasType t e.2

/-- The fields of a struct. -/
def HasTypes : List (String × NestedType) → List (String × DuckValue) → Prop
  | [], fields => fields = []
  | (name, t) :: ts, fields => ∃ v fs, fields = (name, v) :: fs ∧ HasType t v ∧ HasTypes ts fs

end

mutual

/-- Two values of a type that the JSON does not tell apart: `NULL` and `NULL`; values without parts that it does not tell
apart; lists and structs whose parts are alike; and maps with entries that are alike, in whatever order. -/
def Alike : NestedType → DuckValue → DuckValue → Prop
  | .scalar _, v, w => AlikeScalar v w
  | .list t, .list items, .list items' => List.Forall₂ (Alike t) items items'
  | .array t, .array items, .array items' => List.Forall₂ (Alike t) items items'
  | .struct ts, .struct fields, .struct fields' => AlikeFields ts fields fields'
  | .map k t, .map entries, .map entries' =>
    entries.length = entries'.length ∧ ∀ e ∈ entries, ∃ e' ∈ entries', Alike k e.1 e'.1 ∧ Alike t e.2 e'.2
  | _, .null, .null => True
  | _, _, _ => False

def AlikeFields : List (String × NestedType) → List (String × DuckValue) → List (String × DuckValue) → Prop
  | (_, t) :: ts, (_, v) :: fields, (_, w) :: fields' => Alike t v w ∧ AlikeFields ts fields fields'
  | _, _, _ => True

end

mutual

/-- No struct has two fields of one name, and no map two keys that are alike. -/
def Apart : NestedType → DuckValue → Prop
  | .list t, .list items => ∀ i ∈ items, Apart t i
  | .array t, .array items => ∀ i ∈ items, Apart t i
  | .struct ts, .struct fields => (fields.map Prod.fst).Nodup ∧ ApartFields ts fields
  | .map k t, .map entries =>
    (entries.Pairwise fun e e' => ¬Alike k e.1 e'.1) ∧ ∀ e ∈ entries, Apart k e.1 ∧ Apart t e.2
  | _, _ => True

def ApartFields : List (String × NestedType) → List (String × DuckValue) → Prop
  | (_, t) :: ts, (_, v) :: fields => Apart t v ∧ ApartFields ts fields
  | _, _ => True

end

mutual

/-- Nothing of a value is dropped in its JSON: the array has an element for each item, the object an entry for each field
and each entry, and no two keys of a map are one; and so in all that is nested in these, and in the keys. -/
def Kept : NestedType → DuckValue → Value → Prop
  | .list t, .list items, j => ∃ js, j = .arr js ∧ List.Forall₂ (Kept t) items js
  | .array t, .array items, j => ∃ js, j = .arr js ∧ List.Forall₂ (Kept t) items js
  | .struct ts, .struct fields, j => ∃ ms, j = .obj ms ∧ ms.length = fields.length ∧ KeptFields ts fields ms
  | .map k t, .map entries, j =>
    ∃ ms, j = .obj ms ∧ ms.length = entries.length ∧ (entries.map fun e => mapKey e.1).Nodup ∧
      ∀ e ∈ entries, Kept k e.1 (valueToJson e.1) ∧ ∃ w, ms.lookup (mapKey e.1) = some w ∧ Kept t e.2 w
  | _, _, _ => True

def KeptFields : List (String × NestedType) → List (String × DuckValue) → List (String × Value) → Prop
  | (_, t) :: ts, (name, v) :: fields, ms => (∃ w, ms.lookup name = some w ∧ Kept t v w) ∧ KeptFields ts fields ms
  | _, _, _ => True

end

/-! ### Keys -/

theorem HasType.kind?_eq : ∀ {t : NestedType} {v : DuckValue}, HasType t v → v ≠ .null →
    v.kind? = match t with
      | .scalar k => some k
      | _ => none
  | .scalar _, _, h, hne => h.resolve_left hne
  | .list _, _, h, hne => by
    obtain ⟨_, rfl, _⟩ := h.resolve_left hne
    rfl
  | .array _, _, h, hne => by
    obtain ⟨_, rfl, _⟩ := h.resolve_left hne
    rfl
  | .struct _, _, h, hne => by
    obtain ⟨_, rfl, _⟩ := h.resolve_left hne
    rfl
  | .map _ _, _, h, hne => by
    obtain ⟨_, rfl, _⟩ := h.resolve_left hne
    rfl

/-- Values whose key is the text that they are. -/
def IsText (v : DuckValue) : Prop := v.kind? = some .text ∨ v.kind? = some .enum

theorem valueToJson_of_isText {v : DuckValue} (h : IsText v) : valueToJson v = .str (mapKey v).toList := by
  cases v with
  | text s => rfl
  | enum s => rfl
  | _ => rcases h with h | h <;> cases h

theorem mapKey_of_not_isText {v : DuckValue} (h : ¬IsText v) : mapKey v = String.ofList (Json.print (valueToJson v)) := by
  cases v with
  | text s => exact absurd (.inl rfl) h
  | enum s => exact absurd (.inr rfl) h
  | _ => rfl

/-- **Two keys of one type are one text** just where their JSON is one. -/
theorem mapKey_eq_iff {a b : DuckValue} (h : a.kind? = b.kind?) : mapKey a = mapKey b ↔ valueToJson a = valueToJson b := by
  by_cases ha : IsText a
  · have hb : IsText b := by
      unfold IsText
      rwa [← h]
    rw [valueToJson_of_isText ha, valueToJson_of_isText hb, Value.str.injEq, String.toList_inj]
  · have hb : ¬IsText b := by
      unfold IsText
      rwa [← h]
    rw [mapKey_of_not_isText ha, mapKey_of_not_isText hb, String.ofList_inj]
    exact ⟨fun hp => Json.print_inj (written_valueToJson a) (written_valueToJson b) hp, fun hj => hj ▸ rfl⟩

/-! ### Values that are told apart -/

theorem map_eq_iff_forall₂ {α β : Type} {f : α → β} {R : α → α → Prop} {l l' : List α}
    (h : ∀ a ∈ l, ∀ b ∈ l', f a = f b ↔ R a b) : l.map f = l'.map f ↔ List.Forall₂ R l l' := by
  induction l generalizing l' with
  | nil => cases l' <;> simp
  | cons a l ih =>
    cases l' with
    | nil => simp
    | cons b l' =>
      have hhead := h a List.mem_cons_self b List.mem_cons_self
      have htail := ih fun a' ha b' hb => h a' (List.mem_cons_of_mem _ ha) b' (List.mem_cons_of_mem _ hb)
      rw [List.map_cons, List.map_cons, List.cons.injEq, hhead, htail, List.forall₂_cons]

theorem itemsToJson_eq_iff {t : NestedType} {vs ws : List DuckValue}
    (h : ∀ v ∈ vs, ∀ w ∈ ws, valueToJson v = valueToJson w ↔ Alike t v w) :
    Value.arr (itemsToJson vs) = .arr (itemsToJson ws) ↔ List.Forall₂ (Alike t) vs ws := by
  rw [Value.arr.injEq, itemsToJson_eq, itemsToJson_eq]
  exact map_eq_iff_forall₂ h

theorem HasTypes.names : ∀ {ts : List (String × NestedType)} {fields : List (String × DuckValue)},
    HasTypes ts fields → (fieldsToJson fields).map Prod.fst = ts.map Prod.fst
  | [], _, h => by
    subst h
    rfl
  | (_, _) :: _, _, h => by
    obtain ⟨v, fs, rfl, _, hfs⟩ := h
    rw [fieldsToJson, List.map_cons, List.map_cons, hfs.names]

theorem names_fieldsToJson (fields : List (String × DuckValue)) :
    (fieldsToJson fields).map Prod.fst = fields.map Prod.fst := by
  rw [fieldsToJson_eq, List.map_map]
  rfl

theorem keys_entriesToJson (entries : List (DuckValue × DuckValue)) :
    (entriesToJson entries).map Prod.fst = entries.map fun e => mapKey e.1 := by
  rw [entriesToJson_eq, List.map_map]
  rfl

/-- The keys of a map are different texts just where no two of them are alike. -/
theorem nodup_keys_iff {k : NestedType} {entries : List (DuckValue × DuckValue)}
    (hkeys : ∀ e ∈ entries, e.1 ≠ .null ∧ HasType k e.1)
    (h : ∀ e ∈ entries, ∀ e' ∈ entries, valueToJson e.1 = valueToJson e'.1 ↔ Alike k e.1 e'.1) :
    (entries.map fun e => mapKey e.1).Nodup ↔ entries.Pairwise fun e e' => ¬Alike k e.1 e'.1 := by
  rw [List.Nodup, List.pairwise_map]
  refine List.Pairwise.iff_of_mem fun {e e'} he he' => not_congr ?_
  obtain ⟨hne, ht⟩ := hkeys e he
  obtain ⟨hne', ht'⟩ := hkeys e' he'
  rw [mapKey_eq_iff ((ht.kind?_eq hne).trans (ht'.kind?_eq hne').symm), h e he e' he']

/-- Two maps whose keys are different texts. -/
theorem entriesToJson_perm_iff {k t : NestedType} {es es' : List (DuckValue × DuckValue)}
    (hkeys : ∀ e ∈ es, e.1 ≠ .null ∧ HasType k e.1) (hkeys' : ∀ e ∈ es', e.1 ≠ .null ∧ HasType k e.1)
    (hk : ∀ e ∈ es, ∀ e' ∈ es', valueToJson e.1 = valueToJson e'.1 ↔ Alike k e.1 e'.1)
    (ht : ∀ e ∈ es, ∀ e' ∈ es', valueToJson e.2 = valueToJson e'.2 ↔ Alike t e.2 e'.2)
    (hnodup : (es.map fun e => mapKey e.1).Nodup) :
    (entriesToJson es).Perm (entriesToJson es') ↔
      es.length = es'.length ∧ ∀ e ∈ es, ∃ e' ∈ es', Alike k e.1 e'.1 ∧ Alike t e.2 e'.2 := by
  rw [Serde.perm_iff_subset (by rwa [keys_entriesToJson]), entriesToJson_eq, entriesToJson_eq, List.length_map,
    List.length_map]
  refine and_congr_right fun _ => ?_
  have hentry {e e' : DuckValue × DuckValue} (he : e ∈ es) (he' : e' ∈ es') :
      (mapKey e'.1, valueToJson e'.2) = (mapKey e.1, valueToJson e.2) ↔ Alike k e.1 e'.1 ∧ Alike t e.2 e'.2 := by
    obtain ⟨hne, htype⟩ := hkeys e he
    obtain ⟨hne', htype'⟩ := hkeys' e' he'
    rw [Prod.mk.injEq, eq_comm, mapKey_eq_iff ((htype.kind?_eq hne).trans (htype'.kind?_eq hne').symm), hk e he e' he',
      eq_comm, ht e he e' he']
  constructor
  · intro hsub e he
    obtain ⟨e', he', heq⟩ := List.mem_map.1 (hsub (List.mem_map_of_mem he))
    exact ⟨e', he', (hentry he he').1 heq⟩
  · intro h j hj
    obtain ⟨e, he, rfl⟩ := List.mem_map.1 hj
    obtain ⟨e', he', halike⟩ := h e he
    exact List.mem_map.2 ⟨e', he', (hentry he he').2 halike⟩

mutual

/-- **What the JSON of two values tells**: where they drop nothing themselves, it is one just where they are alike. -/
theorem json_eq_iff : ∀ (t : NestedType) {v w : DuckValue}, HasType t v → HasType t w → Apart t v → Apart t w →
    (valueToJson v = valueToJson w ↔ Alike t v w)
  | .scalar _, _, _, hv, hw, _, _ => scalar_eq_iff hv hw
  | .list t, _, _, hv, hw, hav, haw => by
    obtain rfl | ⟨vs, rfl, hvs⟩ := hv <;> obtain rfl | ⟨ws, rfl, hws⟩ := hw
    · exact iff_of_true rfl trivial
    · exact iff_of_false nofun id
    · exact iff_of_false nofun id
    · exact itemsToJson_eq_iff fun i hi i' hi' => json_eq_iff t (hvs i hi) (hws i' hi') (hav i hi) (haw i' hi')
  | .array t, _, _, hv, hw, hav, haw => by
    obtain rfl | ⟨vs, rfl, hvs⟩ := hv <;> obtain rfl | ⟨ws, rfl, hws⟩ := hw
    · exact iff_of_true rfl trivial
    · exact iff_of_false nofun id
    · exact iff_of_false nofun id
    · exact itemsToJson_eq_iff fun i hi i' hi' => json_eq_iff t (hvs i hi) (hws i' hi') (hav i hi) (haw i' hi')
  | .struct ts, _, _, hv, hw, hav, haw => by
    obtain rfl | ⟨vs, rfl, hvs⟩ := hv <;> obtain rfl | ⟨ws, rfl, hws⟩ := hw
    · exact iff_of_true rfl trivial
    · exact iff_of_false nofun id
    · exact iff_of_false nofun id
    · have hnv : ((fieldsToJson vs).map Prod.fst).Nodup := by
        rw [names_fieldsToJson]
        exact hav.1
      have hnw : ((fieldsToJson ws).map Prod.fst).Nodup := by
        rw [names_fieldsToJson]
        exact haw.1
      rw [valueToJson, valueToJson, Value.obj.injEq, Serde.collect_eq_iff hnv hnw]
      refine Iff.trans ?_ (fields_eq_iff ts hvs hws hav.2 haw.2)
      exact ⟨Serde.eq_of_perm hnv (hvs.names.trans hws.names.symm), fun h => h ▸ .refl _⟩
  | .map k t, _, _, hv, hw, hav, haw => by
    obtain rfl | ⟨vs, rfl, hvs⟩ := hv <;> obtain rfl | ⟨ws, rfl, hws⟩ := hw
    · exact iff_of_true rfl trivial
    · exact iff_of_false nofun id
    · exact iff_of_false nofun id
    · have hkv : ∀ e ∈ vs, e.1 ≠ .null ∧ HasType k e.1 := fun e he => ⟨(hvs e he).1, (hvs e he).2.1⟩
      have hkw : ∀ e ∈ ws, e.1 ≠ .null ∧ HasType k e.1 := fun e he => ⟨(hws e he).1, (hws e he).2.1⟩
      have hnv : (vs.map fun e => mapKey e.1).Nodup := (nodup_keys_iff hkv fun e he e' he' =>
        json_eq_iff k (hkv e he).2 (hkv e' he').2 (hav.2 e he).1 (hav.2 e' he').1).2 hav.1
      have hnw : (ws.map fun e => mapKey e.1).Nodup := (nodup_keys_iff hkw fun e he e' he' =>
        json_eq_iff k (hkw e he).2 (hkw e' he').2 (haw.2 e he).1 (haw.2 e' he').1).2 haw.1
      have hperm := entriesToJson_perm_iff (k := k) (t := t) hkv hkw
        (fun e he e' he' => json_eq_iff k (hkv e he).2 (hkw e' he').2 (hav.2 e he).1 (haw.2 e' he').1)
        (fun e he e' he' => json_eq_iff t (hvs e he).2.2 (hws e' he').2.2 (hav.2 e he).2 (haw.2 e' he').2) hnv
      rw [← keys_entriesToJson] at hnv hnw
      rw [valueToJson, valueToJson, Value.obj.injEq, Serde.collect_eq_iff hnv hnw, hperm]
      rfl

theorem fields_eq_iff : ∀ (ts : List (String × NestedType)) {vs ws : List (String × DuckValue)}, HasTypes ts vs →
    HasTypes ts ws → ApartFields ts vs → ApartFields ts ws → (fieldsToJson vs = fieldsToJson ws ↔ AlikeFields ts vs ws)
  | [], _, _, hv, hw, _, _ => by
    subst hv hw
    exact iff_of_true rfl trivial
  | (name, t) :: ts, _, _, hv, hw, hav, haw => by
    obtain ⟨v, vs, rfl, hv, hvs⟩ := hv
    obtain ⟨w, ws, rfl, hw, hws⟩ := hw
    rw [fieldsToJson, fieldsToJson, List.cons.injEq, Prod.mk.injEq, json_eq_iff t hv hw hav.1 haw.1,
      fields_eq_iff ts hvs hws hav.2 haw.2]
    exact and_congr_left fun _ => and_iff_right rfl

end

/-! ### What is kept -/

theorem keptItems_iff {t : NestedType} {items : List DuckValue} :
    (∃ js, Value.arr (itemsToJson items) = .arr js ∧ List.Forall₂ (Kept t) items js) ↔
      ∀ i ∈ items, Kept t i (valueToJson i) := by
  rw [itemsToJson_eq]
  constructor
  · rintro ⟨_, ⟨⟩, h⟩
    exact List.forall₂_same.1 (List.forall₂_map_right_iff.1 h)
  · exact fun h => ⟨_, rfl, List.forall₂_map_right_iff.2 (List.forall₂_same.2 h)⟩

mutual

theorem kept_iff : ∀ (t : NestedType) {v : DuckValue}, HasType t v → (Kept t v (valueToJson v) ↔ Apart t v)
  | .scalar _, _, _ => Iff.rfl
  | .list t, _, hv => by
    obtain rfl | ⟨items, rfl, hitems⟩ := hv
    · exact Iff.rfl
    · exact keptItems_iff.trans (forall₂_congr fun i hi => kept_iff t (hitems i hi))
  | .array t, _, hv => by
    obtain rfl | ⟨items, rfl, hitems⟩ := hv
    · exact Iff.rfl
    · exact keptItems_iff.trans (forall₂_congr fun i hi => kept_iff t (hitems i hi))
  | .struct ts, _, hv => by
    obtain rfl | ⟨fields, rfl, hfields⟩ := hv
    · exact Iff.rfl
    have hlen : (collect (fieldsToJson fields)).length = fields.length ↔ (fields.map Prod.fst).Nodup := by
      rw [← names_fieldsToJson, ← Serde.length_collect_iff, fieldsToJson_eq, List.length_map]
    have hkept (hnodup : (fields.map Prod.fst).Nodup) :
        KeptFields ts fields (collect (fieldsToJson fields)) ↔ ApartFields ts fields := by
      refine keptFields_iff ts hfields fun e he => Serde.lookup_collect (by rwa [names_fieldsToJson]) ?_
      rw [fieldsToJson_eq]
      exact List.mem_map.2 ⟨e, he, rfl⟩
    constructor
    · rintro ⟨_, ⟨⟩, hl, h⟩
      exact ⟨hlen.1 hl, (hkept (hlen.1 hl)).1 h⟩
    · rintro ⟨hnodup, h⟩
      exact ⟨_, rfl, hlen.2 hnodup, (hkept hnodup).2 h⟩
  | .map k t, _, hv => by
    obtain rfl | ⟨entries, rfl, hentries⟩ := hv
    · exact Iff.rfl
    have hkeys : ∀ e ∈ entries, e.1 ≠ .null ∧ HasType k e.1 := fun e he => ⟨(hentries e he).1, (hentries e he).2.1⟩
    have hlen : (collect (entriesToJson entries)).length = entries.length ↔ (entries.map fun e => mapKey e.1).Nodup := by
      rw [← keys_entriesToJson, ← Serde.length_collect_iff, entriesToJson_eq, List.length_map]
    have hfound (hnodup : (entries.map fun e => mapKey e.1).Nodup) {e} (he : e ∈ entries) :
        (collect (entriesToJson entries)).lookup (mapKey e.1) = some (valueToJson e.2) := by
      refine Serde.lookup_collect (by rwa [keys_entriesToJson]) ?_
      rw [entriesToJson_eq]
      exact List.mem_map.2 ⟨e, he, rfl⟩
    have hapart (h : ∀ e ∈ entries, Apart k e.1) := nodup_keys_iff hkeys fun e he e' he' =>
      json_eq_iff k (hkeys e he).2 (hkeys e' he').2 (h e he) (h e' he')
    constructor
    · rintro ⟨_, ⟨⟩, _, hnodup, h⟩
      have hparts : ∀ e ∈ entries, Apart k e.1 ∧ Apart t e.2 := by
        intro e he
        obtain ⟨hkey, w, hw, hkept⟩ := h e he
        rw [hfound hnodup he] at hw
        cases hw
        exact ⟨(kept_iff k (hkeys e he).2).1 hkey, (kept_iff t (hentries e he).2.2).1 hkept⟩
      exact ⟨(hapart fun e he => (hparts e he).1).1 hnodup, hparts⟩
    · rintro ⟨hpair, hparts⟩
      have hnodup := (hapart fun e he => (hparts e he).1).2 hpair
      refine ⟨_, rfl, hlen.2 hnodup, hnodup, fun e he => ⟨?_, _, hfound hnodup he, ?_⟩⟩
      · exact (kept_iff k (hkeys e he).2).2 (hparts e he).1
      · exact (kept_iff t (hentries e he).2.2).2 (hparts e he).2

theorem keptFields_iff : ∀ (ts : List (String × NestedType)) {fields : List (String × DuckValue)}
    {ms : List (String × Value)}, HasTypes ts fields → (∀ e ∈ fields, ms.lookup e.1 = some (valueToJson e.2)) →
      (KeptFields ts fields ms ↔ ApartFields ts fields)
  | [], _, _, h, _ => by
    subst h
    exact Iff.rfl
  | (name, t) :: ts, _, ms, h, hms => by
    obtain ⟨v, fs, rfl, hv, hfs⟩ := h
    have hrest := keptFields_iff ts hfs fun e he => hms e (List.mem_cons_of_mem _ he)
    have hfield := kept_iff t hv
    have hlookup : ms.lookup name = some (valueToJson v) := hms _ List.mem_cons_self
    constructor
    · rintro ⟨⟨w, hw, hkept⟩, htail⟩
      rw [hlookup] at hw
      cases hw
      exact ⟨hfield.1 hkept, hrest.1 htail⟩
    · rintro ⟨hhead, htail⟩
      exact ⟨⟨_, hlookup, hfield.2 hhead⟩, hrest.2 htail⟩

end

/-- **Nothing is dropped** from a value just where no struct of it has two fields of one name, and no map of it two keys
that are alike: both floats without a number, both in one microsecond, or put together of such. -/
theorem drops_nothing_iff {t : NestedType} {v : DuckValue} (h : HasType t v) : Kept t v (valueToJson v) ↔ Apart t v :=
  kept_iff t h

/-- A map with these two keys. -/
def twoKeys (a b : DuckValue) : DuckValue := .map [(a, .boolean true), (b, .boolean false)]

theorem hasType_twoKeys {k : Kind} {a b : DuckValue} (ha : a.kind? = some k) (hb : b.kind? = some k) :
    HasType (.map (.scalar k) (.scalar .boolean)) (twoKeys a b) := by
  have hne {v : DuckValue} (hv : v.kind? = some k) : v ≠ .null := by
    rintro rfl
    cases hv
  refine Or.inr ⟨_, rfl, fun e he => ?_⟩
  rcases List.mem_pair.1 he with rfl | rfl
  · exact ⟨hne ha, Or.inr ha, Or.inr rfl⟩
  · exact ⟨hne hb, Or.inr hb, Or.inr rfl⟩

theorem drops_nothing_of_texts : Kept (.map (.scalar .text) (.scalar .boolean)) (twoKeys (.text "NaN") (.text "null"))
    (valueToJson (twoKeys (.text "NaN") (.text "null"))) := by
  refine (drops_nothing_iff (hasType_twoKeys rfl rfl)).2 ⟨List.pairwise_pair.2 ?_, fun _ _ => ⟨trivial, trivial⟩⟩
  rintro (h | ⟨h, _⟩ | ⟨_, h, _⟩)
  · exact absurd (DuckValue.text.inj h) (by decide)
  · exact h
  · cases h

/-- A map whose keys are NaN and infinity, and one whose keys are two nanoseconds of one microsecond: each has two
entries, and its object one. -/
theorem keys_collapse :
    ¬(∀ (t : NestedType) (v : DuckValue), HasType t v → Kept t v (valueToJson v)) ∧
      (HasType (.map (.scalar .double) (.scalar .boolean)) (twoKeys (.double .nan) (.double (.infinite false))) ∧
        ¬Kept (.map (.scalar .double) (.scalar .boolean)) (twoKeys (.double .nan) (.double (.infinite false)))
          (valueToJson (twoKeys (.double .nan) (.double (.infinite false))))) ∧
      HasType (.map (.scalar (.timestamp .nanosecond)) (.scalar .boolean))
          (twoKeys (.timestamp .nanosecond ⟨1, by decide⟩) (.timestamp .nanosecond ⟨2, by decide⟩)) ∧
        ¬Kept (.map (.scalar (.timestamp .nanosecond)) (.scalar .boolean))
          (twoKeys (.timestamp .nanosecond ⟨1, by decide⟩) (.timestamp .nanosecond ⟨2, by decide⟩))
          (valueToJson (twoKeys (.timestamp .nanosecond ⟨1, by decide⟩) (.timestamp .nanosecond ⟨2, by decide⟩))) := by
  have hfloats : ¬Kept (.map (.scalar .double) (.scalar .boolean)) (twoKeys (.double .nan) (.double (.infinite false)))
      (valueToJson (twoKeys (.double .nan) (.double (.infinite false)))) := by
    rintro ⟨_, ⟨⟩, hlen, _⟩
    exact absurd hlen (by decide +kernel)
  refine ⟨fun h => hfloats (h _ _ (hasType_twoKeys rfl rfl)), ⟨hasType_twoKeys rfl rfl, hfloats⟩,
    hasType_twoKeys rfl rfl, ?_⟩
  rintro ⟨_, ⟨⟩, hlen, _⟩
  exact absurd hlen (by decide +kernel)

end Latiq.EngineDuckdb.ValueJson
