import Latiq.Library.JsonSchema
import Latiq.Mcp.Encode

/-!
# Output schemas

The schema that a tool declares for its answers: the one generated from the type of the answer, without the prose of
the source, and with the `_meta` that the encoder puts into every body.

* `stripDescriptions` — the keyword `description` is left out wherever a schema stands.
* `declareBodyMeta` — the member that `withBodyTraceparent` adds, where the type has none of its name.
* `build` — the two, and the check of the root's type.

## What is proved

* `stripDescriptions_spec` — what is stripped accepts the same values, describes nothing, and declares the members it
  did, one named `description` among them.
* `build_accepts` — a body is accepted by the declared schema as it is sent, where the generated schema accepts the
  value that it was made of.
-/

namespace Latiq.Mcp

open RustStr Serde Latiq.Common JsonSchema

/-- `SCHEMA_MAPS`: keywords whose value is a map from names to schemas. -/
def SCHEMA_MAPS : List String := ["properties", "patternProperties", "dependentSchemas", "$defs", "definitions"]

/-- `SUBSCHEMAS`: keywords whose value is a schema. -/
def SUBSCHEMAS : List String :=
  ["items", "additionalItems", "additionalProperties", "propertyNames", "contains", "not", "if", "then", "else"]

/-- `SCHEMA_LISTS`: keywords whose value is an array of schemas. -/
def SCHEMA_LISTS : List String := ["allOf", "anyOf", "oneOf", "prefixItems"]

mutual

/-- `strip_descriptions`. -/
def stripDescriptions : Members → Members
  | [] => []
  | (key, value) :: rest =>
    if key = "description" then stripDescriptions rest else (key, stripKeyword key value) :: stripDescriptions rest

/-- One keyword, in the loop of `strip_descriptions`. -/
def stripKeyword (key : String) : Value → Value
  | .obj map =>
    if SCHEMA_MAPS.contains key then .obj (stripMap map)
    else if SUBSCHEMAS.contains key then .obj (stripDescriptions map)
    else .obj map
  | .arr list =>
    if SCHEMA_MAPS.contains key then .arr list
    else if SUBSCHEMAS.contains key then .arr list
    else if SCHEMA_LISTS.contains key then .arr (stripList list)
    else .arr list
  | value => value

/-- The values of a map. -/
def stripMap : Members → Members
  | [] => []
  | (name, sub) :: rest => (name, stripSub sub) :: stripMap rest

/-- The items of a list. -/
def stripList : List Value → List Value
  | [] => []
  | sub :: rest => stripSub sub :: stripList rest

/-- A schema in a schema, where it is an object. -/
def stripSub : Value → Value
  | .obj sub => .obj (stripDescriptions sub)
  | sub => sub

end

/-- `declare_body_meta`. -/
def declareBodyMeta (object : Members) : Members :=
  match object.lookup "properties" with
  | some (.obj props) =>
    if (props.lookup BODY_META).isSome then object
    else
      insert "properties"
        (.obj (insert BODY_META
          (.obj [("properties", .obj [("traceparent", .obj [("type", .str "string".toList)])]),
            ("type", .str "object".toList)]) props)) object
  | _ => object

/-- `build`, from the schema that is generated for the type; `none` where it panics. -/
def build (root : Value) : Option Members :=
  match root with
  | .obj o =>
    let object := declareBodyMeta (stripDescriptions o)
    match object.lookup "type" with
    | some (.str t) => if t = "object".toList then some object else none
    | _ => none
  | _ => none

/-! ### Stripping -/

theorem stripMap_eq (m : Members) : stripMap m = m.map fun e => (e.1, stripSub e.2) := by
  induction m with
  | nil => rfl
  | cons e m ih => rw [stripMap, ih, List.map_cons]

theorem stripList_eq (l : List Value) : stripList l = l.map stripSub := by
  induction l with
  | nil => rfl
  | cons v l ih => rw [stripList, ih, List.map_cons]

/-- A keyword is stripped in the schemas that it holds. -/
theorem stripKeyword_eq (key : String) (value : Value) : stripKeyword key value = mapArg stripSub key value := by
  have hmaps : SCHEMA_MAPS = mapKeywords := rfl
  have hsubs : SUBSCHEMAS = schemaKeywords := rfl
  have hlists : SCHEMA_LISTS = listKeywords := rfl
  cases value with
  | obj m =>
    simp only [stripKeyword, mapArg, hmaps, hsubs, List.contains_iff_mem, stripMap_eq, stripSub]
    split_ifs <;> rfl
  | arr l =>
    simp only [stripKeyword, mapArg, hmaps, hsubs, hlists, List.contains_iff_mem, stripList_eq, stripSub]
  | null | bool | int | float | str => simp [stripKeyword, mapArg, stripSub]

theorem stripDescriptions_eq (s : Members) :
    stripDescriptions s =
      (s.filter fun e => e.1 ∉ ["description"]).map fun e => (e.1, mapArg stripSub e.1 e.2) := by
  induction s with
  | nil => rfl
  | cons e s ih =>
    rw [stripDescriptions, ih, stripKeyword_eq, List.filter_cons]
    by_cases h : e.1 = "description" <;> simp [h]

/-- **The stripping rewrites** a schema and the schemas in it. -/
theorem stripSub_rewrites : Rewrites stripSub ["description"] where
  subset := by decide
  obj s := by rw [stripSub, stripDescriptions_eq]
  other v h := by
    cases v with
    | obj s => exact absurd rfl (h s)
    | null | bool | int | float | str | arr => rfl

/-- The names of the members that a schema declares. -/
def declared (s : Members) : List String := (s.mapAt "properties").map Prod.fst

theorem declared_stripDescriptions (s : Members) : declared (stripDescriptions s) = declared s := by
  have hmembers := stripSub_rewrites.mapAt_members (k := "properties") (by decide) (by decide) s
  rw [declared, stripDescriptions_eq, ← Rewrites.members, hmembers, List.map_map]
  rfl

theorem lookup_stripDescriptions (s : Members) : (stripDescriptions s).lookup "description" = none := by
  rw [stripDescriptions_eq, List.lookup_eq_none_iff]
  intro e he
  obtain ⟨e', he', rfl⟩ := List.mem_map.1 he
  have hne : e'.1 ≠ "description" := by simpa using (List.mem_filter.1 he').2
  simpa using hne.symm

/-- **What is stripped of a schema is prose.** The document accepts the same values; no schema in it has a
description; and for each schema that was in it there is one that declares the same members, also one named
`description`. -/
theorem stripDescriptions_spec (D : Dialect) (doc : Members) :
    (∀ v, Accepts D (.obj (stripDescriptions doc)) v ↔ Accepts D (.obj doc) v) ∧
      (∀ s, Part (.obj (stripDescriptions doc)) (.obj s) → s.lookup "description" = none) ∧
      ∀ s, Part (.obj doc) (.obj s) →
        ∃ s', Part (.obj (stripDescriptions doc)) (.obj s') ∧ declared s' = declared s := by
  have hpart := stripSub_rewrites.part_iff (by simp [heldBy, mapKeywords, schemaKeywords, listKeywords]) (.obj doc)
  refine ⟨fun v => stripSub_rewrites.accepts_iff (.obj doc) v, fun s hs => ?_, fun s hs => ?_⟩
  · obtain ⟨u, -, hu⟩ := (hpart (.obj s)).1 hs
    cases u with
    | obj s₀ =>
      cases hu
      exact lookup_stripDescriptions s₀
    | null | bool | int | float | str | arr => cases hu
  · exact ⟨stripDescriptions s, (hpart _).2 ⟨.obj s, hs, rfl⟩, declared_stripDescriptions s⟩

/-! ### The member that the encoder adds -/

/-- The schema of the `_meta` that a body gets. -/
def metaStub : Value :=
  .obj [("properties", .obj [("traceparent", .obj [("type", .str "string".toList)])]), ("type", .str "object".toList)]

theorem declareBodyMeta_of_isSome {s : Members} (h : ((s.mapAt "properties").lookup BODY_META).isSome) :
    declareBodyMeta s = s := by
  unfold declareBodyMeta
  split
  · rename_i props hprops
    rw [Members.mapAt, hprops] at h
    rw [if_pos h]
  · rfl

theorem declareBodyMeta_of_none {s props : Members} (hprops : s.lookup "properties" = some (.obj props))
    (h : props.lookup BODY_META = none) : declareBodyMeta s = declare BODY_META metaStub s := by
  have hmap : s.mapAt "properties" = props := by rw [Members.mapAt, hprops]
  rw [declareBodyMeta, declare, hmap]
  simp [hprops, h, metaStub]

/-- The schema of a text. -/
def TextSchema (t : Members) : Prop := ∀ e ∈ t, e = ("type", .str "string".toList) ∨ e.1 ∈ annotations

theorem TextSchema.holds {t : Members} (h : TextSchema t) {D : Dialect} {resolve : List Char → Option Value} (n : ℕ)
    (s : List Char) : holds D resolve (n + 1) (.obj t) (.str s) = true := by
  rw [JsonSchema.holds, List.all_eq_true]
  intro e he
  rcases h e he with rfl | hkey
  · rfl
  · exact keyword_annotation hkey

/-- A reference to the schema of a record that has a text `traceparent`. -/
structure RefersToMeta (doc : Value) (r : Members) : Prop where
  keys : ∀ e ∈ r, e.1 = "$ref" ∨ e.1 ∈ annotations
  target : ∀ arg, ("$ref", arg) ∈ r → ∃ (ref : List Char) (s t : Members), arg = .str ref ∧
    definition doc ref = some (.obj s) ∧ StructSchema s ∧ (s.mapAt "properties").lookup TRACEPARENT_META = some (.obj t) ∧ TextSchema t

/-- A value that such a reference accepts is accepted with a `traceparent`. -/
theorem RefersToMeta.holds_insert {doc : Value} {r : Members} (h : RefersToMeta doc r) {D : Dialect} {n : ℕ}
    {m : Members} (hm : holds D (definition doc) (n + 3) (.obj r) (.obj m) = true) (tp : Text) :
    holds D (definition doc) (n + 3) (.obj r) (.obj (insert TRACEPARENT_META (.str tp) m)) = true := by
  rw [holds, List.all_eq_true] at hm ⊢
  intro e he
  rcases h.keys e he with hkey | hkey
  · obtain ⟨k, arg⟩ := e
    cases hkey
    obtain ⟨ref, s, t, rfl, hdef, hs, ht, htext⟩ := h.target arg he
    have hold : holds D (definition doc) (n + 2) (.obj s) (.obj m) = true := by
      simpa [keyword, hdef] using hm _ he
    simpa [keyword, hdef] using hs.holds_insert ht (htext.holds n tp) hold
  · exact keyword_annotation hkey

/-- What is generated for the type of a response: the schema of a record; a member `_meta` in it refers to a record. -/
structure Generated (o : Members) : Prop where
  keys : StructSchema o
  type : o.lookup "type" = some (.str "object".toList)
  properties : ∃ props, o.lookup "properties" = some (.obj props)
  body_meta : ∀ t, (o.mapAt "properties").lookup BODY_META = some t → ∃ r, t = .obj r ∧ RefersToMeta (.obj o) r

variable {D : Dialect} {o m : Members}

theorem lookup_type_strip (h : Generated o) : (stripDescriptions o).lookup "type" = some (.str "object".toList) := by
  rw [stripDescriptions_eq, ← Rewrites.members, stripSub_rewrites.lookup_members (by decide), h.type]
  rfl

theorem lookup_properties_strip (h : Generated o) :
    ∃ props, (stripDescriptions o).lookup "properties" = some (.obj props) := by
  obtain ⟨props, hprops⟩ := h.properties
  rw [stripDescriptions_eq, ← Rewrites.members, stripSub_rewrites.lookup_members (by decide), hprops]
  exact ⟨_, rfl⟩

theorem structSchema_strip (h : StructSchema o) : StructSchema (stripDescriptions o) := by
  rw [stripDescriptions_eq]
  intro e he
  obtain ⟨e', he', rfl⟩ := List.mem_map.1 he
  exact h e' (List.mem_filter.1 he').1

/-- A member of a value that is accepted is accepted by the schema that is declared for it. -/
theorem holds_member (h : Generated o) {resolve : List Char → Option Value} {n : ℕ}
    (hm : holds D resolve (n + 1) (.obj o) (.obj m) = true) {k : String} {t v : Value}
    (ht : (o.mapAt "properties").lookup k = some t) (hv : m.lookup k = some v) : holds D resolve n t v = true := by
  obtain ⟨props, hprops⟩ := h.properties
  have hall := h.keys.holds_iff.1 hm _ (mem_of_lookup hprops) (by simp [structKeywords])
  simp only [keyword, ofMembers, List.all_eq_true] at hall
  simpa [ht] using hall _ (mem_of_lookup hv)

/-- The body of a response that has a `_meta` of its own is accepted as it is sent. -/
theorem accepts_own_meta (h : Generated o) (hacc : Accepts D (.obj o) (.obj m))
    (hdeclared : ((o.mapAt "properties").lookup BODY_META).isSome) (hm : (m.lookup BODY_META).isSome)
    (scope : Option TraceContext) : Accepts D (.obj o) (withBodyTraceparent scope (.obj m)) := by
  obtain ⟨v, hv⟩ := Option.isSome_iff_exists.1 hm
  obtain ⟨schema, hschema⟩ := Option.isSome_iff_exists.1 hdeclared
  obtain ⟨r, rfl, href⟩ := h.body_meta _ hschema
  cases scope with
  | none => exact hacc
  | some t =>
    cases v with
    | obj meta_ =>
      rw [withBodyTraceparent_of_lookup hv]
      split
      · exact hacc
      · obtain ⟨n, hn⟩ := hacc
        refine ⟨n + 4, fun k hk => ?_⟩
        obtain ⟨j, rfl⟩ : ∃ j, k = j + 4 := ⟨k - 4, by omega⟩
        have hold := hn (j + 4) (by omega)
        exact h.keys.holds_insert hschema (href.holds_insert (holds_member h hold hschema hv) _) hold
    | null | bool | int | float | str | arr =>
      simp only [withBodyTraceparent, hv]
      exact hacc

/-- The body of a response that has no `_meta` of its own is accepted by the schema that declares it. -/
theorem accepts_declared_meta (h : StructSchema o) (hacc : Accepts D (.obj o) (.obj m)) (hm : m.lookup BODY_META = none)
    (scope : Option TraceContext) :
    Accepts D (.obj (declare BODY_META metaStub o)) (withBodyTraceparent scope (.obj m)) := by
  have hdef : definition (.obj (declare BODY_META metaStub o)) = definition (.obj o) := by
    funext ref
    simp only [definition, Value.get?, lookup_declare (j := "$defs") (by decide)]
  obtain ⟨n, hn⟩ := hacc
  refine ⟨n + 4, fun k hk => ?_⟩
  obtain ⟨j, rfl⟩ : ∃ j, k = j + 4 := ⟨k - 4, by omega⟩
  have hold : holds D (definition (.obj o)) (j + 4) (.obj (declare BODY_META metaStub o)) (.obj m) = true :=
    h.holds_declare hm (hn (j + 4) (by omega))
  rw [hdef]
  cases scope with
  | none => exact hold
  | some t =>
    rw [withBodyTraceparent_of_lookup_none hm]
    refine (h.declared BODY_META metaStub).holds_insert (t := metaStub) ?_ ?_ hold
    · rw [mapAt_declare, lookup_insert, if_pos rfl]
    · rfl

/-- **A body is accepted as it is sent**: where the schema that is generated for the type of a response accepts a value,
the schema that the tool declares accepts the body that is made of it, in the scope of a request and outside. The value
has a `_meta` just where its type declares one. -/
theorem build_accepts (h : Generated o) (hacc : Accepts D (.obj o) (.obj m))
    (hm : (m.lookup BODY_META).isSome ↔ ((o.mapAt "properties").lookup BODY_META).isSome)
    (scope : Option TraceContext) :
    ∃ object, build (.obj o) = some object ∧ Accepts D (.obj object) (withBodyTraceparent scope (.obj m)) := by
  obtain ⟨props, hprops⟩ := lookup_properties_strip h
  have hdeclared : ((stripDescriptions o).mapAt "properties").lookup BODY_META =
      ((o.mapAt "properties").lookup BODY_META).map stripSub := by
    rw [stripDescriptions_eq, ← Rewrites.members, stripSub_rewrites.mapAt_members (by decide) (by decide),
      lookup_map fun _ => stripSub]
  by_cases hown : ((o.mapAt "properties").lookup BODY_META).isSome
  · refine ⟨stripDescriptions o, ?_, ?_⟩
    · have hkeep := declareBodyMeta_of_isSome (s := stripDescriptions o) (by rw [hdeclared]; simpa using hown)
      simp [build, hkeep, lookup_type_strip h]
    · exact (stripSub_rewrites.accepts_iff (.obj o) _).2 (accepts_own_meta h hacc hown (hm.2 hown) scope)
  · have hnone : (o.mapAt "properties").lookup BODY_META = none := Option.not_isSome_iff_eq_none.1 hown
    have hprops_none : props.lookup BODY_META = none := by
      rw [hnone, Members.mapAt, hprops] at hdeclared
      exact hdeclared
    have hm_none : m.lookup BODY_META = none := Option.not_isSome_iff_eq_none.1 fun h => hown (hm.1 h)
    refine ⟨declare BODY_META metaStub (stripDescriptions o), ?_, ?_⟩
    · rw [build, declareBodyMeta_of_none hprops hprops_none]
      simp [lookup_declare, lookup_type_strip h]
    · exact accepts_declared_meta (structSchema_strip h.keys) ((stripSub_rewrites.accepts_iff (.obj o) _).2 hacc)
        hm_none scope

/-- What is generated for `DropPondResponse`. -/
def dropPondSchema : Members :=
  [("$schema", .str "https://json-schema.org/draft/2020-12/schema".toList),
    ("description", .str "The one tool whose success carries no data of its own.".toList),
    ("properties",
      .obj [("pond", .obj [("type", .str "string".toList)]), ("status", .obj [("type", .str "string".toList)])]),
    ("required", .arr [.str "status".toList, .str "pond".toList]),
    ("title", .str "DropPondResponse".toList),
    ("type", .str "object".toList)]

theorem generated_dropPondSchema : Generated dropPondSchema where
  keys := by
    unfold StructSchema
    decide
  type := rfl
  properties := ⟨_, rfl⟩
  body_meta := by rintro t ⟨⟩

/-- The dialect whose other keywords only describe. -/
def plainDialect : Dialect := ⟨fun _ _ _ => true, fun _ _ => false, fun _ _ _ _ => rfl⟩

theorem accepts_dropPond : Accepts plainDialect (.obj dropPondSchema)
    (.obj [("pond", .str "p1".toList), ("status", .str "ok".toList)]) := by
  refine ⟨2, fun k hk => ?_⟩
  obtain ⟨j, rfl⟩ : ∃ j, k = j + 2 := ⟨k - 2, by omega⟩
  rfl

/-- The trace of one request. -/
def oneTrace : TraceContext :=
  ⟨"0af7651916cd43dd8448eb211c80319c".toList, "b7ad6b7169203331".toList, true, by decide, by decide⟩

theorem build_accepts_dropPond : ∃ object, build (.obj dropPondSchema) = some object ∧
    Accepts plainDialect (.obj object)
      (withBodyTraceparent (some oneTrace) (.obj [("pond", .str "p1".toList), ("status", .str "ok".toList)])) :=
  build_accepts generated_dropPondSchema accepts_dropPond (by decide) (some oneTrace)

end Latiq.Mcp
