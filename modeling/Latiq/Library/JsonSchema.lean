import Latiq.Library.Collect

/-!
# JSON Schema

What a schema of draft 2020-12 accepts. A schema is itself a JSON value: an object whose members are keywords, or a
boolean. A keyword either holds schemas, and is interpreted here, or it holds none (`format`, `minimum`, `enum`), and
is interpreted by a `Dialect`; a keyword that only describes accepts every value.

* `keyword` — one keyword of a schema, with what is accepted by the schemas in it.
* `holds` — a schema, with a fuel: a schema may refer to itself.
* `Accepts` — a value is accepted from some fuel on.
* `Rewrites` — a rewriting of a schema and of the schemas in it; **`Rewrites.holds_eq`** says that it accepts the same.
* `StructSchema` — the schema of a record; `StructSchema.holds_insert` adds a member to what it accepts, and
  `StructSchema.holds_declare` adds a member to what it declares.
-/

namespace JsonSchema

open Serde (Value)

abbrev Members := List (String × Value)

/-- The keywords that describe. -/
def annotations : List String :=
  ["$schema", "$id", "$comment", "title", "description", "default", "examples", "deprecated", "readOnly", "writeOnly"]

/-- The keywords that hold no schemas, and the patterns. -/
structure Dialect where
  asserts : String → Value → Value → Bool
  /-- A pattern, and the name of a member. -/
  fits : String → String → Bool
  asserts_annotation : ∀ k ∈ annotations, ∀ arg v, asserts k arg v = true

/-- The name of a type. -/
def isOfType (v : Value) (name : List Char) : Bool :=
  match v with
  | .null => name = "null".toList
  | .bool _ => name = "boolean".toList
  | .int _ => name = "integer".toList || name = "number".toList
  | .float _ => name = "number".toList
  | .str _ => name = "string".toList
  | .arr _ => name = "array".toList
  | .obj _ => name = "object".toList

/-- The members that a keyword maps names to. -/
def Members.mapAt (s : Members) (k : String) : Members :=
  match s.lookup k with
  | some (.obj m) => m
  | _ => []

/-- How many items the schemas in front take. -/
def Members.prefixLength (s : Members) : ℕ :=
  match s.lookup "prefixItems" with
  | some (.arr l) => l.length
  | _ => 0

/-- A bound, where it is written as a number. -/
def Members.bound (s : Members) (k : String) : Option ℤ :=
  match s.lookup k with
  | some (.int n) => some n
  | _ => none

section

variable (D : Dialect) (resolve : List Char → Option Value) (accepts : Value → Value → Bool)

/-- All schemas of a list. -/
def ofList (arg : Value) (f : List Value → Bool) : Bool :=
  match arg with
  | .arr l => f l
  | _ => false

/-- A keyword about the members of an object. -/
def ofMembers (v : Value) (f : Members → Bool) : Bool :=
  match v with
  | .obj m => f m
  | _ => true

/-- A keyword about the items of an array. -/
def ofItems (v : Value) (f : List Value → Bool) : Bool :=
  match v with
  | .arr l => f l
  | _ => true

/-- How often a schema has to be matched by the items of an array. -/
def countFits (s : Members) (n : ℕ) : Bool :=
  decide ((s.bound "minContains").getD 1 ≤ n) && ((s.bound "maxContains").map fun m => decide (↑n ≤ m)).getD true

/-- One keyword of the schema `s`, on a value. -/
def keyword (s : Members) (k : String) (arg v : Value) : Bool :=
  match k with
  | "type" =>
    match arg with
    | .str name => isOfType v name
    | .arr names => names.any fun
      | .str name => isOfType v name
      | _ => false
    | _ => false
  | "required" =>
    ofMembers v fun m => ofList arg fun names => names.all fun
      | .str name => (m.lookup (String.ofList name)).isSome
      | _ => false
  | "$ref" =>
    match arg with
    | .str r => ((resolve r).map fun t => accepts t v).getD false
    | _ => false
  | "$defs" | "definitions" | "then" | "else" | "additionalItems" | "minContains" | "maxContains" => true
  | "properties" => ofMembers v fun m => m.all fun e => ((s.mapAt k).lookup e.1).all fun t => accepts t e.2
  | "patternProperties" =>
    ofMembers v fun m => m.all fun e => (s.mapAt k).all fun p => !D.fits p.1 e.1 || accepts p.2 e.2
  | "additionalProperties" =>
    ofMembers v fun m => m.all fun e =>
      ((s.mapAt "properties").lookup e.1).isSome || (s.mapAt "patternProperties").any (fun p => D.fits p.1 e.1) ||
        accepts arg e.2
  | "propertyNames" => ofMembers v fun m => m.all fun e => accepts arg (.str e.1.toList)
  | "dependentSchemas" => ofMembers v fun m => (s.mapAt k).all fun p => (m.lookup p.1).isNone || accepts p.2 v
  | "prefixItems" => ofItems v fun l => ofList arg fun ts => (ts.zip l).all fun p => accepts p.1 p.2
  | "items" => ofItems v fun l => (l.drop s.prefixLength).all (accepts arg)
  | "contains" => ofItems v fun l => countFits s (l.countP (accepts arg))
  | "not" => !accepts arg v
  | "if" => if accepts arg v then (s.lookup "then").all (accepts · v) else (s.lookup "else").all (accepts · v)
  | "allOf" => ofList arg fun ts => ts.all (accepts · v)
  | "anyOf" => ofList arg fun ts => ts.any (accepts · v)
  | "oneOf" => ofList arg fun ts => ts.countP (accepts · v) = 1
  | _ => D.asserts k arg v

end

/-- A keyword that describes accepts every value. -/
theorem keyword_annotation {D : Dialect} {resolve : List Char → Option Value} {accepts : Value → Value → Bool}
    {s : Members} {k : String} (h : k ∈ annotations) {arg v : Value} : keyword D resolve accepts s k arg v = true := by
  have hasserts := D.asserts_annotation k h arg v
  simp only [annotations, List.mem_cons, List.not_mem_nil, or_false] at h
  rcases h with rfl | rfl | rfl | rfl | rfl | rfl | rfl | rfl | rfl | rfl <;> exact hasserts

/-- A schema, on a value. -/
def holds (D : Dialect) (resolve : List Char → Option Value) : ℕ → Value → Value → Bool
  | 0, _, _ => false
  | _ + 1, .bool b, _ => b
  | n + 1, .obj s, v => s.all fun e => keyword D resolve (holds D resolve n) s e.1 e.2 v
  | _ + 1, _, _ => false

/-- What a reference refers to: a definition of the document. -/
def definition (doc : Value) (ref : List Char) : Option Value :=
  if "#/$defs/".toList.isPrefixOf ref then
    match doc.get? "$defs" with
    | some (.obj m) => m.lookup (String.ofList (ref.drop 8))
    | _ => none
  else none

/-- A schema of a document accepts a value. -/
def AcceptsAt (D : Dialect) (doc schema v : Value) : Prop :=
  ∃ n, ∀ m, n ≤ m → holds D (definition doc) m schema v = true

/-- A document, as a schema, accepts a value. -/
def Accepts (D : Dialect) (doc v : Value) : Prop := AcceptsAt D doc doc v

/-! ### Rewriting the schemas in a schema -/

/-- The keywords that map names to schemas. -/
def mapKeywords : List String := ["properties", "patternProperties", "dependentSchemas", "$defs", "definitions"]

/-- The keywords that hold one schema. -/
def schemaKeywords : List String :=
  ["items", "additionalItems", "additionalProperties", "propertyNames", "contains", "not", "if", "then", "else"]

/-- The keywords that hold a list of schemas. -/
def listKeywords : List String := ["allOf", "anyOf", "oneOf", "prefixItems"]

/-- What a keyword holds, with its schemas mapped. -/
def mapArg (f : Value → Value) (k : String) (arg : Value) : Value :=
  if k ∈ mapKeywords then
    match arg with
    | .obj m => .obj (m.map fun e => (e.1, f e.2))
    | _ => arg
  else if k ∈ schemaKeywords then f arg
  else if k ∈ listKeywords then
    match arg with
    | .arr l => .arr (l.map f)
    | _ => arg
  else arg

/-- The schemas that a keyword holds. -/
def heldBy (k : String) (arg : Value) : List Value :=
  if k ∈ mapKeywords then
    match arg with
    | .obj m => m.map Prod.snd
    | _ => []
  else if k ∈ schemaKeywords then [arg]
  else if k ∈ listKeywords then
    match arg with
    | .arr l => l
    | _ => []
  else []

/-- The schemas in a document. -/
inductive Part (doc : Value) : Value → Prop
  /-- The document. -/
  | root : Part doc doc
  /-- What a keyword of a schema holds. -/
  | held {s : Members} {e : String × Value} {t : Value} (h : Part doc (.obj s)) (he : e ∈ s)
      (ht : t ∈ heldBy e.1 e.2) : Part doc t

theorem mapArg_schema (f : Value → Value) {k : String} (h : k ∈ schemaKeywords) : mapArg f k = f := by
  have hmap : k ∉ mapKeywords := by
    revert k
    decide
  funext arg
  simp [mapArg, hmap, h]

theorem mapArg_plain (f : Value → Value) {k : String} (hmap : k ∉ mapKeywords) (hschema : k ∉ schemaKeywords)
    (hlist : k ∉ listKeywords) : mapArg f k = id := by
  funext arg
  simp [mapArg, hmap, hschema, hlist]

theorem heldBy_mapArg (f : Value → Value) (k : String) (arg : Value) :
    heldBy k (mapArg f k arg) = (heldBy k arg).map f := by
  unfold heldBy mapArg
  split_ifs
  · cases arg <;> simp
  · simp
  · cases arg <;> simp
  · simp

theorem ofList_mapArg (f : Value → Value) {k : String} (h : k ∈ listKeywords) (arg : Value) (g : List Value → Bool) :
    ofList (mapArg f k arg) g = ofList arg fun l => g (l.map f) := by
  have hmap : k ∉ mapKeywords := by
    revert k
    decide
  have hschema : k ∉ schemaKeywords := by
    revert k
    decide
  cases arg <;> simp [mapArg, hmap, hschema, h, ofList]

/-- A rewriting of schemas that leaves some annotations out, and is the same in all schemas that a schema holds. -/
structure Rewrites (f : Value → Value) (dropped : List String) : Prop where
  subset : dropped ⊆ annotations
  obj : ∀ s, f (.obj s) = .obj ((s.filter fun e => e.1 ∉ dropped).map fun e => (e.1, mapArg f e.1 e.2))
  other : ∀ v, (∀ s, v ≠ .obj s) → f v = v

theorem lookup_map (g : String → Value → Value) (s : Members) (k : String) :
    (s.map fun e => (e.1, g e.1 e.2)).lookup k = (s.lookup k).map (g k) := by
  induction s with
  | nil => rfl
  | cons e s ih =>
    rw [List.map_cons, Serde.lookup_cons_ite, Serde.lookup_cons_ite, ih]
    split
    · rename_i h
      rw [h]
      rfl
    · rfl

theorem lookup_filter {dropped : List String} {k : String} (hk : k ∉ dropped) (s : Members) :
    (s.filter fun e => e.1 ∉ dropped).lookup k = s.lookup k := by
  induction s with
  | nil => rfl
  | cons e s ih =>
    rw [List.filter_cons, Serde.lookup_cons_ite]
    split
    · rw [Serde.lookup_cons_ite, ih]
    · rename_i hdrop
      have hne : k ≠ e.1 := by
        rintro rfl
        exact hdrop (by simpa using hk)
      rw [ih, if_neg hne]

namespace Rewrites

variable {f : Value → Value} {dropped : List String} (hf : Rewrites f dropped)

/-- The members of a schema that is rewritten. -/
def members (f : Value → Value) (dropped : List String) (s : Members) : Members :=
  (s.filter fun e => e.1 ∉ dropped).map fun e => (e.1, mapArg f e.1 e.2)

include hf

theorem not_dropped {k : String} (h : k ∉ annotations) : k ∉ dropped := fun hk => h (hf.subset hk)

theorem lookup_members {k : String} (h : k ∉ annotations) (s : Members) :
    (members f dropped s).lookup k = (s.lookup k).map (mapArg f k) := by
  rw [members, lookup_map (mapArg f), lookup_filter (hf.not_dropped h)]

theorem mapAt_members {k : String} (hmap : k ∈ mapKeywords) (h : k ∉ annotations) (s : Members) :
    (members f dropped s).mapAt k = (s.mapAt k).map fun e => (e.1, f e.2) := by
  rw [Members.mapAt, hf.lookup_members h, Members.mapAt]
  cases s.lookup k with
  | none => rfl
  | some arg => cases arg <;> simp [mapArg, hmap]

theorem prefixLength_members (s : Members) : (members f dropped s).prefixLength = s.prefixLength := by
  rw [Members.prefixLength, hf.lookup_members (by decide), Members.prefixLength]
  cases s.lookup "prefixItems" with
  | none => rfl
  | some arg => cases arg <;> simp [mapArg, mapKeywords, schemaKeywords, listKeywords]

theorem countFits_members (s : Members) (n : ℕ) : countFits (members f dropped s) n = countFits s n := by
  have hbound {k : String} (hk : mapArg f k = id) (h : k ∉ annotations) :
      (members f dropped s).bound k = s.bound k := by
    rw [Members.bound, hf.lookup_members h, hk, Option.map_id, id, Members.bound]
  rw [countFits, hbound (mapArg_plain f (by decide) (by decide) (by decide)) (by decide),
    hbound (mapArg_plain f (by decide) (by decide) (by decide)) (by decide), countFits]

variable {D : Dialect} {resolve resolve' : List Char → Option Value} {acc acc' : Value → Value → Bool}

/-- **One keyword accepts what it did**, where the schemas that it holds accept what they did. -/
theorem keyword_members (hres : ∀ r, resolve' r = (resolve r).map f) (hacc : ∀ t v, acc' (f t) v = acc t v)
    (s : Members) (k : String) (arg v : Value) :
    keyword D resolve' acc' (members f dropped s) k (mapArg f k arg) v = keyword D resolve acc s k arg v := by
  have hbranch {k : String} (h : k ∈ schemaKeywords) (hk : k ∉ annotations) :
      ((members f dropped s).lookup k).all (acc' · v) = (s.lookup k).all (acc · v) := by
    rw [hf.lookup_members hk, mapArg_schema f h]
    cases s.lookup k <;> simp [hacc]
  have hproperty (e : String × Value) :
      (((members f dropped s).mapAt "properties").lookup e.1).all (acc' · e.2) =
        ((s.mapAt "properties").lookup e.1).all (acc · e.2) := by
    rw [hf.mapAt_members (by decide) (by decide), lookup_map fun _ => f]
    cases (s.mapAt "properties").lookup e.1 <;> simp [hacc]
  have hmapAt {k : String} (hmap : k ∈ mapKeywords) (hk : k ∉ annotations) (p : String × Value → Bool) :
      ((members f dropped s).mapAt k).all p = (s.mapAt k).all fun e => p (e.1, f e.2) := by
    rw [hf.mapAt_members hmap hk, List.all_map]
    rfl
  unfold keyword
  split
  case h_3 =>
    rw [mapArg_plain f (by decide) (by decide) (by decide), id]
    split
    · rw [hres]
      cases resolve _ <;> simp [hacc]
    · rfl
  case h_11 => simp only [hproperty]
  case h_12 => simp only [hmapAt (k := "patternProperties") (by decide) (by decide), hacc]
  case h_13 =>
    rw [mapArg_schema f (by decide), hf.mapAt_members (by decide) (by decide),
      hf.mapAt_members (by decide) (by decide)]
    simp [lookup_map fun _ => f, hacc, Function.comp_def]
  case h_14 => simp only [mapArg_schema f (k := "propertyNames") (by decide), hacc]
  case h_15 => simp only [hmapAt (k := "dependentSchemas") (by decide) (by decide), hacc]
  case h_16 =>
    simp only [ofList_mapArg f (k := "prefixItems") (by decide), List.zip_map_left, List.all_map]
    simp [Function.comp_def, hacc]
  case h_17 =>
    rw [mapArg_schema f (by decide), hf.prefixLength_members]
    simp only [funext (hacc arg)]
  case h_18 =>
    rw [mapArg_schema f (by decide)]
    simp only [hf.countFits_members, funext (hacc arg)]
  case h_19 => rw [mapArg_schema f (by decide), hacc]
  case h_20 => rw [mapArg_schema f (by decide), hacc, hbranch (by decide) (by decide), hbranch (by decide) (by decide)]
  case h_21 => simp [ofList_mapArg f (k := "allOf") (by decide), hacc, List.all_map, Function.comp_def]
  case h_22 => simp [ofList_mapArg f (k := "anyOf") (by decide), hacc, List.any_map, Function.comp_def]
  case h_23 => simp [ofList_mapArg f (k := "oneOf") (by decide), hacc, List.countP_map, Function.comp_def]
  case h_24 =>
    rw [mapArg_plain f, id]
    all_goals
      simp only [mapKeywords, schemaKeywords, listKeywords, List.mem_cons, List.not_mem_nil, or_false, not_or]
      and_intros <;> assumption
  -- the keywords whose schemas are not looked at, and those that hold none
  all_goals rfl

/-- **A rewriting accepts what the schema does**, with every fuel. -/
theorem holds_eq (hres : ∀ r, resolve' r = (resolve r).map f) (n : ℕ) (schema v : Value) :
    holds D resolve' n (f schema) v = holds D resolve n schema v := by
  induction n generalizing schema v with
  | zero => rfl
  | succ n ih =>
    cases schema with
    | obj s =>
      have hannotation :
          (s.filter fun e => e.1 ∉ dropped).all (fun e => keyword D resolve (holds D resolve n) s e.1 e.2 v) =
            s.all fun e => keyword D resolve (holds D resolve n) s e.1 e.2 v := by
        rw [Bool.eq_iff_iff, List.all_eq_true, List.all_eq_true]
        refine ⟨fun h e he => ?_, fun h e he => h e (List.mem_filter.1 he).1⟩
        by_cases hd : e.1 ∈ dropped
        · exact keyword_annotation (hf.subset hd)
        · exact h e (List.mem_filter.2 ⟨he, by simpa using hd⟩)
      rw [hf.obj]
      show ((s.filter fun e => e.1 ∉ dropped).map fun e => (e.1, mapArg f e.1 e.2)).all _ = _
      rw [List.all_map]
      show (s.filter fun e => e.1 ∉ dropped).all
        (fun e => keyword D resolve' (holds D resolve' n) (members f dropped s) e.1 (mapArg f e.1 e.2) v) = _
      simp only [hf.keyword_members hres ih]
      exact hannotation
    | null | bool | int | float | str | arr =>
      rw [hf.other]
      · rfl
      · rintro _ ⟨⟩

theorem definition_eq (doc : Value) (ref : List Char) :
    definition (f doc) ref = (definition doc ref).map f := by
  unfold definition
  split_ifs
  · cases doc with
    | obj s =>
      rw [hf.obj]
      show (match (members f dropped s).lookup "$defs" with | some (.obj m) => _ | _ => _) = _
      rw [hf.lookup_members (by decide)]
      simp only [Value.get?]
      cases s.lookup "$defs" with
      | none => rfl
      | some arg => cases arg <;> simp [mapArg, mapKeywords, lookup_map fun _ => f]
    | null | bool | int | float | str | arr =>
      rw [hf.other]
      · rfl
      · rintro _ ⟨⟩
  · rfl

/-- **A document that is rewritten** accepts what it did. -/
theorem accepts_iff (doc v : Value) : Accepts D (f doc) v ↔ Accepts D doc v := by
  simp only [Accepts, AcceptsAt, hf.holds_eq (hf.definition_eq doc)]

/-- **The parts of a document that is rewritten** are the parts that it had, rewritten. -/
theorem part_iff (hheld : ∀ k ∈ dropped, ∀ arg, heldBy k arg = []) (doc t : Value) :
    Part (f doc) t ↔ ∃ u, Part doc u ∧ t = f u := by
  constructor
  · intro h
    induction h with
    | root => exact ⟨doc, .root, rfl⟩
    | held hpart he ht ih =>
      rename_i s e t
      obtain ⟨u, hu, hs⟩ := ih
      cases u with
      | obj s₀ =>
        rw [hf.obj] at hs
        cases hs
        obtain ⟨e₀, he₀, rfl⟩ := List.mem_map.1 he
        rw [heldBy_mapArg] at ht
        obtain ⟨t₀, ht₀, rfl⟩ := List.mem_map.1 ht
        exact ⟨t₀, hu.held (List.mem_filter.1 he₀).1 ht₀, rfl⟩
      | null | bool | int | float | str | arr =>
        rw [hf.other _ (by rintro _ ⟨⟩)] at hs
        cases hs
  · rintro ⟨u, hu, rfl⟩
    induction hu with
    | root => exact .root
    | held hpart he ht ih =>
      rename_i s e t
      rw [hf.obj] at ih
      have hkept : e ∈ s.filter fun e => e.1 ∉ dropped := by
        refine List.mem_filter.2 ⟨he, ?_⟩
        by_contra hd
        rw [hheld e.1 (by simpa using hd)] at ht
        cases ht
      refine ih.held (List.mem_map_of_mem hkept) ?_
      rw [heldBy_mapArg]
      exact List.mem_map_of_mem ht

end Rewrites

/-! ### Records -/

/-- The keywords of the schema of a record, but those that describe. -/
def structKeywords : List String := ["type", "properties", "required", "additionalProperties", "$defs"]

/-- The schema of a record. -/
def StructSchema (s : Members) : Prop := ∀ e ∈ s, e.1 ∈ structKeywords ∨ e.1 ∈ annotations

/-- A schema that declares one member more. -/
def declare (k : String) (t : Value) (s : Members) : Members :=
  Serde.insert "properties" (.obj (Serde.insert k t (s.mapAt "properties"))) s

theorem mapAt_declare (k : String) (t : Value) (s : Members) :
    (declare k t s).mapAt "properties" = Serde.insert k t (s.mapAt "properties") := by
  rw [declare, Members.mapAt, Serde.lookup_insert, if_pos rfl]

theorem lookup_declare {j k : String} {t : Value} {s : Members} (h : j ≠ "properties") :
    (declare k t s).lookup j = s.lookup j := by rw [declare, Serde.lookup_insert, if_neg h]

/-- A schema that declares a member is a schema of a record, where it was one. -/
theorem StructSchema.declared {s : Members} (hs : StructSchema s) (k : String) (t : Value) :
    StructSchema (declare k t s) := by
  intro e he
  rcases Serde.mem_of_mem_insert he with rfl | hmem
  · exact .inl (by simp [structKeywords])
  · exact hs e hmem

namespace StructSchema

variable {D : Dialect} {resolve : List Char → Option Value} {accepts : Value → Value → Bool} {s m : Members}
  {k : String} {t v x : Value}

/-- **A member that is declared** can be put into a record. -/
theorem keyword_insert (ht : (s.mapAt "properties").lookup k = some t) (hx : accepts t x = true) {e : String × Value}
    (he : e.1 ∈ structKeywords) (h : keyword D resolve accepts s e.1 e.2 (.obj m) = true) :
    keyword D resolve accepts s e.1 e.2 (.obj (Serde.insert k x m)) = true := by
  obtain ⟨name, arg⟩ := e
  simp only [structKeywords, List.mem_cons, List.not_mem_nil, or_false] at he
  rcases he with rfl | rfl | rfl | rfl | rfl
  · exact h
  · simp only [keyword, ofMembers, List.all_eq_true] at h ⊢
    intro e he
    rcases Serde.mem_of_mem_insert he with rfl | hmem
    · simpa [ht] using hx
    · exact h e hmem
  · simp only [keyword, ofMembers] at h ⊢
    cases arg with
    | arr names =>
      simp only [ofList, List.all_eq_true] at h ⊢
      intro name hname
      have hold := h name hname
      cases name with
      | str name =>
        simp only [Serde.lookup_insert] at hold ⊢
        split
        · rfl
        · exact hold
      | null | bool | int | float | arr | obj => exact hold
    | null | bool | int | float | str | obj => exact h
  · simp only [keyword, ofMembers, List.all_eq_true] at h ⊢
    intro e he
    rcases Serde.mem_of_mem_insert he with rfl | hmem
    · simp [ht]
    · exact h e hmem
  · rfl

/-- **A member that a record does not have** can be declared. -/
theorem keyword_declare (hk : m.lookup k = none) {e : String × Value} (he : e.1 ∈ structKeywords)
    (h : keyword D resolve accepts s e.1 e.2 (.obj m) = true) :
    keyword D resolve accepts (declare k t s) e.1 e.2 (.obj m) = true := by
  have hne (e : String × Value) (he : e ∈ m) : e.1 ≠ k := by
    rintro rfl
    exact absurd (List.lookup_eq_none_iff.1 hk e he) (by simp)
  obtain ⟨name, arg⟩ := e
  simp only [structKeywords, List.mem_cons, List.not_mem_nil, or_false] at he
  rcases he with rfl | rfl | rfl | rfl | rfl
  · exact h
  · simp only [keyword, ofMembers, List.all_eq_true] at h ⊢
    intro e he
    rw [mapAt_declare, Serde.lookup_insert, if_neg (hne e he)]
    exact h e he
  · exact h
  · simp only [keyword, ofMembers, List.all_eq_true] at h ⊢
    intro e he
    have hpattern : (declare k t s).mapAt "patternProperties" = s.mapAt "patternProperties" := by
      simp only [Members.mapAt, lookup_declare (j := "patternProperties") (by decide)]
    rw [mapAt_declare, Serde.lookup_insert, if_neg (hne e he), hpattern]
    exact h e he
  · rfl

/-- The schema of a record, by its keywords. -/
theorem holds_iff (hs : StructSchema s) {n : ℕ} :
    holds D resolve (n + 1) (.obj s) v = true ↔
      ∀ e ∈ s, e.1 ∈ structKeywords → keyword D resolve (holds D resolve n) s e.1 e.2 v = true := by
  rw [holds, List.all_eq_true]
  exact ⟨fun h e he _ => h e he, fun h e he => (hs e he).elim (h e he) fun hkey => keyword_annotation hkey⟩

theorem holds_insert (hs : StructSchema s) (ht : (s.mapAt "properties").lookup k = some t) {n : ℕ}
    (hx : holds D resolve n t x = true) (h : holds D resolve (n + 1) (.obj s) (.obj m) = true) :
    holds D resolve (n + 1) (.obj s) (.obj (Serde.insert k x m)) = true := by
  rw [hs.holds_iff] at h ⊢
  exact fun e he hkey => keyword_insert ht hx hkey (h e he hkey)

/-- What is said of the members that are declared, also where no member is. -/
theorem keyword_properties {n : ℕ} (h : ∀ e ∈ s, e.1 ∈ structKeywords →
      keyword D resolve (holds D resolve n) s e.1 e.2 v = true) (arg : Value) :
    keyword D resolve (holds D resolve n) s "properties" arg v = true := by
  cases hs : s.lookup "properties" with
  | some old => exact h _ (Serde.mem_of_lookup hs) (by simp [structKeywords])
  | none =>
    have hnil : s.mapAt "properties" = [] := by rw [Members.mapAt, hs]
    cases v <;> simp [keyword, ofMembers, hnil]

theorem holds_declare (hs : StructSchema s) (hk : m.lookup k = none) {n : ℕ}
    (h : holds D resolve (n + 1) (.obj s) (.obj m) = true) :
    holds D resolve (n + 1) (.obj (declare k t s)) (.obj m) = true := by
  rw [(hs.declared k t).holds_iff]
  rw [hs.holds_iff] at h
  intro e he hkey
  refine keyword_declare hk hkey ?_
  rcases Serde.mem_of_mem_insert he with rfl | hmem
  · exact keyword_properties h _
  · exact h e hmem hkey

end StructSchema

end JsonSchema
