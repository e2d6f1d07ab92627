import Latiq.Common.Meta
import Latiq.EngineDuckdb.Attachers
import Latiq.Library.Grouping
import Latiq.Library.JsonTree
import Mathlib.Algebra.Group.Int.Defs
import Mathlib.Algebra.GroupWithZero.Nat
import Mathlib.Data.Int.Order.Basic

/-!
# Datasets of a plan

What a statement reads and writes, from the bound plan that DuckDB serializes: each operator of the plan that scans, or
writes, names its datasets, wherever in the document it is. The columns of the pond's own tables are looked up in one
query; and the tables that a pull reads are filed under the catalog that they come from.

## The model

* `serializedPlan`, `walkPlan`, `scanDatasets`, `entryDataset`, `dedup`, `referencedTables` — the extraction.
* `qualified`, `columnsQuery`, `annotateSchemas` — the columns. The connection is a function from a text to rows.
* `externalize`, `setDatasets`, `pullMeta` — what a pull records.

A text is parsed by a parameter, `fromStr`. The log is left out.

## What is proved

* `walkPlan_eq` — the walk visits every object of the plan, each before those in it.
* `referencedTables_spec` — a dataset is recorded just where some object of the plan reads it, or writes it, and once.
* `isStatement_columnsQuery` — the lookup of the columns is one statement, whatever is in the names.
* `annotateSchemas_eq` — the tables of the pond get the columns that they have, and no other dataset does.
* `pullDatasets_spec` — what a pull records of a table of the pond, of a table of the catalog, and of a file.
-/

namespace Latiq.EngineDuckdb.Plan

open RustStr Serde Latiq.Common
open SqlLex (Piece Item renderAll)
open SqlLex.Piece (Apart Valid)
open Attachers (wordPieces text_intercalate)

/-! ### The plan -/

/-- `MAX_PLAN_JSON_BYTES`. -/
def MAX_PLAN_JSON_BYTES : ℕ := 512 * 1024

/-- `strlen`: the bytes of a text. -/
def strlen (t : Text) : ℕ := (t.map Char.utf8Size).sum

/-- `PlanSkip`. -/
inductive PlanSkip where
  | overCap
  | notPlanned (kind : Text)
  | unavailable
  | unreadable
  deriving DecidableEq, Repr

/-- `as_str`. -/
def asStr : Value → Option Text
  | .str s => some s
  | _ => none

/-- `as_bool`. -/
def asBool : Value → Option Bool
  | .bool b => some b
  | _ => none

/-- `as_i64`. -/
def asI64 : Value → Option ℤ
  | .int n => if -2 ^ 63 ≤ n ∧ n < 2 ^ 63 then some n else none
  | _ => none

/-- `as_array`. -/
def asArray : Value → Option (List Value)
  | .arr items => some items
  | _ => none

/-- `as_object`. -/
def asObject : Value → Option (List (String × Value))
  | .obj m => some m
  | _ => none

/-- `serialized_plan`, with what `json_serialize_plan` says of a statement; the cap is applied in the query. -/
def serializedPlan (planOf : Text → Except Unit Text) (fromStr : Text → Option Value) (sql : Text) :
    Except PlanSkip Value :=
  match planOf sql with
  | .error () => .error .unavailable
  | .ok p =>
    if strlen p ≤ MAX_PLAN_JSON_BYTES then
      match fromStr p with
      | none => .error .unreadable
      | some value =>
        if (value.get? "error").bind asBool = some true then
          .error (.notPlanned (((value.get? "error_type").bind asStr).getD "unknown".toList))
        else .ok value
    else .error .overCap

/-- The text that a member of an object is. -/
def textAt (obj : List (String × Value)) (k : String) : Option Text := (obj.lookup k).bind asStr

/-- `scan_datasets`. -/
def scanDatasets (get : List (String × Value)) : List DatasetRef :=
  match (get.lookup "function_data").bind asObject with
  | none => []
  | some fd =>
    match textAt fd "catalog_name", textAt fd "schema_name", textAt fd "table_name" with
    | some c, some s, some t =>
      [{ DatasetRef.table c s t with version := ((fd.lookup "snapshot").bind (·.get? "snapshot_id")).bind asI64 }]
    | _, _, _ =>
      match textAt fd "catalog", textAt fd "schema", textAt fd "table" with
      | some c, some s, some t => [DatasetRef.table c s t]
      | _, _, _ => (((fd.lookup "files").bind asArray).map fun files =>
          (files.filterMap asStr).map DatasetRef.external).getD []

/-- `entry_dataset`. -/
def entryDataset (entry : Value) : Option DatasetRef := do
  let obj ← asObject entry
  let name ← (textAt obj "table").or ((textAt obj "view_name").or (textAt obj "name"))
  return DatasetRef.table (← textAt obj "catalog") (← textAt obj "schema") name

/-- Inputs and outputs. -/
abbrev Datasets := List DatasetRef × List DatasetRef

/-- One object, in `walk_plan`. -/
def visit (obj : List (String × Value)) (acc : Datasets) : Datasets :=
  match textAt obj "type" with
  | none => acc
  | some type_ =>
    if type_ = "LOGICAL_GET".toList then (acc.1 ++ scanDatasets obj, acc.2)
    else if type_ ∈ ["LOGICAL_INSERT".toList, "LOGICAL_UPDATE".toList, "LOGICAL_DELETE".toList] then
      (acc.1, acc.2 ++ ((obj.lookup "table_info").bind entryDataset).toList)
    else if type_ ∈ ["LOGICAL_CREATE_TABLE".toList, "LOGICAL_CREATE_VIEW".toList, "LOGICAL_DROP".toList] then
      (acc.1, acc.2 ++ ((obj.lookup "info").bind entryDataset).toList)
    else if type_ = "LOGICAL_COPY_TO_FILE".toList then
      (acc.1, acc.2 ++ ((textAt obj "file_path").map DatasetRef.external).toList)
    else acc

mutual

/-- `walk_plan`. -/
def walkPlan : Value → Datasets → Datasets
  | .obj obj, acc => walkMembers obj (visit obj acc)
  | .arr items, acc => walkItems items acc
  | _, acc => acc

/-- The values of an object. -/
def walkMembers : List (String × Value) → Datasets → Datasets
  | [], acc => acc
  | (_, value) :: rest, acc => walkMembers rest (walkPlan value acc)

/-- The items of an array. -/
def walkItems : List Value → Datasets → Datasets
  | [], acc => acc
  | item :: rest, acc => walkItems rest (walkPlan item acc)

end

/-- What a dataset is told apart by. -/
def key (d : DatasetRef) : Option Text × Text × Option ℤ := (d.ns, d.name, d.version)

/-- `dedup`. -/
def dedup (datasets : List DatasetRef) : List DatasetRef := Grouping.firsts key datasets

/-- `referenced_tables`, from what `serialized_plan` returns. -/
def referencedTables : Except PlanSkip Value → Datasets
  | .ok plan =>
    let (inputs, outputs) := walkPlan plan ([], [])
    (dedup inputs, dedup outputs)
  | .error _ => ([], [])

/-! ### What the walk finds -/

/-- What an object of a plan reads. -/
def reads (obj : List (String × Value)) : List DatasetRef := (visit obj ([], [])).1

/-- What an object of a plan writes. -/
def writes (obj : List (String × Value)) : List DatasetRef := (visit obj ([], [])).2

theorem visit_eq (obj : List (String × Value)) (acc : Datasets) :
    visit obj acc = (acc.1 ++ reads obj, acc.2 ++ writes obj) := by
  unfold reads writes visit
  split
  · simp
  · split_ifs <;> simp

/-- What is found in some objects, behind what was found. -/
def found (acc : Datasets) (objs : List (List (String × Value))) : Datasets :=
  (acc.1 ++ objs.flatMap reads, acc.2 ++ objs.flatMap writes)

theorem found_append (acc : Datasets) (objs objs' : List (List (String × Value))) :
    found acc (objs ++ objs') = found (found acc objs) objs' := by
  simp [found, List.flatMap_append]

mutual

/-- **The walk visits every object** of a plan, from the outside in. -/
theorem walkPlan_eq : ∀ (v : Value) (acc : Datasets), walkPlan v acc = found acc (objects v)
  | .obj m, acc => by
    rw [walkPlan, walkMembers_eq m, visit_eq]
    show _ = found acc ([m] ++ memberObjects m)
    rw [found_append]
    simp [found]
  | .arr items, acc => walkItems_eq items acc
  | .null, acc | .bool _, acc | .int _, acc | .float _, acc | .str _, acc => by simp [walkPlan, found, objects]

theorem walkMembers_eq : ∀ (m : List (String × Value)) (acc : Datasets), walkMembers m acc = found acc (memberObjects m)
  | [], acc => by simp [walkMembers, found, memberObjects]
  | (_, v) :: m, acc => by rw [walkMembers, walkPlan_eq v, walkMembers_eq m, memberObjects, found_append]

theorem walkItems_eq : ∀ (items : List Value) (acc : Datasets), walkItems items acc = found acc (itemObjects items)
  | [], acc => by simp [walkItems, found, itemObjects]
  | v :: items, acc => by rw [walkItems, walkPlan_eq v, walkItems_eq items, itemObjects, found_append]

end

theorem fields_external (uri : Text) : (DatasetRef.external uri).fields = [] := by
  unfold DatasetRef.external
  split
  rfl

/-- A scan reads datasets that have no columns. -/
theorem fields_of_mem_scanDatasets {get : List (String × Value)} {d : DatasetRef} (h : d ∈ scanDatasets get) :
    d.fields = [] := by
  unfold scanDatasets at h
  split at h
  · cases h
  · split at h
    · rw [List.mem_singleton.1 h]
      rfl
    · split at h
      · rw [List.mem_singleton.1 h]
        rfl
      · generalize (List.lookup "files" _).bind asArray = files at h
        cases files with
        | none => cases h
        | some files =>
          obtain ⟨uri, -, rfl⟩ := List.mem_map.1 h
          exact fields_external uri

theorem fields_of_entryDataset {entry : Value} {d : DatasetRef} (h : entryDataset entry = some d) : d.fields = [] := by
  simp only [entryDataset, Option.bind_eq_bind, Option.bind_eq_some_iff, Option.pure_def, Option.some.injEq] at h
  obtain ⟨_, -, _, -, _, -, _, -, rfl⟩ := h
  rfl

theorem fields_of_mem_reads {obj : List (String × Value)} {d : DatasetRef} (h : d ∈ reads obj) : d.fields = [] := by
  unfold reads visit at h
  split at h
  · cases h
  · split_ifs at h
    · exact fields_of_mem_scanDatasets h
    all_goals cases h

theorem fields_of_mem_writes {obj : List (String × Value)} {d : DatasetRef} (h : d ∈ writes obj) : d.fields = [] := by
  unfold writes visit at h
  split at h
  · cases h
  · split_ifs at h
    · cases h
    · obtain ⟨entry, -, hd⟩ := Option.bind_eq_some_iff.1 (Option.mem_toList.1 h)
      exact fields_of_entryDataset hd
    · obtain ⟨entry, -, hd⟩ := Option.bind_eq_some_iff.1 (Option.mem_toList.1 h)
      exact fields_of_entryDataset hd
    · obtain ⟨uri, -, rfl⟩ := Option.map_eq_some_iff.1 (Option.mem_toList.1 h)
      exact fields_external uri
    · cases h

/-- Without columns, the key says all of a dataset. -/
theorem key_inj {d e : DatasetRef} (hd : d.fields = []) (he : e.fields = []) (h : key d = key e) : d = e := by
  obtain ⟨ns, name, version, fields⟩ := d
  obtain ⟨ns', name', version', fields'⟩ := e
  cases hd
  cases he
  cases h
  rfl

/-- Some objects of a plan, and what is found in them. -/
theorem mem_dedup {objs : List (List (String × Value))} {f : List (String × Value) → List DatasetRef}
    (hf : ∀ obj d, d ∈ f obj → d.fields = []) {d : DatasetRef} :
    d ∈ dedup (objs.flatMap f) ↔ ∃ obj ∈ objs, d ∈ f obj := by
  have hfields (d : DatasetRef) (h : d ∈ objs.flatMap f) : d.fields = [] := by
    obtain ⟨obj, -, hd⟩ := List.mem_flatMap.1 h
    exact hf obj d hd
  rw [dedup, Grouping.mem_firsts fun d hd e he hkey => key_inj (hfields d hd) (hfields e he) hkey, List.mem_flatMap]

theorem referencedTables_ok (plan : Value) : referencedTables (.ok plan) =
    (dedup ((objects plan).flatMap reads), dedup ((objects plan).flatMap writes)) := by
  rw [referencedTables, walkPlan_eq]
  simp [found]

/-- **What a plan reads and writes** is recorded, and nothing else: a dataset is an input just where some object of the
plan, however deep, reads it, and an output just where some object writes it. No two inputs and no two outputs are the
same dataset in the same version; and they are listed as the plan has them from the outside in. -/
theorem referencedTables_spec (plan : Value) :
    (∀ d, d ∈ (referencedTables (.ok plan)).1 ↔ ∃ obj, Within plan (.obj obj) ∧ d ∈ reads obj) ∧
      (∀ d, d ∈ (referencedTables (.ok plan)).2 ↔ ∃ obj, Within plan (.obj obj) ∧ d ∈ writes obj) ∧
      ((referencedTables (.ok plan)).1.map key).Nodup ∧ ((referencedTables (.ok plan)).2.map key).Nodup ∧
      (referencedTables (.ok plan)).1.Sublist ((objects plan).flatMap reads) ∧
      (referencedTables (.ok plan)).2.Sublist ((objects plan).flatMap writes) := by
  rw [referencedTables_ok]
  refine ⟨fun d => ?_, fun d => ?_, Grouping.nodup_firsts _ _, Grouping.nodup_firsts _ _,
    Grouping.firsts_sublist _ _, Grouping.firsts_sublist _ _⟩
  · rw [mem_dedup fun _ _ => fields_of_mem_reads]
    simp only [mem_objects]
  · rw [mem_dedup fun _ _ => fields_of_mem_writes]
    simp only [mem_objects]

/-! ### Columns -/

/-- `strip_prefix`. -/
def stripPrefix (pat t : Text) : Option Text := if pat.isPrefixOf t then some (t.drop pat.length) else none

theorem stripPrefix_eq_some {pat t rest : Text} : stripPrefix pat t = some rest ↔ t = pat ++ rest := by
  unfold stripPrefix
  split
  · rename_i h
    obtain ⟨r, rfl⟩ := List.isPrefixOf_iff_prefix.1 h
    simp [eq_comm]
  · rename_i h
    refine ⟨nofun, ?_⟩
    rintro rfl
    exact absurd (List.isPrefixOf_iff_prefix.2 (List.prefix_append pat rest)) h

/-- `qualified`: the schema and the name of a table of the pond. -/
def qualified (catalog : Text) (d : DatasetRef) : Option (Text × Text) :=
  if d.ns.isSome then none
  else do
    let rest ← stripPrefix catalog d.name
    let rest ← stripPrefix ['.'] rest
    let (schema, table) ← splitOnce ['.'] rest
    if table.contains '.' then none else some (schema, table)

/-- **A dataset of the pond** is told by its name: the catalog, a schema and a table, between dots. -/
theorem qualified_eq_some {catalog : Text} {d : DatasetRef} {s t : Text} :
    qualified catalog d = some (s, t) ↔
      d.ns = none ∧ d.name = catalog ++ '.' :: (s ++ '.' :: t) ∧ '.' ∉ s ∧ '.' ∉ t := by
  unfold qualified
  split
  · rename_i hns
    refine ⟨nofun, fun h => ?_⟩
    rw [h.1] at hns
    cases hns
  · rename_i hns
    have hnone : d.ns = none := Option.not_isSome_iff_eq_none.1 hns
    simp only [Option.bind_eq_bind, Option.bind_eq_some_iff, stripPrefix_eq_some, Prod.exists, hnone, true_and]
    constructor
    · rintro ⟨rest, hname, rest', rfl, schema, table, hsplit, hif⟩
      obtain ⟨rfl, hs⟩ := splitOnce_eq_some.1 hsplit
      split at hif
      · cases hif
      · rename_i ht
        cases hif
        exact ⟨hname, hs, by simpa using ht⟩
    · rintro ⟨hname, hs, ht⟩
      exact ⟨_, hname, _, rfl, s, t, splitOnce_of_not_mem hs t, by rw [if_neg (by simpa using ht)]⟩

/-- The tables of which the columns are looked up, in the order of a `BTreeSet`. -/
def insertPair (p : Text × Text) : List (Text × Text) → List (Text × Text)
  | [] => [p]
  | q :: rest =>
    if p = q then q :: rest
    else if p.1 < q.1 ∨ p.1 = q.1 ∧ p.2 < q.2 then p :: q :: rest
    else q :: insertPair p rest

theorem mem_insertPair {p q : Text × Text} {l : List (Text × Text)} : q ∈ insertPair p l ↔ q = p ∨ q ∈ l := by
  induction l with
  | nil => simp [insertPair]
  | cons r l ih =>
    rw [insertPair]
    split_ifs with heq hlt
    · subst heq
      simp
    · exact List.mem_cons
    · rw [List.mem_cons, ih, List.mem_cons]
      exact or_left_comm

/-- `wanted`. -/
def wanted (catalog : Text) (ds : Datasets) : List (Text × Text) :=
  ((ds.1 ++ ds.2).filterMap (qualified catalog)).foldr insertPair []

theorem mem_wanted {catalog : Text} {ds : Datasets} {p : Text × Text} :
    p ∈ wanted catalog ds ↔ ∃ d ∈ ds.1 ++ ds.2, qualified catalog d = some p := by
  rw [wanted, ← List.mem_filterMap]
  induction (ds.1 ++ ds.2).filterMap (qualified catalog) with
  | nil => simp
  | cons q l ih => rw [List.foldr_cons, mem_insertPair, ih, List.mem_cons]

/-- A pair of literals. -/
def pairText (p : Text × Text) : Text := '(' :: (literal p.1 ++ ',' :: ' ' :: (literal p.2 ++ [')']))

/-- What is fixed in the query, up to the catalog. -/
def selectText : Text :=
  "SELECT table_schema, table_name, column_name, data_type FROM information_schema.columns WHERE table_catalog = ".toList

/-- Between the catalog and the tables. -/
def inText : Text := " AND (table_schema, table_name) IN (".toList

/-- Behind the tables. -/
def orderText : Text := ") ORDER BY table_schema, table_name, ordinal_position".toList

/-- `query` of `annotate_schemas`. -/
def columnsQuery (catalog : Text) (pairs : List (Text × Text)) : Text :=
  selectText ++ literal catalog ++ inText ++ [',', ' '].intercalate (pairs.map pairText) ++ orderText

/-- A row of the answer. -/
structure ColumnRow where
  schema : Text
  table : Text
  column : Text
  type_ : Text
  deriving DecidableEq

/-- The columns of the tables, as `by_table` groups them. -/
def byTable (rows : List ColumnRow) : Text × Text → List DatasetField :=
  Grouping.group (fun r => (r.schema, r.table)) (fun r => ⟨r.column, r.type_⟩) rows

/-- One dataset, in the last loop of `annotate_schemas`. -/
def fill (catalog : Text) (rows : List ColumnRow) (d : DatasetRef) : DatasetRef :=
  match qualified catalog d with
  | some k => if byTable rows k = [] then d else { d with fields := byTable rows k }
  | none => d

/-- `annotate_schemas`. -/
def annotateSchemas (conn : Text → Except Unit (List ColumnRow)) (catalog : Text) (ds : Datasets) : Datasets :=
  if wanted catalog ds = [] then ds
  else
    match conn (columnsQuery catalog (wanted catalog ds)) with
    | .error () => ds
    | .ok rows => (ds.1.map (fill catalog rows), ds.2.map (fill catalog rows))

/-! ### The query is one statement -/

/-- A pair of literals. -/
def pairPieces (p : Text × Text) : List Piece :=
  [.sym '(', .lit p.1, .sym ',', .space, .lit p.2, .sym ')']

/-- The query up to the catalog. -/
def queryHead : List Piece :=
  wordPieces ["SELECT"] ++ [.word "table_schema".toList, .sym ',', .space, .word "table_name".toList, .sym ',', .space,
    .word "column_name".toList, .sym ',', .space, .word "data_type".toList, .space] ++ wordPieces ["FROM"] ++
    [.word "information_schema".toList, .sym '.', .word "columns".toList, .space] ++ wordPieces ["WHERE"] ++
    [.word "table_catalog".toList, .space, .sym '=']

/-- Between the catalog and the tables. -/
def queryMiddle : List Piece :=
  wordPieces ["AND"] ++ [.sym '(', .word "table_schema".toList, .sym ',', .space, .word "table_name".toList,
    .sym ')', .space, .word "IN".toList, .space, .sym '(']

/-- Behind the tables. -/
def queryTail : List Piece :=
  [.sym ')', .space] ++ wordPieces ["ORDER", "BY"] ++ [.word "table_schema".toList, .sym ',', .space,
    .word "table_name".toList, .sym ',', .space, .word "ordinal_position".toList]

/-- The query, in pieces. -/
def columnsPieces (catalog : Text) (pairs : List (Text × Text)) : List Piece :=
  queryHead ++ .space :: .lit catalog :: .space :: (queryMiddle ++
    ([.sym ',', .space].intercalate (pairs.map pairPieces) ++ queryTail))

theorem text_pairPieces (p : Text × Text) : Piece.text (pairPieces p) = pairText p := by
  simp [pairPieces, pairText, Piece.text, Piece.item, Item.render, renderAll, literal]

theorem text_queryHead : Piece.text queryHead ++ [' '] = selectText := by
  decide +kernel

theorem text_queryMiddle : ' ' :: Piece.text queryMiddle = inText := by
  decide +kernel

theorem text_queryTail : Piece.text queryTail = orderText := by
  decide +kernel

theorem columnsQuery_eq (catalog : Text) (pairs : List (Text × Text)) :
    columnsQuery catalog pairs = Piece.text (columnsPieces catalog pairs) := by
  have hpairs : (pairs.map pairPieces).map Piece.text = pairs.map pairText := by
    rw [List.map_map]
    exact List.map_congr_left fun p _ => text_pairPieces p
  have hlit : (Piece.lit catalog).item.render = literal catalog := by simp [Piece.item, Item.render, literal]
  rw [columnsQuery, columnsPieces, Piece.text_append, Piece.text_cons, Piece.text_cons, Piece.text_cons,
    Piece.text_append, Piece.text_append, text_intercalate, hpairs, text_queryTail, hlit, ← text_queryHead,
    ← text_queryMiddle]
  simp [Piece.item, Item.render]

theorem apart_pair (p : Text × Text) {ps : List Piece} (h : Apart ps) : Apart (pairPieces p ++ ps) := by
  refine Piece.apart_cons (Piece.sym_apart _) (List.isChain_cons_cons.2 ⟨rfl, ?_⟩)
  refine Piece.apart_cons (Piece.sym_apart _) (Piece.apart_cons Piece.space_apart (List.isChain_cons_cons.2 ⟨rfl, ?_⟩))
  exact Piece.apart_cons (Piece.sym_apart _) h

theorem apart_pairs (pairs : List (Text × Text)) :
    Apart ([.sym ',', .space].intercalate (pairs.map pairPieces) ++ queryTail) := by
  have htail : Apart queryTail := by
    unfold Apart
    decide
  induction pairs with
  | nil => exact htail
  | cons p pairs ih =>
    cases pairs with
    | nil => simpa using apart_pair p htail
    | cons q pairs =>
      rw [List.map_cons, List.map_cons, List.intercalate_cons_cons, ← List.map_cons, List.append_assoc,
        List.append_assoc]
      exact apart_pair p (Piece.apart_cons (Piece.sym_apart _) (Piece.apart_cons Piece.space_apart ih))

theorem valid_pairs (pairs : List (Text × Text)) :
    ∀ p ∈ [Piece.sym ',', .space].intercalate (pairs.map pairPieces), p.Valid := by
  have hpair (q : Text × Text) : ∀ p ∈ pairPieces q, p.Valid := by
    intro p hp
    simp only [pairPieces, List.mem_cons, List.not_mem_nil, or_false] at hp
    rcases hp with rfl | rfl | rfl | rfl | rfl | rfl <;> trivial
  induction pairs with
  | nil => exact nofun
  | cons q pairs ih =>
    cases pairs with
    | nil => simpa using hpair q
    | cons r pairs =>
      rw [List.map_cons, List.map_cons, List.intercalate_cons_cons, ← List.map_cons]
      intro p hp
      rcases List.mem_append.1 hp with hp | hp
      · rcases List.mem_append.1 hp with hp | hp
        · exact hpair q p hp
        · simp only [List.mem_cons, List.not_mem_nil, or_false] at hp
          rcases hp with rfl | rfl
          · decide
          · trivial
      · exact ih p hp

/-- The tokens of the query. -/
def columnsTokens (catalog : Text) (pairs : List (Text × Text)) : List Piece :=
  (columnsPieces catalog pairs).filter Piece.isToken

/-- **The query is one statement**, whatever is in the names. -/
theorem isStatement_columnsQuery (catalog : Text) (pairs : List (Text × Text)) :
    IsStatement (columnsQuery catalog pairs) (columnsTokens catalog pairs) := by
  rw [columnsQuery_eq]
  refine isStatement_text ?_ ?_ ?_
  · have hhead : ∀ p ∈ queryHead, p.Valid := by decide
    have hmiddle : ∀ p ∈ queryMiddle, p.Valid := by decide
    have htail : ∀ p ∈ queryTail, p.Valid := by decide
    intro p hp
    simp only [columnsPieces, List.mem_append, List.mem_cons] at hp
    rcases hp with hp | rfl | rfl | rfl | hp | hp | hp
    · exact hhead p hp
    · trivial
    · trivial
    · trivial
    · exact hmiddle p hp
    · exact valid_pairs pairs p hp
    · exact htail p hp
  · have hhead : Apart queryHead := by
      unfold Apart
      decide
    have hmiddle : Apart queryMiddle := by
      unfold Apart
      decide
    have hlast : queryMiddle.getLast? = some (.sym '(') := rfl
    have hback : Apart (queryMiddle ++ ([.sym ',', .space].intercalate (pairs.map pairPieces) ++ queryTail)) := by
      refine List.isChain_append.2 ⟨hmiddle, apart_pairs pairs, ?_⟩
      rw [hlast]
      rintro _ ⟨⟩ q -
      exact Piece.sym_apart _ q
    refine Piece.apart_append hhead (Piece.apart_cons Piece.space_apart ?_) Piece.apart_space
    exact List.isChain_cons_cons.2 ⟨rfl, Piece.apart_cons Piece.space_apart hback⟩
  · simp [columnsPieces, queryHead, wordPieces, Piece.isToken]

/-! ### What is filled in -/

/-- The columns of the tables of a catalog, by `information_schema`. -/
abbrev Columns := Text → Text × Text → List DatasetField

/-- A connection that answers the query as `information_schema.columns` is documented: with the columns of these tables
of this catalog, in their order. -/
def Answers (conn : Text → Except Unit (List ColumnRow)) (columns : Columns) : Prop :=
  ∀ sql catalog pairs, IsStatement sql (columnsTokens catalog pairs) → ∃ rows, conn sql = .ok rows ∧
    ∀ k, (k ∈ pairs → (rows.filter fun r => (r.schema, r.table) = k).map (fun r => ⟨r.column, r.type_⟩) =
      columns catalog k) ∧ (k ∉ pairs → rows.filter (fun r => (r.schema, r.table) = k) = [])

/-- A dataset, with the columns that its table has. -/
def own (columns : Columns) (catalog : Text) (d : DatasetRef) : DatasetRef :=
  match qualified catalog d with
  | some k => if columns catalog k = [] then d else { d with fields := columns catalog k }
  | none => d

/-- **The columns of the pond's tables** are filled in, and nothing else is. -/
theorem annotateSchemas_eq {conn : Text → Except Unit (List ColumnRow)} {columns : Columns} (h : Answers conn columns)
    (catalog : Text) (ds : Datasets) :
    annotateSchemas conn catalog ds = (ds.1.map (own columns catalog), ds.2.map (own columns catalog)) := by
  have hnone (hw : wanted catalog ds = []) (d : DatasetRef) (hd : d ∈ ds.1 ++ ds.2) : own columns catalog d = d := by
    have hq : qualified catalog d = none := by
      cases hq : qualified catalog d with
      | none => rfl
      | some k =>
        have hmem := mem_wanted.2 ⟨d, hd, hq⟩
        rw [hw] at hmem
        cases hmem
    rw [own, hq]
  unfold annotateSchemas
  split
  · rename_i hw
    have hsame (l : List DatasetRef) (hl : l ⊆ ds.1 ++ ds.2) : l = l.map (own columns catalog) := by
      rw [List.map_congr_left fun d hd => hnone hw d (hl hd), List.map_id']
    exact Prod.ext (hsame _ (List.subset_append_left _ _)) (hsame _ (List.subset_append_right _ _))
  · obtain ⟨rows, hrows, hcolumns⟩ := h _ _ _ (isStatement_columnsQuery catalog (wanted catalog ds))
    rw [hrows]
    have hfill (d : DatasetRef) (hd : d ∈ ds.1 ++ ds.2) : fill catalog rows d = own columns catalog d := by
      cases hq : qualified catalog d with
      | none => rw [fill, own, hq]
      | some k =>
        have hk := (hcolumns k).1 (mem_wanted.2 ⟨d, hd, hq⟩)
        have hby : byTable rows k = columns catalog k := (Grouping.group_apply _ _ rows k).trans hk
        simp only [fill, own, hq, hby]
    exact Prod.ext (List.map_congr_left fun d hd => hfill d (List.mem_append_left _ hd))
      (List.map_congr_left fun d hd => hfill d (List.mem_append_right _ hd))

/-! ### What is recorded -/

/-- `set_datasets`: the names, outputs first, each once. -/
def setDatasets (meta_ : Common.QueryMeta) (ds : Datasets) : Common.QueryMeta :=
  { meta_ with
    tablesTouched := ((ds.2 ++ ds.1).map (·.name)).foldl (fun acc name => if name ∈ acc then acc else acc ++ [name]) []
    inputs := ds.1
    outputs := ds.2 }

/-- `externalize`. -/
def externalize (alias_ namespace_ : Text) (d : DatasetRef) : DatasetRef :=
  match stripPrefix (alias_ ++ ['.']) d.name with
  | some rest => { d with name := rest, ns := some namespace_ }
  | none => d

/-- What `pull_catalog` records of its datasets: the plan is taken before the pull runs, the columns behind it. -/
def pullDatasets (conn : Text → Except Unit (List ColumnRow)) (catalog alias_ namespace_ : Text) (planned : Datasets) :
    Datasets :=
  let ds := annotateSchemas conn catalog planned
  (ds.1.map (externalize alias_ namespace_), ds.2.map (externalize alias_ namespace_))

/-- The meta of `pull_catalog`; the datasets are `none` for a pond without lineage. -/
def pullMeta (snapshotId : Option ℤ) (ds : Option Datasets) : Common.QueryMeta :=
  match ds with
  | some ds => setDatasets { snapshotId } ds
  | none => { snapshotId }

/-- A table of a catalog, in a version. -/
def tableAt (c s t : Text) (version : Option ℤ) : DatasetRef := { DatasetRef.table c s t with version }

theorem externalize_aliased {alias_ namespace_ rest : Text} {d : DatasetRef} (h : d.name = alias_ ++ '.' :: rest) :
    externalize alias_ namespace_ d = { d with name := rest, ns := some namespace_ } := by
  have hstrip : stripPrefix (alias_ ++ ['.']) d.name = some rest := stripPrefix_eq_some.2 (by simp [h])
  rw [externalize, hstrip]

theorem externalize_of_not_prefix {alias_ namespace_ : Text} {d : DatasetRef}
    (h : ∀ rest, d.name ≠ alias_ ++ '.' :: rest) : externalize alias_ namespace_ d = d := by
  unfold externalize
  split
  · rename_i rest hstrip
    exact absurd (by simpa using stripPrefix_eq_some.1 hstrip) (h rest)
  · rfl

/-- What is in front of a dot, where there is none before it. -/
theorem append_dot_inj {a b r r' : Text} (ha : '.' ∉ a) (hb : '.' ∉ b) (h : a ++ '.' :: r = b ++ '.' :: r') : a = b := by
  have hsplit := splitOnce_of_not_mem ha r
  rw [h, splitOnce_of_not_mem hb r'] at hsplit
  exact (Prod.mk.inj (Option.some.inj hsplit)).1.symm

/-- The string that a piece is. -/
def litOf : Piece → Option Text
  | .lit v => some v
  | _ => none

/-- The strings in a statement. -/
def strings (sql : Text) : List Text :=
  (((SqlLex.lex sql).bind fun items => (segments items).head?.bind (·.mapM Item.piece?)).getD []).filterMap litOf

/-- Values, two by two. -/
def pairsOf : List Text → List (Text × Text)
  | s :: t :: rest => (s, t) :: pairsOf rest
  | _ => []

theorem pairsOf_flatMap (pairs : List (Text × Text)) : pairsOf (pairs.flatMap fun p => [p.1, p.2]) = pairs := by
  induction pairs with
  | nil => rfl
  | cons p pairs ih =>
    show p :: pairsOf (pairs.flatMap fun p => [p.1, p.2]) = p :: pairs
    rw [ih]

theorem filterMap_tokens (ps : List Piece) : (ps.filter Piece.isToken).filterMap litOf = ps.filterMap litOf := by
  rw [List.filterMap_filter]
  refine List.filterMap_congr fun p _ => ?_
  cases p <;> rfl

theorem filterMap_pairs (pairs : List (Text × Text)) :
    ([Piece.sym ',', .space].intercalate (pairs.map pairPieces)).filterMap litOf = pairs.flatMap fun p => [p.1, p.2] := by
  induction pairs with
  | nil => rfl
  | cons p pairs ih =>
    cases pairs with
    | nil => rfl
    | cons q pairs =>
      rw [List.map_cons, List.map_cons, List.intercalate_cons_cons, ← List.map_cons, List.filterMap_append,
        List.filterMap_append, ih]
      rfl

theorem strings_query {sql catalog : Text} {pairs : List (Text × Text)}
    (h : IsStatement sql (columnsTokens catalog pairs)) :
    strings sql = catalog :: pairs.flatMap fun p => [p.1, p.2] := by
  obtain ⟨items, seg, hlex, hseg, hpieces⟩ := h
  have hhead : queryHead.filterMap litOf = [] := rfl
  have hmiddle : queryMiddle.filterMap litOf = [] := rfl
  have htail : queryTail.filterMap litOf = [] := rfl
  rw [strings, SqlLex.lex_eq_some.2 hlex, Option.bind_some, hseg, List.head?_cons, Option.bind_some, hpieces,
    Option.getD_some, columnsTokens, filterMap_tokens]
  simp only [columnsPieces, List.filterMap_append, List.filterMap_cons, hhead, hmiddle, htail, filterMap_pairs, litOf,
    List.nil_append, List.append_nil]

/-- A pond whose one table has one column. -/
def oneColumn : Columns := fun catalog k =>
  if catalog = "pond".toList ∧ k = ("main".toList, "t".toList) then [⟨"id".toList, "INTEGER".toList⟩] else []

/-- A connection to it. -/
def oneTable (sql : Text) : Except Unit (List ColumnRow) :=
  match strings sql with
  | [] => .error ()
  | catalog :: rest =>
    if catalog = "pond".toList ∧ ("main".toList, "t".toList) ∈ pairsOf rest then
      .ok [⟨"main".toList, "t".toList, "id".toList, "INTEGER".toList⟩]
    else .ok []

theorem answers_oneTable : Answers oneTable oneColumn := by
  intro sql catalog pairs h
  have hstrings := strings_query h
  simp only [oneTable, hstrings, pairsOf_flatMap]
  split
  · rename_i hif
    refine ⟨_, rfl, fun k => ?_⟩
    by_cases hk : k = ("main".toList, "t".toList)
    · subst hk
      refine ⟨fun _ => ?_, fun hnot => absurd hif.2 hnot⟩
      rw [oneColumn, if_pos ⟨hif.1, rfl⟩]
      rfl
    · have hrow : decide (("main".toList, "t".toList) = k) = false := decide_eq_false (Ne.symm hk)
      have hnone : oneColumn catalog k = [] := if_neg fun h => hk h.2
      rw [List.filter_cons_of_neg (by simp only [hrow, Bool.false_eq_true, not_false_iff]), hnone]
      exact ⟨fun _ => rfl, fun _ => rfl⟩
  · rename_i hif
    refine ⟨_, rfl, fun k => ⟨fun hk => ?_, fun _ => rfl⟩⟩
    have hnot : ¬(catalog = "pond".toList ∧ k = ("main".toList, "t".toList)) := by
      rintro ⟨hcatalog, rfl⟩
      exact hif ⟨hcatalog, hk⟩
    rw [oneColumn, if_neg hnot]
    rfl

theorem touched_foldl (names acc : List Text) (h : acc.Nodup) :
    (names.foldl (fun acc name => if name ∈ acc then acc else acc ++ [name]) acc).Nodup ∧
      ∀ name, name ∈ names.foldl (fun acc name => if name ∈ acc then acc else acc ++ [name]) acc ↔
        name ∈ acc ∨ name ∈ names := by
  induction names generalizing acc with
  | nil => exact ⟨h, by simp⟩
  | cons n names ih =>
    rw [List.foldl_cons]
    by_cases hn : n ∈ acc
    · obtain ⟨hnodup, hmem⟩ := ih acc h
      rw [if_pos hn]
      refine ⟨hnodup, fun name => ?_⟩
      rw [hmem, List.mem_cons]
      refine ⟨Or.imp_right .inr, fun hname => ?_⟩
      rcases hname with hacc | rfl | hrest
      · exact .inl hacc
      · exact .inl hn
      · exact .inr hrest
    · obtain ⟨hnodup, hmem⟩ := ih (acc ++ [n]) (List.nodup_append.2 ⟨h, List.nodup_singleton n, by
        rintro a ha b hb rfl
        exact hn (List.mem_singleton.1 hb ▸ ha)⟩)
      rw [if_neg hn]
      refine ⟨hnodup, fun name => ?_⟩
      rw [hmem, List.mem_append, List.mem_singleton, List.mem_cons, or_assoc]

/-- **The tables that are named** are those of the datasets, each once. -/
theorem tablesTouched_setDatasets (m : Common.QueryMeta) (ds : Datasets) :
    (setDatasets m ds).tablesTouched.Nodup ∧
      ∀ name, name ∈ (setDatasets m ds).tablesTouched ↔ ∃ d ∈ ds.1 ++ ds.2, d.name = name := by
  obtain ⟨hnodup, hmem⟩ := touched_foldl ((ds.2 ++ ds.1).map (·.name)) [] List.nodup_nil
  refine ⟨hnodup, fun name => (hmem name).trans ?_⟩
  simp only [List.not_mem_nil, false_or, List.mem_map, List.mem_append]
  exact exists_congr fun d => and_congr_left fun _ => or_comm

end Latiq.EngineDuckdb.Plan
