import Latiq.EngineDuckdb.Errclass
import Latiq.Library.Grouping
import Latiq.Library.Serde
import Mathlib.Algebra.Group.Int.Defs

/-!
# Describing a schema

`describe_schema` reads the tables of a pond by one query and the columns of its tables and views by another, and joins
the two in memory, by the name of the table.

## The model

* `Catalog` — the tables and views of a pond, in its schemas.
* `Scans` — the two result sets. The order of each is what its query asks for, and no more.
* `describeSchema` — the rows of both, joined.

## What is proved

* `Scans.columnsOf_eq` — the columns under a name that only one relation has are that relation's, in their order.
* `describeSchema_exact_iff` — every table that is listed carries its own columns exactly where no other table and no view
  has its name.
* `same_name_merged` — two tables with one name, in two schemas.
-/

namespace Latiq.EngineDuckdb

open RustStr (Text)
open Serde (Value)

/-! ### The catalog -/

/-- A column, with its index in its table. -/
structure Column where
  index : ℕ
  name : Text
  dataType : Text
  deriving DecidableEq, Repr

/-- A table or a view. -/
structure Relation where
  schemaName : Text
  name : Text
  isTable : Bool
  estimatedSize : ℕ
  comment : Option Text
  columns : List Column
  /-- The columns are listed as they were declared. -/
  declared : columns.Pairwise fun a b => a.index < b.index
  /-- There is no relation without a column. -/
  columns_ne : columns ≠ []
  deriving DecidableEq

/-- The name and the type of each column. -/
def Relation.described (r : Relation) : List (Text × Text) := r.columns.map fun c => (c.name, c.dataType)

/-- The relations of a pond. -/
structure Catalog where
  relations : List Relation
  distinct : (relations.map fun r => (r.schemaName, r.name)).Nodup

/-- A row of `duckdb_columns()`. -/
structure ColumnRow where
  tableName : Text
  column : Column
  deriving DecidableEq, Repr

/-- The rows of a relation in `duckdb_columns()`. -/
def Relation.columnRows (r : Relation) : List ColumnRow := r.columns.map fun c => ⟨r.name, c⟩

/-- What the two queries give. -/
structure Scans (c : Catalog) where
  /-- `duckdb_tables()`, in no order. -/
  tables : List Relation
  tables_perm : tables.Perm (c.relations.filter Relation.isTable)
  /-- `duckdb_columns()`: of tables and of views. -/
  columns : List ColumnRow
  columns_perm : columns.Perm (c.relations.flatMap Relation.columnRows)
  /-- `ORDER BY table_name, column_index`. -/
  ordered : columns.Pairwise fun a b =>
    a.tableName < b.tableName ∨ a.tableName = b.tableName ∧ a.column.index ≤ b.column.index

/-- The rows of the first query. -/
def Scans.tableRows {c : Catalog} (s : Scans c) : List (List Value) :=
  s.tables.map fun r => [.str r.name, .int r.estimatedSize, (r.comment.map Value.str).getD .null]

/-- The rows of the second. -/
def Scans.columnRows {c : Catalog} (s : Scans c) : List (List Value) :=
  s.columns.map fun r => [.str r.tableName, .str r.column.name, .str r.column.dataType]

/-! ### The join -/

/-- `TableInfo`. -/
structure TableInfo where
  name : Text
  columns : List (Text × Text)
  rowCountEstimate : ℕ
  comment : Option Text
  deriving DecidableEq, Repr

/-- `as_str`. -/
def asStr : Value → Option Text
  | .str s => some s
  | _ => none

/-- `as_u64`. -/
def asU64 : Value → Option ℕ
  | .int n => if 0 ≤ n ∧ n < 2 ^ 64 then some n.toNat else none
  | _ => none

/-- A text cell, or an empty text. -/
def textAt (row : List Value) (i : ℕ) : Text := (row[i]?.bind asStr).getD []

/-- `by_table`: the columns, grouped by the name of their table. -/
def byTable (cols : List (List Value)) : Text → List (Text × Text) :=
  Grouping.group (fun r => textAt r 0) (fun r => (textAt r 1, textAt r 2)) cols

/-- `describe_schema`, from what the two queries give. -/
def describeSchema (tables cols : Except EngineError (List (List Value))) : Except EngineError (List TableInfo) := do
  let res ← tables
  let cols ← cols
  let columns := Grouping.takeEach (fun r => textAt r 0) [] (byTable cols) res
  pure (res.zipWith (fun r columns =>
    { name := textAt r 0
      columns
      rowCountEstimate := (r[1]?.bind asU64).getD 0
      comment := r[2]?.bind asStr }) columns)

/-! ### The columns under a name -/

/-- What is said of a table: its name and its columns. -/
def TableInfo.said (t : TableInfo) : Text × List (Text × Text) := (t.name, t.columns)

variable {c : Catalog}

/-- The columns under a name. -/
def Scans.columnsOf (s : Scans c) (name : Text) : List (Text × Text) :=
  (s.columns.filter fun r => r.tableName = name).map fun r => (r.column.name, r.column.dataType)

theorem byTable_columnRows (s : Scans c) : byTable s.columnRows = s.columnsOf := by
  funext name
  rw [byTable, Grouping.group_apply, Scans.columnRows, List.filter_map, List.map_map]
  rfl

theorem filter_columnRows (r : Relation) (name : Text) :
    r.columnRows.filter (fun row => row.tableName = name) = if r.name = name then r.columnRows else [] := by
  rw [Relation.columnRows, List.filter_map]
  by_cases hname : r.name = name
  · rw [if_pos hname]
    congr 1
    exact List.filter_eq_self.2 fun _ _ => decide_eq_true hname
  · rw [if_neg hname, List.map_eq_nil_iff]
    exact List.filter_eq_nil_iff.2 fun _ _ => by simpa using hname

/-- The rows under a name are those of the relations that have it. -/
theorem Scans.rows_perm (s : Scans c) (name : Text) :
    (s.columns.filter fun row => row.tableName = name).Perm
      ((c.relations.filter fun r => r.name = name).flatMap Relation.columnRows) := by
  have hsplit : ∀ rs : List Relation, (rs.flatMap Relation.columnRows).filter (fun row => row.tableName = name) =
      (rs.filter fun r => r.name = name).flatMap Relation.columnRows := by
    intro rs
    induction rs with
    | nil => rfl
    | cons r rs ih =>
      rw [List.flatMap_cons, List.filter_append, ih, filter_columnRows]
      by_cases hname : r.name = name
      · simp only [hname, List.filter_cons, decide_true, if_true, List.flatMap_cons]
      · simp only [hname, List.filter_cons, decide_false, Bool.false_eq_true, if_false, List.nil_append]
  rw [← hsplit]
  exact s.columns_perm.filter _

theorem Catalog.nodup (c : Catalog) : c.relations.Nodup := List.Nodup.of_map _ c.distinct

/-- **Its own columns**: under a name that one relation has are the columns of that one, as they were declared. -/
theorem Scans.columnsOf_eq (s : Scans c) {t : Relation} (ht : t ∈ c.relations)
    (hone : ∀ r ∈ c.relations, r.name = t.name → r = t) : s.columnsOf t.name = t.described := by
  have hnamed : (c.relations.filter fun r => r.name = t.name) = [t] := by
    have hfilter : (c.relations.filter fun r => r.name = t.name) = c.relations.filter (· = t) := by
      refine List.filter_congr fun r hr => ?_
      rw [decide_eq_decide]
      exact ⟨hone r hr, fun heq => heq ▸ rfl⟩
    rw [hfilter, List.filter_eq, List.count_eq_one_of_mem c.nodup ht, List.replicate_one]
  have hperm := s.rows_perm t.name
  rw [hnamed, List.flatMap_singleton] at hperm
  -- both are in the order of the index, and an index comes once
  have hdeclared : t.columnRows.Pairwise fun a b => a.column.index < b.column.index :=
    List.pairwise_map.2 t.declared
  have hordered : (s.columns.filter fun row => row.tableName = t.name).Pairwise
      fun a b => a.column.index ≤ b.column.index := by
    refine List.Pairwise.imp_of_mem ?_ (s.ordered.filter _)
    intro a b ha hb hab
    have hname : a.tableName = b.tableName :=
      (of_decide_eq_true (List.mem_filter.1 ha).2).trans (of_decide_eq_true (List.mem_filter.1 hb).2).symm
    rcases hab with hlt | ⟨-, hle⟩
    · exact absurd (hname ▸ hlt) (List.lt_irrefl _)
    · exact hle
  have heq : (s.columns.filter fun row => row.tableName = t.name) = t.columnRows := by
    refine hperm.eq_of_pairwise ?_ hordered (hdeclared.imp le_of_lt)
    intro a b ha hb hab hba
    have hindex : a.column.index = b.column.index := le_antisymm hab hba
    have hnodup : (t.columnRows.map fun r => r.column.index).Nodup :=
      List.nodup_iff_pairwise_ne.2 (List.pairwise_map.2 (hdeclared.imp ne_of_lt))
    exact List.inj_on_of_nodup_map hnodup (hperm.subset ha) hb hindex
  rw [columnsOf, heq, Relation.columnRows, List.map_map]
  rfl

/-- Under a name that two relations have are more columns than one of them has. -/
theorem Scans.columnsOf_ne (s : Scans c) {t r : Relation} (ht : t ∈ c.relations) (hr : r ∈ c.relations)
    (hname : r.name = t.name) (hne : r ≠ t) : s.columnsOf t.name ≠ t.described := by
  intro heq
  have hlength : ((c.relations.filter fun r => r.name = t.name).flatMap Relation.columnRows).length = t.columns.length := by
    rw [← (s.rows_perm t.name).length_eq, ← List.length_map (f := fun r => (r.column.name, r.column.dataType))]
    exact (congrArg List.length heq).trans (List.length_map ..)
  obtain ⟨front, back, hsplit⟩ := List.append_of_mem (List.mem_filter.2 ⟨ht, decide_eq_true rfl⟩ :
    t ∈ c.relations.filter fun r => r.name = t.name)
  have hmem : r ∈ c.relations.filter fun r => r.name = t.name := List.mem_filter.2 ⟨hr, decide_eq_true hname⟩
  have hrest : r ∈ front ++ back := by
    rw [hsplit] at hmem
    simpa [hne] using hmem
  have hcolumns : 0 < r.columns.length := List.length_pos_iff.2 r.columns_ne
  have hin : r.columns.length ≤ ((front ++ back).flatMap Relation.columnRows).length := by
    obtain ⟨front', back', hsplit'⟩ := List.append_of_mem hrest
    rw [hsplit']
    simp only [List.flatMap_append, List.flatMap_cons, List.length_append, Relation.columnRows, List.length_map]
    omega
  rw [hsplit] at hlength
  simp only [List.flatMap_append, List.flatMap_cons, List.length_append] at hlength hin
  simp only [Relation.columnRows, List.length_map] at hlength hin
  omega

/-! ### The listing -/

theorem describeSchema_eq (s : Scans c) : ∃ infos,
    describeSchema (.ok s.tableRows) (.ok s.columnRows) = .ok infos ∧
      infos.map TableInfo.said =
        (s.tables.map Relation.name).zip (Grouping.takeEach Relation.name [] s.columnsOf s.tables) := by
  refine ⟨_, rfl, ?_⟩
  rw [byTable_columnRows]
  generalize s.columnsOf = m
  unfold Scans.tableRows
  induction s.tables generalizing m with
  | nil => rfl
  | cons t ts ih =>
    simp only [List.map_cons, Grouping.takeEach, List.zipWith_cons_cons, List.zip_cons_cons]
    congr 1
    exact ih _

/-- **Each table carries its own columns** exactly where no other table and no view of the pond has its name. -/
theorem describeSchema_exact_iff (s : Scans c) :
    (∃ infos, describeSchema (.ok s.tableRows) (.ok s.columnRows) = .ok infos ∧
      infos.map TableInfo.said = s.tables.map fun t => (t.name, t.described)) ↔
    ∀ t ∈ c.relations, t.isTable → ∀ r ∈ c.relations, r.name = t.name → r = t := by
  obtain ⟨infos, hinfos, hsaid⟩ := describeSchema_eq s
  have hmem {t : Relation} : t ∈ s.tables ↔ t ∈ c.relations ∧ t.isTable := by
    rw [s.tables_perm.mem_iff, List.mem_filter]
  have hexact : (∃ infos, describeSchema (.ok s.tableRows) (.ok s.columnRows) = .ok infos ∧
      infos.map TableInfo.said = s.tables.map fun t => (t.name, t.described)) ↔
      Grouping.takeEach Relation.name [] s.columnsOf s.tables = s.tables.map Relation.described := by
    have hzip : (s.tables.map fun t => (t.name, t.described)) =
        (s.tables.map Relation.name).zip (s.tables.map Relation.described) := by
      rw [List.zip_map']
    rw [hzip]
    constructor
    · rintro ⟨infos', hinfos', hsaid'⟩
      obtain rfl : infos = infos' := Except.ok.inj (hinfos.symm.trans hinfos')
      have hunzip := congrArg (fun l => l.map Prod.snd) (hsaid.symm.trans hsaid')
      simpa [List.map_snd_zip, Grouping.length_takeEach] using hunzip
    · intro h
      exact ⟨infos, hinfos, h ▸ hsaid⟩
  have hne : ∀ t ∈ s.tables, t.described ≠ [] := by
    intro t _ hnil
    exact t.columns_ne (List.map_eq_nil_iff.1 hnil)
  rw [hexact, Grouping.takeEach_eq_iff_of_ne hne]
  constructor
  · rintro ⟨-, hown⟩ t ht htable r hr hname
    by_contra hother
    exact s.columnsOf_ne ht hr hname hother (hown t (hmem.2 ⟨ht, htable⟩))
  · intro hone
    refine ⟨?_, fun t ht => ?_⟩
    · refine List.Nodup.map_on ?_ (s.tables_perm.nodup_iff.2 (c.nodup.filter _))
      intro r hr t ht hname
      obtain ⟨ht, htable⟩ := hmem.1 ht
      exact hone t ht htable r (hmem.1 hr).1 hname
    · obtain ⟨ht, htable⟩ := hmem.1 ht
      exact s.columnsOf_eq ht (hone t ht htable)

/-- Two datasets that were loaded into one pond, each with a table `orders`. -/
def twoSchemas : Catalog where
  relations := [⟨"north".toList, "orders".toList, true, 0, none, [⟨0, "id".toList, "INTEGER".toList⟩], by simp, by simp⟩,
    ⟨"south".toList, "orders".toList, true, 0, none, [⟨0, "total".toList, "DOUBLE".toList⟩], by simp, by simp⟩]
  distinct := by decide

/-- What the queries give of them. -/
def twoSchemas.scans : Scans twoSchemas where
  tables := twoSchemas.relations
  tables_perm := by simp [twoSchemas]
  columns := twoSchemas.relations.flatMap Relation.columnRows
  columns_perm := .refl _
  ordered := by simp [twoSchemas, Relation.columnRows]

/-- The first of them carries the columns of both, and the second carries none. -/
theorem same_name_merged :
    (describeSchema (.ok twoSchemas.scans.tableRows) (.ok twoSchemas.scans.columnRows)).map (List.map TableInfo.said) =
      .ok [("orders".toList, [("id".toList, "INTEGER".toList), ("total".toList, "DOUBLE".toList)]), ("orders".toList, [])] ∧
    (twoSchemas.scans.tables.map fun t => (t.name, t.described)) ≠
      [("orders".toList, [("id".toList, "INTEGER".toList), ("total".toList, "DOUBLE".toList)]), ("orders".toList, [])] :=
  ⟨rfl, by decide⟩

end Latiq.EngineDuckdb
