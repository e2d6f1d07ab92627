import Latiq.Library.Migrate
import Mathlib.Tactic.IntervalCases

/-!
# The migrations of the registry

`run_migrations` applies the migrations behind the recorded version, each as a batch of statements, and records its
version by a statement of its own. It runs whenever the registry is opened.

## The model

* `Db` — tables with their columns, keys and rows, and the table of the version. The clock is one value (`Cell.now`).
* `migrations` — the statements of each migration, in order.
* `runMigrations`, `crashed` — a run, and what is left of one that stops between two statements.

## What is proved

* `sound` — every migration but the fifth fails over a part of itself.
* `reopening_converges_iff` — from every version, with whatever rows, a registry that is opened again reaches what an
  undisturbed migration does exactly when the run did not stop inside a migration other than the fifth.
* `half_migrated` — a registry that stopped behind its first table.
-/

namespace Latiq.ControlPlane.Migrations

/-! ### Databases -/

/-- The tables of the registry. -/
inductive TableName where
  | nodes | ponds | policy | auditLog | catalogs | catalogTags | datasets | datasetTables | datasetTags
  deriving DecidableEq, Repr

inductive Cell where
  | null
  | text (s : String)
  | bool (b : Bool)
  | nat (n : ℕ)
  /-- `current_timestamp`. -/
  | now
  deriving DecidableEq, Repr

structure ColumnDef where
  name : String
  sqlType : String
  notNull : Bool
  default : Option Cell
  deriving DecidableEq, Repr

/-- The columns of a table, and its keys, the primary one first. -/
structure Schema where
  columns : List ColumnDef
  keys : List (List String)
  deriving DecidableEq, Repr

structure Table where
  schema : Schema
  rows : List (List Cell)
  deriving DecidableEq, Repr

/-- A database: its tables, and the rows of `_latiq_schema_version`, where that table is there. -/
@[ext] structure Db where
  tables : TableName → Option Table
  versions : Option (List ℕ)

inductive Statement where
  | createTable (name : TableName) (columns : List ColumnDef) (keys : List (List String))
  | addColumn (name : TableName) (column : ColumnDef)
  | dropTableIfExists (name : TableName)
  | insert (name : TableName) (columns : List String) (rows : List (List Cell))
  deriving DecidableEq, Repr

def Db.set (d : Db) (name : TableName) (t : Option Table) : Db :=
  { d with tables := fun n => if n = name then t else d.tables n }

/-- What a row has under some columns. -/
def Schema.under (s : Schema) (columns : List String) (row : List Cell) : List (Option Cell) :=
  columns.map fun c => ((s.columns.map ColumnDef.name).zip row).lookup c

/-- One row of an `INSERT`. -/
def Table.insertRow (t : Table) (columns : List String) (values : List Cell) : Option Table :=
  let row := t.schema.columns.map fun c => ((columns.zip values).lookup c.name).getD (c.default.getD .null)
  if (columns.all fun c => c ∈ t.schema.columns.map ColumnDef.name) ∧
      ((t.schema.columns.zip row).all fun (c, v) => !c.notNull || v != .null) ∧
      (t.schema.keys.all fun k => t.rows.all fun r => t.schema.under k r != t.schema.under k row) then
    some { t with rows := t.rows ++ [row] }
  else none

/-- The rows of an `INSERT`, up to the first that violates a constraint. -/
def Table.insertRows (t : Table) (columns : List String) : List (List Cell) → Option Table
  | [] => some t
  | values :: rest => (t.insertRow columns values).bind fun t' => t'.insertRows columns rest

/-- One statement. -/
def Db.exec : Statement → Db → Option Db
  | .createTable name columns keys, d =>
    if (d.tables name).isSome then none else some (d.set name (some ⟨⟨columns, keys⟩, []⟩))
  | .addColumn name column, d =>
    (d.tables name).bind fun t =>
      if (t.schema.columns.map ColumnDef.name).contains column.name then none
      else
        some (d.set name (some ⟨{ t.schema with columns := t.schema.columns ++ [column] },
          t.rows.map fun r => r ++ [column.default.getD .null]⟩))
  | .dropTableIfExists name, d => some (d.set name none)
  | .insert name columns rows, d =>
    (d.tables name).bind fun t => (t.insertRows columns rows).map fun t' => d.set name (some t')

/-- The registry as a store: `CREATE TABLE IF NOT EXISTS _latiq_schema_version`, and the greatest version in it, or 0. -/
def store : Migrate.Store Db Statement where
  exec := Db.exec
  version d := (d.versions.getD []).foldl max 0
  prepare d := { d with versions := some (d.versions.getD []) }
  record v d := { d with versions := d.versions.map (· ++ [v]) }

/-! ### The migrations -/

/-- A column that must have a value. -/
def required (name sqlType : String) : ColumnDef := ⟨name, sqlType, true, none⟩

/-- A column that must have a value, and has one by default. -/
def withDefault (name sqlType : String) (default : Cell) : ColumnDef := ⟨name, sqlType, true, some default⟩

/-- A column that came later. -/
def added (name sqlType : String) (default : Cell) : ColumnDef := ⟨name, sqlType, false, some default⟩

def texts (rows : List (List String)) : List (List Cell) := rows.map fun r => r.map Cell.text

/-- `v1`: the first tables. -/
def initialSchema : List Statement :=
  [.createTable .nodes
      [required "node_id" "VARCHAR", required "mcp_endpoint" "VARCHAR", required "internal_endpoint" "VARCHAR",
        required "capacity" "UINTEGER", withDefault "pond_count" "UINTEGER" (.nat 0),
        withDefault "state" "VARCHAR" (.text "active"), withDefault "last_heartbeat" "TIMESTAMP" .now] [["node_id"]],
    .createTable .ponds
      [required "pond_id" "VARCHAR", required "name" "VARCHAR", required "owner_identity" "VARCHAR",
        required "node_id" "VARCHAR", withDefault "policy_json" "VARCHAR" (.text "\x7b\x7d"),
        withDefault "created_at" "TIMESTAMP" .now, withDefault "state" "VARCHAR" (.text "active")] [["pond_id"], ["name"]],
    .createTable .policy [required "key" "VARCHAR", required "value" "VARCHAR"] [["key"]],
    .createTable .auditLog
      [required "audit_id" "VARCHAR", withDefault "ts" "TIMESTAMP" .now, required "agent_identity" "VARCHAR",
        required "identity_verified" "BOOLEAN", required "operation" "VARCHAR", ⟨"pond_id", "VARCHAR", false, none⟩,
        ⟨"request_summary", "VARCHAR", false, none⟩, ⟨"result_summary", "VARCHAR", false, none⟩,
        withDefault "duration_ms" "UBIGINT" (.nat 0)] [["audit_id"]],
    .insert .policy ["key", "value"]
      (texts [["default_pond_lifetime_seconds", "3600"], ["query_timeout_seconds", "30"]])]

/-- The catalogs and datasets, with the samples. -/
def dataCatalog : List Statement :=
  [.createTable .catalogs
      [required "name" "VARCHAR", required "type" "VARCHAR", withDefault "params_json" "VARCHAR" (.text "\x7b\x7d"),
        withDefault "description" "VARCHAR" (.text ""), withDefault "created_by" "VARCHAR" (.text "anonymous"),
        withDefault "created_at" "TIMESTAMP" .now] [["name"]],
    .createTable .catalogTags [required "catalog" "VARCHAR", required "tag" "VARCHAR"] [["catalog", "tag"]],
    .createTable .datasets
      [required "name" "VARCHAR", withDefault "description" "VARCHAR" (.text ""),
        withDefault "created_by" "VARCHAR" (.text "anonymous"), withDefault "created_at" "TIMESTAMP" .now] [["name"]],
    .createTable .datasetTables
      [required "dataset" "VARCHAR", required "table_name" "VARCHAR", required "source_uri" "VARCHAR",
        withDefault "format" "VARCHAR" (.text "auto")] [["dataset", "table_name"]],
    .createTable .datasetTags [required "dataset" "VARCHAR", required "tag" "VARCHAR"] [["dataset", "tag"]],
    .insert .datasets ["name", "description", "created_by"]
      (texts [["startrek", "Star Trek Season 1 scripts — CSV, ~2 KB", "latiq"],
        ["holdings", "Example stock holdings — CSV, ~300 B", "latiq"],
        ["tpch", "TPC-H scale 0.01 — 8 tables, Parquet, a few MB", "latiq"],
        ["taxi", "NYC yellow-taxi, Apr 2019 — Parquet, ~127 MB (large)", "latiq"]]),
    .insert .datasetTables ["dataset", "table_name", "source_uri"]
      (texts [["startrek", "startrek", "https://blobs.duckdb.org/data/Star_Trek-Season_1.csv"],
        ["holdings", "holdings", "https://duckdb.org/data/holdings.csv"],
        ["tpch", "lineitem", "https://shell.duckdb.org/data/tpch/0_01/parquet/lineitem.parquet"],
        ["tpch", "orders", "https://shell.duckdb.org/data/tpch/0_01/parquet/orders.parquet"],
        ["tpch", "customer", "https://shell.duckdb.org/data/tpch/0_01/parquet/customer.parquet"],
        ["tpch", "part", "https://shell.duckdb.org/data/tpch/0_01/parquet/part.parquet"],
        ["tpch", "supplier", "https://shell.duckdb.org/data/tpch/0_01/parquet/supplier.parquet"],
        ["tpch", "partsupp", "https://shell.duckdb.org/data/tpch/0_01/parquet/partsupp.parquet"],
        ["tpch", "nation", "https://shell.duckdb.org/data/tpch/0_01/parquet/nation.parquet"],
        ["tpch", "region", "https://shell.duckdb.org/data/tpch/0_01/parquet/region.parquet"],
        ["taxi", "taxi", "https://blobs.duckdb.org/data/taxi_2019_04.parquet"]]),
    .insert .datasetTags ["dataset", "tag"]
      (texts [["startrek", "sample"], ["holdings", "sample"], ["tpch", "sample"], ["tpch", "tpch"], ["taxi", "sample"]])]

/-- `MIGRATIONS`. -/
def migrations : List (List Statement) :=
  [initialSchema, [.addColumn .ponds (added "tier" "VARCHAR" (.text "medium"))],
    [.addColumn .ponds (added "extensions" "VARCHAR" (.text ""))], dataCatalog, [.dropTableIfExists .auditLog],
    [.addColumn .ponds (added "description" "VARCHAR" (.text ""))],
    [.addColumn .ponds (added "lineage" "BOOLEAN" (.bool false))]]

/-- `run_migrations`. -/
def runMigrations (d : Db) : Option Db := store.run migrations d

/-- What is left where the process stops after so many statements. -/
def crashed (d : Db) (n : ℕ) : Option Db := store.crashed migrations d n

/-! ### Versions -/

/-- A database without a table. -/
def Db.empty : Db := ⟨fun _ => none, some []⟩

/-- The tables of a version. -/
def schemaAt (v : ℕ) (name : TableName) : Option Schema :=
  ((store.execAll .empty ((migrations.take v).flatten.map .exec)).bind fun d => d.tables name).map Table.schema

/-- A database at a version: its tables are those of the version, with whatever rows. -/
structure AtVersion (v : ℕ) (d : Db) : Prop where
  tables : ∀ name, (d.tables name).map Table.schema = schemaAt v name
  version : store.version d = v

/-- The database of a version with these rows. -/
def withRows (v : ℕ) (rows : TableName → List (List Cell)) (versions : List ℕ) : Db :=
  ⟨fun name => (schemaAt v name).map fun s => ⟨s, rows name⟩, some versions⟩

theorem AtVersion.eq_withRows {v : ℕ} {d : Db} (h : AtVersion v d) (hd : store.prepare d = d) :
    ∃ rows versions, d = withRows v rows versions ∧ versions.foldl max 0 = v := by
  refine ⟨fun name => ((d.tables name).map Table.rows).getD [], d.versions.getD [], ?_, h.version⟩
  refine Db.ext ?_ (congrArg Db.versions hd).symm
  funext name
  have hname := h.tables name
  cases ht : d.tables name with
  | none =>
    rw [ht] at hname
    simp [withRows, ← hname]
  | some t =>
    rw [ht] at hname
    simp [withRows, ← hname, ht]

/-- A version that is recorded is the greatest. -/
theorem version_record {versions : List ℕ} {v : ℕ} (h : versions.foldl max 0 = v) :
    (versions ++ [v + 1]).foldl max 0 = v + 1 := by
  rw [List.foldl_append, h]
  exact Nat.max_eq_right (Nat.le_succ v)

/-- A statement that is not about a version keeps it. -/
theorem exec_versions {s : Statement} {d d' : Db} (h : Db.exec s d = some d') : d'.versions = d.versions := by
  cases s with
  | createTable name columns keys =>
    simp only [Db.exec] at h
    split_ifs at h
    rw [← Option.some.inj h]
    rfl
  | addColumn name column =>
    obtain ⟨t, -, h⟩ := Option.bind_eq_some_iff.1 h
    split_ifs at h
    rw [← Option.some.inj h]
    rfl
  | dropTableIfExists name =>
    rw [← Option.some.inj h]
    rfl
  | insert name columns rows =>
    obtain ⟨t, -, h⟩ := Option.bind_eq_some_iff.1 h
    obtain ⟨t', -, rfl⟩ := Option.map_eq_some_iff.1 h
    rfl

/-- A table that is there stays, unless it is dropped. -/
theorem exec_isSome {s : Statement} {d d' : Db} (h : Db.exec s d = some d') {name : TableName}
    (hdrop : s ≠ .dropTableIfExists name) (hname : (d.tables name).isSome) : (d'.tables name).isSome := by
  have hset {n : TableName} {t : Table} : ((d.set n (some t)).tables name).isSome := by
    unfold Db.set
    dsimp only
    split
    · rfl
    · exact hname
  cases s with
  | createTable n columns keys =>
    simp only [Db.exec] at h
    split_ifs at h
    rw [← Option.some.inj h]
    exact hset
  | addColumn n column =>
    obtain ⟨t, -, h⟩ := Option.bind_eq_some_iff.1 h
    split_ifs at h
    rw [← Option.some.inj h]
    exact hset
  | dropTableIfExists n =>
    rw [← Option.some.inj h]
    have hne : name ≠ n := fun heq => hdrop (heq ▸ rfl)
    simpa [Db.set, hne] using hname
  | insert n columns rows =>
    obtain ⟨t, -, h⟩ := Option.bind_eq_some_iff.1 h
    obtain ⟨t', -, rfl⟩ := Option.map_eq_some_iff.1 h
    exact hset

theorem execAll_isSome {m : List Statement} {d c : Db} (h : store.execAll d (m.map .exec) = some c) {name : TableName}
    (hdrop : ∀ s ∈ m, s ≠ .dropTableIfExists name) (hname : (d.tables name).isSome) : (c.tables name).isSome := by
  induction m generalizing d with
  | nil =>
    cases h
    exact hname
  | cons s m ih =>
    obtain ⟨d', hs, h⟩ := Option.bind_eq_some_iff.1 h
    exact ih h (fun s hs => hdrop s (List.mem_cons_of_mem _ hs))
      (exec_isSome hs (hdrop s List.mem_cons_self) hname)

/-- **A migration that begins with a table** cannot be applied over a part of itself. -/
theorem stuck_of_createTable {name : TableName} {columns : List ColumnDef} {keys : List (List String)}
    {m : List Statement} (hdrop : ∀ s ∈ m, s ≠ .dropTableIfExists name) {d c : Db} {n : ℕ} (hn : 0 < n)
    (h : store.execAll d (((Statement.createTable name columns keys :: m).take n).map .exec) = some c) :
    store.execAll c ((Statement.createTable name columns keys :: m).map .exec) = none := by
  obtain ⟨k, rfl⟩ := Nat.exists_eq_add_one_of_ne_zero (Nat.ne_of_gt hn)
  obtain ⟨d', hs, h⟩ := Option.bind_eq_some_iff.1 h
  have hcreated : (d'.tables name).isSome := by
    simp only [Migrate.Store.step, store, Db.exec] at hs
    split_ifs at hs
    rw [← Option.some.inj hs]
    simp [Db.set]
  have hthere := execAll_isSome h (fun s hs => hdrop s (List.mem_of_mem_take hs)) hcreated
  have hfails : Db.exec (.createTable name columns keys) c = none := if_pos hthere
  exact congrArg (fun o : Option Db => o.bind fun d' => store.execAll d' (m.map .exec)) hfails

/-- **A column that is added** cannot be added again. -/
theorem stuck_of_addColumn {name : TableName} {column : ColumnDef} {d c : Db} {n : ℕ} (hn : 0 < n)
    (h : store.execAll d (([Statement.addColumn name column].take n).map .exec) = some c) :
    store.execAll c ([Statement.addColumn name column].map .exec) = none := by
  obtain ⟨k, rfl⟩ := Nat.exists_eq_add_one_of_ne_zero (Nat.ne_of_gt hn)
  obtain ⟨d', hs, h⟩ := Option.bind_eq_some_iff.1 h
  obtain rfl : d' = c := by simpa [Migrate.Store.execAll] using h
  obtain ⟨t, -, hs⟩ := Option.bind_eq_some_iff.1 hs
  split_ifs at hs
  obtain rfl := Option.some.inj hs
  have hfails : Db.exec (.addColumn name column) (d.set name (some ⟨{ t.schema with
      columns := t.schema.columns ++ [column] }, t.rows.map fun r => r ++ [column.default.getD .null]⟩)) = none := by
    simp [Db.exec, Db.set]
  exact congrArg (fun o : Option Db => o.bind fun d' => store.execAll d' []) hfails

/-! ### Stopping and starting again -/

/-- A database at a version, where the table of the version is there. -/
def Opened (v : ℕ) (d : Db) : Prop := AtVersion v d ∧ store.prepare d = d

/-- What a migration makes of the tables of its version. -/
theorem applies {v : ℕ} {d : Db} {m : List Statement} (h : Opened v d) (hm : migrations[v]? = some m) :
    ∃ d', store.execAll d (m.map .exec) = some d' ∧ Opened (v + 1) (store.record (v + 1) d') := by
  obtain ⟨rows, versions, rfl, hversion⟩ := h.1.eq_withRows h.2
  have hv : v < 7 := (List.getElem?_eq_some_iff.1 hm).1
  interval_cases v <;> obtain rfl := Option.some.inj hm
  · exact ⟨_, rfl, ⟨fun name => by cases name <;> rfl, version_record hversion⟩, rfl⟩
  · exact ⟨_, rfl, ⟨fun name => by cases name <;> rfl, version_record hversion⟩, rfl⟩
  · exact ⟨_, rfl, ⟨fun name => by cases name <;> rfl, version_record hversion⟩, rfl⟩
  · exact ⟨_, rfl, ⟨fun name => by cases name <;> rfl, version_record hversion⟩, rfl⟩
  · exact ⟨_, rfl, ⟨fun name => by cases name <;> rfl, version_record hversion⟩, rfl⟩
  · exact ⟨_, rfl, ⟨fun name => by cases name <;> rfl, version_record hversion⟩, rfl⟩
  · exact ⟨_, rfl, ⟨fun name => by cases name <;> rfl, version_record hversion⟩, rfl⟩

/-- Every migration but the fifth fails over a part of itself. -/
theorem stuck {v n : ℕ} {d c : Db} {m : List Statement} (hm : migrations[v]? = some m) (hv : v + 1 ≠ 5) (hn : 0 < n)
    (h : store.execAll d ((m.take n).map .exec) = some c) : store.execAll c (m.map .exec) = none := by
  have hlt : v < 7 := (List.getElem?_eq_some_iff.1 hm).1
  interval_cases v <;> obtain rfl := Option.some.inj hm
  · exact stuck_of_createTable (by decide) hn h
  · exact stuck_of_addColumn hn h
  · exact stuck_of_addColumn hn h
  · exact stuck_of_createTable (by decide) hn h
  · exact absurd rfl hv
  · exact stuck_of_addColumn hn h
  · exact stuck_of_addColumn hn h

/-- The fifth can be applied again. -/
theorem again {v n : ℕ} {d c : Db} {m : List Statement} (hm : migrations[v]? = some m) (hv : v + 1 = 5) (hn : 0 < n)
    (h : store.execAll d ((m.take n).map .exec) = some c) :
    store.execAll c (m.map .exec) = store.execAll d (m.map .exec) := by
  obtain rfl : v = 4 := by omega
  obtain rfl := Option.some.inj hm
  obtain ⟨k, rfl⟩ := Nat.exists_eq_add_one_of_ne_zero (Nat.ne_of_gt hn)
  have hc : d.set .auditLog none = c := by
    rw [List.take_succ_cons, List.take_nil] at h
    exact Option.some.inj h
  subst hc
  have htwice : (d.set .auditLog none).set .auditLog none = d.set .auditLog none := by
    refine Db.ext ?_ rfl
    funext name
    by_cases hname : name = .auditLog <;> simp [Db.set, hname]
  exact congrArg some htwice

theorem sound : Migrate.Sound store migrations Opened (· = 5) where
  exec_version _ d d' h := by
    show (d'.versions.getD []).foldl max 0 = (d.versions.getD []).foldl max 0
    rw [exec_versions h]
  prepare_again _ d d' h hd := by
    have hversions : some (d.versions.getD []) = d.versions := congrArg Db.versions hd
    refine Db.ext rfl ?_
    show some (d'.versions.getD []) = d'.versions
    rw [exec_versions h, hversions]
  version _ _ h := h.1.version
  prepared _ _ h := h.2
  applies _ _ _ h hm := applies h hm
  again _ _ _ _ _ _ hm hredo hn _ hc := again hm hredo hn hc
  stuck _ _ _ _ _ _ hm hredo hn _ hc := stuck hm hredo hn hc

/-- **Opening the registry again** after a stop between any two statements reaches what an undisturbed migration does,
exactly when no migration but the fifth was begun and not recorded. -/
theorem reopening_converges_iff {v : ℕ} {d : Db} (h : AtVersion v d) : ∃ final, runMigrations d = some final ∧
    ∀ n, ∃ c, crashed d n = some c ∧ (runMigrations c = some final ↔
      ∀ w, Migrate.underway v (migrations.drop v) (n - 1) = some w → w = 5) := by
  have hopened : Opened v (store.prepare d) := by
    refine ⟨⟨h.tables, h.version⟩, ?_⟩
    rfl
  exact sound.converges_iff hopened

/-- A registry without a table. -/
theorem fresh : AtVersion 0 ⟨fun _ => none, none⟩ := ⟨fun name => by cases name <;> rfl, rfl⟩

theorem fresh_converges : ∃ final, runMigrations ⟨fun _ => none, none⟩ = some final ∧
    ∀ n, ∃ c, crashed ⟨fun _ => none, none⟩ n = some c ∧ (runMigrations c = some final ↔
      ∀ w, Migrate.underway 0 migrations (n - 1) = some w → w = 5) :=
  reopening_converges_iff fresh

/-- A process that stops behind the first table of a registry leaves one that cannot be opened again. -/
theorem half_migrated : (crashed ⟨fun _ => none, none⟩ 2).map (fun c => (runMigrations c).isSome) = some false ∧
    (runMigrations ⟨fun _ => none, none⟩).isSome = true :=
  ⟨rfl, rfl⟩

end Latiq.ControlPlane.Migrations
