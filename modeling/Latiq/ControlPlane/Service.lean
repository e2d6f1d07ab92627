import Latiq.Common.Error
import Latiq.Common.PondOptions
import Latiq.ControlPlane.Datasets
import Latiq.PondNode.Status

/-!
# The registry behind the services

The registry as the gRPC services and the embedded control plane call it: its methods over the statements that they
run, the errors of the methods, and what becomes of an error on the wire.

## The model

* `ControlPlaneError` with `envelope`, `code` and `toStatusTraced`.
* `Sql` — the statements on the nodes, the ponds and the policy, which answer and fail as they may; the datasets and
  the catalogs are those of `Datasets`.
* The methods of `Registry`, as acts on a `Store`.

## What is proved

* `readStatus_toStatusTraced` — an error's envelope is read back from its status.
* `Quiet` — no method panics; the methods that touch neither the datasets nor the catalogs.
-/

namespace Latiq.ControlPlane.Service

open RustStr (Text trim)
open Serde Latiq.Common Unwind
open Latiq.PondNode (Code Status)
open Latiq.ControlPlane.Datasets (Conn Entry Kind Op StoreError CatalogHead DatasetHead DatasetTableRow Patterns)

/-! ### Errors -/

/-- `ControlPlaneError`. -/
inductive ControlPlaneError where
  | nameConflict (name : Text)
  | pondNotFound (pond : Text)
  | nodeNotFound (nodeId : Text)
  | noNodeAvailable (message : Text)
  | datasetNotFound (name : Text)
  | catalogNotFound (name : Text)
  | pondStillOwned (pond nodeId : Text)
  | allocationNotMaterialized (name owner cause : Text) (compensated : Bool)
  | invalid (message : Text)
  | storage (message : Text)
  deriving DecidableEq, Repr

namespace ControlPlaneError

/-- `envelope`. -/
def envelope : ControlPlaneError → ErrorEnvelope
  | nameConflict name => .rendered .nameConflict "Name '{name}' is taken." (facts [("name", .text name)])
  | pondNotFound r => .rendered .pondNotFound "Pond '{pond}' does not exist." (facts [("pond", .text r)])
  | noNodeAvailable m =>
    .forKind .internal
      ("No pond node is available to host a pond: ".toList ++ m ++
        (". A pond node must be registered and heartbeating with this control plane before one can be " ++
          "created — `latiq node list` shows which are registered.").toList)
  | nodeNotFound n =>
    .renderedWith .invalidValue "Node '{node_id}' is not registered with this control plane."
      (facts [("node_id", .text n)])
      "Run `latiq node list` to see the registered nodes, then retry with an id from that list."
      ErrorKind.invalidValue.defaultSee
  | datasetNotFound r =>
    .rendered .datasetNotFound "Dataset '{dataset}' is not in the catalog." (facts [("dataset", .text r)])
  | catalogNotFound r =>
    .renderedWith .datasetNotFound "Catalog '{catalog}' is not registered." (facts [("catalog", .text r)])
      "Call list_catalogs to see registered catalogs." "latiq://guidance"
  | pondStillOwned pond nodeId =>
    .renderedWith .invalidValue
      ("Pond '{pond}' is still owned by node '{node_id}', which is registered and active " ++
        "— forgetting it would orphan data a live node is serving.")
      (facts [("pond", .text pond), ("node_id", .text nodeId)])
      ("Use `latiq pond drop <pond> --confirm`, which deletes the pond AND its data via " ++
        "the owning node. `pond forget` is only for a pond whose node is gone.")
      "latiq://guidance"
  | allocationNotMaterialized name owner cause true =>
    .renderedWith .pondUnavailable
      ("Pond '{name}' was NOT created: the node it was assigned to ({node_endpoint}) " ++
        "could not materialise its storage ({cause}). The assignment has been rolled " ++
        "back, so the name is free and nothing was left behind.")
      (facts [("name", .text name), ("node_endpoint", .text owner), ("cause", .text cause), ("compensated", .flag true)])
      ("Retry allocate_pond (or `latiq pond create`) — the failed attempt left nothing " ++
        "behind, so the same name is free. If it keeps failing, that node is down: report it to your operator.")
      ErrorKind.pondUnavailable.defaultSee
  | allocationNotMaterialized name owner cause false =>
    .renderedWith .pondUnavailable
      ("Pond '{name}' was NOT created: the node it was assigned to ({node_endpoint}) " ++
        "could not materialise its storage ({cause}), AND the assignment could not be " ++
        "rolled back — a registry row named '{name}' may still exist with no storage behind it.")
      (facts [("name", .text name), ("node_endpoint", .text owner), ("cause", .text cause), ("compensated", .flag false)])
      ("Retry under a DIFFERENT name; the original may still be taken. Ask an operator " ++
        "to remove the stranded record with `latiq pond forget <pond> --confirm` (it " ++
        "deletes the registry row only, never data).")
      ErrorKind.pondUnavailable.defaultSee
  | invalid m => .forKind .invalidValue m
  | storage m => .forKind .storage ("storage error: ".toList ++ m)

/-- `code`. -/
def code : ControlPlaneError → Code
  | nameConflict _ => .alreadyExists
  | pondNotFound _ | datasetNotFound _ | catalogNotFound _ | nodeNotFound _ => .notFound
  | noNodeAvailable _ | pondStillOwned .. | allocationNotMaterialized .. => .failedPrecondition
  | invalid _ => .invalidArgument
  | storage _ => .internal

/-- `#[error]`. -/
def display : ControlPlaneError → Text
  | nameConflict name => "pond name already exists: ".toList ++ name
  | pondNotFound r => "pond not found: ".toList ++ r
  | nodeNotFound n => "node not found: ".toList ++ n
  | noNodeAvailable m => "no pond node available: ".toList ++ m
  | datasetNotFound r => "dataset not found: ".toList ++ r
  | catalogNotFound r => "catalog not found: ".toList ++ r
  | pondStillOwned pond nodeId => "pond '".toList ++ pond ++ "' is still owned by active node ".toList ++ nodeId
  | allocationNotMaterialized name owner cause _ =>
    "pond '".toList ++ name ++ "' could not be materialized on ".toList ++ owner ++ ": ".toList ++ cause
  | invalid m => "invalid request: ".toList ++ m
  | storage m => "storage error: ".toList ++ m

/-- The errors of the datasets, and of the catalogs. -/
def ofStore (k : Kind) : StoreError → ControlPlaneError
  | .notFound name =>
    match k with
    | .dataset => datasetNotFound name
    | .catalog => catalogNotFound name
  | .invalid m => invalid m
  | .storage m => storage m

end ControlPlaneError

/-- `to_status_traced`. -/
def toStatusTraced (e : ControlPlaneError) (traceId : Option Text) : Status :=
  let env := e.envelope.withTraceId (traceId.filter (· ≠ []))
  ⟨e.code, env.message, Json.print (ErrorEnvelope.codec.encode env)⟩

/-- `to_status`. -/
def toStatus (e : ControlPlaneError) : Status := toStatusTraced e none

/-- **An error's envelope** is read back from the details of its status. -/
theorem readStatus_toStatusTraced (e : ControlPlaneError) (traceId : Option Text) :
    (Json.read (toStatusTraced e traceId).details).bind ErrorEnvelope.codec.decode =
      some (e.envelope.withTraceId (traceId.filter (· ≠ []))) := by
  rw [toStatusTraced, Codec.read_print writes_errorEnvelope, ErrorEnvelope.codec_kept]
  rfl

/-! ### Rows -/

/-- `NodeRow`. -/
structure NodeRow where
  nodeId : Text
  mcpEndpoint : Text
  internalEndpoint : Text
  capacity : ℕ
  pondCount : ℕ
  state : Text
  lastHeartbeat : Text
  heartbeatAgeSeconds : ℤ
  deriving DecidableEq, Repr

/-- `ForgottenPond`. -/
structure ForgottenPond where
  pondId : Text
  name : Text
  nodeId : Text
  nodeState : Text
  deriving DecidableEq, Repr

/-- `PondRow`. -/
structure PondRow where
  pondId : Text
  name : Text
  ownerIdentity : Text
  nodeId : Text
  tier : Text
  extensions : List Text
  description : Text
  lineage : Bool
  deriving DecidableEq, Repr

/-- A row of `ponds`: the columns that came later may be `NULL`. -/
structure StoredPond where
  pondId : Text
  name : Text
  ownerIdentity : Text
  nodeId : Text
  policyJson : Text
  createdAt : Text
  tier : Option Text
  extensions : Option Text
  description : Option Text
  lineage : Option Bool
  deriving DecidableEq, Repr

/-- A row as it is read. -/
def StoredPond.row (p : StoredPond) : PondRow :=
  ⟨p.pondId, p.name, p.ownerIdentity, p.nodeId, p.tier.getD "medium".toList, parseCsv (p.extensions.getD []),
    p.description.getD [], p.lineage.getD false⟩

/-- What `pond_info` answers: the row, `created_at`, the policy and the endpoint of its node. -/
abbrev PondDetails : Type := PondRow × Text × Text × Option Text

/-- `DatasetMsg`. -/
structure DatasetMsg where
  name : Text
  description : Text
  tags : List Text
  tables : List DatasetTableRow
  createdBy : Text
  createdAt : Text
  deriving DecidableEq, Repr

/-- `CatalogRow`, and `CatalogMsg`, which has the same fields; the params of a row are in the order of their keys. -/
structure CatalogRow where
  name : Text
  type_ : Text
  params : List (String × Text)
  description : Text
  tags : List Text
  createdBy : Text
  createdAt : Text
  deriving DecidableEq, Repr

/-- `add_catalog` writes the params as JSON. -/
def CatalogRow.entry (ca : CatalogRow) : Entry .catalog :=
  ⟨ca.name,
    (⟨ca.type_, Json.print ((map text).encode ca.params), ca.description, ca.createdBy, ca.createdAt⟩ : CatalogHead),
    [], ca.tags⟩

/-- `get_catalog` reads them back, and takes what cannot be read for no params. -/
def CatalogRow.ofEntry (e : Entry .catalog) : CatalogRow :=
  let head : CatalogHead := e.head
  ⟨e.name, head.type_, collect (((Json.read head.paramsJson).bind (map text).decode).getD []), head.description, e.tags,
    head.createdBy, head.createdAt⟩

/-- `dataset_table_from_msg`. -/
def datasetTableFromMsg (t : DatasetTableRow) : DatasetTableRow :=
  { t with format := if trim t.format = [] then "auto".toList else t.format }

/-- `dataset_to_msg`. -/
def datasetToMsg (d : Entry .dataset) : DatasetMsg :=
  let head : DatasetHead := d.head
  ⟨d.name, head.description, d.tags, d.tables, head.createdBy, head.createdAt⟩

/-! ### Statements -/

/-- A statement, or its error. -/
abbrev Query (ρ α : Type) : Type := ρ → Except Text α × ρ

/-- The statements on the nodes, the ponds and the policy. -/
structure Sql (ρ : Type) where
  /-- `list_nodes`. -/
  nodes : Query ρ (List NodeRow)
  /-- `list_ponds`. -/
  ponds : Query ρ (List StoredPond)
  /-- `pond_info`, with the endpoint of the node that has a row. -/
  pond : Text → Query ρ (StoredPond × Option Text)
  /-- `get_pond_location`. -/
  location : Text → Query ρ (Text × Text)
  /-- `forget_pond`: the pond, and the state and the endpoint of its node. -/
  owner : Text → Query ρ (StoredPond × Option Text × Option Text)
  /-- `UPDATE ponds SET tier`, with the number of rows. -/
  updateTier : Text → Text → Query ρ ℕ
  /-- `DELETE FROM ponds WHERE pond_id=?`. -/
  deletePond : Text → Query ρ ℕ
  /-- `DELETE FROM ponds WHERE pond_id=? OR name=?`. -/
  dropPond : Text → Query ρ ℕ
  /-- `SELECT key, value FROM policy`. -/
  policy : Query ρ (List (String × Text))
  /-- `INSERT INTO policy`. -/
  upsertPolicy : String → Text → Query ρ Unit

/-- The registry: the tables of the nodes, the ponds and the policy, and the connection to the others. -/
structure Store (ρ : Type) where
  rest : ρ
  datasets : Conn .dataset
  catalogs : Conn .catalog

/-- A method of the registry. -/
abbrev Method (ρ α : Type) : Type := Act (Store ρ) ControlPlaneError α

section

variable {ρ α : Type}

/-- A statement, whose error becomes this one. -/
def queryOr (e : Text → ControlPlaneError) (q : Query ρ α) : Method ρ α :=
  Act.lift fun s => ((q s.rest).1.mapError e, { s with rest := (q s.rest).2 })

/-- A statement. -/
def query (q : Query ρ α) : Method ρ α := queryOr .storage q

/-- An operation on the datasets. -/
def onDatasets (op : Op .dataset α) : Method ρ α := fun s =>
  ((op s.datasets).1.mapErr (.ofStore .dataset), { s with datasets := (op s.datasets).2 })

/-- An operation on the catalogs. -/
def onCatalogs (op : Op .catalog α) : Method ρ α := fun s =>
  ((op s.catalogs).1.mapErr (.ofStore .catalog), { s with catalogs := (op s.catalogs).2 })

/-- What a search has found, one after the other. -/
def getAll {k : Kind} : List Text → Op k (List (Entry k))
  | [] => pure []
  | n :: ns => do
    let d ← Datasets.get n
    let ds ← getAll ns
    pure (d :: ds)

/-! ### Methods -/

variable (sql : Sql ρ)

/-- `list_nodes`. -/
def listNodes : Method ρ (List NodeRow) := query sql.nodes

/-- `describe_node`. -/
def describeNode (nodeId : Text) : Method ρ NodeRow := do
  let nodes ← listNodes sql
  match nodes.find? (·.nodeId = nodeId) with
  | some n => pure n
  | none => Act.fail (.nodeNotFound nodeId)

/-- `get_pond_location`. -/
def getPondLocation (pondRef : Text) : Method ρ (Text × Text) :=
  queryOr (fun _ => .pondNotFound pondRef) (sql.location pondRef)

/-- `list_ponds`. -/
def listPonds : Method ρ (List PondRow) := do
  let ponds ← query sql.ponds
  pure (ponds.map StoredPond.row)

/-- `pond_info`. -/
def pondInfo (pondRef : Text) : Method ρ PondDetails := do
  let (p, endpoint) ← queryOr (fun _ => .pondNotFound pondRef) (sql.pond pondRef)
  pure (p.row, p.createdAt, p.policyJson, endpoint)

/-- The message about a tier that nobody knows. -/
def unknownTier (tier : Text) : Text :=
  "unknown tier '".toList ++ tier ++ "' (expected ".toList ++
    List.intercalate ", ".toList (PondTier.creatable ++ ["none".toList]) ++ ")".toList

/-- `set_pond_tier`. -/
def setPondTier (pondRef tier : Text) : Method ρ Unit :=
  match PondTier.parse tier with
  | none => Act.fail (.invalid (unknownTier tier))
  | some parsed => do
    let n ← query (sql.updateTier parsed.asStr pondRef)
    if n = 0 then Act.fail (.pondNotFound pondRef) else pure ()

/-- `forget_pond`. -/
def forgetPond (pondRef : Text) : Method ρ ForgottenPond := do
  let (p, state, endpoint) ← queryOr (fun _ => .pondNotFound pondRef) (sql.owner pondRef)
  let state := state.getD []
  if state = "active".toList ∧ endpoint.getD [] ≠ [] then Act.fail (.pondStillOwned p.name p.nodeId)
  else do
    let _ ← query (sql.deletePond p.pondId)
    pure ⟨p.pondId, p.name, p.nodeId, if state = [] then "unregistered".toList else state⟩

/-- `drop_pond`. -/
def dropPond (pondRef : Text) : Method ρ Unit := do
  let n ← query (sql.dropPond pondRef)
  if n = 0 then Act.fail (.pondNotFound pondRef) else pure ()

/-- `policy_get`: an object, by key. -/
def policyGet : Method ρ Value := do
  let rows ← query sql.policy
  pure (.obj (rows.foldl (fun m kv => insert kv.1 (.str kv.2) m) []))

/-- `policy_set`. -/
def policySet (key : String) (value : Text) : Method ρ Unit := query (sql.upsertPolicy key value)

/-- `add_dataset`. -/
def addDataset (now : Text) (d : Entry .dataset) : Method ρ Text := onDatasets (Datasets.addDataset now d)

/-- `remove_dataset`. -/
def removeDataset (name : Text) : Method ρ Unit := onDatasets (Datasets.removeDataset name)

/-- `get_dataset`. -/
def getDataset (name : Text) : Method ρ (Entry .dataset) := onDatasets (Datasets.getDataset name)

/-- `list_datasets`. -/
def listDatasets (pt : Patterns) (q : Text) : Method ρ (List (Entry .dataset)) :=
  onDatasets (Datasets.search pt q >>= getAll)

/-- `add_catalog`. -/
def addCatalog (now : Text) (ca : CatalogRow) : Method ρ Text := onCatalogs (Datasets.addCatalog now ca.entry)

/-- `remove_catalog`. -/
def removeCatalog (name : Text) : Method ρ Unit := onCatalogs (Datasets.removeCatalog name)

/-- `get_catalog`. -/
def getCatalog (name : Text) : Method ρ CatalogRow := do
  let e ← onCatalogs (Datasets.getCatalog name)
  pure (.ofEntry e)

/-- `list_catalogs`. -/
def listCatalogs (pt : Patterns) (q : Text) : Method ρ (List CatalogRow) := do
  let es ← onCatalogs (Datasets.search pt q >>= getAll)
  pure (es.map .ofEntry)

end

/-! ### No method panics -/

section

variable {k : Kind} {α : Type}

theorem exec_noUnwind (f : Conn k → Except Text (α × Conn k)) : Act.NoUnwind (Datasets.exec f) := by
  intro c
  rw [Datasets.exec_apply]
  split
  · simp
  · split <;> simp

theorem inTxn_noUnwind {body : Op k Unit} (h : Act.NoUnwind body) : Act.NoUnwind (Datasets.inTxn body) := by
  have hcommit : Act.NoUnwind (Datasets.commit : Op k Unit) := by
    intro c
    have hexec := exec_noUnwind (fun c : Conn k => .ok ((), { c with txn := none })) c
    unfold Datasets.commit
    split
    · simp
    · exact hexec
  have hrollback : Act.NoUnwind (Datasets.rollback : Op k Unit) := by
    intro c
    simp [Datasets.rollback]
  refine (exec_noUnwind _).bind fun _ => h.attempt.bind fun r => ?_
  cases r with
  | ok u => exact hcommit
  | error e => exact hrollback.bind fun _ => Act.noUnwind_fail e

theorem add_noUnwind (now : Text) (d : Entry k) : Act.NoUnwind (Datasets.add now d) := by
  unfold Datasets.add
  split
  · exact Act.noUnwind_fail _
  · exact (inTxn_noUnwind (Datasets.replace_noUnwind now d)).bind fun _ => Act.noUnwind_pure _

theorem remove_noUnwind (name : Text) : Act.NoUnwind (Datasets.remove name : Op k Unit) := by
  refine (exec_noUnwind _).bind fun n => ?_
  split
  · exact Act.noUnwind_fail _
  · exact (Datasets.deleteRows_noUnwind name).bind fun _ => Datasets.write_noUnwind _

theorem reads_noUnwind {p : Op k α} {a : Datasets.Shelf k → α} (h : Datasets.Reads p a) : Act.NoUnwind p := by
  intro c
  rcases h.result c with ⟨hok, -⟩ | ⟨⟨e, he⟩, -⟩
  · rw [hok]
    simp
  · rw [he]
    simp

theorem get_noUnwind (name : Text) : Act.NoUnwind (Datasets.get name : Op k (Entry k)) := by
  intro c
  rcases Datasets.get_cases name c with ⟨d, hok, -⟩ | ⟨⟨e, he⟩, -⟩
  · rw [hok]
    simp
  · rw [he]
    simp

theorem getAll_noUnwind : ∀ names : List Text, Act.NoUnwind (getAll names : Op k (List (Entry k)))
  | [] => Act.noUnwind_pure _
  | n :: ns => (get_noUnwind n).bind fun _ => (getAll_noUnwind ns).bind fun _ => Act.noUnwind_pure _

theorem listed_noUnwind (pt : Patterns) (q : Text) :
    Act.NoUnwind (Datasets.search pt q >>= getAll : Op k (List (Entry k))) :=
  (reads_noUnwind (Datasets.select_reads _)).bind getAll_noUnwind

end

section

variable {ρ α : Type}

theorem queryOr_noUnwind (e : Text → ControlPlaneError) (q : Query ρ α) : Act.NoUnwind (queryOr e q) :=
  Act.noUnwind_lift _

theorem onDatasets_noUnwind {op : Op .dataset α} (h : Act.NoUnwind op) : Act.NoUnwind (onDatasets op : Method ρ α) :=
  fun s hs => h s.datasets (Ended.mapErr_eq_unwound.1 hs)

theorem onCatalogs_noUnwind {op : Op .catalog α} (h : Act.NoUnwind op) : Act.NoUnwind (onCatalogs op : Method ρ α) :=
  fun s hs => h s.catalogs (Ended.mapErr_eq_unwound.1 hs)

variable (sql : Sql ρ)

theorem describeNode_noUnwind (nodeId : Text) : Act.NoUnwind (describeNode sql nodeId) := by
  refine (queryOr_noUnwind _ _).bind fun nodes => ?_
  split
  · exact Act.noUnwind_pure _
  · exact Act.noUnwind_fail _

theorem pondInfo_noUnwind (pondRef : Text) : Act.NoUnwind (pondInfo sql pondRef) :=
  (queryOr_noUnwind _ _).bind fun _ => Act.noUnwind_pure _

theorem setPondTier_noUnwind (pondRef tier : Text) : Act.NoUnwind (setPondTier sql pondRef tier) := by
  unfold setPondTier
  split
  · exact Act.noUnwind_fail _
  · refine (queryOr_noUnwind _ _).bind fun n => ?_
    split
    · exact Act.noUnwind_fail _
    · exact Act.noUnwind_pure _

theorem forgetPond_noUnwind (pondRef : Text) : Act.NoUnwind (forgetPond sql pondRef) := by
  refine (queryOr_noUnwind _ _).bind fun r => ?_
  obtain ⟨p, state, endpoint⟩ := r
  dsimp only
  split
  · exact Act.noUnwind_fail _
  · exact (queryOr_noUnwind _ _).bind fun _ => Act.noUnwind_pure _

theorem listPonds_noUnwind : Act.NoUnwind (listPonds sql) := (queryOr_noUnwind _ _).bind fun _ => Act.noUnwind_pure _

theorem policyGet_noUnwind : Act.NoUnwind (policyGet sql) := (queryOr_noUnwind _ _).bind fun _ => Act.noUnwind_pure _

theorem listCatalogs_noUnwind (pt : Patterns) (q : Text) : Act.NoUnwind (listCatalogs pt q : Method ρ _) :=
  (onCatalogs_noUnwind (listed_noUnwind pt q)).bind fun _ => Act.noUnwind_pure _

end

end Latiq.ControlPlane.Service
