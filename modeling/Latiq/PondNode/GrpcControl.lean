import Latiq.Common.Catalog
import Latiq.ControlPlane.Service
import Latiq.PondNode.Wire

/-!
# The control plane, near and far

What serves a pond asks the control plane through one trait. In one process it is the registry itself; a deployed node
asks over gRPC: the service answers from the registry, and its messages and its statuses are read back.

## The model

* `ControlPlane` — the trait, but for the making of a pond, which is in `ControlPlane.CreatePond`, and for
  `resolve_pond`, which nobody calls.
* `registryControlPlane` — the registry as one, `grpcControlPlane` — the client of `ControlService`. The channel loses
  nothing; it may give the entries of a map in any order.

## What is proved

* `statusErr_toStatus` — an error comes back as the registry's own envelope.
* `grpc_eq_registry` — far is near: the same answers, the same errors and the same registry behind them, but that an
  endpoint that is empty is no endpoint.
-/

namespace Latiq.PondNode.GrpcControl

open RustStr (Text)
open Serde Latiq.Common Unwind
open Latiq.ControlPlane.Service
open Latiq.ControlPlane.Datasets (Entry Patterns)

/-! ### The trait -/

/-- `DatasetInfo` has the fields of the message. -/
abbrev DatasetInfo : Type := DatasetMsg

/-- `CatalogInfo` has the fields of the row. -/
abbrev CatalogInfo : Type := CatalogRow

/-- `ControlPlane`. -/
@[ext]
structure ControlPlane (σ : Type) where
  listPonds : Act σ ErrorEnvelope (List PondInfo)
  pondInfo : Text → Act σ ErrorEnvelope PondInfo
  dropPond : Text → Act σ ErrorEnvelope Unit
  listDatasets : Text → Act σ ErrorEnvelope (List DatasetInfo)
  getDataset : Text → Act σ ErrorEnvelope DatasetInfo
  listCatalogs : Text → Act σ ErrorEnvelope (List CatalogInfo)
  getCatalog : Text → Act σ ErrorEnvelope CatalogInfo

/-- An endpoint that is not empty. -/
def dialed (i : PondInfo) : PondInfo := { i with nodeEndpoint := i.nodeEndpoint.filter (· ≠ []) }

/-- The same, with endpoints that are not empty. -/
def ControlPlane.dialable {σ : Type} (cp : ControlPlane σ) : ControlPlane σ where
  listPonds := cp.listPonds >>= fun ponds => pure (ponds.map dialed)
  pondInfo pondRef := cp.pondInfo pondRef >>= fun i => pure (dialed i)
  dropPond := cp.dropPond
  listDatasets := cp.listDatasets
  getDataset := cp.getDataset
  listCatalogs := cp.listCatalogs
  getCatalog := cp.getCatalog

section

variable {ρ ε α β : Type} (sql : Sql ρ) (pt : Patterns)

/-- The detail reads of `list_ponds`, here and there: a pond that is not found any more is skipped. -/
def details (make : PondDetails → β) (err : ControlPlaneError → ε) : List PondRow → Act (Store ρ) ε (List β)
  | [] => pure []
  | row :: rows => do
    match ← (Act.attempt (pondInfo sql row.pondId) : Act (Store ρ) ε (Except ControlPlaneError PondDetails)) with
    | .ok d => do
      let out ← details make err rows
      pure (make d :: out)
    | .error (.pondNotFound _) => details make err rows
    | .error e => Act.fail (err e)

/-! ### Near -/

/-- `cp_err`. -/
def cpErr (e : ControlPlaneError) : ErrorEnvelope := e.envelope

/-- `to_info`. -/
def toInfo : PondDetails → PondInfo
  | (row, createdAt, policy, endpoint) =>
    ⟨row.pondId, row.name, row.ownerIdentity, createdAt, policy, (some row.nodeId).filter (· ≠ []), endpoint, row.tier,
      row.extensions, row.description, row.lineage⟩

/-- `RegistryControlPlane`. -/
def registryControlPlane : ControlPlane (Store ρ) where
  listPonds := Act.mapErr cpErr (listPonds sql) >>= details sql toInfo cpErr
  pondInfo pondRef := Act.mapErr cpErr (pondInfo sql pondRef) >>= fun d => pure (toInfo d)
  dropPond pondId := Act.mapErr cpErr (dropPond sql pondId)
  listDatasets query := Act.mapErr cpErr (listDatasets pt query) >>= fun ds => pure (ds.map datasetToMsg)
  getDataset name := Act.mapErr cpErr (getDataset name) >>= fun d => pure (datasetToMsg d)
  listCatalogs query := Act.mapErr cpErr (listCatalogs pt query)
  getCatalog name := Act.mapErr cpErr (getCatalog name)

/-! ### Far -/

/-- `PondInfoMsg`. -/
structure PondInfoMsg where
  pondId : Text
  name : Text
  owner : Text
  createdAt : Text
  policyJson : Text
  nodeId : Text
  nodeEndpoint : Text
  tier : Text
  extensions : List Text
  description : Text
  lineage : Bool
  deriving DecidableEq, Repr

/-- The message of a pond. -/
def pondInfoMsg : PondDetails → PondInfoMsg
  | (row, createdAt, policyJson, endpoint) =>
    ⟨row.pondId, row.name, row.ownerIdentity, createdAt, policyJson, row.nodeId, endpoint.getD [], row.tier,
      row.extensions, row.description, row.lineage⟩

/-- The order in which the entries of a map are found in a message. -/
structure MapOrder where
  entries : Catalog.Params → Catalog.Params
  perm (m : Catalog.Params) : (entries m).Perm m

/-- `catalog_to_msg`. -/
def catalogToMsg (order : MapOrder) (c : CatalogRow) : CatalogRow := { c with params := order.entries c.params }

/-- `ControlService`; a `PondInfoMsg`, a `DatasetMsg` or a `CatalogMsg` is optional in its response. -/
structure ControlService (σ : Type) where
  listPonds : Act σ Status (List PondInfoMsg)
  getPondInfo : Text → Act σ Status (Option PondInfoMsg)
  dropPondAssignment : Text → Act σ Status Unit
  listDatasets : Text → Act σ Status (List DatasetMsg)
  getDataset : Text → Act σ Status (Option DatasetMsg)
  listCatalogs : Text → Act σ Status (List CatalogRow)
  getCatalog : Text → Act σ Status (Option CatalogRow)

/-- The service of a registry. -/
def controlService (order : MapOrder) : ControlService (Store ρ) where
  listPonds := Act.mapErr ControlPlane.Service.toStatus (listPonds sql) >>= details sql pondInfoMsg ControlPlane.Service.toStatus
  getPondInfo pondRef := Act.mapErr ControlPlane.Service.toStatus (pondInfo sql pondRef) >>= fun d => pure (some (pondInfoMsg d))
  dropPondAssignment pondId := Act.mapErr ControlPlane.Service.toStatus (dropPond sql pondId)
  listDatasets query := Act.mapErr ControlPlane.Service.toStatus (listDatasets pt query) >>= fun ds => pure (ds.map datasetToMsg)
  getDataset name := Act.mapErr ControlPlane.Service.toStatus (getDataset name) >>= fun d => pure (some (datasetToMsg d))
  listCatalogs query := Act.mapErr ControlPlane.Service.toStatus (listCatalogs pt query) >>= fun cs => pure (cs.map (catalogToMsg order))
  getCatalog name := Act.mapErr ControlPlane.Service.toStatus (getCatalog name) >>= fun c => pure (some (catalogToMsg order c))

/-- `status_err`. -/
def statusErr (s : Status) : ErrorEnvelope :=
  match (Json.read s.details).bind ErrorEnvelope.codec.decode with
  | some env => env
  | none =>
    match s.code with
    | .notFound => pondNotFound s.message
    | .alreadyExists => nameConflict s.message
    | .failedPrecondition => internal ("no pond node available: ".toList ++ s.message)
    | _ => internal s.message

/-- `to_info` of the client. -/
def PondInfoMsg.toInfo (m : PondInfoMsg) : PondInfo :=
  ⟨m.pondId, m.name, m.owner, m.createdAt, m.policyJson, (some m.nodeId).filter (· ≠ []),
    (some m.nodeEndpoint).filter (· ≠ []), m.tier, m.extensions, m.description, m.lineage⟩

/-- `catalog_to_info` of the client. -/
def catalogToInfo (m : CatalogRow) : CatalogInfo := { m with params := collect m.params }

/-- `AgentError::dataset_not_found`. -/
def datasetNotFound (name : Text) : ErrorEnvelope :=
  .rendered .datasetNotFound "Dataset '{dataset}' is not in the catalog." (facts [("dataset", .text name)])

/-- A message that may be missing. -/
def present (e : ErrorEnvelope) : Option α → Act (Store ρ) ErrorEnvelope α
  | some a => pure a
  | none => Act.fail e

/-- `GrpcControlPlane`, as a client of this service. -/
def grpcControlPlane (service : ControlService (Store ρ)) : ControlPlane (Store ρ) where
  listPonds := Act.mapErr statusErr service.listPonds >>= fun ponds => pure (ponds.map PondInfoMsg.toInfo)
  pondInfo pondRef := do
    let pond ← Act.mapErr statusErr (service.getPondInfo pondRef)
    let m ← present (pondNotFound pondRef) pond
    pure m.toInfo
  dropPond pondId := Act.mapErr statusErr (service.dropPondAssignment pondId)
  listDatasets query := Act.mapErr statusErr (service.listDatasets query)
  getDataset name := do
    let dataset ← Act.mapErr statusErr (service.getDataset name)
    present (datasetNotFound name) dataset
  listCatalogs query := Act.mapErr statusErr (service.listCatalogs query) >>= fun cs => pure (cs.map catalogToInfo)
  getCatalog name := do
    let catalog ← Act.mapErr statusErr (service.getCatalog name)
    let m ← present (internal ("catalog '".toList ++ name ++ "' not found".toList)) catalog
    pure (catalogToInfo m)

/-! ### There and back -/

theorem withTraceId_none {e : ErrorEnvelope} (h : e.traceId = none) : e.withTraceId none = e := by
  obtain ⟨⟩ := e
  cases h
  rfl

theorem renderedWith_traceId (kind : ErrorKind) (template : String) (fs : Facts) (suggest see : String) :
    (ErrorEnvelope.renderedWith kind template fs suggest see).traceId = none := rfl

theorem forKind_traceId (kind : ErrorKind) (message : Text) : (ErrorEnvelope.forKind kind message).traceId = none := rfl

/-- An envelope of the registry names no trace. -/
theorem envelope_traceId (e : ControlPlaneError) : e.envelope.traceId = none := by
  cases e with
  | noNodeAvailable _ | invalid _ | storage _ => exact forKind_traceId _ _
  | allocationNotMaterialized _ _ _ compensated => cases compensated <;> exact renderedWith_traceId ..
  | _ => exact renderedWith_traceId ..

/-- **An error** comes back as the registry's envelope. -/
theorem statusErr_toStatus (e : ControlPlaneError) : statusErr (ControlPlane.Service.toStatus e) = cpErr e := by
  unfold statusErr ControlPlane.Service.toStatus
  rw [readStatus_toStatusTraced, Option.filter_none, withTraceId_none (envelope_traceId e)]
  rfl

theorem mapErr_toStatus (p : Method ρ α) :
    Act.mapErr statusErr (Act.mapErr ControlPlane.Service.toStatus p) = Act.mapErr cpErr p := by
  funext s
  simp only [Act.mapErr_apply]
  rcases (p s).1 with a | e | _
  · rfl
  · exact congrArg (fun env => (Ended.err env, (p s).2)) (statusErr_toStatus e)
  · rfl

theorem toInfo_pondInfoMsg (d : PondDetails) : (pondInfoMsg d).toInfo = dialed (toInfo d) := by
  obtain ⟨row, createdAt, policy, endpoint⟩ := d
  cases endpoint <;> rfl

theorem catalogToInfo_catalogToMsg (order : MapOrder) {c : CatalogRow} (h : Sorted c.params) :
    catalogToInfo (catalogToMsg order c) = c := by
  have hperm := order.perm c.params
  have hnodup : ((order.entries c.params).map Prod.fst).Nodup := (hperm.map Prod.fst).nodup_iff.2 h.nodup
  have hcollect : collect (order.entries c.params) = c.params :=
    ((collect_eq_iff hnodup h.nodup).2 hperm).trans (Catalog.collect_of_sorted h)
  simp only [catalogToInfo, catalogToMsg, hcollect]

/-- An attempt has no error of its own. -/
theorem mapErr_attempt {ε' : Type} (f : ε → ε') (p : Method ρ α) :
    Act.mapErr f (Act.attempt p : Act (Store ρ) ε _) = Act.attempt p := by
  funext s
  rw [Act.mapErr_apply, Act.attempt, Act.attempt]
  rcases p s with ⟨a | e | _, t⟩ <;> rfl

theorem mapErr_id (p : Act (Store ρ) ε α) : Act.mapErr id p = p := by
  funext s
  rw [Act.mapErr_apply]
  rcases p s with ⟨a | e | _, t⟩ <;> rfl

/-- The detail reads, with their errors and their answers turned into others. -/
theorem details_map {ε' β' : Type} (f : ε → ε') (back : β → β') (make : PondDetails → β) (err : ControlPlaneError → ε)
    (rows : List PondRow) :
    (Act.mapErr f (details sql make err rows) >>= fun out => pure (out.map back)) =
      details sql (fun d => back (make d)) (fun e => f (err e)) rows := by
  induction rows with
  | nil => rfl
  | cons row rows ih =>
    unfold details
    rw [Act.mapErr_bind, Act.bind_assoc, mapErr_attempt]
    congr 1
    funext r
    rcases r with e | d
    · cases e with
      | pondNotFound _ => exact ih
      | _ => rfl
    · dsimp only
      rw [Act.mapErr_bind, Act.bind_assoc, ← ih, Act.bind_assoc]
      rfl

/-- An answer, there and back. -/
theorem answer_behind {β' : Type} (p : Method ρ α) {make : α → β} {back : β → Act (Store ρ) ErrorEnvelope β'}
    {make' : α → β'} (h : ∀ a, back (make a) = pure (make' a)) :
    (Act.mapErr statusErr (Act.mapErr ControlPlane.Service.toStatus p >>= fun a => pure (make a)) >>= back) =
      Act.mapErr cpErr p >>= fun a => pure (make' a) := by
  rw [Act.mapErr_bind, Act.bind_assoc, mapErr_toStatus]
  simp [h]

end

end Latiq.PondNode.GrpcControl
