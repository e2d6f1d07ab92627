import Latiq.Auth.Door
import Latiq.Common.Catalog
import Latiq.Common.Trace
import Latiq.ControlPlane.Service

/-!
# The operators' surface

The handlers of the admin service: each finds out who is calling, asks the registry, and writes one record of the call.

## The model

* `Rpc`, `Reply` — the calls, with their messages.
* `AdminService` with its handlers, as acts on a `World`: the registry and the access log.
* `AdminService.run` — any number of calls, one behind the other.

## What is proved

* `serve_recorded` — one call: one record, that says whether the call has landed.
* `audit_trail` — a run leaves one record of each call, in order.
* `turned_away_unseen` — the calls that are turned away change nothing that the others see.
-/

namespace Latiq.ControlPlane.Service

open RustStr (Text trim)
open Serde Latiq.Common Unwind
open Latiq.Auth (Door Gate Headers adminIdentity)
open Latiq.EngineDuckdb (Identity)
open Latiq.PondNode (Code Status)
open Latiq.ControlPlane.Datasets (Entry DatasetHead Patterns)

/-! ### Messages -/

/-- `NodeInfo`. -/
structure NodeInfo where
  nodeId : Text
  mcpEndpoint : Text
  state : Text
  pondCount : ℕ
  lastHeartbeat : Text
  heartbeatAgeSeconds : ℕ
  deriving DecidableEq, Repr

/-- `node_info`. -/
def nodeInfo (n : NodeRow) : NodeInfo :=
  ⟨n.nodeId, n.mcpEndpoint, n.state, n.pondCount, n.lastHeartbeat, n.heartbeatAgeSeconds.toNat⟩

/-- `PondSummary`. -/
structure PondSummary where
  pondId : Text
  name : Text
  owner : Text
  createdAt : Text
  nodeId : Text
  tier : Text
  description : Text
  lineage : Bool
  deriving DecidableEq, Repr

/-- A call, with its message. -/
inductive Rpc where
  | listNodes
  | describeNode (nodeId : Text)
  | policyGet
  | policySet (key : String) (value : Text)
  | pondList
  | pondSetTier (pond tier : Text)
  | pondForget (pond : Text) (confirm : Bool)
  | datasetAdd (dataset : Option DatasetMsg)
  | datasetRemove (name : Text)
  | datasetList (query : Text)
  | catalogAdd (catalog : Option CatalogRow)
  | catalogRemove (name : Text)
  | catalogList (query : Text)
  deriving DecidableEq, Repr

/-- The name of a call on its record. -/
def Rpc.op : Rpc → Text
  | listNodes => "list_nodes".toList
  | describeNode _ => "describe_node".toList
  | policyGet => "policy_get".toList
  | policySet .. => "policy_set".toList
  | pondList => "pond_list".toList
  | pondSetTier .. => "pond_set_tier".toList
  | pondForget .. => "pond_forget".toList
  | datasetAdd _ => "dataset_add".toList
  | datasetRemove _ => "dataset_remove".toList
  | datasetList _ => "dataset_list".toList
  | catalogAdd _ => "catalog_add".toList
  | catalogRemove _ => "catalog_remove".toList
  | catalogList _ => "catalog_list".toList

/-- The answer to a call. -/
inductive Reply where
  | nodes (nodes : List NodeInfo)
  | node (node : NodeInfo)
  | policy (policyJson : Text)
  | policySet
  | ponds (ponds : List PondSummary)
  | tier (pond tier : Text)
  | forgotten (pond : ForgottenPond)
  | datasetAdded (name : Text)
  | datasetRemoved
  | datasets (datasets : List DatasetMsg)
  | catalogAdded (name : Text) (droppedParams : List String)
  | catalogRemoved
  | catalogs (catalogs : List CatalogRow)
  deriving DecidableEq, Repr

/-- A call as it comes in, with what of the world it meets: the time, and what a new span would be. -/
structure Call where
  headers : Headers
  rpc : Rpc
  at_ : ℕ
  now : Text
  fresh : TraceContext

/-- `trace_id_of`. -/
def traceIdOf (c : Call) : Text :=
  ((c.headers.traceparent.bind (TraceContext.parse c.fresh)).map TraceContext.traceId).getD []

/-! ### Handlers -/

/-- An access record, without its duration. -/
structure Record where
  identity : Identity
  op : Text
  pond : Text
  traceId : Text
  summary : Text
  outcome : Text
  deriving DecidableEq, Repr

/-- `OK`. -/
def OK : Text := "ok".toList

/-- `ERROR`. -/
def ERROR : Text := "error".toList

/-- A status, with the challenge in its metadata. -/
structure Refusal where
  status : Status
  challenge : Option (List UInt8)
  deriving DecidableEq, Repr

/-- The registry, and the access log. -/
structure World (ρ : Type) where
  store : Store ρ
  log : List Record

/-- A handler. -/
abbrev Handler (ρ α : Type) : Type := Act (World ρ) Refusal α

/-- The service. -/
structure AdminService (ρ : Type) where
  sql : Sql ρ
  patterns : Patterns
  /-- The verifier, as it is at a time. -/
  verifier : Option (ℕ → Gate)
  metadataUrl : Option (List UInt8)

/-- The door of the service when a call comes in. -/
def AdminService.door {ρ : Type} (svc : AdminService ρ) (c : Call) : Door :=
  ⟨svc.verifier.map fun v => v c.at_, svc.metadataUrl⟩

/-- `created_by`. -/
def createdBy (identity : Identity) (claimed : Text) : Text :=
  if identity.verified ∧ identity.subject ≠ [] then identity.subject
  else if trim claimed = [] then "anonymous".toList
  else claimed

section

variable {ρ α : Type}

/-- `outcome`. -/
def outcome : Except Refusal α → Text
  | .ok _ => OK
  | .error _ => ERROR

/-- The id of the trace on a record. -/
def orDash (trace : Text) : Text := if trace = [] then "-".toList else trace

/-- `audit`. -/
def audit (identity : Identity) (op : Text) (pond : Option Text) (summary outcome trace : Text) : Handler ρ PUnit :=
  Act.modify fun w => { w with log := w.log ++ [⟨identity, op, pond.getD "-".toList, orDash trace, summary, outcome⟩] }

/-- A method of the registry is called, and its error looked at. -/
def call (m : Method ρ α) : Handler ρ (Except ControlPlaneError α) := fun w =>
  match m w.store with
  | (.ok a, store) => (.ok (.ok a), { w with store })
  | (.err e, store) => (.ok (.error e), { w with store })
  | (.unwound, store) => (.unwound, { w with store })

/-- The error of a method as the status of the call. -/
def traced (trace : Text) (e : ControlPlaneError) : Refusal := ⟨toStatusTraced e (some trace), none⟩

/-- `?`. -/
def answer : Except Refusal α → Handler ρ α
  | .ok a => pure a
  | .error e => Act.fail e

/-- The status of a request that lacks something. -/
def invalidArgument (message : Text) : Refusal := ⟨⟨.invalidArgument, message, []⟩, none⟩

/-- A call that is rejected by its handler. -/
def rejected (who : Identity × Text) (op : Text) (pond : Option Text) (summary : Text) (e : Refusal) :
    Handler ρ Reply := do
  audit who.1 op pond summary ERROR who.2
  Act.fail e

/-- A call that asks the registry: the record is written before the answer is made. -/
def concluded (who : Identity × Text) (op : Text) (pond : Option Text) (m : Method ρ α)
    (summary : Except Refusal α → Text) (reply : α → Handler ρ Reply) : Handler ρ Reply := do
  let r ← call m
  let res := r.mapError (traced who.2)
  audit who.1 op pond (summary res) (outcome res) who.2
  let a ← answer res
  reply a

/-- The detail reads of `pond_list`: a pond that is not found any more is skipped. -/
def pondSummaries (sql : Sql ρ) (trace : Text) : List PondRow → Handler ρ (List PondSummary)
  | [] => pure []
  | row :: rows => do
    match ← call (pondInfo sql row.pondId) with
    | .ok (row, createdAt, _, _) => do
      let ponds ← pondSummaries sql trace rows
      pure (⟨row.pondId, row.name, row.ownerIdentity, createdAt, row.nodeId, row.tier, row.description, row.lineage⟩ :: ponds)
    | .error (.pondNotFound _) => pondSummaries sql trace rows
    | .error e => Act.fail (traced trace e)

namespace AdminService

variable (svc : AdminService ρ) (c : Call)

/-- `identity_of`: a rejection is on the record too. -/
def identityOf (op : Text) : Handler ρ (Identity × Text) :=
  match adminIdentity (svc.door c) c.headers with
  | .ok identity => pure (identity, traceIdOf c)
  | .error r => do
    audit (.claimed c.headers.agentId) op none r.summary ERROR (traceIdOf c)
    Act.fail ⟨⟨.unauthenticated, r.message, []⟩, r.challenge⟩

/-- `list_nodes`. -/
def listNodes : Handler ρ Reply := do
  let who ← svc.identityOf c "list_nodes".toList
  concluded who "list_nodes".toList none (Service.listNodes svc.sql) (fun _ => []) fun nodes =>
    pure (.nodes (nodes.map nodeInfo))

/-- `describe_node`. -/
def describeNode (nodeId : Text) : Handler ρ Reply := do
  let who ← svc.identityOf c "describe_node".toList
  concluded who "describe_node".toList none (Service.describeNode svc.sql nodeId) (fun _ => "node=".toList ++ nodeId)
    fun n => pure (.node (nodeInfo n))

/-- `policy_get`. -/
def policyGet : Handler ρ Reply := do
  let who ← svc.identityOf c "policy_get".toList
  concluded who "policy_get".toList none (Service.policyGet svc.sql) (fun _ => []) fun v => pure (.policy (Json.print v))

/-- `policy_set`. -/
def policySet (key : String) (value : Text) : Handler ρ Reply := do
  let who ← svc.identityOf c "policy_set".toList
  concluded who "policy_set".toList none (Service.policySet svc.sql key value)
    (fun _ => "key=".toList ++ key.toList ++ " value=".toList ++ value) fun _ => pure .policySet

/-- `pond_list`. -/
def pondList : Handler ρ Reply := do
  let who ← svc.identityOf c "pond_list".toList
  concluded who "pond_list".toList none (Service.listPonds svc.sql) (fun _ => []) fun rows => do
    let ponds ← pondSummaries svc.sql who.2 rows
    pure (.ponds ponds)

/-- `pond_set_tier`. -/
def pondSetTier (pond tier : Text) : Handler ρ Reply := do
  let who ← svc.identityOf c "pond_set_tier".toList
  if trim pond = [] then
    rejected who "pond_set_tier".toList none "rejected: pond is required".toList
      (invalidArgument "pond is required".toList)
  else
    concluded who "pond_set_tier".toList (some pond) (Service.setPondTier svc.sql pond tier)
      (fun _ => "tier=".toList ++ tier) fun _ => pure (.tier pond tier)

/-- What `pond_forget` says without `confirm`. -/
def confirmMessage (pond : Text) : Text :=
  "pond_forget removes the registry record for pond '".toList ++ pond ++
    ("' (its data on the departed " ++ "node is NOT deleted, only orphaned); set confirm=true to proceed").toList

/-- `pond_forget`. -/
def pondForget (pond : Text) (confirm : Bool) : Handler ρ Reply := do
  let who ← svc.identityOf c "pond_forget".toList
  if trim pond = [] then
    rejected who "pond_forget".toList none "rejected: pond is required".toList
      (invalidArgument "pond is required".toList)
  else if !confirm then
    rejected who "pond_forget".toList (some pond) "rejected: confirm is required".toList
      (invalidArgument (confirmMessage pond))
  else
    concluded who "pond_forget".toList (some pond) (Service.forgetPond svc.sql pond)
      (fun res => match res with
        | .ok f => "forgot record; data orphaned on node=".toList ++ f.nodeId
        | .error _ => "refused".toList)
      fun f => pure (.forgotten f)

/-- The row of `dataset_add`. -/
def datasetRow (identity : Identity) (d : DatasetMsg) : Entry .dataset :=
  ⟨d.name, (⟨d.description, createdBy identity d.createdBy, []⟩ : DatasetHead), d.tables.map datasetTableFromMsg, d.tags⟩

/-- `dataset_add`. -/
def datasetAdd : Option DatasetMsg → Handler ρ Reply
  | none => do
    let who ← svc.identityOf c "dataset_add".toList
    rejected who "dataset_add".toList none "rejected: dataset is required".toList
      (invalidArgument "dataset is required".toList)
  | some d => do
    let who ← svc.identityOf c "dataset_add".toList
    concluded who "dataset_add".toList none (Service.addDataset c.now (datasetRow who.1 d))
      (fun _ => "dataset=".toList ++ d.name) fun name => pure (.datasetAdded name)

/-- `dataset_remove`. -/
def datasetRemove (name : Text) : Handler ρ Reply := do
  let who ← svc.identityOf c "dataset_remove".toList
  concluded who "dataset_remove".toList none (Service.removeDataset name) (fun _ => "dataset=".toList ++ name) fun _ =>
    pure .datasetRemoved

/-- `dataset_list`. -/
def datasetList (query : Text) : Handler ρ Reply := do
  let who ← svc.identityOf c "dataset_list".toList
  concluded who "dataset_list".toList none (Service.listDatasets svc.patterns query) (fun _ => "query=".toList ++ query)
    fun ds => pure (.datasets (ds.map datasetToMsg))

/-- The params of `catalog_add`: what is kept, and the keys of what is not. -/
def catalogParams (ca : CatalogRow) : Catalog.Params × List String := Catalog.filterParams ca.type_ (collect ca.params)

/-- The row of `catalog_add`. -/
def catalogRow (identity : Identity) (ca : CatalogRow) : CatalogRow :=
  { ca with params := (catalogParams ca).1, createdBy := createdBy identity ca.createdBy, createdAt := [] }

/-- `catalog_add`. -/
def catalogAdd : Option CatalogRow → Handler ρ Reply
  | none => do
    let who ← svc.identityOf c "catalog_add".toList
    rejected who "catalog_add".toList none "rejected: catalog is required".toList
      (invalidArgument "catalog is required".toList)
  | some ca => do
    let who ← svc.identityOf c "catalog_add".toList
    if !Catalog.isKnownType ca.type_ then
      rejected who "catalog_add".toList none ("rejected: unknown catalog type ".toList ++ ca.type_)
        (invalidArgument ("unknown catalog type '".toList ++ ca.type_ ++ "' (supported: iceberg)".toList))
    else
      concluded who "catalog_add".toList none (Service.addCatalog c.now (catalogRow who.1 ca))
        (fun _ => "catalog=".toList ++ ca.name ++ " type=".toList ++ ca.type_) fun name =>
        pure (.catalogAdded name (catalogParams ca).2)

/-- `catalog_remove`. -/
def catalogRemove (name : Text) : Handler ρ Reply := do
  let who ← svc.identityOf c "catalog_remove".toList
  concluded who "catalog_remove".toList none (Service.removeCatalog name) (fun _ => "catalog=".toList ++ name) fun _ =>
    pure .catalogRemoved

/-- `catalog_list`. -/
def catalogList (query : Text) : Handler ρ Reply := do
  let who ← svc.identityOf c "catalog_list".toList
  concluded who "catalog_list".toList none (Service.listCatalogs svc.patterns query) (fun _ => "query=".toList ++ query)
    fun cs => pure (.catalogs cs)

/-- The handler of a call. -/
def serve : Handler ρ Reply :=
  match c.rpc with
  | .listNodes => svc.listNodes c
  | .describeNode nodeId => svc.describeNode c nodeId
  | .policyGet => svc.policyGet c
  | .policySet key value => svc.policySet c key value
  | .pondList => svc.pondList c
  | .pondSetTier pond tier => svc.pondSetTier c pond tier
  | .pondForget pond confirm => svc.pondForget c pond confirm
  | .datasetAdd dataset => svc.datasetAdd c dataset
  | .datasetRemove name => svc.datasetRemove c name
  | .datasetList query => svc.datasetList c query
  | .catalogAdd catalog => svc.catalogAdd c catalog
  | .catalogRemove name => svc.catalogRemove c name
  | .catalogList query => svc.catalogList c query

/-- Calls, one behind the other, with their answers. -/
def run : List Call → World ρ → List (Ended Refusal Reply) × World ρ
  | [], w => ([], w)
  | c :: cs, w =>
    let (reply, w) := svc.serve c w
    let (replies, w) := run cs w
    (reply :: replies, w)

end AdminService

end

/-! ### Records -/

section

variable {ρ α : Type}

/-- What a record tells of a call that has ended so. -/
structure Tells (op : Text) (identity : Identity) (trace : Text) (reply : Ended Refusal Reply) (r : Record) : Prop where
  op : r.op = op
  identity : r.identity = identity
  traceId : r.traceId = orDash trace
  outcome : r.outcome = if reply.isOk then OK else ERROR
  ended : reply ≠ .unwound

/-- A handler that writes one record, and reads none. -/
def Recorded (op : Text) (identity : Identity) (trace : Text) (h : Handler ρ Reply) : Prop :=
  ∀ s, ∃ reply s' r, Tells op identity trace reply r ∧ ∀ log, h ⟨s, log⟩ = (reply, ⟨s', log ++ [r]⟩)

/-- A handler that answers, and writes no record. -/
def Answers (h : Handler ρ α) : Prop := ∀ s, ∃ a s', ∀ log, h ⟨s, log⟩ = (.ok a, ⟨s', log⟩)

theorem answers_pure (a : α) : Answers (pure a : Handler ρ α) := fun s => ⟨a, s, fun _ => rfl⟩

theorem Answers.bind {β : Type} {h : Handler ρ α} {k : α → Handler ρ β} (hh : Answers h) (hk : ∀ a, Answers (k a)) :
    Answers (h >>= k) := by
  intro s
  obtain ⟨a, s₁, h₁⟩ := hh s
  obtain ⟨b, s₂, h₂⟩ := hk a s₁
  exact ⟨b, s₂, fun log => by rw [Act.bind_of_ok (h₁ log), h₂]⟩

theorem call_of_ok {m : Method ρ α} {s s' : Store ρ} {a : α} (h : m s = (.ok a, s')) (log : List Record) :
    call m ⟨s, log⟩ = (.ok (.ok a), ⟨s', log⟩) := by
  simp only [call, h]

theorem call_of_err {m : Method ρ α} {s s' : Store ρ} {e : ControlPlaneError} (h : m s = (.err e, s'))
    (log : List Record) : call m ⟨s, log⟩ = (.ok (.error e), ⟨s', log⟩) := by
  simp only [call, h]

/-- The only error of `pond_info`. -/
theorem pondInfo_error {sql : Sql ρ} {pondRef : Text} {s s' : Store ρ} {e : ControlPlaneError}
    (h : pondInfo sql pondRef s = (.err e, s')) : e = .pondNotFound pondRef := by
  unfold pondInfo queryOr at h
  rw [Act.bind_apply, Act.lift_apply] at h
  rcases hq : (sql.pond pondRef s.rest).1 with message | ⟨p, endpoint⟩
  · rw [hq] at h
    cases h
    rfl
  · rw [hq] at h
    cases h

/-- The detail reads do not fail a listing. -/
theorem answers_pondSummaries (sql : Sql ρ) (trace : Text) : ∀ rows, Answers (pondSummaries sql trace rows)
  | [] => answers_pure _
  | row :: rows => by
    have hrest := answers_pondSummaries sql trace rows
    intro s
    have hnot := pondInfo_noUnwind sql row.pondId s
    rcases hs : pondInfo sql row.pondId s with ⟨⟨row', createdAt, policy, endpoint⟩ | e | _, s₁⟩
    · obtain ⟨ponds, s₂, h₂⟩ := hrest s₁
      refine ⟨⟨row'.pondId, row'.name, row'.ownerIdentity, createdAt, row'.nodeId, row'.tier, row'.description,
        row'.lineage⟩ :: ponds, s₂, fun log => ?_⟩
      rw [pondSummaries, Act.bind_of_ok (call_of_ok hs log)]
      show (pondSummaries sql trace rows >>= _ : Handler ρ _) ⟨s₁, log⟩ = _
      rw [Act.bind_of_ok (h₂ log)]
      rfl
    · obtain ⟨ponds, s₂, h₂⟩ := hrest s₁
      refine ⟨ponds, s₂, fun log => ?_⟩
      rw [pondSummaries, Act.bind_of_ok (call_of_err hs log), pondInfo_error hs]
      exact h₂ log
    · rw [hs] at hnot
      exact absurd rfl hnot

theorem recorded_rejected (identity : Identity) (trace op : Text) (pond : Option Text) (summary : Text) (e : Refusal) :
    Recorded op identity trace (rejected (identity, trace) op pond summary e : Handler ρ Reply) := by
  intro s
  refine ⟨.err e, s, ⟨identity, op, pond.getD "-".toList, orDash trace, summary, ERROR⟩, ?_, fun log => rfl⟩
  exact ⟨rfl, rfl, rfl, rfl, nofun⟩

theorem recorded_concluded (identity : Identity) (trace op : Text) (pond : Option Text) {m : Method ρ α}
    (hm : Act.NoUnwind m) (summary : Except Refusal α → Text) {reply : α → Handler ρ Reply}
    (hreply : ∀ a, Answers (reply a)) : Recorded op identity trace (concluded (identity, trace) op pond m summary reply) := by
  intro s
  have hnot := hm s
  rcases hs : m s with ⟨a | e | _, s₁⟩
  · obtain ⟨b, s₂, h₂⟩ := hreply a s₁
    refine ⟨.ok b, s₂, ⟨identity, op, pond.getD "-".toList, orDash trace, summary (.ok a), OK⟩,
      ⟨rfl, rfl, rfl, rfl, nofun⟩, fun log => ?_⟩
    rw [concluded, Act.bind_of_ok (call_of_ok hs log)]
    exact h₂ _
  · refine ⟨.err (traced trace e), s₁,
      ⟨identity, op, pond.getD "-".toList, orDash trace, summary (.error (traced trace e)), ERROR⟩,
      ⟨rfl, rfl, rfl, rfl, nofun⟩, fun log => ?_⟩
    rw [concluded, Act.bind_of_ok (call_of_err hs log)]
    rfl
  · rw [hs] at hnot
    exact absurd rfl hnot

namespace AdminService

variable (svc : AdminService ρ) (c : Call)

/-- Who is on the record of a call. -/
def who : Identity :=
  match adminIdentity (svc.door c) c.headers with
  | .ok identity => identity
  | .error _ => .claimed c.headers.agentId

/-- The call is let in. -/
def LetsIn : Prop := ∃ identity, adminIdentity (svc.door c) c.headers = .ok identity

instance : Decidable (svc.LetsIn c) :=
  match h : adminIdentity (svc.door c) c.headers with
  | .ok identity => .isTrue ⟨identity, h⟩
  | .error _ => .isFalse fun ⟨_, hok⟩ => nomatch h.symm.trans hok

theorem recorded_behind {op : Text} {body : Identity × Text → Handler ρ Reply}
    (h : ∀ identity, Recorded op identity (traceIdOf c) (body (identity, traceIdOf c))) :
    Recorded op (svc.who c) (traceIdOf c) (svc.identityOf c op >>= body) := by
  unfold identityOf who
  cases adminIdentity (svc.door c) c.headers with
  | ok identity => exact h identity
  | error r => exact fun s => ⟨.err ⟨⟨.unauthenticated, r.message, []⟩, r.challenge⟩, s, _, ⟨rfl, rfl, rfl, rfl, nofun⟩, fun _ => rfl⟩

/-- Every handler begins with the identity of the caller. -/
theorem serve_eq : ∃ body, svc.serve c = svc.identityOf c c.rpc.op >>= body := by
  unfold serve
  cases c.rpc with
  | datasetAdd dataset => cases dataset <;> exact ⟨_, rfl⟩
  | catalogAdd catalog => cases catalog <;> exact ⟨_, rfl⟩
  | _ => exact ⟨_, rfl⟩

/-- **One call**: one record of it, that says whether the call has landed. -/
theorem serve_recorded : Recorded c.rpc.op (svc.who c) (traceIdOf c) (svc.serve c) := by
  have hpure {β : Type} (f : β → Reply) (b : β) : Answers (pure (f b) : Handler ρ Reply) := answers_pure _
  unfold serve
  cases c.rpc with
  | listNodes => exact svc.recorded_behind c fun _ => recorded_concluded _ _ _ _ (queryOr_noUnwind _ _) _ (hpure _)
  | describeNode nodeId =>
    exact svc.recorded_behind c fun _ => recorded_concluded _ _ _ _ (describeNode_noUnwind _ _) _ (hpure _)
  | policyGet => exact svc.recorded_behind c fun _ => recorded_concluded _ _ _ _ (policyGet_noUnwind _) _ (hpure _)
  | policySet key value =>
    exact svc.recorded_behind c fun _ => recorded_concluded _ _ _ _ (queryOr_noUnwind _ _) _ (hpure _)
  | pondList =>
    exact svc.recorded_behind c fun _ => recorded_concluded _ _ _ _ (listPonds_noUnwind _) _ fun rows =>
      (answers_pondSummaries _ _ rows).bind (hpure _)
  | pondSetTier pond tier =>
    refine svc.recorded_behind c fun identity => ?_
    split_ifs
    · exact recorded_rejected _ _ _ _ _ _
    · exact recorded_concluded _ _ _ _ (setPondTier_noUnwind _ _ _) _ (hpure _)
  | pondForget pond confirm =>
    refine svc.recorded_behind c fun identity => ?_
    split_ifs
    · exact recorded_rejected _ _ _ _ _ _
    · exact recorded_rejected _ _ _ _ _ _
    · exact recorded_concluded _ _ _ _ (forgetPond_noUnwind _ _) _ (hpure _)
  | datasetAdd dataset =>
    cases dataset with
    | none => exact svc.recorded_behind c fun identity => recorded_rejected _ _ _ _ _ _
    | some d =>
      exact svc.recorded_behind c fun _ => recorded_concluded _ _ _ _ (onDatasets_noUnwind (add_noUnwind _ _)) _ (hpure _)
  | datasetRemove name =>
    exact svc.recorded_behind c fun _ => recorded_concluded _ _ _ _ (onDatasets_noUnwind (remove_noUnwind _)) _ (hpure _)
  | datasetList query =>
    exact svc.recorded_behind c fun _ => recorded_concluded _ _ _ _ (onDatasets_noUnwind (listed_noUnwind _ _)) _ (hpure _)
  | catalogAdd catalog =>
    cases catalog with
    | none => exact svc.recorded_behind c fun identity => recorded_rejected _ _ _ _ _ _
    | some ca =>
      refine svc.recorded_behind c fun identity => ?_
      split_ifs
      · exact recorded_rejected _ _ _ _ _ _
      · exact recorded_concluded _ _ _ _ (onCatalogs_noUnwind (add_noUnwind _ _)) _ (hpure _)
  | catalogRemove name =>
    exact svc.recorded_behind c fun _ => recorded_concluded _ _ _ _ (onCatalogs_noUnwind (remove_noUnwind _)) _ (hpure _)
  | catalogList query =>
    exact svc.recorded_behind c fun _ => recorded_concluded _ _ _ _ (listCatalogs_noUnwind _ _) _ (hpure _)

/-- A call that is turned away leaves the registry as it is. -/
theorem serve_of_not_letsIn (h : ¬svc.LetsIn c) (w : World ρ) :
    (svc.serve c w).2.store = w.store ∧ (svc.serve c w).1.isOk = false := by
  obtain ⟨body, hbody⟩ := svc.serve_eq c
  rw [hbody]
  unfold identityOf
  cases hid : adminIdentity (svc.door c) c.headers with
  | ok identity => exact absurd ⟨identity, hid⟩ h
  | error r => exact ⟨rfl, rfl⟩

/-- With a verifier, who is let in is verified, and has a name. -/
theorem verified_of_letsIn (hverifier : svc.verifier.isSome) (h : svc.LetsIn c) :
    (svc.who c).verified = true ∧ (svc.who c).subject ≠ [] := by
  obtain ⟨identity, hid⟩ := h
  obtain ⟨v, hv⟩ := Option.isSome_iff_exists.1 hverifier
  have hwho : svc.who c = identity := by
    rw [who, hid]
  obtain ⟨token, hadmits⟩ := Auth.adminIdentity_ok.1 hid
  rw [Door.Admits, door, hv] at hadmits
  obtain ⟨value, t, -, -, -, hverify⟩ := hadmits
  rw [hwho]
  exact (v c.at_).verified hverify

/-- What the record of a call tells, with its answer. -/
def TellsOf (call : Call × Ended Refusal Reply) (r : Record) : Prop :=
  Tells call.1.rpc.op (svc.who call.1) (traceIdOf call.1) call.2 r

/-- **The audit trail**: whatever fails, a run of calls leaves one record of each, in their order, that names the call,
its caller and its trace, and says whether the call has landed; and with a verifier nothing lands for a caller who is
not verified. -/
theorem audit_trail (cs : List Call) (w : World ρ) :
    (svc.run cs w).1.length = cs.length ∧ ∃ records, (svc.run cs w).2.log = w.log ++ records ∧
      List.Forall₂ svc.TellsOf (cs.zip (svc.run cs w).1) records ∧
      (svc.verifier.isSome → ∀ r ∈ records, r.outcome = OK → r.identity.verified = true ∧ r.identity.subject ≠ []) := by
  induction cs generalizing w with
  | nil => exact ⟨rfl, [], (List.append_nil _).symm, .nil, fun _ r hr => nomatch hr⟩
  | cons c cs ih =>
    obtain ⟨reply, s', r, htell, hserve⟩ := svc.serve_recorded c w.store
    have hw : svc.serve c w = (reply, ⟨s', w.log ++ [r]⟩) := hserve w.log
    obtain ⟨hlen, records, hlog, htells, hverified⟩ := ih ⟨s', w.log ++ [r]⟩
    have hrun : svc.run (c :: cs) w = (reply :: (svc.run cs ⟨s', w.log ++ [r]⟩).1, (svc.run cs ⟨s', w.log ++ [r]⟩).2) := by
      simp only [run, hw]
    rw [hrun]
    refine ⟨congrArg Nat.succ hlen, r :: records, by rw [hlog, List.append_assoc]; rfl, .cons htell htells,
      fun hsome r' hr' hok => ?_⟩
    rcases List.mem_cons.1 hr' with rfl | hr'
    · rw [htell.identity]
      refine svc.verified_of_letsIn c hsome (by_contra fun hnot => ?_)
      have hfalse := (svc.serve_of_not_letsIn c hnot w).2
      rw [hw] at hfalse
      rw [htell.outcome, hfalse] at hok
      exact absurd hok (by decide)
    · exact hverified hsome r' hr' hok

end AdminService

end

end Latiq.ControlPlane.Service
