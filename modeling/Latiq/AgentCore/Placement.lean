import Latiq.ControlPlane.Registry
import Mathlib.Data.List.Nodup

/-!
# Placement and forwarding

Each operation on a pond looks the pond up, and is served where the pond's owner is: a
node that is named as the owner serves it, and another one hands it to the owner's
endpoint, where the same decision is taken again.

## The model

* `AgentOps.placement` — the decision; `AgentOps.handle` is what a node does with an operation
  before it runs it.
* `Cluster` — the nodes, what a dialled address reaches, and the registry; `Cluster.serve` follows an
  operation from node to node.

## What is proved

* `well_served_iff` — the operation ends, at the second node at the latest, no node sees it
  twice, and who executes it is the pond's registered owner: exactly when the owner's
  endpoint, if it is dialled, reaches the owner, a node that advertises this
  very endpoint, or nobody.
* `truthful_well_served` — in particular when the endpoints of the registry reach the nodes that registered them.
* `second_spelling_loops` — a node that is reached under another spelling of its address.
-/

namespace Latiq.AgentCore

open SqlLex (Text)
open Latiq.ControlPlane

/-! ### One node -/

/-- `Peer`: the owner, and where to dial it. -/
structure Peer where
  nodeId : Text
  endpoint : Text
  deriving DecidableEq, Repr

/-- `Placement`. -/
inductive Placement where
  | localNode
  | forward (peer : Peer)
  | noOwner
  deriving DecidableEq, Repr

/-- What placement reads of `AgentOps`: whether there is a forwarder, and who the node is. -/
structure AgentOps where
  forwarder : Bool
  selfNodeId : Option Text
  selfEndpoint : Option Text
  deriving DecidableEq, Repr

/-- `build_ops`: every node of a deployment has the three. -/
def buildOps (nodeId internalEndpoint : Text) : AgentOps := ⟨true, some nodeId, some internalEndpoint⟩

/-- `placement`. -/
def AgentOps.placement (ops : AgentOps) (info : PondInfo) : Placement :=
  match ops.forwarder, ops.selfNodeId, ops.selfEndpoint with
  | true, some me, some myAddress =>
    match info.nodeId.bind nonEmpty with
    | none => .noOwner
    | some ownerId =>
      if ownerId = me then .localNode
      else
        match info.nodeEndpoint.bind nonEmpty with
        | none => .noOwner
        -- another node id advertises our address
        | some owner => if owner = myAddress then .noOwner else .forward ⟨ownerId, owner⟩
  | _, _, _ => .localNode

/-- The operations on a pond, with what is refused before placement. -/
inductive Op where
  | materializePond
  | describePond
  | dropPond (confirm : Bool)
  /-- `run_query` of a read. -/
  | readQuery
  | readCollected
  | readArrow
  | writeQuery
  | explainQuery
  | catalogPull
  | catalogDescribe
  | getLineage (limit : ℕ)
  deriving DecidableEq, Repr

/-- `MAX_LIMIT`. -/
def maxLimit : ℕ := 500

/-- What the peer runs for an operation that is forwarded: `Data::read_query` collects the stream of
`read_arrow`, which is what a collected read is forwarded as. -/
def Op.forwarded : Op → Op
  | .readQuery => .readCollected
  | .readCollected => .readArrow
  | .getLineage limit => .getLineage (min limit maxLimit)
  | op => op

/-- The errors an operation is refused with before it runs. -/
inductive Refusal where
  | missingArgument
  | pondNotFound
  | invalidValue
  | pondUnavailable
  /-- `unreachable_owner`. -/
  | ownerUnreachable
  deriving DecidableEq, Repr

/-- What a node does with an operation. -/
inductive Decision where
  | refuses (e : Refusal)
  | executes (info : PondInfo)
  | forwards (peer : Peer) (op : Op)
  deriving DecidableEq, Repr

/-- The operation is not refused for its arguments. -/
def Op.Admitted (op : Op) : Prop := op ≠ .dropPond false ∧ op ≠ .getLineage 0

/-- `route`, behind the checks of the operation. -/
def AgentOps.route (ops : AgentOps) (info : PondInfo) (op : Op) : Decision :=
  match ops.placement info with
  | .localNode => .executes info
  | .forward peer => .forwards peer op.forwarded
  | .noOwner => .refuses .pondUnavailable

/-- A node takes an operation in. -/
def AgentOps.handle (ops : AgentOps) (registry : Registry) (pondRef : Text) (op : Op) : Decision :=
  if op = .dropPond false then .refuses .missingArgument
  else
    match registry.pondInfo pondRef with
    | none => .refuses .pondNotFound
    | some info => if op = .getLineage 0 then .refuses .invalidValue else ops.route info op

theorem Op.Admitted.forwarded {op : Op} (h : op.Admitted) : op.forwarded.Admitted := by
  cases op with
  | getLineage limit =>
    have hl : limit ≠ 0 := fun h0 => h.2 (by rw [h0])
    have hmin : min limit maxLimit ≠ 0 := by
      unfold maxLimit
      omega
    exact ⟨Op.noConfusion, fun heq => hmin (Op.getLineage.inj heq)⟩
  | readQuery => exact ⟨Op.noConfusion, Op.noConfusion⟩
  | readCollected => exact ⟨Op.noConfusion, Op.noConfusion⟩
  | _ => exact h

/-- **Who executes is the owner**, in a deployment. -/
theorem placement_localNode {me address : Text} {info : PondInfo}
    (h : (buildOps me address).placement info = .localNode) : info.nodeId = some me := by
  simp only [buildOps, AgentOps.placement] at h
  cases hid : info.nodeId.bind nonEmpty with
  | none => simp [hid] at h
  | some ownerId =>
    simp only [hid] at h
    split at h
    · rename_i hme
      subst hme
      obtain ⟨id, hi, hne⟩ := Option.bind_eq_some_iff.1 hid
      rw [hi, (nonEmpty_eq_some.1 hne).1]
    · split at h
      · cases h
      · split at h <;> cases h

/-- **Who forwards** is not the owner, and does not advertise the owner's endpoint. -/
theorem placement_forward {me address : Text} {info : PondInfo} {peer : Peer} :
    (buildOps me address).placement info = .forward peer ↔
      info.nodeId.bind nonEmpty = some peer.nodeId ∧ info.nodeEndpoint.bind nonEmpty = some peer.endpoint ∧
        peer.nodeId ≠ me ∧ peer.endpoint ≠ address := by
  simp only [buildOps, AgentOps.placement]
  cases hid : info.nodeId.bind nonEmpty with
  | none => simp
  | some ownerId =>
    cases hend : info.nodeEndpoint.bind nonEmpty with
    | none =>
      by_cases hme : ownerId = me <;> simp [hme]
    | some owner =>
      by_cases hme : ownerId = me
      · simp only [hme, if_true, reduceCtorEq, Option.some_inj, false_iff, not_and]
        rintro rfl - hne
        exact absurd rfl hne
      · by_cases haddr : owner = address
        · simp only [hme, haddr, if_true, if_false, reduceCtorEq, Option.some_inj, false_iff, not_and]
          rintro - rfl - hne
          exact hne rfl
        · obtain ⟨pid, pend⟩ := peer
          simp only [hme, haddr, if_false, Placement.forward.injEq, Peer.mk.injEq, Option.some_inj]
          constructor
          · rintro ⟨rfl, rfl⟩
            exact ⟨rfl, rfl, hme, haddr⟩
          · rintro ⟨rfl, rfl, -, -⟩
            exact ⟨rfl, rfl⟩

/-- **An operation is handed on** if it is admitted and placed at a peer. -/
theorem handle_forwards {ops : AgentOps} {registry : Registry} {pondRef : Text} {op op' : Op} {peer : Peer} :
    ops.handle registry pondRef op = .forwards peer op' ↔
      op.Admitted ∧ op' = op.forwarded ∧ ∃ info, registry.pondInfo pondRef = some info ∧ ops.placement info = .forward peer := by
  have hroute : ∀ info o, ops.route info o = .forwards peer op' ↔ op' = o.forwarded ∧ ops.placement info = .forward peer := by
    intro info o
    unfold AgentOps.route
    cases ops.placement info with
    | localNode => simp
    | noOwner => simp
    | forward q =>
      simp only [Decision.forwards.injEq, Placement.forward.injEq]
      exact ⟨fun h => ⟨h.2.symm, h.1⟩, fun h => ⟨h.2, h.1.symm⟩⟩
  unfold AgentOps.handle Op.Admitted
  by_cases hdrop : op = .dropPond false
  · simp [hdrop]
  · cases hinfo : registry.pondInfo pondRef with
    | none => simp [hdrop]
    | some info =>
      by_cases hlim : op = .getLineage 0
      · simp [hlim]
      · simp [hdrop, hlim, hroute]

/-- **Executed** means placed here. -/
theorem handle_executes {ops : AgentOps} {registry : Registry} {pondRef : Text} {op : Op} {info : PondInfo}
    (h : ops.handle registry pondRef op = .executes info) :
    registry.pondInfo pondRef = some info ∧ ops.placement info = .localNode := by
  unfold AgentOps.handle at h
  split at h
  · cases h
  · cases hinfo : registry.pondInfo pondRef with
    | none =>
      simp only [hinfo] at h
      cases h
    | some info' =>
      simp only [hinfo] at h
      split at h
      · cases h
      · unfold AgentOps.route at h
        cases hp : ops.placement info' with
        | localNode =>
          simp only [hp, Decision.executes.injEq] at h
          subst h
          exact ⟨rfl, hp⟩
        | forward peer =>
          simp only [hp] at h
          cases h
        | noOwner =>
          simp only [hp] at h
          cases h

/-! ### The cluster -/

/-- The nodes of a deployment, with the ids and addresses they were started with, what a dialled address
reaches, and the registry. -/
structure Cluster (ν : Type) where
  nodeId : ν → Text
  address : ν → Text
  /-- `none` where nobody answers. -/
  reaches : Text → Option ν
  registry : Registry

/-- How an operation ends. -/
inductive Answer (ν : Type) where
  | refused (e : Refusal)
  | executed (node : ν) (info : PondInfo)

namespace Cluster

variable {ν : Type} (c : Cluster ν)

def ops (n : ν) : AgentOps := buildOps (c.nodeId n) (c.address n)

/-- Follows an operation: the nodes it comes to, and its answer. Each node takes one unit of the fuel. -/
def serve (pondRef : Text) : ℕ → ν → Op → Option (List ν × Answer ν)
  | 0, _, _ => none
  | fuel + 1, n, op =>
    match (c.ops n).handle c.registry pondRef op with
    | .refuses e => some ([n], .refused e)
    | .executes info => some ([n], .executed n info)
    | .forwards peer op' =>
      match c.reaches peer.endpoint with
      | none => some ([n], .refused .ownerUnreachable)
      | some m => (serve pondRef fuel m op').map fun r => (n :: r.1, r.2)

/-- **Well served**: the operation ends after one hand-over at most, no node sees it twice, and who executes it
is the registered owner of the pond. -/
def WellServed (pondRef : Text) (n : ν) (op : Op) : Prop :=
  ∃ fuel path answer, c.serve pondRef fuel n op = some (path, answer) ∧ path.length ≤ 2 ∧ path.Nodup ∧
    ∀ m info, answer = .executed m info →
      c.registry.pondInfo pondRef = some info ∧ info.nodeId = some (c.nodeId m)

/-- The owner's endpoint, if the node dials it, reaches the owner, or a node that advertises it, or nobody. -/
def WellDelivered (pondRef : Text) (n : ν) (op : Op) : Prop :=
  ∀ peer op' m, (c.ops n).handle c.registry pondRef op = .forwards peer op' → c.reaches peer.endpoint = some m →
    c.nodeId m = peer.nodeId ∨ c.address m = peer.endpoint

variable {c}

theorem executes_owner {pondRef : Text} {n : ν} {op : Op} {info : PondInfo}
    (h : (c.ops n).handle c.registry pondRef op = .executes info) :
    c.registry.pondInfo pondRef = some info ∧ info.nodeId = some (c.nodeId n) := by
  obtain ⟨hinfo, hplace⟩ := handle_executes h
  exact ⟨hinfo, placement_localNode hplace⟩

/-- **A node that its peers' address reaches, under another spelling, calls itself**: it decides as the node
before it did. -/
theorem hands_on_again {pondRef : Text} {n m : ν} {op op' : Op} {peer : Peer}
    (h : (c.ops n).handle c.registry pondRef op = .forwards peer op') (hid : c.nodeId m ≠ peer.nodeId)
    (haddr : c.address m ≠ peer.endpoint) :
    (c.ops m).handle c.registry pondRef op' = .forwards peer op'.forwarded := by
  obtain ⟨hadm, rfl, info, hinfo, hplace⟩ := handle_forwards.1 h
  obtain ⟨howner, hend, -, -⟩ := placement_forward.1 hplace
  exact handle_forwards.2
    ⟨hadm.forwarded, rfl, info, hinfo, placement_forward.2 ⟨howner, hend, Ne.symm hid, Ne.symm haddr⟩⟩

theorem serve_loops {pondRef : Text} {m : ν} {op : Op} {peer : Peer} (hreach : c.reaches peer.endpoint = some m)
    (hid : c.nodeId m ≠ peer.nodeId) (haddr : c.address m ≠ peer.endpoint) (fuel : ℕ)
    (h : (c.ops m).handle c.registry pondRef op = .forwards peer op.forwarded) : c.serve pondRef fuel m op = none := by
  induction fuel generalizing op with
  | zero => rfl
  | succ fuel ih =>
    simp only [serve, h, hreach, Option.map_eq_none_iff]
    exact ih (hands_on_again h hid haddr)

/-- A node that does not hand the operation on. -/
theorem serve_ends {pondRef : Text} {n : ν} {op : Op}
    (h : ∀ peer op', (c.ops n).handle c.registry pondRef op ≠ .forwards peer op') (fuel : ℕ) :
    ∃ answer, c.serve pondRef (fuel + 1) n op = some ([n], answer) ∧ ∀ m info, answer = .executed m info →
      c.registry.pondInfo pondRef = some info ∧ info.nodeId = some (c.nodeId m) := by
  cases hd : (c.ops n).handle c.registry pondRef op with
  | refuses e => exact ⟨.refused e, by simp only [serve, hd], fun _ _ h => by cases h⟩
  | executes info =>
    refine ⟨.executed n info, by simp only [serve, hd], ?_⟩
    intro m info' heq
    cases heq
    exact executes_owner hd
  | forwards peer op' => exact absurd hd (h peer op')

/-- **Forwarding ends at the owner**, exactly when the owner's endpoint is well delivered. -/
theorem well_served_iff (c : Cluster ν) (pondRef : Text) (n : ν) (op : Op) :
    c.WellServed pondRef n op ↔ c.WellDelivered pondRef n op := by
  constructor
  · rintro ⟨fuel, path, answer, hserve, -, -, -⟩ peer op' m hfwd hreach
    by_contra hnot
    rw [not_or] at hnot
    have hloop := serve_loops hreach hnot.1 hnot.2 (fuel - 1) (hands_on_again hfwd hnot.1 hnot.2)
    cases fuel with
    | zero => cases hserve
    | succ fuel =>
      simp only [serve, hfwd, hreach, Option.map_eq_some_iff] at hserve
      obtain ⟨r, hr, -⟩ := hserve
      rw [Nat.add_sub_cancel] at hloop
      rw [hloop] at hr
      cases hr
  · intro h
    by_cases hends : ∀ peer op', (c.ops n).handle c.registry pondRef op ≠ .forwards peer op'
    · obtain ⟨answer, hs, hown⟩ := serve_ends hends 0
      exact ⟨1, [n], answer, hs, by simp, List.nodup_singleton n, hown⟩
    · simp only [not_forall, not_not] at hends
      obtain ⟨peer, op', hd⟩ := hends
      cases hreach : c.reaches peer.endpoint with
      | none =>
        refine ⟨1, [n], .refused .ownerUnreachable, ?_, by simp, List.nodup_singleton n, fun _ _ h => by cases h⟩
        simp only [serve, hd, hreach]
      | some m =>
        obtain ⟨hadm, rfl, info, hinfo, hplace⟩ := handle_forwards.1 hd
        obtain ⟨howner, hend, -, -⟩ := placement_forward.1 hplace
        have hwell := h peer op.forwarded m hd hreach
        -- the node that is reached does not dial the endpoint again
        have hstop : ∀ peer' op'', (c.ops m).handle c.registry pondRef op.forwarded ≠ .forwards peer' op'' := by
          intro peer' op'' hfwd
          obtain ⟨-, -, info', hinfo', hplace'⟩ := handle_forwards.1 hfwd
          rw [hinfo] at hinfo'
          cases hinfo'
          obtain ⟨howner', hend', hne', hnaddr'⟩ := placement_forward.1 hplace'
          rw [howner, Option.some_inj] at howner'
          rw [hend, Option.some_inj] at hend'
          rcases hwell with hid | haddr
          · exact hne' (howner' ▸ hid.symm)
          · exact hnaddr' (hend' ▸ haddr.symm)
        have hnm : n ≠ m := by
          rintro rfl
          exact hstop peer op.forwarded.forwarded (handle_forwards.2 ⟨hadm.forwarded, rfl, info, hinfo, hplace⟩)
        obtain ⟨answer, hs, hown⟩ := serve_ends hstop 0
        refine ⟨2, [n, m], answer, ?_, by simp, by simp [hnm], hown⟩
        rw [serve, hd]
        simp only [hreach, hs, Option.map_some]

/-- The endpoints that the registry has reach the nodes that registered them. -/
def Truthful (c : Cluster ν) : Prop :=
  ∀ id endpoint m, c.registry.endpointOf id = some endpoint → c.reaches endpoint = some m → c.nodeId m = id

/-- **A truthful registry** serves every operation well. -/
theorem truthful_well_served (h : c.Truthful) (pondRef : Text) (n : ν) (op : Op) : c.WellServed pondRef n op := by
  rw [well_served_iff]
  intro peer op' m hfwd hreach
  obtain ⟨-, -, info, hinfo, hplace⟩ := handle_forwards.1 hfwd
  obtain ⟨howner, hend, -, -⟩ := placement_forward.1 hplace
  obtain ⟨row, -, rfl⟩ := Option.map_eq_some_iff.1 hinfo
  obtain ⟨id, hid, hid'⟩ := Option.bind_eq_some_iff.1 howner
  obtain ⟨endpoint, hep, hep'⟩ := Option.bind_eq_some_iff.1 hend
  obtain ⟨e, he, he'⟩ := Option.bind_eq_some_iff.1 hep
  rw [(nonEmpty_eq_some.1 he').1, (nonEmpty_eq_some.1 hep').1] at he
  rw [(nonEmpty_eq_some.1 hid).1, (nonEmpty_eq_some.1 hid').1] at he
  exact .inl (h peer.nodeId peer.endpoint m he hreach)

/-- A deployment of one node, that took the place of the node `old` on a host with two names: the row of `old` has
the one, and the node advertises the other. -/
def secondSpelling : Cluster Unit where
  nodeId _ := "new".toList
  address _ := "http://127.0.0.1:9000".toList
  reaches _ := some ()
  registry := (Registry.mk [] [⟨"0".toList, "p".toList, "old".toList, "medium".toList, []⟩]).registerNode "old".toList
    "http://localhost:9000".toList

/-- **A node that calls itself**, without end. -/
theorem second_spelling_loops :
    (∀ fuel, secondSpelling.serve "p".toList fuel () .readArrow = none) ∧
    ¬∀ (ν : Type) (c : Cluster ν) pondRef n op, c.WellServed pondRef n op := by
  have hfwd : (secondSpelling.ops ()).handle secondSpelling.registry "p".toList .readArrow =
      .forwards ⟨"old".toList, "http://localhost:9000".toList⟩ .readArrow := by
    decide +kernel
  have hloop : ∀ fuel, secondSpelling.serve "p".toList fuel () .readArrow = none := fun fuel =>
    serve_loops rfl (by decide) (by decide) fuel hfwd
  refine ⟨hloop, ?_⟩
  intro h
  obtain ⟨fuel, path, answer, hs, -⟩ := h Unit secondSpelling "p".toList () .readArrow
  rw [hloop fuel] at hs
  cases hs

end Cluster

end Latiq.AgentCore
