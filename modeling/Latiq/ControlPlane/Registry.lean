import Latiq.Library.SqlLex
import Latiq.Common.PondOptions

/-!
# The registry

The tables of the control plane: the nodes with the endpoints they registered, and the
ponds with the nodes they were placed on.

* `Registry.registerNode`, `Registry.pondInfo` — the upsert of a node, and the lookup of a pond by id or name.
* `PondInfo` — what a node is told of a pond: an owner without an id or an address is `none`.
* `Registry.createPond`, `Registry.dropPond`, `Registry.forgetPond` — placement, and two ways to delete a row.
-/

namespace Latiq.ControlPlane

open SqlLex (Text)
open Latiq.Common

/-- A row of `nodes`. -/
structure NodeRow where
  nodeId : Text
  internalEndpoint : Text
  /-- `state='active'`. -/
  active : Bool
  deriving DecidableEq, Repr

/-- A row of `ponds`. -/
structure PondRow where
  pondId : Text
  name : Text
  nodeId : Text
  tier : Text
  /-- The extensions, separated by commas. -/
  extensions : Text
  deriving DecidableEq, Repr

/-- The tables. -/
structure Registry where
  nodes : List NodeRow
  ponds : List PondRow
  deriving DecidableEq, Repr

/-- `PondInfo`, as it comes over the wire. -/
structure PondInfo where
  pondId : Text
  name : Text
  nodeId : Option Text
  nodeEndpoint : Option Text
  tier : Text
  extensions : List Text
  deriving DecidableEq, Repr

/-- `ControlPlaneError`, as far as the lifecycle of a pond has it. -/
inductive ControlPlaneError where
  | nameConflict (name : Text)
  | pondNotFound (pond : Text)
  | noNodeAvailable (message : Text)
  | pondStillOwned (pond nodeId : Text)
  | allocationNotMaterialized (name owner cause : Text) (compensated : Bool)
  | invalid (message : Text)
  | storage (message : Text)
  deriving DecidableEq, Repr

/-- What is not up to `create_pond`: the node the random order begins with, the id that is generated, and the error of
the insert, if it has one. -/
structure Placing where
  pick : ℕ
  pondId : Text
  insertError : Option Text
  deriving DecidableEq, Repr

/-- An empty string on the wire is no value. -/
def nonEmpty (s : Text) : Option Text := if s = [] then none else some s

namespace Registry

/-- `register_node`: an upsert by id, that makes the node active. -/
def registerNode (r : Registry) (nodeId internalEndpoint : Text) : Registry :=
  { r with nodes := ⟨nodeId, internalEndpoint, true⟩ :: r.nodes.filter fun n => n.nodeId ≠ nodeId }

/-- The endpoint of a node, if its row is there. -/
def endpointOf (r : Registry) (nodeId : Text) : Option Text :=
  (r.nodes.find? fun n => n.nodeId = nodeId).map NodeRow.internalEndpoint

/-- What is told of a row. -/
def infoOf (r : Registry) (p : PondRow) : PondInfo :=
  ⟨p.pondId, p.name, nonEmpty p.nodeId, (r.endpointOf p.nodeId).bind nonEmpty, p.tier, parseCsv p.extensions⟩

/-- `get_pond_info`, by id or name. -/
def pondInfo (r : Registry) (pondRef : Text) : Option PondInfo :=
  (r.ponds.find? fun p => p.pondId = pondRef ∨ p.name = pondRef).map r.infoOf

/-- `get_pond_location`, by id or name: a pond whose node has no row is not found. -/
def getPondLocation (r : Registry) (pondRef : Text) : Except ControlPlaneError (Text × Text) :=
  match r.ponds.find? fun p => (p.pondId = pondRef ∨ p.name = pondRef) ∧ (r.endpointOf p.nodeId).isSome with
  | some p => .ok (p.pondId, (r.endpointOf p.nodeId).getD [])
  | none => .error (.pondNotFound pondRef)

/-- The message of the tier that is not given away. -/
def operatorOnly : Text :=
  ("tier 'none' (uncapped) is operator-only: set it after creation with `latiq pond set-tier <pond> --tier none`").toList

/-- What `create_pond` checks of a request: its tier, and its name. -/
def checkCreate (name : Option Text) (tier : Text) : Except ControlPlaneError PondTier :=
  match PondTier.parseForCreate tier with
  | .error m => .error (.invalid m)
  | .ok parsed =>
    if parsed = .none then .error (.invalid operatorOnly)
    else
      match name.map validatePondName with
      | some (.error m) => .error (.invalid m)
      | _ => .ok parsed

/-- `create_pond`. -/
def createPond (r : Registry) (pl : Placing) (name : Option Text) (tier : Text) (extensions : List Text) :
    Except ControlPlaneError (PondRow × Registry) :=
  match checkCreate name tier with
  | .error e => .error e
  | .ok parsed =>
    let active := r.nodes.filter NodeRow.active
    match active[pl.pick % active.length]? with
    | none => .error (.noNodeAvailable "no active node registered".toList)
    | some node =>
      let row : PondRow := ⟨pl.pondId, name.getD pl.pondId, node.nodeId, parsed.asStr, joinCsv extensions⟩
      if r.ponds.any fun p => p.name = row.name then .error (.nameConflict row.name)
      else
        match pl.insertError with
        | some e => .error (.storage e)
        | none =>
          -- the id is the primary key
          if r.ponds.any fun p => p.pondId = row.pondId then .error (.storage "duplicate key".toList)
          else .ok (row, { r with ponds := r.ponds ++ [row] })

/-- `drop_pond`, by id or name. -/
def dropPond (r : Registry) (pondRef : Text) : Except ControlPlaneError Registry :=
  if r.ponds.any fun p => p.pondId = pondRef ∨ p.name = pondRef then
    .ok { r with ponds := r.ponds.filter fun p => ¬(p.pondId = pondRef ∨ p.name = pondRef) }
  else .error (.pondNotFound pondRef)

/-- `forget_pond`: the pond is looked up by id or name, and its row deleted by id. -/
def forgetPond (r : Registry) (pondRef : Text) : Except ControlPlaneError Registry :=
  match r.ponds.find? fun p => p.pondId = pondRef ∨ p.name = pondRef with
  | none => .error (.pondNotFound pondRef)
  | some p =>
    match r.nodes.find? fun n => n.nodeId = p.nodeId with
    | some n =>
      if n.active ∧ n.internalEndpoint ≠ [] then .error (.pondStillOwned p.name p.nodeId)
      else .ok { r with ponds := r.ponds.filter fun q => q.pondId ≠ p.pondId }
    | none => .ok { r with ponds := r.ponds.filter fun q => q.pondId ≠ p.pondId }

/-- The registry has a row with this id. -/
def HasRow (r : Registry) (pondId : Text) : Prop := ∃ p ∈ r.ponds, p.pondId = pondId

theorem checkCreate_ok {name : Option Text} {tier : Text} {t : PondTier} (h : checkCreate name tier = .ok t) :
    PondTier.parseForCreate tier = .ok t ∧ t ≠ .none ∧ ∀ n, name = some n → validatePondName n = .ok () := by
  unfold checkCreate at h
  cases ht : PondTier.parseForCreate tier with
  | error m => simp [ht] at h
  | ok parsed =>
    rw [ht] at h
    dsimp only at h
    split at h
    · cases h
    · rename_i hne
      cases name with
      | none =>
        cases h
        exact ⟨rfl, hne, nofun⟩
      | some n =>
        cases hv : validatePondName n with
        | error m => simp [hv] at h
        | ok u =>
          simp only [Option.map_some, hv, Except.ok.injEq] at h
          subst h
          refine ⟨rfl, hne, fun n' hn' => ?_⟩
          cases hn'
          exact hv

theorem dropPond_ok {r r' : Registry} {pondRef : Text} (h : r.dropPond pondRef = .ok r') :
    (∃ p ∈ r.ponds, p.pondId = pondRef ∨ p.name = pondRef) ∧
      ∀ p, p ∈ r'.ponds ↔ p ∈ r.ponds ∧ p.pondId ≠ pondRef ∧ p.name ≠ pondRef := by
  unfold dropPond at h
  split at h
  · rename_i hany
    cases h
    simp only [List.any_eq_true, decide_eq_true_eq] at hany
    refine ⟨hany, fun p => ?_⟩
    simp [List.mem_filter]
  · cases h

theorem dropPond_error {r : Registry} {pondRef : Text} {e : ControlPlaneError} (h : r.dropPond pondRef = .error e) :
    ∀ p ∈ r.ponds, p.pondId ≠ pondRef ∧ p.name ≠ pondRef := by
  unfold dropPond at h
  split at h
  · cases h
  · rename_i hany
    simp only [List.any_eq_true, decide_eq_true_eq, not_exists, not_and, not_or] at hany
    exact hany

/-- A refusal of `create_pond` is not about storage that could not be made. -/
theorem createPond_error {r : Registry} {pl : Placing} {name : Option Text} {tier : Text} {extensions : List Text}
    {e : ControlPlaneError} (h : r.createPond pl name tier extensions = .error e) (n owner cause : Text) (b : Bool) :
    e ≠ .allocationNotMaterialized n owner cause b := by
  rintro rfl
  unfold createPond checkCreate at h
  split at h
  · rename_i e he
    cases h
    split at he
    · cases he
    · split at he
      · cases he
      · split at he <;> cases he
  · dsimp only at h
    split at h
    · cases h
    · split at h
      · cases h
      · split at h
        · cases h
        · split at h <;> cases h

/-- **What `create_pond` inserts**: a row under the generated id, that was not there, and that stores what was asked
for. -/
theorem createPond_ok {r r' : Registry} {pl : Placing} {name : Option Text} {tier : Text} {extensions : List Text}
    {row : PondRow} (h : r.createPond pl name tier extensions = .ok (row, r')) :
    ∃ t, checkCreate name tier = .ok t ∧ row.tier = t.asStr ∧ row.pondId = pl.pondId ∧
      row.name = name.getD pl.pondId ∧ row.extensions = joinCsv extensions ∧ ¬r.HasRow pl.pondId ∧
      r' = { r with ponds := r.ponds ++ [row] } := by
  unfold createPond at h
  cases hc : checkCreate name tier with
  | error e => simp [hc] at h
  | ok t =>
    rw [hc] at h
    dsimp only at h
    split at h
    · cases h
    · split at h
      · cases h
      · split at h
        · cases h
        · split at h
          · cases h
          · rename_i hpk
            cases h
            simp only [List.any_eq_true, decide_eq_true_eq] at hpk
            exact ⟨t, rfl, rfl, rfl, rfl, rfl, hpk, rfl⟩

end Registry

theorem nonEmpty_eq_some {s t : Text} : nonEmpty s = some t ↔ s = t ∧ t ≠ [] := by
  unfold nonEmpty
  split
  · rename_i h
    simp only [reduceCtorEq, false_iff, not_and, not_not]
    rintro rfl
    exact h
  · rename_i h
    rw [Option.some_inj]
    constructor
    · rintro rfl
      exact ⟨rfl, h⟩
    · exact And.left

end Latiq.ControlPlane
