import Latiq.ControlPlane.WellFormed

/-!
# Which nodes are alive

A node sends heartbeats, and the registry keeps the time of the last one. A sweep puts down the nodes that have not been
heard of for too long; a heartbeat, or a registration, brings a node up again. Ponds are placed on the nodes that are up,
and a pond is not forgotten while its node is.

## The model

* `Clocked` — the registry with its clock, the times of the heartbeats, and the time of the last sweep. The clock does
  not go back.
* `Clocked.step` — an operation, a sweep that succeeds, or time that goes by. What fails changes nothing and is left out.

## What is proved

* `Watched.step` — a node is up exactly when it has been heard of not longer than the limit before the last sweep.
* `failure_detector` — so it is in every state of every run: who is heard of in time is never put down, who is not is put down by
  the next sweep, and no pond is placed on a node that was silent then, nor taken from one that was not.
-/

namespace Latiq.ControlPlane

open SqlLex (Text)

/-- `NODE_TTL_SECS`, in microseconds. -/
def NODE_TTL : ℕ := 30 * 1000000

/-- `REAP_INTERVAL`, in microseconds. -/
def REAP_INTERVAL : ℕ := 10 * 1000000

/-- The registry with its clock. -/
structure Clocked where
  registry : Registry
  /-- `last_heartbeat` of a node that has a row. -/
  lastHeartbeat : Text → ℕ
  now : ℕ
  /-- When the last sweep was. -/
  swept : ℕ

/-- What goes on. -/
inductive Event where
  | op (op : RegistryOp)
  | sweep
  | elapse (micros : ℕ)
  deriving DecidableEq, Repr

namespace Clocked

variable (c : Clocked)

/-- Whom `reap_stale_nodes` puts down. -/
def stale : List Text :=
  (c.registry.nodes.filter fun n => n.active ∧ c.lastHeartbeat n.nodeId + NODE_TTL < c.now).map NodeRow.nodeId

/-- `last_heartbeat` behind an operation: `now()` where it is a heartbeat or a registration of the node. -/
def heard : RegistryOp → Text → ℕ
  | .register nodeId _ => Function.update c.lastHeartbeat nodeId c.now
  | .heartbeat nodeId =>
    if (c.registry.heartbeat nodeId).isSome then Function.update c.lastHeartbeat nodeId c.now else c.lastHeartbeat
  | _ => c.lastHeartbeat

/-- The step of a run: only a sweep reaps. -/
def step : Event → Option Clocked
  | .op (.reap _) => none
  | .op op => some { c with registry := c.registry.after op, lastHeartbeat := c.heard op }
  | .sweep => some { c with registry := c.registry.reap c.stale, swept := c.now }
  | .elapse micros => some { c with now := c.now + micros }

/-- Nobody has registered. -/
def start : Clocked := ⟨.empty, fun _ => 0, 0, 0⟩

/-- The nodes are as the clock says. -/
structure Watched : Prop where
  swept : c.swept ≤ c.now
  nodes : (c.registry.nodes.map NodeRow.nodeId).Nodup
  active : ∀ n ∈ c.registry.nodes, n.active = true ↔ c.swept ≤ c.lastHeartbeat n.nodeId + NODE_TTL

/-- What is to be relied on. -/
structure Detects : Prop where
  /-- A node is up exactly when it was heard of in time before the last sweep. -/
  active : ∀ n ∈ c.registry.nodes, n.active = true ↔ c.swept ≤ c.lastHeartbeat n.nodeId + NODE_TTL
  /-- Who has been heard of in time is up. -/
  spared : ∀ n ∈ c.registry.nodes, c.now ≤ c.lastHeartbeat n.nodeId + NODE_TTL → n.active = true
  /-- While the sweeps come in time, who is up has been heard of before the limit and one interval. -/
  recent : c.now ≤ c.swept + REAP_INTERVAL → ∀ n ∈ c.registry.nodes, n.active = true →
    c.now ≤ c.lastHeartbeat n.nodeId + NODE_TTL + REAP_INTERVAL
  /-- A pond is placed on a node that is up. -/
  placed : ∀ pl name tier extensions row r, c.registry.createPond pl name tier extensions = .ok (row, r) →
    ∃ n ∈ c.registry.nodes, n.nodeId = row.nodeId ∧ c.swept ≤ c.lastHeartbeat n.nodeId + NODE_TTL
  /-- A pond that is forgotten is on a node that is gone, has no endpoint, or was silent too long before the last sweep. -/
  forgotten : ∀ pick pondRef r, c.registry.forgetPondAt pick pondRef = .ok r →
    ∃ p ∈ c.registry.ponds, p.Matches pondRef ∧ r = c.registry.deleteRow p ∧ ∀ n ∈ c.registry.nodes,
      n.nodeId = p.nodeId → n.internalEndpoint = [] ∨ c.lastHeartbeat n.nodeId + NODE_TTL < c.swept

variable {c}

/-! ### One step -/

/-- The operation is about ponds. -/
def OnPonds : RegistryOp → Prop
  | .register _ _ | .heartbeat _ | .reap _ => False
  | _ => True

/-- What makes, drops, forgets or retiers a pond leaves the nodes alone. -/
theorem nodes_after {r : Registry} {op : RegistryOp} (h : OnPonds op) : (r.after op).nodes = r.nodes := by
  cases op with
  | create pl name tier extensions =>
    simp only [Registry.after]
    cases hc : r.createPond pl name tier extensions with
    | error e => rfl
    | ok created =>
      obtain ⟨row, r'⟩ := created
      obtain ⟨-, -, -, -, -, -, -, rfl⟩ := Registry.createPond_ok hc
      rfl
  | drop pondRef =>
    simp only [Registry.after, Registry.dropPond]
    split <;> rfl
  | forget pick pondRef =>
    simp only [Registry.after]
    cases hf : r.forgetPondAt pick pondRef with
    | error e => rfl
    | ok r' =>
      obtain ⟨p, rfl⟩ := Registry.forgetPondAt_ok hf
      rfl
  | setTier pondRef tier =>
    simp only [Registry.after]
    cases hf : r.setPondTier pondRef tier with
    | error e => rfl
    | ok r' =>
      obtain ⟨t, rfl⟩ := Registry.setPondTier_ok hf
      rfl
  | register _ _ | heartbeat _ | reap _ => exact h.elim

/-- Who is heard of now is up. -/
theorem Watched.fresh (h : c.Watched) : c.swept ≤ c.now + NODE_TTL := h.swept.trans (Nat.le_add_right _ _)

theorem Watched.register (h : c.Watched) (nodeId endpoint : Text) : ∀ n ∈ (c.registry.registerNode nodeId endpoint).nodes,
    n.active = true ↔ c.swept ≤ Function.update c.lastHeartbeat nodeId c.now n.nodeId + NODE_TTL := by
  intro n hn
  rcases List.mem_cons.1 hn with rfl | hold
  · simpa using h.fresh
  · obtain ⟨hmem, hne⟩ := List.mem_filter.1 hold
    rw [Function.update_of_ne (of_decide_eq_true hne)]
    exact h.active n hmem

theorem Watched.heartbeat (h : c.Watched) {nodeId : Text} {r : Registry} (hr : c.registry.heartbeat nodeId = some r) :
    ∀ n ∈ r.nodes, n.active = true ↔ c.swept ≤ Function.update c.lastHeartbeat nodeId c.now n.nodeId + NODE_TTL := by
  unfold Registry.heartbeat at hr
  split at hr
  case isFalse => cases hr
  cases hr
  intro n hn
  obtain ⟨m, hm, rfl⟩ := List.mem_map.1 hn
  by_cases heq : m.nodeId = nodeId
  · rw [if_pos heq, heq, Function.update_self]
    simpa using h.fresh
  · rw [if_neg heq, Function.update_of_ne heq]
    exact h.active m hm

/-- A sweep puts down exactly those who were silent too long. -/
theorem Watched.sweep (h : c.Watched) : ∀ n ∈ (c.registry.reap c.stale).nodes,
    n.active = true ↔ c.now ≤ c.lastHeartbeat n.nodeId + NODE_TTL := by
  intro n hn
  obtain ⟨m, hm, rfl⟩ := List.mem_map.1 hn
  by_cases hstale : m.nodeId ∈ c.stale
  · rw [if_pos hstale]
    obtain ⟨m', hm', heq⟩ := List.mem_map.1 hstale
    have hlate := (of_decide_eq_true (List.mem_filter.1 hm').2).2
    rw [heq] at hlate
    simpa using hlate
  · rw [if_neg hstale]
    have hkept : m.active = true → c.now ≤ c.lastHeartbeat m.nodeId + NODE_TTL := fun hactive =>
      Nat.le_of_not_lt fun hlate => hstale (List.mem_map.2 ⟨m, List.mem_filter.2 ⟨hm, decide_eq_true ⟨hactive, hlate⟩⟩, rfl⟩)
    exact ⟨hkept, fun htime => (h.active m hm).2 (h.swept.trans htime)⟩

/-- **One step** leaves the nodes as the clock says. -/
theorem Watched.step {c' : Clocked} {e : Event} (h : c.Watched) (hstep : c.step e = some c') : c'.Watched := by
  have hkept {op : RegistryOp} (hnodes : (c.registry.after op).nodes = c.registry.nodes) (hheard : c.heard op = c.lastHeartbeat) :
      Watched { c with registry := c.registry.after op, lastHeartbeat := c.heard op } := by
    refine ⟨h.swept, Registry.nodes_nodup op h.nodes, ?_⟩
    show ∀ n ∈ (c.registry.after op).nodes, n.active = true ↔ c.swept ≤ c.heard op n.nodeId + NODE_TTL
    rw [hnodes, hheard]
    exact h.active
  cases e with
  | elapse micros =>
    cases hstep
    exact ⟨h.swept.trans (Nat.le_add_right _ _), h.nodes, h.active⟩
  | sweep =>
    cases hstep
    exact ⟨Nat.le_refl _, Registry.nodes_nodup (.reap c.stale) h.nodes, h.sweep⟩
  | op op =>
    cases op with
    | reap stale => cases hstep
    | register nodeId endpoint =>
      cases hstep
      exact ⟨h.swept, Registry.nodes_nodup (.register nodeId endpoint) h.nodes, h.register nodeId endpoint⟩
    | heartbeat nodeId =>
      cases hstep
      cases hr : c.registry.heartbeat nodeId with
      | none =>
        refine hkept ?_ ?_
        · simp [Registry.after, hr]
        · simp [heard, hr]
      | some r =>
        refine ⟨h.swept, Registry.nodes_nodup (.heartbeat nodeId) h.nodes, ?_⟩
        simpa [Registry.after, heard, hr] using h.heartbeat hr
    | _ =>
      cases hstep
      exact hkept (nodes_after trivial) rfl

/-! ### Every state -/

/-- A row is found by its id. -/
theorem find_of_nodup {nodes : List NodeRow} (h : (nodes.map NodeRow.nodeId).Nodup) {n : NodeRow} (hn : n ∈ nodes) :
    nodes.find? (fun m => m.nodeId = n.nodeId) = some n := by
  cases hfound : nodes.find? fun m => m.nodeId = n.nodeId with
  | none => exact absurd (decide_eq_true rfl) (List.find?_eq_none.1 hfound n hn)
  | some m =>
    have hid : m.nodeId = n.nodeId := by simpa using List.find?_some hfound
    rw [List.inj_on_of_nodup_map h (List.mem_of_find?_eq_some hfound) hn hid]

/-- What is forgotten is on no node that is up and has an endpoint. -/
theorem forgotten_of_nodup {r r' : Registry} (h : (r.nodes.map NodeRow.nodeId).Nodup) {pick : ℕ} {pondRef : Text}
    (hf : r.forgetPondAt pick pondRef = .ok r') : ∃ p ∈ r.ponds, p.Matches pondRef ∧ r' = r.deleteRow p ∧
      ∀ n ∈ r.nodes, n.nodeId = p.nodeId → n.internalEndpoint = [] ∨ ¬n.active = true := by
  unfold Registry.forgetPondAt at hf
  split at hf
  · cases hf
  · rename_i p hpick
    obtain ⟨hp, hm⟩ := List.mem_filter.1 (List.mem_of_getElem? hpick)
    refine ⟨p, hp, of_decide_eq_true hm, Registry.forgetRow_ok hf, fun n hn heq => ?_⟩
    rw [Registry.forgetRow, ← heq, find_of_nodup h hn] at hf
    dsimp only at hf
    split_ifs at hf with hhosted
    by_contra hnot
    rw [not_or, not_not] at hnot
    exact hhosted ⟨hnot.2, hnot.1⟩

theorem Watched.detects (h : c.Watched) : c.Detects where
  active := h.active
  spared n hn htime := (h.active n hn).2 (h.swept.trans htime)
  recent hinterval n hn hactive := by
    have hheard := (h.active n hn).1 hactive
    omega
  placed pl name tier extensions row r hc := by
    obtain ⟨n, hn, heq, hactive⟩ := Registry.createPond_node hc
    exact ⟨n, hn, heq, (h.active n hn).1 hactive⟩
  forgotten pick pondRef r hf := by
    obtain ⟨p, hp, hm, hr, hdown⟩ := forgotten_of_nodup h.nodes hf
    refine ⟨p, hp, hm, hr, fun n hn heq => (hdown n hn heq).imp_right fun hnot => ?_⟩
    rw [h.active n hn] at hnot
    exact Nat.lt_of_not_le hnot

/-- What the registry has come to, it can come to without a clock. -/
def Reached : Prop := ∃ ops, Runs.run Registry.step .empty ops = some c.registry

theorem Reached.step {c' : Clocked} {e : Event} (h : c.Reached) (hstep : c.step e = some c') : c'.Reached := by
  obtain ⟨ops, hops⟩ := h
  have hsnoc (op : RegistryOp) : Runs.run Registry.step .empty (ops ++ [op]) = some (c.registry.after op) :=
    Runs.run_append.2 ⟨_, hops, rfl⟩
  cases e with
  | elapse micros =>
    cases hstep
    exact ⟨ops, hops⟩
  | sweep =>
    cases hstep
    exact ⟨_, hsnoc (.reap c.stale)⟩
  | op op =>
    refine ⟨ops ++ [op], (hsnoc op).trans ?_⟩
    cases op with
    | reap stale => cases hstep
    | _ =>
      cases hstep
      rfl

/-- **The failure detector**: in every state of every run the nodes that are up are those that were heard of in time, and
the registry is in a state of a run without a clock. -/
theorem failure_detector (events : List Event) : Runs.Always step (fun c => c.Detects ∧ c.Reached) start events := by
  have hstep (s : Clocked) (e : Event) (s' : Clocked) (h : s.Watched ∧ s.Reached) (_ : True) (hs : s.step e = some s') :
      s'.Watched ∧ s'.Reached := ⟨h.1.step hs, h.2.step hs⟩
  have hstart : start.Watched ∧ start.Reached := ⟨⟨Nat.le_refl _, List.nodup_nil, nofun⟩, [], rfl⟩
  exact Runs.always_of_careful hstep (fun _ h => ⟨h.1.detects, h.2⟩) hstart (Runs.careful_of_forall fun _ _ _ => trivial)

end Clocked

end Latiq.ControlPlane
