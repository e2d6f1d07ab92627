import Latiq.Common.Id
import Latiq.ControlPlane.References

/-!
# Well-formed registries

What holds of the tables whatever was done to them, and where each row came from.

## The model

* `RegistryOp.Generated` — an operation whose generated id, if it has one, is a UUID.
* `Registry.WellFormed` — what holds of the tables.
* `Placed` — a row goes back to a create that put it on an active node.

## What is proved

* `rows_after` — what one operation can do to a row.
* `WellFormed.after` — every operation keeps the tables well-formed.
* `registry_well_formed` — in every run the tables are well-formed, every row was placed on an active node, its tier is
  `none` only by `set_pond_tier`, and `forget_pond` takes no row from an active node with an endpoint.
-/

namespace Latiq.ControlPlane

open SqlLex (Text)
open Latiq.Common

/-- What a node takes a stored tier for. -/
def tierOf (tier : Text) : PondTier := (PondTier.parse tier).getD .medium

/-- The id of a pond is generated by `PondId::new`. -/
def RegistryOp.Generated : RegistryOp → Prop
  | .create pl _ _ _ => ∃ id : PondId, pl.pondId = id.toText
  | _ => True

/-- What holds of the tables. -/
structure Registry.WellFormed (r : Registry) : Prop where
  legal : ∀ p ∈ r.ponds, validatePondName p.name = .ok ()
  names : (r.ponds.map PondRow.name).Nodup
  ids : (r.ponds.map PondRow.pondId).Nodup
  /-- A node that parses the tier finds it. -/
  tiers : ∀ p ∈ r.ponds, ∃ t : PondTier, p.tier = t.asStr ∧ PondTier.parse p.tier = some t
  owners : ∀ p ∈ r.ponds, ∃ n ∈ r.nodes, n.nodeId = p.nodeId
  nodes : (r.nodes.map NodeRow.nodeId).Nodup

/-- A live host: the node of the row is active and has an endpoint. -/
def Registry.Hosted (r : Registry) (p : PondRow) : Prop :=
  ∃ n ∈ r.nodes, n.nodeId = p.nodeId ∧ n.active ∧ n.internalEndpoint ≠ []

namespace Registry

variable {r r' : Registry}

/-! ### One operation -/

theorem createPond_node {pl : Placing} {name : Option Text} {tier : Text} {extensions : List Text} {row : PondRow}
    (h : r.createPond pl name tier extensions = .ok (row, r')) :
    ∃ n ∈ r.nodes, n.nodeId = row.nodeId ∧ n.active := by
  unfold createPond at h
  cases hc : checkCreate name tier with
  | error e => simp [hc] at h
  | ok t =>
    rw [hc] at h
    dsimp only at h
    split at h
    · cases h
    · rename_i node hnode
      obtain ⟨hmem, hactive⟩ := List.mem_filter.1 (List.mem_of_getElem? hnode)
      refine ⟨node, hmem, ?_, hactive⟩
      split at h
      · cases h
      · split at h
        · cases h
        · split at h
          · cases h
          · cases h
            rfl

/-- The rows are the same but for what the tier of some of them is set to. -/
structure Retiered (op : RegistryOp) (q p : PondRow) : Prop where
  pondId : q.pondId = p.pondId
  name : q.name = p.name
  nodeId : q.nodeId = p.nodeId
  tier : q.tier = p.tier ∨
    ∃ pondRef tier t, op = .setTier pondRef tier ∧ p.Matches pondRef ∧ PondTier.parse tier = some t ∧ p.tier = t.asStr

/-- The row is created by the operation. -/
def Creates (r : Registry) (op : RegistryOp) (p : PondRow) : Prop :=
  ∃ pl name tier extensions, op = .create pl name tier extensions ∧
    ∃ r', r.createPond pl name tier extensions = .ok (p, r') ∧ r.after op = r'

theorem Retiered.refl (op : RegistryOp) (p : PondRow) : Retiered op p p := ⟨rfl, rfl, rfl, .inl rfl⟩

/-- **What an operation can do to a row**: keep it, set its tier, or create it. -/
theorem rows_after {op : RegistryOp} {p : PondRow} (hp : p ∈ (r.after op).ponds) :
    (∃ q ∈ r.ponds, Retiered op q p) ∨ r.Creates op p := by
  have hkept {op : RegistryOp} (hp : p ∈ r.ponds) : (∃ q ∈ r.ponds, Retiered op q p) ∨ r.Creates op p :=
    .inl ⟨p, hp, .refl op p⟩
  cases op with
  | create pl name tier extensions =>
    cases hc : r.createPond pl name tier extensions with
    | error e =>
      simp only [after, hc] at hp
      exact hkept hp
    | ok created =>
      obtain ⟨row, r'⟩ := created
      have hafter : r.after (.create pl name tier extensions) = r' := by simp only [after, hc]
      obtain ⟨-, -, -, -, -, -, -, hr'⟩ := createPond_ok hc
      rw [hafter, hr'] at hp
      rcases List.mem_append.1 hp with hp | hp
      · exact hkept hp
      · obtain rfl := List.mem_singleton.1 hp
        exact .inr ⟨pl, name, tier, extensions, rfl, r', hc, hafter⟩
  | drop pondRef =>
    cases hd : r.dropPond pondRef with
    | error e =>
      simp only [after, hd] at hp
      exact hkept hp
    | ok r' =>
      simp only [after, hd] at hp
      exact hkept (((dropPond_ok hd).2 p).1 hp).1
  | forget pick pondRef =>
    cases hf : r.forgetPondAt pick pondRef with
    | error e =>
      simp only [after, hf] at hp
      exact hkept hp
    | ok r' =>
      simp only [after, hf] at hp
      obtain ⟨q, rfl⟩ := forgetPondAt_ok hf
      exact hkept (List.mem_of_mem_filter hp)
  | setTier pondRef tier =>
    cases hf : r.setPondTier pondRef tier with
    | error e =>
      simp only [after, hf] at hp
      exact hkept hp
    | ok r' =>
      simp only [after, hf] at hp
      unfold setPondTier at hf
      split at hf
      · cases hf
      · rename_i t ht
        split_ifs at hf
        obtain rfl := Except.ok.inj hf
        obtain ⟨q, hq, rfl⟩ := List.mem_map.1 hp
        refine .inl ⟨q, hq, ?_⟩
        by_cases hm : q.Matches pondRef
        · rw [if_pos hm]
          exact ⟨rfl, rfl, rfl, .inr ⟨pondRef, tier, t, rfl, hm, ht, rfl⟩⟩
        · rw [if_neg hm]
          exact .refl _ q
  | register nodeId internalEndpoint => exact hkept hp
  | heartbeat nodeId =>
    have hponds : (r.after (.heartbeat nodeId)).ponds = r.ponds := by
      simp only [after, heartbeat]
      split <;> rfl
    exact hkept (hponds ▸ hp)
  | reap stale => exact hkept hp

/-- The ids of the nodes stay, up to their order. -/
theorem nodes_after (op : RegistryOp) :
    (∃ nodeId internalEndpoint, op = .register nodeId internalEndpoint) ∨
      (r.after op).nodes.map NodeRow.nodeId = r.nodes.map NodeRow.nodeId := by
  cases op with
  | register nodeId internalEndpoint => exact .inl ⟨nodeId, internalEndpoint, rfl⟩
  | create pl name tier extensions =>
    right
    simp only [after]
    cases hc : r.createPond pl name tier extensions with
    | error e => rfl
    | ok created =>
      obtain ⟨row, r'⟩ := created
      obtain ⟨-, -, -, -, -, -, -, rfl⟩ := createPond_ok hc
      rfl
  | drop pondRef =>
    right
    simp only [after, dropPond]
    split <;> rfl
  | forget pick pondRef =>
    right
    simp only [after]
    cases hf : r.forgetPondAt pick pondRef with
    | error e => rfl
    | ok r' =>
      obtain ⟨q, rfl⟩ := forgetPondAt_ok hf
      rfl
  | setTier pondRef tier =>
    right
    simp only [after]
    cases hf : r.setPondTier pondRef tier with
    | error e => rfl
    | ok r' =>
      obtain ⟨t, rfl⟩ := setPondTier_ok hf
      rfl
  | heartbeat nodeId =>
    right
    simp only [after, heartbeat]
    split
    · refine (List.map_map ..).trans (List.map_congr_left fun n _ => ?_)
      dsimp only [Function.comp]
      split <;> rfl
    · rfl
  | reap stale =>
    right
    refine (List.map_map ..).trans (List.map_congr_left fun n _ => ?_)
    dsimp only [Function.comp]
    split <;> rfl

/-- No operation takes a node away. -/
theorem node_stays {op : RegistryOp} {n : NodeRow} (hn : n ∈ r.nodes) : ∃ m ∈ (r.after op).nodes, m.nodeId = n.nodeId := by
  rcases nodes_after (r := r) op with ⟨nodeId, internalEndpoint, rfl⟩ | hids
  · by_cases heq : n.nodeId = nodeId
    · exact ⟨_, List.mem_cons_self, heq.symm⟩
    · exact ⟨n, List.mem_cons_of_mem _ (List.mem_filter.2 ⟨hn, decide_eq_true heq⟩), rfl⟩
  · have hmem : n.nodeId ∈ (r.after op).nodes.map NodeRow.nodeId := hids ▸ List.mem_map_of_mem hn
    exact List.mem_map.1 hmem

theorem nodes_nodup (op : RegistryOp) (h : (r.nodes.map NodeRow.nodeId).Nodup) :
    ((r.after op).nodes.map NodeRow.nodeId).Nodup := by
  rcases nodes_after (r := r) op with ⟨nodeId, internalEndpoint, rfl⟩ | hids
  · refine List.nodup_cons.2 ⟨?_, h.sublist (List.filter_sublist.map _)⟩
    intro hmem
    obtain ⟨n, hn, heq⟩ := List.mem_map.1 hmem
    obtain ⟨-, hne⟩ := List.mem_filter.1 hn
    exact of_decide_eq_true hne heq
  · rw [hids]
    exact h

/-- What an operation leaves of the ids, and of the names, has nothing twice. -/
theorem keys_nodup {op : RegistryOp} (hids : (r.ponds.map PondRow.pondId).Nodup) (hnames : (r.ponds.map PondRow.name).Nodup) :
    ((r.after op).ponds.map PondRow.pondId).Nodup ∧ ((r.after op).ponds.map PondRow.name).Nodup := by
  by_cases hop : ∃ pl name tier extensions, op = .create pl name tier extensions
  · obtain ⟨pl, name, tier, extensions, rfl⟩ := hop
    simp only [after]
    cases hc : r.createPond pl name tier extensions with
    | error e => exact ⟨hids, hnames⟩
    | ok created =>
      obtain ⟨row, r'⟩ := created
      obtain ⟨-, -, -, hid, hname, -, hnew, rfl⟩ := createPond_ok hc
      constructor
      · rw [List.map_append, List.nodup_append]
        refine ⟨hids, List.nodup_singleton _, ?_⟩
        rintro a ha b hb rfl
        obtain ⟨p, hp, hpa⟩ := List.mem_map.1 ha
        exact hnew ⟨p, hp, hpa.trans ((List.mem_singleton.1 hb).trans hid)⟩
      · rw [List.map_append, List.nodup_append]
        refine ⟨hnames, List.nodup_singleton _, ?_⟩
        rintro a ha b hb rfl
        obtain ⟨p, hp, hpa⟩ := List.mem_map.1 ha
        exact createPond_fresh hc p hp (hpa.trans ((List.mem_singleton.1 hb).trans hname))
  · have hsub := after_sublist (r := r) fun pl name tier extensions heq => hop ⟨pl, name, tier, extensions, heq⟩
    have hid := hsub.map Prod.fst
    have hname := hsub.map Prod.snd
    simp only [List.map_map] at hid hname
    exact ⟨hids.sublist hid, hnames.sublist hname⟩

/-! ### Every run -/

theorem WellFormed.empty : WellFormed .empty :=
  ⟨nofun, List.nodup_nil, List.nodup_nil, nofun, nofun, List.nodup_nil⟩

/-- The row that is created is well-formed. -/
theorem Creates.row {op : RegistryOp} {p : PondRow} (h : r.Creates op p) (hop : op.Generated) :
    validatePondName p.name = .ok () ∧ (∃ t : PondTier, p.tier = t.asStr ∧ t ≠ .none) ∧
      ∃ n ∈ r.nodes, n.nodeId = p.nodeId ∧ n.active := by
  obtain ⟨pl, name, tier, extensions, rfl, r', hc, -⟩ := h
  obtain ⟨id, hid⟩ := hop
  obtain ⟨t, ht, htier, -, hname, -⟩ := createPond_ok hc
  obtain ⟨-, hne, hlegal⟩ := checkCreate_ok ht
  refine ⟨?_, ⟨t, htier, hne⟩, createPond_node hc⟩
  rw [hname]
  cases name with
  | none => exact hid ▸ id.validate_toText
  | some n => exact hlegal n rfl

/-- **Every operation keeps the tables well-formed.** -/
theorem WellFormed.after (h : r.WellFormed) {op : RegistryOp} (hop : op.Generated) : (r.after op).WellFormed := by
  obtain ⟨hids, hnames⟩ := keys_nodup h.ids h.names
  refine ⟨fun p hp => ?_, hnames, hids, fun p hp => ?_, fun p hp => ?_, nodes_nodup op h.nodes⟩
  · rcases rows_after hp with ⟨q, hq, hkept⟩ | hnew
    · exact hkept.name ▸ h.legal q hq
    · exact (hnew.row hop).1
  · rcases rows_after hp with ⟨q, hq, hkept⟩ | hnew
    · rcases hkept.tier with htier | ⟨pondRef, tier, t, -, -, -, htier⟩
      · exact htier ▸ h.tiers q hq
      · exact ⟨t, htier, htier ▸ PondTier.parse_asStr t⟩
    · obtain ⟨t, htier, -⟩ := (hnew.row hop).2.1
      exact ⟨t, htier, htier ▸ PondTier.parse_asStr t⟩
  · have hnode : ∃ n ∈ r.nodes, n.nodeId = p.nodeId := by
      rcases rows_after hp with ⟨q, hq, hkept⟩ | hnew
      · exact hkept.nodeId ▸ h.owners q hq
      · obtain ⟨n, hn, heq, -⟩ := (hnew.row hop).2.2
        exact ⟨n, hn, heq⟩
    obtain ⟨n, hn, heq⟩ := hnode
    obtain ⟨m, hm, hmn⟩ := node_stays hn
    exact ⟨m, hm, hmn.trans heq⟩

/-- A row goes back to a create of the run: its node was active then, and `none` was set as its tier afterwards, if it
has that one. -/
def Placed (ops : List RegistryOp) (p : PondRow) : Prop :=
  ∃ before create behind, ops = before ++ create :: behind ∧ ∃ r row, Runs.run step .empty before = some r ∧
    r.Creates create row ∧ row.pondId = p.pondId ∧ row.name = p.name ∧ row.nodeId = p.nodeId ∧
    (∃ n ∈ r.nodes, n.nodeId = p.nodeId ∧ n.active) ∧
    (tierOf p.tier = .none → ∃ pondRef tier, .setTier pondRef tier ∈ behind ∧ p.Matches pondRef ∧
      PondTier.parse tier = some .none)

theorem tierOf_asStr (t : PondTier) : tierOf t.asStr = t := by
  rw [tierOf, PondTier.parse_asStr]
  rfl

/-- A row that is kept goes back to where it went back to before. -/
theorem Placed.snoc {ops : List RegistryOp} {op : RegistryOp} {q p : PondRow} (h : Placed ops q) (hkept : Retiered op q p) :
    Placed (ops ++ [op]) p := by
  obtain ⟨before, create, behind, rfl, s, row, hrun, hcreates, hid, hname, hnode, hactive, hnone⟩ := h
  refine ⟨before, create, behind ++ [op], by simp, s, row, hrun, hcreates, hid.trans hkept.pondId,
    hname.trans hkept.name, hnode.trans hkept.nodeId, hkept.nodeId ▸ hactive, fun htier => ?_⟩
  have hmatches {pondRef : Text} (hm : q.Matches pondRef) : p.Matches pondRef :=
    hm.imp hkept.pondId.symm.trans hkept.name.symm.trans
  rcases hkept.tier with heq | ⟨pondRef, tier, t, rfl, hm, hparse, heq⟩
  · obtain ⟨pondRef, tier, hmem, hm, hparse⟩ := hnone (heq ▸ htier)
    exact ⟨pondRef, tier, List.mem_append_left _ hmem, hmatches hm, hparse⟩
  · rw [heq, tierOf_asStr] at htier
    exact ⟨pondRef, tier, List.mem_append_right _ List.mem_cons_self, hm, htier ▸ hparse⟩

theorem placed {ops : List RegistryOp} (hops : ∀ op ∈ ops, op.Generated) (hr : Runs.run step .empty ops = some r) :
    ∀ p ∈ r.ponds, Placed ops p := by
  induction ops using List.reverseRecOn generalizing r with
  | nil =>
    cases hr
    exact nofun
  | append_singleton ops op ih =>
    obtain ⟨s, hs, hstep⟩ := Runs.run_append.1 hr
    obtain rfl : s.after op = r := by simpa [Runs.run, step] using hstep
    intro p hp
    rcases rows_after hp with ⟨q, hq, hkept⟩ | hnew
    · exact (ih (fun o ho => hops o (List.mem_append_left _ ho)) hs q hq).snoc hkept
    · obtain ⟨-, ⟨t, htier, hne⟩, hactive⟩ := hnew.row (hops op (List.mem_append_right _ List.mem_cons_self))
      refine ⟨ops, op, [], rfl, s, p, hs, hnew, rfl, rfl, rfl, hactive, fun hnone => absurd hnone ?_⟩
      rw [htier, tierOf_asStr]
      exact hne

/-- What `forget_pond` takes has no live host. -/
theorem WellFormed.forgotten (h : r.WellFormed) {pick : ℕ} {pondRef : Text} (hf : r.forgetPondAt pick pondRef = .ok r') :
    ∃ p ∈ r.ponds, p.Matches pondRef ∧ ¬r.Hosted p ∧ r' = { r with ponds := r.ponds.filter (· ≠ p) } := by
  unfold forgetPondAt at hf
  split at hf
  · cases hf
  · rename_i p hpick
    obtain ⟨hp, hm⟩ := List.mem_filter.1 (List.mem_of_getElem? hpick)
    refine ⟨p, hp, of_decide_eq_true hm, ?_, ?_⟩
    · rintro ⟨n, hn, heq, hactive, hendpoint⟩
      have hfind : r.nodes.find? (fun m => m.nodeId = p.nodeId) = some n := by
        cases hfound : r.nodes.find? fun m => m.nodeId = p.nodeId with
        | none => exact absurd (decide_eq_true heq) (List.find?_eq_none.1 hfound n hn)
        | some m =>
          have hm := List.find?_some hfound
          rw [List.inj_on_of_nodup_map h.nodes (List.mem_of_find?_eq_some hfound) hn ((of_decide_eq_true hm).trans heq.symm)]
      rw [forgetRow, hfind] at hf
      dsimp only at hf
      rw [if_pos ⟨hactive, hendpoint⟩] at hf
      cases hf
    · rw [forgetRow_ok hf, deleteRow]
      congr 1
      refine List.filter_congr fun q hq => ?_
      rw [decide_eq_decide]
      exact not_congr ⟨fun heq => List.inj_on_of_nodup_map h.ids hq hp heq, fun heq => heq ▸ rfl⟩

/-- **The registry is well-formed** in every state of every run, each row goes back to a create that put it on an active
node, the tier `none` is only set by `set_pond_tier`, and a row is forgotten only where it has no live host. -/
theorem registry_well_formed (ops : List RegistryOp) (hops : ∀ op ∈ ops, op.Generated) (r : Registry)
    (hr : Runs.run step .empty ops = some r) :
    r.WellFormed ∧ (∀ p ∈ r.ponds, Placed ops p) ∧
      ∀ pick pondRef r', r.forgetPondAt pick pondRef = .ok r' →
        ∃ p ∈ r.ponds, p.Matches pondRef ∧ ¬r.Hosted p ∧ r' = { r with ponds := r.ponds.filter (· ≠ p) } := by
  have hwell : r.WellFormed := by
    induction ops using List.reverseRecOn generalizing r with
    | nil =>
      cases hr
      exact .empty
    | append_singleton ops op ih =>
      obtain ⟨s, hs, hstep⟩ := Runs.run_append.1 hr
      obtain rfl : s.after op = r := by simpa [Runs.run, step] using hstep
      exact (ih (fun o ho => hops o (List.mem_append_left _ ho)) s hs).after
        (hops op (List.mem_append_right _ List.mem_cons_self))
  exact ⟨hwell, placed hops hr, fun _ _ _ hf => hwell.forgotten hf⟩

/-- The id of a pond. -/
def someId : PondId := ⟨0x3f2a9c1e00004a008000abcdefabcdef, by decide, by decide⟩

/-- A pond without a name, made uncapped after its node was reaped. -/
def uncapped : List RegistryOp :=
  [.register "n1".toList "http://n1".toList, .create ⟨0, someId.toText, none⟩ none "XLARGE".toList [],
    .reap ["n1".toList], .setTier someId.toText "Uncapped".toList]

theorem uncapped_well_formed : ∃ r, Runs.run step .empty uncapped = some r ∧ r.WellFormed ∧
    ∃ p ∈ r.ponds, tierOf p.tier = .none ∧ Placed uncapped p := by
  have hgen : ∀ op ∈ uncapped, op.Generated := by
    simp only [uncapped, List.forall_mem_cons]
    exact ⟨trivial, ⟨someId, rfl⟩, trivial, trivial, List.forall_mem_nil _⟩
  have hrows : (Runs.run step .empty uncapped).map (fun r => r.ponds.map fun p => tierOf p.tier) = some [.none] := by
    decide +kernel
  obtain ⟨r, hr, htiers⟩ := Option.map_eq_some_iff.1 hrows
  obtain ⟨p, rest, hponds, htier, -⟩ := List.map_eq_cons_iff.1 htiers
  have hp : p ∈ r.ponds := hponds ▸ List.mem_cons_self
  obtain ⟨hwell, hplaced, -⟩ := registry_well_formed uncapped hgen r hr
  exact ⟨r, hr, hwell, p, hp, htier, hplaced p hp⟩

end Registry

end Latiq.ControlPlane
