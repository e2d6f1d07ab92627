import Latiq.ControlPlane.Registry
import Latiq.Library.Runs
import Mathlib.Data.List.Nodup

/-!
# References to ponds

A pond is referred to by its id or by its name. Every operation resolves a reference by a query of its own, `WHERE
pond_id=? OR name=?`; three of them take one row of the answer, in no order (`LIMIT 1`), and two act on all rows.

## The model

* `Registry.pondInfoAt`, `getPondLocationAt`, `forgetPondAt` — the operations that take one row, whichever it is;
  `pondInfo`, `getPondLocation` and `forgetPond` take the first.
* `Registry.setPondTier`, `heartbeat`, `reap` — the rest of what changes the tables.
* `RegistryOp`, `Registry.after` — one operation on the registry, whether it is refused or not.

## What is proved

* `Inv.actsOn` — where a reference matches one row only, every operation acts on that row alone.
* `one_pond_iff` — in every state of a run each reference matches one row at most, and every operation acts on that row alone,
  in exactly the runs in which no pond is named like another's id.
* `named_like_an_id` — a pond that takes the id of another one for its name.
-/

namespace Latiq.ControlPlane

open SqlLex (Text)
open Latiq.Common

/-- `WHERE p.pond_id=? OR p.name=?`. -/
def PondRow.Matches (p : PondRow) (pondRef : Text) : Prop := p.pondId = pondRef ∨ p.name = pondRef

instance (p : PondRow) (pondRef : Text) : Decidable (p.Matches pondRef) :=
  inferInstanceAs (Decidable (p.pondId = pondRef ∨ p.name = pondRef))

/-- `LIMIT 1` without an order: any one of the rows. -/
def limitOne {α : Type} (pick : ℕ) (rows : List α) : Option α := rows[pick % rows.length]?

namespace Registry

/-- The rows that match a reference. -/
def matching (r : Registry) (pondRef : Text) : List PondRow := r.ponds.filter fun p => p.Matches pondRef

/-- `pond_info`, with the row that is taken. -/
def pondInfoAt (r : Registry) (pick : ℕ) (pondRef : Text) : Option PondInfo :=
  (limitOne pick (r.matching pondRef)).map r.infoOf

/-- What `get_pond_location` answers with a row. -/
def locationOf (r : Registry) (pondRef : Text) : Option PondRow → Except ControlPlaneError (Text × Text)
  | some p => .ok (p.pondId, (r.endpointOf p.nodeId).getD [])
  | none => .error (.pondNotFound pondRef)

/-- `get_pond_location`, with the row that is taken of those whose node has a row. -/
def getPondLocationAt (r : Registry) (pick : ℕ) (pondRef : Text) : Except ControlPlaneError (Text × Text) :=
  r.locationOf pondRef (limitOne pick ((r.matching pondRef).filter fun p => (r.endpointOf p.nodeId).isSome))

/-- A row is deleted by its id. -/
def deleteRow (r : Registry) (p : PondRow) : Registry := { r with ponds := r.ponds.filter fun q => q.pondId ≠ p.pondId }

/-- What `forget_pond` does with a row: refused while its node is active and has an endpoint. -/
def forgetRow (r : Registry) (p : PondRow) : Except ControlPlaneError Registry :=
  match r.nodes.find? fun n => n.nodeId = p.nodeId with
  | some n => if n.active ∧ n.internalEndpoint ≠ [] then .error (.pondStillOwned p.name p.nodeId) else .ok (r.deleteRow p)
  | none => .ok (r.deleteRow p)

/-- `forget_pond`, with the row that is taken. -/
def forgetPondAt (r : Registry) (pick : ℕ) (pondRef : Text) : Except ControlPlaneError Registry :=
  match limitOne pick (r.matching pondRef) with
  | none => .error (.pondNotFound pondRef)
  | some p => r.forgetRow p

/-- `set_pond_tier`, by id or name: an unknown tier is refused, and `none` is not. -/
def setPondTier (r : Registry) (pondRef tier : Text) : Except ControlPlaneError Registry :=
  match PondTier.parse tier with
  | none => .error (.invalid ("unknown tier '".toList ++ tier ++ "' (expected ".toList ++
      List.intercalate ", ".toList (PondTier.creatable ++ ["none".toList]) ++ ")".toList))
  | some parsed =>
    if r.ponds.any fun p => p.Matches pondRef then
      .ok { r with ponds := r.ponds.map fun p => if p.Matches pondRef then { p with tier := parsed.asStr } else p }
    else .error (.pondNotFound pondRef)

/-- `heartbeat`: an unknown node is refused. -/
def heartbeat (r : Registry) (nodeId : Text) : Option Registry :=
  if r.nodes.any fun n => n.nodeId = nodeId then
    some { r with nodes := r.nodes.map fun n => if n.nodeId = nodeId then { n with active := true } else n }
  else none

/-- `reap_stale_nodes`: those whose last heartbeat is too old are down. -/
def reap (r : Registry) (stale : List Text) : Registry :=
  { r with nodes := r.nodes.map fun n => if n.nodeId ∈ stale then { n with active := false } else n }

/-- The first row is one of those that may be taken. -/
theorem pondInfoAt_zero (r : Registry) (pondRef : Text) : r.pondInfoAt 0 pondRef = r.pondInfo pondRef := by
  unfold pondInfoAt pondInfo matching limitOne
  rw [Nat.zero_mod, ← List.head?_eq_getElem?, List.head?_filter]
  rfl

end Registry

/-- An operation on the registry, with what is not up to it. -/
inductive RegistryOp where
  | create (pl : Placing) (name : Option Text) (tier : Text) (extensions : List Text)
  | drop (pondRef : Text)
  | forget (pick : ℕ) (pondRef : Text)
  | setTier (pondRef tier : Text)
  | register (nodeId internalEndpoint : Text)
  | heartbeat (nodeId : Text)
  | reap (stale : List Text)
  deriving DecidableEq, Repr

namespace Registry

/-- A registry whose migrations have just been run. -/
def empty : Registry := ⟨[], []⟩

/-- What an operation leaves. A refusal leaves everything. -/
def after (r : Registry) : RegistryOp → Registry
  | .create pl name tier extensions =>
    match r.createPond pl name tier extensions with
    | .ok (_, r') => r'
    | .error _ => r
  | .drop pondRef => ((r.dropPond pondRef).toOption).getD r
  | .forget pick pondRef => ((r.forgetPondAt pick pondRef).toOption).getD r
  | .setTier pondRef tier => ((r.setPondTier pondRef tier).toOption).getD r
  | .register nodeId internalEndpoint => r.registerNode nodeId internalEndpoint
  | .heartbeat nodeId => (r.heartbeat nodeId).getD r
  | .reap stale => r.reap stale

/-- The step of a run. -/
def step (r : Registry) (op : RegistryOp) : Option Registry := some (r.after op)

/-- Every operation with the reference acts on this row, and on no other. -/
structure ActsOn (r : Registry) (pondRef : Text) (p : PondRow) : Prop where
  info : ∀ pick, r.pondInfoAt pick pondRef = some (r.infoOf p)
  location : ∀ pick, r.getPondLocationAt pick pondRef =
    r.locationOf pondRef (if (r.endpointOf p.nodeId).isSome then some p else none)
  drop : r.dropPond pondRef = .ok { r with ponds := r.ponds.filter (· ≠ p) }
  forget : ∀ pick, r.forgetPondAt pick pondRef = r.forgetRow p
  forgotten : ∀ r', r.forgetRow p = .ok r' → r' = { r with ponds := r.ponds.filter (· ≠ p) }
  setTier : ∀ tier parsed, PondTier.parse tier = some parsed → r.setPondTier pondRef tier =
    .ok { r with ponds := r.ponds.map fun q => if q = p then { q with tier := parsed.asStr } else q }

/-- **A reference denotes one pond**: it matches one row at most, and every operation acts on that row alone. -/
def OnePond (r : Registry) : Prop :=
  ∀ pondRef, ∀ p ∈ r.ponds, p.Matches pondRef →
    (∀ q ∈ r.ponds, q.Matches pondRef → q = p) ∧ r.ActsOn pondRef p

/-- A pond that is created is not named like the id of another one, and does not get the name of another one for its id. -/
def NamedApart (r : Registry) : RegistryOp → Prop
  | .create pl name tier extensions => (r.createPond pl name tier extensions).isOk →
      ∀ p ∈ r.ponds, p.pondId ≠ name.getD pl.pondId ∧ p.name ≠ pl.pondId
  | _ => True

/-! ### One operation -/

/-- What holds of the tables in every run that names its ponds apart. -/
structure Inv (r : Registry) : Prop where
  ids : (r.ponds.map PondRow.pondId).Nodup
  names : (r.ponds.map PondRow.name).Nodup
  apart : ∀ p ∈ r.ponds, ∀ q ∈ r.ponds, p.pondId = q.name → p = q

namespace Inv

variable {r : Registry}

theorem empty : Inv .empty := ⟨List.nodup_nil, List.nodup_nil, nofun⟩

/-- A reference matches one row at most. -/
theorem unique (h : r.Inv) {pondRef : Text} {p q : PondRow} (hp : p ∈ r.ponds) (hq : q ∈ r.ponds)
    (hpm : p.Matches pondRef) (hqm : q.Matches pondRef) : q = p := by
  rcases hpm with hpm | hpm <;> rcases hqm with hqm | hqm
  · exact List.inj_on_of_nodup_map h.ids hq hp (hqm.trans hpm.symm)
  · exact (h.apart p hp q hq (hpm.trans hqm.symm)).symm
  · exact h.apart q hq p hp (hqm.trans hpm.symm)
  · exact List.inj_on_of_nodup_map h.names hq hp (hqm.trans hpm.symm)

/-- To match a reference is to be the row it denotes. -/
theorem matches_iff (h : r.Inv) {pondRef : Text} {p q : PondRow} (hp : p ∈ r.ponds) (hpm : p.Matches pondRef)
    (hq : q ∈ r.ponds) : q.Matches pondRef ↔ q = p :=
  ⟨fun hqm => h.unique hp hq hpm hqm, fun heq => heq ▸ hpm⟩

theorem matching_eq (h : r.Inv) {pondRef : Text} {p : PondRow} (hp : p ∈ r.ponds) (hpm : p.Matches pondRef) :
    r.matching pondRef = [p] := by
  have hnodup : r.ponds.Nodup := List.Nodup.of_map _ h.ids
  have hfilter : r.matching pondRef = r.ponds.filter (· = p) := by
    unfold matching
    refine List.filter_congr fun q hq => ?_
    rw [decide_eq_decide]
    exact h.matches_iff hp hpm hq
  rw [hfilter, List.filter_eq, List.count_eq_one_of_mem hnodup hp, List.replicate_one]

/-- **One row**: where a reference matches one row only, every operation acts on it alone. -/
theorem actsOn (h : r.Inv) {pondRef : Text} {p : PondRow} (hp : p ∈ r.ponds) (hpm : p.Matches pondRef) :
    r.ActsOn pondRef p := by
  have hone : ∀ pick, limitOne pick (r.matching pondRef) = some p := by
    intro pick
    rw [h.matching_eq hp hpm]
    simp [limitOne, Nat.mod_one]
  have hany : (r.ponds.any fun q => q.Matches pondRef) = true :=
    List.any_eq_true.2 ⟨p, hp, decide_eq_true hpm⟩
  constructor
  · intro pick
    rw [pondInfoAt, hone]
    rfl
  · intro pick
    rw [getPondLocationAt, h.matching_eq hp hpm]
    by_cases hnode : (r.endpointOf p.nodeId).isSome = true
    · rw [List.filter_cons_of_pos (by simpa using hnode), if_pos hnode]
      simp [limitOne, Nat.mod_one]
    · rw [List.filter_cons_of_neg (by simpa using hnode), if_neg hnode]
      rfl
  · have hkept : (r.ponds.filter fun q => ¬(q.pondId = pondRef ∨ q.name = pondRef)) = r.ponds.filter (· ≠ p) := by
      refine List.filter_congr fun q hq => ?_
      rw [decide_eq_decide]
      exact not_congr (h.matches_iff hp hpm hq)
    unfold dropPond
    rw [← hkept]
    exact if_pos hany
  · intro pick
    rw [forgetPondAt, hone]
  · intro r' hr'
    have hkept : (r.deleteRow p) = { r with ponds := r.ponds.filter (· ≠ p) } := by
      unfold deleteRow
      congr 1
      refine List.filter_congr fun q hq => ?_
      rw [decide_eq_decide]
      exact not_congr ⟨fun heq => List.inj_on_of_nodup_map h.ids hq hp heq, fun heq => heq ▸ rfl⟩
    rw [← hkept]
    unfold forgetRow at hr'
    split at hr'
    · split_ifs at hr'
      exact (Except.ok.inj hr').symm
    · exact (Except.ok.inj hr').symm
  · intro tier parsed hparsed
    unfold setPondTier
    rw [hparsed]
    dsimp only
    rw [if_pos hany]
    congr 2
    refine List.map_congr_left fun q hq => ?_
    by_cases hq' : q = p
    · rw [if_pos hq', if_pos ((h.matches_iff hp hpm hq).2 hq')]
    · rw [if_neg hq', if_neg fun hm => hq' ((h.matches_iff hp hpm hq).1 hm)]

theorem onePond (h : r.Inv) : r.OnePond :=
  fun _ _ hp hpm => ⟨fun _ hq hqm => h.unique hp hq hpm hqm, h.actsOn hp hpm⟩

/-- What is kept of the rows, by id and name, keeps the invariant. -/
theorem of_sublist {r' : Registry} (h : r.Inv)
    (hsub : (r'.ponds.map fun p => (p.pondId, p.name)).Sublist (r.ponds.map fun p => (p.pondId, p.name))) : r'.Inv := by
  have hids : ∀ l : List PondRow, l.map PondRow.pondId = (l.map fun p => (p.pondId, p.name)).map Prod.fst := by
    intro l
    rw [List.map_map]
    rfl
  have hnames : ∀ l : List PondRow, l.map PondRow.name = (l.map fun p => (p.pondId, p.name)).map Prod.snd := by
    intro l
    rw [List.map_map]
    rfl
  have hnodup : (r'.ponds.map PondRow.pondId).Nodup := by
    rw [hids]
    exact (hids r.ponds ▸ h.ids).sublist (hsub.map Prod.fst)
  refine ⟨hnodup, ?_, fun p hp q hq heq => ?_⟩
  · rw [hnames]
    exact (hnames r.ponds ▸ h.names).sublist (hsub.map Prod.snd)
  · obtain ⟨p', hp', hpp⟩ := List.mem_map.1 (hsub.subset (List.mem_map_of_mem hp))
    obtain ⟨q', hq', hqq⟩ := List.mem_map.1 (hsub.subset (List.mem_map_of_mem hq))
    obtain ⟨hpid, hpname⟩ := Prod.mk.inj hpp
    obtain ⟨hqid, hqname⟩ := Prod.mk.inj hqq
    have hrow : p' = q' := h.apart p' hp' q' hq' (hpid.trans (heq.trans hqname.symm))
    refine List.inj_on_of_nodup_map hnodup hp hq ?_
    rw [← hpid, ← hqid, hrow]

end Inv

/-! ### Every run -/

section

variable {r r' : Registry}

theorem forgetRow_ok {p : PondRow} (h : r.forgetRow p = .ok r') : r' = r.deleteRow p := by
  unfold forgetRow at h
  split at h
  · split_ifs at h
    exact (Except.ok.inj h).symm
  · exact (Except.ok.inj h).symm

theorem forgetPondAt_ok {pick : ℕ} {pondRef : Text} (h : r.forgetPondAt pick pondRef = .ok r') :
    ∃ p, r' = r.deleteRow p := by
  unfold forgetPondAt at h
  split at h
  · cases h
  · exact ⟨_, forgetRow_ok h⟩

theorem setPondTier_ok {pondRef tier : Text} (h : r.setPondTier pondRef tier = .ok r') :
    ∃ t : PondTier, r' = { r with ponds := r.ponds.map fun p => if p.Matches pondRef then { p with tier := t.asStr } else p } := by
  unfold setPondTier at h
  split at h
  · cases h
  · split_ifs at h
    exact ⟨_, (Except.ok.inj h).symm⟩

/-- A name that is taken is refused. -/
theorem createPond_fresh {pl : Placing} {name : Option Text} {tier : Text} {extensions : List Text} {row : PondRow}
    (h : r.createPond pl name tier extensions = .ok (row, r')) : ∀ p ∈ r.ponds, p.name ≠ name.getD pl.pondId := by
  unfold createPond at h
  cases hc : checkCreate name tier with
  | error e => simp [hc] at h
  | ok t =>
    rw [hc] at h
    dsimp only at h
    split at h
    · cases h
    · split at h
      · cases h
      · rename_i hany
        intro p hp heq
        exact hany (List.any_eq_true.2 ⟨p, hp, decide_eq_true heq⟩)

/-- What an operation other than a create leaves of the rows, by id and name. -/
theorem after_sublist {op : RegistryOp} (h : ∀ pl name tier extensions, op ≠ .create pl name tier extensions) :
    ((r.after op).ponds.map fun p => (p.pondId, p.name)).Sublist (r.ponds.map fun p => (p.pondId, p.name)) := by
  cases op with
  | create pl name tier extensions => exact absurd rfl (h pl name tier extensions)
  | drop pondRef =>
    simp only [after, dropPond]
    split
    · exact List.filter_sublist.map _
    · exact List.Sublist.refl _
  | forget pick pondRef =>
    simp only [after]
    cases hf : r.forgetPondAt pick pondRef with
    | error e => exact List.Sublist.refl _
    | ok t =>
      obtain ⟨p, rfl⟩ := forgetPondAt_ok hf
      exact List.filter_sublist.map _
  | setTier pondRef tier =>
    simp only [after]
    cases hf : r.setPondTier pondRef tier with
    | error e => exact List.Sublist.refl _
    | ok t =>
      obtain ⟨t, rfl⟩ := setPondTier_ok hf
      have hsame : (r.ponds.map fun p => if p.Matches pondRef then { p with tier := t.asStr } else p).map
          (fun p => (p.pondId, p.name)) = r.ponds.map fun p => (p.pondId, p.name) := by
        rw [List.map_map]
        refine List.map_congr_left fun p _ => ?_
        dsimp only [Function.comp]
        split <;> rfl
      show ((r.ponds.map _).map _).Sublist _
      rw [hsame]
  | register nodeId internalEndpoint => exact List.Sublist.refl _
  | heartbeat nodeId =>
    simp only [after, heartbeat]
    split <;> exact List.Sublist.refl _
  | reap stale => exact List.Sublist.refl _

/-- What a create adds to the rows keeps the invariant exactly when it is named apart. -/
theorem inv_create_iff {pl : Placing} {name : Option Text} {tier : Text} {extensions : List Text} {row : PondRow}
    (h : r.Inv) (hc : r.createPond pl name tier extensions = .ok (row, r')) :
    r'.Inv ↔ ∀ p ∈ r.ponds, p.pondId ≠ name.getD pl.pondId ∧ p.name ≠ pl.pondId := by
  obtain ⟨t, -, -, hid, hname, -, hnew, rfl⟩ := createPond_ok hc
  have hfresh := createPond_fresh hc
  constructor
  · intro h' p hp
    have hpm : p ∈ r.ponds ++ [row] := List.mem_append_left _ hp
    have hrow : row ∈ r.ponds ++ [row] := List.mem_append_right _ List.mem_cons_self
    have hne : p ≠ row := fun heq => hnew ⟨p, hp, by rw [heq, hid]⟩
    refine ⟨fun heq => hne (h'.apart p hpm row hrow (heq.trans hname.symm)), fun heq => ?_⟩
    exact hne (h'.apart row hrow p hpm (hid.trans heq.symm)).symm
  · intro hapart
    constructor
    · rw [List.map_append, List.nodup_append]
      refine ⟨h.ids, List.nodup_singleton _, ?_⟩
      rintro a ha b hb rfl
      obtain ⟨p, hp, hpa⟩ := List.mem_map.1 ha
      exact hnew ⟨p, hp, hpa.trans ((List.mem_singleton.1 hb).trans hid)⟩
    · rw [List.map_append, List.nodup_append]
      refine ⟨h.names, List.nodup_singleton _, ?_⟩
      rintro a ha b hb rfl
      obtain ⟨p, hp, hpa⟩ := List.mem_map.1 ha
      exact hfresh p hp (hpa.trans ((List.mem_singleton.1 hb).trans hname))
    · intro p hp q hq heq
      rcases List.mem_append.1 hp with hp | hp <;> rcases List.mem_append.1 hq with hq | hq
      · exact h.apart p hp q hq heq
      · rw [List.mem_singleton.1 hq] at heq
        exact absurd (heq.trans hname) (hapart p hp).1
      · rw [List.mem_singleton.1 hp] at heq
        exact absurd (heq.symm.trans hid) (hapart q hq).2
      · rw [List.mem_singleton.1 hp, List.mem_singleton.1 hq]

/-- One step keeps the invariant where it names a pond apart. -/
theorem Inv.after (h : r.Inv) {op : RegistryOp} (hgood : r.NamedApart op) : (r.after op).Inv := by
  cases op with
  | create pl name tier extensions =>
    simp only [Registry.after]
    cases hc : r.createPond pl name tier extensions with
    | error e => exact h
    | ok created =>
      obtain ⟨row, r'⟩ := created
      exact (inv_create_iff h hc).2 (hgood (by rw [hc]; rfl))
  | drop _ | forget _ _ | setTier _ _ | register _ _ | heartbeat _ | reap _ => exact h.of_sublist (after_sublist nofun)

/-- **A reference denotes one pond**, in every state of a run, in exactly the runs in which each pond that is created is
named apart from the ids of the others. -/
theorem one_pond_iff (ops : List RegistryOp) :
    Runs.Always step OnePond .empty ops ↔ Runs.Careful step NamedApart .empty ops := by
  refine Runs.always_iff_careful (I := Inv) ?_ (fun r h => h.onePond) ?_ Inv.empty
  · rintro r op r' h hgood hstep
    cases hstep
    exact h.after hgood
  · rintro r op r' h hbad hstep hone
    cases hstep
    cases op with
    | create pl name tier extensions =>
      refine hbad fun hok => ?_
      cases hc : r.createPond pl name tier extensions with
      | error e =>
        rw [hc] at hok
        cases hok
      | ok created =>
        obtain ⟨row, r'⟩ := created
        simp only [after, hc] at hone
        obtain ⟨t, -, -, hid, hname, -, hnew, rfl⟩ := createPond_ok hc
        intro p hp
        have hpm : p ∈ r.ponds ++ [row] := List.mem_append_left _ hp
        have hrow : row ∈ r.ponds ++ [row] := List.mem_append_right _ List.mem_cons_self
        have hne : p ≠ row := fun heq => hnew ⟨p, hp, by rw [heq, hid]⟩
        exact ⟨fun heq => hne ((hone _ row hrow (.inr hname)).1 p hpm (.inl heq)),
          fun heq => hne ((hone _ row hrow (.inl hid)).1 p hpm (.inr heq))⟩
    | _ => exact hbad trivial

/-- A pond, and one that has the id of the first for its name. -/
def namedLikeAnId : List RegistryOp :=
  [.register "n1".toList "http://n1".toList,
    .create ⟨0, "3f2a9c1e-0000-4a00-8000-abcdefabcdef".toList, none⟩ (some "sales".toList) "small".toList [],
    .create ⟨0, "5c7b1d20-0000-4a00-8000-abcdefabcdef".toList, none⟩
      (some "3f2a9c1e-0000-4a00-8000-abcdefabcdef".toList) "small".toList []]

/-- Both rows match the id of the first. -/
theorem named_like_an_id : ¬Runs.Always step OnePond .empty namedLikeAnId := by
  intro h
  have hrun : (Runs.run step .empty namedLikeAnId).map
      (fun r => r.ponds.map fun p => (p.pondId.take 1, decide (p.Matches "3f2a9c1e-0000-4a00-8000-abcdefabcdef".toList))) =
      some [("3".toList, true), ("5".toList, true)] := by
    decide +kernel
  obtain ⟨r, hr, hrows⟩ := Option.map_eq_some_iff.1 hrun
  obtain ⟨p, rest, hponds, hp, hrest⟩ := List.map_eq_cons_iff.1 hrows
  obtain ⟨q, rest', rfl, hq, -⟩ := List.map_eq_cons_iff.1 hrest
  obtain ⟨hp, hpm⟩ := Prod.mk.inj hp
  obtain ⟨hq, hqm⟩ := Prod.mk.inj hq
  have hpr : p ∈ r.ponds := hponds ▸ List.mem_cons_self
  have hqr : q ∈ r.ponds := hponds ▸ List.mem_cons_of_mem _ List.mem_cons_self
  obtain rfl := (h.last hr _ p hpr (of_decide_eq_true hpm)).1 q hqr (of_decide_eq_true hqm)
  rw [hp] at hq
  revert hq
  decide

end

end Registry

end Latiq.ControlPlane
