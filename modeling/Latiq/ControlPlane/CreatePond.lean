import Latiq.Library.Unwind
import Latiq.ControlPlane.Registry

/-!
# Creating a pond

`create_pond_assignment` inserts a row, looks up where it was placed, has the owner make the
pond's storage, and gives the row back if that fails. A node that creates a
pond calls it, and then reads the pond back. The future of the request can be
dropped at each await, and other calls go on meanwhile.

## The model

* `Site` — the registry, and which ponds have files at a node.
* `CreateScript` — how each step turns out, and what other calls do between two of them;
  `createPondAssignment` is the handler, and `CreateCall.run` a call of it, or of the node's `create_pond`.

## What is proved

* `create_all_or_nothing_iff` — a call that does not return `Ok` leaves neither a row nor files, or
  reports that the undo failed; it reports so exactly when the row remains; and the
  undo spares every other pond: exactly under `CreateCall.Clean`.
* `create_leaves_behind` — a row without a report, files behind a report that nothing was left, a report
  without a row, and another pond that the undo takes.
-/

namespace Latiq.ControlPlane

open Unwind
open SqlLex (Text)

/-- The registry, and the ids of the ponds that have a directory at a node. -/
structure Site where
  registry : Registry
  files : List Text
  deriving DecidableEq, Repr

/-- Neither a row nor files have the id. -/
def Site.Free (w : Site) (pondId : Text) : Prop := ¬w.registry.HasRow pondId ∧ pondId ∉ w.files

/-- How `MaterializePond` ends on a node. -/
inductive Materialized where
  /-- It is refused, or `ensure_pond` fails before it has made a directory. -/
  | refused
  /-- `ensure_pond` made a directory, and it or `init_pond` fails. -/
  | halfMade
  | made
  deriving DecidableEq, Repr

/-- How the await of `materialize` ends. -/
inductive MaterializeHop where
  | unreachable
  | answered (m : Materialized)
  /-- The node took the call, and its answer did not come in time. -/
  | lost (m : Materialized)
  /-- The request's future is dropped, before or after the node took the call. -/
  | abandoned (m : Option Materialized)
  deriving DecidableEq, Repr

/-- The files a call leaves at the node. -/
def Site.afterNode (w : Site) (pondId : Text) : Materialized → Site
  | .refused => w
  | .halfMade | .made => { w with files := pondId :: w.files }

/-- The files of a hop. -/
def Site.afterHop (w : Site) (pondId : Text) : MaterializeHop → Site
  | .unreachable | .abandoned none => w
  | .answered m | .lost m | .abandoned (some m) => w.afterNode pondId m

/-- `CreatePondAssignmentRequest`. -/
structure CreateRequest where
  name : Text
  tier : Text
  extensions : List Text
  deriving DecidableEq, Repr

/-- How the steps of `create_pond_assignment` turn out. -/
structure CreateScript where
  placing : Placing
  /-- What other calls do before the lookup of the owner. -/
  beforeLookup : Site → Site
  /-- The hop to the owner, if there is a materializer. -/
  hop : Option MaterializeHop
  cause : Text
  /-- What other calls do while the owner is waited for. -/
  duringHop : Site → Site
  /-- The error of the deletion that is to undo the insert. -/
  undoError : Option Text

section

variable (s : CreateScript) (req : CreateRequest)

/-- `registry.create_pond`. -/
def insertRow : Act Site ControlPlaneError PondRow := fun w =>
  match w.registry.createPond s.placing (nonEmpty req.name) (if req.tier = [] then "medium".toList else req.tier)
    req.extensions with
  | .ok (row, registry) => (.ok row, { w with registry })
  | .error e => (.err e, w)

/-- `registry.get_pond_location`. -/
def lookupOwner (pondId : Text) : Act Site ControlPlaneError (Text × Text) := .lift fun w =>
  (w.registry.getPondLocation pondId, w)

/-- `materialize`: the error is the cause, as a text. -/
def materialize (hop : MaterializeHop) (pondId : Text) : Act Site Text Unit := fun w =>
  (match hop with
    | .answered .made => .ok ()
    | .abandoned _ => .unwound
    | _ => .err s.cause,
  s.duringHop (w.afterHop pondId hop))

/-- `compensate`. -/
def compensate (pondId name owner cause : Text) : Act Site ControlPlaneError (Text × Text) := fun w =>
  match s.undoError with
  | some _ => (.err (.allocationNotMaterialized name owner cause false), w)
  | none =>
    match w.registry.dropPond pondId with
    | .ok registry => (.err (.allocationNotMaterialized name owner cause true), { w with registry })
    | .error _ => (.err (.allocationNotMaterialized name owner cause false), w)

/-- The `Display` of the error of a lookup. -/
def lookupCause (pondId : Text) : Text :=
  "the registry can no longer say where it was placed: pond not found: ".toList ++ pondId

/-- `create_pond_assignment`. -/
def createPondAssignment : Act Site ControlPlaneError (Text × Text) := do
  let pond ← insertRow s req
  Act.modify s.beforeLookup
  match ← (Act.attempt (lookupOwner pond.pondId) : Act Site ControlPlaneError _) with
  | .error _ => compensate s pond.pondId pond.name pond.nodeId (lookupCause pond.pondId)
  | .ok (_, endpoint) =>
    match s.hop with
    | none => pure (pond.pondId, endpoint)
    | some hop => do
      match ← (Act.attempt (materialize s hop pond.pondId) : Act Site ControlPlaneError _) with
      | .error cause => compensate s pond.pondId pond.name endpoint cause
      | .ok () => pure (pond.pondId, endpoint)

/-! ### How far a call gets -/

/-- How far `create_pond_assignment` gets. -/
inductive Reached where
  | refused (e : ControlPlaneError)
  | undoes (w : Site) (name owner cause : Text)
  | dropped (w : Site)
  | assigned (w : Site) (endpoint : Text)

/-- Where the steps behind the insert lead. -/
def reachPlaced (row : PondRow) (w : Site) : Reached :=
  match w.registry.getPondLocation row.pondId with
  | .error _ => .undoes w row.name row.nodeId (lookupCause row.pondId)
  | .ok (_, endpoint) =>
    match s.hop with
    | none => .assigned w endpoint
    | some (.answered .made) => .assigned (s.duringHop (w.afterNode row.pondId .made)) endpoint
    | some (.abandoned m) => .dropped (s.duringHop (w.afterHop row.pondId (.abandoned m)))
    | some hop => .undoes (s.duringHop (w.afterHop row.pondId hop)) row.name endpoint s.cause

/-- Where the steps lead. -/
def reach (w : Site) : Reached :=
  match insertRow s req w with
  | (.ok row, w') => reachPlaced s row (s.beforeLookup w')
  | (.err e, _) => .refused e
  | (.unwound, w') => .dropped w'

theorem insertRow_ok {w w' : Site} {row : PondRow} (h : insertRow s req w = (.ok row, w')) :
    row.pondId = s.placing.pondId := by
  unfold insertRow at h
  split at h
  · rename_i hc
    cases h
    obtain ⟨_, _, _, hid, _⟩ := Registry.createPond_ok hc
    exact hid
  · cases h

theorem insertRow_cases (w : Site) :
    (∃ row w', insertRow s req w = (.ok row, w') ∧ row.pondId = s.placing.pondId) ∨
      ∃ e, insertRow s req w = (.err e, w) := by
  cases h : insertRow s req w with
  | mk out w' =>
    cases out with
    | ok row => exact .inl ⟨row, w', rfl, insertRow_ok s req h⟩
    | err e =>
      unfold insertRow at h
      split at h
      · cases h
      · cases h
        exact .inr ⟨e, rfl⟩
    | unwound =>
      unfold insertRow at h
      split at h <;> cases h

/-- **The handler does what is left to do** where its steps lead. -/
theorem createPondAssignment_eq (w : Site) :
    createPondAssignment s req w =
      match reach s req w with
      | .refused e => (.err e, w)
      | .undoes w' name owner cause => compensate s s.placing.pondId name owner cause w'
      | .dropped w' => (.unwound, w')
      | .assigned w' endpoint => (.ok (s.placing.pondId, endpoint), w') := by
  rcases insertRow_cases s req w with ⟨row, w', hrow, hid⟩ | ⟨e, he⟩
  · simp only [createPondAssignment, reach, reachPlaced, Act.bind_apply, hrow, Act.modify, Act.attempt, lookupOwner,
      Act.lift]
    rw [hid]
    cases hl : (s.beforeLookup w').registry.getPondLocation s.placing.pondId with
    | error e => simp [Ended.ofExcept]
    | ok loc =>
      obtain ⟨ref, endpoint⟩ := loc
      simp only [Ended.ofExcept]
      rcases s.hop with _ | hop
      · rfl
      · rcases hop with _ | m | m | m
        · rfl
        · cases m <;> rfl
        · rfl
        · rfl
  · simp [createPondAssignment, reach, Act.bind_apply, he]

/-! ### The undo -/

/-- No other pond is named by the id. -/
def NoNamesake (w : Site) (pondId : Text) : Prop := ∀ p ∈ w.registry.ponds, p.name = pondId → p.pondId = pondId

/-- **The undo** deletes the row and its namesakes, unless it fails; it keeps the files. -/
theorem compensate_undoes (pondId name owner cause : Text) (w : Site) :
    (compensate s pondId name owner cause w).2.files = w.files ∧
      ((compensate s pondId name owner cause w).2.registry.HasRow pondId ↔
        s.undoError ≠ none ∧ w.registry.HasRow pondId) ∧
      ((∀ p ∈ w.registry.ponds, p.pondId ≠ pondId → p ∈ (compensate s pondId name owner cause w).2.registry.ponds) ↔
        (s.undoError = none → NoNamesake w pondId)) := by
  unfold compensate
  cases s.undoError with
  | some e => exact ⟨rfl, by simp, fun _ h => (nomatch h), fun _ p hp _ => hp⟩
  | none =>
    cases hd : w.registry.dropPond pondId with
    | ok registry =>
      have hmem := (Registry.dropPond_ok hd).2
      refine ⟨rfl, ?_, ?_⟩
      · simp only [ne_eq, not_true_eq_false, false_and, iff_false]
        rintro ⟨p, hp, hid⟩
        exact ((hmem p).1 hp).2.1 hid
      · constructor
        · intro h _ p hp hname
          by_contra hne
          exact ((hmem p).1 (h p hp hne)).2.2 hname
        · intro h p hp hne
          exact (hmem p).2 ⟨hp, hne, fun hname => hne (h rfl p hp hname)⟩
    | error e =>
      have hno := Registry.dropPond_error hd
      refine ⟨rfl, ?_, ?_⟩
      · simp only [ne_eq, not_true_eq_false, false_and, iff_false]
        rintro ⟨p, hp, hid⟩
        exact (hno p hp).1 hid
      · constructor
        · intro _ _ p hp hname
          exact absurd hname (hno p hp).2
        · intro _ p hp _
          exact hp

/-- **What the undo reports**: that it failed, or that there was nothing to delete. -/
theorem compensate_reports (pondId name owner cause : Text) (w : Site) :
    ∃ compensated, (compensate s pondId name owner cause w).1 =
        .err (.allocationNotMaterialized name owner cause compensated) ∧
      (compensated = false ↔ (s.undoError = none → ∀ p ∈ w.registry.ponds, p.pondId ≠ pondId ∧ p.name ≠ pondId)) := by
  unfold compensate
  cases s.undoError with
  | some e => exact ⟨false, rfl, by simp⟩
  | none =>
    cases hd : w.registry.dropPond pondId with
    | ok registry =>
      obtain ⟨⟨p, hp, href⟩, -⟩ := Registry.dropPond_ok hd
      refine ⟨true, rfl, ?_⟩
      simp only [Bool.true_eq_false, false_iff]
      intro h
      rcases href with hid | hname
      · exact (h trivial p hp).1 hid
      · exact (h trivial p hp).2 hname
    | error e => exact ⟨false, rfl, fun _ _ => Registry.dropPond_error hd, fun _ => rfl⟩

end

/-! ### A call -/

/-- How the await of a node's call of the control plane ends. -/
inductive AssignmentHop where
  | undelivered
  | relayed
  | lost
  /-- The node's future is dropped, before or after the control plane took the call. -/
  | abandoned (taken : Bool)
  deriving DecidableEq, Repr

/-- How the await of `get_pond_info` ends. -/
inductive ReadBack where
  | answered
  | failed
  /-- An answer without a pond. -/
  | empty
  | abandoned
  deriving DecidableEq, Repr

/-- The errors of a create. -/
inductive CreateError where
  | controlPlane (e : ControlPlaneError)
  | transport
  | noPondInfo
  deriving DecidableEq, Repr

/-- What a create returns. -/
inductive CreateReply where
  | assigned (pondId endpoint : Text)
  | created (info : PondInfo)
  deriving DecidableEq, Repr

/-- A call of the handler, or of a node's `create_pond`. -/
inductive CreateCall where
  | assignment (s : CreateScript) (req : CreateRequest)
  | fromNode (s : CreateScript) (req : CreateRequest) (hop : AssignmentHop) (beforeReadBack : Site → Site)
    (readBack : ReadBack)

/-- The node reads the pond back. -/
def readPondBack (pondId : Text) : ReadBack → Act Site CreateError CreateReply
  | .answered => fun w =>
    match w.registry.pondInfo pondId with
    | some info => (.ok (.created info), w)
    | none => (.err (.controlPlane (.pondNotFound pondId)), w)
  | .failed => .fail .transport
  | .empty => .fail .noPondInfo
  | .abandoned => .unwind

/-- A call. -/
def CreateCall.run : CreateCall → Act Site CreateError CreateReply
  | .assignment s req => do
    let (pondId, endpoint) ← Act.mapErr .controlPlane (createPondAssignment s req)
    return .assigned pondId endpoint
  | .fromNode s req hop beforeReadBack readBack => fun w =>
    match hop with
    | .undelivered => (.err .transport, w)
    | .abandoned false => (.unwound, w)
    | .abandoned true => (.unwound, (createPondAssignment s req w).2)
    | .lost => (.err .transport, (createPondAssignment s req w).2)
    | .relayed =>
      match createPondAssignment s req w with
      | (.ok (pondId, _), w') => readPondBack pondId readBack (beforeReadBack w')
      | (.err e, w') => (.err (.controlPlane e), w')
      -- the handler is gone, and the node hears of a broken stream
      | (.unwound, w') => (.err .transport, w')

/-- The script of the call. -/
def CreateCall.script : CreateCall → CreateScript
  | .assignment s _ | .fromNode s .. => s

/-- How far the handler gets, if it is called. -/
def CreateCall.reached (w : Site) : CreateCall → Option Reached
  | .assignment s req => some (reach s req w)
  | .fromNode _ _ .undelivered .. | .fromNode _ _ (.abandoned false) .. => none
  | .fromNode s req _ .. => some (reach s req w)

/-- The id the call generates. -/
def CreateCall.pondId (c : CreateCall) : Text := c.script.placing.pondId

/-- The error says that the undo failed. -/
def SaysNotUndone (out : Ended CreateError CreateReply) : Prop :=
  ∃ name owner cause, out = .err (.controlPlane (.allocationNotMaterialized name owner cause false))

/-- What is left behind a call that does not return `Ok`. -/
def Settled (out : Ended CreateError CreateReply) (w : Site) (pondId : Text) : Prop :=
  out.isOk = false → (w.registry.HasRow pondId ↔ SaysNotUndone out) ∧ (pondId ∈ w.files → SaysNotUndone out)

/-- **All or nothing**, of a call on a site. -/
structure AllOrNothing (c : CreateCall) (w : Site) : Prop where
  settled : Settled (c.run w).1 (c.run w).2 c.pondId
  /-- The undo keeps the rows of other ponds. -/
  spares : ∀ u name owner cause, c.reached w = some (.undoes u name owner cause) →
    ∀ p ∈ u.registry.ponds, p.pondId ≠ c.pondId → p ∈ (c.run w).2.registry.ponds

/-- The undo can give everything back, or say that it could not: the row is still there, and, if it can be
deleted, there are no files, and no other pond is named by the id. -/
def CreateScript.CanUndo (s : CreateScript) (w : Site) : Prop :=
  w.registry.HasRow s.placing.pondId ∧
    (s.undoError = none → s.placing.pondId ∉ w.files ∧ NoNamesake w s.placing.pondId)

/-- The undo can give everything back, for a caller who does not hear of it. -/
def CreateScript.CanUndoUnheard (s : CreateScript) (w : Site) : Prop :=
  s.placing.pondId ∉ w.files ∧ (s.undoError = none → NoNamesake w s.placing.pondId) ∧
    (s.undoError ≠ none → ¬w.registry.HasRow s.placing.pondId)

/-- What a caller who hears the answer depends on. -/
def CreateScript.Heard (s : CreateScript) (req : CreateRequest) (w : Site) : Prop :=
  match reach s req w with
  | .refused _ => w.Free s.placing.pondId
  | .undoes u .. => s.CanUndo u
  | .dropped u => u.Free s.placing.pondId
  | .assigned .. => True

/-- What a caller who does not hear the answer depends on. -/
def CreateScript.Unheard (s : CreateScript) (req : CreateRequest) (w : Site) : Prop :=
  match reach s req w with
  | .refused _ => w.Free s.placing.pondId
  | .undoes u .. => s.CanUndoUnheard u
  | .dropped u | .assigned u _ => u.Free s.placing.pondId

/-- **When a create is all or nothing**: the id is new; an undo can give everything back; and where the code does not
undo, behind a dropped future, a lost answer or a read-back that fails, other calls have removed the pond. -/
def CreateCall.Clean (w : Site) : CreateCall → Prop
  | .assignment s req => s.Heard req w
  | .fromNode s _ .undelivered .. | .fromNode s _ (.abandoned false) .. => w.Free s.placing.pondId
  | .fromNode s req .lost .. | .fromNode s req (.abandoned true) .. => s.Unheard req w
  | .fromNode s req .relayed beforeReadBack readBack =>
    s.Heard req w ∧ ∀ u endpoint, reach s req w = .assigned u endpoint →
      readBack = .answered ∧ ((beforeReadBack u).registry.pondInfo s.placing.pondId).isSome ∨
        (beforeReadBack u).Free s.placing.pondId

/-! ### When it is all or nothing -/

theorem settled_iff_free {out : Ended CreateError CreateReply} {w : Site} {pondId : Text} (hout : out.isOk = false)
    (hsaid : ¬SaysNotUndone out) : Settled out w pondId ↔ w.Free pondId := by
  unfold Settled Site.Free
  simp [hout, hsaid]

theorem not_says_refused {s : CreateScript} {req : CreateRequest} {w : Site} {e : ControlPlaneError}
    (h : reach s req w = .refused e) : ¬SaysNotUndone (.err (.controlPlane e)) := by
  rintro ⟨name, owner, cause, he⟩
  cases he
  unfold reach at h
  split at h
  · unfold reachPlaced at h
    split at h
    · cases h
    · split at h <;> cases h
  · rename_i e w' hins
    cases h
    unfold insertRow at hins
    split at hins
    · cases hins
    · rename_i e hcreate
      cases hins
      exact Registry.createPond_error hcreate name owner cause false rfl
  · cases h

section

variable {s : CreateScript} {name owner cause : Text} {u : Site}

/-- The undo keeps the rows of other ponds. -/
def Spares (s : CreateScript) (name owner cause : Text) (u : Site) : Prop :=
  ∀ p ∈ u.registry.ponds, p.pondId ≠ s.placing.pondId →
    p ∈ (compensate s s.placing.pondId name owner cause u).2.registry.ponds

theorem undo_heard_iff {compensated : Bool}
    (hc : (compensate s s.placing.pondId name owner cause u).1 =
      .err (.allocationNotMaterialized name owner cause compensated)) :
    Settled (.err (.controlPlane (.allocationNotMaterialized name owner cause compensated)))
        (compensate s s.placing.pondId name owner cause u).2 s.placing.pondId ∧ Spares s name owner cause u ↔
      s.CanUndo u := by
  obtain ⟨hfiles, hrow, hspares⟩ := compensate_undoes s s.placing.pondId name owner cause u
  obtain ⟨compensated', hc', hrep⟩ := compensate_reports s s.placing.pondId name owner cause u
  rw [hc] at hc'
  cases hc'
  have hsaid : SaysNotUndone (.err (.controlPlane (.allocationNotMaterialized name owner cause compensated))) ↔
      compensated = false := by
    simp [SaysNotUndone]
  unfold Settled Spares CreateScript.CanUndo
  rw [hspares, hrow, hfiles, hsaid, hrep]
  cases he : s.undoError with
  | some e => simp [Ended.isOk]
  | none =>
    simp only [Ended.isOk, ne_eq, not_true_eq_false, false_and, forall_const, false_iff]
    constructor
    · rintro ⟨⟨hmatch, hno⟩, hsame⟩
      have hfree : s.placing.pondId ∉ u.files := fun hmem => hmatch (hno hmem)
      refine ⟨?_, hfree, hsame⟩
      simp only [not_forall, not_and_or, not_not] at hmatch
      obtain ⟨p, hp, hid | hname⟩ := hmatch
      · exact ⟨p, hp, hid⟩
      · exact ⟨p, hp, hsame p hp hname⟩
    · rintro ⟨⟨p, hp, hid⟩, hfree, hsame⟩
      exact ⟨⟨fun hno => (hno p hp).1 hid, fun hmem => absurd hmem hfree⟩, hsame⟩

theorem undo_unheard_iff {out : Ended CreateError CreateReply} (hout : out.isOk = false) (hsaid : ¬SaysNotUndone out) :
    Settled out (compensate s s.placing.pondId name owner cause u).2 s.placing.pondId ∧ Spares s name owner cause u ↔
      s.CanUndoUnheard u := by
  obtain ⟨hfiles, hrow, hspares⟩ := compensate_undoes s s.placing.pondId name owner cause u
  rw [settled_iff_free hout hsaid]
  unfold Site.Free Spares CreateScript.CanUndoUnheard
  rw [hspares, hrow, hfiles, not_and]
  constructor
  · rintro ⟨⟨hgone, hfree⟩, hsame⟩
    exact ⟨hfree, hsame, hgone⟩
  · rintro ⟨hfree, hsame, hgone⟩
    exact ⟨⟨hgone, hfree⟩, hsame⟩

end

/-- The two parts of `AllOrNothing`, where the handler undoes. -/
theorem allOrNothing_of_undoes {c : CreateCall} {w u : Site} {name owner cause : Text}
    (hr : c.reached w = some (.undoes u name owner cause))
    (hw : (c.run w).2 = (compensate c.script c.script.placing.pondId name owner cause u).2) :
    AllOrNothing c w ↔ Settled (c.run w).1 (compensate c.script c.script.placing.pondId name owner cause u).2
      c.script.placing.pondId ∧ Spares c.script name owner cause u := by
  constructor
  · rintro ⟨hsettled, hspares⟩
    rw [hw] at hsettled hspares
    exact ⟨hsettled, hspares u name owner cause hr⟩
  · rintro ⟨hsettled, hspares⟩
    refine ⟨by rw [hw]; exact hsettled, ?_⟩
    intro u' name' owner' cause' hr'
    rw [hr] at hr'
    cases hr'
    rw [hw]
    exact hspares

/-- The two parts of `AllOrNothing`, where it does not. -/
theorem allOrNothing_of_not_undoes {c : CreateCall} {w : Site}
    (hr : ∀ u name owner cause, c.reached w ≠ some (.undoes u name owner cause)) :
    AllOrNothing c w ↔ Settled (c.run w).1 (c.run w).2 c.pondId :=
  ⟨AllOrNothing.settled, fun h => ⟨h, fun u name owner cause hu => absurd hu (hr u name owner cause)⟩⟩

theorem not_says_unwound : ¬SaysNotUndone .unwound := by
  simp [SaysNotUndone]

theorem not_says_transport : ¬SaysNotUndone (.err .transport) := by
  simp [SaysNotUndone]

theorem settled_ok (a : CreateReply) (w : Site) (pondId : Text) : Settled (.ok a) w pondId := nofun

/-- **A call whose answer is heard**, on the control plane. -/
theorem assignment_iff (s : CreateScript) (req : CreateRequest) (w : Site) :
    AllOrNothing (.assignment s req) w ↔ s.Heard req w := by
  have hrun : (CreateCall.assignment s req).run w =
      (match (createPondAssignment s req w).1 with
        | .ok (pondId, endpoint) => .ok (.assigned pondId endpoint)
        | .err e => .err (.controlPlane e)
        | .unwound => .unwound, (createPondAssignment s req w).2) := by
    simp only [CreateCall.run, Act.bind_apply, Act.mapErr]
    cases (createPondAssignment s req w) with
    | mk out w' => cases out <;> rfl
  have heq := createPondAssignment_eq s req w
  unfold CreateScript.Heard
  cases hr : reach s req w with
  | refused e =>
    rw [hr] at heq
    rw [allOrNothing_of_not_undoes (by simp [CreateCall.reached, hr]), hrun, heq]
    exact settled_iff_free rfl (not_says_refused hr)
  | undoes u name owner cause =>
    rw [hr] at heq
    obtain ⟨compensated, hc, -⟩ := compensate_reports s s.placing.pondId name owner cause u
    have hreached : (CreateCall.assignment s req).reached w = some (.undoes u name owner cause) := congrArg some hr
    rw [allOrNothing_of_undoes hreached (by rw [hrun, heq]; rfl), hrun, heq, hc]
    exact undo_heard_iff hc
  | dropped u =>
    rw [hr] at heq
    rw [allOrNothing_of_not_undoes (by simp [CreateCall.reached, hr]), hrun, heq]
    exact settled_iff_free rfl not_says_unwound
  | assigned u endpoint =>
    rw [hr] at heq
    rw [allOrNothing_of_not_undoes (by simp [CreateCall.reached, hr]), hrun, heq]
    exact iff_true_intro (settled_ok _ _ _)

/-- **A call whose answer is not heard**. -/
theorem unheard_iff {c : CreateCall} {req : CreateRequest} {w : Site} {out : Ended CreateError CreateReply}
    (hr : c.reached w = some (reach c.script req w)) (hrun : c.run w = (out, (createPondAssignment c.script req w).2))
    (hout : out.isOk = false) (hsaid : ¬SaysNotUndone out) : AllOrNothing c w ↔ c.script.Unheard req w := by
  have heq := createPondAssignment_eq c.script req w
  unfold CreateScript.Unheard
  cases hreach : reach c.script req w with
  | undoes u name owner cause =>
    rw [hreach] at heq hr
    rw [allOrNothing_of_undoes hr (by rw [hrun, heq]), hrun]
    exact undo_unheard_iff hout hsaid
  | refused e =>
    rw [hreach] at heq hr
    rw [allOrNothing_of_not_undoes (by simp [hr]), hrun, heq]
    exact settled_iff_free hout hsaid
  | dropped u =>
    rw [hreach] at heq hr
    rw [allOrNothing_of_not_undoes (by simp [hr]), hrun, heq]
    exact settled_iff_free hout hsaid
  | assigned u endpoint =>
    rw [hreach] at heq hr
    rw [allOrNothing_of_not_undoes (by simp [hr]), hrun, heq]
    exact settled_iff_free hout hsaid

/-- **The read-back** loses the pond, unless it is answered. -/
theorem readBack_iff (pondId : Text) (readBack : ReadBack) (w : Site) :
    Settled (readPondBack pondId readBack w).1 (readPondBack pondId readBack w).2 pondId ↔
      readBack = .answered ∧ (w.registry.pondInfo pondId).isSome ∨ w.Free pondId := by
  cases readBack with
  | answered =>
    simp only [readPondBack]
    cases hi : w.registry.pondInfo pondId with
    | some info => simp [settled_ok]
    | none =>
      simp only [Option.isSome_none, Bool.false_eq_true, and_false, false_or]
      exact settled_iff_free rfl (by simp [SaysNotUndone])
  | failed =>
    simp only [reduceCtorEq, false_and, false_or]
    exact settled_iff_free rfl not_says_transport
  | empty =>
    simp only [reduceCtorEq, false_and, false_or]
    exact settled_iff_free rfl (by simp [SaysNotUndone, readPondBack])
  | abandoned =>
    simp only [reduceCtorEq, false_and, false_or]
    exact settled_iff_free rfl not_says_unwound

/-- **A call from a node**, whose answer is relayed. -/
theorem relayed_iff (s : CreateScript) (req : CreateRequest) (beforeReadBack : Site → Site) (readBack : ReadBack)
    (w : Site) :
    AllOrNothing (.fromNode s req .relayed beforeReadBack readBack) w ↔
      s.Heard req w ∧ ∀ u endpoint, reach s req w = .assigned u endpoint →
        readBack = .answered ∧ ((beforeReadBack u).registry.pondInfo s.placing.pondId).isSome ∨
          (beforeReadBack u).Free s.placing.pondId := by
  have heq := createPondAssignment_eq s req w
  unfold CreateScript.Heard
  cases hr : reach s req w with
  | refused e =>
    rw [hr] at heq
    have hrun : (CreateCall.fromNode s req .relayed beforeReadBack readBack).run w = (.err (.controlPlane e), w) := by
      simp [CreateCall.run, heq]
    rw [allOrNothing_of_not_undoes (by simp [CreateCall.reached, hr]), hrun, and_iff_left nofun]
    exact settled_iff_free rfl (not_says_refused hr)
  | undoes u name owner cause =>
    rw [hr] at heq
    obtain ⟨compensated, hc, -⟩ := compensate_reports s s.placing.pondId name owner cause u
    have hrun : (CreateCall.fromNode s req .relayed beforeReadBack readBack).run w =
        (.err (.controlPlane (.allocationNotMaterialized name owner cause compensated)),
          (compensate s s.placing.pondId name owner cause u).2) := by
      cases hcomp : compensate s s.placing.pondId name owner cause u with
      | mk out w' =>
        rw [hcomp] at hc
        cases hc
        simp [CreateCall.run, heq, hcomp]
    have hreached : (CreateCall.fromNode s req .relayed beforeReadBack readBack).reached w =
      some (.undoes u name owner cause) := congrArg some hr
    rw [allOrNothing_of_undoes hreached (by rw [hrun]; rfl), hrun]
    exact (undo_heard_iff hc).trans (and_iff_left nofun).symm
  | dropped u =>
    rw [hr] at heq
    have hrun : (CreateCall.fromNode s req .relayed beforeReadBack readBack).run w = (.err .transport, u) := by
      simp [CreateCall.run, heq]
    rw [allOrNothing_of_not_undoes (by simp [CreateCall.reached, hr]), hrun, and_iff_left nofun]
    exact settled_iff_free rfl not_says_transport
  | assigned u endpoint =>
    rw [hr] at heq
    have hrun : (CreateCall.fromNode s req .relayed beforeReadBack readBack).run w =
        readPondBack s.placing.pondId readBack (beforeReadBack u) := by
      simp [CreateCall.run, heq]
    rw [allOrNothing_of_not_undoes (by simp [CreateCall.reached, hr]), hrun]
    refine (readBack_iff s.placing.pondId readBack (beforeReadBack u)).trans ?_
    simp

/-- **A create is all or nothing** exactly when it is clean. -/
theorem create_all_or_nothing_iff (c : CreateCall) (w : Site) : AllOrNothing c w ↔ c.Clean w := by
  cases c with
  | assignment s req => exact assignment_iff s req w
  | fromNode s req hop beforeReadBack readBack =>
    have hnot : ∀ {out}, (CreateCall.fromNode s req hop beforeReadBack readBack).run w = (out, w) → out.isOk = false →
        ¬SaysNotUndone out → (CreateCall.fromNode s req hop beforeReadBack readBack).reached w = none →
        (AllOrNothing (.fromNode s req hop beforeReadBack readBack) w ↔ w.Free s.placing.pondId) := by
      intro out hrun hout hsaid hr
      rw [allOrNothing_of_not_undoes (by simp [hr]), hrun]
      exact settled_iff_free hout hsaid
    rcases hop with _ | _ | _ | (_ | _)
    · exact hnot rfl rfl not_says_transport rfl
    · exact relayed_iff s req beforeReadBack readBack w
    · exact unheard_iff (c := .fromNode s req .lost beforeReadBack readBack) rfl rfl rfl not_says_transport
    · exact hnot rfl rfl not_says_unwound rfl
    · exact unheard_iff (c := .fromNode s req (.abandoned true) beforeReadBack readBack) rfl rfl rfl not_says_unwound

/-! ### What is left behind -/

/-- A site with a node and no pond. -/
def oneNode : Site := ⟨⟨[⟨"n".toList, "http://n".toList, true⟩], []⟩, []⟩

/-- A request for a pond `p`. -/
def pondP : CreateRequest := ⟨"p".toList, [], []⟩

/-- Its row. -/
def rowP : PondRow := ⟨"1".toList, "p".toList, "n".toList, "medium".toList, []⟩

/-- A script that goes well, with nothing else going on. -/
def goesWell : CreateScript := ⟨⟨0, "1".toList, none⟩, id, some (.answered .made), "timed out".toList, id, none⟩

/-- Another caller, who has seen the id, names a pond by it. -/
def namesake (w : Site) : Site :=
  match w.registry.createPond ⟨0, "2".toList, none⟩ (some "1".toList) [] [] with
  | .ok (_, registry) => { w with registry }
  | .error _ => w

/-- Another caller drops the pond. -/
def dropsP (w : Site) : Site :=
  match w.registry.dropPond "p".toList with
  | .ok registry => { w with registry }
  | .error _ => w

/-- **Left behind**: the row and the files of a request that is dropped while the owner is waited for; the files of a
storage that is half made, or made too late, behind a report that nothing was left; the pond that could not be read
back; a report of a row that is gone; and the deletion of a pond that is named by the id. -/
theorem create_leaves_behind :
    (CreateCall.assignment { goesWell with hop := some (.abandoned (some .made)) } pondP).run oneNode =
      (.unwound, ⟨⟨oneNode.registry.nodes, [rowP]⟩, ["1".toList]⟩) ∧
    (CreateCall.assignment { goesWell with hop := some (.lost .made) } pondP).run oneNode =
      (.err (.controlPlane (.allocationNotMaterialized "p".toList "http://n".toList "timed out".toList true)),
        ⟨oneNode.registry, ["1".toList]⟩) ∧
    (CreateCall.fromNode goesWell pondP .relayed id .failed).run oneNode =
      (.err .transport, ⟨⟨oneNode.registry.nodes, [rowP]⟩, ["1".toList]⟩) ∧
    (CreateCall.assignment { goesWell with hop := some .unreachable, duringHop := dropsP } pondP).run oneNode =
      (.err (.controlPlane (.allocationNotMaterialized "p".toList "http://n".toList "timed out".toList false)), oneNode) ∧
    (namesake oneNode).registry.ponds = [⟨"2".toList, "1".toList, "n".toList, "medium".toList, []⟩] ∧
    (CreateCall.assignment { goesWell with hop := some .unreachable, duringHop := namesake } pondP).run oneNode =
      (.err (.controlPlane (.allocationNotMaterialized "p".toList "http://n".toList "timed out".toList true)), oneNode) ∧
    ¬∀ c w, AllOrNothing c w := by
  refine ⟨by decide +kernel, by decide +kernel, by decide +kernel, by decide +kernel, by decide +kernel,
    by decide +kernel, ?_⟩
  intro h
  have hrow := (h (.fromNode goesWell pondP .relayed id .failed) oneNode).settled
  have hrun : (CreateCall.fromNode goesWell pondP .relayed id .failed).run oneNode =
      (.err .transport, ⟨⟨oneNode.registry.nodes, [rowP]⟩, ["1".toList]⟩) := by
    decide +kernel
  rw [hrun] at hrow
  exact not_says_transport ((hrow rfl).1.1 ⟨rowP, List.mem_singleton.2 rfl, rfl⟩)

end Latiq.ControlPlane
