import Latiq.Library.Unwind

/-!
# Dropping a pond

`drop_pond` sets a tombstone, deletes the registry row, closes the engine instance, lets the
lineage writer go, deletes the files, and clears the tombstone. The future of the
call can be abandoned at each of its awaits, which is an unwinding that passes
no code behind the await.

## The model

* `Held` — what a deployment holds of one pond.
* `DropScript` — how each step that can fail or be abandoned turns out, and `dropPondHere` the
  operation on the owner; `DropCall` adds the nodes that hand the call on.

## What is proved

* `drop_all_or_resumable_iff` — the pond is gone with its files, or as it was, the tombstone does not
  outlive the call, and `Ok` means that the files are gone: exactly when the call is not
  abandoned under its tombstone, an error of the registry means that the row was
  kept (or there were no files), and the files of a deleted row can be deleted.
* `drop_leaves_halves` — calls that are abandoned, and errors that are ignored.
-/

namespace Latiq.AgentCore

open Unwind

/-- The pond's directory. -/
inductive Files where
  | absent
  | whole
  /-- A deletion got half way. -/
  | partly
  deriving DecidableEq, Repr

/-- What the registry and the owner hold of one pond. -/
structure Held where
  registered : Bool
  files : Files
  tombstone : Bool
  /-- In the engine's map. -/
  engineInstance : Bool
  lineageWriter : Bool
  deriving DecidableEq, Repr

/-- The errors of `drop_pond`. -/
inductive DropError where
  | missingArgument
  | pondNotFound
  | pondUnavailable
  | badPondId
  | controlPlane
  | ownerUnreachable
  deriving DecidableEq, Repr

/-- How the await of `control.pond_info` ends. -/
inductive LookupReply where
  | answered
  | failed
  | abandoned
  deriving DecidableEq, Repr

/-- How the await of `control.drop_pond` ends, and whether the row was deleted. -/
inductive ControlReply where
  | dropped
  /-- An error, which can be that of a reply that was lost. -/
  | failed (rowDeleted : Bool)
  | abandoned (rowDeleted : Bool)
  deriving DecidableEq, Repr

/-- Where `route` places the pond, on a node that does not hand the call on. -/
inductive PlacedHere where
  | owner
  | noOwner
  deriving DecidableEq, Repr

/-- How the steps of a call turn out. -/
structure DropScript where
  confirm : Bool
  lookup : LookupReply
  placed : PlacedHere
  idParses : Bool
  control : ControlReply
  /-- Whether the call is abandoned while a lineage writer is flushed. -/
  flushAbandoned : Bool
  /-- What `remove_dir_all` leaves of a directory. -/
  removeLeaves : Files
  deriving DecidableEq, Repr

section

variable (s : DropScript)

/-- `pond_info_audited`. -/
def pondInfoAudited : Act Held DropError Unit := fun w =>
  match s.lookup with
  | .answered => if w.registered then (.ok (), w) else (.err .pondNotFound, w)
  | .failed => (.err .controlPlane, w)
  | .abandoned => (.unwound, w)

/-- `begin_drop`; what it cancels is not held here. -/
def beginDrop : Act Held DropError Unit := .modify fun w => { w with tombstone := true }

/-- `end_drop`. -/
def endDrop : Act Held DropError Unit := .modify fun w => { w with tombstone := false }

/-- `control.drop_pond`. -/
def controlDropPond : Act Held DropError Unit := fun w =>
  match s.control with
  | .dropped => (.ok (), { w with registered := false })
  | .failed rowDeleted => (.err .controlPlane, { w with registered := w.registered && !rowDeleted })
  | .abandoned rowDeleted => (.unwound, { w with registered := w.registered && !rowDeleted })

/-- `forget_pond`, if the storage has a location of the pond. -/
def forgetPond : Act Held DropError Unit := .modify fun w =>
  if w.files = .absent then w else { w with engineInstance := false }

/-- `evict_lineage_writer`: there is something to await if there is a writer. -/
def evictLineageWriter : Act Held DropError Unit := fun w =>
  if w.lineageWriter then
    (if s.flushAbandoned then .unwound else .ok (), { w with lineageWriter := false })
  else (.ok (), w)

/-- `let _ = storage.drop_pond(..)`, whose error is dropped: `NotFound` without a directory. -/
def storageDropPond : Act Held DropError Unit := .modify fun w =>
  if w.files = .absent then w else { w with files := s.removeLeaves }

/-- `drop_pond` behind the parsing of the id. -/
def dropPondLocal : Act Held DropError Unit := do
  beginDrop
  match ← (Act.attempt (controlDropPond s) : Act Held DropError (Except DropError Unit)) with
  | .error e => do
    endDrop
    Act.fail e
  | .ok () => do
    forgetPond
    evictLineageWriter s
    storageDropPond s
    evictLineageWriter s
    endDrop

/-- `drop_pond`, on a node that does not hand the call on. -/
def dropPondHere : Act Held DropError Unit :=
  if s.confirm then do
    pondInfoAudited s
    match s.placed with
    | .noOwner => Act.fail .pondUnavailable
    | .owner => if s.idParses then dropPondLocal s else Act.fail .badPondId
  else Act.fail .missingArgument

end

/-- How the await of a forwarded call ends. -/
inductive Hop where
  /-- The request did not reach the peer. -/
  | undelivered
  | relayed
  /-- The peer took the call, and its answer did not come. -/
  | lost
  /-- The call is abandoned here, and by that at the peer, or not before the peer has taken it. -/
  | abandoned (taken : Bool)
  deriving DecidableEq, Repr

/-- A call of `drop_pond`, on the owner or handed on to a peer. -/
inductive DropCall where
  | here (s : DropScript)
  | forwarded (confirm : Bool) (lookup : LookupReply) (hop : Hop) (peer : DropCall)

/-- `drop_pond`. -/
def dropPond : DropCall → Act Held DropError Unit
  | .here s => dropPondHere s
  | .forwarded confirm lookup hop peer => fun w =>
    if confirm then
      match lookup with
      | .failed => (.err .controlPlane, w)
      | .abandoned => (.unwound, w)
      | .answered =>
        if w.registered then
          match hop with
          | .undelivered => (.err .ownerUnreachable, w)
          | .relayed => dropPond peer w
          | .lost => (.err .ownerUnreachable, (dropPond peer w).2)
          | .abandoned taken => (.unwound, if taken then (dropPond peer w).2 else w)
        else (.err .pondNotFound, w)
    else (.err .missingArgument, w)

/-! ### What a call leaves -/

/-- The call gets as far as its tombstone. -/
def DropScript.Tries (s : DropScript) (w : Held) : Prop :=
  s.confirm = true ∧ s.lookup = .answered ∧ w.registered = true ∧ s.placed = .owner ∧ s.idParses = true

/-- The script of the owner, if the call is taken there. -/
def DropCall.taken (w : Held) : DropCall → Option DropScript
  | .here s => some s
  | .forwarded true .answered .relayed peer => if w.registered then peer.taken w else none
  | .forwarded true .answered .lost peer => if w.registered then peer.taken w else none
  | .forwarded true .answered (.abandoned true) peer => if w.registered then peer.taken w else none
  | .forwarded .. => none

/-- **All or resumable**, of a call in a state. -/
structure AllOrResumable (c : DropCall) (w : Held) : Prop where
  /-- The row and the files are gone, or all is as it was. -/
  settled : ((dropPond c w).2.registered = false ∧ (dropPond c w).2.files = .absent) ∨
    ((dropPond c w).2.registered = w.registered ∧ (dropPond c w).2.files = w.files ∧
      ((dropPond c w).2.tombstone = true → w.tombstone = true))
  /-- The call's tombstone does not outlive it. -/
  cleared : ∀ s, c.taken w = some s → s.Tries w → (dropPond c w).2.tombstone = false
  deleted : (dropPond c w).1 = .ok () → (dropPond c w).2.files = .absent

/-- The steps behind the tombstone turn out well: the call is not abandoned, an error of the registry means that
the row was kept, or that there are no files, and a directory can be deleted. -/
def DropScript.Smooth (s : DropScript) (w : Held) : Prop :=
  match s.control with
  | .dropped => (w.files = .absent ∨ s.removeLeaves = .absent) ∧ (w.lineageWriter = true → s.flushAbandoned = false)
  | .failed rowDeleted => rowDeleted = true → w.files = .absent
  | .abandoned _ => False

/-- **A call that does not get to its tombstone** changes nothing. -/
theorem dropPondHere_of_not_tries {s : DropScript} {w : Held} (h : ¬s.Tries w) :
    (dropPondHere s w).2 = w ∧ (dropPondHere s w).1 ≠ .ok () := by
  unfold DropScript.Tries at h
  unfold dropPondHere
  cases hc : s.confirm with
  | false => simp
  | true =>
    simp only [if_true, Act.bind_apply, pondInfoAudited]
    cases hl : s.lookup with
    | failed => simp
    | abandoned => simp
    | answered =>
      by_cases hr : w.registered = true
      · simp only [hr, if_true]
        cases hp : s.placed with
        | noOwner => simp
        | owner =>
          cases hi : s.idParses with
          | false => simp
          | true => exact absurd ⟨hc, hl, hr, hp, hi⟩ h
      · simp [hr]

theorem dropPondHere_of_tries {s : DropScript} {w : Held} (h : s.Tries w) :
    dropPondHere s w = dropPondLocal s w := by
  obtain ⟨hc, hl, hr, hp, hi⟩ := h
  simp [dropPondHere, hc, Act.bind_apply, pondInfoAudited, hl, hr, hp, hi]

theorem dropPondLocal_of_failed {s : DropScript} {w : Held} {d : Bool} (h : s.control = .failed d) :
    dropPondLocal s w =
      (.err .controlPlane, { w with registered := w.registered && !d, tombstone := false }) := by
  simp [dropPondLocal, beginDrop, endDrop, Act.bind_apply, Act.attempt, controlDropPond, h]

theorem dropPondLocal_of_abandoned {s : DropScript} {w : Held} {d : Bool} (h : s.control = .abandoned d) :
    dropPondLocal s w = (.unwound, { w with registered := w.registered && !d, tombstone := true }) := by
  simp [dropPondLocal, beginDrop, Act.bind_apply, Act.attempt, controlDropPond, h]

/-- **Once the row is deleted**, the call is abandoned while it flushes a writer, or is done with what is left of
the files. -/
theorem dropPondLocal_of_dropped {s : DropScript} {w : Held} (h : s.control = .dropped) :
    if w.lineageWriter = true ∧ s.flushAbandoned = true then
      (dropPondLocal s w).1 = .unwound ∧ (dropPondLocal s w).2.tombstone = true
    else (dropPondLocal s w).1 = .ok () ∧ (dropPondLocal s w).2.tombstone = false ∧
      (dropPondLocal s w).2.registered = false ∧
      (dropPondLocal s w).2.files = if w.files = .absent then .absent else s.removeLeaves := by
  have hrun : dropPondLocal s w = (do forgetPond; evictLineageWriter s; storageDropPond s; evictLineageWriter s; endDrop)
      { w with registered := false, tombstone := true } := by
    simp [dropPondLocal, beginDrop, Act.bind_apply, Act.attempt, controlDropPond, h]
  rw [hrun]
  by_cases hf : w.files = .absent <;> cases w.lineageWriter <;> cases ha : s.flushAbandoned <;>
    simp [Act.bind_apply, forgetPond, evictLineageWriter, storageDropPond, endDrop, hf, ha]

/-- **A call that is handed on** changes what the owner's call does, and returns `Ok` only where it did. -/
theorem dropPond_eq (c : DropCall) (w : Held) :
    (∀ s, c.taken w = some s → (dropPond c w).2 = (dropPondHere s w).2) ∧ (c.taken w = none → (dropPond c w).2 = w) ∧
    ((dropPond c w).1 = .ok () → ∃ s, c.taken w = some s ∧ (dropPondHere s w).1 = .ok ()) := by
  induction c with
  | here s =>
    refine ⟨?_, nofun, fun h => ⟨s, rfl, h⟩⟩
    intro s' hs
    cases hs
    rfl
  | forwarded confirm lookup hop peer ih =>
    cases confirm with
    | false => simp [dropPond, DropCall.taken]
    | true =>
      cases lookup with
      | failed => simp [dropPond, DropCall.taken]
      | abandoned => simp [dropPond, DropCall.taken]
      | answered =>
        cases hr : w.registered with
        | false => rcases hop with _ | _ | _ | (_ | _) <;> simp [dropPond, DropCall.taken, hr]
        | true =>
          rcases hop with _ | _ | _ | (_ | _)
          · simp [dropPond, DropCall.taken, hr]
          · simpa [dropPond, DropCall.taken, hr] using ih
          · simpa [dropPond, DropCall.taken, hr] using ⟨ih.1, ih.2.1⟩
          · simp [dropPond, DropCall.taken, hr]
          · simpa [dropPond, DropCall.taken, hr] using ⟨ih.1, ih.2.1⟩

/-- The owner's call, from the tombstone on, leaves the pond settled and the tombstone cleared exactly when its steps
turn out well. -/
theorem dropPondLocal_settles_iff {s : DropScript} {w : Held} (hreg : w.registered = true) :
    (((dropPondLocal s w).2.registered = false ∧ (dropPondLocal s w).2.files = .absent) ∨
        ((dropPondLocal s w).2.registered = w.registered ∧ (dropPondLocal s w).2.files = w.files)) ∧
      (dropPondLocal s w).2.tombstone = false ↔ s.Smooth w := by
  unfold DropScript.Smooth
  cases hc : s.control with
  | failed d =>
    rw [dropPondLocal_of_failed hc]
    cases d <;> simp [hreg]
  | abandoned d =>
    rw [dropPondLocal_of_abandoned hc]
    simp
  | dropped =>
    have hd := dropPondLocal_of_dropped (s := s) (w := w) hc
    by_cases hf : w.lineageWriter = true ∧ s.flushAbandoned = true
    · rw [if_pos hf] at hd
      simp [hd.2, hf.1, hf.2]
    · rw [if_neg hf] at hd
      obtain ⟨-, htomb, hrow, hfiles⟩ := hd
      rw [htomb, hrow, hfiles, hreg]
      have hflush : w.lineageWriter = true → s.flushAbandoned = false := by
        intro hw
        cases ha : s.flushAbandoned with
        | false => rfl
        | true => exact absurd ⟨hw, ha⟩ hf
      by_cases habs : w.files = .absent
      · simpa [habs] using hflush
      · simp only [habs, if_false, true_and, false_or, Bool.false_eq_true, false_and, or_false, and_true]
        exact ⟨fun h => ⟨h, hflush⟩, And.left⟩

theorem dropPondLocal_ok {s : DropScript} {w : Held} (h : (dropPondLocal s w).1 = .ok ()) : s.control = .dropped := by
  cases hc : s.control with
  | dropped => rfl
  | failed d =>
    rw [dropPondLocal_of_failed hc] at h
    cases h
  | abandoned d =>
    rw [dropPondLocal_of_abandoned hc] at h
    cases h

/-- **A drop is all or resumable**, exactly when the steps behind its tombstone, if it gets there, turn out well. -/
theorem drop_all_or_resumable_iff (c : DropCall) (w : Held) :
    AllOrResumable c w ↔ ∀ s, c.taken w = some s → s.Tries w → s.Smooth w := by
  obtain ⟨hstate, hnone, hok⟩ := dropPond_eq c w
  constructor
  · rintro ⟨hsettled, hcleared, -⟩ s hs htries
    have htomb := hcleared s hs htries
    rw [hstate s hs, dropPondHere_of_tries htries] at hsettled htomb
    rw [← dropPondLocal_settles_iff htries.2.2.1]
    refine ⟨hsettled.imp_right ?_, htomb⟩
    rintro ⟨hrow, hfiles, -⟩
    exact ⟨hrow, hfiles⟩
  · intro h
    by_cases htaken : ∃ s, c.taken w = some s ∧ s.Tries w
    · obtain ⟨s, hs, htries⟩ := htaken
      have hsmooth := h s hs htries
      obtain ⟨hsettled, htomb⟩ := (dropPondLocal_settles_iff htries.2.2.1).2 hsmooth
      have hst := hstate s hs
      rw [dropPondHere_of_tries htries] at hst
      rw [← hst] at hsettled htomb
      refine ⟨hsettled.imp_right ?_, fun _ _ _ => htomb, ?_⟩
      · rintro ⟨hrow, hfiles⟩
        refine ⟨hrow, hfiles, fun ht => ?_⟩
        rw [htomb] at ht
        cases ht
      · intro hret
        obtain ⟨s', hs', hret⟩ := hok hret
        rw [hs] at hs'
        cases hs'
        rw [dropPondHere_of_tries htries] at hret
        have hctl := dropPondLocal_ok hret
        have hd := dropPondLocal_of_dropped (s := s) (w := w) hctl
        by_cases hf : w.lineageWriter = true ∧ s.flushAbandoned = true
        · rw [if_pos hf, hret] at hd
          cases hd.1
        · rw [if_neg hf] at hd
          rw [hst]
          rcases hsettled with ⟨-, hfiles⟩ | ⟨hrow, -⟩
          · rw [← hst]
            exact hfiles
          · rw [hst, hd.2.2.1, htries.2.2.1] at hrow
            cases hrow
    · -- nothing is tried: the state is as it was
      have hsame : (dropPond c w).2 = w ∧ (dropPond c w).1 ≠ .ok () := by
        cases hs : c.taken w with
        | none =>
          refine ⟨hnone hs, fun hret => ?_⟩
          obtain ⟨s', hs', -⟩ := hok hret
          rw [hs] at hs'
          cases hs'
        | some s =>
          have hno : ¬s.Tries w := fun htries => htaken ⟨s, hs, htries⟩
          have hhere := dropPondHere_of_not_tries hno
          refine ⟨(hstate s hs).trans hhere.1, fun hret => ?_⟩
          obtain ⟨s', hs', hret⟩ := hok hret
          rw [hs] at hs'
          cases hs'
          exact hhere.2 hret
      refine ⟨.inr ?_, fun s hs htries => absurd ⟨s, hs, htries⟩ htaken, fun hret => absurd hret hsame.2⟩
      rw [hsame.1]
      exact ⟨rfl, rfl, id⟩

/-- A pond that is registered, and has been written to with lineage. -/
def usedPond : Held := ⟨true, .whole, false, true, true⟩

/-- A call that all goes well for. -/
def smoothScript : DropScript := ⟨true, .answered, .owner, true, .dropped, false, .absent⟩

/-- **Halves**: a call abandoned while the registry deletes the row, one abandoned while the writer is flushed, an
error of the registry behind the deletion of the row, and `Ok` over a directory that could not be deleted. -/
theorem drop_leaves_halves :
    dropPond (.here { smoothScript with control := .abandoned false }) usedPond =
      (.unwound, { usedPond with tombstone := true }) ∧
    dropPond (.here { smoothScript with flushAbandoned := true }) usedPond = (.unwound, ⟨false, .whole, true, false, false⟩) ∧
    dropPond (.here { smoothScript with control := .failed true }) usedPond =
      (.err .controlPlane, { usedPond with registered := false }) ∧
    dropPond (.here { smoothScript with removeLeaves := .partly }) usedPond = (.ok (), ⟨false, .partly, false, false, false⟩) ∧
    ¬∀ c w, AllOrResumable c w := by
  refine ⟨rfl, rfl, rfl, rfl, ?_⟩
  intro h
  have hfiles := (h (.here { smoothScript with removeLeaves := .partly }) usedPond).deleted rfl
  cases hfiles

end Latiq.AgentCore
