import Latiq.AgentCore.DropPond
import Latiq.Library.Runs
import Mathlib.Logic.Function.Basic

/-!
# Operations around a drop

An operation resolves its pond, makes the pond's directory if there is none, registers, looks
the engine's instance up, runs, and emits lineage; nothing but the registration looks at the
tombstone, and a token that is cancelled by it stops none of the steps before the
statement. `drop_pond` does not wait for the operations that it cancels.

## The model

* `OpStage`, `DropProgress` — how far an operation and the drop are.
* `Race` — what is held of the pond (`Held`), with the operations and the drop; `Race.step` is one step
  of one of them.

## What is proved

* `leaves_nothing` — a drop that returned `Ok` leaves no directory, no instance and no lineage
  writer behind the operations, in every run whose steps make none behind the step of the drop
  that removes it; and each step that does can be followed by steps that do not and end
  with something left.
* `late_query` — a query that resolved its pond before the drop.
-/

namespace Latiq.AgentCore

/-- How far an operation is. -/
inductive OpStage where
  /-- It has the pond's registry record. -/
  | resolved
  /-- Behind `ensure_pond`. -/
  | ensured
  /-- Registered, with its token. -/
  | registered (cancelled : Bool)
  /-- With the engine's instance. -/
  | opened (cancelled : Bool)
  /-- The engine call is over, and lineage is still to be emitted. -/
  | finishing
  /-- With a location, and a lineage writer for it that is not in the map. -/
  | located
  | ended
  deriving DecidableEq, Repr

/-- Cancelling an operation's token. -/
def OpStage.cancel : OpStage → OpStage
  | .registered _ => .registered true
  | .opened _ => .opened true
  | st => st

/-- How far the drop is. -/
inductive DropProgress where
  | idle
  | tombstoned
  | rowDeleted
  /-- Behind `forget_pond`. -/
  | forgotten
  /-- Behind the first `evict_lineage_writer`. -/
  | evicted
  /-- Behind `storage.drop_pond`. -/
  | removed
  /-- Behind the second `evict_lineage_writer`. -/
  | evictedAgain
  | returnedOk
  deriving DecidableEq, Repr

namespace DropProgress

/-- Behind `forget_pond`. -/
def pastForget : DropProgress → Bool
  | .forgotten | .evicted | .removed | .evictedAgain | .returnedOk => true
  | _ => false

/-- Behind `storage.drop_pond`. -/
def pastRemoval : DropProgress → Bool
  | .removed | .evictedAgain | .returnedOk => true
  | _ => false

/-- Behind the last `evict_lineage_writer`. -/
def pastEviction : DropProgress → Bool
  | .evictedAgain | .returnedOk => true
  | _ => false

end DropProgress

/-- How `DuckEngine::pond` ends. -/
inductive Lookup where
  | cached
  | opens
  /-- An instance with other limits is taken out of the map before it is opened anew. -/
  | fails (takenOut : Bool)
  deriving DecidableEq, Repr

/-- The pond, the operations on it, and its drop. -/
structure Race where
  held : Held
  ops : ℕ → OpStage
  nextOp : ℕ
  drop : DropProgress

namespace Race

inductive Label where
  | resolve
  /-- `ensure_pond`; it may fail behind the directory, and sees one that is then removed. -/
  | ensurePond (c : ℕ) (creates ok : Bool)
  | register (c : ℕ)
  | lookup (c : ℕ) (found : Lookup)
  /-- The statement writes into the directory. -/
  | writeFiles (c : ℕ)
  | finish (c : ℕ)
  /-- `lineage_writer` finds a writer, or a location to make one for, or neither. -/
  | locate (c : ℕ)
  | insertWriter (c : ℕ)
  /-- It fails, or is through. -/
  | endOp (c : ℕ)
  | beginDrop
  | controlDrop
  /-- An error of the registry; the drop returns it. -/
  | controlFails (rowDeleted : Bool)
  | forget
  | evict
  | remove (leaves : Files)
  | evictAgain
  | endDrop
  deriving DecidableEq, Repr

def start (held : Held) : Race := ⟨held, fun _ => .ended, 0, .idle⟩

def setOp (s : Race) (c : ℕ) (st : OpStage) : Race := { s with ops := Function.update s.ops c st }

/-- The state with a change of what is held. -/
def holding (s : Race) (f : Held → Held) : Race := { s with held := f s.held }

/-- The drop goes on. -/
def advance (s : Race) (drop : DropProgress) : Race := { s with drop }

/-- The end of an engine lookup. -/
def looked (s : Race) (c : ℕ) (cancelled : Bool) : Lookup → Option Race
  | .cached => if s.held.engineInstance then some (s.setOp c (.opened cancelled)) else none
  | .opens => some ((s.setOp c (.opened cancelled)).holding fun w => { w with engineInstance := true })
  | .fails takenOut =>
    some ((s.setOp c .finishing).holding fun w => { w with engineInstance := w.engineInstance && !takenOut })

/-- One step; `none` where its operation, or the drop, is not at it. -/
def step (s : Race) : Label → Option Race
  | .resolve =>
    if s.held.registered then
      some { s with ops := Function.update s.ops s.nextOp .resolved, nextOp := s.nextOp + 1 }
    else none
  | .ensurePond c creates ok =>
    match s.ops c with
    | .resolved =>
      some ((s.setOp c (if ok then .ensured else .finishing)).holding fun w =>
        if w.files = .absent ∧ creates = true then { w with files := .whole } else w)
    | _ => none
  | .register c =>
    match s.ops c with
    | .ensured => some (s.setOp c (.registered s.held.tombstone))
    | _ => none
  | .lookup c found =>
    match s.ops c with
    -- describe, explain and the catalog operations do not register
    | .ensured => s.looked c false found
    | .registered cancelled | .opened cancelled => s.looked c cancelled found
    | _ => none
  | .writeFiles c =>
    match s.ops c with
    | .opened _ => some (s.holding fun w => if w.files = .absent then { w with files := .partly } else w)
    | _ => none
  | .finish c =>
    match s.ops c with
    -- a refused text does not look the instance up
    | .ensured | .registered _ | .opened _ => some (s.setOp c .finishing)
    | _ => none
  | .locate c =>
    match s.ops c with
    | .finishing =>
      some (s.setOp c (if s.held.lineageWriter then .ended else if s.held.files = .absent then .ended else .located))
    | _ => none
  | .insertWriter c =>
    match s.ops c with
    | .located => some ((s.setOp c .ended).holding fun w => { w with lineageWriter := true })
    | _ => none
  | .endOp c => some (s.setOp c .ended)
  | .beginDrop =>
    match s.drop with
    | .idle =>
      if s.held.registered then
        some ((({ s with ops := fun c => (s.ops c).cancel }).holding fun w => { w with tombstone := true }).advance .tombstoned)
      else none
    | _ => none
  | .controlDrop =>
    match s.drop with
    | .tombstoned => some ((s.holding fun w => { w with registered := false }).advance .rowDeleted)
    | _ => none
  | .controlFails rowDeleted =>
    match s.drop with
    | .tombstoned =>
      some ((s.holding fun w => { w with registered := w.registered && !rowDeleted, tombstone := false }).advance .idle)
    | _ => none
  | .forget =>
    match s.drop with
    | .rowDeleted =>
      some ((s.holding fun w => if w.files = .absent then w else { w with engineInstance := false }).advance .forgotten)
    | _ => none
  | .evict =>
    match s.drop with
    | .forgotten => some ((s.holding fun w => { w with lineageWriter := false }).advance .evicted)
    | _ => none
  | .remove leaves =>
    match s.drop with
    | .evicted =>
      some ((s.holding fun w => if w.files = .absent then w else { w with files := leaves }).advance .removed)
    | _ => none
  | .evictAgain =>
    match s.drop with
    | .removed => some ((s.holding fun w => { w with lineageWriter := false }).advance .evictedAgain)
    | _ => none
  | .endDrop =>
    match s.drop with
    | .evictedAgain => some ((s.holding fun w => { w with tombstone := false }).advance .returnedOk)
    | _ => none

/-- **Nothing is left** of a pond whose drop returned `Ok`, when the operations on it have ended. -/
def NothingLeft (s : Race) : Prop :=
  s.drop = .returnedOk → (∀ c, s.ops c = .ended) →
    s.held.files = .absent ∧ s.held.engineInstance = false ∧ s.held.lineageWriter = false

/-- The step makes nothing behind the step of the drop that removes it, and the removing step removes it. -/
def Guarded (s : Race) : Label → Prop
  | .ensurePond _ creates _ => s.held.files = .absent → creates = true → s.drop.pastRemoval = false
  | .writeFiles _ => s.held.files = .absent → s.drop.pastRemoval = false
  | .lookup _ found => found = .opens → s.drop.pastForget = false
  | .insertWriter _ => s.drop.pastEviction = false
  | .forget => s.held.engineInstance = true → s.held.files ≠ .absent
  | .remove leaves => s.held.files ≠ .absent → leaves = .absent
  | _ => True

/-! ### Careful runs -/

/-- What guarded steps keep: what the drop has removed stays removed. -/
structure Clean (s : Race) : Prop where
  engineInstance : s.drop.pastForget = true → s.held.engineInstance = false
  files : s.drop.pastRemoval = true → s.held.files = .absent
  lineageWriter : s.drop.pastEviction = true → s.held.lineageWriter = false

theorem Clean.nothingLeft {s : Race} (h : s.Clean) : s.NothingLeft := by
  intro hdrop _
  exact ⟨h.files (by rw [hdrop]; rfl), h.engineInstance (by rw [hdrop]; rfl), h.lineageWriter (by rw [hdrop]; rfl)⟩

theorem clean_start (held : Held) : (start held).Clean := ⟨nofun, nofun, nofun⟩

/-- The end of an engine lookup changes the instance at most. -/
theorem looked_cases {s s' : Race} {c : ℕ} {cancelled : Bool} {found : Lookup} (h : s.looked c cancelled found = some s') :
    ∃ st i, s' = (s.setOp c st).holding (fun w => { w with engineInstance := i }) ∧
      (i = true → s.held.engineInstance = true ∨ found = .opens) ∧ (found = .opens → i = true) := by
  cases found with
  | cached =>
    simp only [looked] at h
    split at h
    · rename_i hi
      cases h
      exact ⟨.opened cancelled, s.held.engineInstance, rfl, fun _ => .inl hi, nofun⟩
    · cases h
  | opens =>
    cases h
    exact ⟨.opened cancelled, true, rfl, fun _ => .inr rfl, fun _ => rfl⟩
  | fails takenOut =>
    cases h
    refine ⟨.finishing, s.held.engineInstance && !takenOut, rfl, ?_, nofun⟩
    intro hi
    rw [Bool.and_eq_true] at hi
    exact .inl hi.1

/-- **One step** of an operation on the engine. -/
theorem lookup_cases {s s' : Race} {c : ℕ} {found : Lookup} (h : s.step (.lookup c found) = some s') :
    s.ops c ≠ .ended ∧ ∃ st i, s' = (s.setOp c st).holding (fun w => { w with engineInstance := i }) ∧
      (i = true → s.held.engineInstance = true ∨ found = .opens) ∧ (found = .opens → i = true) := by
  simp only [step] at h
  split at h
  · rename_i hc
    exact ⟨by simp [hc], looked_cases h⟩
  · rename_i hc
    exact ⟨by simp [hc], looked_cases h⟩
  · rename_i hc
    exact ⟨by simp [hc], looked_cases h⟩
  · cases h

/-- **One step** keeps what is removed removed, if it is guarded. -/
theorem step_clean {s s' : Race} {l : Label} (h : s.Clean) (hl : s.Guarded l) (hs : s.step l = some s') : s'.Clean := by
  cases l with
  | resolve =>
    simp only [step] at hs
    split at hs
    · cases hs
      exact ⟨h.engineInstance, h.files, h.lineageWriter⟩
    · cases hs
  | ensurePond c creates ok =>
    simp only [step] at hs
    split at hs
    · cases hs
      by_cases hmade : s.held.files = .absent ∧ creates = true
      · have hpast := hl hmade.1 hmade.2
        refine ⟨?_, ?_, ?_⟩
        · simpa [setOp, holding, hmade] using h.engineInstance
        · intro hp
          have hp' : s.drop.pastRemoval = true := hp
          rw [hpast] at hp'
          cases hp'
        · simpa [setOp, holding, hmade] using h.lineageWriter
      · have hsame : ((s.setOp c (if ok then .ensured else .finishing)).holding fun w =>
            if w.files = .absent ∧ creates = true then { w with files := .whole } else w) =
              s.setOp c (if ok then .ensured else .finishing) := by
          simp [setOp, holding, hmade]
        rw [hsame]
        exact ⟨h.engineInstance, h.files, h.lineageWriter⟩
    · cases hs
  | register c =>
    simp only [step] at hs
    split at hs
    · cases hs
      exact ⟨h.engineInstance, h.files, h.lineageWriter⟩
    · cases hs
  | lookup c found =>
    obtain ⟨-, st, i, rfl, hi, -⟩ := lookup_cases hs
    refine ⟨?_, h.files, h.lineageWriter⟩
    intro hp
    have hp' : s.drop.pastForget = true := hp
    show i = false
    rw [Bool.eq_false_iff]
    intro hit
    rcases hi hit with hinst | hopens
    · rw [h.engineInstance hp'] at hinst
      cases hinst
    · rw [hl hopens] at hp'
      cases hp'
  | writeFiles c =>
    simp only [step] at hs
    split at hs
    · cases hs
      by_cases habs : s.held.files = .absent
      · have hpast := hl habs
        refine ⟨?_, ?_, ?_⟩
        · simpa [holding, habs] using h.engineInstance
        · intro hp
          have hp' : s.drop.pastRemoval = true := hp
          rw [hpast] at hp'
          cases hp'
        · simpa [holding, habs] using h.lineageWriter
      · simpa [holding, habs] using h
    · cases hs
  | finish c =>
    simp only [step] at hs
    split at hs
    any_goals
      cases hs
      exact ⟨h.engineInstance, h.files, h.lineageWriter⟩
    cases hs
  | locate c =>
    simp only [step] at hs
    split at hs
    · cases hs
      exact ⟨h.engineInstance, h.files, h.lineageWriter⟩
    · cases hs
  | insertWriter c =>
    simp only [step] at hs
    split at hs
    · cases hs
      refine ⟨h.engineInstance, h.files, ?_⟩
      intro hp
      have hp' : s.drop.pastEviction = true := hp
      have hpast : s.drop.pastEviction = false := hl
      rw [hpast] at hp'
      cases hp'
    · cases hs
  | endOp c =>
    cases hs
    exact ⟨h.engineInstance, h.files, h.lineageWriter⟩
  | beginDrop =>
    simp only [step] at hs
    split at hs
    · split at hs
      · cases hs
        exact ⟨nofun, nofun, nofun⟩
      · cases hs
    · cases hs
  | controlDrop =>
    simp only [step] at hs
    split at hs
    · cases hs
      exact ⟨nofun, nofun, nofun⟩
    · cases hs
  | controlFails rowDeleted =>
    simp only [step] at hs
    split at hs
    · cases hs
      exact ⟨nofun, nofun, nofun⟩
    · cases hs
  | forget =>
    simp only [step] at hs
    split at hs
    · cases hs
      refine ⟨?_, nofun, nofun⟩
      intro _
      by_cases habs : s.held.files = .absent
      · have hinst : ¬s.held.engineInstance = true := fun hi => hl hi habs
        simpa [holding, advance, habs] using hinst
      · simp [holding, advance, habs]
    · cases hs
  | evict =>
    simp only [step] at hs
    split at hs
    · rename_i hd
      cases hs
      exact ⟨fun _ => h.engineInstance (by rw [hd]; rfl), nofun, nofun⟩
    · cases hs
  | remove leaves =>
    simp only [step] at hs
    split at hs
    · rename_i hd
      cases hs
      refine ⟨?_, ?_, nofun⟩
      · intro _
        have hinst := h.engineInstance (by rw [hd]; rfl)
        by_cases habs : s.held.files = .absent <;> simpa [holding, advance, habs] using hinst
      · intro _
        by_cases habs : s.held.files = .absent
        · simp [holding, advance, habs]
        · simpa [holding, advance, habs] using hl habs
    · cases hs
  | evictAgain =>
    simp only [step] at hs
    split at hs
    · rename_i hd
      cases hs
      exact ⟨fun _ => h.engineInstance (by rw [hd]; rfl), fun _ => h.files (by rw [hd]; rfl), fun _ => rfl⟩
    · cases hs
  | endDrop =>
    simp only [step] at hs
    split at hs
    · rename_i hd
      cases hs
      exact ⟨fun _ => h.engineInstance (by rw [hd]; rfl), fun _ => h.files (by rw [hd]; rfl),
        fun _ => h.lineageWriter (by rw [hd]; rfl)⟩
    · cases hs

/-! ### Careless steps -/

/-- Operations are numbered as they start. -/
def Numbered (s : Race) : Prop := ∀ c, s.nextOp ≤ c → s.ops c = .ended

theorem numbered_start (held : Held) : (start held).Numbered := fun _ _ => rfl

/-- A stage of an operation that has started. -/
theorem Numbered.setOp {s : Race} (h : s.Numbered) {c : ℕ} {st : OpStage} (hc : s.ops c ≠ .ended ∨ st = .ended) (c' : ℕ)
    (hc' : s.nextOp ≤ c') : Function.update s.ops c st c' = .ended := by
  by_cases hcc : c' = c
  · subst hcc
    rw [Function.update_self]
    exact hc.elim (fun hne => absurd (h c' hc') hne) id
  · rw [Function.update_of_ne hcc]
    exact h c' hc'

theorem step_numbered {s s' : Race} {l : Label} (h : s.Numbered) (hs : s.step l = some s') : s'.Numbered := by
  cases l with
  | resolve =>
    simp only [step] at hs
    split at hs
    · cases hs
      intro c hc
      have hc' : s.nextOp + 1 ≤ c := hc
      show Function.update s.ops s.nextOp _ c = .ended
      rw [Function.update_of_ne (by omega)]
      exact h c (by omega)
    · cases hs
  | ensurePond c creates ok =>
    simp only [step] at hs
    split at hs
    · rename_i hc
      cases hs
      exact h.setOp (.inl (by simp [hc]))
    · cases hs
  | register c =>
    simp only [step] at hs
    split at hs
    · rename_i hc
      cases hs
      exact h.setOp (.inl (by simp [hc]))
    · cases hs
  | lookup c found =>
    obtain ⟨hc, st, i, rfl, -, -⟩ := lookup_cases hs
    exact h.setOp (.inl hc)
  | finish c =>
    simp only [step] at hs
    split at hs
    any_goals
      rename_i hc
      cases hs
      exact h.setOp (.inl (by simp [hc]))
    cases hs
  | locate c =>
    simp only [step] at hs
    split at hs
    · rename_i hc
      cases hs
      exact h.setOp (.inl (by simp [hc]))
    · cases hs
  | insertWriter c =>
    simp only [step] at hs
    split at hs
    · cases hs
      exact h.setOp (.inr rfl)
    · cases hs
  | endOp c =>
    cases hs
    exact h.setOp (.inr rfl)
  | beginDrop =>
    simp only [step] at hs
    split at hs
    · split at hs
      · cases hs
        intro c hc
        show (s.ops c).cancel = .ended
        rw [h c hc]
        rfl
      · cases hs
    · cases hs
  | _ =>
    simp only [step] at hs
    split at hs
    any_goals
      cases hs
      exact h
    cases hs

/-- The steps that a drop still has, when each of them goes well. -/
def finishDrop : DropProgress → List Label
  | .forgotten => [.evict, .remove .absent, .evictAgain, .endDrop]
  | .evicted => [.remove .absent, .evictAgain, .endDrop]
  | .removed => [.evictAgain, .endDrop]
  | .evictedAgain => [.endDrop]
  | _ => []

theorem finishDrop_guarded (d : DropProgress) : ∀ l ∈ finishDrop d, ∀ t, Guarded t l := by
  cases d <;> simp [finishDrop, Guarded]

/-- The drop has returned, over the same operations and the same instance. -/
structure Returned (s u : Race) : Prop where
  drop : u.drop = .returnedOk
  ops : u.ops = s.ops
  nextOp : u.nextOp = s.nextOp
  engineInstance : u.held.engineInstance = s.held.engineInstance

theorem run_endDrop {s : Race} (hd : s.drop = .evictedAgain) :
    ∃ u, Runs.run step s [.endDrop] = some u ∧ Returned s u ∧ u.held.files = s.held.files ∧
      u.held.lineageWriter = s.held.lineageWriter := by
  have hs : s.step .endDrop = some ((s.holding fun w => { w with tombstone := false }).advance .returnedOk) := by
    simp [step, hd]
  exact ⟨_, Runs.run_cons.2 ⟨_, hs, rfl⟩, ⟨rfl, rfl, rfl, rfl⟩, rfl, rfl⟩

theorem run_evictAgain {s : Race} (hd : s.drop = .removed) :
    ∃ u, Runs.run step s [.evictAgain, .endDrop] = some u ∧ Returned s u ∧ u.held.files = s.held.files := by
  have hs : s.step .evictAgain = some ((s.holding fun w => { w with lineageWriter := false }).advance .evictedAgain) := by
    simp [step, hd]
  obtain ⟨u, hu, hret, hfiles, -⟩ :=
    run_endDrop (s := (s.holding fun w => { w with lineageWriter := false }).advance .evictedAgain) rfl
  exact ⟨u, Runs.run_cons.2 ⟨_, hs, hu⟩, ⟨hret.drop, hret.ops, hret.nextOp, hret.engineInstance⟩, hfiles⟩

theorem run_remove {s : Race} (hd : s.drop = .evicted) :
    ∃ u, Runs.run step s [.remove .absent, .evictAgain, .endDrop] = some u ∧ Returned s u := by
  have hs : ∃ t, s.step (.remove .absent) = some t ∧ t.drop = .removed ∧ t.ops = s.ops ∧ t.nextOp = s.nextOp ∧
      t.held.engineInstance = s.held.engineInstance := by
    refine ⟨(s.holding fun w => if w.files = .absent then w else { w with files := .absent }).advance .removed,
      by simp only [step, hd], rfl, rfl, rfl, ?_⟩
    by_cases habs : s.held.files = .absent <;> simp [holding, advance, habs]
  obtain ⟨t, ht, hdt, hops, hnext, hinst⟩ := hs
  obtain ⟨u, hu, hret, -⟩ := run_evictAgain hdt
  exact ⟨u, Runs.run_cons.2 ⟨t, ht, hu⟩,
    ⟨hret.drop, hret.ops.trans hops, hret.nextOp.trans hnext, hret.engineInstance.trans hinst⟩⟩

theorem run_evict {s : Race} (hd : s.drop = .forgotten) :
    ∃ u, Runs.run step s [.evict, .remove .absent, .evictAgain, .endDrop] = some u ∧ Returned s u := by
  have hs : s.step .evict = some ((s.holding fun w => { w with lineageWriter := false }).advance .evicted) := by
    simp [step, hd]
  obtain ⟨u, hu, hret⟩ := run_remove (s := (s.holding fun w => { w with lineageWriter := false }).advance .evicted) rfl
  exact ⟨u, Runs.run_cons.2 ⟨_, hs, hu⟩, ⟨hret.drop, hret.ops, hret.nextOp, hret.engineInstance⟩⟩

/-- **The rest of a drop** leaves what is made behind its removal. -/
theorem run_finishDrop {s : Race} (h : s.drop.pastForget = true) :
    ∃ u, Runs.run step s (finishDrop s.drop) = some u ∧ Returned s u ∧
      (s.drop.pastRemoval = true → u.held.files = s.held.files) ∧
      (s.drop.pastEviction = true → u.held.lineageWriter = s.held.lineageWriter) := by
  cases hd : s.drop with
  | idle => simp [hd, DropProgress.pastForget] at h
  | tombstoned => simp [hd, DropProgress.pastForget] at h
  | rowDeleted => simp [hd, DropProgress.pastForget] at h
  | forgotten =>
    obtain ⟨u, hu, hret⟩ := run_evict hd
    exact ⟨u, hu, hret, nofun, nofun⟩
  | evicted =>
    obtain ⟨u, hu, hret⟩ := run_remove hd
    exact ⟨u, hu, hret, nofun, nofun⟩
  | removed =>
    obtain ⟨u, hu, hret, hfiles⟩ := run_evictAgain hd
    exact ⟨u, hu, hret, fun _ => hfiles, nofun⟩
  | evictedAgain =>
    obtain ⟨u, hu, hret, hfiles, hwriter⟩ := run_endDrop hd
    exact ⟨u, hu, hret, fun _ => hfiles, fun _ => hwriter⟩
  | returnedOk => exact ⟨s, rfl, ⟨hd, rfl, rfl, rfl⟩, fun _ => rfl, fun _ => rfl⟩

/-- Every operation below `n` ends. -/
def endAll (n : ℕ) : List Label := (List.range n).map .endOp

theorem run_endAll (s : Race) (n : ℕ) :
    Runs.run step s (endAll n) = some { s with ops := fun c => if c < n then .ended else s.ops c } := by
  induction n with
  | zero => simp [endAll]
  | succ n ih =>
    rw [endAll, List.range_succ, List.map_append, ← endAll, Runs.run_append]
    refine ⟨_, ih, ?_⟩
    simp only [List.map_cons, List.map_nil, Runs.run, step, Option.bind_some, setOp, Option.some_inj, Race.mk.injEq,
      true_and, and_true]
    funext c
    by_cases hc : c = n
    · subst hc
      simp
    · rw [Function.update_of_ne hc]
      by_cases hlt : c < n
      · simp [hlt, Nat.lt_succ_of_lt hlt]
      · have hge : ¬c < n + 1 := by omega
        simp [hlt, hge]

/-- **What is left** behind the step of the drop that removes it. -/
def Left (s : Race) : Prop :=
  s.drop.pastForget = true ∧ (s.held.engineInstance = true ∨
    (s.drop.pastRemoval = true ∧ s.held.files ≠ .absent) ∨ (s.drop.pastEviction = true ∧ s.held.lineageWriter = true))

/-- It is left when the drop has returned and the operations have ended. -/
theorem Left.ends {s : Race} (h : s.Left) (hn : s.Numbered) :
    ∃ ks u, Runs.Careful step Guarded s ks ∧ Runs.run step s ks = some u ∧ ¬u.NothingLeft := by
  obtain ⟨hpast, hleft⟩ := h
  obtain ⟨u, hu, ⟨hdrop, hops, hnext, hinst⟩, hfiles, hwriter⟩ := run_finishDrop hpast
  refine ⟨finishDrop s.drop ++ endAll u.nextOp, _, ?_, Runs.run_append.2 ⟨u, hu, run_endAll u u.nextOp⟩, ?_⟩
  · refine Runs.careful_of_forall ?_
    intro l hl t
    rcases List.mem_append.1 hl with hl | hl
    · exact finishDrop_guarded s.drop l hl t
    · obtain ⟨c, -, rfl⟩ := List.mem_map.1 hl
      trivial
  · intro hnot
    have hended : ∀ c, (if c < u.nextOp then OpStage.ended else u.ops c) = .ended := by
      intro c
      by_cases hc : c < u.nextOp
      · rw [if_pos hc]
      · rw [if_neg hc, hops]
        exact hn c (by omega)
    obtain ⟨hnofiles, hnoinst, hnowriter⟩ := hnot hdrop hended
    rcases hleft with hi | ⟨hp, hf⟩ | ⟨hp, hw⟩
    · rw [← hinst] at hi
      exact absurd (hi.symm.trans hnoinst) (by decide)
    · exact hf ((hfiles hp).symm.trans hnofiles)
    · rw [← hwriter hp] at hw
      exact absurd (hw.symm.trans hnowriter) (by decide)

theorem pastForget_of_pastRemoval {d : DropProgress} (h : d.pastRemoval = true) : d.pastForget = true := by
  cases d <;> first | rfl | cases h

theorem pastForget_of_pastEviction {d : DropProgress} (h : d.pastEviction = true) : d.pastForget = true := by
  cases d <;> first | rfl | cases h

/-- **A step that is not guarded** leaves something. -/
theorem step_left {s s' : Race} {l : Label} (hl : ¬s.Guarded l) (hs : s.step l = some s') : s'.Left := by
  cases l with
  | ensurePond c creates ok =>
    simp only [Guarded, Classical.not_imp, Bool.not_eq_false] at hl
    obtain ⟨habs, hcreates, hpast⟩ := hl
    simp only [step] at hs
    split at hs
    · cases hs
      refine ⟨pastForget_of_pastRemoval hpast, .inr (.inl ⟨hpast, ?_⟩)⟩
      simp [setOp, holding, habs, hcreates]
    · cases hs
  | writeFiles c =>
    simp only [Guarded, Classical.not_imp, Bool.not_eq_false] at hl
    obtain ⟨habs, hpast⟩ := hl
    simp only [step] at hs
    split at hs
    · cases hs
      refine ⟨pastForget_of_pastRemoval hpast, .inr (.inl ⟨hpast, ?_⟩)⟩
      simp [holding, habs]
    · cases hs
  | lookup c found =>
    simp only [Guarded, Classical.not_imp, Bool.not_eq_false] at hl
    obtain ⟨-, st, i, rfl, -, hi⟩ := lookup_cases hs
    exact ⟨hl.2, .inl (hi hl.1)⟩
  | insertWriter c =>
    have hpast : s.drop.pastEviction = true := by simpa [Guarded] using hl
    simp only [step] at hs
    split at hs
    · cases hs
      exact ⟨pastForget_of_pastEviction hpast, .inr (.inr ⟨hpast, rfl⟩)⟩
    · cases hs
  | forget =>
    simp only [Guarded, Classical.not_imp, not_not] at hl
    simp only [step] at hs
    split at hs
    · cases hs
      exact ⟨rfl, .inl (by simp [holding, advance, hl.1, hl.2])⟩
    · cases hs
  | remove leaves =>
    simp only [Guarded, Classical.not_imp] at hl
    simp only [step] at hs
    split at hs
    · cases hs
      exact ⟨rfl, .inr (.inl ⟨rfl, by simpa [holding, advance, hl.1] using hl.2⟩)⟩
    · cases hs
  | _ => exact absurd trivial hl

/-- **A dropped pond leaves nothing**, in the runs that make nothing behind the step of the drop that removes it; and
a step that does can be followed by steps that do not, up to the end of all, with something left. -/
theorem leaves_nothing (held : Held) (ls : List Label) :
    (Runs.Careful step Guarded (start held) ls → Runs.Always step NothingLeft (start held) ls) ∧
    ∀ s l s', Runs.run step (start held) ls = some s → s.step l = some s' → ¬s.Guarded l →
      ∃ ks u, Runs.Careful step Guarded s' ks ∧ Runs.run step s' ks = some u ∧ ¬u.NothingLeft := by
  constructor
  · exact Runs.always_of_careful (fun _ _ _ => step_clean) (fun _ => Clean.nothingLeft) (clean_start held)
  · intro s l s' hrun hs hl
    have hnum : s.Numbered := Runs.run_invariant (fun _ _ _ => step_numbered) (numbered_start held) hrun
    exact (step_left hl hs).ends (step_numbered hnum hs)

/-- A query that resolved its pond, the whole drop, and the rest of the query. -/
def lateQuery : List Label :=
  [.resolve, .beginDrop, .controlDrop, .forget, .evict, .remove .absent, .evictAgain, .endDrop,
    .ensurePond 0 true true, .register 0, .lookup 0 .opens, .finish 0, .locate 0, .insertWriter 0]

/-- **A late query** makes the directory, the instance and the lineage writer of a pond that is gone. -/
theorem late_query :
    (∃ s, Runs.run step (start usedPond) lateQuery = some s ∧ s.drop = .returnedOk ∧ (∀ c, s.ops c = .ended) ∧
      s.held = ⟨false, .whole, false, true, true⟩) ∧
    ¬∀ held ls, Runs.Always step NothingLeft (start held) ls := by
  have hrun : ∃ s, Runs.run step (start usedPond) lateQuery = some s ∧ s.drop = .returnedOk ∧
      (∀ c, s.ops c = .ended) ∧ s.held = ⟨false, .whole, false, true, true⟩ := by
    refine ⟨_, rfl, rfl, ?_, rfl⟩
    intro c
    cases c with
    | zero => rfl
    | succ c => rfl
  refine ⟨hrun, ?_⟩
  intro h
  obtain ⟨s, hs, hdrop, hended, hheld⟩ := hrun
  have hfiles := (((h usedPond lateQuery).last hs) hdrop hended).1
  rw [hheld] at hfiles
  cases hfiles

end Race

end Latiq.AgentCore
