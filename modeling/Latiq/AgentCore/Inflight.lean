import Latiq.Library.Runs
import Latiq.Library.SqlLex
import Mathlib.Data.Finset.Basic
import Mathlib.Logic.Function.Basic

/-!
# The in-flight registry

`InFlightRegistry` maps the running operations to their abort tokens, and holds the
ponds that are being dropped. Each of its functions takes its two locks one after the
other, never both, so `register` and `begin_drop` are two critical sections each.

## The model

* `InFlightRegistry` — the two maps, and the critical sections on them.
* `Sections` — the registry with the operations and the drops that are between two of their
  sections; `Sections.step` is one section of one of them.

## What is proved

* `register_eq`, `beginDrop_eq` — the functions, called alone, are their sections.
* `drop_reaches_iff` — every operation registered on a pond under a drop holds a
  cancelled token, in every state of a run, exactly when no operation whose check
  found no tombstone is inserted while a drop of its pond is past its cancel.
* `serial_drops_reach` — which is so when no drop begins while a registration is
  between its sections and no two drops of one pond overlap.
* `straddled_registration` — a registration around the begin of a drop.
-/

namespace Latiq.AgentCore

open SqlLex (Text)

/-! ### The registry -/

/-- `Entry`: an operation's token, as whether it is cancelled, and the pond it runs on. -/
structure Entry where
  cancelled : Bool
  pondId : Option Text
  deriving DecidableEq, Repr

/-- `InFlightRegistry`. Operation ids are numbers here. -/
structure InFlightRegistry where
  map : ℕ → Option Entry
  /-- Ponds currently being dropped. -/
  dropping : Finset Text

namespace InFlightRegistry

def new : InFlightRegistry := ⟨fun _ => none, ∅⟩

/-- The first section of `register`: the token, cancelled if the pond is being dropped. -/
def check (r : InFlightRegistry) (pondId : Option Text) : Entry :=
  ⟨pondId.any fun pid => decide (pid ∈ r.dropping), pondId⟩

/-- The second section of `register`. -/
def insert (r : InFlightRegistry) (op : ℕ) (e : Entry) : InFlightRegistry :=
  { r with map := Function.update r.map op (some e) }

/-- `register`. -/
def register (r : InFlightRegistry) (op : ℕ) (pondId : Option Text) : InFlightRegistry × Entry :=
  let e := r.check pondId
  (r.insert op e, e)

/-- `complete`. -/
def complete (r : InFlightRegistry) (op : ℕ) : InFlightRegistry := { r with map := Function.update r.map op none }

/-- `cancel`. -/
def cancel (r : InFlightRegistry) (op : ℕ) : InFlightRegistry :=
  { r with map := Function.update r.map op ((r.map op).map fun e => { e with cancelled := true }) }

/-- `cancel_for_pond`. -/
def cancelForPond (r : InFlightRegistry) (pondId : Text) : InFlightRegistry :=
  { r with map := fun op => (r.map op).map fun e => if e.pondId = some pondId then { e with cancelled := true } else e }

/-- The first section of `begin_drop`. -/
def tombstone (r : InFlightRegistry) (pondId : Text) : InFlightRegistry :=
  { r with dropping := Insert.insert pondId r.dropping }

/-- `begin_drop`. -/
def beginDrop (r : InFlightRegistry) (pondId : Text) : InFlightRegistry := (r.tombstone pondId).cancelForPond pondId

/-- `end_drop`. -/
def endDrop (r : InFlightRegistry) (pondId : Text) : InFlightRegistry := { r with dropping := r.dropping.erase pondId }

theorem cancelForPond_map {r : InFlightRegistry} {pid : Text} {op : ℕ} {e : Entry}
    (h : (r.cancelForPond pid).map op = some e) : (e.pondId = some pid → e.cancelled = true) ∧
      ∃ e₀, r.map op = some e₀ ∧ e.pondId = e₀.pondId ∧ (e₀.cancelled = true → e.cancelled = true) := by
  obtain ⟨e₀, h₀, he⟩ := Option.map_eq_some_iff.1 h
  by_cases hp : e₀.pondId = some pid
  · rw [if_pos hp] at he
    subst he
    exact ⟨fun _ => rfl, e₀, h₀, rfl, fun _ => rfl⟩
  · rw [if_neg hp] at he
    subst he
    exact ⟨fun hpid => absurd hpid hp, e₀, h₀, rfl, fun hc => hc⟩

end InFlightRegistry

/-! ### The system -/

/-- How far a call of `drop_pond` is with the registry. -/
inductive DropStage where
  | notBegun
  /-- The tombstone is in, and nothing is cancelled yet. -/
  | tombstoned (pondId : Text)
  /-- Past `cancel_for_pond`, and before `end_drop`. -/
  | past (pondId : Text)
  | ended
  deriving DecidableEq, Repr

/-- The pond of a drop that has begun and not ended. -/
def DropStage.pond : DropStage → Option Text
  | .tombstoned pid | .past pid => some pid
  | _ => none

/-- The registry, the operations between the sections of `register`, and the drops. -/
structure Sections where
  reg : InFlightRegistry
  checked : ℕ → Option Entry
  drops : ℕ → DropStage

namespace Sections

/-- One critical section. -/
inductive Label where
  /-- An operation makes its token, by the tombstones. -/
  | check (op : ℕ) (pondId : Option Text)
  /-- It puts its entry in. -/
  | insert (op : ℕ)
  | complete (op : ℕ)
  | cancel (op : ℕ)
  /-- A drop puts its tombstone in. -/
  | tombstone (d : ℕ) (pondId : Text)
  /-- It cancels what is registered on the pond. -/
  | cancelForPond (d : ℕ)
  | endDrop (d : ℕ)
  deriving DecidableEq, Repr

def start : Sections := ⟨.new, fun _ => none, fun _ => .notBegun⟩

/-- One section; `none` where its caller is not at it. An operation id is new when it is checked. -/
def step (s : Sections) : Label → Option Sections
  | .check op pondId =>
    if (s.checked op).isNone ∧ (s.reg.map op).isNone then
      some { s with checked := Function.update s.checked op (some (s.reg.check pondId)) }
    else none
  | .insert op =>
    match s.checked op with
    | some e => some { s with reg := s.reg.insert op e, checked := Function.update s.checked op none }
    | none => none
  | .complete op => some { s with reg := s.reg.complete op }
  | .cancel op => some { s with reg := s.reg.cancel op }
  | .tombstone d pondId =>
    match s.drops d with
    | .notBegun => some { s with reg := s.reg.tombstone pondId, drops := Function.update s.drops d (.tombstoned pondId) }
    | _ => none
  | .cancelForPond d =>
    match s.drops d with
    | .tombstoned pid => some { s with reg := s.reg.cancelForPond pid, drops := Function.update s.drops d (.past pid) }
    | _ => none
  | .endDrop d =>
    match s.drops d with
    | .past pid => some { s with reg := s.reg.endDrop pid, drops := Function.update s.drops d .ended }
    | _ => none

/-- A drop of the pond is past its cancel and before its end. -/
def Dropping (s : Sections) (pid : Text) : Prop := ∃ d, s.drops d = .past pid

/-- **What a drop promises**: every operation registered on its pond holds a cancelled token. -/
def Reached (s : Sections) : Prop :=
  ∀ pid, s.Dropping pid → ∀ op e, s.reg.map op = some e → e.pondId = some pid → e.cancelled = true

/-- The step is not that an operation, whose check found no tombstone, is inserted while a drop of its pond
is past its cancel. -/
def Guarded (s : Sections) : Label → Prop
  | .insert op => ∀ e, s.checked op = some e → e.cancelled = false → ∀ pid, e.pondId = some pid → ¬s.Dropping pid
  | _ => True

theorem reached_start : Reached start := by
  rintro pid ⟨d, hd⟩
  cases hd

theorem Dropping.of_update {s : Sections} {d : ℕ} {st : DropStage} {pid : Text} {r : InFlightRegistry} {c : ℕ → Option Entry}
    (h : Dropping ⟨r, c, Function.update s.drops d st⟩ pid) : s.Dropping pid ∨ st = .past pid := by
  obtain ⟨d', hd'⟩ := h
  rcases Runs.of_update hd' with ⟨-, hd'⟩ | ⟨-, hd'⟩
  · exact .inr hd'
  · exact .inl ⟨d', hd'⟩

/-- **One section** keeps the promise, if it is guarded. -/
theorem step_reached {s s' : Sections} {l : Label} (h : s.Reached) (hl : s.Guarded l) (hs : s.step l = some s') :
    s'.Reached := by
  cases l with
  | check op pondId =>
    simp only [step] at hs
    split at hs
    · cases hs
      exact h
    · cases hs
  | insert op =>
    simp only [step] at hs
    split at hs
    · rename_i e he
      cases hs
      intro pid hpid op' e' he' hp
      rcases Runs.of_update he' with ⟨-, he'⟩ | ⟨-, he'⟩
      · cases he'
        by_contra hc
        exact hl e he (by simpa using hc) pid hp hpid
      · exact h pid hpid op' e' he' hp
    · cases hs
  | complete op =>
    cases hs
    intro pid hpid op' e' he' hp
    rcases Runs.of_update he' with ⟨-, he'⟩ | ⟨-, he'⟩
    · cases he'
    · exact h pid hpid op' e' he' hp
  | cancel op =>
    cases hs
    intro pid hpid op' e' he' hp
    rcases Runs.of_update he' with ⟨-, he'⟩ | ⟨-, he'⟩
    · obtain ⟨e₀, -, rfl⟩ := Option.map_eq_some_iff.1 he'
      rfl
    · exact h pid hpid op' e' he' hp
  | tombstone d pondId =>
    simp only [step] at hs
    split at hs
    · cases hs
      intro pid hpid op e he hp
      rcases Dropping.of_update hpid with hpid | hpid
      · exact h pid hpid op e he hp
      · cases hpid
    · cases hs
  | cancelForPond d =>
    simp only [step] at hs
    split at hs
    · rename_i q hd
      cases hs
      intro pid hpid op e he hp
      obtain ⟨hcancelled, e₀, he₀, hpond, hkeep⟩ := InFlightRegistry.cancelForPond_map he
      rcases Dropping.of_update hpid with hpid | hpid
      · exact hkeep (h pid hpid op e₀ he₀ (hpond ▸ hp))
      · cases hpid
        exact hcancelled hp
    · cases hs
  | endDrop d =>
    simp only [step] at hs
    split at hs
    · cases hs
      intro pid hpid op e he hp
      rcases Dropping.of_update hpid with hpid | hpid
      · exact h pid hpid op e he hp
      · cases hpid
    · cases hs

/-- A section that is not guarded breaks the promise. -/
theorem step_not_reached {s s' : Sections} {l : Label} (hl : ¬s.Guarded l) (hs : s.step l = some s') : ¬s'.Reached := by
  cases l with
  | insert op =>
    simp only [Guarded, not_forall, not_not] at hl
    obtain ⟨e, he, hc, pid, hp, hd⟩ := hl
    simp only [step, he] at hs
    cases hs
    intro h
    have hcancelled : e.cancelled = true := h pid hd op e (Function.update_self ..) hp
    rw [hc] at hcancelled
    cases hcancelled
  | _ => exact absurd trivial hl

/-- **Drops reach every operation** in exactly the runs whose registrations are guarded. -/
theorem drop_reaches_iff (ls : List Label) : Runs.Always step Reached start ls ↔ Runs.Careful step Guarded start ls :=
  Runs.always_iff_careful (fun _ _ _ => step_reached) (fun _ h => h) (fun _ _ _ _ => step_not_reached) reached_start

/-! ### Serial drops -/

/-- The step is not that a drop begins while an operation on its pond is between its sections, or while
another drop of the pond is under way. -/
def Serial (s : Sections) : Label → Prop
  | .tombstone _ pid =>
    (∀ op e, s.checked op = some e → e.pondId = some pid → e.cancelled = true) ∧ ∀ d, (s.drops d).pond ≠ some pid
  | _ => True

/-- What serial drops keep. -/
structure Serialised (s : Sections) : Prop where
  /-- The tombstone is there for as long as a drop is under way. -/
  tombstoned : ∀ d pid, (s.drops d).pond = some pid → pid ∈ s.reg.dropping
  /-- It is the only one of its pond. -/
  unique : ∀ d d' pid, (s.drops d).pond = some pid → (s.drops d').pond = some pid → d = d'
  /-- And it is known to the operations between their sections. -/
  known : ∀ d pid, (s.drops d).pond = some pid → ∀ op e, s.checked op = some e → e.pondId = some pid → e.cancelled = true

theorem serialised_start : start.Serialised where
  tombstoned _ _ h := by cases h
  unique _ _ _ h := by cases h
  known _ _ h := by cases h

theorem pond_update {s : Sections} {d d' : ℕ} {st : DropStage} {pid : Text}
    (h : (Function.update s.drops d st d').pond = some pid) : (d' = d ∧ st.pond = some pid) ∨
      (d' ≠ d ∧ (s.drops d').pond = some pid) := by
  by_cases hd : d' = d
  · subst hd
    rw [Function.update_self] at h
    exact .inl ⟨rfl, h⟩
  · rw [Function.update_of_ne hd] at h
    exact .inr ⟨hd, h⟩

theorem step_serialised {s s' : Sections} {l : Label} (h : s.Serialised) (hl : s.Serial l) (hs : s.step l = some s') :
    s'.Serialised := by
  cases l with
  | check op pondId =>
    simp only [step] at hs
    split at hs
    · cases hs
      refine ⟨h.tombstoned, h.unique, ?_⟩
      intro d pid hd op' e he hp
      rcases Runs.of_update he with ⟨-, he⟩ | ⟨-, he⟩
      · cases he
        have hpid : pondId = some pid := hp
        subst hpid
        exact decide_eq_true (h.tombstoned d pid hd)
      · exact h.known d pid hd op' e he hp
    · cases hs
  | insert op =>
    simp only [step] at hs
    split at hs
    · cases hs
      refine ⟨h.tombstoned, h.unique, ?_⟩
      intro d pid hd op' e he hp
      rcases Runs.of_update he with ⟨-, he⟩ | ⟨-, he⟩
      · cases he
      · exact h.known d pid hd op' e he hp
    · cases hs
  | complete op | cancel op =>
    cases hs
    exact ⟨h.tombstoned, h.unique, h.known⟩
  | tombstone d pondId =>
    obtain ⟨hknown, hfree⟩ := hl
    simp only [step] at hs
    split at hs
    · cases hs
      refine ⟨?_, ?_, ?_⟩
      · intro d' pid hd'
        rcases pond_update hd' with ⟨-, hp⟩ | ⟨-, hp⟩
        · cases hp
          exact Finset.mem_insert_self ..
        · exact Finset.mem_insert_of_mem (h.tombstoned d' pid hp)
      · intro d₁ d₂ pid h₁ h₂
        rcases pond_update h₁ with ⟨rfl, hp₁⟩ | ⟨-, hp₁⟩
        · rcases pond_update h₂ with ⟨rfl, -⟩ | ⟨-, hp₂⟩
          · rfl
          · cases hp₁
            exact absurd hp₂ (hfree d₂)
        · rcases pond_update h₂ with ⟨rfl, hp₂⟩ | ⟨-, hp₂⟩
          · cases hp₂
            exact absurd hp₁ (hfree d₁)
          · exact h.unique d₁ d₂ pid hp₁ hp₂
      · intro d' pid hd' op e he hp
        rcases pond_update hd' with ⟨-, hq⟩ | ⟨-, hq⟩
        · cases hq
          exact hknown op e he hp
        · exact h.known d' pid hq op e he hp
    · cases hs
  | cancelForPond d =>
    simp only [step] at hs
    split at hs
    · rename_i q hd
      cases hs
      -- The drop was under way before, on the same pond.
      have hback (d' : ℕ) (pid : Text) (hd' : (Function.update s.drops d (.past q) d').pond = some pid) :
          (s.drops d').pond = some pid := by
        rcases pond_update hd' with ⟨rfl, hp⟩ | ⟨-, hp⟩
        · rw [hd]
          exact hp
        · exact hp
      refine ⟨?_, ?_, ?_⟩
      · intro d' pid hd'
        exact h.tombstoned d' pid (hback d' pid hd')
      · intro d₁ d₂ pid h₁ h₂
        exact h.unique d₁ d₂ pid (hback d₁ pid h₁) (hback d₂ pid h₂)
      · intro d' pid hd'
        exact h.known d' pid (hback d' pid hd')
    · cases hs
  | endDrop d =>
    simp only [step] at hs
    split at hs
    · rename_i q hd
      cases hs
      have hback (d' : ℕ) (pid : Text) (hd' : (Function.update s.drops d .ended d').pond = some pid) :
          d' ≠ d ∧ (s.drops d').pond = some pid := by
        rcases pond_update hd' with ⟨-, hp⟩ | hp
        · cases hp
        · exact hp
      refine ⟨?_, ?_, ?_⟩
      · intro d' pid hd'
        obtain ⟨hne, hp⟩ := hback d' pid hd'
        refine Finset.mem_erase.2 ⟨?_, h.tombstoned d' pid hp⟩
        rintro rfl
        exact hne (h.unique d' d pid hp (by rw [hd]; rfl))
      · intro d₁ d₂ pid h₁ h₂
        exact h.unique d₁ d₂ pid (hback d₁ pid h₁).2 (hback d₂ pid h₂).2
      · intro d' pid hd'
        exact h.known d' pid (hback d' pid hd').2
    · cases hs

theorem serial_guarded {s : Sections} {l : Label} (h : s.Serialised) : s.Guarded l := by
  cases l with
  | insert op =>
    intro e he hc pid hp ⟨d, hd⟩
    have hcancelled := h.known d pid (by rw [hd]; rfl) op e he hp
    rw [hc] at hcancelled
    cases hcancelled
  | _ => trivial

/-- **Serial drops** reach every operation. -/
theorem serial_drops_reach {ls : List Label} (h : Runs.Careful step Serial start ls) :
    Runs.Always step Reached start ls :=
  (drop_reaches_iff ls).2
    (h.mono (fun _ _ _ => step_serialised) (fun _ _ _ hs _ _ => serial_guarded hs) serialised_start)

/-- An operation finds no tombstone, a drop of the pond begins and cancels what is there, and the operation
is inserted. -/
def straddle : List Label :=
  [.check 0 (some "p".toList), .tombstone 0 "p".toList, .cancelForPond 0, .insert 0]

/-- **A registration around the begin of a drop** is not reached. -/
theorem straddled_registration : ¬Runs.Always step Reached start straddle := by
  intro h
  obtain ⟨s, hs⟩ : ∃ s, Runs.run step start straddle = some s := ⟨_, rfl⟩
  have hlast := h.last hs
  have hentry : s.reg.map 0 = some ⟨false, some "p".toList⟩ := by
    cases hs
    rfl
  have hdrop : s.Dropping "p".toList := by
    refine ⟨0, ?_⟩
    cases hs
    rfl
  cases hlast "p".toList hdrop 0 _ hentry rfl

end Sections

/-! ### The functions, called alone -/

namespace InFlightRegistry

variable (r : InFlightRegistry) (op d : ℕ) (checked : ℕ → Option Entry) (drops : ℕ → DropStage)

/-- `register` is its two sections. -/
theorem register_eq {pondId : Option Text} (hc : checked op = none) (hm : r.map op = none) :
    (Runs.run Sections.step ⟨r, checked, drops⟩ [.check op pondId, .insert op]).map Sections.reg =
      some (r.register op pondId).1 := by
  simp [Runs.run, Sections.step, hc, hm, register]

/-- `begin_drop` is its two sections. -/
theorem beginDrop_eq {pid : Text} (hd : drops d = .notBegun) :
    (Runs.run Sections.step ⟨r, checked, drops⟩ [.tombstone d pid, .cancelForPond d]).map Sections.reg =
      some (r.beginDrop pid) := by
  simp [Runs.run, Sections.step, hd, beginDrop]

end InFlightRegistry

end Latiq.AgentCore
