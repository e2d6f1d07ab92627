import Latiq.Library.Runs
import Latiq.Library.SqlLex
import Mathlib.Logic.Function.Basic

/-!
# One writer for each pond

The writer's mutex lies in the `Pond` that `DuckEngine::pond` opens and caches. A call with
other limits, or one behind `forget_pond`, opens another one, with a mutex of its own, while
the calls that looked the old one up go on with theirs.

## The model

* `PondArc` — one opening of a pond; `DuckEngine` is the engine's map with the calls that
  take a writer (`write_query`, `pull_catalog`, `describe_catalog`), and the snapshots of each pond. A read
  publishes nothing here.
* `DuckEngine.pond` — the lookup, and `DuckEngine.step` one step of one call.

## What is proved

* `step_cases`, `lookup_cases` — what a step can be.
* `one_writer` — at most one call of a pond is in the write bracket, and between
  its two looks at the snapshots the pond gains its own only, in every run that opens no pond
  over a call that holds an older opening; and each step that does can be followed by steps
  that do not and lead to two writers.
* `retier_two_writers` — a pond with other limits opened over a write.
-/

namespace Latiq.EngineDuckdb

open SqlLex (Text)

/-- `ResourceLimits`: the caps of a tier. -/
structure ResourceLimits where
  memoryBytes : ℕ
  cores : ℕ
  deriving DecidableEq, Repr

/-- An `Arc<Pond>`: the pond's catalog, and which of its openings this is. -/
structure PondArc where
  catalogUri : Text
  opening : ℕ
  deriving DecidableEq, Repr

/-- What the map holds of a pond: the opening, and the caps it was opened with. -/
structure CachedPond where
  opening : ℕ
  limits : Option ResourceLimits
  deriving DecidableEq, Repr

/-- How far a call on the writer is. -/
inductive WriterStage where
  /-- It has looked the pond up, and does not have the lock. -/
  | looked (pond : PondArc)
  | locked (pond : PondArc)
  /-- Between the two looks at the newest snapshot, that saw so many, with so many of its own since. -/
  | inWriteTxn (pond : PondArc) (before own : ℕ)
  | done
  deriving DecidableEq, Repr

/-- The pond a call goes on with. -/
def WriterStage.pond : WriterStage → Option PondArc
  | .looked p | .locked p | .inWriteTxn p .. => some p
  | .done => none

/-- The pond whose writer it has locked. -/
def WriterStage.holds : WriterStage → Option PondArc
  | .locked p | .inWriteTxn p .. => some p
  | _ => none

/-- The pond it writes to. -/
def WriterStage.writes : WriterStage → Option PondArc
  | .inWriteTxn p .. => some p
  | _ => none

theorem WriterStage.pond_of_holds {st : WriterStage} {p : PondArc} (h : st.holds = some p) : st.pond = some p := by
  cases st with
  | looked q => cases h
  | locked q => exact h
  | inWriteTxn q before own => exact h
  | done => cases h

theorem WriterStage.holds_of_writes {st : WriterStage} {p : PondArc} (h : st.writes = some p) : st.holds = some p := by
  cases st with
  | inWriteTxn q before own => exact h
  | _ => cases h

/-- `DuckEngine`, with the calls on writers. -/
structure DuckEngine where
  ponds : Text → Option CachedPond
  nextOpening : ℕ
  /-- Who holds the writer's mutex. -/
  writer : PondArc → Option ℕ
  calls : ℕ → WriterStage
  nextCall : ℕ
  /-- How many snapshots each pond has. -/
  snapshots : Text → ℕ

namespace DuckEngine

inductive Label where
  /-- A call looks the pond up, with or without success if it has to open it. -/
  | lookup (catalogUri : Text) (limits : Option ResourceLimits) (opens takesWriter : Bool)
  | forgetPond (catalogUri : Text)
  | lock (c : ℕ)
  /-- A cancelled call leaves the queue. -/
  | giveUp (c : ℕ)
  | beginWrite (c : ℕ)
  | publish (c : ℕ)
  | endWrite (c : ℕ)
  /-- The guard is dropped, behind the call or in an unwind out of it. -/
  | unlock (c : ℕ)
  deriving DecidableEq, Repr

def new : DuckEngine := ⟨fun _ => none, 0, fun _ => none, fun _ => .done, 0, fun _ => 0⟩

/-- `Pond::open`, into the map. -/
def openPond (s : DuckEngine) (catalogUri : Text) (limits : Option ResourceLimits) (opens : Bool) :
    DuckEngine × Option PondArc :=
  if opens then
    ({ s with
        ponds := Function.update s.ponds catalogUri (some ⟨s.nextOpening, limits⟩), nextOpening := s.nextOpening + 1 },
      some ⟨catalogUri, s.nextOpening⟩)
  else (s, none)

/-- `DuckEngine::pond`. -/
def pond (s : DuckEngine) (catalogUri : Text) (limits : Option ResourceLimits) (opens : Bool) :
    DuckEngine × Option PondArc :=
  match s.ponds catalogUri with
  | some p =>
    if p.limits = limits then (s, some ⟨catalogUri, p.opening⟩)
    -- re-tiered
    else openPond { s with ponds := Function.update s.ponds catalogUri none } catalogUri limits opens
  | none => s.openPond catalogUri limits opens

/-- A call starts with the pond that it found. -/
def start (s : DuckEngine) (p : PondArc) : DuckEngine :=
  { s with calls := Function.update s.calls s.nextCall (.looked p), nextCall := s.nextCall + 1 }

def setStage (s : DuckEngine) (c : ℕ) (st : WriterStage) : DuckEngine := { s with calls := Function.update s.calls c st }

def setWriter (s : DuckEngine) (p : PondArc) (c : Option ℕ) : DuckEngine :=
  { s with writer := Function.update s.writer p c }

/-- One step; `none` where the call is not at it. -/
def step (s : DuckEngine) : Label → Option DuckEngine
  | .lookup uri limits opens takesWriter =>
    match s.pond uri limits opens, takesWriter with
    | (t, some p), true => some (t.start p)
    | (t, _), _ => some t
  | .forgetPond uri => some { s with ponds := Function.update s.ponds uri none }
  | .lock c =>
    match s.calls c with
    | .looked p => if s.writer p = none then some ((s.setStage c (.locked p)).setWriter p (some c)) else none
    | _ => none
  | .giveUp c =>
    match s.calls c with
    | .looked _ => some (s.setStage c .done)
    | _ => none
  | .beginWrite c =>
    match s.calls c with
    | .locked p => some (s.setStage c (.inWriteTxn p (s.snapshots p.catalogUri) 0))
    | _ => none
  | .publish c =>
    match s.calls c with
    | .inWriteTxn p before own =>
      some { s.setStage c (.inWriteTxn p before (own + 1)) with
        snapshots := Function.update s.snapshots p.catalogUri (s.snapshots p.catalogUri + 1) }
    | _ => none
  | .endWrite c =>
    match s.calls c with
    | .inWriteTxn p _ _ => some (s.setStage c (.locked p))
    | _ => none
  | .unlock c =>
    match (s.calls c).holds with
    | some p => some ((s.setStage c .done).setWriter p none)
    | none => none

/-- **One writer for each pond**, who sees its own snapshots only. -/
structure OneWriter (s : DuckEngine) : Prop where
  alone : ∀ c c' p p', (s.calls c).writes = some p → (s.calls c').writes = some p' → p.catalogUri = p'.catalogUri → c = c'
  own : ∀ c p before own, s.calls c = .inWriteTxn p before own → s.snapshots p.catalogUri = before + own

/-- The lookup opens the pond. -/
def Opens (s : DuckEngine) (uri : Text) (limits : Option ResourceLimits) (opens : Bool) : Prop :=
  opens = true ∧ ∀ p, s.ponds uri = some p → p.limits ≠ limits

/-- The step does not open a pond while a call on the writer goes on with an older opening of it. -/
def Guarded (s : DuckEngine) : Label → Prop
  | .lookup uri limits opens _ => s.Opens uri limits opens → ∀ c p, (s.calls c).pond = some p → p.catalogUri ≠ uri
  | _ => True

/-! ### What every step keeps -/

/-- What holds in every state. -/
structure Wellformed (s : DuckEngine) : Prop where
  new : ∀ c, s.nextCall ≤ c → s.calls c = .done
  opened : ∀ c p, (s.calls c).pond = some p → p.opening < s.nextOpening
  cachedOpened : ∀ uri p, s.ponds uri = some p → p.opening < s.nextOpening
  holder : ∀ p c, s.writer p = some c → (s.calls c).holds = some p
  held : ∀ c p, (s.calls c).holds = some p → s.writer p = some c

/-- What guarded steps keep. -/
structure Kept (s : DuckEngine) : Prop extends Wellformed s where
  /-- The calls of a pond have one opening of it. -/
  same : ∀ c c' p p', (s.calls c).pond = some p → (s.calls c').pond = some p' → p.catalogUri = p'.catalogUri → p = p'
  /-- It is the cached one, if one is cached. -/
  cached : ∀ c p q, (s.calls c).pond = some p → s.ponds p.catalogUri = some q → q.opening = p.opening
  own : ∀ c p before own, s.calls c = .inWriteTxn p before own → s.snapshots p.catalogUri = before + own

/-- Calls with one opening have one writer. -/
theorem Kept.oneWriter {s : DuckEngine} (h : s.Kept) : s.OneWriter where
  alone c c' p p' hc hc' huri := by
    have hheld := WriterStage.holds_of_writes hc
    have hheld' := WriterStage.holds_of_writes hc'
    have hsame : p = p' :=
      h.same c c' p p' (WriterStage.pond_of_holds hheld) (WriterStage.pond_of_holds hheld') huri
    subst hsame
    have hw := (h.held c p hheld).symm.trans (h.held c' p hheld')
    exact Option.some_inj.1 hw
  own := h.own

theorem wellformed_new : new.Wellformed where
  new _ _ := rfl
  opened _ _ h := by cases h
  cachedOpened _ _ h := by cases h
  holder _ _ h := by cases h
  held _ _ h := by cases h

theorem kept_new : new.Kept := { wellformed_new with
  same := fun _ _ _ _ h => by cases h
  cached := fun _ _ _ h => by cases h
  own := fun _ _ _ _ h => by cases h }

/-- **A lookup** finds the cached opening, or opens the pond, or leaves it out of the map. -/
theorem pond_cases (s : DuckEngine) (uri : Text) (limits : Option ResourceLimits) (opens : Bool) :
    (∃ p, s.ponds uri = some p ∧ p.limits = limits ∧ s.pond uri limits opens = (s, some ⟨uri, p.opening⟩)) ∨
    (s.Opens uri limits opens ∧ s.pond uri limits opens =
      ({ s with
          ponds := Function.update s.ponds uri (some ⟨s.nextOpening, limits⟩), nextOpening := s.nextOpening + 1 },
        some ⟨uri, s.nextOpening⟩)) ∨
    (¬s.Opens uri limits opens ∧
      s.pond uri limits opens = ({ s with ponds := Function.update s.ponds uri none }, none)) := by
  unfold pond
  cases hp : s.ponds uri with
  | some p =>
    by_cases hl : p.limits = limits
    · exact .inl ⟨p, rfl, hl, by simp [hl]⟩
    · cases opens with
      | true =>
        refine .inr (.inl ⟨⟨rfl, ?_⟩, by simp [hl, openPond]⟩)
        intro q hq
        rw [hp] at hq
        cases hq
        exact hl
      | false => exact .inr (.inr ⟨fun h => Bool.false_ne_true h.1, by simp [hl, openPond]⟩)
  | none =>
    cases opens with
    | true =>
      refine .inr (.inl ⟨⟨rfl, ?_⟩, rfl⟩)
      intro q hq
      rw [hp] at hq
      cases hq
    | false =>
      refine .inr (.inr ⟨fun h => Bool.false_ne_true h.1, ?_⟩)
      have hnone : Function.update s.ponds uri none = s.ponds := Function.update_eq_self_iff.2 hp.symm
      simp [openPond, hnone]

theorem calls_update {s : DuckEngine} {c c' : ℕ} {st : WriterStage} {α : Type} (f : WriterStage → Option α) {a : α}
    (h : f (Function.update s.calls c st c') = some a) : (c' = c ∧ f st = some a) ∨ (c' ≠ c ∧ f (s.calls c') = some a) := by
  by_cases hc : c' = c
  · subst hc
    rw [Function.update_self] at h
    exact .inl ⟨rfl, h⟩
  · rw [Function.update_of_ne hc] at h
    exact .inr ⟨hc, h⟩

/-- Taking a pond out of the map. -/
theorem Wellformed.forget {s : DuckEngine} (h : s.Wellformed) (uri : Text) :
    Wellformed { s with ponds := Function.update s.ponds uri none } := by
  refine { h with cachedOpened := ?_ }
  intro uri' p hp
  rcases Runs.of_update hp with ⟨-, hp⟩ | ⟨-, hp⟩
  · cases hp
  · exact h.cachedOpened uri' p hp

theorem Kept.forget {s : DuckEngine} (h : s.Kept) (uri : Text) :
    Kept { s with ponds := Function.update s.ponds uri none } := by
  refine { h.toWellformed.forget uri with same := h.same, cached := ?_, own := h.own }
  intro c p q hc hq
  rcases Runs.of_update hq with ⟨-, hq⟩ | ⟨-, hq⟩
  · cases hq
  · exact h.cached c p q hc hq

/-- Opening a pond. -/
theorem Wellformed.openPond {s : DuckEngine} (h : s.Wellformed) (uri : Text) (limits : Option ResourceLimits) :
    Wellformed { s with
      ponds := Function.update s.ponds uri (some ⟨s.nextOpening, limits⟩), nextOpening := s.nextOpening + 1 } := by
  refine { h with opened := ?_, cachedOpened := ?_ }
  · intro c p hc
    exact Nat.lt_succ_of_lt (h.opened c p hc)
  · intro uri' p hp
    rcases Runs.of_update hp with ⟨-, hp⟩ | ⟨-, hp⟩
    · cases hp
      exact Nat.lt_succ_self _
    · exact Nat.lt_succ_of_lt (h.cachedOpened uri' p hp)

theorem Kept.openPond {s : DuckEngine} (h : s.Kept) {uri : Text} (limits : Option ResourceLimits)
    (huri : ∀ c p, (s.calls c).pond = some p → p.catalogUri ≠ uri) :
    Kept { s with
      ponds := Function.update s.ponds uri (some ⟨s.nextOpening, limits⟩), nextOpening := s.nextOpening + 1 } := by
  refine { h.toWellformed.openPond uri limits with same := h.same, cached := ?_, own := h.own }
  intro c p q hc hq
  have hq' : Function.update s.ponds uri (some ⟨s.nextOpening, limits⟩) p.catalogUri = some q := hq
  rw [Function.update_of_ne (huri c p hc)] at hq'
  exact h.cached c p q hc hq'

/-- A call that starts. -/
theorem Wellformed.start {s : DuckEngine} (h : s.Wellformed) {p : PondArc} (hp : p.opening < s.nextOpening) :
    (s.start p).Wellformed where
  new c hc := by
    have hc' : s.nextCall + 1 ≤ c := hc
    show Function.update s.calls s.nextCall (.looked p) c = .done
    rw [Function.update_of_ne (by omega)]
    exact h.new c (by omega)
  opened c q hq := by
    rcases calls_update WriterStage.pond hq with ⟨-, hq⟩ | ⟨-, hq⟩
    · cases hq
      exact hp
    · exact h.opened c q hq
  cachedOpened := h.cachedOpened
  holder q c hq := by
    have hc := h.holder q c hq
    by_cases hnext : c = s.nextCall
    · subst hnext
      rw [h.new s.nextCall le_rfl] at hc
      cases hc
    · show (Function.update s.calls s.nextCall (.looked p) c).holds = some q
      rw [Function.update_of_ne hnext]
      exact hc
  held c q hq := by
    rcases calls_update WriterStage.holds hq with ⟨-, hq⟩ | ⟨-, hq⟩
    · cases hq
    · exact h.held c q hq

theorem Kept.start {s : DuckEngine} (h : s.Kept) {p : PondArc} (hp : p.opening < s.nextOpening)
    (hsame : ∀ c q, (s.calls c).pond = some q → q.catalogUri = p.catalogUri → q = p)
    (hcached : ∀ q, s.ponds p.catalogUri = some q → q.opening = p.opening) : (s.start p).Kept := by
  refine { h.toWellformed.start hp with same := ?_, cached := ?_, own := ?_ }
  · intro c c' q q' hq hq' huri
    rcases calls_update WriterStage.pond hq with ⟨-, hq⟩ | ⟨-, hq⟩ <;>
      rcases calls_update WriterStage.pond hq' with ⟨-, hq'⟩ | ⟨-, hq'⟩
    · exact Option.some_inj.1 (hq.symm.trans hq')
    · cases hq
      exact (hsame c' q' hq' huri.symm).symm
    · cases hq'
      exact hsame c q hq huri
    · exact h.same c c' q q' hq hq' huri
  · intro c q r hq hr
    rcases calls_update WriterStage.pond hq with ⟨-, hq⟩ | ⟨-, hq⟩
    · cases hq
      exact hcached r hr
    · exact h.cached c q r hq hr
  · intro c q before own hc
    rcases Runs.of_update hc with ⟨-, hc⟩ | ⟨-, hc⟩
    · cases hc
    · exact h.own c q before own hc

/-- A call goes on to a stage, with a change of who holds the mutexes that suits it. -/
structure Moves (s : DuckEngine) (c : ℕ) (st : WriterStage) (w : PondArc → Option ℕ) : Prop where
  started : s.calls c ≠ .done
  pond : ∀ p, st.pond = some p → (s.calls c).pond = some p
  holder : ∀ p c', w p = some c' → (Function.update s.calls c st c').holds = some p
  held : ∀ c' p, (Function.update s.calls c st c').holds = some p → w p = some c'

/-- It keeps the lock that it has, or does not have. -/
theorem Moves.of_holds {s : DuckEngine} (h : s.Wellformed) {c : ℕ} {st : WriterStage} (hstarted : s.calls c ≠ .done)
    (hpond : ∀ p, st.pond = some p → (s.calls c).pond = some p) (hholds : st.holds = (s.calls c).holds) :
    s.Moves c st s.writer where
  started := hstarted
  pond := hpond
  holder p c' hw := by
    by_cases hc : c' = c
    · subst hc
      rw [Function.update_self, hholds]
      exact h.holder p c' hw
    · rw [Function.update_of_ne hc]
      exact h.holder p c' hw
  held c' p hp := by
    rcases calls_update WriterStage.holds hp with ⟨rfl, hst⟩ | ⟨-, hp⟩
    · exact h.held c' p (hholds ▸ hst)
    · exact h.held c' p hp

theorem Moves.lock {s : DuckEngine} (h : s.Wellformed) {c : ℕ} {p : PondArc} (hc : s.calls c = .looked p)
    (hw : s.writer p = none) : s.Moves c (.locked p) (Function.update s.writer p (some c)) where
  started := by
    rw [hc]
    exact WriterStage.noConfusion
  pond q hq := by
    rw [hc]
    exact hq
  holder q c' hq := by
    rcases Runs.of_update hq with ⟨rfl, hc'⟩ | ⟨-, hq⟩
    · cases hc'
      rw [Function.update_self]
      rfl
    · have hholds := h.holder q c' hq
      have hne : c' ≠ c := by
        rintro rfl
        rw [hc] at hholds
        cases hholds
      rw [Function.update_of_ne hne]
      exact hholds
  held c' q hq := by
    rcases calls_update WriterStage.holds hq with ⟨rfl, hst⟩ | ⟨-, hq⟩
    · cases hst
      exact Function.update_self ..
    · have hheld := h.held c' q hq
      have hne : q ≠ p := by
        rintro rfl
        rw [hw] at hheld
        cases hheld
      rw [Function.update_of_ne hne]
      exact hheld

theorem Moves.unlock {s : DuckEngine} (h : s.Wellformed) {c : ℕ} {p : PondArc} (hc : (s.calls c).holds = some p) :
    s.Moves c .done (Function.update s.writer p none) where
  started := by
    intro hdone
    rw [hdone] at hc
    cases hc
  pond q hq := by cases hq
  holder q c' hq := by
    rcases Runs.of_update hq with ⟨-, hq⟩ | ⟨hqp, hq⟩
    · cases hq
    · have hholds := h.holder q c' hq
      have hne : c' ≠ c := by
        rintro rfl
        exact hqp (Option.some_inj.1 (hholds.symm.trans hc))
      rw [Function.update_of_ne hne]
      exact hholds
  held c' q hq := by
    rcases calls_update WriterStage.holds hq with ⟨-, hq⟩ | ⟨hcc, hq⟩
    · cases hq
    · have hheld := h.held c' q hq
      have hne : q ≠ p := by
        rintro rfl
        exact hcc (Option.some_inj.1 (hheld.symm.trans (h.held c q hc)))
      rw [Function.update_of_ne hne]
      exact hheld

theorem Wellformed.moves {s : DuckEngine} (h : s.Wellformed) {c : ℕ} {st : WriterStage} {w : PondArc → Option ℕ}
    (hm : s.Moves c st w) (snapshots : Text → ℕ) :
    Wellformed { s with calls := Function.update s.calls c st, writer := w, snapshots } where
  new c' hc' := by
    have hne : c' ≠ c := by
      rintro rfl
      exact hm.started (h.new c' hc')
    show Function.update s.calls c st c' = .done
    rw [Function.update_of_ne hne]
    exact h.new c' hc'
  opened c' p hp := by
    rcases calls_update WriterStage.pond hp with ⟨-, hp⟩ | ⟨-, hp⟩
    · exact h.opened c p (hm.pond p hp)
    · exact h.opened c' p hp
  cachedOpened := h.cachedOpened
  holder := hm.holder
  held := hm.held

theorem Kept.moves {s : DuckEngine} (h : s.Kept) {c : ℕ} {st : WriterStage} {w : PondArc → Option ℕ}
    (hm : s.Moves c st w) {snapshots : Text → ℕ}
    (hown : ∀ c' p before own, Function.update s.calls c st c' = .inWriteTxn p before own →
      snapshots p.catalogUri = before + own) :
    Kept { s with calls := Function.update s.calls c st, writer := w, snapshots } := by
  have hpond : ∀ c' p, (Function.update s.calls c st c').pond = some p → (s.calls c').pond = some p := by
    intro c' p hp
    rcases calls_update WriterStage.pond hp with ⟨rfl, hst⟩ | ⟨-, hp⟩
    · exact hm.pond p hst
    · exact hp
  refine { h.toWellformed.moves hm snapshots with same := ?_, cached := ?_, own := hown }
  · intro c₁ c₂ p p' hp hp' huri
    exact h.same c₁ c₂ p p' (hpond c₁ p hp) (hpond c₂ p' hp') huri
  · intro c' p q hp hq
    exact h.cached c' p q (hpond c' p hp) hq

/-- A stage outside the bracket changes no call's count. -/
theorem Kept.own_of_writes {s : DuckEngine} (h : s.Kept) {c : ℕ} {st : WriterStage} (hst : st.writes = none) (c' : ℕ)
    (p : PondArc) (before own : ℕ) (hc : Function.update s.calls c st c' = .inWriteTxn p before own) :
    s.snapshots p.catalogUri = before + own := by
  rcases Runs.of_update hc with ⟨-, hc⟩ | ⟨-, hc⟩
  · rw [hc] at hst
    cases hst
  · exact h.own c' p before own hc

/-- **A call goes on**: its next stage, who holds the mutexes then, and how many snapshots the ponds have. -/
inductive Goes (s : DuckEngine) : ℕ → WriterStage → (PondArc → Option ℕ) → (Text → ℕ) → Prop where
  | lock {c : ℕ} {p : PondArc} (hc : s.calls c = .looked p) (hw : s.writer p = none) :
    s.Goes c (.locked p) (Function.update s.writer p (some c)) s.snapshots
  | giveUp {c : ℕ} {p : PondArc} (hc : s.calls c = .looked p) : s.Goes c .done s.writer s.snapshots
  | beginWrite {c : ℕ} {p : PondArc} (hc : s.calls c = .locked p) :
    s.Goes c (.inWriteTxn p (s.snapshots p.catalogUri) 0) s.writer s.snapshots
  | publish {c : ℕ} {p : PondArc} {before own : ℕ} (hc : s.calls c = .inWriteTxn p before own) :
    s.Goes c (.inWriteTxn p before (own + 1)) s.writer
      (Function.update s.snapshots p.catalogUri (s.snapshots p.catalogUri + 1))
  | endWrite {c : ℕ} {p : PondArc} {before own : ℕ} (hc : s.calls c = .inWriteTxn p before own) :
    s.Goes c (.locked p) s.writer s.snapshots
  | unlock {c : ℕ} {p : PondArc} (hc : (s.calls c).holds = some p) :
    s.Goes c .done (Function.update s.writer p none) s.snapshots

/-- What a step is: a lookup, a pond that leaves the map, or a call that goes on. -/
theorem step_cases {s s' : DuckEngine} {l : Label} (hs : s.step l = some s') :
    (∃ uri limits opens takesWriter, l = .lookup uri limits opens takesWriter) ∨
    (∃ uri, s' = { s with ponds := Function.update s.ponds uri none }) ∨
    ∃ c st w snapshots, s.Goes c st w snapshots ∧
      s' = { s with calls := Function.update s.calls c st, writer := w, snapshots } := by
  cases l with
  | lookup uri limits opens takesWriter => exact .inl ⟨uri, limits, opens, takesWriter, rfl⟩
  | forgetPond uri =>
    cases hs
    exact .inr (.inl ⟨uri, rfl⟩)
  | lock c =>
    simp only [step] at hs
    split at hs
    · rename_i p hc
      split at hs
      · rename_i hw
        cases hs
        exact .inr (.inr ⟨_, _, _, _, .lock hc hw, rfl⟩)
      · cases hs
    · cases hs
  | giveUp c =>
    simp only [step] at hs
    split at hs
    · rename_i p hc
      cases hs
      exact .inr (.inr ⟨_, _, _, _, .giveUp hc, rfl⟩)
    · cases hs
  | beginWrite c =>
    simp only [step] at hs
    split at hs
    · rename_i p hc
      cases hs
      exact .inr (.inr ⟨_, _, _, _, .beginWrite hc, rfl⟩)
    · cases hs
  | publish c =>
    simp only [step] at hs
    split at hs
    · rename_i p before own hc
      cases hs
      exact .inr (.inr ⟨_, _, _, _, .publish hc, rfl⟩)
    · cases hs
  | endWrite c =>
    simp only [step] at hs
    split at hs
    · rename_i p before own hc
      cases hs
      exact .inr (.inr ⟨_, _, _, _, .endWrite hc, rfl⟩)
    · cases hs
  | unlock c =>
    simp only [step] at hs
    split at hs
    · rename_i p hc
      cases hs
      exact .inr (.inr ⟨_, _, _, _, .unlock hc, rfl⟩)
    · cases hs

/-- A lookup that goes through, with or without a call that goes on to the writer. -/
theorem lookup_cases {s s' : DuckEngine} {uri : Text} {limits : Option ResourceLimits} {opens takesWriter : Bool}
    (hs : s.step (.lookup uri limits opens takesWriter) = some s') :
    (∃ p, s.ponds uri = some p ∧ p.limits = limits ∧ (s' = s ∨ s' = s.start ⟨uri, p.opening⟩)) ∨
    (∃ t : DuckEngine, t = { s with
          ponds := Function.update s.ponds uri (some ⟨s.nextOpening, limits⟩), nextOpening := s.nextOpening + 1 } ∧
      s.Opens uri limits opens ∧ (s' = t ∨ s' = t.start ⟨uri, s.nextOpening⟩)) ∨
    (¬s.Opens uri limits opens ∧ s' = { s with ponds := Function.update s.ponds uri none }) := by
  rcases s.pond_cases uri limits opens with ⟨p, hp, hlim, hf⟩ | ⟨ho, hf⟩ | ⟨hno, hf⟩ <;> simp only [step, hf] at hs
  · refine .inl ⟨p, hp, hlim, ?_⟩
    cases takesWriter <;> cases hs
    · exact .inl rfl
    · exact .inr rfl
  · refine .inr (.inl ⟨_, rfl, ho, ?_⟩)
    cases takesWriter <;> cases hs
    · exact .inl rfl
    · exact .inr rfl
  · cases hs
    exact .inr (.inr ⟨hno, rfl⟩)

theorem Goes.moves {s : DuckEngine} (h : s.Wellformed) {c : ℕ} {st : WriterStage} {w : PondArc → Option ℕ}
    {snapshots : Text → ℕ} (hg : s.Goes c st w snapshots) : s.Moves c st w := by
  cases hg with
  | lock hc hw => exact .lock h hc hw
  | giveUp hc => exact .of_holds h (by simp [hc]) (fun _ hp => by cases hp) (by rw [hc]; rfl)
  | beginWrite hc => exact .of_holds h (by simp [hc]) (fun q hq => by rw [hc]; exact hq) (by rw [hc]; rfl)
  | publish hc => exact .of_holds h (by simp [hc]) (fun q hq => by rw [hc]; exact hq) (by rw [hc]; rfl)
  | endWrite hc => exact .of_holds h (by simp [hc]) (fun q hq => by rw [hc]; exact hq) (by rw [hc]; rfl)
  | unlock hc => exact .unlock h hc

/-- The calls in the bracket have counted the snapshots of their ponds, also behind the step. -/
theorem Goes.own {s : DuckEngine} (h : s.Kept) {c : ℕ} {st : WriterStage} {w : PondArc → Option ℕ} {snapshots : Text → ℕ}
    (hg : s.Goes c st w snapshots) (c' : ℕ) (p : PondArc) (before own : ℕ)
    (hc' : Function.update s.calls c st c' = .inWriteTxn p before own) : snapshots p.catalogUri = before + own := by
  cases hg with
  | lock hc hw => exact h.own_of_writes rfl c' p before own hc'
  | giveUp hc => exact h.own_of_writes rfl c' p before own hc'
  | endWrite hc => exact h.own_of_writes rfl c' p before own hc'
  | unlock hc => exact h.own_of_writes rfl c' p before own hc'
  | beginWrite hc =>
    rcases Runs.of_update hc' with ⟨-, hc'⟩ | ⟨-, hc'⟩
    · cases hc'
      rfl
    · exact h.own c' p before own hc'
  | @publish q _ _ hc =>
    rcases Runs.of_update hc' with ⟨-, hc'⟩ | ⟨hcc, hc'⟩
    · cases hc'
      have hown := h.own c p _ _ hc
      rw [Function.update_self]
      omega
    · -- another call in the bracket is on another pond
      have huri : p.catalogUri ≠ q.catalogUri := by
        intro huri
        exact hcc (h.oneWriter.alone c' c p q (by rw [hc']; rfl) (by rw [hc]; rfl) huri)
      rw [Function.update_of_ne huri]
      exact h.own c' p before own hc'

theorem step_wellformed {s s' : DuckEngine} {l : Label} (h : s.Wellformed) (hs : s.step l = some s') :
    s'.Wellformed := by
  rcases step_cases hs with ⟨uri, limits, opens, takesWriter, rfl⟩ | ⟨uri, rfl⟩ | ⟨c, st, w, snapshots, hg, rfl⟩
  · rcases lookup_cases hs with ⟨p, hp, -, rfl | rfl⟩ | ⟨t, rfl, -, rfl | rfl⟩ | ⟨-, rfl⟩
    · exact h
    · exact h.start (h.cachedOpened uri p hp)
    · exact h.openPond uri limits
    · exact (h.openPond uri limits).start (Nat.lt_succ_self _)
    · exact h.forget uri
  · exact h.forget uri
  · exact h.moves (hg.moves h) snapshots

/-- **One step** keeps the invariant, if it is guarded. -/
theorem step_kept {s s' : DuckEngine} {l : Label} (h : s.Kept) (hl : s.Guarded l) (hs : s.step l = some s') :
    s'.Kept := by
  rcases step_cases hs with ⟨uri, limits, opens, takesWriter, rfl⟩ | ⟨uri, rfl⟩ | ⟨c, st, w, snapshots, hg, rfl⟩
  · rcases lookup_cases hs with ⟨p, hp, -, rfl | rfl⟩ | ⟨t, rfl, ho, rfl | rfl⟩ | ⟨-, rfl⟩
    · exact h
    · refine h.start (h.cachedOpened uri p hp) ?_ ?_
      · rintro c ⟨uri', opening⟩ hc (rfl : uri' = uri)
        rw [h.cached c _ p hc hp]
      · intro q hq
        rw [hp] at hq
        cases hq
        rfl
    · exact h.openPond limits (hl ho)
    · refine (h.openPond limits (hl ho)).start (Nat.lt_succ_self _) ?_ ?_
      · intro c q hc huri
        exact absurd huri (hl ho c q hc)
      · intro q hq
        have hq' : Function.update s.ponds uri (some ⟨s.nextOpening, limits⟩) uri = some q := hq
        rw [Function.update_self] at hq'
        cases hq'
        rfl
    · exact h.forget uri
  · exact h.forget uri
  · exact h.moves (hg.moves h.toWellformed) (hg.own h)

/-! ### Two writers -/

/-- A call that is at the lock, and finds it free, comes into the bracket. -/
theorem enters {s : DuckEngine} {c : ℕ} {p : PondArc} (hc : s.calls c = .looked p) (hw : s.writer p = none) :
    ∃ u, Runs.run step s [.lock c, .beginWrite c] = some u ∧ (u.calls c).writes = some p ∧
      (∀ c', c' ≠ c → u.calls c' = s.calls c') ∧ ∀ q, q ≠ p → u.writer q = s.writer q := by
  have hlock : s.step (.lock c) = some ((s.setStage c (.locked p)).setWriter p (some c)) := by simp [step, hc, hw]
  have hbegin : ((s.setStage c (.locked p)).setWriter p (some c)).step (.beginWrite c) =
      some (((s.setStage c (.locked p)).setWriter p (some c)).setStage c
        (.inWriteTxn p (s.snapshots p.catalogUri) 0)) := by
    simp [step, setStage, setWriter]
  refine ⟨_, Runs.run_cons.2 ⟨_, hlock, Runs.run_cons.2 ⟨_, hbegin, rfl⟩⟩, ?_, ?_, ?_⟩
  · simp [setStage, WriterStage.writes]
  · intro c' hne
    simp [setStage, setWriter, hne]
  · intro q hne
    exact Function.update_of_ne hne ..

theorem enters_guarded (c : ℕ) : ∀ l ∈ [Label.lock c, Label.beginWrite c], ∀ t, Guarded t l := by
  simp [Guarded]

/-- A call in the bracket, and one that has locked the writer of another opening of the pond. -/
theorem clash {s : DuckEngine} {c d : ℕ} {p q : PondArc} (hd : (s.calls d).writes = some q)
    (hc : (s.calls c).holds = some p) (hne : c ≠ d) (huri : p.catalogUri = q.catalogUri) :
    ∃ ks u, (∀ l ∈ ks, ∀ t, Guarded t l) ∧ Runs.run step s ks = some u ∧ ¬u.OneWriter := by
  cases hst : s.calls c with
  | looked p' =>
    rw [hst] at hc
    cases hc
  | locked p' =>
    rw [hst] at hc
    cases hc
    refine ⟨[.beginWrite c], s.setStage c (.inWriteTxn p (s.snapshots p.catalogUri) 0), ?_, ?_, ?_⟩
    · simp [Guarded]
    · simp [Runs.run_cons, step, hst]
    · intro h
      refine hne (h.alone c d p q ?_ ?_ huri)
      · simp [setStage, WriterStage.writes]
      · simp only [setStage, Function.update_of_ne hne.symm]
        exact hd
  | inWriteTxn p' before own =>
    rw [hst] at hc
    cases hc
    refine ⟨[], s, by simp, rfl, ?_⟩
    intro h
    exact hne (h.alone c d p q (by rw [hst]; rfl) hd huri)
  | done =>
    rw [hst] at hc
    cases hc

/-- A call with an opening of a pond, of which another opening is cached, whose writer is free. -/
theorem second_writer {s : DuckEngine} (h : s.Wellformed) {c : ℕ} {p : PondArc} {q : CachedPond}
    (hc : (s.calls c).pond = some p) (hq : s.ponds p.catalogUri = some q) (hne : q.opening ≠ p.opening)
    (hw : s.writer ⟨p.catalogUri, q.opening⟩ = none) :
    ∃ ks u, Runs.Careful step Guarded s ks ∧ Runs.run step s ks = some u ∧ ¬u.OneWriter := by
  -- a new call finds the cached opening, and comes into the bracket
  have hcd : c ≠ s.nextCall := by
    rintro rfl
    rw [h.new s.nextCall le_rfl] at hc
    cases hc
  have hstep : s.step (.lookup p.catalogUri q.limits true true) = some (s.start ⟨p.catalogUri, q.opening⟩) := by
    simp [step, pond, hq]
  have hguard : s.Guarded (.lookup p.catalogUri q.limits true true) := fun ho => absurd rfl (ho.2 q hq)
  have ht := step_wellformed h hstep
  obtain ⟨u, hu, hwrites, hcalls, -⟩ :=
    enters (s := s.start ⟨p.catalogUri, q.opening⟩) (c := s.nextCall) (Function.update_self ..) hw
  have hstartCalls : ∀ c', c' ≠ s.nextCall → u.calls c' = s.calls c' := by
    intro c' hc'
    rw [hcalls c' hc']
    exact Function.update_of_ne hc' ..
  have huw : u.Wellformed := Runs.run_invariant (fun _ _ _ => step_wellformed) ht hu
  -- it is enough to go on from there
  suffices hgoal : ∃ ks v, (∀ l ∈ ks, ∀ t, Guarded t l) ∧ Runs.run step u ks = some v ∧ ¬v.OneWriter by
    obtain ⟨ks, v, hks, hv, hnot⟩ := hgoal
    refine ⟨.lookup p.catalogUri q.limits true true :: ([.lock s.nextCall, .beginWrite s.nextCall] ++ ks), v, ?_, ?_, hnot⟩
    · intro t' ht'
      rw [hstep] at ht'
      cases ht'
      refine ⟨hguard, Runs.careful_of_forall ?_⟩
      intro l hl t
      rcases List.mem_append.1 hl with hl | hl
      · exact enters_guarded s.nextCall l hl t
      · exact hks l hl t
    · exact Runs.run_cons.2 ⟨_, hstep, Runs.run_append.2 ⟨u, hu, hv⟩⟩
  have hpq : p ≠ ⟨p.catalogUri, q.opening⟩ := by
    intro heq
    exact hne (congrArg PondArc.opening heq).symm
  have huc : (u.calls c).pond = some p := by
    rw [hstartCalls c hcd]
    exact hc
  cases hst : u.calls c with
  | looked p' =>
    rw [hst] at huc
    cases huc
    cases hup : u.writer p with
    | none =>
      obtain ⟨v, hv, hvc, hvcalls, -⟩ := enters hst hup
      refine ⟨_, v, enters_guarded c, hv, ?_⟩
      · intro hone
        refine hcd (hone.alone c s.nextCall p ⟨p.catalogUri, q.opening⟩ hvc ?_ rfl)
        rw [hvcalls s.nextCall hcd.symm]
        exact hwrites
    | some c' =>
      have hholds := huw.holder p c' hup
      refine clash (p := p) hwrites hholds ?_ rfl
      rintro rfl
      rw [WriterStage.holds_of_writes hwrites, Option.some_inj] at hholds
      exact hpq hholds.symm
  | locked p' =>
    rw [hst] at huc
    cases huc
    exact clash (p := p) hwrites (by rw [hst]; rfl) hcd rfl
  | inWriteTxn p' before own =>
    rw [hst] at huc
    cases huc
    exact clash (p := p) hwrites (by rw [hst]; rfl) hcd rfl
  | done =>
    rw [hst] at huc
    cases huc

/-- A step that opens a pond over a call that goes on with an older opening. -/
theorem step_careless {s s' : DuckEngine} {l : Label} (h : s.Wellformed) (hl : ¬s.Guarded l) (hs : s.step l = some s') :
    ∃ ks u, Runs.Careful step Guarded s' ks ∧ Runs.run step s' ks = some u ∧ ¬u.OneWriter := by
  have h' := step_wellformed h hs
  cases l with
  | lookup uri limits opens takesWriter =>
    simp only [Guarded, Classical.not_imp, not_forall, not_not] at hl
    obtain ⟨ho, c, p, hc, rfl⟩ := hl
    have hold : p.opening < s.nextOpening := h.opened c p hc
    have hfree : s.writer ⟨p.catalogUri, s.nextOpening⟩ = none := by
      cases hw : s.writer ⟨p.catalogUri, s.nextOpening⟩ with
      | none => rfl
      | some c' =>
        have hlt := h.opened c' _ (WriterStage.pond_of_holds (h.holder _ c' hw))
        exact absurd hlt (Nat.lt_irrefl _)
    rcases lookup_cases hs with ⟨q, hq, hlim, -⟩ | ⟨t, rfl, -, rfl | rfl⟩ | ⟨hno, -⟩
    · exact absurd hlim (ho.2 q hq)
    · refine second_writer h' hc (Function.update_self ..) ?_ hfree
      exact fun heq => absurd (heq ▸ hold) (Nat.lt_irrefl _)
    · refine second_writer (c := c) (p := p) h' ?_ (Function.update_self ..) ?_ hfree
      · have hcd : c ≠ s.nextCall := by
          rintro rfl
          rw [h.new s.nextCall le_rfl] at hc
          cases hc
        show (Function.update s.calls s.nextCall _ c).pond = some p
        rw [Function.update_of_ne hcd]
        exact hc
      · exact fun heq => absurd (heq ▸ hold) (Nat.lt_irrefl _)
    · exact absurd ho hno
  | _ => exact absurd trivial hl

/-- **One writer** in every state of the runs that open no pond over a call with an older opening of it; and
a step that does can be followed by steps that do not, and two writers. -/
theorem one_writer (ls : List Label) :
    (Runs.Careful step Guarded new ls → Runs.Always step OneWriter new ls) ∧
    ∀ s l s', Runs.run step new ls = some s → s.step l = some s' → ¬s.Guarded l →
      ∃ ks u, Runs.Careful step Guarded s' ks ∧ Runs.run step s' ks = some u ∧ ¬u.OneWriter := by
  constructor
  · exact Runs.always_of_careful (fun _ _ _ => step_kept) (fun _ => Kept.oneWriter) kept_new
  · intro s l s' hrun hs hl
    exact step_careless (Runs.run_invariant (fun _ _ _ => step_wellformed) wellformed_new hrun) hl hs

/-- A write on a pond, a call with other limits, and the second call's write over the first one's. -/
def retierRun (uri : Text) (small large : Option ResourceLimits) : List Label :=
  [.lookup uri small true true, .lock 0, .beginWrite 0, .lookup uri large true true, .lock 1, .beginWrite 1, .publish 0]

/-- **Two writers** on a pond that is re-tiered during a write, one of which counts the other's snapshot. -/
theorem retier_two_writers :
    (∃ s, Runs.run step new (retierRun [] (some ⟨1, 1⟩) (some ⟨2, 2⟩)) = some s ∧
      s.calls 0 = .inWriteTxn ⟨[], 0⟩ 0 1 ∧ s.calls 1 = .inWriteTxn ⟨[], 1⟩ 0 0 ∧ s.snapshots [] = 1) ∧
    ¬∀ ls, Runs.Always step OneWriter new ls := by
  have hrun : ∃ s, Runs.run step new (retierRun [] (some ⟨1, 1⟩) (some ⟨2, 2⟩)) = some s ∧
      s.calls 0 = .inWriteTxn ⟨[], 0⟩ 0 1 ∧ s.calls 1 = .inWriteTxn ⟨[], 1⟩ 0 0 ∧ s.snapshots [] = 1 :=
    ⟨_, rfl, rfl, rfl, rfl⟩
  refine ⟨hrun, ?_⟩
  intro h
  obtain ⟨s, hs, h0, h1, -⟩ := hrun
  have hone := ((h _).last hs).alone 0 1 ⟨[], 0⟩ ⟨[], 1⟩ (by rw [h0]; rfl) (by rw [h1]; rfl) rfl
  cases hone

end DuckEngine

end Latiq.EngineDuckdb
