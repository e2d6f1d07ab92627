import Latiq.EngineDuckdb.ReadPool

/-!
# Stopping an operation

An operation that runs a caller's SQL waits, in turn, for the engine's map, for the pond's
writer or a read connection, and for its statement. Each of these waits looks at the
token in its own way: the queue for the writer polls it (in `write_query`), a running statement is
interrupted by its watcher, and the others do not look at it.

## The model

* `QueryTimeouts` — the node's policy.
* `Operation`, `Others` — an operation, with how its own steps turn out, and what others hold.
* `next` — the next step of an operation whose token is cancelled; `none` where it waits for somebody else, or
  runs on without end.

## What is proved

* `next_none` — an operation stops short only in a wait that does not look at the token.
* `stops_iff` — an operation is in the registry, its token is cancelled by the node's maximum, and then its own steps
  finish it: exactly when it is a query or a streamed read, and comes to no wait
  that does not look at the token and that others, or the work itself, keep up.
* `cancelled_reader_waits` — a cancelled query in the queue of the read pool, and a catalog pull.
-/

namespace Latiq.AgentCore

open Latiq.EngineDuckdb

/-! ### The deadline -/

/-- `QueryTimeouts`, as `QueryTimeouts::new` lets it be. -/
structure QueryTimeouts where
  defaultMs : ℕ
  maxMs : ℕ
  default_pos : 0 < defaultMs
  default_le : defaultMs ≤ maxMs

/-- `effective`. -/
def QueryTimeouts.effective (t : QueryTimeouts) : Option ℕ → ℕ
  | none | some 0 => t.defaultMs
  | some ms => min ms t.maxMs

/-- **Every deadline** is within the node's maximum. -/
theorem QueryTimeouts.effective_le (t : QueryTimeouts) (requested : Option ℕ) : t.effective requested ≤ t.maxMs := by
  unfold effective
  split
  · exact t.default_le
  · exact t.default_le
  · exact Nat.min_le_right _ _

/-! ### Operations -/

/-- The operations that run a caller's SQL, or attach a catalog that the caller chose. -/
inductive OpKind where
  | readQuery
  | writeQuery
  | readArrow
  | explainQuery
  | catalogPull
  | catalogDescribe
  deriving DecidableEq, Repr

/-- `run_query_local` and `read_arrow_local` register, arm a deadline, and run under a watcher. -/
def OpKind.registers : OpKind → Bool
  | .readQuery | .writeQuery | .readArrow => true
  | _ => false

def OpKind.takesWriter : OpKind → Bool
  | .writeQuery | .catalogPull | .catalogDescribe => true
  | _ => false

def OpKind.attaches : OpKind → Bool
  | .catalogPull | .catalogDescribe => true
  | _ => false

/-- What a piece of work does when nobody stops it. -/
inductive Work where
  | ends (ok : Bool)
  | endless
  deriving DecidableEq, Repr

/-- An operation, with how its steps turn out. -/
structure Operation where
  kind : OpKind
  requestedMs : Option ℕ
  /-- The pond records lineage. -/
  lineage : Bool
  /-- `Pond::open` succeeds, if the pond is to be opened. -/
  opens : Bool
  clones : Bool
  attach : Work
  statement : Work
  /-- The statement ends before the interrupt reaches it. -/
  beatsInterrupt : Bool
  /-- The binding of the statement for its datasets. -/
  extraction : Work
  deriving DecidableEq, Repr

/-- What the other operations of the node leave of what it waits for. -/
structure Others where
  /-- Nobody holds the engine's map (it is held while a pond is opened). -/
  mapFree : Bool
  writerFree : Bool
  /-- Nobody holds the connection that read connections are cloned from. -/
  sourceFree : Bool
  pool : ReadPool

/-- The states of an operation in the engine. `extracting` is so for a write that has failed, and whose datasets are
being extracted (`QueryEngine::plan_datasets`). -/
inductive Where where
  | lookingUp (extracting : Bool)
  | queuedWriter
  | queuedRead (extracting : Bool)
  | cloning (extracting : Bool)
  | attaching
  | executing
  | binding
  | done
  deriving DecidableEq, Repr

section

variable (o : Others) (op : Operation)

/-- Where a failure leads: a write on a pond with lineage looks for its datasets. -/
def Operation.failed : Where := if op.kind = .writeQuery ∧ op.lineage = true then .lookingUp true else .done

/-- With a read connection in hand. -/
def connected : Bool → Where
  | true => .binding
  | false => .executing

/-- Without one. -/
def Operation.refused : Bool → Where
  | true => .done
  | false => op.failed

/-- The next step of an operation whose token, if it has one, is cancelled. -/
def next : Where → Option Where
  | .lookingUp extracting =>
    if o.mapFree then
      if op.opens then
        some (if extracting then .queuedRead true else if op.kind.takesWriter then .queuedWriter else .queuedRead false)
      else some (op.refused extracting)
    else none
  | .queuedWriter =>
    -- `lock_writer` tries the lock before it looks at the token; the catalog operations have no token to look at
    if o.writerFree then some (if op.kind.attaches then .attaching else .executing)
    else if op.kind = .writeQuery then some op.failed
    else none
  | .queuedRead extracting =>
    match o.pool.pass.2 with
    | .got _ => some (connected extracting)
    | .slot => some (.cloning extracting)
    | .wait => none
  | .cloning extracting =>
    if o.sourceFree then some (if op.clones then connected extracting else op.refused extracting) else none
  | .attaching =>
    match op.attach with
    | .ends true => some .executing
    | .ends false => some .done
    | .endless => none
  | .executing =>
    match op.statement with
    | .ends ok =>
      if op.kind.registers && !op.beatsInterrupt then some op.failed else some (if ok then .done else op.failed)
    | .endless => if op.kind.registers then some op.failed else none
  | .binding =>
    match op.extraction with
    | .ends _ => some .done
    | .endless => none
  | .done => none

/-- The operation waits without looking at the token, and what it waits for does not come by itself. -/
def Blocked : Where → Prop
  | .lookingUp _ => o.mapFree = false
  | .queuedWriter => o.writerFree = false ∧ op.kind ≠ .writeQuery
  | .queuedRead _ => o.pool.pass.2 = .wait
  | .cloning _ => o.sourceFree = false
  | .attaching => op.attach = .endless
  | .executing => op.statement = .endless ∧ op.kind.registers = false
  | .binding => op.extraction = .endless
  | .done => False

/-- The entry of the operation in the in-flight registry, with the time after which its token is cancelled. -/
def Operation.deadline (t : QueryTimeouts) : Option ℕ :=
  if op.kind.registers then some (t.effective op.requestedMs) else none

/-- **Stopping reaches it**: it has an entry, its token is cancelled within the node's maximum, and then its own steps
finish it. -/
def Stops (t : QueryTimeouts) (st : Where) : Prop :=
  ∃ ms, op.deadline t = some ms ∧ ms ≤ t.maxMs ∧ Runs.Comes (next o op) st .done

variable {o op}

/-- **Stopping short**: where an operation has no next step, it is done, or waits blindly. -/
theorem next_none {st : Where} : next o op st = none ↔ st = .done ∨ Blocked o op st := by
  cases st with
  | lookingUp extracting =>
    cases hm : o.mapFree <;> cases ho : op.opens <;> simp [next, Blocked, hm, ho]
  | queuedWriter =>
    cases hw : o.writerFree <;> by_cases hk : op.kind = .writeQuery <;> simp [next, Blocked, hw, hk]
  | queuedRead extracting =>
    cases hp : o.pool.pass.2 <;> simp [next, Blocked, hp]
  | cloning extracting =>
    cases hs : o.sourceFree <;> simp [next, Blocked, hs]
  | attaching =>
    rcases ha : op.attach with (_ | _) | _ <;> simp [next, Blocked, ha]
  | executing =>
    cases hs : op.statement with
    | ends ok => by_cases hr : (op.kind.registers && !op.beatsInterrupt) = true <;> simp [next, Blocked, hs, hr]
    | endless => cases hr : op.kind.registers <;> simp [next, Blocked, hs, hr]
  | binding =>
    cases he : op.extraction <;> simp [next, Blocked, he]
  | done => simp [next]

/-- How far a state is from the end. -/
def Where.rank : Where → ℕ
  | .lookingUp false => 8
  | .queuedWriter | .queuedRead false => 7
  | .cloning false | .attaching => 6
  | .executing => 5
  | .lookingUp true => 4
  | .queuedRead true => 3
  | .cloning true => 2
  | .binding => 1
  | .done => 0

theorem failed_rank : op.failed.rank ≤ 4 := by
  unfold Operation.failed
  split <;> simp [Where.rank]

theorem refused_rank (extracting : Bool) : (op.refused extracting).rank < (Where.cloning extracting).rank := by
  have hfailed := @failed_rank op
  cases extracting with
  | true => simp [Operation.refused, Where.rank]
  | false => exact Nat.lt_of_le_of_lt hfailed (by decide)

theorem connected_rank (extracting : Bool) : (connected extracting).rank < (Where.cloning extracting).rank := by
  cases extracting <;> simp [connected, Where.rank]

theorem cloning_rank (extracting : Bool) : (Where.cloning extracting).rank < (Where.queuedRead extracting).rank := by
  cases extracting <;> simp [Where.rank]

/-- **Each step** brings the operation nearer to its end. -/
theorem next_rank {st st' : Where} (h : next o op st = some st') : st'.rank < st.rank := by
  have hfailed := @failed_rank op
  cases st with
  | lookingUp extracting =>
    have hrefused := @refused_rank op extracting
    simp only [next] at h
    split at h
    · split at h
      · cases h
        cases extracting with
        | true => simp [Where.rank]
        | false => by_cases hw : op.kind.takesWriter = true <;> simp [hw, Where.rank]
      · cases h
        cases extracting <;> simp only [Where.rank] at hrefused ⊢ <;> omega
    · cases h
  | queuedWriter =>
    simp only [next] at h
    split at h
    · cases h
      split <;> simp [Where.rank]
    · split at h
      · cases h
        exact Nat.lt_of_le_of_lt hfailed (by decide)
      · cases h
  | queuedRead extracting =>
    have hconn := connected_rank extracting
    have hcl := cloning_rank extracting
    simp only [next] at h
    split at h
    · cases h
      omega
    · cases h
      exact hcl
    · cases h
  | cloning extracting =>
    simp only [next] at h
    split at h
    · cases h
      split
      · exact connected_rank extracting
      · exact refused_rank extracting
    · cases h
  | attaching =>
    simp only [next] at h
    split at h <;> cases h <;> simp [Where.rank]
  | executing =>
    have hlt : op.failed.rank < Where.executing.rank := Nat.lt_of_le_of_lt hfailed (by decide)
    simp only [next] at h
    split at h
    · split at h
      · cases h
        exact hlt
      · cases h
        split
        · simp [Where.rank]
        · exact hlt
    · split at h
      · cases h
        exact hlt
      · cases h
  | binding =>
    simp only [next] at h
    split at h <;> cases h
    simp [Where.rank]
  | done => cases h

/-- **It finishes by itself** exactly when it comes to no blind wait. -/
theorem finishes_iff {st : Where} :
    Runs.Comes (next o op) st .done ↔ ∀ st', Runs.Comes (next o op) st st' → ¬Blocked o op st' := by
  rw [Runs.comes_iff (fun _ _ => next_rank) rfl]
  constructor
  · intro h st' hst' hblocked
    have hdone := h st' hst' (next_none.2 (.inr hblocked))
    subst hdone
    exact hblocked
  · intro h st' hst' hnone
    rcases next_none.1 hnone with hdone | hblocked
    · exact hdone
    · exact absurd hblocked (h st' hst')

/-- **Stopping reaches an operation** exactly when it registers, and comes to no blind wait. -/
theorem stops_iff (t : QueryTimeouts) (o : Others) (op : Operation) (st : Where) :
    Stops o op t st ↔ op.kind.registers = true ∧ ∀ st', Runs.Comes (next o op) st st' → ¬Blocked o op st' := by
  rw [← finishes_iff]
  unfold Stops Operation.deadline
  constructor
  · rintro ⟨ms, hms, -, hdone⟩
    split at hms
    · rename_i hr
      exact ⟨hr, hdone⟩
    · cases hms
  · rintro ⟨hr, hdone⟩
    rw [if_pos hr]
    exact ⟨_, rfl, t.effective_le op.requestedMs, hdone⟩

/-- A write on a pond without lineage stops in the queue for the writer, and while it runs, whatever others do. -/
theorem write_stops (t : QueryTimeouts) (o : Others) {op : Operation} (hk : op.kind = .writeQuery)
    (hl : op.lineage = false) : Stops o op t .queuedWriter ∧ Stops o op t .executing := by
  have hr : op.kind.registers = true := by rw [hk]; rfl
  have hfailed : op.failed = .done := by simp [Operation.failed, hl]
  have hexec : Runs.Comes (next o op) .executing .done := by
    refine .single ?_
    cases hs : op.statement with
    | ends ok => cases ok <;> simp [next, hs, hfailed]
    | endless => simp [next, hs, hr, hfailed]
  have hqueued : Runs.Comes (next o op) .queuedWriter .done := by
    cases hw : o.writerFree with
    | true => exact .head (by simp [next, hw, hk, OpKind.attaches]) hexec
    | false => exact .single (by simp [next, hw, hk, hfailed])
  rw [stops_iff, stops_iff, ← finishes_iff, ← finishes_iff]
  exact ⟨⟨hr, hqueued⟩, hr, hexec⟩

/-- A pool of four connections, all of them with other readers. -/
def fullPool : Others := ⟨true, true, true, ⟨⟨[], 4⟩, 4⟩⟩

/-- An operation for which all goes well. -/
def plainOperation (kind : OpKind) : Operation :=
  ⟨kind, none, false, true, true, .ends true, .ends true, true, .ends true⟩

/-- **Out of reach**: a cancelled query that waits for a read connection, and a catalog pull anywhere. -/
theorem cancelled_reader_waits :
    (∀ t, ¬Stops fullPool (plainOperation .readQuery) t (.queuedRead false)) ∧
    (∀ t o st, ¬Stops o (plainOperation .catalogPull) t st) ∧ ¬∀ t o op st, Stops o op t st := by
  have hread : ∀ t, ¬Stops fullPool (plainOperation .readQuery) t (.queuedRead false) := by
    intro t h
    exact ((stops_iff t _ _ _).1 h).2 _ .refl rfl
  refine ⟨hread, ?_, ?_⟩
  · intro t o st h
    cases ((stops_iff t o _ st).1 h).1
  · intro h
    exact hread ⟨1, 1, by decide, by decide⟩ (h _ _ _ _)

end

end Latiq.AgentCore
