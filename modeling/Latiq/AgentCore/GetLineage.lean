import Latiq.AgentCore.Trail

/-!
# Reading what was just written

`get_lineage` flushes the pond's writer and then reads its directory. The flush writes what it takes out of the
buffer; what an earlier flush took and has not written yet it does not wait for.

## The model

* `Ended`, `Call`, `PondLineage` — the queries of a pond that have ended, the calls of `get_lineage`, and the trail they share.
* `LineageAct`, `step` — a query ends or returns, a flush gets further, a call starts, flushes or lists the directory. Every
  write and every rename succeeds.

## What is proved

* `Writing.visible_iff` — what is no longer in the buffer is visible, or in progress, or evicted.
* `reads_its_writes_iff` — in every state of a run each call shows the events of every query that had returned when it
  started, in exactly the runs in which no call lists the directory while such an event is in a batch in progress or
  evicted.
* `two_calls` — a call that starts while another one's flush is writing.
-/

namespace Latiq.AgentCore

open RustStr (Text)
open Serde (Value)
open Latiq.Lineage
open Window

/-! ### What a page shows -/

section

variable {τ : Type} [LinearOrder τ] {dec : Decoder τ} {ch : Chrono τ} {files : List BatchFile}

/-- A page that is not truncated has all that matches. -/
theorem events_of_not_truncated {cap : ℕ} {d : Dir} {req : PageRequest} {page : EventPage}
    (h : readNewestWithin dec cap d req = .ok page) (ht : page.truncated = false) :
    ∃ all, matchingEvents dec d req = .ok (all, false) ∧ page.events = all.map Prod.fst := by
  obtain ⟨all, older, hm⟩ := matchingEvents_of_page h
  obtain ⟨page', hpage, htrunc, hevents⟩ := readNewestWithin_ok hm
  obtain rfl := Except.ok.inj (hpage.symm.trans h)
  rw [ht] at htrunc
  obtain ⟨rfl, hleft⟩ := Bool.or_eq_false_iff.1 htrunc.symm
  have hnone : (fill (Fits req.clamped cap) [] all).2 = none := by simpa using hleft
  rw [hnone] at hevents
  exact ⟨all, hm, hevents⟩

/-- What a reader of these files is shown of a line: it is in one of them, and its event is left out of the events that
match a request, and of a page that is not truncated, for the bounds of the request only. -/
structure Seen (dec : Decoder τ) (files : List BatchFile) (l : Line) : Prop where
  visible : ∃ f ∈ files, l ∈ f.batch
  shown : ∃ e, decodeLine dec l.text = some e ∧ ∀ d, Listing files d → ∀ req since before,
    parseBound dec "since" req.since = .ok since → parseBound dec "before" req.before = .ok before →
    selected dec e.1 since before = true →
      (∀ all, matchingEvents dec d req = .ok (all, false) → e ∈ all) ∧
        ∀ page, readNewest dec d req = .ok page → page.truncated = false → e.1 ∈ page.events

/-- What matches is read from all files where there are no older batches. -/
theorem few_of_matchingEvents {d : Dir} (hl : Listing files d) {req : PageRequest} {all : List (Value × ℕ)}
    (h : matchingEvents dec d req = .ok (all, false)) : files.length ≤ maxFiles := by
  obtain ⟨names, hes, hperm⟩ := hl.entries
  obtain ⟨es, -, -, hes', -, -, hold, -⟩ := bounds_of_matchingEvents h
  obtain rfl : names.map some = es := Option.some.inj (hes.symm.trans hes')
  have hnames : batchNames (names.map some) = names.filter isBatch := by
    unfold batchNames
    rw [List.filterMap_map]
    exact congrArg _ List.filterMap_some
  rw [hnames, hperm.length_eq, List.length_map] at hold
  exact not_lt.1 (of_decide_eq_false hold.symm)

/-- **A line of a visible file is shown.** -/
theorem seen_of_mem (hw : Wellformed dec ch files) {f : BatchFile} (hf : f ∈ files) {l : Line} (hl : l ∈ f.batch) :
    Seen dec files l := by
  obtain ⟨t, ht⟩ := hw.readable f hf l hl
  obtain ⟨v, hv, -⟩ := decodeLine_of_readsAs ht
  refine ⟨⟨f, hf, hl⟩, _, hv, fun d hd req since before hs hb hsel => ?_⟩
  have hall : ∀ all, matchingEvents dec d req = .ok (all, false) → (v, utf8Len l.text) ∈ all := by
    intro all h
    rw [matchingEvents_eq hd (few_of_matchingEvents hd h) req hs hb] at h
    obtain rfl := (Prod.mk.inj (Except.ok.inj h)).1
    refine List.mem_filter.2 ⟨?_, hsel⟩
    unfold trailOf
    rw [List.mem_reverse, List.mem_flatMap]
    refine ⟨f.name, (List.mem_insertionSort (r := (· ≤ ·))).2 (List.mem_map_of_mem hf), ?_⟩
    rw [readable_eq hd hf (hw.readable f hf)]
    exact List.mem_filterMap.2 ⟨l, hl, hv⟩
  refine ⟨hall, fun page hpage ht => ?_⟩
  obtain ⟨all, hm, hevents⟩ := events_of_not_truncated hpage ht
  rw [hevents]
  exact List.mem_map_of_mem (hall all hm)

end

/-! ### What leaves the buffer -/

section Buffer

variable {ρ : Type} {w : LineageWriter} {toJson : ρ → Option Text} {s s' : Writing}

/-- What is no longer in the buffer is in one other place. -/
theorem visible_iff (h : w.Inv s) {l : Line} (hl : l ∈ s.recorded) (hb : l ∉ s.buffer.events) :
    l ∈ s.visible ↔ l ∉ s.inProgress ∧ l ∉ s.evicted := by
  have hcount := h.counted l
  have hone : s.recorded.count l = 1 := List.count_eq_one_of_mem h.nodup hl
  have hzero : s.buffer.events.count l = 0 := List.count_eq_zero_of_not_mem hb
  unfold Writing.copies at hcount
  rw [← List.count_pos_iff, ← List.count_eq_zero, ← List.count_eq_zero]
  omega

/-- Nothing comes back into the buffer but by a requeue. -/
theorem not_mem_buffer_step (h : w.Inv s) {act : Act ρ} (hact : ∀ i, act ≠ .requeue i)
    (hstep : w.step toJson s act = some s') {l : Line} (hl : l ∈ s.recorded) (hb : l ∉ s.buffer.events) :
    l ∉ s'.buffer.events := by
  cases act with
  | bufferAll events =>
    cases hstep
    rcases w.bufferAll_eq toJson s events with heq | ⟨-, lines, hlines, heq⟩
    · rwa [heq]
    · rw [heq]
      intro hmem
      have hsub : l ∈ s.buffer.events ++ lines := by
        refine List.mem_of_mem_drop (i := (s.buffer.events ++ lines).length - w.capacity) ?_
        have hev := w.enforceCapacity_events { s.buffer with events := s.buffer.events ++ lines }
        exact hev ▸ hmem
      rcases List.mem_append.1 hsub with hold | hnew
      · exact hb hold
      · have hge : s.recorded.length ≤ l.seq := le_seq_of_mem_numbered (hlines ▸ hnew)
        have hlt := h.seq_lt hl
        omega
  | take millis =>
    cases hstep
    rcases Writing.take_eq s millis with ⟨-, heq⟩ | ⟨-, heq⟩
    · rwa [heq]
    · rw [heq]
      exact List.not_mem_nil
  | write i id ok =>
    obtain ⟨f, -, -, -, rfl⟩ := LineageWriter.write_eq_some hstep
    exact hb
  | rename i ok => obtain ⟨f, id, -, -, ⟨-, rfl⟩ | ⟨-, rfl⟩⟩ := Writing.rename_eq_some hstep <;> exact hb
  | requeue i => exact absurd rfl (hact i)

theorem recorded_step {act : Act ρ} (hstep : w.step toJson s act = some s') {l : Line} (hl : l ∈ s.recorded) :
    l ∈ s'.recorded := by
  rcases LineageWriter.step_recorded hstep with heq | ⟨events, -, heq⟩
  · rwa [heq]
  · rw [heq]
    exact List.mem_append_left _ hl

theorem bufferAll_recorded (hdir : w.dir.isSome) (events : List ρ) :
    (w.bufferAll toJson s events).1.recorded = s.recorded ++ numbered s.recorded.length (events.filterMap toJson) := by
  unfold LineageWriter.bufferAll
  split_ifs with h
  · have hnil : events = [] := by
      rcases h with h | h
      · exact List.isEmpty_iff.1 h
      · exact absurd hdir (by simpa using h)
    rw [hnil, List.filterMap_nil, numbered_nil, List.append_nil]
  · rfl

/-- A flush that begins leaves nothing in the buffer. -/
theorem take_buffer (s : Writing) (millis : ℕ) : (s.take millis).buffer.events = [] := by
  rcases Writing.take_eq s millis with ⟨hnil, heq⟩ | ⟨-, heq⟩
  · rw [heq]
    exact hnil
  · rw [heq]

end Buffer

/-! ### The calls on one pond -/

/-- A query that has ended, with the lines it left, and whether its caller has the answer. -/
structure Ended where
  lines : List Line
  returned : Bool
  deriving DecidableEq, Repr

/-- A call of `get_lineage`. -/
structure Call where
  /-- What was left by the queries that had returned when it started. -/
  owed : List Line
  /-- The flush of its own, from when it is begun. -/
  flush : Option ℕ
  /-- The batches it found in the directory. -/
  listed : Option (List BatchFile)
  deriving DecidableEq, Repr

/-- What the queries and the calls on a pond share, with both. -/
structure PondLineage where
  writing : Writing
  /-- How many flushes queries have spawned that have not begun. -/
  spawned : ℕ
  queries : List Ended
  calls : List Call
  deriving DecidableEq, Repr

/-- What can happen. -/
inductive LineageAct (τ : Type) where
  /-- A query ends and emits its events; a batch that comes due is flushed by a task of its own. -/
  | query (r : QueryRecord) (runId : Text) (traceId : Option Text) (nodeId : Text) (startClock endClock : τ)
  | returns (q : ℕ)
  /-- A spawned flush begins. -/
  | spawnedFlush (millis : ℕ)
  | write (i : ℕ) (id : Text)
  | rename (i : ℕ)
  /-- A call of `get_lineage` starts. -/
  | getLineage
  /-- `flush_pond_lineage` begins. Where no query made a writer the buffer is empty. -/
  | flushPond (c : ℕ) (millis : ℕ)
  /-- `flush_pond_lineage` is over, and the directory is listed. Files only ever come into it. -/
  | list (c : ℕ)

namespace PondLineage

variable {τ : Type}

/-- A fresh pond. -/
def start : PondLineage := ⟨.start, 0, [], []⟩

/-- What was left by the queries that have returned. -/
def returned (s : PondLineage) : List Line := (s.queries.filter Ended.returned).flatMap Ended.lines

/-- The events of a query that ends. -/
def eventsOf (ch : Chrono τ) (r : QueryRecord) (runId : Text) (traceId : Option Text) (nodeId : Text)
    (startClock endClock : τ) : List RunEvent :=
  emitLineage ⟨runId, traceId, ch.millisAgo startClock, ch.rfc3339 endClock⟩ nodeId r

/-- One step of the calls on a pond. -/
def step (w : LineageWriter) (ch : Chrono τ) (toJson : RunEvent → Option Text) (s : PondLineage) :
    LineageAct τ → Option PondLineage
  | .query r runId traceId nodeId startClock endClock =>
    let events := eventsOf ch r runId traceId nodeId startClock endClock
    let (writing, due) := w.bufferAll toJson s.writing events
    some { s with
      writing
      spawned := if due then s.spawned + 1 else s.spawned
      queries := s.queries ++ [⟨numbered s.writing.recorded.length (events.filterMap toJson), false⟩] }
  | .returns q => do
    let query ← s.queries[q]?
    some { s with queries := s.queries.set q { query with returned := true } }
  | .spawnedFlush millis =>
    if 0 < s.spawned then some { s with writing := s.writing.take millis, spawned := s.spawned - 1 } else none
  | .write i id => (w.write s.writing i id true).map fun writing => { s with writing }
  | .rename i => (s.writing.rename i true).map fun writing => { s with writing }
  | .getLineage => some { s with calls := s.calls ++ [⟨s.returned, none, none⟩] }
  | .flushPond c millis => do
    let call ← s.calls[c]?
    if call.flush = none then
      some { s with
        writing := s.writing.take millis
        calls := s.calls.set c { call with flush := some s.writing.flushes.length } }
    else none
  | .list c => do
    let call ← s.calls[c]?
    let i ← call.flush
    let f ← s.writing.flushes[i]?
    if f.stage = .done ∧ call.listed = none then
      some { s with calls := s.calls.set c { call with listed := some s.writing.files } }
    else none

/-- **Reads its own writes**: a call that has listed the directory shows what it owes. -/
def ReadsItsWrites [LinearOrder τ] (dec : Decoder τ) (s : PondLineage) : Prop :=
  ∀ c ∈ s.calls, ∀ files, c.listed = some files → ∀ l ∈ c.owed, Seen dec files l

/-- When a call lists the directory, nothing that it owes is in a batch in progress or evicted. -/
def NothingUnderWay (s : PondLineage) : LineageAct τ → Prop
  | .list c => ∀ call ∈ s.calls[c]?, ∀ l ∈ call.owed, l ∉ s.writing.inProgress ∧ l ∉ s.writing.evicted
  | _ => True

end PondLineage

/-! ### Every run -/

/-- What holds of a call besides: what it owes was recorded, and is out of the buffer once its flush has begun. -/
structure CallInv (s : Writing) (c : Call) : Prop where
  owed : ∀ l ∈ c.owed, l ∈ s.recorded
  flushed : c.flush.isSome → ∀ l ∈ c.owed, l ∉ s.buffer.events

namespace PondLineage

variable {τ : Type} [LinearOrder τ] {dec : Decoder τ} {ch : Chrono τ} {w : LineageWriter} {toJson : RunEvent → Option Text}

/-- What holds in every run whose calls list the directory with nothing under way. -/
structure Inv (dec : Decoder τ) (ch : Chrono τ) (w : LineageWriter) (s : PondLineage) : Prop where
  trail : TrailInv dec ch w s.writing
  queries : ∀ q ∈ s.queries, ∀ l ∈ q.lines, l ∈ s.writing.recorded
  calls : ∀ c ∈ s.calls, CallInv s.writing c
  reads : s.ReadsItsWrites dec

/-- A step of the writer. -/
theorem Inv.write {s : PondLineage} (h : s.Inv dec ch w) (hp : Printed dec ch toJson) (act : TrailAct τ) {t : Writing}
    (hact : ∀ i, act.toAct ch ≠ .requeue i) (hstep : trailStep w ch toJson s.writing act = some t) (spawned : ℕ) :
    ({ s with writing := t, spawned } : PondLineage).Inv dec ch w where
  trail := h.trail.step hp hstep
  queries q hq l hl := recorded_step hstep (h.queries q hq l hl)
  calls c hc := by
    refine ⟨fun l hl => recorded_step hstep ((h.calls c hc).owed l hl), fun hf l hl => ?_⟩
    exact not_mem_buffer_step h.trail.toInv hact hstep ((h.calls c hc).owed l hl) ((h.calls c hc).flushed hf l hl)
  reads := h.reads

/-- A call that has got further. -/
theorem Inv.call {s : PondLineage} (h : s.Inv dec ch w) (c : ℕ) {call : Call} (hcall : CallInv s.writing call)
    (hseen : ∀ files, call.listed = some files → ∀ l ∈ call.owed, Seen dec files l) :
    ({ s with calls := s.calls.set c call } : PondLineage).Inv dec ch w where
  trail := h.trail
  queries := h.queries
  calls k hk := by
    rcases List.mem_or_eq_of_mem_set hk with hk | rfl
    · exact h.calls k hk
    · exact hcall
  reads k hk := by
    rcases List.mem_or_eq_of_mem_set hk with hk | rfl
    · exact h.reads k hk
    · exact hseen

theorem Inv.start : PondLineage.start.Inv dec ch w where
  trail := TrailInv.start w
  queries _ hq := nomatch hq
  calls _ hc := nomatch hc
  reads _ hc := nomatch hc

theorem mem_recorded_of_returned {s : PondLineage} (h : s.Inv dec ch w) {l : Line} (hl : l ∈ s.returned) :
    l ∈ s.writing.recorded := by
  obtain ⟨q, hq, hl⟩ := List.mem_flatMap.1 hl
  exact h.queries q (List.mem_filter.1 hq).1 l hl

omit [LinearOrder τ] in
/-- What a call has to find when it lists the directory. -/
theorem list_eq_some {s s' : PondLineage} {c : ℕ} (h : step w ch toJson s (.list c) = some s') :
    ∃ call, s.calls[c]? = some call ∧ call.flush.isSome ∧ call.listed = none ∧
      s' = { s with calls := s.calls.set c { call with listed := some s.writing.files } } := by
  obtain ⟨call, hcall, h⟩ := Option.bind_eq_some_iff.1 h
  obtain ⟨i, hi, h⟩ := Option.bind_eq_some_iff.1 h
  obtain ⟨f, -, h⟩ := Option.bind_eq_some_iff.1 h
  split_ifs at h with hst
  exact ⟨call, hcall, by rw [hi]; rfl, hst.2, (Option.some.inj h).symm⟩

/-- **One step** keeps the invariant, where a call that lists the directory finds nothing under way. -/
theorem Inv.step {s s' : PondLineage} (hdir : w.dir.isSome) (hp : Printed dec ch toJson) (h : s.Inv dec ch w)
    {a : LineageAct τ} (hgood : s.NothingUnderWay a) (hstep : s.step w ch toJson a = some s') : s'.Inv dec ch w := by
  cases a with
  | query r runId traceId nodeId startClock endClock =>
    cases hstep
    have hw := h.write hp (.query r runId traceId nodeId startClock endClock) (fun i => by simp [TrailAct.toAct])
      rfl
    refine ⟨(hw 0).trail, fun q hq l hl => ?_, (hw 0).calls, (hw 0).reads⟩
    rcases List.mem_append.1 hq with hq | hq
    · exact (hw 0).queries q hq l hl
    · rw [List.mem_singleton.1 hq] at hl
      show l ∈ (w.bufferAll toJson s.writing _).1.recorded
      rw [bufferAll_recorded hdir]
      exact List.mem_append_right _ hl
  | returns q =>
    obtain ⟨query, hquery, hstep⟩ := Option.bind_eq_some_iff.1 hstep
    cases hstep
    refine ⟨h.trail, fun k hk l hl => ?_, h.calls, h.reads⟩
    rcases List.mem_or_eq_of_mem_set hk with hk | rfl
    · exact h.queries k hk l hl
    · exact h.queries query (List.mem_of_getElem? hquery) l hl
  | spawnedFlush millis =>
    unfold PondLineage.step at hstep
    split_ifs at hstep
    cases hstep
    exact h.write hp (.take millis) (fun i => by simp [TrailAct.toAct]) rfl _
  | write i id =>
    obtain ⟨t, ht, rfl⟩ := Option.map_eq_some_iff.1 hstep
    exact h.write hp (.write i id true) (fun i => by simp [TrailAct.toAct]) ht _
  | rename i =>
    obtain ⟨t, ht, rfl⟩ := Option.map_eq_some_iff.1 hstep
    exact h.write hp (.rename i true) (fun i => by simp [TrailAct.toAct]) ht _
  | getLineage =>
    cases hstep
    refine ⟨h.trail, h.queries, fun k hk => ?_, fun k hk => ?_⟩
    · rcases List.mem_append.1 hk with hk | hk
      · exact h.calls k hk
      · rw [List.mem_singleton.1 hk]
        exact ⟨fun l hl => mem_recorded_of_returned h hl, fun h => by cases h⟩
    · rcases List.mem_append.1 hk with hk | hk
      · exact h.reads k hk
      · rw [List.mem_singleton.1 hk]
        intro _ h
        cases h
  | flushPond c millis =>
    obtain ⟨call, hcall, hstep⟩ := Option.bind_eq_some_iff.1 hstep
    split_ifs at hstep with hnone
    cases hstep
    have hmem := List.mem_of_getElem? hcall
    have hw := h.write hp (.take millis) (fun i => by simp [TrailAct.toAct]) rfl s.spawned
    refine hw.call c ⟨(hw.calls call hmem).owed, fun _ l _ => ?_⟩ (h.reads call hmem)
    rw [take_buffer]
    exact List.not_mem_nil
  | list c =>
    obtain ⟨call, hcall, hflush, -, rfl⟩ := list_eq_some hstep
    have hmem := List.mem_of_getElem? hcall
    have hinv := h.calls call hmem
    refine h.call c ⟨hinv.owed, hinv.flushed⟩ fun files hfiles l hl => ?_
    cases hfiles
    have hvisible := (visible_iff h.trail.toInv (hinv.owed l hl) (hinv.flushed hflush l hl)).2 (hgood call hcall l hl)
    obtain ⟨f, hf, hlf⟩ := List.mem_flatMap.1 hvisible
    exact seen_of_mem h.trail.wellformed hf hlf

/-- **Reading one's own writes**: in every state of a run each call shows what it owes, in exactly the runs in which no
call lists the directory while some of it is in a batch in progress or evicted. -/
theorem reads_its_writes_iff (hdir : w.dir.isSome) (hp : Printed dec ch toJson) (acts : List (LineageAct τ)) :
    Runs.Always (step w ch toJson) (ReadsItsWrites dec) PondLineage.start acts ↔
      Runs.Careful (step w ch toJson) NothingUnderWay PondLineage.start acts := by
  refine Runs.always_iff_careful (I := Inv dec ch w) (fun s a s' h hgood hstep => h.step hdir hp hgood hstep)
    (fun s h => h.reads) ?_ Inv.start
  intro s a s' h hbad hstep hall
  cases a with
  | list c =>
    refine hbad fun call hcall l hl => ?_
    obtain ⟨call', hcall', hflush, -, rfl⟩ := list_eq_some hstep
    obtain rfl := Option.some.inj (hcall'.symm.trans hcall)
    have hinv := h.calls call' (List.mem_of_getElem? hcall')
    have hset : { call' with listed := some s.writing.files } ∈ s.calls.set c { call' with listed := some s.writing.files } :=
      List.mem_set (List.getElem?_eq_some_iff.1 hcall').1 _
    obtain ⟨f, hf, hlf⟩ := (hall _ hset _ rfl l hl).visible
    exact (visible_iff h.trail.toInv (hinv.owed l hl) (hinv.flushed hflush l hl)).1 (List.mem_flatMap.2 ⟨f, hf, hlf⟩)
  | _ => exact hbad trivial

instance (s : PondLineage) (a : LineageAct τ) : Decidable (s.NothingUnderWay a) :=
  match a with
  | .list c => inferInstanceAs
      (Decidable (∀ call ∈ s.calls[c]?, ∀ l ∈ call.owed, l ∉ s.writing.inProgress ∧ l ∉ s.writing.evicted))
  | .query .. | .returns _ | .spawnedFlush _ | .write .. | .rename _ | .getLineage | .flushPond .. =>
    inferInstanceAs (Decidable True)

end PondLineage

/-- A query returns, and a call takes what it left out of the buffer. -/
def flushing : List (LineageAct (Fin 10)) :=
  [.query (queryOf 1000) "r".toList none [] 4 4, .returns 0, .getLineage, .flushPond 0 1786701605000]

/-- One call behind a query. -/
def oneCall : List (LineageAct (Fin 10)) := flushing ++ [.write 0 "x".toList, .rename 0, .list 0]

theorem one_call :
    Runs.Always (PondLineage.step (LineageWriter.new "/l".toList) seconds printTime)
      (PondLineage.ReadsItsWrites secondsDecoder) PondLineage.start oneCall :=
  (PondLineage.reads_its_writes_iff rfl printed_seconds oneCall).2 (by decide +kernel)

/-- Another call starts, whose flush finds an empty buffer, and it lists the directory before the batch is there. -/
def twoCalls : List (LineageAct (Fin 10)) := flushing ++ [.getLineage, .flushPond 1 1786701605001, .list 1]

theorem two_calls :
    ¬Runs.Always (PondLineage.step (LineageWriter.new "/l".toList) seconds printTime)
      (PondLineage.ReadsItsWrites secondsDecoder) PondLineage.start twoCalls := by
  intro h
  have hrun : (Runs.run (PondLineage.step (LineageWriter.new "/l".toList) seconds printTime) PondLineage.start twoCalls).map
      (fun s => s.calls[1]?.map fun c => (c.owed.length, c.listed)) = some (some (2, some [])) := by
    decide +kernel
  obtain ⟨s, hs, hcalls⟩ := Option.map_eq_some_iff.1 hrun
  obtain ⟨c, hc, heq⟩ := Option.map_eq_some_iff.1 hcalls
  obtain ⟨hlen, hlisted⟩ := Prod.mk.inj heq
  obtain ⟨l, hl⟩ := List.exists_mem_of_length_pos (by omega : 0 < c.owed.length)
  obtain ⟨f, hf, -⟩ := (h.last hs c (List.mem_of_getElem? hc) [] hlisted l hl).visible
  cases hf

end Latiq.AgentCore
