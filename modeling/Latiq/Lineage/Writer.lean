import Latiq.Library.RustStr
import Latiq.Library.Runs
import Mathlib.Data.List.Perm.Basic
import Mathlib.Data.List.Infix
import Mathlib.Data.List.Nodup

/-!
# The lineage writer

`LineageWriter` buffers serialised events under a lock and writes them out in batches. A
flush takes the whole buffer, writes it with the lock released, and puts the batch back
in front of the buffer when the write or the rename fails; the buffer is cut down to its
capacity from the front.

## The model

* `Buffer`, `LineageWriter` — the buffer and the limits; `LineageWriter.enforceCapacity`.
* `Flush`, `Writing` — the flushes with how far they are, and what the writer shares with them: the buffer,
  the visible files and, for the statements only, the lines recorded and evicted so far.
* `LineageWriter.step` — one critical section, one write or one rename.

## What is proved

* `Writing.Inv` — no line is lost or doubled and the capacity is kept, in every run (`conserved`).
* `conserves_iff` — the buffer stays in recording order and what is evicted is older than what stays,
  in exactly the runs in which every batch is put back in front of newer lines.
* `two_failing_flushes` — two flushes that fail turn their batches round.
-/

namespace Latiq.Lineage

open RustStr (Text)

/-! ### The buffer -/

/-- A line of the buffer: a serialised event, with its place in the order of recording. -/
structure Line where
  seq : ℕ
  text : Text
  deriving DecidableEq, Repr

/-- In the order of recording. -/
def InOrder (lines : List Line) : Prop := lines.Pairwise fun a b => a.seq < b.seq

/-- Every line of the one was recorded before every line of the other. -/
def Older (xs ys : List Line) : Prop := ∀ x ∈ xs, ∀ y ∈ ys, x.seq < y.seq

theorem inOrder_append {xs ys : List Line} : InOrder (xs ++ ys) ↔ InOrder xs ∧ InOrder ys ∧ Older xs ys :=
  List.pairwise_append

/-- `Buffer`. -/
structure Buffer where
  events : List Line
  overflowing : Bool
  deriving DecidableEq, Repr

/-- The directory and the limits of a `LineageWriter`. -/
structure LineageWriter where
  dir : Option Text
  batchSize : ℕ
  capacity : ℕ
  batchSize_pos : 0 < batchSize
  capacity_pos : 0 < capacity

namespace LineageWriter

/-- `LineageWriter::with_limits`: a directory that is not absolute is refused. -/
def withLimits (dir : Text) (batchSize capacity : ℕ) : LineageWriter where
  dir := if dir.head? = some '/' then some dir else none
  batchSize := max batchSize 1
  capacity := max capacity 1
  batchSize_pos := by omega
  capacity_pos := by omega

/-- `LineageWriter::new`, with `DEFAULT_BATCH_SIZE` and `DEFAULT_CAPACITY`. -/
def new (dir : Text) : LineageWriter := withLimits dir 64 10000

variable (w : LineageWriter)

/-- `enforce_capacity`: the buffer cut down from the front, with the lines that are dropped. -/
def enforceCapacity (b : Buffer) : Buffer × List Line :=
  if w.capacity < b.events.length then
    let excess := b.events.length - w.capacity
    (⟨b.events.drop excess, true⟩, b.events.take excess)
  else if b.events.length < w.capacity then ({ b with overflowing := false }, [])
  else (b, [])

theorem enforceCapacity_events (b : Buffer) :
    (w.enforceCapacity b).1.events = b.events.drop (b.events.length - w.capacity) := by
  unfold enforceCapacity
  split_ifs with h h'
  · rfl
  · simp [Nat.sub_eq_zero_of_le h'.le]
  · simp [Nat.sub_eq_zero_of_le (not_lt.1 h)]

theorem enforceCapacity_evicted (b : Buffer) :
    (w.enforceCapacity b).2 = b.events.take (b.events.length - w.capacity) := by
  unfold enforceCapacity
  split_ifs with h h'
  · rfl
  · simp [Nat.sub_eq_zero_of_le h'.le]
  · simp [Nat.sub_eq_zero_of_le (not_lt.1 h)]

/-- Nothing else is dropped. -/
theorem evicted_append_events (b : Buffer) : (w.enforceCapacity b).2 ++ (w.enforceCapacity b).1.events = b.events := by
  rw [enforceCapacity_evicted, enforceCapacity_events, List.take_append_drop]

theorem enforceCapacity_length (b : Buffer) : (w.enforceCapacity b).1.events.length ≤ w.capacity := by
  rw [enforceCapacity_events, List.length_drop]
  omega

/-- What is cut down was in order exactly when what stays is, and what goes is older: where no more
goes than a first part that is itself in order. -/
theorem enforceCapacity_inOrder_iff {xs ys : List Line} (hx : InOrder xs) (hy : ys.length ≤ w.capacity) (o : Bool) :
    InOrder (xs ++ ys) ↔
      InOrder (w.enforceCapacity ⟨xs ++ ys, o⟩).1.events ∧
        Older (w.enforceCapacity ⟨xs ++ ys, o⟩).2 (w.enforceCapacity ⟨xs ++ ys, o⟩).1.events := by
  have hsplit := w.evicted_append_events ⟨xs ++ ys, o⟩
  have hgone : (w.enforceCapacity ⟨xs ++ ys, o⟩).2 <+: xs := by
    have hle : (xs ++ ys).length - w.capacity ≤ xs.length := by
      rw [List.length_append]
      omega
    rw [enforceCapacity_evicted, List.take_append_of_le_length hle]
    exact List.take_prefix _ _
  have hin : InOrder (w.enforceCapacity ⟨xs ++ ys, o⟩).2 := hx.sublist hgone.sublist
  constructor
  · intro h
    have hall : InOrder (w.enforceCapacity ⟨xs ++ ys, o⟩).1.events ∧
        Older (w.enforceCapacity ⟨xs ++ ys, o⟩).2 (w.enforceCapacity ⟨xs ++ ys, o⟩).1.events :=
      (inOrder_append.1 (hsplit ▸ h)).2
    exact hall
  · rintro ⟨hkept, holder⟩
    have hall : InOrder ((w.enforceCapacity ⟨xs ++ ys, o⟩).2 ++ (w.enforceCapacity ⟨xs ++ ys, o⟩).1.events) :=
      inOrder_append.2 ⟨hin, hkept, holder⟩
    rwa [hsplit] at hall

theorem enforceCapacity_of_inOrder {xs : List Line} (hx : InOrder xs) (o : Bool) :
    InOrder (w.enforceCapacity ⟨xs, o⟩).1.events ∧
      Older (w.enforceCapacity ⟨xs, o⟩).2 (w.enforceCapacity ⟨xs, o⟩).1.events := by
  have h := w.enforceCapacity_inOrder_iff hx (List.length_nil ▸ Nat.zero_le w.capacity) o
  rw [List.append_nil] at h
  exact h.1 hx

end LineageWriter

/-! ### The flushes -/

/-- How far a flush is with its batch. -/
inductive Stage where
  /-- The batch is taken, and the temporary file is still to be written. -/
  | taken
  /-- The temporary file is written, under this id. -/
  | written (id : Text)
  /-- The write or the rename failed, and the batch is still to be put back. -/
  | failed
  | done
  deriving DecidableEq, Repr

/-- A flush, with the batch of `take_batch` and its stamp. -/
structure Flush where
  batch : List Line
  millis : ℕ
  stage : Stage
  deriving DecidableEq, Repr

/-- What a flush still has in its hands. -/
def Flush.held (f : Flush) : List Line := if f.stage = .done then [] else f.batch

/-- A visible batch. -/
structure BatchFile where
  millis : ℕ
  id : Text
  batch : List Line
  deriving DecidableEq, Repr

/-- The name of a batch, `{unix_millis:013}-{uuid}.jsonl`. -/
def BatchFile.name (f : BatchFile) : Text :=
  (Nat.toDigits 10 f.millis).leftpad 13 '0' ++ "-".toList ++ f.id ++ ".jsonl".toList

/-- What is in the file. -/
def BatchFile.body (f : BatchFile) : Text := ['\n'].intercalate (f.batch.map Line.text) ++ ['\n']

/-- What a writer and its flushes share. The flushes stay in the list when they are done. -/
structure Writing where
  buffer : Buffer
  flushes : List Flush
  files : List BatchFile
  /-- The ids that were drawn. -/
  ids : List Text
  /-- Every line that was recorded, and every one that was evicted. -/
  recorded : List Line
  evicted : List Line
  deriving DecidableEq, Repr

/-- What can happen. A `flush` is a `take` and what comes behind it on its batch; `buffer_all` that
finds a batch due makes its caller flush. -/
inductive Act (ρ : Type) where
  | bufferAll (events : List ρ)
  /-- The first critical section of a flush, with the clock. -/
  | take (millis : ℕ)
  /-- `write_and_sync`, with the id drawn for it. -/
  | write (i : ℕ) (id : Text) (ok : Bool)
  | rename (i : ℕ) (ok : Bool)
  | requeue (i : ℕ)
  deriving DecidableEq, Repr

namespace Writing

/-- A fresh writer on an empty directory. -/
def start : Writing := ⟨⟨[], false⟩, [], [], [], [], []⟩

/-- The lines in the batches in progress. -/
def inProgress (s : Writing) : List Line := s.flushes.flatMap Flush.held

/-- The lines in visible files. -/
def visible (s : Writing) : List Line := s.files.flatMap BatchFile.batch

/-- Flush `i` has got further. -/
def advance (s : Writing) (i : ℕ) (f : Flush) (stage : Stage) : Writing :=
  { s with flushes := s.flushes.set i { f with stage } }

/-- The first critical section of `flush`, with `take_batch`. -/
def take (s : Writing) (millis : ℕ) : Writing :=
  if s.buffer.events.isEmpty then { s with flushes := s.flushes ++ [⟨[], millis, .done⟩] }
  else { s with buffer := ⟨[], false⟩, flushes := s.flushes ++ [⟨s.buffer.events, millis, .taken⟩] }

/-- The second half of `write_batch`: the rename makes the batch visible. -/
def rename (s : Writing) (i : ℕ) (ok : Bool) : Option Writing := do
  let f ← s.flushes[i]?
  match f.stage with
  | .written id =>
    if ok then some { s.advance i f .done with files := s.files ++ [⟨f.millis, id, f.batch⟩] }
    else some (s.advance i f .failed)
  | _ => none

end Writing

/-- Texts as the next lines recorded. -/
def numbered (n : ℕ) (texts : List Text) : List Line := (texts.zipIdx n).map fun p => ⟨p.2, p.1⟩

namespace LineageWriter

variable {ρ : Type} (w : LineageWriter) (toJson : ρ → Option Text)

/-- The buffer as `b`, cut down to its capacity. -/
def trimmed (s : Writing) (b : Buffer) : Writing :=
  { s with buffer := (w.enforceCapacity b).1, evicted := s.evicted ++ (w.enforceCapacity b).2 }

/-- `buffer_all`: nothing is kept by a writer without a directory. -/
def bufferAll (s : Writing) (events : List ρ) : Writing × Bool :=
  if events.isEmpty ∨ w.dir.isNone then (s, false)
  else
    let lines := numbered s.recorded.length (events.filterMap toJson)
    let s' := w.trimmed { s with recorded := s.recorded ++ lines } { s.buffer with events := s.buffer.events ++ lines }
    (s', decide (w.batchSize ≤ s'.buffer.events.length))

/-- Where the first half of `write_batch` leaves a flush. -/
def writeEnd (id : Text) (ok : Bool) : Stage :=
  if w.dir.isNone then .done else if ok then .written id else .failed

/-- The first half of `write_batch`. An id is never drawn twice. -/
def write (s : Writing) (i : ℕ) (id : Text) (ok : Bool) : Option Writing := do
  let f ← s.flushes[i]?
  if f.stage = .taken ∧ id ∉ s.ids then some { s.advance i f (w.writeEnd id ok) with ids := id :: s.ids }
  else none

/-- The rest of `write_or_requeue` for a batch that failed: `push_front` of each line, from the last. -/
def requeue (s : Writing) (i : ℕ) : Option Writing := do
  let f ← s.flushes[i]?
  if f.stage = .failed then
    let events := f.batch.reverse.foldl (fun events line => line :: events) s.buffer.events
    some (w.trimmed (s.advance i f .done) { s.buffer with events })
  else none

/-- One step of the writer's callers. -/
def step (s : Writing) : Act ρ → Option Writing
  | .bufferAll events => some (w.bufferAll toJson s events).1
  | .take millis => some (s.take millis)
  | .write i id ok => w.write s i id ok
  | .rename i ok => s.rename i ok
  | .requeue i => w.requeue s i

end LineageWriter

/-! ### Nothing lost, nothing doubled -/

@[simp] theorem numbered_nil (n : ℕ) : numbered n [] = [] := rfl

theorem numbered_seq (n : ℕ) (texts : List Text) : (numbered n texts).map Line.seq = List.range' n texts.length := by
  unfold numbered
  rw [List.map_map]
  exact List.zipIdx_map_snd n texts

@[simp] theorem numbered_length (n : ℕ) (texts : List Text) : (numbered n texts).length = texts.length := by
  simp [numbered]

theorem le_seq_of_mem_numbered {n : ℕ} {texts : List Text} {l : Line} (h : l ∈ numbered n texts) : n ≤ l.seq := by
  have hseq : l.seq ∈ (numbered n texts).map Line.seq := List.mem_map_of_mem h
  rw [numbered_seq, List.mem_range'_1] at hseq
  exact hseq.1

theorem numbered_inOrder (n : ℕ) (texts : List Text) : InOrder (numbered n texts) := by
  have h : ((numbered n texts).map Line.seq).Pairwise (· < ·) := by
    rw [numbered_seq]
    exact List.pairwise_lt_range'
  exact List.pairwise_map.1 h

/-- Counting through a list of parts in which one part is exchanged. -/
theorem count_flatMap_set {α β : Type} [BEq β] (f : α → List β) {l : List α} {i : ℕ} {a b : α} (x : β)
    (h : l[i]? = some a) :
    ((l.set i b).flatMap f).count x + (f a).count x = (l.flatMap f).count x + (f b).count x := by
  induction l generalizing i with
  | nil => simp at h
  | cons c l ih =>
    cases i with
    | zero =>
      obtain rfl : c = a := by simpa using h
      simp only [List.set_cons_zero, List.flatMap_cons, List.count_append]
      omega
    | succ i =>
      have := ih (by simpa using h)
      simp only [List.set_cons_succ, List.flatMap_cons, List.count_append]
      omega

theorem count_le_count_flatMap {α β : Type} [DecidableEq β] (f : α → List β) {l : List α} {a : α} (x : β) (h : a ∈ l) :
    (f a).count x ≤ (l.flatMap f).count x := by
  obtain ⟨p, q, rfl⟩ := List.append_of_mem h
  simp only [List.flatMap_append, List.flatMap_cons, List.count_append]
  omega

namespace Flush

theorem held_of_done {f : Flush} (h : f.stage = .done) : f.held = [] := if_pos h

theorem held_of_ne {f : Flush} (h : f.stage ≠ .done) : f.held = f.batch := if_neg h

end Flush

namespace Writing

/-- In how many places a line is: in the buffer, in a batch in progress, in a visible file, among the evicted. -/
def copies (s : Writing) (l : Line) : ℕ :=
  s.buffer.events.count l + s.inProgress.count l + s.visible.count l + s.evicted.count l

@[simp] theorem advance_buffer (s : Writing) (i : ℕ) (f : Flush) (stage : Stage) :
    (s.advance i f stage).buffer = s.buffer := rfl

@[simp] theorem advance_evicted (s : Writing) (i : ℕ) (f : Flush) (stage : Stage) :
    (s.advance i f stage).evicted = s.evicted := rfl

@[simp] theorem advance_recorded (s : Writing) (i : ℕ) (f : Flush) (stage : Stage) :
    (s.advance i f stage).recorded = s.recorded := rfl

@[simp] theorem advance_files (s : Writing) (i : ℕ) (f : Flush) (stage : Stage) :
    (s.advance i f stage).files = s.files := rfl

@[simp] theorem advance_flushes (s : Writing) (i : ℕ) (f : Flush) (stage : Stage) :
    (s.advance i f stage).flushes = s.flushes.set i { f with stage } := rfl

/-- A flush that gets further: what it holds before and behind the step. -/
theorem count_advance_inProgress {s : Writing} {i : ℕ} {f : Flush} (stage : Stage) (l : Line)
    (h : s.flushes[i]? = some f) :
    (s.advance i f stage).inProgress.count l + f.held.count l =
      s.inProgress.count l + (Flush.held { f with stage }).count l :=
  count_flatMap_set Flush.held l h

/-- What a flush that gets further keeps of the batches. -/
theorem batch_of_mem_advance {s : Writing} {i : ℕ} {f g : Flush} {stage : Stage} (h : s.flushes[i]? = some f)
    (hg : g ∈ (s.advance i f stage).flushes) : ∃ g' ∈ s.flushes, g.batch = g'.batch := by
  rcases List.mem_or_eq_of_mem_set hg with hg | rfl
  · exact ⟨g, hg, rfl⟩
  · exact ⟨f, List.mem_of_getElem? h, rfl⟩

theorem take_eq (s : Writing) (millis : ℕ) :
    (s.buffer.events = [] ∧ s.take millis = { s with flushes := s.flushes ++ [⟨[], millis, .done⟩] }) ∨
      (s.buffer.events ≠ [] ∧
        s.take millis =
          { s with buffer := ⟨[], false⟩, flushes := s.flushes ++ [⟨s.buffer.events, millis, .taken⟩] }) := by
  unfold take
  split_ifs with h
  · exact .inl ⟨List.isEmpty_iff.1 h, rfl⟩
  · exact .inr ⟨fun hnil => h (List.isEmpty_iff.2 hnil), rfl⟩

theorem rename_eq_some {s s' : Writing} {i : ℕ} {ok : Bool} (h : s.rename i ok = some s') :
    ∃ f id, s.flushes[i]? = some f ∧ f.stage = .written id ∧
      ((ok = true ∧ s' = { s.advance i f .done with files := s.files ++ [⟨f.millis, id, f.batch⟩] }) ∨
        (ok = false ∧ s' = s.advance i f .failed)) := by
  obtain ⟨f, hf, h⟩ := Option.bind_eq_some_iff.1 h
  cases hst : f.stage with
  | written id =>
    rw [hst] at h
    cases ok with
    | true => exact ⟨f, id, hf, hst, .inl ⟨rfl, (Option.some.inj h).symm⟩⟩
    | false => exact ⟨f, id, hf, hst, .inr ⟨rfl, (Option.some.inj h).symm⟩⟩
  | taken => simp [hst] at h
  | failed => simp [hst] at h
  | done => simp [hst] at h

end Writing

namespace LineageWriter

variable {ρ : Type} {w : LineageWriter} {toJson : ρ → Option Text}

theorem write_eq_some {s s' : Writing} {i : ℕ} {id : Text} {ok : Bool} (h : w.write s i id ok = some s') :
    ∃ f, s.flushes[i]? = some f ∧ f.stage = .taken ∧ id ∉ s.ids ∧
      s' = { s.advance i f (w.writeEnd id ok) with ids := id :: s.ids } := by
  obtain ⟨f, hf, h⟩ := Option.bind_eq_some_iff.1 h
  split_ifs at h with hst
  · exact ⟨f, hf, hst.1, hst.2, (Option.some.inj h).symm⟩

theorem push_front_eq (batch events : List Line) :
    batch.reverse.foldl (fun events line => line :: events) events = batch ++ events := by
  rw [List.foldl_reverse]
  induction batch with
  | nil => rfl
  | cons l batch ih => rw [List.foldr_cons, ih, List.cons_append]

theorem requeue_eq_some {s s' : Writing} {i : ℕ} (h : w.requeue s i = some s') :
    ∃ f, s.flushes[i]? = some f ∧ f.stage = .failed ∧
      s' = w.trimmed (s.advance i f .done) { s.buffer with events := f.batch ++ s.buffer.events } := by
  obtain ⟨f, hf, h⟩ := Option.bind_eq_some_iff.1 h
  split_ifs at h with hst
  · rw [push_front_eq] at h
    exact ⟨f, hf, hst, (Option.some.inj h).symm⟩

theorem bufferAll_eq (w : LineageWriter) (toJson : ρ → Option Text) (s : Writing) (events : List ρ) :
    (w.bufferAll toJson s events).1 = s ∨
      (w.dir.isSome ∧ ∃ lines, lines = numbered s.recorded.length (events.filterMap toJson) ∧
        (w.bufferAll toJson s events).1 =
          w.trimmed { s with recorded := s.recorded ++ lines } { s.buffer with events := s.buffer.events ++ lines }) := by
  unfold bufferAll
  split_ifs with h
  · exact .inl rfl
  · refine .inr ⟨?_, _, rfl, rfl⟩
    rw [not_or] at h
    simpa [Option.isNone_iff_eq_none, Option.isSome_iff_ne_none] using h.2

/-- Cutting down moves lines from the buffer to the evicted ones. -/
theorem copies_trimmed (s : Writing) (b : Buffer) (l : Line) :
    (w.trimmed s b).copies l = b.events.count l + s.inProgress.count l + s.visible.count l + s.evicted.count l := by
  have hb := congrArg (List.count l) (w.evicted_append_events b)
  rw [List.count_append] at hb
  have hc : (w.trimmed s b).copies l = (w.enforceCapacity b).1.events.count l + s.inProgress.count l +
      s.visible.count l + (s.evicted ++ (w.enforceCapacity b).2).count l := rfl
  rw [hc, List.count_append]
  omega

/-- What holds of a writer in every run. -/
structure Inv (w : LineageWriter) (s : Writing) : Prop where
  counted : ∀ l, s.copies l = s.recorded.count l
  numbered : s.recorded.map Line.seq = List.range s.recorded.length
  unused : w.dir = none → s.recorded = []
  bounded : s.buffer.events.length ≤ w.capacity

namespace Inv

theorem start (w : LineageWriter) : w.Inv Writing.start where
  counted _ := rfl
  numbered := rfl
  unused _ := rfl
  bounded := Nat.zero_le _

variable {s s' : Writing}

theorem seq_lt (h : w.Inv s) {l : Line} (hl : l ∈ s.recorded) : l.seq < s.recorded.length := by
  have hmem : l.seq ∈ s.recorded.map Line.seq := List.mem_map_of_mem hl
  rw [h.numbered] at hmem
  exact List.mem_range.1 hmem

theorem nodup (h : w.Inv s) : s.recorded.Nodup := by
  have hseq : (s.recorded.map Line.seq).Nodup := by
    rw [h.numbered]
    exact List.nodup_range
  exact List.Nodup.of_map _ hseq

/-- What is in the buffer was recorded. -/
theorem recorded_of_mem_buffer (h : w.Inv s) {l : Line} (hl : l ∈ s.buffer.events) : l ∈ s.recorded := by
  have hcount := h.counted l
  have hpos : 0 < s.buffer.events.count l := List.count_pos_iff.2 hl
  unfold Writing.copies at hcount
  exact List.count_pos_iff.1 (by omega)

/-- A flush of a writer without a directory has nothing. -/
theorem held_eq_nil (h : w.Inv s) (hdir : w.dir = none) {f : Flush} (hf : f ∈ s.flushes) : f.held = [] := by
  refine List.eq_nil_iff_forall_not_mem.2 fun l hl => ?_
  have hcount := h.counted l
  have hpos : 0 < f.held.count l := List.count_pos_iff.2 hl
  have hle : f.held.count l ≤ s.inProgress.count l := count_le_count_flatMap Flush.held l hf
  rw [h.unused hdir, List.count_nil] at hcount
  unfold Writing.copies at hcount
  omega

theorem bufferAll (h : w.Inv s) (events : List ρ) : w.Inv (w.bufferAll toJson s events).1 := by
  rcases bufferAll_eq w toJson s events with heq | ⟨hdir, lines, hlines, heq⟩
  · rw [heq]
    exact h
  · rw [heq]
    constructor
    · intro l
      have hcount := h.counted l
      rw [copies_trimmed]
      simp only [trimmed, List.count_append]
      unfold Writing.copies at hcount
      show s.buffer.events.count l + lines.count l + s.inProgress.count l + s.visible.count l + s.evicted.count l =
        s.recorded.count l + lines.count l
      omega
    · simp only [trimmed, List.map_append, List.length_append]
      rw [h.numbered, hlines, numbered_seq, numbered_length, List.range_eq_range', List.range_eq_range',
        ← List.range'_append_1, Nat.zero_add]
    · intro hnone
      rw [hnone] at hdir
      cases hdir
    · exact w.enforceCapacity_length _

theorem take (h : w.Inv s) (millis : ℕ) : w.Inv (s.take millis) := by
  rcases Writing.take_eq s millis with ⟨-, heq⟩ | ⟨-, heq⟩
  · rw [heq]
    refine ⟨fun l => ?_, h.numbered, h.unused, h.bounded⟩
    have hcount := h.counted l
    simp only [Writing.copies, Writing.inProgress, Writing.visible, List.flatMap_append, List.count_append] at hcount ⊢
    simpa [Flush.held] using hcount
  · rw [heq]
    refine ⟨fun l => ?_, h.numbered, h.unused, Nat.zero_le _⟩
    have hcount := h.counted l
    simp only [Writing.copies, Writing.inProgress, Writing.visible, List.flatMap_append, List.count_append,
      List.flatMap_cons, List.flatMap_nil, List.count_nil] at hcount ⊢
    rw [Flush.held_of_ne (f := ⟨s.buffer.events, millis, .taken⟩) (by simp)]
    show 0 + (_ + (s.buffer.events.count l + 0)) + _ + _ = _
    omega

/-- A flush gets further and keeps what it holds. -/
theorem advance (h : w.Inv s) {i : ℕ} {f : Flush} {stage : Stage} (hf : s.flushes[i]? = some f)
    (hheld : Flush.held { f with stage } = f.held) : w.Inv (s.advance i f stage) := by
  refine ⟨fun l => ?_, h.numbered, h.unused, h.bounded⟩
  have hcount := h.counted l
  have hin := Writing.count_advance_inProgress stage l hf
  rw [hheld] at hin
  unfold Writing.copies at hcount ⊢
  show _ + _ + s.visible.count l + s.evicted.count l = s.recorded.count l
  rw [Writing.advance_buffer]
  omega

theorem write (h : w.Inv s) {i : ℕ} {id : Text} {ok : Bool} (hstep : w.write s i id ok = some s') : w.Inv s' := by
  obtain ⟨f, hf, hst, -, rfl⟩ := write_eq_some hstep
  have hheld : Flush.held { f with stage := w.writeEnd id ok } = f.held := by
    unfold writeEnd
    split_ifs with hdir hok
    · rw [h.held_eq_nil (Option.isNone_iff_eq_none.1 hdir) (List.mem_of_getElem? hf)]
      exact Flush.held_of_done rfl
    · rw [Flush.held_of_ne (by simp), Flush.held_of_ne (by simp [hst])]
    · rw [Flush.held_of_ne (by simp), Flush.held_of_ne (by simp [hst])]
  have hinv := h.advance hf hheld
  exact ⟨hinv.counted, hinv.numbered, hinv.unused, hinv.bounded⟩

theorem rename (h : w.Inv s) {i : ℕ} {ok : Bool} (hstep : s.rename i ok = some s') : w.Inv s' := by
  obtain ⟨f, id, hf, hst, ⟨-, rfl⟩ | ⟨-, rfl⟩⟩ := Writing.rename_eq_some hstep
  · refine ⟨fun l => ?_, h.numbered, h.unused, h.bounded⟩
    have hcount := h.counted l
    have hin := Writing.count_advance_inProgress .done l hf
    rw [Flush.held_of_ne (f := f) (by simp [hst]), Flush.held_of_done rfl, List.count_nil] at hin
    have hvis : (s.files ++ [(⟨f.millis, id, f.batch⟩ : BatchFile)]).flatMap BatchFile.batch = s.visible ++ f.batch := by
      simp [Writing.visible]
    unfold Writing.copies at hcount ⊢
    show s.buffer.events.count l + (s.advance i f .done).inProgress.count l + List.count l (List.flatMap _ _) +
      s.evicted.count l = s.recorded.count l
    rw [hvis, List.count_append]
    omega
  · refine h.advance hf ?_
    rw [Flush.held_of_ne (by simp), Flush.held_of_ne (by simp [hst])]

theorem requeue (h : w.Inv s) {i : ℕ} (hstep : w.requeue s i = some s') : w.Inv s' := by
  obtain ⟨f, hf, hst, rfl⟩ := requeue_eq_some hstep
  refine ⟨fun l => ?_, h.numbered, h.unused, w.enforceCapacity_length _⟩
  have hcount := h.counted l
  have hin := Writing.count_advance_inProgress .done l hf
  rw [Flush.held_of_ne (f := f) (by simp [hst]), Flush.held_of_done rfl, List.count_nil] at hin
  rw [copies_trimmed, List.count_append]
  unfold Writing.copies at hcount
  show f.batch.count l + s.buffer.events.count l + (s.advance i f .done).inProgress.count l + s.visible.count l +
    s.evicted.count l = s.recorded.count l
  omega

theorem step (h : w.Inv s) {act : Act ρ} (hstep : w.step toJson s act = some s') : w.Inv s' := by
  cases act with
  | bufferAll events =>
    cases hstep
    exact h.bufferAll events
  | take millis =>
    cases hstep
    exact h.take millis
  | write i id ok => exact h.write hstep
  | rename i ok => exact h.rename hstep
  | requeue i => exact h.requeue hstep

end Inv

/-- **Conservation**: in every state of every run each recorded line is in exactly one place, and the capacity is kept. -/
theorem conserved {acts : List (Act ρ)} {s : Writing} (h : Runs.run (w.step toJson) Writing.start acts = some s) :
    (∀ l ∈ s.recorded, s.copies l = 1) ∧ s.buffer.events.length ≤ w.capacity := by
  have hinv : w.Inv s := Runs.run_invariant (fun _ _ _ hI hs => hI.step hs) (Inv.start w) h
  refine ⟨fun l hl => ?_, hinv.bounded⟩
  rw [hinv.counted, List.count_eq_one_of_mem hinv.nodup hl]

/-! ### The order of recording -/

/-- The lines that a step evicts, seen from behind it. -/
def evictedSince (s s' : Writing) : List Line := s'.evicted.drop s.evicted.length

/-- What a step evicts is older than all that it leaves in the buffer. -/
def EvictsOldest (w : LineageWriter) (toJson : ρ → Option Text) (s : Writing) (act : Act ρ) : Prop :=
  ∀ s', w.step toJson s act = some s' → Older (evictedSince s s') s'.buffer.events

/-- What is to hold in every state: each recorded line in one place, the capacity kept, the buffer in order. -/
structure Conserves (w : LineageWriter) (s : Writing) : Prop where
  exactly_once : ∀ l ∈ s.recorded, s.copies l = 1
  bounded : s.buffer.events.length ≤ w.capacity
  inOrder : InOrder s.buffer.events

/-- A batch is put back in front of newer lines only. -/
def PutsBackOlder (s : Writing) : Act ρ → Prop
  | .requeue i => ∀ f ∈ s.flushes[i]?, Older f.batch s.buffer.events
  | _ => True

/-- What holds as long as batches are put back in front of newer lines. -/
structure Ordered (w : LineageWriter) (s : Writing) : Prop extends w.Inv s where
  buffer : InOrder s.buffer.events
  batches : ∀ f ∈ s.flushes, InOrder f.batch

namespace Ordered

theorem start (w : LineageWriter) : w.Ordered Writing.start where
  toInv := Inv.start w
  buffer := .nil
  batches _ hf := nomatch hf

variable {s s' : Writing}

theorem conserves (h : w.Ordered s) : w.Conserves s where
  exactly_once l hl := by rw [h.counted, List.count_eq_one_of_mem h.nodup hl]
  bounded := h.bounded
  inOrder := h.buffer

theorem batches_advance (h : w.Ordered s) {i : ℕ} {f : Flush} (stage : Stage) (hf : s.flushes[i]? = some f) :
    ∀ g ∈ (s.advance i f stage).flushes, InOrder g.batch := by
  intro g hg
  obtain ⟨g', hg', heq⟩ := Writing.batch_of_mem_advance hf hg
  rw [heq]
  exact h.batches g' hg'

theorem evictedSince_trimmed {t : Writing} (ht : t.evicted = s.evicted) (b : Buffer) :
    evictedSince s (w.trimmed t b) = (w.enforceCapacity b).2 := by
  unfold evictedSince trimmed
  rw [ht, List.drop_left]

/-- Behind the lines of the buffer come the new ones. -/
theorem bufferAll_inOrder (h : w.Ordered s) (texts : List Text) :
    InOrder (s.buffer.events ++ numbered s.recorded.length texts) := by
  refine inOrder_append.2 ⟨h.buffer, numbered_inOrder _ _, ?_⟩
  intro x hx y hy
  exact lt_of_lt_of_le (h.seq_lt (h.recorded_of_mem_buffer hx)) (le_seq_of_mem_numbered hy)

theorem bufferAll (h : w.Ordered s) (events : List ρ) :
    w.Ordered (w.bufferAll toJson s events).1 ∧
      Older (evictedSince s (w.bufferAll toJson s events).1) (w.bufferAll toJson s events).1.buffer.events := by
  have hinv : w.Inv (w.bufferAll toJson s events).1 := h.toInv.bufferAll events
  rcases bufferAll_eq w toJson s events with heq | ⟨-, lines, rfl, heq⟩
  · rw [heq]
    refine ⟨h, ?_⟩
    rw [evictedSince, List.drop_length]
    exact fun x hx => nomatch hx
  · have hin := h.bufferAll_inOrder (events.filterMap toJson)
    have hkept := w.enforceCapacity_of_inOrder hin s.buffer.overflowing
    rw [heq] at hinv ⊢
    have hevicted := evictedSince_trimmed (w := w) (s := s)
      (t := { s with recorded := s.recorded ++ numbered s.recorded.length (events.filterMap toJson) }) rfl
    refine ⟨⟨hinv, hkept.1, h.batches⟩, ?_⟩
    rw [hevicted]
    exact hkept.2

theorem take (h : w.Ordered s) (millis : ℕ) : w.Ordered (s.take millis) := by
  have hinv := h.toInv.take millis
  rcases Writing.take_eq s millis with ⟨-, heq⟩ | ⟨-, heq⟩
  · rw [heq] at hinv ⊢
    refine ⟨hinv, h.buffer, fun f hf => ?_⟩
    rcases List.mem_append.1 hf with hf | hf
    · exact h.batches f hf
    · rw [List.mem_singleton.1 hf]
      exact .nil
  · rw [heq] at hinv ⊢
    refine ⟨hinv, .nil, fun f hf => ?_⟩
    rcases List.mem_append.1 hf with hf | hf
    · exact h.batches f hf
    · rw [List.mem_singleton.1 hf]
      exact h.buffer

theorem write (h : w.Ordered s) {i : ℕ} {id : Text} {ok : Bool} (hstep : w.write s i id ok = some s') :
    w.Ordered s' ∧ s'.evicted = s.evicted := by
  have hinv := h.toInv.write hstep
  obtain ⟨f, hf, -, -, rfl⟩ := write_eq_some hstep
  exact ⟨⟨hinv, h.buffer, h.batches_advance _ hf⟩, rfl⟩

theorem rename (h : w.Ordered s) {i : ℕ} {ok : Bool} (hstep : s.rename i ok = some s') :
    w.Ordered s' ∧ s'.evicted = s.evicted := by
  have hinv := h.toInv.rename hstep
  obtain ⟨f, id, hf, -, ⟨-, rfl⟩ | ⟨-, rfl⟩⟩ := Writing.rename_eq_some hstep
  · exact ⟨⟨hinv, h.buffer, h.batches_advance _ hf⟩, rfl⟩
  · exact ⟨⟨hinv, h.buffer, h.batches_advance _ hf⟩, rfl⟩

/-- Putting a batch back keeps the order, and evicts the oldest, exactly when the batch is older than the buffer. -/
theorem requeue_iff (h : w.Ordered s) {i : ℕ} (hstep : w.requeue s i = some s') :
    PutsBackOlder s (.requeue i : Act ρ) ↔
      InOrder s'.buffer.events ∧ Older (evictedSince s s') s'.buffer.events := by
  obtain ⟨f, hf, -, rfl⟩ := requeue_eq_some hstep
  have hbatch := h.batches f (List.mem_of_getElem? hf)
  have hiff := w.enforceCapacity_inOrder_iff hbatch h.bounded s.buffer.overflowing
  have hputs : PutsBackOlder s (.requeue i : Act ρ) ↔ InOrder (f.batch ++ s.buffer.events) := by
    rw [inOrder_append]
    constructor
    · intro hold
      exact ⟨hbatch, h.buffer, hold f hf⟩
    · rintro ⟨-, -, hold⟩ g hg
      rw [hf] at hg
      cases hg
      exact hold
  rw [hputs, hiff, evictedSince_trimmed (s.advance_evicted i f .done)]
  rfl

theorem step (h : w.Ordered s) {act : Act ρ} (hgood : PutsBackOlder s act) (hstep : w.step toJson s act = some s') :
    w.Ordered s' ∧ Older (evictedSince s s') s'.buffer.events := by
  have hsame : s'.evicted = s.evicted → Older (evictedSince s s') s'.buffer.events := by
    intro heq
    rw [evictedSince, heq, List.drop_length]
    exact fun x hx => nomatch hx
  cases act with
  | bufferAll events =>
    cases hstep
    exact h.bufferAll events
  | take millis =>
    cases hstep
    refine ⟨h.take millis, hsame ?_⟩
    rcases Writing.take_eq s millis with ⟨-, heq⟩ | ⟨-, heq⟩ <;> rw [heq]
  | write i id ok =>
    obtain ⟨hord, heq⟩ := h.write hstep
    exact ⟨hord, hsame heq⟩
  | rename i ok =>
    obtain ⟨hord, heq⟩ := h.rename hstep
    exact ⟨hord, hsame heq⟩
  | requeue i =>
    obtain ⟨hin, hold⟩ := (h.requeue_iff hstep).1 hgood
    refine ⟨⟨h.toInv.requeue hstep, hin, ?_⟩, hold⟩
    obtain ⟨f, hf, -, rfl⟩ := requeue_eq_some hstep
    exact h.batches_advance _ hf

end Ordered

/-- **The writer conserves**: each recorded line stays in one place and the capacity is kept, the buffer
stays in recording order, and every step evicts the oldest, in exactly the runs in which a batch is
put back in front of newer lines only. -/
theorem conserves_iff (w : LineageWriter) (toJson : ρ → Option Text) (acts : List (Act ρ)) :
    Runs.Always (w.step toJson) w.Conserves Writing.start acts ∧
        Runs.Careful (w.step toJson) (w.EvictsOldest toJson) Writing.start acts ↔
      Runs.Careful (w.step toJson) PutsBackOlder Writing.start acts := by
  refine Runs.always_and_careful_iff (I := w.Ordered) (fun s act s' h hgood hstep => (h.step hgood hstep).1)
    (fun s h => h.conserves) (fun s act s' h hgood hstep t ht => (h.step hgood ht).2) ?_ (Ordered.start w)
  intro s act s' h hbad hstep hevicts hcons
  cases act with
  | requeue i => exact hbad ((h.requeue_iff hstep).2 ⟨hcons.inOrder, hevicts s' hstep⟩)
  | _ => exact hbad trivial

/-- Two flushes that fail: the older batch is put back first, and the newer one in front of it. -/
def twoFailing : List (Act Text) :=
  [.bufferAll ["a".toList], .take 1, .bufferAll ["b".toList], .take 2, .write 0 "x".toList false,
    .write 1 "y".toList false, .requeue 0, .requeue 1]

theorem two_failing_flushes :
    ¬Runs.Always ((new "/lineage".toList).step some) (new "/lineage".toList).Conserves Writing.start twoFailing := by
  intro h
  have hrun : (Runs.run ((new "/lineage".toList).step some) Writing.start twoFailing).map
      (fun s => s.buffer.events) = some [⟨1, "b".toList⟩, ⟨0, "a".toList⟩] := by decide +kernel
  obtain ⟨s, hs, hbuf⟩ := Option.map_eq_some_iff.1 hrun
  have hin := (h.last hs).inOrder
  rw [hbuf] at hin
  exact absurd hin (by simp [InOrder])

end LineageWriter

/-! ### What a step changes -/

namespace LineageWriter

variable {ρ : Type} {w : LineageWriter} {toJson : ρ → Option Text} {s s' : Writing} {act : Act ρ}

/-- Lines are recorded by `buffer_all` only. -/
theorem step_recorded (h : w.step toJson s act = some s') :
    s'.recorded = s.recorded ∨ ∃ events, act = .bufferAll events ∧
      s'.recorded = s.recorded ++ numbered s.recorded.length (events.filterMap toJson) := by
  cases act with
  | bufferAll events =>
    cases h
    rcases w.bufferAll_eq toJson s events with heq | ⟨-, lines, rfl, heq⟩
    · exact .inl (by rw [heq])
    · exact .inr ⟨events, rfl, by rw [heq]; rfl⟩
  | take millis =>
    cases h
    rcases Writing.take_eq s millis with ⟨-, heq⟩ | ⟨-, heq⟩ <;> exact .inl (by rw [heq])
  | write i id ok =>
    obtain ⟨f, -, -, -, rfl⟩ := write_eq_some h
    exact .inl rfl
  | rename i ok => obtain ⟨f, id, -, -, ⟨-, rfl⟩ | ⟨-, rfl⟩⟩ := Writing.rename_eq_some h <;> exact .inl rfl
  | requeue i =>
    obtain ⟨f, -, -, rfl⟩ := requeue_eq_some h
    exact .inl rfl

/-- A file is made visible by a rename only. -/
theorem step_files (h : w.step toJson s act = some s') :
    s'.files = s.files ∨ ∃ i f id, act = .rename i true ∧ s.flushes[i]? = some f ∧ f.stage = .written id ∧
      s'.files = s.files ++ [⟨f.millis, id, f.batch⟩] := by
  cases act with
  | bufferAll events =>
    cases h
    rcases w.bufferAll_eq toJson s events with heq | ⟨-, lines, rfl, heq⟩
    · exact .inl (by rw [heq])
    · exact .inl (by rw [heq]; rfl)
  | take millis =>
    cases h
    rcases Writing.take_eq s millis with ⟨-, heq⟩ | ⟨-, heq⟩ <;> exact .inl (by rw [heq])
  | write i id ok =>
    obtain ⟨f, -, -, -, rfl⟩ := write_eq_some h
    exact .inl rfl
  | rename i ok =>
    obtain ⟨f, id, hf, hst, ⟨rfl, rfl⟩ | ⟨-, rfl⟩⟩ := Writing.rename_eq_some h
    · exact .inr ⟨i, f, id, rfl, hf, hst, rfl⟩
    · exact .inl rfl
  | requeue i =>
    obtain ⟨f, -, -, rfl⟩ := requeue_eq_some h
    exact .inl rfl

/-- What is in a visible file was recorded. -/
theorem Inv.recorded_of_mem_file (h : w.Inv s) {f : BatchFile} (hf : f ∈ s.files) {l : Line} (hl : l ∈ f.batch) :
    l ∈ s.recorded := by
  have hcount := h.counted l
  have hle : f.batch.count l ≤ s.visible.count l := count_le_count_flatMap BatchFile.batch l hf
  have hpos : 0 < f.batch.count l := List.count_pos_iff.2 hl
  unfold Writing.copies at hcount
  exact List.count_pos_iff.1 (by omega)

end LineageWriter

/-! ### Ids and names -/

/-- The id under which a flush has written its temporary file. -/
def Flush.ids (f : Flush) : List Text :=
  match f.stage with
  | .written id => [id]
  | _ => []

namespace Writing

/-- In how many places an id is: among the visible files and the temporary ones. -/
def idCount (s : Writing) (id : Text) : ℕ := (s.files.map BatchFile.id).count id + (s.flushes.flatMap Flush.ids).count id

/-- An id is in one place at most, and only when it was drawn. -/
def IdsDistinct (s : Writing) : Prop := ∀ id, s.idCount id ≤ 1 ∧ (id ∉ s.ids → s.idCount id = 0)

theorem idCount_advance {s : Writing} {i : ℕ} {f : Flush} (stage : Stage) (id : Text) (h : s.flushes[i]? = some f) :
    (s.advance i f stage).idCount id + f.ids.count id = s.idCount id + (Flush.ids { f with stage }).count id := by
  have hset := count_flatMap_set Flush.ids (b := { f with stage }) id h
  unfold idCount
  rw [advance_files, advance_flushes]
  omega

namespace IdsDistinct

variable {s s' : Writing} {ρ : Type} {w : LineageWriter} {toJson : ρ → Option Text}

theorem start : Writing.start.IdsDistinct := fun _ => ⟨Nat.zero_le _, fun _ => rfl⟩

/-- A flush that gets further without an id. -/
theorem advance (h : s.IdsDistinct) {i : ℕ} {f : Flush} {stage : Stage} (hf : s.flushes[i]? = some f)
    (hids : Flush.ids { f with stage } = []) : (s.advance i f stage).IdsDistinct := by
  intro id
  obtain ⟨hle, hzero⟩ := h id
  have hcount := idCount_advance stage id hf
  rw [hids, List.count_nil] at hcount
  refine ⟨by omega, fun hid => ?_⟩
  have := hzero hid
  omega

theorem step (h : s.IdsDistinct) {act : Act ρ} (hstep : w.step toJson s act = some s') : s'.IdsDistinct := by
  cases act with
  | bufferAll events =>
    cases hstep
    rcases w.bufferAll_eq toJson s events with heq | ⟨-, lines, -, heq⟩
    · rwa [heq]
    · rw [heq]
      exact h
  | take millis =>
    cases hstep
    intro id
    have hids : (s.take millis).idCount id = s.idCount id := by
      rcases take_eq s millis with ⟨-, heq⟩ | ⟨-, heq⟩ <;> rw [heq] <;> simp [idCount, Flush.ids]
    rw [hids]
    refine ⟨(h id).1, fun hid => (h id).2 ?_⟩
    rcases take_eq s millis with ⟨-, heq⟩ | ⟨-, heq⟩ <;> rwa [heq] at hid
  | write i id ok =>
    obtain ⟨f, hf, hst, hid, rfl⟩ := LineageWriter.write_eq_some hstep
    intro id'
    obtain ⟨hle, hzero⟩ := h id'
    have hcount := idCount_advance (w.writeEnd id ok) id' hf
    have hnew : (Flush.ids { f with stage := w.writeEnd id ok }).count id' ≤ if id' = id then 1 else 0 := by
      unfold LineageWriter.writeEnd
      split_ifs with hdir hok heq heq
      · exact Nat.zero_le _
      · exact Nat.zero_le _
      · exact List.count_le_length
      · exact (List.count_eq_zero_of_not_mem (by simpa [Flush.ids] using heq)).le
      · exact Nat.zero_le _
      · exact Nat.zero_le _
    have hold : f.ids.count id' = 0 := by simp [Flush.ids, hst]
    show (s.advance i f (w.writeEnd id ok)).idCount id' ≤ 1 ∧
      (id' ∉ id :: s.ids → (s.advance i f (w.writeEnd id ok)).idCount id' = 0)
    by_cases heq : id' = id
    · have := hzero (heq ▸ hid)
      rw [if_pos heq] at hnew
      exact ⟨by omega, fun hbad => absurd List.mem_cons_self (heq ▸ hbad)⟩
    · rw [if_neg heq] at hnew
      refine ⟨by omega, fun hbad => ?_⟩
      have := hzero fun hmem => hbad (List.mem_cons_of_mem _ hmem)
      omega
  | rename i ok =>
    obtain ⟨f, id, hf, hst, ⟨-, rfl⟩ | ⟨-, rfl⟩⟩ := rename_eq_some hstep
    · intro id'
      obtain ⟨hle, hzero⟩ := h id'
      have hcount := idCount_advance .done id' hf
      have hold : f.ids = [id] := by simp [Flush.ids, hst]
      have hmoved : idCount { s.advance i f .done with files := s.files ++ [⟨f.millis, id, f.batch⟩] } id' =
          (s.advance i f .done).idCount id' + f.ids.count id' := by
        rw [hold]
        simp only [idCount, advance_files, List.map_append, List.map_cons, List.map_nil, List.count_append]
        omega
      have hnone : (Flush.ids { f with stage := .done }).count id' = 0 := rfl
      rw [hmoved]
      refine ⟨by omega, fun hid => ?_⟩
      have := hzero hid
      omega
    · exact h.advance hf rfl
  | requeue i =>
    obtain ⟨f, hf, -, rfl⟩ := LineageWriter.requeue_eq_some hstep
    exact h.advance hf rfl

end IdsDistinct

theorem IdsDistinct.nodup {s : Writing} (h : s.IdsDistinct) : (s.files.map BatchFile.id).Nodup := by
  refine List.nodup_iff_count_le_one.2 fun id => ?_
  have := (h id).1
  unfold idCount at this
  omega

end Writing

namespace BatchFile

/-- The stamp in the name. -/
def stamp (f : BatchFile) : Text := (Nat.toDigits 10 f.millis).leftpad 13 '0'

theorem isDigit_of_mem_stamp {f : BatchFile} {c : Char} (h : c ∈ f.stamp) : c.isDigit = true := by
  rcases List.mem_append.1 h with h | h
  · rw [List.eq_of_mem_replicate h]
    rfl
  · exact Nat.isDigit_of_mem_toDigits (by decide) (by decide) h

theorem stamp_ne_nil (f : BatchFile) : f.stamp ≠ [] := by
  intro h
  have hlen := congrArg List.length h
  rw [stamp, List.length_leftpad, List.length_nil] at hlen
  omega

theorem name_eq (f : BatchFile) : f.name = f.stamp ++ '-' :: (f.id ++ ".jsonl".toList) := by
  simp [name, stamp]

/-- A name has the id. -/
theorem id_eq_of_name_eq {f g : BatchFile} (h : f.name = g.name) : f.id = g.id := by
  have hdrop : ∀ f : BatchFile, f.name.dropWhile Char.isDigit = '-' :: (f.id ++ ".jsonl".toList) := by
    intro f
    rw [name_eq, List.dropWhile_append_of_pos fun c hc => isDigit_of_mem_stamp hc]
    rfl
  have heq := congrArg (List.dropWhile Char.isDigit) h
  rw [hdrop, hdrop] at heq
  exact List.append_cancel_right (List.cons.inj heq).2

end BatchFile

/-- No two visible files have one name. -/
theorem Writing.IdsDistinct.names_nodup {s : Writing} (h : s.IdsDistinct) : (s.files.map BatchFile.name).Nodup := by
  have hid := h.nodup
  rw [List.Nodup, List.pairwise_map] at hid ⊢
  exact hid.imp fun hne heq => hne (BatchFile.id_eq_of_name_eq heq)

end Latiq.Lineage
