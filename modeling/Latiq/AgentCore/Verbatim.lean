import Latiq.AgentCore.GetLineage
import Latiq.Lineage.Jsonl
import Mathlib.Data.List.Flatten

/-!
# A trail is read verbatim

What queries emit is serialized, buffered, cut down, batched, put back after a failure and written out; a reader parses
the lines of the files. Here the lines are JSON, as the node writes them.

## The model

* `emitted` — the events of a run, in the order in which they are recorded.
* `jsonLines`, `toJson` — of `Jsonl`.

## What is proved

* `writable_of_mem_record` — every event that an operation records can be written.
* `printed` — what the results on trails assume of the printing of events holds of the node's.
* `readLines_page`, `readFiles_counts` — lines that are events are not counted as malformed.
* **`verbatim`** — a page has no malformed line, and shows events of the run, each as it was recorded and none twice.
-/

namespace Latiq.AgentCore

open RustStr (Text trim lines)
open Serde (Value)
open Latiq.Common (DatasetRef)
open Latiq.Lineage
open Window

/-! ### What is recorded can be written -/

theorem writable_baseRun (around : Surroundings) (r : QueryRecord) : (baseRun around r).facets.Writable :=
  Facets.Writable.with
    (Facets.Writable.with (List.forall_mem_nil _) (Facet.writable_identity r.identity.verified r.identity.subject
      (nonEmptyText r.identity.issuer) (some r.identity.agentId)))
    (Facet.writable_processingEngine r.engineVersion)

theorem writable_terminalRun (around : Surroundings) (r : QueryRecord) : (terminalRun around r).facets.Writable := by
  have hquery := (writable_baseRun around r).with
    (Facet.writable_query r.op (terminal r.error).2 r.durationMs r.meaning around.traceId)
  unfold terminalRun
  dsimp only
  split
  · exact hquery.with (Facet.writable_errorMessage _)
  · exact hquery

theorem writable_jobOf (nodeId : Text) (r : QueryRecord) (target : Option Text) : (jobOf nodeId r target).facets.Writable :=
  Facets.Writable.with
    (Facets.Writable.with
      (Facets.Writable.with (List.forall_mem_nil _) (Facet.writable_sql (redactSql r.sql)))
      (Facet.writable_jobType "QUERY"))
    (Facet.writable_pond r.info.pondId r.info.name nodeId)

theorem writable_toDataset (info : RecordedPond) (fallback : Option ℤ) (ref : DatasetRef) :
    (toDataset info fallback ref).facets.Writable := by
  have hbare : (⟨ref.ns.getD (datasetNamespace info.pondId), ref.name, []⟩ : Dataset).facets.Writable :=
    List.forall_mem_nil _
  unfold toDataset
  dsimp only
  cases ref.version.or fallback with
  | none =>
    split_ifs
    · exact hbare
    · exact hbare.with (Facet.writable_schema _)
  | some id =>
    have hversion := hbare.with (Facet.writable_datasetVersion id)
    split_ifs
    · exact hversion
    · exact hversion.with (Facet.writable_schema _)

/-- The events of an operation can be written. -/
theorem writable_of_mem_record {around : Surroundings} {nodeId : Text} {r : QueryRecord} {e : RunEvent}
    (he : e ∈ record around nodeId r) : e.Writable := by
  have hdatasets (fallback : Option ℤ) (refs : List DatasetRef) :
      ∀ d ∈ refs.map (toDataset r.info fallback), d.facets.Writable := by
    intro d hd
    obtain ⟨ref, -, rfl⟩ := List.mem_map.1 hd
    exact writable_toDataset r.info fallback ref
  simp only [record, List.mem_cons, List.not_mem_nil, or_false] at he
  rcases he with rfl | rfl
  · exact RunEvent.writable (writable_baseRun around r) (writable_jobOf nodeId r _) (hdatasets none _)
      (List.forall_mem_nil _)
  · exact RunEvent.writable (writable_terminalRun around r) (writable_jobOf nodeId r _) (hdatasets none _) (hdatasets _ _)

theorem writable_of_mem_emitLineage {around : Surroundings} {nodeId : Text} {r : QueryRecord} {e : RunEvent}
    (he : e ∈ emitLineage around nodeId r) : e.Writable := by
  unfold emitLineage at he
  split_ifs at he
  · exact writable_of_mem_record he
  · cases he

/-- **The node's lines** are printed as the results on trails assume. -/
theorem printed {τ : Type} {parse : Text → Option τ} {ch : Chrono τ} (h : ∀ t, parse (ch.rfc3339 t) = some t) :
    Printed (jsonLines parse) ch toJson where
  parse := h
  line e t ht := by
    obtain ⟨text, v, hjson, hline, hv, htime⟩ := toJson_line e
    exact ⟨text, hjson, hline.nonempty, hline.trimmed, hline.no_feed, hline.no_return, v, hv, ht ▸ htime⟩

/-! ### What a run emits -/

section

variable {τ : Type}

/-- The events of one step. -/
def TrailAct.events (ch : Chrono τ) : TrailAct τ → List RunEvent
  | .query r runId traceId nodeId startClock endClock =>
    emitLineage ⟨runId, traceId, ch.millisAgo startClock, ch.rfc3339 endClock⟩ nodeId r
  | _ => []

/-- The events of a run, in the order in which they are recorded. -/
def emitted (ch : Chrono τ) (acts : List (TrailAct τ)) : List RunEvent := acts.flatMap (TrailAct.events ch)

theorem writable_of_mem_emitted {ch : Chrono τ} {acts : List (TrailAct τ)} {e : RunEvent} (he : e ∈ emitted ch acts) :
    e.Writable := by
  obtain ⟨act, -, he⟩ := List.mem_flatMap.1 he
  cases act with
  | query r runId traceId nodeId startClock endClock => exact writable_of_mem_emitLineage he
  | _ => cases he

/-- The line of an event. -/
def lineOf (e : RunEvent) : Text := Json.print (Json.settled (.obj e.members))

theorem filterMap_toJson (events : List RunEvent) : events.filterMap toJson = events.map lineOf :=
  congrFun (List.filterMap_eq_map (f := lineOf)) events

variable {ch : Chrono τ} {w : LineageWriter}

theorem numbered_append (n : ℕ) (ts us : List Text) :
    numbered n (ts ++ us) = numbered n ts ++ numbered (n + ts.length) us := by
  unfold numbered
  rw [List.zipIdx_append, List.map_append]

/-- **What is recorded** in a run is what it emits, in order. -/
theorem recorded_run (hdir : w.dir.isSome) {acts : List (TrailAct τ)} {s s' : Writing} {before : List RunEvent}
    (hs : s.recorded = numbered 0 (before.map lineOf)) (h : Runs.run (trailStep w ch toJson) s acts = some s') :
    s'.recorded = numbered 0 ((before ++ emitted ch acts).map lineOf) := by
  induction acts generalizing s before with
  | nil =>
    cases h
    rw [emitted, List.flatMap_nil, List.append_nil]
    exact hs
  | cons act acts ih =>
    obtain ⟨t, hstep, hrest⟩ := Runs.run_cons.1 h
    have ht : t.recorded = numbered 0 ((before ++ act.events ch).map lineOf) := by
      cases act with
      | query r runId traceId nodeId startClock endClock =>
        cases hstep
        rw [bufferAll_recorded hdir, filterMap_toJson, hs, numbered_length, List.map_append, numbered_append, zero_add]
        rfl
      | _ =>
        have hsame : t.recorded = s.recorded := by
          rcases LineageWriter.step_recorded hstep with heq | ⟨events, hact, -⟩
          · exact heq
          · cases hact
        rw [hsame, hs]
        exact congrArg (fun l : List RunEvent => numbered 0 (l.map lineOf)) (List.append_nil before).symm
    have hall := ih ht hrest
    rwa [List.append_assoc] at hall

/-- A line that is recorded is the one of the event in its place. -/
theorem event_of_mem_numbered {events : List RunEvent} {l : Line} (h : l ∈ numbered 0 (events.map lineOf)) :
    ∃ e, events[l.seq]? = some e ∧ l.text = lineOf e := by
  unfold numbered at h
  obtain ⟨p, hp, rfl⟩ := List.mem_map.1 h
  have hget := List.mem_zipIdx_iff_getElem?.1 hp
  rw [List.getElem?_map] at hget
  obtain ⟨e, he, htext⟩ := Option.map_eq_some_iff.1 hget
  exact ⟨e, he, htext.symm⟩

end

/-! ### What is not counted -/

section

variable {τ : Type} [LinearOrder τ] {dec : Decoder τ} {cap : ℕ} {since before : Option τ}

/-- Every line is read, and is an event or blank. -/
def Sound (dec : Decoder τ) (ls : List (Option Text)) : Prop :=
  ∀ l ∈ ls, ∃ raw, l = some raw ∧ ((trim raw).isEmpty ∨ (dec.fromStr (trim raw)).isSome)

/-- **Sound lines** are not counted. -/
theorem readLines_page {ls : List (Option Text)} (h : Sound dec ls) (need : ℕ) (tail : Tail) (page : EventPage) :
    (readLines dec cap need since before ls tail page).2 = page := by
  induction ls generalizing tail with
  | nil => rfl
  | cons l ls ih =>
    obtain ⟨raw, rfl, hraw⟩ := h l List.mem_cons_self
    have hrest : Sound dec ls := fun l hl => h l (List.mem_cons_of_mem _ hl)
    unfold readLines
    dsimp only
    by_cases hempty : (trim raw).isEmpty
    · rw [if_pos hempty]
      exact ih hrest tail
    · obtain ⟨event, hevent⟩ := Option.isSome_iff_exists.1 (hraw.resolve_left hempty)
      rw [if_neg hempty, hevent]
      dsimp only
      split_ifs
      · exact ih hrest _
      · exact ih hrest _

/-- The counts of two pages are the same. -/
def SameCounts (p q : EventPage) : Prop := p.malformedLines = q.malformedLines ∧ p.unreadableFiles = q.unreadableFiles

theorem SameCounts.trans {p q r : EventPage} (h : SameCounts p q) (h' : SameCounts q r) : SameCounts p r :=
  ⟨h.1.trans h'.1, h.2.trans h'.2⟩

theorem takeTail_counts (limit : ℕ) (ring : List (Value × ℕ)) (page : EventPage) (bytes : ℕ) :
    SameCounts (takeTail cap limit ring page bytes).1 page := by
  induction ring generalizing page bytes with
  | nil => exact ⟨rfl, rfl⟩
  | cons e ring ih =>
    obtain ⟨event, len⟩ := e
    unfold takeTail
    split_ifs
    · exact ⟨rfl, rfl⟩
    · exact ih _ _

/-- **Files of sound lines** add nothing to the counts. -/
theorem readFiles_counts {d : Dir} {names : List Text} (h : ∀ n ∈ names, ∃ ls, d.file n = .lines ls ∧ Sound dec ls)
    (limit : ℕ) (page : EventPage) (bytes : ℕ) :
    SameCounts (readFiles dec cap d limit since before names page bytes).1 page := by
  induction names generalizing page bytes with
  | nil => exact ⟨rfl, rfl⟩
  | cons n names ih =>
    obtain ⟨ls, hfile, hsound⟩ := h n List.mem_cons_self
    have hrest := ih fun n hn => h n (List.mem_cons_of_mem _ hn)
    have hpage : (readLines dec cap (limit - page.events.length + 1) since before ls ⟨[], 0, none⟩ page).2 = page :=
      readLines_page hsound _ _ _
    unfold readFiles readTail
    rw [hfile]
    dsimp only
    rw [hpage]
    have hcounts : SameCounts (takeTail cap limit
        (readLines dec cap (limit - page.events.length + 1) since before ls ⟨[], 0, none⟩ page).1.ring.reverse
        page bytes).1 page :=
      takeTail_counts _ _ _ _
    split
    · rename_i heq
      rwa [heq] at hcounts
    · rename_i heq
      rw [heq] at hcounts
      split
      · exact hcounts
      · exact (hrest _ _).trans hcounts

theorem readNewestWithin_counts {d : Dir} {es : List (Option Text)} (hes : d.entries = some es)
    (h : ∀ n ∈ batchNames es, ∃ ls, d.file n = .lines ls ∧ Sound dec ls) {req : PageRequest} {page : EventPage}
    (hpage : readNewestWithin dec cap d req = .ok page) : page.malformedLines = 0 ∧ page.unreadableFiles = 0 := by
  unfold readNewestWithin at hpage
  cases hs : parseBound dec "since" req.since with
  | error e =>
    rw [hs] at hpage
    cases hpage
  | ok since =>
    cases hb : parseBound dec "before" req.before with
    | error e =>
      rw [hs, hb] at hpage
      cases hpage
    | ok before =>
      rw [hs, hb, newestNames_eq, hes] at hpage
      simp only [bind, Except.bind] at hpage
      have hnames : ∀ n ∈ (((batchNames es).insertionSort (· ≤ ·)).drop ((batchNames es).length - maxFiles)).reverse,
          ∃ ls, d.file n = .lines ls ∧ Sound dec ls := by
        intro n hn
        exact h n (List.mem_insertionSort (r := (· ≤ ·)) |>.1 (List.mem_of_mem_drop (List.mem_reverse.1 hn)))
      generalize hstart : (⟨[], decide (0 < (batchNames es).length - maxFiles), 0, 0⟩ : EventPage) = start at hpage
      have hcounts : SameCounts (readFiles dec cap d req.clamped since before _ start 0).1 start :=
        readFiles_counts hnames req.clamped start 0
      rw [← hstart] at hcounts hpage
      generalize readFiles dec cap d req.clamped since before _ _ 0 = res at hpage hcounts
      obtain ⟨p, excluded⟩ := res
      cases excluded with
      | none =>
        obtain rfl := Except.ok.inj hpage
        exact hcounts
      | some boundary =>
        obtain rfl := Except.ok.inj hpage
        exact hcounts

end

/-! ### A page -/

theorem cutOnATimestampBoundary_sublist (events : List Value) (boundary : Option Text) :
    (cutOnATimestampBoundary events boundary).Sublist events := by
  unfold cutOnATimestampBoundary
  cases boundary with
  | none => exact List.Sublist.refl events
  | some t =>
    dsimp only
    split_ifs
    · exact List.take_sublist _ _
    · exact List.Sublist.refl events

section

variable {τ : Type} [LinearOrder τ] {dec : Decoder τ} {cap : ℕ}

/-- A page is a part of what matches. -/
theorem events_sublist {d : Dir} {req : PageRequest} {page : EventPage} {all : List (Value × ℕ)} {older : Bool}
    (hmatch : matchingEvents dec d req = .ok (all, older)) (hpage : readNewestWithin dec cap d req = .ok page) :
    page.events.Sublist (all.map Prod.fst) := by
  obtain ⟨page', hpage', -, hevents⟩ : ∃ page', readNewestWithin dec cap d req = .ok page' ∧ _ ∧ _ :=
    readNewestWithin_ok hmatch
  obtain rfl := Except.ok.inj (hpage'.symm.trans hpage)
  rw [hevents]
  cases hleft : (fill (Fits req.clamped cap) [] all).2 with
  | none => exact List.Sublist.refl _
  | some e =>
    obtain ⟨r, hr⟩ := fill_of_some _ hleft
    have htaken : (fill (Fits req.clamped cap) [] all).1.Sublist all := by
      conv_rhs => rw [← List.nil_append all, hr]
      exact List.sublist_append_left _ _
    exact (cutOnATimestampBoundary_sublist _ _).trans (htaken.map Prod.fst)

/-- What matches is a part of what can be read of the batches, in any order of their names. -/
theorem matching_sublist (d : Dir) (names : List Text) (k : ℕ) (since before : Option τ) :
    (matching dec d (names.drop k) since before).Sublist (names.flatMap (readable dec d)).reverse := by
  have hdrop : ((names.drop k).flatMap (readable dec d)).Sublist (names.flatMap (readable dec d)) :=
    (List.drop_sublist k names).flatMap _
  exact List.reverse_sublist.2 (List.filter_sublist.trans hdrop)

end

/-! ### The files of a run -/

/-- The lines of the file of this name. -/
def batchNamed (files : List BatchFile) (n : Text) : List Line :=
  ((files.find? fun f => f.name = n).map BatchFile.batch).getD []

theorem batchNamed_name {files : List BatchFile} (h : (files.map BatchFile.name).Nodup) {f : BatchFile} (hf : f ∈ files) :
    batchNamed files f.name = f.batch := by
  unfold batchNamed
  cases hfind : files.find? fun g => decide (g.name = f.name) with
  | none => exact absurd (List.find?_eq_none.1 hfind f hf) (by simp)
  | some g =>
    have hname : g.name = f.name := by simpa using List.find?_some hfind
    obtain rfl : g = f := List.inj_on_of_nodup_map h (List.mem_of_find?_eq_some hfind) hf hname
    rfl

theorem flatMap_batchNamed {files : List BatchFile} (h : (files.map BatchFile.name).Nodup) :
    (files.map BatchFile.name).flatMap (batchNamed files) = files.flatMap BatchFile.batch := by
  rw [List.flatMap_map]
  exact List.flatMap_congr fun f hf => batchNamed_name h hf

section

variable {τ : Type} {ch : Chrono τ} {w : LineageWriter} {acts : List (TrailAct τ)} {s : Writing}

/-- What a run keeps of the writer. -/
theorem inv_of_run (h : Runs.run (trailStep w ch toJson) Writing.start acts = some s) : w.Inv s ∧ s.IdsDistinct :=
  Runs.run_invariant (I := fun s => w.Inv s ∧ s.IdsDistinct)
    (fun _ _ _ hI hstep => ⟨LineageWriter.Inv.step hI.1 hstep, hI.2.step hstep⟩)
    ⟨LineageWriter.Inv.start w, Writing.IdsDistinct.start⟩ h

/-- **Every line** that is recorded is of the event in its place. -/
theorem event_of_recorded (h : Runs.run (trailStep w ch toJson) Writing.start acts = some s) {l : Line}
    (hl : l ∈ s.recorded) : ∃ e, (emitted ch acts)[l.seq]? = some e ∧ l.text = lineOf e ∧ e.Writable := by
  obtain hdir | hdir := Option.eq_none_or_eq_some w.dir
  · rw [(inv_of_run h).1.unused hdir] at hl
    cases hl
  · obtain ⟨dir, hdir⟩ := hdir
    have hstart : (Writing.start).recorded = numbered 0 (([] : List RunEvent).map lineOf) := rfl
    have hrec := recorded_run (Option.isSome_iff_exists.2 ⟨dir, hdir⟩) hstart h
    rw [List.nil_append] at hrec
    obtain ⟨e, he, htext⟩ := event_of_mem_numbered (hrec ▸ hl)
    exact ⟨e, he, htext, writable_of_mem_emitted (List.mem_of_getElem? he)⟩

/-- What a reader is shown of a line. -/
def shownAt (events : List RunEvent) (l : Line) : Value := ((events[l.seq]?).map RunEvent.asRead).getD .null

theorem isLine_of_recorded (h : Runs.run (trailStep w ch toJson) Writing.start acts = some s) {l : Line}
    (hl : l ∈ s.recorded) : IsLine l.text ∧ Json.fromLine l.text = some (shownAt (emitted ch acts) l) := by
  obtain ⟨e, he, htext, hw⟩ := event_of_recorded h hl
  obtain ⟨text, hjson, hline, hread⟩ := toJson_asRead hw
  obtain rfl : lineOf e = text := Option.some.inj hjson
  rw [htext, shownAt, he]
  exact ⟨hline, hread⟩

end

section

variable {τ : Type} [LinearOrder τ] {parse : Text → Option τ} {ch : Chrono τ} {w : LineageWriter}
  {acts : List (TrailAct τ)} {s : Writing} {d : Dir}

omit [LinearOrder τ] in
/-- A file of the run, as it is read. -/
theorem file_of_run (h : Runs.run (trailStep w ch toJson) Writing.start acts = some s) (hl : Listing s.files d)
    {f : BatchFile} (hf : f ∈ s.files) :
    readable (jsonLines parse) d f.name = f.batch.map (fun l => (shownAt (emitted ch acts) l, utf8Len l.text)) ∧
      ∃ ls, d.file f.name = .lines ls ∧ Sound (jsonLines parse) ls := by
  have hrec : ∀ l ∈ f.batch, l ∈ s.recorded := fun l hl => (inv_of_run h).1.recorded_of_mem_file hf hl
  have hdecode : ∀ l ∈ f.batch,
      decodeLine (jsonLines parse) l.text = some (shownAt (emitted ch acts) l, utf8Len l.text) := by
    intro l hmem
    obtain ⟨hline, hread⟩ := isLine_of_recorded h (hrec l hmem)
    have hparse : (jsonLines parse).fromStr l.text = some (shownAt (emitted ch acts) l) := hread
    unfold decodeLine
    rw [hline.trimmed, if_neg (by simpa using hline.nonempty), hparse]
    rfl
  by_cases hnil : f.batch = []
  · have hbody : lines f.body = [[]] := by
      rw [BatchFile.body, hnil]
      rfl
    refine ⟨?_, _, hl.file f hf, ?_⟩
    · unfold readable
      rw [hl.file f hf, hbody, hnil]
      rfl
    · intro l hmem
      rw [hbody] at hmem
      exact ⟨[], List.mem_singleton.1 hmem, .inl rfl⟩
  · have hlines : lines f.body = f.batch.map Line.text := by
      refine RustStr.lines_intercalate (by simpa using hnil) (fun t ht => ?_) fun t ht => ?_
      · obtain ⟨l, hmem, rfl⟩ := List.mem_map.1 ht
        exact (isLine_of_recorded h (hrec l hmem)).1.no_feed
      · obtain ⟨l, hmem, rfl⟩ := List.mem_map.1 ht
        exact (isLine_of_recorded h (hrec l hmem)).1.no_return
    refine ⟨?_, _, hl.file f hf, ?_⟩
    · unfold readable
      rw [hl.file f hf]
      dsimp only
      rw [hlines, List.map_map, List.takeWhile_eq_self_iff.2 fun x hx => by
        obtain ⟨t, -, rfl⟩ := List.mem_map.1 hx
        rfl, List.filterMap_map]
      have hid : f.batch.filterMap (id ∘ some ∘ Line.text) = f.batch.map Line.text :=
        congrFun (List.filterMap_eq_map (f := Line.text)) f.batch
      rw [hid, List.filterMap_map, ← congrFun (List.filterMap_eq_map (f := _)) f.batch]
      exact List.filterMap_congr hdecode
    · intro x hx
      rw [hlines, List.map_map] at hx
      obtain ⟨l, hmem, rfl⟩ := List.mem_map.1 hx
      obtain ⟨hline, hread⟩ := isLine_of_recorded h (hrec l hmem)
      refine ⟨l.text, rfl, .inr ?_⟩
      rw [hline.trimmed]
      exact Option.isSome_iff_exists.2 ⟨_, hread⟩

/-- **A trail is read verbatim**: whatever queries end in a run, whatever becomes of the flushes and however they interleave,
a page of the pond's trail counts no malformed line and no unreadable file, and each of its events is, with every member,
one that the run has emitted, in a place of its own. -/
theorem verbatim (hrun : Runs.run (trailStep w ch toJson) Writing.start acts = some s) (hl : Listing s.files d)
    {cap : ℕ} {req : PageRequest} {page : EventPage} (hpage : readNewestWithin (jsonLines parse) cap d req = .ok page) :
    page.malformedLines = 0 ∧ page.unreadableFiles = 0 ∧
      ∃ places : List ℕ, places.Nodup ∧
        page.events.map some = places.map fun i => ((emitted ch acts)[i]?).map RunEvent.asRead := by
  obtain ⟨hw, hids⟩ := inv_of_run hrun
  obtain ⟨names, hes, hperm⟩ := hl.entries
  have hnames : batchNames (names.map some) = names.filter isBatch := by
    unfold batchNames
    rw [List.filterMap_map]
    exact congrArg _ List.filterMap_some
  have hmem (n : Text) (hn : n ∈ batchNames (names.map some)) : ∃ f ∈ s.files, f.name = n := by
    rw [hnames] at hn
    exact List.mem_map.1 (hperm.mem_iff.1 hn)
  have hcounts := readNewestWithin_counts hes (fun n hn => by
    obtain ⟨f, hf, rfl⟩ := hmem n hn
    exact (file_of_run hrun hl hf).2) hpage
  refine ⟨hcounts.1, hcounts.2, ?_⟩
  obtain ⟨all, older, hmatch⟩ := matchingEvents_of_page hpage
  obtain ⟨es, since, before, hes', hsince, hbefore, holder, hall⟩ := bounds_of_matchingEvents hmatch
  obtain rfl := Option.some.inj (hes.symm.trans hes')
  -- all that can be read is of the lines of the files, file by file
  generalize hsorted : (batchNames (names.map some)).insertionSort (· ≤ ·) = sorted at hall
  have hsperm : sorted.Perm (s.files.map BatchFile.name) := by
    rw [← hsorted, hnames]
    exact (List.perm_insertionSort _ _).trans hperm
  have hread : sorted.flatMap (readable (jsonLines parse) d) =
      (sorted.flatMap (batchNamed s.files)).map fun l => (shownAt (emitted ch acts) l, utf8Len l.text) := by
    rw [List.map_flatMap]
    refine List.flatMap_congr fun n hn => ?_
    obtain ⟨f, hf, rfl⟩ := List.mem_map.1 (hsperm.mem_iff.1 hn)
    rw [batchNamed_name hids.names_nodup hf]
    exact (file_of_run hrun hl hf).1
  have hvisible : (sorted.flatMap (batchNamed s.files)).Perm s.visible := by
    have hp := hsperm.flatMap_right (batchNamed s.files)
    rwa [flatMap_batchNamed hids.names_nodup] at hp
  have hpart := (hall ▸ events_sublist hmatch hpage).trans ((matching_sublist d sorted _ since before).map Prod.fst)
  rw [hread, ← List.map_reverse, List.map_map] at hpart
  obtain ⟨shown, hshown, hevents⟩ := List.sublist_map_iff.1 hpart
  have hrecorded : ∀ l ∈ shown, l ∈ s.recorded := by
    intro l hmem
    obtain ⟨f, hf, hlf⟩ := List.mem_flatMap.1 (hvisible.mem_iff.1 (List.mem_reverse.1 (hshown.subset hmem)))
    exact hw.recorded_of_mem_file hf hlf
  have hnodup : s.visible.Nodup := by
    refine List.nodup_iff_count_le_one.2 fun l => ?_
    have hcopies := hw.counted l
    have hone := List.nodup_iff_count_le_one.1 hw.nodup l
    unfold Writing.copies at hcopies
    omega
  refine ⟨shown.map Line.seq, ?_, ?_⟩
  · have hinj := List.inj_on_of_nodup_map (f := Line.seq) (l := s.recorded) (hw.numbered ▸ List.nodup_range)
    have hdistinct : shown.Nodup := (List.nodup_reverse.2 (hvisible.nodup_iff.2 hnodup)).sublist hshown
    exact List.Nodup.map_on (fun x hx y hy heq => hinj (hrecorded x hx) (hrecorded y hy) heq) hdistinct
  · rw [hevents, List.map_map, List.map_map]
    refine List.map_congr_left fun l hmem => ?_
    obtain ⟨e, he, -, -⟩ := event_of_recorded hrun (hrecorded l hmem)
    show some (shownAt (emitted ch acts) l) = ((emitted ch acts)[l.seq]?).map RunEvent.asRead
    rw [shownAt, he]
    rfl

end

/-- Two queries, one after the other, and a flush of both. -/
theorem verbatim_one_by_one : ∃ s page,
    Runs.run (trailStep (LineageWriter.new "/l".toList) seconds toJson) Writing.start oneByOne = some s ∧
      readNewestWithin (jsonLines secondsDecoder.parse) maxBytes (dirOf s) ⟨10, none, none⟩ = .ok page ∧
      page.malformedLines = 0 ∧ page.unreadableFiles = 0 ∧
      ∃ places : List ℕ, places.Nodup ∧
        page.events.map some = places.map fun i => ((emitted seconds oneByOne)[i]?).map RunEvent.asRead := by
  have hrun : (Runs.run (trailStep (LineageWriter.new "/l".toList) seconds toJson) Writing.start oneByOne).isSome := by
    decide +kernel
  obtain ⟨s, hs⟩ := Option.isSome_iff_exists.1 hrun
  have hl := listing_dirOf (inv_of_run hs).2.names_nodup
  obtain ⟨page, hpage, -, -⟩ : ∃ page,
      readNewestWithin (jsonLines secondsDecoder.parse) maxBytes (dirOf s) ⟨10, none, none⟩ = .ok page ∧ _ ∧ _ :=
    readNewestWithin_ok rfl
  exact ⟨s, page, hs, hpage, verbatim hs hl hpage⟩

end Latiq.AgentCore
