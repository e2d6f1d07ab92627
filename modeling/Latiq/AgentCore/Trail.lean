import Latiq.AgentCore.Lineage
import Latiq.Library.Paging
import Latiq.Lineage.Reader
import Latiq.Lineage.Writer
import Mathlib.Order.WithBot

/-!
# Paging through the trail that is written

Queries emit their two events when they end, the `START` with the time at which they began; the writer buffers and
batches them; and a reader pages through the files, each time before the oldest event that it has received.

## The model

* `Chrono`, `Printed` — how times are written and subtracted, and how events are printed and read back.
* `TrailAct` — what can happen to a pond's trail: a query ends, and the steps of the flushes.
* `Listing` — a directory as a reader sees it, of a writer's files.
* `pageThrough` — the reader's loop.

## What is proved

* `pages_all` — from a trail whose times descend, with no more events of one time than a page takes, the pages come to
  every matching event, in order.
* `pages_iff` — in every state of a run every way of paging comes to every event once, in exactly the runs in which each
  batch is in order of time and made visible behind all that is earlier and before all that is later.
* `overlapping_queries` — a long query that ends behind a short one.
-/

namespace Latiq.AgentCore

open RustStr (Text trim lines)
open Serde (Value)
open Latiq.Lineage
open Window Paging

/-! ### Times and printed events -/

/-- What is used of `chrono`: how an instant is written, and an instant some milliseconds before another, unless that is
out of range. -/
structure Chrono (τ : Type) where
  rfc3339 : τ → Text
  checkedSub : τ → ℕ → Option τ

/-- `rfc3339_millis_ago`, at an instant. -/
def Chrono.millisAgo {τ : Type} (ch : Chrono τ) (now : τ) (millis : ℕ) : Text :=
  ch.rfc3339 ((ch.checkedSub now millis).getD now)

section

variable {τ : Type} [LinearOrder τ]

/-- The time of an event, if it has one. -/
def timeKey (dec : Decoder τ) (v : Value) : WithBot τ := (eventTime v).bind dec.parse

/-- A line that is read back as an event with this time. -/
structure ReadsAs (dec : Decoder τ) (text : Text) (written : Text) : Prop where
  nonempty : text ≠ []
  trimmed : trim text = text
  no_feed : '\n' ∉ text
  no_return : text.getLast? ≠ some '\r'
  event : ∃ v, dec.fromStr text = some v ∧ eventTime v = some written

/-- Instants are written as they are read, and an event is printed on one line, from which it is read back. -/
structure Printed (dec : Decoder τ) (ch : Chrono τ) (toJson : RunEvent → Option Text) : Prop where
  parse : ∀ t, dec.parse (ch.rfc3339 t) = some t
  line : ∀ e t, e.eventTime = ch.rfc3339 t → ∃ text, toJson e = some text ∧ ReadsAs dec text (ch.rfc3339 t)

/-! ### The trail -/

/-- What can happen to a trail. A query ends: it takes a run id, and the clock for each of its two events. -/
inductive TrailAct (τ : Type) where
  | query (r : QueryRecord) (runId : Text) (traceId : Option Text) (nodeId : Text) (startClock endClock : τ)
  | take (millis : ℕ)
  | write (i : ℕ) (id : Text) (ok : Bool)
  | rename (i : ℕ) (ok : Bool)
  | requeue (i : ℕ)

/-- The step of the writer. -/
def TrailAct.toAct (ch : Chrono τ) : TrailAct τ → Act RunEvent
  | .query r runId traceId nodeId startClock endClock =>
    .bufferAll (emitLineage ⟨runId, traceId, ch.millisAgo startClock, ch.rfc3339 endClock⟩ nodeId r)
  | .take millis => .take millis
  | .write i id ok => .write i id ok
  | .rename i ok => .rename i ok
  | .requeue i => .requeue i

/-- One step of a pond's trail. -/
def trailStep (w : LineageWriter) (ch : Chrono τ) (toJson : RunEvent → Option Text) (s : Writing) (a : TrailAct τ) :
    Option Writing :=
  w.step toJson s (a.toAct ch)

/-- A directory with these visible files, listed in any order and among others, each read to its end. -/
structure Listing (files : List BatchFile) (d : Dir) : Prop where
  entries : ∃ es : List Text, d.entries = some (es.map some) ∧ (es.filter isBatch).Perm (files.map BatchFile.name)
  file : ∀ f ∈ files, d.file f.name = .lines ((lines f.body).map some)

/-! ### The reader's loop -/

/-- The earlier of two timestamps. -/
def earlier (dec : Decoder τ) (s t : Text) : Text :=
  match dec.parse s, dec.parse t with
  | some a, some b => if b < a then t else s
  | none, some _ => t
  | _, none => s

/-- The oldest timestamp among events. -/
def oldest (dec : Decoder τ) (events : List Value) : Option Text :=
  (events.filterMap eventTime).foldl (fun o t => some ((o.map fun s => earlier dec s t).getD t)) none

/-- Reading until a page is not truncated, each page before the oldest event received: all that is received. -/
def pageThrough (dec : Decoder τ) (cap : ℕ) (d : Dir) (req : PageRequest) : ℕ → List Value → Option (List Value)
  | 0, _ => none
  | k + 1, received =>
    let before := if received.isEmpty then req.before else oldest dec received
    match readNewestWithin dec cap d { req with before } with
    | .error _ => none
    | .ok page =>
      if page.truncated then pageThrough dec cap d req k (received ++ page.events) else some (received ++ page.events)

/-- Every matching event is received exactly once. -/
def ReadsAll (dec : Decoder τ) (cap : ℕ) (d : Dir) (req : PageRequest) : Prop :=
  ∃ all older, matchingEvents dec d req = .ok (all, older) ∧
    ∃ k received, pageThrough dec cap d req k [] = some received ∧ received.Perm (all.map Prod.fst)

/-- Bounds that are timestamps. -/
def PageRequestValid (dec : Decoder τ) (req : PageRequest) : Prop :=
  (∀ t ∈ req.since, (dec.parse t).isSome) ∧ ∀ t ∈ req.before, (dec.parse t).isSome

/-! ### In order of time -/

/-- The time of a line. -/
def lineTime (dec : Decoder τ) (l : Line) : WithBot τ := ((decodeLine dec l.text).bind fun e => eventTime e.1).bind dec.parse

/-- Every line of the one is of an earlier event than every line of the other. -/
def Earlier (dec : Decoder τ) (xs ys : List Line) : Prop := ∀ x ∈ xs, ∀ y ∈ ys, lineTime dec x < lineTime dec y

/-- Files are in order of time, within and by their names. -/
structure Chronological (dec : Decoder τ) (files : List BatchFile) : Prop where
  within : ∀ f ∈ files, f.batch.Pairwise fun x y => lineTime dec x < lineTime dec y
  across : ∀ f ∈ files, ∀ g ∈ files, f.name < g.name → Earlier dec f.batch g.batch

/-- A file is in order of time, and behind the earlier and before the later files. -/
def InPlace (dec : Decoder τ) (files : List BatchFile) (f : BatchFile) : Prop :=
  f.batch.Pairwise (fun x y => lineTime dec x < lineTime dec y) ∧
    ∀ g ∈ files, (g.name < f.name → Earlier dec g.batch f.batch) ∧ (f.name < g.name → Earlier dec f.batch g.batch)

/-- A batch that is made visible, as one of the first `maxFiles`, is in its place. -/
def PublishesInOrder (dec : Decoder τ) (s : Writing) : TrailAct τ → Prop
  | .rename i true => ∀ f ∈ s.flushes[i]?, ∀ id, f.stage = .written id → s.files.length < maxFiles →
      InPlace dec s.files ⟨f.millis, id, f.batch⟩
  | _ => True

/-! ### A page of the reader -/

variable {dec : Decoder τ} {ch : Chrono τ}

/-- An event whose time is an instant as it is written. -/
def Timed (ch : Chrono τ) (v : Value) : Prop := ∃ t, eventTime v = some (ch.rfc3339 t)

/-- What is used of `Printed` for times only. -/
def ParsesBack (dec : Decoder τ) (ch : Chrono τ) : Prop := ∀ t, dec.parse (ch.rfc3339 t) = some t

omit [LinearOrder τ] in
theorem timeKey_of_eventTime (hp : ParsesBack dec ch) {v : Value} {t : τ} (h : eventTime v = some (ch.rfc3339 t)) :
    timeKey dec v = t := by
  unfold timeKey
  rw [h]
  exact hp t

/-- An event with a time that can be read. -/
def Dated (dec : Decoder τ) (v : Value) : Prop := ∃ t : τ, timeKey dec v = t

omit [LinearOrder τ] in
theorem dated_of_timed (hp : ParsesBack dec ch) {v : Value} (hv : Timed ch v) : Dated dec v := by
  obtain ⟨t, ht⟩ := hv
  exact ⟨t, timeKey_of_eventTime hp ht⟩

omit [LinearOrder τ] in
theorem eventTime_eq_iff (hp : ParsesBack dec ch) {v : Value} {t : τ} (hv : Timed ch v) :
    eventTime v = some (ch.rfc3339 t) ↔ timeKey dec v = t := by
  constructor
  · exact timeKey_of_eventTime hp
  · intro h
    obtain ⟨u, hu⟩ := hv
    rw [timeKey_of_eventTime hp hu] at h
    rw [hu, WithBot.coe_injective h]

omit [LinearOrder τ] in
/-- The cut of the reader, by a key that tells who has the timestamp. -/
theorem cutOnATimestampBoundary_eq_cutTie {σ : Type} [LinearOrder σ] {key : Value → σ} {s : Text} {w : σ}
    {p : List (Value × ℕ)} (h : ∀ x ∈ p, eventTime x.1 = some s ↔ key x.1 = w) :
    cutOnATimestampBoundary (p.map Prod.fst) (some s) = (cutTie key w p).map Prod.fst := by
  have htake : (p.map Prod.fst).takeWhile (fun e => ¬eventTime e = some s) =
      (p.takeWhile fun x => key x.1 ≠ w).map Prod.fst := by
    rw [List.takeWhile_map]
    congr 1
    induction p with
    | nil => rfl
    | cons x p ih =>
      have hx := h x List.mem_cons_self
      have hrest := ih fun y hy => h y (List.mem_cons_of_mem _ hy)
      by_cases hkey : key x.1 = w
      · rw [List.takeWhile_cons_of_neg (by simpa using hx.2 hkey), List.takeWhile_cons_of_neg (by simpa using hkey)]
      · rw [List.takeWhile_cons_of_pos (by simpa using fun hbad => hkey (hx.1 hbad)),
          List.takeWhile_cons_of_pos (by simpa using hkey), hrest]
  rw [cutOnATimestampBoundary_some, htake, List.length_map]
  unfold cutTie
  by_cases hnil : (p.takeWhile fun x => key x.1 ≠ w) = []
  · rw [if_pos hnil, hnil, List.length_nil, if_neg (Nat.lt_irrefl 0)]
  · rw [if_neg hnil, if_pos (List.length_pos_iff.2 hnil)]

/-- The cut of the reader, of events with times. -/
theorem cutOnATimestampBoundary_eq (hp : ParsesBack dec ch) {p : List (Value × ℕ)} (hall : ∀ x ∈ p, Timed ch x.1) {v : Value}
    (hv : Timed ch v) :
    cutOnATimestampBoundary (p.map Prod.fst) (eventTime v) =
      (cutTie (timeKey dec) (timeKey dec v) p).map Prod.fst := by
  obtain ⟨t, ht⟩ := hv
  rw [ht, timeKey_of_eventTime hp ht]
  exact cutOnATimestampBoundary_eq_cutTie fun x hx => eventTime_eq_iff hp (hall x hx)

/-- **A page** of the reader, where all that matches has a time and there are no older batches. -/
theorem readNewestWithin_eq (hp : ParsesBack dec ch) (cap : ℕ) {d : Dir} {req : PageRequest} {all : List (Value × ℕ)}
    (h : matchingEvents dec d req = .ok (all, false)) (hall : ∀ x ∈ all, Timed ch x.1) :
    ∃ page, readNewestWithin dec cap d req = .ok page ∧
      page.events = (Paging.page (timeKey dec) req.clamped cap all).1.map Prod.fst ∧
      page.truncated = (Paging.page (timeKey dec) req.clamped cap all).2 := by
  obtain ⟨page, hread, htrunc, hevents⟩ := readNewestWithin_ok h
  rw [Bool.false_or] at htrunc
  refine ⟨page, hread, ?_⟩
  rw [hevents, htrunc]
  cases hleft : (fill (Fits req.clamped cap) [] all).2 with
  | none =>
    rw [page_of_none hleft]
    exact ⟨rfl, rfl⟩
  | some e =>
    obtain ⟨r, hr⟩ := fill_of_some _ hleft
    rw [List.nil_append] at hr
    rw [page_of_some hleft, ← cutOnATimestampBoundary_eq hp (fun x hx => hall x (hr ▸ List.mem_append_left _ hx))
      (hall e (hr ▸ List.mem_append_right _ List.mem_cons_self))]
    exact ⟨rfl, rfl⟩

/-! ### What matches -/

/-- The events of all visible files, newest first. -/
def trailOf (dec : Decoder τ) (d : Dir) (files : List BatchFile) : List (Value × ℕ) :=
  (((files.map BatchFile.name).insertionSort (· ≤ ·)).flatMap (readable dec d)).reverse

variable {files : List BatchFile} {d : Dir}

theorem matchingEvents_eq (hl : Listing files d) (hn : files.length ≤ maxFiles) (req : PageRequest) {since before : Option τ}
    (hs : parseBound dec "since" req.since = .ok since) (hb : parseBound dec "before" req.before = .ok before) :
    matchingEvents dec d req = .ok ((trailOf dec d files).filter fun e => selected dec e.1 since before, false) := by
  obtain ⟨es, hes, hperm⟩ := hl.entries
  have hnames : batchNames (es.map some) = es.filter isBatch := by
    unfold batchNames
    rw [List.filterMap_map]
    exact congrArg _ List.filterMap_some
  have hsorted : (es.filter isBatch).insertionSort (· ≤ ·) = (files.map BatchFile.name).insertionSort (· ≤ ·) := by
    have h := (List.perm_insertionSort (· ≤ ·) (es.filter isBatch)).trans
      (hperm.trans (List.perm_insertionSort (· ≤ ·) (files.map BatchFile.name)).symm)
    exact h.eq_of_pairwise' (List.pairwise_insertionSort _ _) (List.pairwise_insertionSort _ _)
  have hlen : ((files.map BatchFile.name).insertionSort (· ≤ ·)).length ≤ maxFiles := by
    rwa [List.length_insertionSort, List.length_map]
  unfold matchingEvents
  rw [hs, hb, hes]
  simp only [bind, Except.bind, hnames, hsorted, Nat.sub_eq_zero_of_le hlen, List.drop_zero, Nat.not_lt.2 hlen,
    decide_false]
  unfold matching trailOf
  rw [List.filter_reverse]

omit [LinearOrder τ] in
theorem parseBound_time (hp : ParsesBack dec ch) (field : String) (t : τ) :
    parseBound dec field (some (ch.rfc3339 t)) = .ok (some t) := by
  unfold parseBound
  dsimp only
  rw [hp t]

omit [LinearOrder τ] in
theorem parseBound_of_valid (field : String) {raw : Option Text} (h : ∀ t ∈ raw, (dec.parse t).isSome) :
    ∃ b, parseBound dec field raw = .ok b := by
  cases raw with
  | none => exact ⟨none, rfl⟩
  | some t =>
    obtain ⟨b, hb⟩ := Option.isSome_iff_exists.1 (h t rfl)
    exact ⟨some b, by simp [parseBound, hb]⟩

/-- What is selected, of an event with a time. -/
theorem selected_iff {v : Value} (hv : Dated dec v) (since before : Option τ) :
    selected dec v since before = true ↔ (∀ a ∈ since, (a : WithBot τ) ≤ timeKey dec v) ∧
      ∀ b ∈ before, timeKey dec v < b := by
  obtain ⟨t, ht⟩ := hv
  have hparse : (eventTime v).bind dec.parse = some t := ht
  rw [ht]
  unfold selected
  rw [hparse]
  cases since with
  | none => cases before <;> simp
  | some a => cases before <;> simp

/-- A cursor that is the time of what has been received last, in time: what is selected is what is below all received. -/
theorem filter_selected_eq {l received : List (Value × ℕ)} (hl : ∀ x ∈ l, Dated dec x.1)
    {since before : Option τ} (hr : ∀ x ∈ received, x ∈ l.filter fun e => selected dec e.1 since before) {t : τ}
    (hle : ∀ x ∈ received, (t : WithBot τ) ≤ timeKey dec x.1) (hex : ∃ x ∈ received, timeKey dec x.1 = t) :
    (l.filter fun e => selected dec e.1 since (some t)) =
      below (timeKey dec) received (l.filter fun e => selected dec e.1 since before) := by
  unfold below
  rw [List.filter_filter]
  refine List.filter_congr fun x hx => ?_
  rw [Bool.eq_iff_iff, Bool.and_eq_true, decide_eq_true_iff, selected_iff (hl x hx), selected_iff (hl x hx)]
  obtain ⟨y, hy, hyt⟩ := hex
  obtain ⟨hyl, hysel⟩ := List.mem_filter.1 (hr y hy)
  have hybefore := ((selected_iff (hl y hyl) since before).1 hysel).2
  constructor
  · rintro ⟨hsince, hlt⟩
    have hxt : timeKey dec x.1 < t := hlt t rfl
    refine ⟨fun z hz => hxt.trans_le (hle z hz), hsince, fun b hb => ?_⟩
    exact hxt.trans (hyt ▸ hybefore b hb)
  · rintro ⟨hbelow, hsince, -⟩
    refine ⟨hsince, ?_⟩
    rintro b hb
    cases hb
    exact hyt ▸ hbelow y hy

/-! ### The oldest event received -/

theorem earlier_eq (hp : ParsesBack dec ch) (a b : τ) :
    earlier dec (ch.rfc3339 a) (ch.rfc3339 b) = ch.rfc3339 (min a b) := by
  unfold earlier
  rw [hp a, hp b]
  dsimp only
  split_ifs with h
  · rw [min_eq_right h.le]
  · rw [min_eq_left (not_lt.1 h)]

theorem oldest_fold (hp : ParsesBack dec ch) (events : List Value) (h : ∀ v ∈ events, Timed ch v) (a : τ) :
    ∃ t, (events.filterMap eventTime).foldl (fun o t => some ((o.map fun s => earlier dec s t).getD t))
        (some (ch.rfc3339 a)) = some (ch.rfc3339 t) ∧ t ≤ a ∧ (∀ v ∈ events, (t : WithBot τ) ≤ timeKey dec v) ∧
      (t = a ∨ ∃ v ∈ events, timeKey dec v = t) := by
  induction events generalizing a with
  | nil => exact ⟨a, rfl, le_rfl, nofun, .inl rfl⟩
  | cons v events ih =>
    obtain ⟨b, hb⟩ := h v List.mem_cons_self
    obtain ⟨t, hfold, hle, hall, hex⟩ := ih (fun u hu => h u (List.mem_cons_of_mem _ hu)) (min a b)
    have hkey := timeKey_of_eventTime hp hb
    refine ⟨t, ?_, hle.trans (min_le_left _ _), ?_, ?_⟩
    · rw [List.filterMap_cons, hb, List.foldl_cons, Option.map_some, Option.getD_some, earlier_eq hp]
      exact hfold
    · intro u hu
      rcases List.mem_cons.1 hu with rfl | hu
      · rw [hkey]
        exact WithBot.coe_le_coe.2 (hle.trans (min_le_right _ _))
      · exact hall u hu
    · rcases hex with rfl | ⟨u, hu, hut⟩
      · rcases le_total a b with hab | hba
        · exact .inl (min_eq_left hab)
        · exact .inr ⟨v, List.mem_cons_self, by rw [hkey, min_eq_right hba]⟩
      · exact .inr ⟨u, List.mem_cons_of_mem _ hu, hut⟩

/-- The oldest of events with times. -/
theorem oldest_eq (hp : ParsesBack dec ch) {events : List Value} (hne : events ≠ []) (h : ∀ v ∈ events, Timed ch v) :
    ∃ t, oldest dec events = some (ch.rfc3339 t) ∧ (∀ v ∈ events, (t : WithBot τ) ≤ timeKey dec v) ∧
      ∃ v ∈ events, timeKey dec v = t := by
  obtain ⟨v, rest, rfl⟩ := List.exists_cons_of_ne_nil hne
  obtain ⟨a, ha⟩ := h v List.mem_cons_self
  obtain ⟨t, hfold, hle, hall, hex⟩ := oldest_fold hp rest (fun u hu => h u (List.mem_cons_of_mem _ hu)) a
  have hkey := timeKey_of_eventTime hp ha
  refine ⟨t, ?_, ?_, ?_⟩
  · unfold oldest
    rw [List.filterMap_cons, ha]
    exact hfold
  · intro u hu
    rcases List.mem_cons.1 hu with rfl | hu
    · rw [hkey]
      exact WithBot.coe_le_coe.2 hle
    · exact hall u hu
  · rcases hex with rfl | ⟨u, hu, hut⟩
    · exact ⟨v, List.mem_cons_self, hkey⟩
    · exact ⟨u, List.mem_cons_of_mem _ hu, hut⟩

/-! ### The loop of the reader -/

/-- What a reader starts from: a listing with at most `maxFiles` files, of events with times, and bounds that are read. -/
structure Paged (dec : Decoder τ) (ch : Chrono τ) (files : List BatchFile) (d : Dir) (req : PageRequest) (since before : Option τ) :
    Prop where
  parses : ParsesBack dec ch
  listing : Listing files d
  few : files.length ≤ maxFiles
  timed : ∀ x ∈ trailOf dec d files, Timed ch x.1
  since : parseBound dec "since" req.since = .ok since
  before : parseBound dec "before" req.before = .ok before

/-- All that matches the request. -/
def wanted (dec : Decoder τ) (d : Dir) (files : List BatchFile) (since before : Option τ) : List (Value × ℕ) :=
  (trailOf dec d files).filter fun e => selected dec e.1 since before

variable {req : PageRequest} {since before : Option τ} {cap : ℕ}

theorem pageThrough_eq_match (received : List Value) (k : ℕ) :
    pageThrough dec cap d req (k + 1) received =
      match readNewestWithin dec cap d
        { req with before := if received.isEmpty then req.before else oldest dec received } with
      | .error _ => none
      | .ok page =>
        if page.truncated then pageThrough dec cap d req k (received ++ page.events) else some (received ++ page.events) :=
  rfl

namespace Paged

/-- One reading of the loop: a page of what is below all that was received. -/
theorem pageThrough_succ (h : Paged dec ch files d req since before) {received : List (Value × ℕ)}
    (hr : ∀ x ∈ received, x ∈ wanted dec d files since before) (k : ℕ) :
    pageThrough dec cap d req (k + 1) (received.map Prod.fst) =
      let p := Paging.page (timeKey dec) req.clamped cap (below (timeKey dec) received (wanted dec d files since before))
      if p.2 then pageThrough dec cap d req k ((received ++ p.1).map Prod.fst) else some ((received ++ p.1).map Prod.fst) := by
  -- the cursor, and what matches under it
  obtain ⟨cursor, b, hcursor, hbound, hmatch⟩ : ∃ cursor b,
      (if (received.map Prod.fst).isEmpty then req.before else oldest dec (received.map Prod.fst)) = cursor ∧
        parseBound dec "before" cursor = .ok b ∧
        (trailOf dec d files).filter (fun e => selected dec e.1 since b) =
          below (timeKey dec) received (wanted dec d files since before) := by
    by_cases hnil : received = []
    · subst hnil
      exact ⟨req.before, before, rfl, h.before, (below_nil _).symm⟩
    · have hne : received.map Prod.fst ≠ [] := by simpa using hnil
      have htimed : ∀ v ∈ received.map Prod.fst, Timed ch v := by
        intro v hv
        obtain ⟨x, hx, rfl⟩ := List.mem_map.1 hv
        exact h.timed x (List.mem_filter.1 (hr x hx)).1
      obtain ⟨t, ht, hle, v, hv, hvt⟩ := oldest_eq h.parses hne htimed
      obtain ⟨x, hx, rfl⟩ := List.mem_map.1 hv
      refine ⟨some (ch.rfc3339 t), some t, ?_, parseBound_time h.parses _ t, ?_⟩
      · rw [if_neg (by simpa using hnil), ht]
      · exact filter_selected_eq (fun x hx => dated_of_timed h.parses (h.timed x hx)) hr
          (fun y hy => hle y.1 (List.mem_map_of_mem hy)) ⟨x, hx, hvt⟩
  have hall := matchingEvents_eq h.listing h.few { req with before := cursor } h.since hbound
  rw [hmatch] at hall
  have htimed : ∀ x ∈ below (timeKey dec) received (wanted dec d files since before), Timed ch x.1 := by
    intro x hx
    exact h.timed x (List.mem_filter.1 ((below_sublist _ _).subset hx)).1
  obtain ⟨page, hpage, hevents, htrunc⟩ := readNewestWithin_eq h.parses cap hall htimed
  rw [pageThrough_eq_match, hcursor, hpage]
  dsimp only
  rw [htrunc, hevents, ← List.map_append]
  rfl

/-- What is received is a walk through what is wanted. -/
theorem pageThrough_eq (h : Paged dec ch files d req since before) {k : ℕ} (received : List (Value × ℕ))
    (hr : ∀ x ∈ received, x ∈ wanted dec d files since before) {events : List Value}
    (hk : pageThrough dec cap d req k (received.map Prod.fst) = some events) :
    events = (received ++ walk (timeKey dec) req.clamped cap k
      (below (timeKey dec) received (wanted dec d files since before))).map Prod.fst := by
  induction k generalizing received with
  | zero => cases hk
  | succ k ih =>
    rw [h.pageThrough_succ hr] at hk
    have hsub : ∀ x ∈ (Paging.page (timeKey dec) req.clamped cap _).1, x ∈ _ :=
      page_subset (below (timeKey dec) received (wanted dec d files since before))
    unfold walk
    generalize hp : Paging.page (timeKey dec) req.clamped cap (below (timeKey dec) received (wanted dec d files since before)) = p
      at hk hsub
    obtain ⟨p, more⟩ := p
    cases more with
    | false => exact (Option.some.inj hk).symm
    | true =>
      have hr' : ∀ x ∈ received ++ p, x ∈ wanted dec d files since before := by
        intro x hx
        rcases List.mem_append.1 hx with hx | hx
        · exact hr x hx
        · exact (below_sublist _ _).subset (hsub x hx)
      rw [ih _ hr' hk, below_append_left, List.append_assoc]

/-- The loop comes to an end. -/
theorem pageThrough_ends (h : Paged dec ch files d req since before) (cap : ℕ) {k : ℕ} {received : List (Value × ℕ)}
    (hr : ∀ x ∈ received, x ∈ wanted dec d files since before)
    (hk : (below (timeKey dec) received (wanted dec d files since before)).length < k) :
    ∃ events, pageThrough dec cap d req k (received.map Prod.fst) = some events := by
  induction k generalizing received with
  | zero => exact absurd hk (Nat.not_lt_zero _)
  | succ k ih =>
    rw [h.pageThrough_succ hr]
    have hsub : ∀ x ∈ (Paging.page (timeKey dec) req.clamped cap _).1, x ∈ _ :=
      page_subset (below (timeKey dec) received (wanted dec d files since before))
    cases hleft : (fill (Fits req.clamped cap) [] (below (timeKey dec) received (wanted dec d files since before))).2 with
    | none =>
      rw [page_of_none hleft]
      exact ⟨_, rfl⟩
    | some e =>
      rw [page_of_some hleft] at hsub ⊢
      dsimp only
      rw [if_pos rfl]
      have hne : cutTie (timeKey dec) (timeKey dec e.1)
          (fill (Fits req.clamped cap) [] (below (timeKey dec) received (wanted dec d files since before))).1 ≠ [] :=
        cutTie_ne_nil (fill_ne_nil req.clamped_pos hleft)
      generalize cutTie (timeKey dec) (timeKey dec e.1)
        (fill (Fits req.clamped cap) [] (below (timeKey dec) received (wanted dec d files since before))).1 = p at hne hsub ⊢
      refine ih (fun x hx => ?_) ?_
      · rcases List.mem_append.1 hx with hx | hx
        · exact hr x hx
        · exact (below_sublist _ _).subset (hsub x hx)
      · -- the page itself is not below the page
        rw [below_append_left]
        have hlt : (below (timeKey dec) p _).length < _ := below_length_lt hne hsub
        omega

end Paged

/-- **The pages come to every matching event, in order**: where the times of what matches descend, and no more events of
one time match than a page takes. -/
theorem pages_all (cap : ℕ) (h : Paged dec ch files d req since before)
    (hd : Descending (timeKey dec) (wanted dec d files since before))
    (hties : TiesFit (timeKey dec) req.clamped cap (wanted dec d files since before)) :
    ∃ k, pageThrough dec cap d req k [] = some ((wanted dec d files since before).map Prod.fst) := by
  have hstart : ∀ x ∈ ([] : List (Value × ℕ)), x ∈ wanted dec d files since before := nofun
  have hlen : (below (timeKey dec) [] (wanted dec d files since before)).length <
      (wanted dec d files since before).length + 1 := by
    rw [below_nil]
    exact Nat.lt_succ_self _
  obtain ⟨events, hevents⟩ := h.pageThrough_ends cap hstart hlen
  have hwalk := h.pageThrough_eq [] hstart hevents
  rw [below_nil, List.nil_append, walk_eq req.clamped_pos hd hties (Nat.lt_succ_self _)] at hwalk
  exact ⟨_, hwalk ▸ hevents⟩

theorem readsAll_of_pages (h : Paged dec ch files d req since before) {k : ℕ}
    (hk : pageThrough dec cap d req k [] = some ((wanted dec d files since before).map Prod.fst)) : ReadsAll dec cap d req :=
  ⟨_, _, matchingEvents_eq h.listing h.few req h.since h.before, k, _, hk, List.Perm.refl _⟩

/-- Where pages of one event come to all, the times descend strictly. -/
theorem descending_of_readsAll (h : Paged dec ch files d req since before) (hone : req.clamped = 1)
    (hall : ReadsAll dec cap d req) :
    (wanted dec d files since before).Pairwise fun x y => timeKey dec y.1 < timeKey dec x.1 := by
  obtain ⟨all, older, hmatch, k, events, hk, hperm⟩ := hall
  rw [matchingEvents_eq h.listing h.few req h.since h.before] at hmatch
  obtain ⟨rfl, -⟩ := Prod.mk.inj (Except.ok.inj hmatch)
  have hwalk := h.pageThrough_eq [] nofun hk
  rw [below_nil, List.nil_append, hone] at hwalk
  have hlen := hperm.length_eq
  rw [hwalk, List.length_map, List.length_map] at hlen
  exact descending_of_walk hlen

/-! ### Files in order of time -/

theorem chronological_append (f : BatchFile) :
    Chronological dec (files ++ [f]) ↔ Chronological dec files ∧ InPlace dec files f := by
  constructor
  · intro h
    have hf : f ∈ files ++ [f] := List.mem_append_right _ List.mem_cons_self
    have hg : ∀ g ∈ files, g ∈ files ++ [f] := fun g hg => List.mem_append_left _ hg
    exact ⟨⟨fun g h' => h.within g (hg g h'), fun g h' k hk => h.across g (hg g h') k (hg k hk)⟩, h.within f hf,
      fun g h' => ⟨h.across g (hg g h') f hf, h.across f hf g (hg g h')⟩⟩
  · rintro ⟨h, hwithin, hacross⟩
    constructor
    · intro g hg
      rcases List.mem_append.1 hg with hg | hg
      · exact h.within g hg
      · rw [List.mem_singleton.1 hg]
        exact hwithin
    · intro g hg k hk hlt
      rcases List.mem_append.1 hg with hg | hg <;> rcases List.mem_append.1 hk with hk | hk
      · exact h.across g hg k hk hlt
      · rw [List.mem_singleton.1 hk] at hlt ⊢
        exact (hacross g hg).1 hlt
      · rw [List.mem_singleton.1 hg] at hlt ⊢
        exact (hacross k hk).2 hlt
      · rw [List.mem_singleton.1 hg, List.mem_singleton.1 hk] at hlt
        exact absurd hlt (lt_irrefl _)

/-- The lines of a file, each of an event with a time. -/
def Readable (dec : Decoder τ) (ch : Chrono τ) (lines : List Line) : Prop :=
  ∀ l ∈ lines, ∃ t, ReadsAs dec l.text (ch.rfc3339 t)

omit [LinearOrder τ] in
theorem decodeLine_of_readsAs {text written : Text} (h : ReadsAs dec text written) :
    ∃ v, decodeLine dec text = some (v, utf8Len text) ∧ eventTime v = some written := by
  obtain ⟨v, hv, htime⟩ := h.event
  refine ⟨v, ?_, htime⟩
  unfold decodeLine
  rw [h.trimmed, if_neg (by simpa using h.nonempty), hv]
  rfl

omit [LinearOrder τ] in
/-- What is read from a file of such lines. -/
theorem readable_eq (hl : Listing files d) {f : BatchFile} (hf : f ∈ files) (hr : Readable dec ch f.batch) :
    readable dec d f.name = f.batch.filterMap fun l => decodeLine dec l.text := by
  unfold readable
  rw [hl.file f hf]
  have hsome : ((lines f.body).map some).takeWhile Option.isSome = (lines f.body).map some :=
    List.takeWhile_eq_self_iff.2 fun x hx => by
      obtain ⟨t, -, rfl⟩ := List.mem_map.1 hx
      rfl
  dsimp only
  rw [hsome, List.filterMap_map]
  have hid : (lines f.body).filterMap (id ∘ some) = lines f.body := List.filterMap_some
  rw [hid]
  by_cases hnil : f.batch = []
  · rw [BatchFile.body, hnil]
    rfl
  · have hlines : lines f.body = f.batch.map Line.text := by
      refine RustStr.lines_intercalate (by simpa using hnil) (fun t ht => ?_) fun t ht => ?_
      · obtain ⟨l, hl', rfl⟩ := List.mem_map.1 ht
        exact (hr l hl').choose_spec.no_feed
      · obtain ⟨l, hl', rfl⟩ := List.mem_map.1 ht
        exact (hr l hl').choose_spec.no_return
    rw [hlines, List.filterMap_map]
    rfl

omit [LinearOrder τ] in
theorem lineTime_of_decodeLine {l : Line} {e : Value × ℕ} (h : decodeLine dec l.text = some e) :
    lineTime dec l = timeKey dec e.1 := by
  unfold lineTime timeKey
  rw [h]
  rfl

/-- The files of a writer are readable, and no two have one name. -/
structure Wellformed (dec : Decoder τ) (ch : Chrono τ) (files : List BatchFile) : Prop where
  readable : ∀ f ∈ files, Readable dec ch f.batch
  nodup : (files.map BatchFile.name).Nodup

omit [LinearOrder τ] in
theorem timed_of_wellformed (hl : Listing files d) (hw : Wellformed dec ch files) : ∀ x ∈ trailOf dec d files, Timed ch x.1 := by
  intro x hx
  unfold trailOf at hx
  rw [List.mem_reverse, List.mem_flatMap] at hx
  obtain ⟨n, hn, hx⟩ := hx
  obtain ⟨f, hf, rfl⟩ := List.mem_map.1 (List.mem_insertionSort (r := (· ≤ ·)) |>.1 hn)
  rw [readable_eq hl hf (hw.readable f hf), List.mem_filterMap] at hx
  obtain ⟨l, hmem, hdec⟩ := hx
  obtain ⟨t, ht⟩ := hw.readable f hf l hmem
  obtain ⟨v, hv, htime⟩ := decodeLine_of_readsAs ht
  obtain rfl := Option.some.inj (hv.symm.trans hdec)
  exact ⟨t, htime⟩

/-- **The trail descends strictly** exactly when the files are in order of time. -/
theorem trail_descending_iff (hl : Listing files d) (hw : Wellformed dec ch files) :
    (trailOf dec d files).Pairwise (fun x y => timeKey dec y.1 < timeKey dec x.1) ↔ Chronological dec files := by
  have hsorted : ((files.map BatchFile.name).insertionSort (· ≤ ·)).Pairwise (· < ·) := by
    have hle := List.pairwise_insertionSort (· ≤ ·) (files.map BatchFile.name)
    have hne : ((files.map BatchFile.name).insertionSort (· ≤ ·)).Nodup :=
      (List.perm_insertionSort _ _).nodup_iff.2 hw.nodup
    exact (hle.and hne).imp fun h => lt_of_le_of_ne h.1 h.2
  have hmem : ∀ n, n ∈ (files.map BatchFile.name).insertionSort (· ≤ ·) ↔ ∃ f ∈ files, f.name = n := by
    intro n
    rw [List.mem_insertionSort, List.mem_map]
  -- what is earlier among the events is earlier among the lines
  have hcross : ∀ f ∈ files, ∀ g ∈ files,
      (∀ x ∈ readable dec d f.name, ∀ y ∈ readable dec d g.name, timeKey dec x.1 < timeKey dec y.1) ↔
        Earlier dec f.batch g.batch := by
    intro f hf g hg
    rw [readable_eq hl hf (hw.readable f hf), readable_eq hl hg (hw.readable g hg)]
    constructor
    · intro h a ha b hb
      obtain ⟨v, hv, -⟩ := decodeLine_of_readsAs (hw.readable f hf a ha).choose_spec
      obtain ⟨u, hu, -⟩ := decodeLine_of_readsAs (hw.readable g hg b hb).choose_spec
      rw [lineTime_of_decodeLine hv, lineTime_of_decodeLine hu]
      exact h _ (List.mem_filterMap.2 ⟨a, ha, hv⟩) _ (List.mem_filterMap.2 ⟨b, hb, hu⟩)
    · intro h x hx y hy
      obtain ⟨a, ha, hax⟩ := List.mem_filterMap.1 hx
      obtain ⟨b, hb, hby⟩ := List.mem_filterMap.1 hy
      rw [← lineTime_of_decodeLine hax, ← lineTime_of_decodeLine hby]
      exact h a ha b hb
  have hwithin : ∀ f ∈ files, (readable dec d f.name).Pairwise (fun x y => timeKey dec x.1 < timeKey dec y.1) ↔
      f.batch.Pairwise fun x y => lineTime dec x < lineTime dec y := by
    intro f hf
    rw [readable_eq hl hf (hw.readable f hf), List.pairwise_filterMap]
    refine List.Pairwise.iff_of_mem fun {a b} ha hb => ?_
    obtain ⟨v, hv, -⟩ := decodeLine_of_readsAs (hw.readable f hf a ha).choose_spec
    obtain ⟨u, hu, -⟩ := decodeLine_of_readsAs (hw.readable f hf b hb).choose_spec
    rw [lineTime_of_decodeLine hv, lineTime_of_decodeLine hu, hv, hu]
    simp
  unfold trailOf
  rw [List.pairwise_reverse, List.pairwise_flatMap]
  constructor
  · rintro ⟨hin, hout⟩
    refine ⟨fun f hf => (hwithin f hf).1 (hin _ ((hmem _).2 ⟨f, hf, rfl⟩)), fun f hf g hg hlt => ?_⟩
    have hnames := List.Pairwise.forall_of_forall_of_flip
      (R := fun a b => a < b → ∀ x ∈ readable dec d a, ∀ y ∈ readable dec d b, timeKey dec x.1 < timeKey dec y.1)
      (fun n _ hbad => absurd hbad (lt_irrefl n)) (hout.imp fun {a b} h (_ : a < b) => h)
      (hsorted.imp fun h hba => absurd (h.trans hba) (lt_irrefl _))
    exact (hcross f hf g hg).1 (hnames ((hmem _).2 ⟨f, hf, rfl⟩) ((hmem _).2 ⟨g, hg, rfl⟩) hlt)
  · intro h
    refine ⟨fun n hn => ?_, hsorted.imp_of_mem fun {a b} ha hb hlt => ?_⟩
    · obtain ⟨f, hf, rfl⟩ := (hmem n).1 hn
      exact (hwithin f hf).2 (h.within f hf)
    · obtain ⟨f, hf, rfl⟩ := (hmem a).1 ha
      obtain ⟨g, hg, rfl⟩ := (hmem b).1 hb
      exact (hcross f hf g hg).2 (h.across f hf g hg hlt)

/-! ### Every run -/

section Runs

variable {w : LineageWriter} {toJson : RunEvent → Option Text}

/-- The directory of a writer. -/
def dirOf (s : Writing) : Dir where
  entries := some ((s.files.map BatchFile.name).map some)
  file name :=
    match s.files.find? fun f => f.name = name with
    | some f => .lines ((lines f.body).map some)
    | none => .notFound

theorem isBatch_name (f : BatchFile) : isBatch f.name = true := by
  unfold isBatch
  rw [Bool.and_eq_true, decide_eq_true_iff, Bool.not_eq_true', decide_eq_false_iff_not]
  refine ⟨List.suffix_append _ _, fun hbad => ?_⟩
  obtain ⟨c, r, hc⟩ := List.exists_cons_of_ne_nil f.stamp_ne_nil
  have hdigit : c.isDigit = true := f.isDigit_of_mem_stamp (hc ▸ List.mem_cons_self)
  rw [f.name_eq, hc, List.cons_append] at hbad
  obtain rfl : '.' = c := (List.cons_prefix_cons.1 hbad).1
  exact absurd hdigit (by decide)

theorem listing_dirOf {s : Writing} (h : (s.files.map BatchFile.name).Nodup) : Listing s.files (dirOf s) where
  entries := by
    refine ⟨s.files.map BatchFile.name, rfl, ?_⟩
    rw [List.filter_eq_self.2 fun n hn => by
      obtain ⟨f, -, rfl⟩ := List.mem_map.1 hn
      exact isBatch_name f]
  file f hf := by
    unfold dirOf
    dsimp only
    cases hfind : s.files.find? fun g => decide (g.name = f.name) with
    | none => exact absurd (List.find?_eq_none.1 hfind f hf) (by simp)
    | some g =>
      have hname : g.name = f.name := by simpa using List.find?_some hfind
      obtain rfl : g = f := List.inj_on_of_nodup_map h (List.mem_of_find?_eq_some hfind) hf hname
      rfl

/-- What holds of a trail in every run. -/
structure TrailInv (dec : Decoder τ) (ch : Chrono τ) (w : LineageWriter) (s : Writing) : Prop extends w.Inv s where
  ids : s.IdsDistinct
  lines : Readable dec ch s.recorded

namespace TrailInv

omit [LinearOrder τ] in
theorem start (w : LineageWriter) : TrailInv dec ch w Writing.start where
  toInv := LineageWriter.Inv.start w
  ids := Writing.IdsDistinct.start
  lines _ hl := nomatch hl

omit [LinearOrder τ] in
theorem wellformed {s : Writing} (h : TrailInv dec ch w s) : Wellformed dec ch s.files where
  readable _ hf l hl := h.lines l (h.toInv.recorded_of_mem_file hf hl)
  nodup := h.ids.names_nodup

omit [LinearOrder τ] in
/-- Both events of a record have a time, as it is written. -/
theorem eventTime_of_mem_emitLineage {runId : Text} {traceId : Option Text} {nodeId : Text} {a b : τ} {r : QueryRecord}
    {e : RunEvent} (he : e ∈ emitLineage ⟨runId, traceId, ch.millisAgo a, ch.rfc3339 b⟩ nodeId r) :
    ∃ t, e.eventTime = ch.rfc3339 t := by
  unfold emitLineage at he
  split_ifs at he
  · rcases List.mem_cons.1 he with rfl | he
    · exact ⟨_, rfl⟩
    · rw [List.mem_singleton.1 he]
      exact ⟨b, rfl⟩
  · cases he

theorem mem_numbered {n : ℕ} {texts : List Text} {l : Line} (h : l ∈ numbered n texts) : l.text ∈ texts := by
  unfold numbered at h
  obtain ⟨p, hp, rfl⟩ := List.mem_map.1 h
  have hfst : p.1 ∈ (texts.zipIdx n).map Prod.fst := List.mem_map_of_mem hp
  rwa [List.zipIdx_map_fst] at hfst

omit [LinearOrder τ] in
theorem step {s s' : Writing} (hp : Printed dec ch toJson) (h : TrailInv dec ch w s) {a : TrailAct τ}
    (hstep : trailStep w ch toJson s a = some s') : TrailInv dec ch w s' where
  toInv := h.toInv.step hstep
  ids := h.ids.step hstep
  lines := by
    intro l hl
    rcases LineageWriter.step_recorded hstep with heq | ⟨events, hact, heq⟩
    · exact h.lines l (heq ▸ hl)
    · rw [heq] at hl
      rcases List.mem_append.1 hl with hl | hl
      · exact h.lines l hl
      · obtain ⟨e, he, htext⟩ := List.mem_filterMap.1 (mem_numbered hl)
        cases a with
        | query r runId traceId nodeId startClock endClock =>
          obtain rfl : emitLineage _ _ _ = events := by simpa [TrailAct.toAct] using hact
          obtain ⟨t, ht⟩ := eventTime_of_mem_emitLineage he
          obtain ⟨text, hjson, hreads⟩ := hp.line e t ht
          obtain rfl := Option.some.inj (hjson.symm.trans htext)
          exact ⟨t, hreads⟩
        | _ => cases hact

end TrailInv

/-- What every way of paging through the trail comes to, at most `maxFiles` files and nobody writing. -/
def PagesAll (dec : Decoder τ) (s : Writing) : Prop :=
  s.files.length ≤ maxFiles → ∀ d, Listing s.files d → ∀ cap req, PageRequestValid dec req → ReadsAll dec cap d req

theorem pagesAll_of_chronological {s : Writing} (hp : ParsesBack dec ch) (h : TrailInv dec ch w s)
    (hc : s.files.length ≤ maxFiles → Chronological dec s.files) : PagesAll dec s := by
  intro hfew d hl cap req hvalid
  obtain ⟨since, hsince⟩ := parseBound_of_valid "since" hvalid.1
  obtain ⟨before, hbefore⟩ := parseBound_of_valid "before" hvalid.2
  have hpaged : Paged dec ch s.files d req since before :=
    ⟨hp, hl, hfew, timed_of_wellformed hl h.wellformed, hsince, hbefore⟩
  have hstrict : (wanted dec d s.files since before).Pairwise fun x y => timeKey dec y.1 < timeKey dec x.1 :=
    ((trail_descending_iff hl h.wellformed).2 (hc hfew)).filter _
  obtain ⟨k, hk⟩ := pages_all cap hpaged (hstrict.imp le_of_lt) (tiesFit_of_strict req.clamped_pos hstrict)
  exact readsAll_of_pages hpaged hk

theorem chronological_of_pagesAll {s : Writing} (hp : ParsesBack dec ch) (h : TrailInv dec ch w s)
    (hfew : s.files.length ≤ maxFiles) (hall : PagesAll dec s) : Chronological dec s.files := by
  have hl := listing_dirOf h.wellformed.nodup
  have hreads := hall hfew _ hl 0 ⟨1, none, none⟩ ⟨nofun, nofun⟩
  have hpaged : Paged dec ch s.files (dirOf s) ⟨1, none, none⟩ none none :=
    ⟨hp, hl, hfew, timed_of_wellformed hl h.wellformed, rfl, rfl⟩
  have hstrict := descending_of_readsAll hpaged (by decide) hreads
  have hwanted : wanted dec (dirOf s) s.files none none = trailOf dec (dirOf s) s.files :=
    List.filter_eq_self.2 fun x _ => by simp [selected]
  rw [hwanted] at hstrict
  exact (trail_descending_iff hl h.wellformed).1 hstrict

/-- **Paging through the trail**: in every state of a run every way of paging comes to every matching event exactly once,
in exactly the runs in which every batch that is made visible is in order of time, behind all earlier and before all
later files. -/
theorem pages_iff (w : LineageWriter) (ch : Chrono τ) {dec : Decoder τ} {toJson : RunEvent → Option Text}
    (hp : Printed dec ch toJson) (acts : List (TrailAct τ)) :
    Runs.Always (trailStep w ch toJson) (PagesAll dec) Writing.start acts ↔
      Runs.Careful (trailStep w ch toJson) (PublishesInOrder dec) Writing.start acts := by
  refine Runs.always_iff_careful
    (I := fun s => TrailInv dec ch w s ∧ (s.files.length ≤ maxFiles → Chronological dec s.files)) ?_
    (fun s h => pagesAll_of_chronological hp.parse h.1 h.2) ?_ ⟨TrailInv.start w, fun _ => ⟨nofun, nofun⟩⟩
  · rintro s a s' ⟨h, hc⟩ hgood hstep
    refine ⟨h.step hp hstep, fun hfew => ?_⟩
    rcases LineageWriter.step_files hstep with heq | ⟨i, f, id, hact, hf, hst, heq⟩
    · rw [heq] at hfew ⊢
      exact hc hfew
    · rw [heq, List.length_append] at hfew
      have hlt : s.files.length < maxFiles := hfew
      cases a with
      | rename j ok =>
        obtain ⟨rfl, rfl⟩ : j = i ∧ ok = true := by simpa [TrailAct.toAct] using hact
        rw [heq, chronological_append]
        exact ⟨hc hlt.le, hgood f hf id hst hlt⟩
      | _ => cases hact
  · rintro s a s' ⟨h, hc⟩ hbad hstep hall
    have h' := h.step hp hstep
    cases a with
    | rename i ok =>
      cases ok with
      | false => exact hbad trivial
      | true =>
        refine hbad fun f hf id hst hlt => ?_
        have heq : s'.files = s.files ++ [⟨f.millis, id, f.batch⟩] := by
          obtain ⟨g, id', hg, hst', ⟨-, rfl⟩ | ⟨hno, -⟩⟩ := Writing.rename_eq_some hstep
          · obtain rfl := Option.some.inj (hg.symm.trans hf)
            rw [hst] at hst'
            cases hst'
            rfl
          · cases hno
        have hfew : s'.files.length ≤ maxFiles := by
          rw [heq, List.length_append]
          exact hlt
        have hchron := chronological_of_pagesAll hp.parse h' hfew hall
        rw [heq, chronological_append] at hchron
        exact hchron.2
    | _ => exact hbad trivial

theorem publishesInOrder_rename {s : Writing} {i : ℕ} {f : Flush} {id : Text} (hf : s.flushes[i]? = some f)
    (hst : f.stage = .written id) (h : InPlace dec s.files ⟨f.millis, id, f.batch⟩) :
    PublishesInOrder dec s (.rename i true) := by
  intro g hg id' hst' _
  obtain rfl := Option.some.inj (hf.symm.trans hg)
  rw [hst] at hst'
  cases hst'
  exact h

end Runs

/-- More readings change nothing once a page was not truncated. -/
theorem pageThrough_succ_of_some {cap k : ℕ} {received events : List Value}
    (h : pageThrough dec cap d req k received = some events) :
    pageThrough dec cap d req (k + 1) received = some events := by
  induction k generalizing received with
  | zero => cases h
  | succ k ih =>
    rw [pageThrough_eq_match] at h ⊢
    cases hpage : readNewestWithin dec cap d
        { req with before := if received.isEmpty then req.before else oldest dec received } with
    | error e => rw [hpage] at h; cases h
    | ok page =>
      rw [hpage] at h
      dsimp only at h ⊢
      split_ifs at h ⊢ with htrunc
      · exact ih h
      · exact h

theorem pageThrough_unique {cap k k' : ℕ} {received events events' : List Value}
    (h : pageThrough dec cap d req k received = some events) (h' : pageThrough dec cap d req k' received = some events') :
    events = events' := by
  have hmono : ∀ {k events} (n : ℕ), pageThrough dec cap d req k received = some events →
      pageThrough dec cap d req (k + n) received = some events := by
    intro k events n hk
    induction n with
    | zero => exact hk
    | succ n ih => exact pageThrough_succ_of_some ih
  have hsum := hmono k' h
  rw [Nat.add_comm, hmono k h'] at hsum
  exact (Option.some.inj hsum).symm

end

/-! ### Two queries -/

/-- The first ten seconds of a minute. -/
def seconds : Chrono (Fin 10) where
  rfc3339 t := ("2026-08-14T10:00:0" ++ toString t.val ++ ".000Z").toList
  checkedSub t millis := if millis % 1000 = 0 ∧ millis / 1000 ≤ t.val then some ⟨t.val - millis / 1000, by omega⟩ else none

/-- A reader of the times of events, in these seconds. -/
def secondsDecoder : Decoder (Fin 10) where
  fromStr := timesOnly.fromStr
  parse t := (List.finRange 10).find? fun s => seconds.rfc3339 s = t

/-- An event printed by its time. -/
def printTime (e : RunEvent) : Option Text :=
  some ("\x7b\"eventTime\":\"".toList ++ e.eventTime ++ "\"\x7d".toList)

theorem printed_seconds : Printed secondsDecoder seconds printTime where
  parse := by decide +kernel
  line e t h := by
    have hevent : ∀ t : Fin 10, (timesOnly.fromStr ("\x7b\"eventTime\":\"".toList ++ seconds.rfc3339 t ++
        "\"\x7d".toList)).bind eventTime = some (seconds.rfc3339 t) := by decide +kernel
    have hline : ∀ t : Fin 10, "\x7b\"eventTime\":\"".toList ++ seconds.rfc3339 t ++ "\"\x7d".toList ≠ [] ∧
        trim ("\x7b\"eventTime\":\"".toList ++ seconds.rfc3339 t ++ "\"\x7d".toList) =
          "\x7b\"eventTime\":\"".toList ++ seconds.rfc3339 t ++ "\"\x7d".toList ∧
        '\n' ∉ "\x7b\"eventTime\":\"".toList ++ seconds.rfc3339 t ++ "\"\x7d".toList ∧
        ("\x7b\"eventTime\":\"".toList ++ seconds.rfc3339 t ++ "\"\x7d".toList).getLast? ≠ some '\r' := by decide +kernel
    obtain ⟨hne, htrim, hfeed, hret⟩ := hline t
    obtain ⟨v, hv, htime⟩ := Option.bind_eq_some_iff.1 (hevent t)
    refine ⟨_, rfl, ?_⟩
    rw [h]
    exact ⟨hne, htrim, hfeed, hret, v, hv, htime⟩

/-- A query of a pond with lineage, of some duration. -/
def queryOf (durationMs : ℕ) : QueryRecord where
  identity := ⟨"a".toList, [], [], false⟩
  info := ⟨"p".toList, "shop".toList, true⟩
  op := "read_query"
  sql := "SELECT 1".toList
  durationMs
  meaning := .completion
  error := none
  result := none
  engineVersion := "v1.5.3".toList

/-- The clock of these runs has ten readings. -/
instance neZeroTen : NeZero 10 := ⟨Nat.succ_ne_zero 9⟩

/-- What follows the queries: one batch, made visible. -/
def flushed : List (TrailAct (Fin 10)) := [.take 1786701605000, .write 0 "x".toList true, .rename 0 true]

/-- A query from the third to the fourth second ends, and then one from the first to the fifth. -/
def overlapping : List (TrailAct (Fin 10)) :=
  .query (queryOf 1000) "r".toList none [] 4 4 :: .query (queryOf 4000) "s".toList none [] 5 5 :: flushed

/-- Read two events at a time, the trail ends behind the fifth and the first second; the third and the fourth are skipped. -/
theorem overlapping_queries :
    ¬Runs.Always (trailStep (LineageWriter.new "/l".toList) seconds printTime) (PagesAll secondsDecoder) Writing.start
      overlapping := by
  intro h
  have hrun : (Runs.run (trailStep (LineageWriter.new "/l".toList) seconds printTime) Writing.start overlapping).map
      (fun s => (s.files.length, decide (s.files.map BatchFile.name).Nodup,
        (pageThrough secondsDecoder maxBytes (dirOf s) ⟨2, none, none⟩ 2 []).map List.length,
        (matchingEvents secondsDecoder (dirOf s) ⟨2, none, none⟩).map fun m => m.1.length)) =
      some (1, true, some 2, .ok 4) := by
    decide +kernel
  obtain ⟨s, hs, heq⟩ := Option.map_eq_some_iff.1 hrun
  simp only [Prod.mk.injEq, decide_eq_true_eq] at heq
  obtain ⟨hfiles, hnames, hpages, hmatching⟩ := heq
  have hfew : s.files.length ≤ maxFiles := by
    rw [hfiles]
    decide
  obtain ⟨all, older, hmatch, k, received, hk, hperm⟩ :=
    h.last hs hfew (dirOf s) (listing_dirOf hnames) maxBytes ⟨2, none, none⟩ ⟨nofun, nofun⟩
  obtain ⟨events, hevents, htwo⟩ := Option.map_eq_some_iff.1 hpages
  obtain rfl := pageThrough_unique hk hevents
  rw [hmatch] at hmatching
  have hfour : all.length = 4 := Except.ok.inj hmatching
  have hlen := hperm.length_eq
  rw [List.length_map, htwo, hfour] at hlen
  cases hlen

/-- One query after the other. -/
def oneByOne : List (TrailAct (Fin 10)) :=
  .query (queryOf 1000) "r".toList none [] 4 4 :: .query (queryOf 1000) "s".toList none [] 6 6 :: flushed

theorem one_by_one :
    Runs.Always (trailStep (LineageWriter.new "/l".toList) seconds printTime) (PagesAll secondsDecoder) Writing.start
      oneByOne := by
  refine (pages_iff _ seconds printed_seconds _).2 ?_
  rintro s₁ h₁
  refine ⟨trivial, fun s₂ h₂ => ⟨trivial, fun s₃ h₃ => ⟨trivial, fun s₄ h₄ => ⟨trivial, fun s₅ h₅ => ⟨?_, trivial⟩⟩⟩⟩⟩
  have hrun : Runs.run (trailStep (LineageWriter.new "/l".toList) seconds printTime) Writing.start
      (oneByOne.take 4) = some s₄ :=
    Runs.run_cons.2 ⟨s₁, h₁, Runs.run_cons.2 ⟨s₂, h₂, Runs.run_cons.2 ⟨s₃, h₃, Runs.run_cons.2 ⟨s₄, h₄, rfl⟩⟩⟩⟩
  have heval : (Runs.run (trailStep (LineageWriter.new "/l".toList) seconds printTime) Writing.start (oneByOne.take 4)).map
      (fun s => (s.files, s.flushes[0]?.map fun f => (f.stage, decide (f.batch.Pairwise fun x y =>
        lineTime secondsDecoder x < lineTime secondsDecoder y)))) = some ([], some (.written "x".toList, true)) := by
    decide +kernel
  rw [hrun, Option.map_some, Option.some.injEq, Prod.mk.injEq] at heval
  obtain ⟨hfiles, hflush⟩ := heval
  obtain ⟨f, hf, heq⟩ := Option.map_eq_some_iff.1 hflush
  obtain ⟨hst, hpair⟩ := Prod.mk.inj heq
  refine publishesInOrder_rename hf hst ⟨of_decide_eq_true hpair, ?_⟩
  rw [hfiles]
  nofun

end Latiq.AgentCore
