import Latiq.Library.RustStr
import Latiq.Library.Serde
import Latiq.Library.Window
import Mathlib.Algebra.GroupWithZero.Nat
import Mathlib.Data.Char
import Mathlib.Data.List.Lex

/-!
# Reading the lineage trail

`read_newest` answers a page of a pond's events, newest first, out of the batch files: it lists the newest names
with a bounded heap, streams each file into a bounded ring, stops at the first event that does not fit, and cuts
the page where events share that event's `eventTime`.

## The model

* `Dir` — what listing the directory and opening and reading its files come to.
* `Decoder` — how a line is parsed and how a timestamp is read; `selected`.
* `readTail`, `newestNames`, `readNewest` — the reader.
* `naive` — what it is to answer: everything read, filtered, turned round, cut by the limits and cut by the
  timestamp of the event left out.

## What is proved

* `readNewest_eq` — the loops of the reader fill the page from all that is readable (`Window.fill`).
* `readNewest_eq_naive_iff` — it answers as it should exactly when, on the page as the limits cut it, no event with
  another timestamp stands behind one with the timestamp of the event left out.
* `newer_tie_drops_others` — a page on which one does.
-/

namespace Latiq.Lineage

open RustStr (Text trim)
open Serde (Value)
open Window

/-! ### The directory -/

/-- What opening a file comes to: its lines as they are read, with `none` where the reading fails. -/
inductive Opened where
  | notFound
  | failed
  | lines (lines : List (Option Text))
  deriving DecidableEq, Repr

/-- A directory: its entries, unless it cannot be listed, with `none` for an entry that cannot be read, and its files
by name. -/
structure Dir where
  entries : Option (List (Option Text))
  file : Text → Opened

/-- How a line is parsed, and how an RFC 3339 timestamp is. -/
structure Decoder (τ : Type) where
  fromStr : Text → Option Value
  parse : Text → Option τ

/-- `PageRequest`. -/
structure PageRequest where
  limit : ℕ
  since : Option Text
  before : Option Text

/-- `EventPage`. -/
structure EventPage where
  events : List Value
  truncated : Bool
  malformedLines : ℕ
  unreadableFiles : ℕ

inductive ReadError where
  | badTimestamp (field : String) (value : Text)
  | io
  deriving DecidableEq, Repr

def maxLimit : ℕ := 500

def maxBytes : ℕ := 256 * 1024

def maxFiles : ℕ := 500

/-- The length of a string in UTF-8. -/
def utf8Len (t : Text) : ℕ := (t.map Char.utf8Size).sum

/-- `event_time`. -/
def eventTime (event : Value) : Option Text :=
  match event.get? "eventTime" with
  | some (.str s) => some s
  | _ => none

/-! ### The reader -/

section

variable {τ : Type} [LinearOrder τ] (dec : Decoder τ) (cap : ℕ)

/-- `selected`: an event whose timestamp is missing or cannot be read is kept. -/
def selected (event : Value) (since before : Option τ) : Bool :=
  if since.isNone ∧ before.isNone then true
  else
    match (eventTime event).bind dec.parse with
    | none => true
    | some t => decide (∀ s ∈ since, s ≤ t) && decide (∀ b ∈ before, t < b)

/-- `parse_bound`. -/
def parseBound (field : String) (raw : Option Text) : Except ReadError (Option τ) :=
  match raw with
  | none => .ok none
  | some s =>
    match dec.parse s with
    | some t => .ok (some t)
    | none => .error (.badTimestamp field s)

/-- Which names `newest_names` takes: only finished batches. -/
def isBatch (name : Text) : Bool := decide (".jsonl".toList <:+ name) && !decide (".tmp-".toList <+: name)

/-- The loop of `newest_names` over the entries. -/
def pushNames : List (Option Text) → List Text × ℕ → List Text × ℕ
  | [], s => s
  | none :: es, s => pushNames es s
  | some name :: es, s =>
    if isBatch name then pushNames es (pushBounded maxFiles s name)
    else pushNames es s

/-- `newest_names`. -/
def newestNames (d : Dir) : Except ReadError (List Text × ℕ) :=
  match d.entries with
  | none => .error .io
  | some es =>
    let (heap, skipped) := pushNames es ([], 0)
    .ok (heap.reverse, skipped)

/-- `Tail`, with the bytes in the ring. -/
structure Tail where
  ring : List (Value × ℕ)
  ringBytes : ℕ
  newestDropped : Option (Option Text)

/-- The inner loop of `read_tail`: the oldest dropped while there are too many or too many bytes. -/
def dropOldest (need : ℕ) : List (Value × ℕ) → ℕ → Option (Option Text) → Tail
  | [], bytes, dropped => ⟨[], bytes, dropped⟩
  | (event, len) :: ring, bytes, dropped =>
    if need < ring.length + 1 ∨ (1 < ring.length + 1 ∧ cap < bytes) then
      dropOldest need ring (bytes - len) (some (eventTime event))
    else ⟨(event, len) :: ring, bytes, dropped⟩

/-- The outer loop of `read_tail`. -/
def readLines (need : ℕ) (since before : Option τ) : List (Option Text) → Tail → EventPage → Tail × EventPage
  | [], tail, page => (tail, page)
  -- The rest of the file is not read.
  | none :: _, tail, page => (tail, { page with unreadableFiles := page.unreadableFiles + 1 })
  | some raw :: ls, tail, page =>
    let line := trim raw
    if line.isEmpty then readLines need since before ls tail page
    else
      match dec.fromStr line with
      | none => readLines need since before ls tail { page with malformedLines := page.malformedLines + 1 }
      | some event =>
        if selected dec event since before then
          readLines need since before ls
            (dropOldest cap need (tail.ring ++ [(event, utf8Len line)]) (tail.ringBytes + utf8Len line) tail.newestDropped)
            page
        else readLines need since before ls tail page

/-- `read_tail`. -/
def readTail (d : Dir) (name : Text) (need : ℕ) (since before : Option τ) (page : EventPage) :
    Option Tail × EventPage :=
  match d.file name with
  | .notFound => (none, page)
  | .failed => (none, { page with unreadableFiles := page.unreadableFiles + 1 })
  | .lines ls =>
    let (tail, page) := readLines dec cap need since before ls ⟨[], 0, none⟩ page
    (some tail, page)

/-- The loop of `read_newest` over what a file contributes: the page, its bytes, and the timestamp of the event
that did not fit. -/
def takeTail (limit : ℕ) : List (Value × ℕ) → EventPage → ℕ → EventPage × ℕ × Option (Option Text)
  | [], page, bytes => (page, bytes, none)
  | (event, len) :: ring, page, bytes =>
    if limit ≤ page.events.length ∨ (page.events ≠ [] ∧ cap < bytes + len) then
      ({ page with truncated := true }, bytes, some (eventTime event))
    else takeTail limit ring { page with events := page.events ++ [event] } (bytes + len)

/-- The loop of `read_newest` over the files. -/
def readFiles (d : Dir) (limit : ℕ) (since before : Option τ) :
    List Text → EventPage → ℕ → EventPage × Option (Option Text)
  | [], page, _ => (page, none)
  | name :: names, page, bytes =>
    match readTail dec cap d name (limit - page.events.length + 1) since before page with
    | (none, page) => readFiles d limit since before names page bytes
    | (some tail, page) =>
      match takeTail cap limit tail.ring.reverse page bytes with
      | (page, _, some excluded) => (page, some excluded)
      | (page, bytes, none) =>
        match tail.newestDropped with
        | some dropped => ({ page with truncated := true }, some dropped)
        | none => readFiles d limit since before names page bytes

/-- `cut_on_a_timestamp_boundary`. -/
def cutOnATimestampBoundary (events : List Value) : Option Text → List Value
  | none => events
  | some boundary =>
    let keep := events.findIdx fun e => eventTime e = some boundary
    if 0 < keep then events.take keep else events

/-- The limit of a request, clamped. -/
def PageRequest.clamped (req : PageRequest) : ℕ := min (max req.limit 1) maxLimit

theorem PageRequest.clamped_pos (req : PageRequest) : 1 ≤ req.clamped := by
  have hmax : (1 : ℕ) ≤ maxLimit := by decide
  unfold PageRequest.clamped
  omega

/-- `read_newest`, with the byte cap of a page. -/
def readNewestWithin (d : Dir) (req : PageRequest) : Except ReadError EventPage := do
  let since ← parseBound dec "since" req.since
  let before ← parseBound dec "before" req.before
  let limit := req.clamped
  let (names, skipped) ← newestNames d
  let (page, excluded) := readFiles dec cap d limit since before names ⟨[], decide (0 < skipped), 0, 0⟩ 0
  match excluded with
  | some boundary => .ok { page with events := cutOnATimestampBoundary page.events boundary }
  | none => .ok page

/-- `read_newest`. -/
def readNewest (d : Dir) (req : PageRequest) : Except ReadError EventPage := readNewestWithin dec maxBytes d req

/-! ### What it is to answer -/

/-- The batch files of a listing. -/
def batchNames (es : List (Option Text)) : List Text := (es.filterMap id).filter isBatch

/-- The event of a line, if there is one, with the bytes of the line. -/
def decodeLine (raw : Text) : Option (Value × ℕ) :=
  if (trim raw).isEmpty then none else (dec.fromStr (trim raw)).map fun e => (e, utf8Len (trim raw))

/-- The events that can be read from a file, with the bytes of their lines, in file order. -/
def readable (d : Dir) (name : Text) : List (Value × ℕ) :=
  match d.file name with
  | .lines ls => ((ls.takeWhile Option.isSome).filterMap id).filterMap (decodeLine dec)
  | _ => []

/-- The matching events of the newest batches, newest first: by file name and then by line, turned round. -/
def matching (d : Dir) (names : List Text) (since before : Option τ) : List (Value × ℕ) :=
  ((names.flatMap (readable dec d)).filter fun e => selected dec e.1 since before).reverse

/-- The events without those that share a timestamp, unless this leaves none. -/
def cutSharing (events : List Value) : Option Text → List Value
  | none => events
  | some boundary =>
    let kept := events.filter fun e => ¬eventTime e = some boundary
    if kept.isEmpty then events else kept

/-- All that matches a request, with whether there are older batches. -/
def matchingEvents (d : Dir) (req : PageRequest) : Except ReadError (List (Value × ℕ) × Bool) := do
  let since ← parseBound dec "since" req.since
  let before ← parseBound dec "before" req.before
  match d.entries with
  | none => .error .io
  | some es =>
    let names := (batchNames es).insertionSort (· ≤ ·)
    .ok (matching dec d (names.drop (names.length - maxFiles)) since before, decide (maxFiles < names.length))

/-- The matching events as the limits cut them: the longest first part within the limit and the byte cap (`fill_longest`),
the event left out, how many there are, and whether there are older batches. -/
structure Limited where
  page : List (Value × ℕ)
  left : Option (Value × ℕ)
  total : ℕ
  older : Bool

def limited (d : Dir) (req : PageRequest) : Except ReadError Limited :=
  (matchingEvents dec d req).map fun (all, older) =>
    let (page, left) := fill (Fits req.clamped cap) [] all
    ⟨page, left, all.length, older⟩

namespace Limited

/-- The answer: cut by the timestamp of the event left out, and truncated where a matching event or a batch is missing. -/
def answer (l : Limited) : List Value × Bool :=
  let events := match l.left with
    | some e => cutSharing (l.page.map Prod.fst) (eventTime e.1)
    | none => l.page.map Prod.fst
  (events, l.older || decide (events.length < l.total))

/-- Behind the first event of the page with the timestamp of the event left out, every event has it. -/
def TiesLast (l : Limited) : Prop :=
  ∀ e ∈ l.left, ∀ t, eventTime e.1 = some t →
    ∀ x ∈ (l.page.map Prod.fst).dropWhile fun e => ¬eventTime e = some t, eventTime x = some t

/-- The answer of the reader: cut at the first event with the timestamp of the event left out. -/
def answerAtFirst (l : Limited) : List Value × Bool :=
  let events := match l.left with
    | some e => cutOnATimestampBoundary (l.page.map Prod.fst) (eventTime e.1)
    | none => l.page.map Prod.fst
  (events, l.older || l.left.isSome)

end Limited

/-- **What a page is to be**, with whether it is truncated. -/
def naive (d : Dir) (req : PageRequest) : Except ReadError (List Value × Bool) :=
  (limited dec cap d req).map Limited.answer

end

/-! ### The reader fills the page from all that is readable -/

section

variable {τ : Type} [LinearOrder τ] {dec : Decoder τ} {cap limit : ℕ} {since before : Option τ}

theorem pushNames_eq (es : List (Option Text)) (s : List Text × ℕ) :
    pushNames es s = (batchNames es).foldl (pushBounded maxFiles) s := by
  induction es generalizing s with
  | nil => rfl
  | cons e es ih =>
    cases e with
    | none => exact ih s
    | some name =>
      unfold pushNames
      split_ifs with h
      · rw [ih]
        simp [batchNames, h]
      · rw [ih]
        simp [batchNames, h]

theorem newestNames_eq (d : Dir) :
    newestNames d = (match d.entries with
      | none => .error .io
      | some es => .ok ((((batchNames es).insertionSort (· ≤ ·)).drop ((batchNames es).length - maxFiles)).reverse,
          (batchNames es).length - maxFiles)) := by
  unfold newestNames
  cases d.entries with
  | none => rfl
  | some es =>
    have h := keepGreatest_eq maxFiles (batchNames es)
    simp only [pushNames_eq]
    unfold keepGreatest at h
    rw [h]

/-- The timestamp of an event that was dropped or left out. -/
def timeOf (e : Value × ℕ) : Option Text := eventTime e.1

/-- A ring with its bytes and the timestamp of what it dropped last. -/
def tailOf (s : List (Value × ℕ) × Option (Value × ℕ)) : Tail := ⟨s.1, weight s.1, s.2.map timeOf⟩

theorem not_fits_cons_iff {need : ℕ} {e : Value × ℕ} {ring : List (Value × ℕ)} :
    ¬Fits need cap (e :: ring) ↔
      need < ring.length + 1 ∨ (1 < ring.length + 1 ∧ cap < weight (e :: ring)) := by
  unfold Fits
  rw [List.length_cons]
  omega

theorem dropOldest_eq (need : ℕ) (ring : List (Value × ℕ)) (d : Option (Value × ℕ)) :
    dropOldest cap need ring (weight ring) (d.map timeOf) = tailOf (shrink (Fits need cap) ring d) := by
  induction ring generalizing d with
  | nil => rfl
  | cons e ring ih =>
    obtain ⟨event, len⟩ := e
    unfold dropOldest shrink
    by_cases h : Fits need cap ((event, len) :: ring)
    · rw [if_neg fun hbad => not_fits_cons_iff.2 hbad h, if_pos h]
      rfl
    · rw [if_pos (not_fits_cons_iff.1 h), if_neg h, weight_cons, Nat.add_sub_cancel_left]
      exact ih (some (event, len))

/-- What the reader makes of the lines of a file. -/
def candidatesOf (dec : Decoder τ) (since before : Option τ) (ls : List (Option Text)) : List (Value × ℕ) :=
  (((ls.takeWhile Option.isSome).filterMap id).filterMap (decodeLine dec)).filter fun e => selected dec e.1 since before

theorem candidatesOf_of_none {raw : Text} {ls : List (Option Text)} (h : decodeLine dec raw = none) :
    candidatesOf dec since before (some raw :: ls) = candidatesOf dec since before ls := by
  simp [candidatesOf, h]

theorem candidatesOf_of_some {raw : Text} {ls : List (Option Text)} {e : Value × ℕ} (h : decodeLine dec raw = some e) :
    candidatesOf dec since before (some raw :: ls) =
      if selected dec e.1 since before then e :: candidatesOf dec since before ls
      else candidatesOf dec since before ls := by
  simp [candidatesOf, h, List.filter_cons]

/-- A page with other counts only. -/
def SameEvents (p q : EventPage) : Prop := p.events = q.events ∧ p.truncated = q.truncated

theorem readLines_eq (dec : Decoder τ) (cap need : ℕ) (since before : Option τ) (ls : List (Option Text))
    (s : List (Value × ℕ) × Option (Value × ℕ)) (page : EventPage) :
    (readLines dec cap need since before ls (tailOf s) page).1 =
        tailOf ((candidatesOf dec since before ls).foldl
          (fun s x => shrink (Fits need cap) (s.1 ++ [x]) s.2) s) ∧
      SameEvents (readLines dec cap need since before ls (tailOf s) page).2 page := by
  induction ls generalizing s page with
  | nil => exact ⟨rfl, rfl, rfl⟩
  | cons l ls ih =>
    cases l with
    | none => exact ⟨rfl, rfl, rfl⟩
    | some raw =>
      unfold readLines
      by_cases hempty : (trim raw).isEmpty
      · have hline : decodeLine dec raw = none := if_pos hempty
        rw [if_pos hempty, candidatesOf_of_none hline]
        exact ih s page
      · rw [if_neg hempty]
        cases hparse : dec.fromStr (trim raw) with
        | none =>
          have hline : decodeLine dec raw = none := by simp [decodeLine, hempty, hparse]
          rw [candidatesOf_of_none hline]
          exact ih s { page with malformedLines := page.malformedLines + 1 }
        | some event =>
          have hline : decodeLine dec raw = some (event, utf8Len (trim raw)) := by simp [decodeLine, hempty, hparse]
          rw [candidatesOf_of_some hline]
          dsimp only
          by_cases hsel : selected dec event since before = true
          · have hpush : dropOldest cap need (s.1 ++ [(event, utf8Len (trim raw))])
                (weight s.1 + utf8Len (trim raw)) (s.2.map timeOf) =
                  tailOf (shrink (Fits need cap) (s.1 ++ [(event, utf8Len (trim raw))]) s.2) := by
              rw [← dropOldest_eq, weight_append, weight_cons, weight_nil, Nat.add_zero]
            rw [if_pos hsel, if_pos hsel, List.foldl_cons]
            exact hpush ▸ ih _ page
          · rw [if_neg hsel, if_neg hsel]
            exact ih s page

/-- The matching events of a file, in file order. -/
def candidates (dec : Decoder τ) (d : Dir) (since before : Option τ) (name : Text) : List (Value × ℕ) :=
  (readable dec d name).filter fun e => selected dec e.1 since before

theorem matching_eq (d : Dir) (names : List Text) :
    matching dec d names since before = names.reverse.flatMap fun n => (candidates dec d since before n).reverse := by
  unfold matching
  rw [List.filter_flatMap, List.reverse_flatMap]
  rfl

theorem SameEvents.trans {p q r : EventPage} (h : SameEvents p q) (h' : SameEvents q r) : SameEvents p r :=
  ⟨h.1.trans h'.1, h.2.trans h'.2⟩

/-- What `read_tail` comes to: nothing out of a file that cannot be opened, or the ring on its matching events. -/
theorem readTail_eq (dec : Decoder τ) (cap need : ℕ) (since before : Option τ) (d : Dir) (name : Text) (page : EventPage) :
    SameEvents (readTail dec cap d name need since before page).2 page ∧
      ((readTail dec cap d name need since before page).1 = none ∧ candidates dec d since before name = [] ∨
        (readTail dec cap d name need since before page).1 =
          some (tailOf (ring (Fits need cap) (candidates dec d since before name)))) := by
  unfold readTail candidates readable
  cases d.file name with
  | notFound => exact ⟨⟨rfl, rfl⟩, .inl ⟨rfl, rfl⟩⟩
  | failed => exact ⟨⟨rfl, rfl⟩, .inl ⟨rfl, rfl⟩⟩
  | lines ls =>
    obtain ⟨htail, hpage⟩ := readLines_eq dec cap need since before ls ([], none) page
    exact ⟨hpage, .inr (congrArg some htail)⟩

theorem fits_append_singleton_iff {p : List (Value × ℕ)} {event : Value} {len : ℕ} :
    Fits limit cap (p ++ [(event, len)]) ↔
      ¬(limit ≤ (p.map Prod.fst).length ∨ (p.map Prod.fst ≠ [] ∧ cap < weight p + len)) := by
  unfold Fits
  rw [List.length_append, List.length_singleton, weight_append, weight_cons, weight_nil, List.length_map,
    Ne, List.map_eq_nil_iff, ← List.length_eq_zero_iff]
  omega

theorem takeTail_eq (ring : List (Value × ℕ)) {p : List (Value × ℕ)} {page : EventPage}
    (h : page.events = p.map Prod.fst) :
    takeTail cap limit ring page (weight p) =
      ({ page with
          events := (fill (Fits limit cap) p ring).1.map Prod.fst
          truncated := page.truncated || (fill (Fits limit cap) p ring).2.isSome },
        weight (fill (Fits limit cap) p ring).1, (fill (Fits limit cap) p ring).2.map timeOf) := by
  induction ring generalizing p page with
  | nil =>
    rw [fill_nil, ← h, Option.isSome_none, Bool.or_false]
    rfl
  | cons e ring ih =>
    obtain ⟨event, len⟩ := e
    unfold takeTail fill
    by_cases hfits : Fits limit cap (p ++ [(event, len)])
    · rw [h, if_neg (fits_append_singleton_iff.1 hfits), if_pos hfits]
      have hw : weight p + len = weight (p ++ [(event, len)]) := by simp
      rw [hw]
      have hevents : p.map Prod.fst ++ [event] = (p ++ [(event, len)]).map Prod.fst := by simp
      rw [hevents]
      exact ih rfl
    · rw [h, if_pos (not_not.1 fun hnot => hfits (fits_append_singleton_iff.2 hnot)), if_neg hfits, ← h,
        Option.isSome_some, Bool.or_true]
      rfl

/-- **The files, one after the other**, fill the page as their matching events in one list do. -/
theorem readFiles_eq (dec : Decoder τ) (cap limit : ℕ) (since before : Option τ) (d : Dir) (names : List Text)
    {p : List (Value × ℕ)} {page : EventPage} (h : page.events = p.map Prod.fst) :
    let filled := fill (Fits limit cap) p (names.flatMap fun n => (candidates dec d since before n).reverse)
    (readFiles dec cap d limit since before names page (weight p)).1.events = filled.1.map Prod.fst ∧
      (readFiles dec cap d limit since before names page (weight p)).1.truncated = (page.truncated || filled.2.isSome) ∧
      (readFiles dec cap d limit since before names page (weight p)).2 = filled.2.map timeOf := by
  induction names generalizing p page with
  | nil => exact ⟨h, (Bool.or_false _).symm, rfl⟩
  | cons name names ih =>
    obtain ⟨hsame, hread⟩ := readTail_eq dec cap (limit - page.events.length + 1) since before d name page
    rw [List.flatMap_cons]
    unfold readFiles
    generalize readTail dec cap d name (limit - page.events.length + 1) since before page = read at hsame hread
    obtain ⟨tail, page'⟩ := read
    dsimp only at hsame hread
    have hevents : page'.events = p.map Prod.fst := hsame.1.trans h
    rw [← hsame.2]
    rcases hread with ⟨rfl, hnone⟩ | rfl
    · rw [hnone]
      exact ih hevents
    · dsimp only
      have hlen : limit - p.length ≤ limit - page.events.length + 1 := by
        rw [h, List.length_map]
        omega
      rw [takeTail_eq _ hevents]
      generalize limit - page.events.length + 1 = need at hlen
      generalize candidates dec d since before name = cands
      have hnone := fill_ring_none cap hlen cands
      have hsome := fun x => fill_ring_some limit need cap p cands (x := x)
      have hfst := fill_fst_of_none (Fits limit cap) (p := p) (l := (ring (Fits need cap) cands).1.reverse)
      have hring : (tailOf (ring (Fits need cap) cands)).ring.reverse =
        (ring (Fits need cap) cands).1.reverse := rfl
      rw [hring]
      generalize fill (Fits limit cap) p (ring (Fits need cap) cands).1.reverse = taken at hnone hsome hfst
      obtain ⟨q, left⟩ := taken
      cases left with
      | some x =>
        -- the page is full within the ring
        have hfill := hsome x rfl
        have hleft : (fill (Fits limit cap) p cands.reverse).2 = some x := by rw [hfill]
        rw [fill_append_of_some _ _ hleft, hfill]
        exact ⟨rfl, rfl, rfl⟩
      | none =>
        have hfill := hnone rfl
        rw [← hfst rfl] at hfill
        have hdropped : (tailOf (ring (Fits need cap) cands)).newestDropped =
          (ring (Fits need cap) cands).2.map timeOf := rfl
        rw [hdropped]
        generalize (ring (Fits need cap) cands).2 = dropped at hfill
        cases dropped with
        | some x =>
          -- the ring is used up, and it had dropped something
          have hleft : (fill (Fits limit cap) p cands.reverse).2 = some x := by rw [hfill]
          rw [fill_append_of_some _ _ hleft, hfill]
          exact ⟨rfl, (Bool.or_true _).symm, rfl⟩
        | none =>
          have hleft : (fill (Fits limit cap) p cands.reverse).2 = none := by rw [hfill]
          have hq : p ++ cands.reverse = q := by rw [← fill_fst_of_none _ hleft, hfill]
          rw [fill_append_of_none _ _ hleft, hq]
          simp only [Option.map_none, Option.isSome_none, Bool.or_false]
          exact ih rfl

/-- **The reader** cuts the matching events by the limits and then at the first event of the page that shares the
timestamp of the event left out. -/
theorem readNewest_eq (dec : Decoder τ) (cap : ℕ) (d : Dir) (req : PageRequest) :
    (readNewestWithin dec cap d req).map (fun p => (p.events, p.truncated)) =
      (limited dec cap d req).map Limited.answerAtFirst := by
  unfold readNewestWithin limited matchingEvents
  rw [newestNames_eq]
  cases parseBound dec "since" req.since with
  | error e => rfl
  | ok since =>
    cases parseBound dec "before" req.before with
    | error e => rfl
    | ok before =>
      cases d.entries with
      | none => rfl
      | some es =>
        have hlen : ((batchNames es).insertionSort (· ≤ ·)).length = (batchNames es).length :=
          List.length_insertionSort _ _
        have holder : decide (0 < (batchNames es).length - maxFiles) = decide (maxFiles < (batchNames es).length) :=
          decide_eq_decide.2 Nat.sub_pos_iff_lt
        have hfiles := readFiles_eq dec cap req.clamped since before d
          (((batchNames es).insertionSort (· ≤ ·)).drop ((batchNames es).length - maxFiles)).reverse
          (show (⟨[], decide (0 < (batchNames es).length - maxFiles), 0, 0⟩ : EventPage).events =
            ([] : List (Value × ℕ)).map Prod.fst from rfl)
        rw [← matching_eq, weight_nil] at hfiles
        simp only [hlen, bind, Except.bind, Except.map, holder] at hfiles ⊢
        obtain ⟨hevents, htrunc, hleft⟩ := hfiles
        generalize readFiles dec cap d _ since before _ _ 0 = read at hevents htrunc hleft ⊢
        obtain ⟨page, excluded⟩ := read
        dsimp only at hevents htrunc hleft ⊢
        rw [hleft]
        cases hfill : (fill (Fits req.clamped cap) []
          (matching dec d (((batchNames es).insertionSort (· ≤ ·)).drop ((batchNames es).length - maxFiles))
            since before)).2 with
        | none =>
          rw [hfill] at htrunc
          simp [Limited.answerAtFirst, hevents, htrunc]
        | some e =>
          rw [hfill] at htrunc
          simp [Limited.answerAtFirst, hevents, htrunc, timeOf]

section Pages

variable {dec : Decoder τ} {cap : ℕ} {d : Dir} {req : PageRequest}

/-- **A page** of the reader: what fits of all that matches, cut at the event left out. -/
theorem readNewestWithin_ok {all : List (Value × ℕ)} {older : Bool} (h : matchingEvents dec d req = .ok (all, older)) :
    ∃ page, readNewestWithin dec cap d req = .ok page ∧
      page.truncated = (older || (fill (Fits req.clamped cap) [] all).2.isSome) ∧
      page.events = match (fill (Fits req.clamped cap) [] all).2 with
        | some e => cutOnATimestampBoundary ((fill (Fits req.clamped cap) [] all).1.map Prod.fst) (eventTime e.1)
        | none => all.map Prod.fst := by
  have hread := readNewest_eq dec cap d req
  unfold limited at hread
  rw [h] at hread
  cases hpage : readNewestWithin dec cap d req with
  | error e =>
    rw [hpage] at hread
    cases hread
  | ok page =>
    rw [hpage] at hread
    obtain ⟨hevents, htrunc⟩ := Prod.mk.inj (Except.ok.inj hread)
    refine ⟨page, rfl, htrunc, ?_⟩
    rw [hevents]
    cases hleft : (fill (Fits req.clamped cap) [] all).2 with
    | some e => simp [hleft]
    | none => simp [hleft, fill_fst_of_none _ hleft]

/-- A page that is read is one of what matches. -/
theorem matchingEvents_of_page {p : EventPage} (h : readNewestWithin dec cap d req = .ok p) :
    ∃ all older, matchingEvents dec d req = .ok (all, older) := by
  have hread := readNewest_eq dec cap d req
  unfold limited at hread
  rw [h] at hread
  cases hmatch : matchingEvents dec d req with
  | error e =>
    rw [hmatch] at hread
    cases hread
  | ok m => exact ⟨m.1, m.2, rfl⟩

/-- The bounds of what matches are read, and the directory is listed. -/
theorem bounds_of_matchingEvents {all : List (Value × ℕ)} {older : Bool} (h : matchingEvents dec d req = .ok (all, older)) :
    ∃ es since before, d.entries = some es ∧ parseBound dec "since" req.since = .ok since ∧
      parseBound dec "before" req.before = .ok before ∧ older = decide (maxFiles < (batchNames es).length) ∧
      all = matching dec d (((batchNames es).insertionSort (· ≤ ·)).drop ((batchNames es).length - maxFiles)) since before := by
  unfold matchingEvents at h
  cases hs : parseBound dec "since" req.since with
  | error e =>
    rw [hs] at h
    cases h
  | ok since =>
    cases hb : parseBound dec "before" req.before with
    | error e =>
      rw [hs, hb] at h
      cases h
    | ok before =>
      cases hes : d.entries with
      | none =>
        rw [hs, hb, hes] at h
        cases h
      | some es =>
        rw [hs, hb, hes] at h
        obtain ⟨hall, holder⟩ := Prod.mk.inj (Except.ok.inj h)
        rw [List.length_insertionSort] at hall holder
        exact ⟨es, since, before, rfl, rfl, rfl, holder.symm, hall.symm⟩

end Pages

/-! ### The reader and what it is to answer -/

theorem cutOnATimestampBoundary_some (events : List Value) (t : Text) :
    cutOnATimestampBoundary events (some t) =
      if 0 < (events.takeWhile fun e => ¬eventTime e = some t).length then events.takeWhile fun e => ¬eventTime e = some t
      else events := by
  have htake : events.take (events.findIdx fun e => decide (eventTime e = some t)) =
      events.takeWhile fun e => decide ¬eventTime e = some t := by
    rw [List.takeWhile_eq_take_findIdx_not]
    simp
  have hlen : (events.takeWhile fun e => decide ¬eventTime e = some t).length =
      events.findIdx fun e => decide (eventTime e = some t) := by
    rw [← htake, List.length_take, min_eq_left List.findIdx_le_length]
  unfold cutOnATimestampBoundary
  dsimp only
  rw [htake, ← hlen]

theorem cut_eq_iff {events : List Value} (h : events ≠ []) (t : Text) :
    cutOnATimestampBoundary events (some t) = cutSharing events (some t) ↔
      ∀ x ∈ events.dropWhile fun e => ¬eventTime e = some t, eventTime x = some t := by
  have hiff := takeWhile_eq_filter_iff (fun e => decide ¬eventTime e = some t) h
  rw [cutOnATimestampBoundary_some]
  unfold cutSharing
  dsimp only
  rw [hiff]
  simp

namespace Limited

/-- What is left out stands behind a page that is not empty; where nothing is, all is on the page. -/
structure Sound (l : Limited) : Prop where
  left : ∀ e ∈ l.left, l.page ≠ [] ∧ l.page.length < l.total
  all : l.left = none → l.page.length = l.total

theorem cutSharing_length (events : List Value) (t : Option Text) : (cutSharing events t).length ≤ events.length := by
  unfold cutSharing
  cases t with
  | none => exact le_rfl
  | some t =>
    dsimp only
    split_ifs
    · exact le_rfl
    · exact List.length_filter_le _ _

theorem answer_eq_iff {l : Limited} (h : l.Sound) : l.answerAtFirst = l.answer ↔ l.TiesLast := by
  unfold answerAtFirst answer TiesLast
  cases hleft : l.left with
  | none =>
    have hall := h.all hleft
    simp [hall]
  | some e =>
    obtain ⟨hpage, hlt⟩ := h.left e hleft
    have hshort : (cutSharing (l.page.map Prod.fst) (eventTime e.1)).length < l.total :=
      lt_of_le_of_lt (cutSharing_length _ _) (by rwa [List.length_map])
    have hne : l.page.map Prod.fst ≠ [] := by simpa using hpage
    simp only [Option.isSome_some, hshort, decide_true, Prod.mk.injEq, and_true, Option.mem_def, Option.some.injEq,
      forall_eq']
    cases ht : eventTime e.1 with
    | none => simp [cutOnATimestampBoundary, cutSharing]
    | some t =>
      rw [cut_eq_iff hne t]
      simp

end Limited

theorem limited_sound {d : Dir} {req : PageRequest} {l : Limited} (h : limited dec cap d req = .ok l) : l.Sound := by
  unfold limited at h
  cases hm : matchingEvents dec d req with
  | error e =>
    rw [hm] at h
    cases h
  | ok m =>
    obtain ⟨all, older⟩ := m
    rw [hm] at h
    obtain rfl := Except.ok.inj h
    have hpos := req.clamped_pos
    generalize req.clamped = limit at hpos
    constructor
    · intro e hleft
      obtain ⟨r, hr⟩ := fill_of_some (Fits limit cap) hleft
      rw [List.nil_append] at hr
      constructor
      · exact fill_ne_nil hpos hleft
      · show (fill (Fits limit cap) [] all).1.length < all.length
        have hlen := congrArg List.length hr
        rw [List.length_append, List.length_cons] at hlen
        omega
    · intro hleft
      show (fill (Fits limit cap) [] all).1.length = all.length
      rw [fill_fst_of_none _ hleft, List.nil_append]

/-- **The reader answers as it should** exactly when no event with another timestamp stands behind one with the timestamp
of the event left out. -/
theorem readNewest_eq_naive_iff (dec : Decoder τ) (cap : ℕ) (d : Dir) (req : PageRequest) :
    (readNewestWithin dec cap d req).map (fun p => (p.events, p.truncated)) = naive dec cap d req ↔
      ∀ l, limited dec cap d req = .ok l → l.TiesLast := by
  rw [readNewest_eq, naive]
  cases h : limited dec cap d req with
  | error e => simp [Except.map]
  | ok l =>
    have hiff := Limited.answer_eq_iff (limited_sound h)
    simp only [Except.map, Except.ok.injEq, forall_eq']
    exact hiff

end

/-! ### A page that loses an event -/

/-- A decoder of events that have an `eventTime` only. -/
def timesOnly : Decoder ℕ where
  fromStr t :=
    if "\x7b\"eventTime\":\"".toList <+: t ∧ "\"\x7d".toList <:+ t then
      some (.obj [("eventTime", .str ((t.drop 14).take (t.length - 16)))])
    else none
  parse _ := none

/-- The line of an event at a second of one minute. -/
def lineAt (second : String) : Text := ("\x7b\"eventTime\":\"2026-08-14T10:00:0" ++ second ++ ".000Z\"\x7d").toList

/-- One batch: behind an event of the second second stand one of the first, as a `START` is that is backdated, and one of
the second and one of the third again. -/
def backdated : Dir where
  entries := some [some "1786701603000-a.jsonl".toList]
  file _ := .lines [some (lineAt "2"), some (lineAt "1"), some (lineAt "2"), some (lineAt "3")]

theorem newer_tie_drops_others :
    (readNewest timesOnly backdated ⟨3, none, none⟩).map (fun p => (p.events, p.truncated)) ≠
      naive timesOnly maxBytes backdated ⟨3, none, none⟩ := by
  intro h
  have hread : (readNewest timesOnly backdated ⟨3, none, none⟩).map (fun p => p.events.map eventTime) =
      .ok [some "2026-08-14T10:00:03.000Z".toList] := by decide +kernel
  have hnaive : (naive timesOnly maxBytes backdated ⟨3, none, none⟩).map (fun p => p.1.map eventTime) =
      .ok [some "2026-08-14T10:00:03.000Z".toList, some "2026-08-14T10:00:01.000Z".toList] := by decide +kernel
  have hsame := congrArg (Except.map fun p : List Value × Bool => p.1.map eventTime) h
  rw [hnaive] at hsame
  revert hsame hread
  cases readNewest timesOnly backdated ⟨3, none, none⟩ with
  | error e => simp [Except.map]
  | ok p =>
    simp only [Except.map, Except.ok.injEq]
    intro hread hsame
    rw [hread] at hsame
    simp at hsame

end Latiq.Lineage
