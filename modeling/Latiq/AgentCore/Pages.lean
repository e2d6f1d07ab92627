import Latiq.AgentCore.Trail

/-!
# Paging through any trail

A trail as it is found in a directory, whoever wrote it: times in any form of RFC 3339, events without a time, any number
of batches. A reader takes the oldest `eventTime` of a page for the next page's `before`.

## The model

* `history` — all that can be read, newest first.
* `pages` — reading until a page is not truncated.
* `pageAt`, `Actionable` — the pages that follow each other, and what is owed where one is truncated.

## What is proved

* `paging_exact_iff` — where the times descend and the ties fit, all that matches is received once, newest first, exactly
  where each page is cut at an event that is written as the one left out.
* `two_spellings` — one instant written in two ways.
* `actionable_iff` — a truncated page leads on from every cursor, exactly where there are no more batches than one call
  looks at, and a page that leaves something out has an event with a time.
* `beyond_the_window` — a trail of one batch too many.
-/

namespace Latiq.AgentCore

open RustStr (Text)
open Serde (Value)
open Latiq.Lineage
open Window Paging

section

variable {τ : Type} [LinearOrder τ] (dec : Decoder τ)

/-- All that can be read of a directory, newest first: by file name and then by line, turned round. -/
def history (d : Dir) (es : List (Option Text)) : List (Value × ℕ) :=
  (((batchNames es).insertionSort (· ≤ ·)).flatMap (readable dec d)).reverse

/-- What matches, of all batches. -/
def wantedOf (d : Dir) (es : List (Option Text)) (since before : Option τ) : List (Value × ℕ) :=
  (history dec d es).filter fun e => selected dec e.1 since before

/-- The time of an event as it is written. -/
def writtenTime (v : Value) : WithBot Text := eventTime v

/-- Reading until a page is not truncated, each page before the oldest event of the one before it. -/
def pages (cap : ℕ) (d : Dir) : ℕ → PageRequest → Option (List Value)
  | 0, _ => none
  | k + 1, req =>
    match readNewestWithin dec cap d req with
    | .error _ => none
    | .ok page =>
      if page.truncated then (pages cap d k { req with before := oldest dec page.events }).map fun rest => page.events ++ rest
      else some page.events

/-- The request that follows a truncated page: before its oldest event. -/
def nextRequest (cap : ℕ) (d : Dir) (req : PageRequest) : Option PageRequest :=
  match readNewestWithin dec cap d req with
  | .error _ => none
  | .ok page => if page.truncated then (oldest dec page.events).map fun c => { req with before := some c } else none

/-- The requests that follow each other. -/
def requestAt (cap : ℕ) (d : Dir) (req : PageRequest) : ℕ → Option PageRequest
  | 0 => some req
  | i + 1 => (requestAt cap d req i).bind (nextRequest dec cap d)

/-- The pages that follow each other, each with what it was asked with. -/
def PageAt (cap : ℕ) (d : Dir) (req : PageRequest) (i : ℕ) (r : PageRequest) (p : EventPage) : Prop :=
  requestAt dec cap d req i = some r ∧ readNewestWithin dec cap d r = .ok p

/-- All that matches a request is on its page. -/
def Complete (d : Dir) (req : PageRequest) (p : EventPage) : Prop :=
  ∀ es since before, d.entries = some es → parseBound dec "since" req.since = .ok since →
    parseBound dec "before" req.before = .ok before → p.events = (wantedOf dec d es since before).map Prod.fst

/-- What is owed to a reader who follows the cursors: behind a truncated page one with an event that was on no page yet, or
one that is not truncated; and on that all that matches its request. -/
def Actionable (cap : ℕ) (d : Dir) (req : PageRequest) : Prop :=
  ∀ i r p, PageAt dec cap d req i r p →
    (p.truncated = true → ∃ j, i < j ∧ ∃ r' q, PageAt dec cap d req j r' q ∧ (q.truncated = false ∨
      ∃ v ∈ q.events, ∀ k ≤ i, ∀ r'' p', PageAt dec cap d req k r'' p' → v ∉ p'.events)) ∧
    (p.truncated = false → Complete dec d r p)

/-- What is left out of a page leaves an event with a time on it. -/
def LeavesDated (cap : ℕ) (req : PageRequest) (all : List (Value × ℕ)) : Prop :=
  ∀ e ∈ (fill (Fits req.clamped cap) [] all).2,
    ∃ v ∈ cutOnATimestampBoundary ((fill (Fits req.clamped cap) [] all).1.map Prod.fst) (eventTime e.1), Dated dec v

end

/-! ### A page -/

section

variable {τ : Type} [LinearOrder τ] {dec : Decoder τ} {d : Dir} {es : List (Option Text)} {req : PageRequest}
  {since before : Option τ} {cap : ℕ}

theorem cutOnATimestampBoundary_subset (events : List Value) (boundary : Option Text) :
    cutOnATimestampBoundary events boundary ⊆ events := by
  unfold cutOnATimestampBoundary
  cases boundary with
  | none => exact List.Subset.refl events
  | some t =>
    dsimp only
    split_ifs
    · exact List.take_subset _ _
    · exact List.Subset.refl events

/-- What matches among the batches that one call looks at. -/
theorem matchingEvents_ok (hes : d.entries = some es) (hs : parseBound dec "since" req.since = .ok since)
    (hb : parseBound dec "before" req.before = .ok before) :
    ∃ all, matchingEvents dec d req = .ok (all, decide (maxFiles < (batchNames es).length)) ∧
      all <+: wantedOf dec d es since before ∧
      ((batchNames es).length ≤ maxFiles → all = wantedOf dec d es since before) := by
  unfold matchingEvents
  rw [hs, hb, hes]
  simp only [bind, Except.bind, List.length_insertionSort]
  refine ⟨_, rfl, ?_, ?_⟩
  · unfold matching wantedOf history
    rw [← List.filter_reverse]
    generalize (batchNames es).insertionSort (· ≤ ·) = names
    conv_rhs => rw [← List.take_append_drop ((batchNames es).length - maxFiles) names, List.flatMap_append,
      List.reverse_append, List.filter_append]
    exact List.prefix_append _ _
  · intro hfew
    unfold matching wantedOf history
    rw [Nat.sub_eq_zero_of_le hfew, List.drop_zero, List.filter_reverse]

/-- What is selected, of an event without a time. -/
theorem selected_of_undated {v : Value} (hv : timeKey dec v = ⊥) : selected dec v since before = true := by
  have hparse : (eventTime v).bind dec.parse = none := hv
  unfold selected
  rw [hparse]
  split <;> rfl

/-! ### The oldest of a page -/

/-- The best of some texts to continue from. -/
def Best (dec : Decoder τ) (ts : List Text) : Option Text → Prop
  | none => ts = []
  | some s => s ∈ ts ∧ ∀ t ∈ ts, ∀ b, dec.parse t = some b → ∃ a, dec.parse s = some a ∧ a ≤ b

theorem best_earlier {ts : List Text} {o : Option Text} (h : Best dec ts o) (t : Text) :
    Best dec (ts ++ [t]) (some ((o.map fun s => earlier dec s t).getD t)) := by
  cases o with
  | none =>
    obtain rfl : ts = [] := h
    refine ⟨by simp, fun u hu b hb => ?_⟩
    obtain rfl : u = t := by simpa using hu
    exact ⟨b, hb, le_rfl⟩
  | some s =>
    obtain ⟨hs, hall⟩ := h
    rw [Option.map_some, Option.getD_some]
    unfold earlier
    split
    · rename_i a b ha hb
      split_ifs with hlt
      · refine ⟨by simp, fun u hu c hc => ⟨b, hb, ?_⟩⟩
        rcases List.mem_append.1 hu with hu | hu
        · obtain ⟨a', ha', hle⟩ := hall u hu c hc
          obtain rfl : a = a' := Option.some.inj (ha.symm.trans ha')
          exact hlt.le.trans hle
        · rw [List.mem_singleton.1 hu, hb] at hc
          exact (Option.some.inj hc).le
      · refine ⟨List.mem_append_left _ hs, fun u hu c hc => ?_⟩
        rcases List.mem_append.1 hu with hu | hu
        · exact hall u hu c hc
        · rw [List.mem_singleton.1 hu, hb] at hc
          exact ⟨a, ha, Option.some.inj hc ▸ not_lt.1 hlt⟩
    · rename_i b ha hb
      refine ⟨by simp, fun u hu c hc => ?_⟩
      rcases List.mem_append.1 hu with hu | hu
      · obtain ⟨a', ha', -⟩ := hall u hu c hc
        rw [ha] at ha'
        cases ha'
      · rw [List.mem_singleton.1 hu] at hc
        exact ⟨c, hc, le_rfl⟩
    · rename_i hb
      refine ⟨List.mem_append_left _ hs, fun u hu c hc => ?_⟩
      rcases List.mem_append.1 hu with hu | hu
      · exact hall u hu c hc
      · rw [List.mem_singleton.1 hu, hb] at hc
        cases hc

theorem best_oldest (dec : Decoder τ) (events : List Value) : Best dec (events.filterMap eventTime) (oldest dec events) := by
  have hfold : ∀ (ts rest : List Text) (o : Option Text), Best dec ts o →
      Best dec (ts ++ rest) (rest.foldl (fun o t => some ((o.map fun s => earlier dec s t).getD t)) o) := by
    intro ts rest
    induction rest generalizing ts with
    | nil =>
      intro o h
      rw [List.append_nil]
      exact h
    | cons t rest ih =>
      intro o h
      have hnext := ih (ts ++ [t]) _ (best_earlier h t)
      rwa [List.append_assoc] at hnext
  exact hfold [] (events.filterMap eventTime) none rfl

/-- **The cursor** of a page with a time on it is the least of its times. -/
theorem oldest_of_dated {events : List Value} (h : ∃ v ∈ events, Dated dec v) :
    ∃ s t, oldest dec events = some s ∧ dec.parse s = some t ∧ (∀ v ∈ events, Dated dec v → (t : WithBot τ) ≤ timeKey dec v) ∧
      ∃ v ∈ events, timeKey dec v = t := by
  obtain ⟨v, hv, t, ht⟩ := h
  obtain ⟨s, hs, hparse⟩ := Option.bind_eq_some_iff.1 (ht : (eventTime v).bind dec.parse = some t)
  have hbest := best_oldest dec events
  cases ho : oldest dec events with
  | none =>
    rw [ho] at hbest
    have hmem : s ∈ events.filterMap eventTime := List.mem_filterMap.2 ⟨v, hv, hs⟩
    rw [show events.filterMap eventTime = [] from hbest] at hmem
    cases hmem
  | some c =>
    rw [ho] at hbest
    obtain ⟨hc, hall⟩ := hbest
    obtain ⟨a, ha, -⟩ := hall s (List.mem_filterMap.2 ⟨v, hv, hs⟩) t hparse
    refine ⟨c, a, rfl, ha, fun u hu hdated => ?_, ?_⟩
    · obtain ⟨b, hb⟩ := hdated
      obtain ⟨text, htext, hparse'⟩ := Option.bind_eq_some_iff.1 (hb : (eventTime u).bind dec.parse = some b)
      obtain ⟨a', ha', hle⟩ := hall text (List.mem_filterMap.2 ⟨u, hu, htext⟩) b hparse'
      rw [hb, Option.some.inj (ha.symm.trans ha')]
      exact WithBot.coe_le_coe.2 hle
    · obtain ⟨u, hu, htext⟩ := List.mem_filterMap.1 hc
      refine ⟨u, hu, ?_⟩
      unfold timeKey
      rw [htext]
      exact ha

/-- A page without a time has no cursor that can be read. -/
theorem oldest_of_undated {events : List Value} (h : ∀ v ∈ events, ¬Dated dec v) {s : Text} (hs : oldest dec events = some s) :
    dec.parse s = none := by
  have hbest := best_oldest dec events
  rw [hs] at hbest
  obtain ⟨v, hv, htext⟩ := List.mem_filterMap.1 hbest.1
  cases hparse : dec.parse s with
  | none => rfl
  | some t =>
    refine absurd ⟨t, ?_⟩ (h v hv)
    unfold timeKey
    rw [htext]
    exact hparse

/-! ### Paging through a trail with times -/

/-- What a reader starts from: a directory that can be listed, with no more batches than one call looks at, of events
with times, and a lower bound that is read. -/
structure Legible (dec : Decoder τ) (d : Dir) (es : List (Option Text)) (req : PageRequest) (since : Option τ) : Prop where
  entries : d.entries = some es
  few : (batchNames es).length ≤ maxFiles
  dated : ∀ x ∈ history dec d es, Dated dec x.1
  since : parseBound dec "since" req.since = .ok since

omit [LinearOrder τ] in
theorem written_of_dated {v : Value} (h : Dated dec v) : ∃ s, eventTime v = some s := by
  obtain ⟨t, ht⟩ := h
  obtain ⟨s, hs, -⟩ := Option.bind_eq_some_iff.1 (ht : (eventTime v).bind dec.parse = some t)
  exact ⟨s, hs⟩

omit [LinearOrder τ] in
/-- What is written alike is of one time. -/
theorem timeKey_eq_of_written {v u : Value} (h : writtenTime v = writtenTime u) : timeKey dec v = timeKey dec u := by
  have heq : eventTime v = eventTime u := h
  unfold timeKey
  rw [heq]

/-- The cut of the reader, of events whose times are written. -/
theorem cutOnATimestampBoundary_written {p : List (Value × ℕ)} {v : Value} (hv : ∃ s, eventTime v = some s) :
    cutOnATimestampBoundary (p.map Prod.fst) (eventTime v) = (cutTie writtenTime (writtenTime v) p).map Prod.fst := by
  obtain ⟨s, hs⟩ := hv
  rw [hs]
  refine cutOnATimestampBoundary_eq_cutTie fun x _ => ?_
  unfold writtenTime
  rw [hs]
  rfl

namespace Legible

/-- One reading of the loop. -/
theorem page (h : Legible dec d es req since) (cap : ℕ) {raw : Option Text}
    (hb : parseBound dec "before" raw = .ok before) :
    ∃ page, readNewestWithin dec cap d { req with before := raw } = .ok page ∧
      page.truncated = (fill (Fits req.clamped cap) [] (wantedOf dec d es since before)).2.isSome ∧
      page.events = (Paging.page writtenTime req.clamped cap (wantedOf dec d es since before)).1.map Prod.fst := by
  obtain ⟨all, hall, -, heq⟩ := @matchingEvents_ok τ _ dec d es { req with before := raw } since before h.entries
    h.since hb
  obtain rfl := heq h.few
  rw [decide_eq_false (Nat.not_lt.2 h.few)] at hall
  obtain ⟨page, hpage, htrunc, hevents⟩ := readNewestWithin_ok hall
  refine ⟨page, hpage, htrunc, hevents.trans ?_⟩
  have hclamped : PageRequest.clamped { req with before := raw } = req.clamped := rfl
  rw [hclamped]
  cases hleft : (fill (Fits req.clamped cap) [] (wantedOf dec d es since before)).2 with
  | none => rw [page_of_none hleft]
  | some e =>
    obtain ⟨r, hr⟩ := fill_of_some _ hleft
    rw [List.nil_append] at hr
    have he : e ∈ wantedOf dec d es since before := hr ▸ List.mem_append_right _ List.mem_cons_self
    rw [page_of_some hleft]
    exact cutOnATimestampBoundary_written (written_of_dated (h.dated e (List.mem_filter.1 he).1))

/-- **The loop** walks through what matches. -/
theorem pages_eq (h : Legible dec d es req since) (cap : ℕ) {k : ℕ} {raw : Option Text}
    (hb : parseBound dec "before" raw = .ok before) (hk : (wantedOf dec d es since before).length < k) :
    pages dec cap d k { req with before := raw } =
      some ((walkShown (timeKey dec) req.clamped cap writtenTime k (wantedOf dec d es since before)).map Prod.fst) := by
  induction k generalizing raw before with
  | zero => exact absurd hk (Nat.not_lt_zero _)
  | succ k ih =>
    obtain ⟨page, hpage, htrunc, hevents⟩ := h.page cap hb
    rw [pages, hpage]
    dsimp only
    cases hleft : (fill (Fits req.clamped cap) [] (wantedOf dec d es since before)).2 with
    | none =>
      rw [hleft] at htrunc
      rw [htrunc, hevents, walkShown_of_none k hleft, page_of_none hleft]
      rfl
    | some e =>
      rw [hleft] at htrunc
      have hne : (Paging.page writtenTime req.clamped cap (wantedOf dec d es since before)).1 ≠ [] :=
        page_ne_nil req.clamped_pos hleft
      have hsub : ∀ x ∈ (Paging.page writtenTime req.clamped cap (wantedOf dec d es since before)).1,
          x ∈ wantedOf dec d es since before := page_subset _
      have hlen : (below (timeKey dec) _ (wantedOf dec d es since before)).length < _ := below_length_lt hne hsub
      rw [walkShown_of_some k hleft, htrunc, hevents, if_pos (Option.isSome_some)]
      generalize (Paging.page writtenTime req.clamped cap (wantedOf dec d es since before)).1 = p at hne hsub hlen
      have hdated : ∀ x ∈ p, Dated dec x.1 := fun x hx => h.dated x (List.mem_filter.1 (hsub x hx)).1
      obtain ⟨x, hx⟩ := List.exists_mem_of_ne_nil p hne
      have hsome : ∃ v ∈ p.map Prod.fst, Dated dec v := ⟨x.1, List.mem_map_of_mem hx, hdated x hx⟩
      obtain ⟨s, t, hs, ht, hle, v, hv, hvt⟩ := oldest_of_dated hsome
      obtain ⟨y, hy, rfl⟩ := List.mem_map.1 hv
      have hnext : wantedOf dec d es since (some t) = below (timeKey dec) p (wantedOf dec d es since before) :=
        filter_selected_eq h.dated hsub (fun z hz => hle z.1 (List.mem_map_of_mem hz) (hdated z hz)) ⟨y, hy, hvt⟩
      have hb' : parseBound dec "before" (some s) = .ok (some t) := by simp [parseBound, ht]
      rw [hs, ih hb' (by rw [hnext]; omega), hnext, Option.map_some, List.map_append]

end Legible

theorem pages_succ {k : ℕ} {events : List Value} (h : pages dec cap d k req = some events) :
    pages dec cap d (k + 1) req = some events := by
  induction k generalizing req events with
  | zero => cases h
  | succ k ih =>
    rw [pages] at h ⊢
    split at h
    · cases h
    · split_ifs at h ⊢ with htrunc
      · obtain ⟨rest, hrest, rfl⟩ := Option.map_eq_some_iff.1 h
        rw [ih hrest]
        rfl
      · exact h

theorem pages_of_le {k k' : ℕ} {events : List Value} (hk : k ≤ k') (h : pages dec cap d k req = some events) :
    pages dec cap d k' req = some events := by
  induction hk with
  | refl => exact h
  | step _ ih => exact pages_succ ih

/-- **Paging is exact**, from a trail of dated events whose times descend and whose ties fit a page, exactly where each
page that leaves an event out has its first event of that one's instant written as that one is. -/
theorem paging_exact_iff (cap : ℕ) (h : Legible dec d es req since) (hb : parseBound dec "before" req.before = .ok before)
    (hd : Descending (timeKey dec) (history dec d es))
    (hties : TiesFit (timeKey dec) req.clamped cap (wantedOf dec d es since before)) :
    (∃ k, pages dec cap d k req = some ((wantedOf dec d es since before).map Prod.fst)) ↔
      CutsClean (timeKey dec) req.clamped cap writtenTime ((wantedOf dec d es since before).length + 1)
        (wantedOf dec d es since before) := by
  have hd' : Descending (timeKey dec) (wantedOf dec d es since before) := hd.sublist List.filter_sublist
  have hiff := walkShown_eq_iff req.clamped_pos hd' hties
    (fun x _ y _ hxy => timeKey_eq_of_written hxy) (Nat.lt_succ_self _)
  rw [← hiff]
  constructor
  · rintro ⟨k, hk⟩
    have hlong : (wantedOf dec d es since before).length < max k ((wantedOf dec d es since before).length + 1) :=
      lt_of_lt_of_le (Nat.lt_succ_self _) (le_max_right _ _)
    have heq := (pages_of_le (le_max_left k _) hk).symm.trans (h.pages_eq cap hb hlong)
    rw [walkShown_stable req.clamped_pos (Nat.lt_succ_self _) hlong]
    have hsub : (walkShown (timeKey dec) req.clamped cap writtenTime
        (max k ((wantedOf dec d es since before).length + 1)) (wantedOf dec d es since before)).Sublist _ :=
      walkShown_sublist _ _
    refine hsub.eq_of_length ?_
    have hlen := congrArg List.length (Option.some.inj heq)
    rwa [List.length_map, List.length_map, eq_comm] at hlen
  · intro heq
    refine ⟨_, (h.pages_eq cap hb (Nat.lt_succ_self _)).trans ?_⟩
    rw [heq]

/-! ### What follows a truncated page -/

/-- What is on a page matches. -/
theorem mem_of_page {all : List (Value × ℕ)} {older : Bool} (h : matchingEvents dec d req = .ok (all, older))
    {p : EventPage} (hp : readNewestWithin dec cap d req = .ok p) : ∀ v ∈ p.events, ∃ x ∈ all, x.1 = v := by
  intro v hv
  obtain ⟨page, hpage, -, hevents⟩ := readNewestWithin_ok h
  obtain rfl := Except.ok.inj (hp.symm.trans hpage)
  cases hleft : (fill (Fits req.clamped cap) [] all).2 with
  | none =>
    rw [hleft] at hevents
    rw [hevents] at hv
    exact List.mem_map.1 hv
  | some e =>
    rw [hleft] at hevents
    obtain ⟨r, hr⟩ := fill_of_some _ hleft
    rw [List.nil_append] at hr
    rw [hevents] at hv
    obtain ⟨x, hx, rfl⟩ := List.mem_map.1 (cutOnATimestampBoundary_subset _ _ hv)
    exact ⟨x, hr ▸ List.mem_append_left _ hx, rfl⟩

/-- What is on a page is selected by its request. -/
theorem selected_of_page {p : EventPage} (h : readNewestWithin dec cap d req = .ok p)
    (hs : parseBound dec "since" req.since = .ok since) (hb : parseBound dec "before" req.before = .ok before) :
    ∀ v ∈ p.events, selected dec v since before = true := by
  intro v hv
  obtain ⟨all, older, hmatch⟩ := matchingEvents_of_page h
  obtain ⟨es, since', before', -, hs', hb', -, hall⟩ := bounds_of_matchingEvents hmatch
  obtain rfl := Except.ok.inj (hs.symm.trans hs')
  obtain rfl := Except.ok.inj (hb.symm.trans hb')
  obtain ⟨x, hx, rfl⟩ := mem_of_page hmatch h v hv
  rw [hall] at hx
  unfold matching at hx
  exact (List.mem_filter.1 (List.mem_reverse.1 hx)).2

/-- **What a page that is not truncated says**: nothing that matches is left, in any batch. -/
theorem complete_of_not_truncated {p : EventPage} (h : readNewestWithin dec cap d req = .ok p) (ht : p.truncated = false) :
    Complete dec d req p := by
  intro es since before hes hs hb
  obtain ⟨all, hall, -, heq⟩ := matchingEvents_ok hes hs hb
  obtain ⟨page, hpage, htrunc, hevents⟩ := readNewestWithin_ok hall
  obtain rfl := Except.ok.inj (h.symm.trans hpage)
  rw [ht, eq_comm, Bool.or_eq_false_iff, decide_eq_false_iff_not, not_lt, Option.isSome_eq_false_iff,
    Option.isNone_iff_eq_none] at htrunc
  rw [htrunc.2] at hevents
  rw [hevents, heq htrunc.1]

/-! ### The pages that follow each other -/

theorem nextRequest_eq_some {r r' : PageRequest} : nextRequest dec cap d r = some r' ↔
    ∃ p s, readNewestWithin dec cap d r = .ok p ∧ p.truncated = true ∧ oldest dec p.events = some s ∧
      r' = { r with before := some s } := by
  unfold nextRequest
  constructor
  · intro h
    split at h
    · cases h
    · rename_i p hp
      split_ifs at h with ht
      obtain ⟨s, hs, rfl⟩ := Option.map_eq_some_iff.1 h
      exact ⟨p, s, hp, ht, hs, rfl⟩
  · rintro ⟨p, s, hp, ht, hs, rfl⟩
    rw [hp]
    dsimp only
    rw [if_pos ht, hs, Option.map_some]

theorem requestAt_succ {i : ℕ} {r' : PageRequest} : requestAt dec cap d req (i + 1) = some r' ↔
    ∃ r p s, PageAt dec cap d req i r p ∧ p.truncated = true ∧ oldest dec p.events = some s ∧
      r' = { r with before := some s } := by
  rw [requestAt, Option.bind_eq_some_iff]
  constructor
  · rintro ⟨r, hr, hnext⟩
    obtain ⟨p, s, hp, hrest⟩ := nextRequest_eq_some.1 hnext
    exact ⟨r, p, s, ⟨hr, hp⟩, hrest⟩
  · rintro ⟨r, p, s, ⟨hr, hp⟩, hrest⟩
    exact ⟨r, hr, nextRequest_eq_some.2 ⟨p, s, hp, hrest⟩⟩

theorem PageAt.unique {i : ℕ} {r r' : PageRequest} {p p' : EventPage} (h : PageAt dec cap d req i r p)
    (h' : PageAt dec cap d req i r' p') : r = r' ∧ p = p' := by
  obtain rfl := Option.some.inj (h.1.symm.trans h'.1)
  exact ⟨rfl, Except.ok.inj (h.2.symm.trans h'.2)⟩

/-- Behind a request there is one for each before it. -/
theorem requestAt_of_le {i j : ℕ} (h : i ≤ j) {r : PageRequest} (hr : requestAt dec cap d req j = some r) :
    ∃ r', requestAt dec cap d req i = some r' := by
  induction h generalizing r with
  | refl => exact ⟨r, hr⟩
  | step _ ih =>
    obtain ⟨r', p, s, hp, -⟩ := requestAt_succ.1 hr
    exact ih hp.1

/-- Only the cursor changes from request to request. -/
theorem requestAt_same {i : ℕ} {r : PageRequest} (hr : requestAt dec cap d req i = some r) :
    ∃ before, r = ⟨req.limit, req.since, before⟩ := by
  induction i generalizing r with
  | zero => exact ⟨req.before, (Option.some.inj hr).symm⟩
  | succ i ih =>
    obtain ⟨r', p, s, hp, -, -, rfl⟩ := requestAt_succ.1 hr
    obtain ⟨before, rfl⟩ := ih hp.1
    exact ⟨some s, rfl⟩

/-- A cursor that can be read is the time of an event on the page, and no later than any other. -/
theorem dated_of_cursor {events : List Value} {s : Text} {t : τ} (hs : oldest dec events = some s) (ht : dec.parse s = some t) :
    (∀ v ∈ events, Dated dec v → (t : WithBot τ) ≤ timeKey dec v) ∧ ∃ v ∈ events, timeKey dec v = t := by
  have hdated : ∃ v ∈ events, Dated dec v := by
    by_contra hno
    have hnone := oldest_of_undated (fun v hv hd => hno ⟨v, hv, hd⟩) hs
    rw [ht] at hnone
    cases hnone
  obtain ⟨s', t', hs', ht', hrest⟩ := oldest_of_dated hdated
  obtain rfl := Option.some.inj (hs.symm.trans hs')
  obtain rfl := Option.some.inj (ht.symm.trans ht')
  exact hrest

theorem parse_of_page {p : EventPage} (h : readNewestWithin dec cap d req = .ok p) {s : Text} (hs : req.before = some s) :
    ∃ t, dec.parse s = some t := by
  obtain ⟨all, older, hmatch⟩ := matchingEvents_of_page h
  obtain ⟨-, -, before, -, -, hb, -, -⟩ := bounds_of_matchingEvents hmatch
  rw [hs] at hb
  unfold parseBound at hb
  cases hp : dec.parse s with
  | none => simp [hp] at hb
  | some t => exact ⟨t, rfl⟩

/-- **The cursor is the floor** of all pages before it. -/
theorem floor_of_requestAt {i : ℕ} {r : PageRequest} {s : Text} {t : τ} (h : requestAt dec cap d req (i + 1) = some r)
    (hs : r.before = some s) (ht : dec.parse s = some t) {k : ℕ} (hk : k ≤ i) {r' : PageRequest} {p' : EventPage}
    (hp' : PageAt dec cap d req k r' p') : ∀ u ∈ p'.events, Dated dec u → (t : WithBot τ) ≤ timeKey dec u := by
  induction i generalizing r s t with
  | zero =>
    obtain ⟨r₀, p, c, hp, -, hc, rfl⟩ := requestAt_succ.1 h
    obtain rfl := Option.some.inj hs
    obtain rfl := Nat.le_zero.1 hk
    obtain ⟨-, rfl⟩ := hp.unique hp'
    exact (dated_of_cursor hc ht).1
  | succ i ih =>
    obtain ⟨r₀, p, c, hp, -, hc, rfl⟩ := requestAt_succ.1 h
    obtain rfl := Option.some.inj hs
    obtain ⟨hall, v, hv, hvt⟩ := dated_of_cursor hc ht
    rcases Nat.of_le_succ hk with hlt | rfl
    · -- the cursor of the page before is later
      obtain ⟨r₁, p₁, s₁, -, -, -, rfl⟩ := requestAt_succ.1 hp.1
      obtain ⟨t₁, ht₁⟩ := parse_of_page hp.2 rfl
      obtain ⟨all, older, hmatch⟩ := matchingEvents_of_page hp.2
      obtain ⟨-, since, before, -, hs₁, hb₁, -, -⟩ := bounds_of_matchingEvents hmatch
      have hb : parseBound dec "before" (some s₁) = .ok (some t₁) := by simp [parseBound, ht₁]
      have hsel := (selected_iff ⟨t, hvt⟩ since (some t₁)).1 (selected_of_page hp.2 hs₁ hb v hv)
      have hstep : (t : WithBot τ) < t₁ := hvt ▸ hsel.2 t₁ rfl
      intro u hu hd
      exact hstep.le.trans (ih hp.1 rfl ht₁ hlt u hu hd)
    · obtain ⟨-, rfl⟩ := hp.unique hp'
      exact hall

/-- What is truncated although no batch is left unopened has left an event out. -/
theorem dated_of_truncated {all : List (Value × ℕ)} (h : matchingEvents dec d req = .ok (all, false))
    (hl : LeavesDated dec cap req all) {p : EventPage} (hp : readNewestWithin dec cap d req = .ok p) (ht : p.truncated = true) :
    ∃ v ∈ p.events, Dated dec v := by
  obtain ⟨page, hpage, htrunc, hevents⟩ := readNewestWithin_ok h
  obtain rfl := Except.ok.inj (hp.symm.trans hpage)
  rw [ht, Bool.false_or] at htrunc
  obtain ⟨e, hleft⟩ := Option.isSome_iff_exists.1 htrunc.symm
  rw [hleft] at hevents
  rw [hevents]
  exact hl e hleft

/-- **Truncated pages lead on** where all batches are opened and what is left out leaves an event with a time. -/
theorem actionable_of_leavesDated {limit : ℕ} {since : Option Text}
    (h : ∀ before all older, matchingEvents dec d ⟨limit, since, before⟩ = .ok (all, older) →
      older = false ∧ LeavesDated dec cap ⟨limit, since, before⟩ all)
    (before : Option Text) : Actionable dec cap d ⟨limit, since, before⟩ := by
  have hdated : ∀ i r p, PageAt dec cap d ⟨limit, since, before⟩ i r p → p.truncated = true →
      ∃ v ∈ p.events, Dated dec v := by
    intro i r p hp ht
    obtain ⟨b, rfl⟩ := requestAt_same hp.1
    obtain ⟨all, older, hmatch⟩ := matchingEvents_of_page hp.2
    obtain ⟨rfl, hl⟩ := h b all older hmatch
    exact dated_of_truncated hmatch hl hp.2 ht
  intro i r p hp
  refine ⟨fun ht => ?_, complete_of_not_truncated hp.2⟩
  obtain ⟨s, t, hs, hparse, -, -⟩ := oldest_of_dated (hdated i r p hp ht)
  have hnext := requestAt_succ.2 ⟨r, p, s, hp, ht, hs, rfl⟩
  -- the next request is read as the one before it was
  obtain ⟨all, older, hmatch⟩ := matchingEvents_of_page hp.2
  obtain ⟨es, since', before', hes, hsince, -, -, -⟩ := bounds_of_matchingEvents hmatch
  have hbefore : parseBound dec "before" (some s) = .ok (some t) := by simp [parseBound, hparse]
  obtain ⟨all', hmatch', -⟩ := @matchingEvents_ok τ _ dec d es { r with before := some s } since' (some t)
    hes hsince hbefore
  obtain ⟨q, hq, -⟩ := readNewestWithin_ok hmatch'
  refine ⟨i + 1, Nat.lt_succ_self i, _, q, ⟨hnext, hq⟩, ?_⟩
  cases htq : q.truncated with
  | false => exact .inl rfl
  | true =>
    obtain ⟨v, hv, hd⟩ := hdated (i + 1) _ q ⟨hnext, hq⟩ htq
    refine .inr ⟨v, hv, fun k hk r'' p' hp' hmem => ?_⟩
    have hlt := ((selected_iff hd since' (some t)).1 (selected_of_page hq hsince hbefore v hv)).2 t rfl
    exact absurd hlt (not_lt.2 (floor_of_requestAt hnext rfl hparse hk hp' v hmem hd))

/-- A page that leads on has an event with a time. -/
theorem dated_of_actionable (h : Actionable dec cap d req) {p : EventPage} (hp : readNewestWithin dec cap d req = .ok p)
    (ht : p.truncated = true) : ∃ v ∈ p.events, Dated dec v := by
  obtain ⟨j, hj, r', q, hq, -⟩ := (h 0 req p ⟨rfl, hp⟩).1 ht
  -- the request behind the page is read
  have hnext : ∃ s t, oldest dec p.events = some s ∧ dec.parse s = some t := by
    obtain ⟨r₁, hr₁⟩ := requestAt_of_le (Nat.succ_le_of_lt hj) hq.1
    obtain ⟨r, p', s, hp', -, hs, rfl⟩ := requestAt_succ.1 hr₁
    obtain ⟨rfl, rfl⟩ := hp'.unique ⟨rfl, hp⟩
    have hread : ∃ q₁, readNewestWithin dec cap d { r with before := some s } = .ok q₁ := by
      rcases Nat.eq_or_lt_of_le (Nat.succ_le_of_lt hj) with rfl | hlt
      · obtain rfl := Option.some.inj (hr₁.symm.trans hq.1)
        exact ⟨q, hq.2⟩
      · obtain ⟨r₂, hr₂⟩ := requestAt_of_le (Nat.succ_le_of_lt hlt) hq.1
        obtain ⟨r₁', q₁, -, hq₁, -⟩ := requestAt_succ.1 hr₂
        obtain rfl := Option.some.inj (hr₁.symm.trans hq₁.1)
        exact ⟨q₁, hq₁.2⟩
    obtain ⟨q₁, hq₁⟩ := hread
    obtain ⟨t, ht'⟩ := parse_of_page hq₁ rfl
    exact ⟨s, t, hs, ht'⟩
  obtain ⟨s, t, hs, ht'⟩ := hnext
  obtain ⟨-, v, hv, hvt⟩ := dated_of_cursor hs ht'
  exact ⟨v, hv, t, hvt⟩

/-- Below a cursor there is less. -/
theorem matching_length_lt {names : List Text} {v : Value} {t : τ} (hv : timeKey dec v = t)
    (hmem : ∃ n, (v, n) ∈ matching dec d names since before) :
    (matching dec d names since (some t)).length < (matching dec d names since before).length := by
  unfold matching at hmem ⊢
  rw [List.length_reverse, List.length_reverse]
  obtain ⟨n, hn⟩ := hmem
  obtain ⟨hread, hsel⟩ := List.mem_filter.1 (List.mem_reverse.1 hn)
  have hbelow := (selected_iff ⟨t, hv⟩ since before).1 hsel
  have hsub : ∀ u : Value, selected dec u since (some t) = true → selected dec u since before = true := by
    intro u hu
    by_cases hd : Dated dec u
    · obtain ⟨hsince, hlt⟩ := (selected_iff hd since (some t)).1 hu
      exact (selected_iff hd since before).2 ⟨hsince, fun b hb => (hlt t rfl).trans (hv ▸ hbelow.2 b hb)⟩
    · refine selected_of_undated ?_
      cases hkey : timeKey dec u with
      | bot => rfl
      | coe a => exact absurd ⟨a, hkey⟩ hd
  have hfilter : (names.flatMap (readable dec d)).filter (fun e => selected dec e.1 since (some t)) =
      ((names.flatMap (readable dec d)).filter fun e => selected dec e.1 since before).filter
        fun e => selected dec e.1 since (some t) := by
    rw [List.filter_filter]
    refine List.filter_congr fun x _ => ?_
    rw [Bool.eq_iff_iff, Bool.and_eq_true]
    exact ⟨fun h => ⟨h, hsub x.1 h⟩, fun h => h.1⟩
  rw [hfilter]
  refine List.length_filter_lt_length_iff_exists.2 ⟨(v, n), List.mem_filter.2 ⟨hread, hsel⟩, ?_⟩
  intro hbad
  exact lt_irrefl (t : WithBot τ) (hv ▸ ((selected_iff ⟨t, hv⟩ since (some t)).1 hbad).2 t rfl)

/-- **Batches that are never opened** are an end that is not one: there is a last page, and it is truncated. -/
theorem not_actionable_of_older {limit : ℕ} {since : Option Text} {before : Option Text} {all : List (Value × ℕ)}
    (h : matchingEvents dec d ⟨limit, since, before⟩ = .ok (all, true)) :
    ¬∀ before, Actionable dec cap d ⟨limit, since, before⟩ := by
  intro hact
  induction hn : all.length using Nat.strong_induction_on generalizing all before with
  | _ n ih =>
    obtain ⟨p, hp, htrunc, hevents⟩ := readNewestWithin_ok h
    rw [Bool.true_or] at htrunc
    obtain ⟨s, t, hs, hparse, -, v, hv, hvt⟩ := oldest_of_dated (dated_of_actionable (hact before) hp htrunc)
    obtain ⟨es, since', before', hes, hsince, hbefore, holder, hall⟩ := bounds_of_matchingEvents h
    have hmem : ∃ n, (v, n) ∈ all := by
      obtain ⟨x, hx, rfl⟩ := mem_of_page h hp v hv
      exact ⟨x.2, hx⟩
    have hnext : matchingEvents dec d ⟨limit, since, some s⟩ = .ok (matching dec d
        (((batchNames es).insertionSort (· ≤ ·)).drop ((batchNames es).length - maxFiles)) since' (some t), true) := by
      unfold matchingEvents
      have hb : parseBound dec "before" (some s) = .ok (some t) := by simp [parseBound, hparse]
      rw [hes, hsince, hb, holder]
      simp only [bind, Except.bind, List.length_insertionSort]
    rw [hall] at hmem
    exact ih _ (by rw [← hn, hall]; exact matching_length_lt hvt hmem) hnext rfl

/-- **Truncated pages are actionable**, whatever they are asked with, exactly where all batches are opened, and what is left
out of a page leaves an event with a time on it. -/
theorem actionable_iff (dec : Decoder τ) (cap : ℕ) (d : Dir) (limit : ℕ) (since : Option Text) :
    (∀ before, Actionable dec cap d ⟨limit, since, before⟩) ↔
      ∀ before all older, matchingEvents dec d ⟨limit, since, before⟩ = .ok (all, older) →
        older = false ∧ LeavesDated dec cap ⟨limit, since, before⟩ all := by
  refine ⟨fun h before all older hmatch => ?_, actionable_of_leavesDated⟩
  cases older with
  | true => exact absurd h (not_actionable_of_older hmatch)
  | false =>
    refine ⟨rfl, fun e hleft => ?_⟩
    obtain ⟨p, hp, htrunc, hevents⟩ := readNewestWithin_ok hmatch
    rw [hleft] at htrunc hevents
    obtain ⟨v, hv, hd⟩ := dated_of_actionable (h before) hp htrunc
    rw [hevents] at hv
    exact ⟨v, hv, hd⟩

end

/-! ### One instant written in two ways -/

/-- A reader of the times of events, within ten seconds, with or without milliseconds. -/
def shortDecoder : Decoder (Fin 10) where
  fromStr := timesOnly.fromStr
  parse t := (List.finRange 10).find? fun s =>
    ("2026-08-14T10:00:0" ++ toString s.val ++ ".000Z").toList = t ∨ ("2026-08-14T10:00:0" ++ toString s.val ++ "Z").toList = t

/-- The line of an event whose time is without milliseconds. -/
def shortLineAt (second : String) : Text := ("\x7b\"eventTime\":\"2026-08-14T10:00:0" ++ second ++ "Z\"\x7d").toList

/-- One batch of these lines. -/
def batchOf (ls : List Text) : Dir where
  entries := some [some "1786701603000-a.jsonl".toList]
  file _ := .lines (ls.map some)

/-- Two events of the first second, and one of the next. -/
def spelled : Dir := batchOf [lineAt "1", shortLineAt "1", lineAt "2"]

/-- A trail of a batch, for these times, with what is left to compute. -/
theorem legible_batchOf {ls : List Text} {n : ℕ}
    (h : (history shortDecoder (batchOf ls) [some "1786701603000-a.jsonl".toList]).all
      fun x => ((eventTime x.1).bind shortDecoder.parse).isSome) :
    Legible shortDecoder (batchOf ls) [some "1786701603000-a.jsonl".toList] ⟨n, none, none⟩ none where
  entries := rfl
  few := by decide
  dated x hx := Option.isSome_iff_exists.1 (List.all_eq_true.1 h x hx)
  since := rfl

/-- The same events, the first two with one spelling. -/
def spelledAlike : Dir := batchOf [lineAt "1", lineAt "1", lineAt "2"]

theorem one_spelling :
    ∃ k, pages shortDecoder maxBytes spelledAlike k ⟨2, none, none⟩ =
      some ((wantedOf shortDecoder spelledAlike [some "1786701603000-a.jsonl".toList] none none).map Prod.fst) := by
  refine (paging_exact_iff maxBytes (legible_batchOf (by decide +kernel)) rfl ?_ (tiesFit_of_mem ?_)).2 ?_
  · unfold Descending
    decide +kernel
  · unfold Fits
    decide +kernel
  · decide +kernel

/-- Read two events at a time, the trail ends behind the first page: it is cut in the middle of an instant. -/
theorem two_spellings :
    Legible shortDecoder spelled [some "1786701603000-a.jsonl".toList] ⟨2, none, none⟩ none ∧
      Descending (timeKey shortDecoder) (history shortDecoder spelled [some "1786701603000-a.jsonl".toList]) ∧
      TiesFit (timeKey shortDecoder) 2 maxBytes
        (wantedOf shortDecoder spelled [some "1786701603000-a.jsonl".toList] none none) ∧
      ¬∃ k, pages shortDecoder maxBytes spelled k ⟨2, none, none⟩ =
        some ((wantedOf shortDecoder spelled [some "1786701603000-a.jsonl".toList] none none).map Prod.fst) := by
  refine ⟨legible_batchOf (by decide +kernel), ?_, tiesFit_of_mem ?_, ?_⟩
  · unfold Descending
    decide +kernel
  · unfold Fits
    decide +kernel
  · rintro ⟨k, hk⟩
    have hread : (pages shortDecoder maxBytes spelled 2 ⟨2, none, none⟩).map List.length = some 2 := by decide +kernel
    have hall : (wantedOf shortDecoder spelled [some "1786701603000-a.jsonl".toList] none none).length = 3 := by
      decide +kernel
    obtain ⟨events, hevents, htwo⟩ := Option.map_eq_some_iff.1 hread
    have hlong := (pages_of_le (le_max_left k 2) hk).symm.trans (pages_of_le (le_max_right k 2) hevents)
    have hlen := congrArg List.length (Option.some.inj hlong)
    rw [List.length_map, hall, htwo] at hlen
    cases hlen

/-! ### One batch too many -/

/-- The names of as many batches as one call looks at, and one. -/
def crowdedNames : List Text := (List.range (maxFiles + 1)).map fun i => BatchFile.name ⟨1786701603000 + i, "a".toList, []⟩

/-- As many batches, each with one event of the same second. -/
def crowded : Dir where
  entries := some (crowdedNames.map some)
  file _ := .lines [some (lineAt "1")]

/-- Paging through them ends with a page that is truncated and has no cursor. -/
theorem beyond_the_window : ¬∀ before, Actionable shortDecoder maxBytes crowded ⟨50, none, before⟩ := by
  have hbatches : batchNames (crowdedNames.map some) = crowdedNames := by
    unfold batchNames
    rw [List.filterMap_map, Function.id_comp, List.filterMap_some, List.filter_eq_self]
    intro n hn
    obtain ⟨i, -, rfl⟩ := List.mem_map.1 hn
    exact isBatch_name _
  have hmany : maxFiles < (batchNames (crowdedNames.map some)).length := by
    rw [hbatches, crowdedNames, List.length_map, List.length_range]
    exact Nat.lt_succ_self maxFiles
  obtain ⟨all, hmatch, -⟩ := @matchingEvents_ok _ _ shortDecoder crowded _ ⟨50, none, none⟩ none none rfl rfl rfl
  rw [decide_eq_true hmany] at hmatch
  exact not_actionable_of_older hmatch

end Latiq.AgentCore
