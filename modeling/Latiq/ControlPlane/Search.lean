import Latiq.ControlPlane.Datasets
import Latiq.Library.Wildcard

/-!
# Searching datasets and catalogs

A query is empty, or a tag behind a `#`, or a glob of names, which has a `*` in it, or a text to look for in names,
descriptions and tags. Globs and texts are given to `LIKE` and `ILIKE`, whose wildcards are `%` and `_`.

## The model

* `duckdb` — `LIKE` and `ILIKE`, with the lowercase of a character as parameter. There is no escape character.
* `Collection` — the tables between two operations: every entry has passed the check of `add`.
* `Entry.Answers` — what a query means.

## What is proved

* `Collection.mem_answered` — a name that is found has an entry that the query, as DuckDB reads it, matches.
* `search_exact_iff` — a query means what it says where it has no wildcard of DuckDB's, or is a glob that no name matches.
-/

namespace Latiq.ControlPlane.Datasets

open RustStr (Text trim)
open Unwind
open Wildcard (Role Stands Matches matchesList)

/-! ### Patterns -/

/-- The wildcards of `LIKE`. -/
def likeRole (c : Char) : Role := if c = '%' then .anyList else if c = '_' then .anyOne else .itself

/-- The wildcard of a glob. -/
def globRole (c : Char) : Role := if c = '*' then .anyList else .itself

/-- DuckDB's patterns: `ILIKE` compares both in lowercase. -/
def duckdb (lower : Char → Char) : Patterns where
  like s p := matchesList likeRole p s
  ilike s p := matchesList likeRole (p.map lower) (s.map lower)

/-- What the `replace` of a glob makes of a character. -/
def ofGlob (c : Char) : Char := if c = '*' then '%' else c

/-- The text is in the other, ignoring letter case. -/
def Contains (lower : Char → Char) (s q : Text) : Prop := q.map lower <:+: s.map lower

/-- The entry is one that the query, already trimmed, asks for, where a glob matches these names, and a text is looked for
in these. -/
def Entry.AskedFor {k : Kind} (glob within : Text → Prop) (q : Text) (d : Entry k) : Prop :=
  match q with
  | '#' :: tag => tag ∈ d.tags
  | _ =>
    if '*' ∈ q then glob d.name
    else within d.name ∨ within (k.description d.head) ∨ ∃ t ∈ d.tags, within t

/-- What a query means. -/
def Entry.Answers {k : Kind} (lower : Char → Char) (q : Text) (d : Entry k) : Prop :=
  d.AskedFor (Matches globRole q) (Contains lower · q) q

/-! ### Collections -/

/-- The tables between two operations. -/
structure Collection (k : Kind) where
  shelf : Shelf k
  parented : shelf.Parented
  distinct : (shelf.heads.map Prod.fst).Nodup
  checked : ∀ name d, shelf.find name = some d → d.check = none

namespace Collection

variable {k : Kind} (coll : Collection k)

/-- What a search returns. -/
def searched (lower : Char → Char) (query : Text) : Ended StoreError (List Text) :=
  (search (duckdb lower) query (coll.shelf.conn [])).1

/-- The search returns the names of the entries that are asked for. -/
def Exact (lower : Char → Char) (query : Text) : Prop :=
  ∃ names, coll.searched lower query = .ok names ∧
    ∀ name, name ∈ names ↔ ∃ d, coll.shelf.find name = some d ∧ d.Answers lower (trim query)

end Collection

/-- A character of a glob, with the wildcards as a character of names. -/
def blank (c : Char) : Char := if c = '*' ∨ c = '%' then '_' else c

/-- A query, already trimmed, of a tag, or without wildcards of DuckDB's, or a glob that no name matches. -/
def Literal (q : Text) : Prop :=
  q.head? = some '#' ∨ ('%' ∉ q ∧ '_' ∉ q) ∨ ('*' ∈ q ∧ isIdent (q.map blank) = false)

instance (q : Text) : Decidable (Literal q) := by unfold Literal; infer_instance

/-! ### Patterns, read as DuckDB reads them -/

theorem likeRole_eq_itself {c : Char} : likeRole c = .itself ↔ c ≠ '%' ∧ c ≠ '_' := by
  unfold likeRole
  split_ifs with h₁ h₂ <;> simp [h₁]
  · simp [h₂]
  · exact h₂

/-- A glob as `LIKE` reads it. -/
def globAsLike (c : Char) : Role := likeRole (ofGlob c)

theorem globAsLike_eq {c : Char} (h : c ≠ '%' ∧ c ≠ '_') : globAsLike c = globRole c := by
  unfold globAsLike ofGlob globRole
  split_ifs with hc
  · rfl
  · exact likeRole_eq_itself.2 h

/-- What is matched as a glob is matched by `LIKE`. -/
theorem globAsLike_of_glob {c : Char} {u : Text} (h : Stands globRole c u) : Stands globAsLike c u := by
  by_cases hc : c = '*'
  · simp [Stands, globAsLike, ofGlob, likeRole, hc]
  · have hu : u = [c] := by simpa [Stands, globRole, hc] using h
    unfold Stands globAsLike ofGlob likeRole
    rw [if_neg hc, hu]
    split_ifs <;> simp

theorem matches_ofGlob {q s : Text} : Matches likeRole (q.map ofGlob) s ↔ Matches globAsLike q s := by
  apply Wildcard.matches_map_left
  intro c _ u
  by_cases hc : c = '*'
  · simp [Stands, globAsLike, ofGlob, likeRole, hc]
  · have hchar : ofGlob c = c := if_neg hc
    simp only [Stands, globAsLike, hchar]

/-- The lowercase of a character is a wildcard where the character is. -/
structure KeepsWildcards (lower : Char → Char) : Prop where
  percent (c : Char) : lower c = '%' ↔ c = '%'
  underscore (c : Char) : lower c = '_' ↔ c = '_'

/-- What is looked for in a text, as `ILIKE` reads it. -/
def Finds (lower : Char → Char) (q s : Text) : Prop := ∃ t, Matches likeRole (q.map lower) t ∧ t <:+: s.map lower

theorem ilike_iff {lower : Char → Char} (hlower : KeepsWildcards lower) {q s : Text} :
    (duckdb lower).ilike s ('%' :: q ++ ['%']) = true ↔ Finds lower q s := by
  have hpercent : lower '%' = '%' := (hlower.percent '%').2 rfl
  have hmap : ('%' :: q ++ ['%']).map lower = '%' :: q.map lower ++ ['%'] := by
    rw [List.cons_append, List.map_cons, List.map_append, List.map_singleton, hpercent]
    rfl
  rw [duckdb, Wildcard.matchesList_iff, hmap, Wildcard.matches_between rfl]
  rfl

/-- A text without wildcards is looked for as it is. -/
theorem finds_iff {lower : Char → Char} (hlower : KeepsWildcards lower) {q s : Text} (h : '%' ∉ q ∧ '_' ∉ q) :
    Finds lower q s ↔ Contains lower s q := by
  have hitself : ∀ c ∈ q.map lower, likeRole c = .itself := by
    intro c hc
    obtain ⟨d, hd, rfl⟩ := List.mem_map.1 hc
    rw [likeRole_eq_itself, ne_eq, ne_eq, hlower.percent, hlower.underscore]
    exact ⟨fun heq => h.1 (heq ▸ hd), fun heq => h.2 (heq ▸ hd)⟩
  unfold Finds Contains
  simp only [Wildcard.matches_of_itself hitself, exists_eq_left]

/-! ### What is found -/

section

variable {k : Kind}

theorem Entry.askedFor_of_head {glob within : Text → Prop} {q : Text} {d : Entry k} (h : q.head? ≠ some '#') :
    d.AskedFor glob within q ↔
      if '*' ∈ q then glob d.name
      else within d.name ∨ within (k.description d.head) ∨ ∃ t ∈ d.tags, within t := by
  unfold Entry.AskedFor
  split
  · exact absurd rfl h
  · rfl

theorem lookup_of_mem {β : Type} {rows : List (Text × β)} (h : (rows.map Prod.fst).Nodup) {name : Text} {b : β}
    (hmem : (name, b) ∈ rows) : rows.lookup name = some b := by
  induction rows with
  | nil => cases hmem
  | cons row rows ih =>
    obtain ⟨hrow, hrows⟩ := List.nodup_cons.1 h
    obtain rfl | hmem := List.mem_cons.1 hmem
    · exact List.lookup_cons_self
    · have hne : name ≠ row.1 := fun heq => hrow (heq ▸ List.mem_map_of_mem hmem)
      rw [List.lookup_cons, beq_false_of_ne hne]
      exact ih hrows hmem

theorem Shelf.find_of_mem {sh : Shelf k} (h : (sh.heads.map Prod.fst).Nodup) {name : Text} {head : k.Head}
    (hmem : (name, head) ∈ sh.heads) : sh.find name = some ⟨name, head, sh.selectRows name, sh.selectTags name⟩ := by
  rw [Shelf.find, Shelf.selectHead, lookup_of_mem h hmem]
  rfl

theorem Shelf.mem_of_find {sh : Shelf k} {name : Text} {d : Entry k} (h : sh.find name = some d) :
    (name, d.head) ∈ sh.heads := by
  obtain ⟨head, hhead, rfl⟩ := Option.map_eq_some_iff.1 h
  obtain ⟨l, r, hheads, -⟩ := List.lookup_eq_some_iff.1 hhead
  rw [hheads]
  exact List.mem_append_right l List.mem_cons_self

theorem Shelf.mem_tags_of_find {sh : Shelf k} {name : Text} {d : Entry k} (h : sh.find name = some d) {t : Text} :
    t ∈ d.tags ↔ (name, t) ∈ sh.tags := by
  obtain ⟨head, -, rfl⟩ := Option.map_eq_some_iff.1 h
  rw [Shelf.selectTags, (List.perm_insertionSort _ _).mem_iff]
  simp

theorem Shelf.selectRows_ne_nil {sh : Shelf k} {name : Text} {r : k.Row} (h : (name, r) ∈ sh.rows) :
    sh.selectRows name ≠ [] := by
  refine List.ne_nil_of_mem (a := r) ?_
  rw [Shelf.selectRows, (List.perm_insertionSort _ _).mem_iff]
  exact List.mem_map.2 ⟨(name, r), List.mem_filter.2 ⟨h, decide_eq_true rfl⟩, rfl⟩

namespace Collection

variable (coll : Collection k)

/-- The names of some rows, entry by entry. -/
theorem mem_names {P : Text × k.Head → Bool} {name : Text} :
    name ∈ (coll.shelf.heads.filter P).map Prod.fst ↔ ∃ d, coll.shelf.find name = some d ∧ P (name, d.head) = true := by
  constructor
  · intro h
    obtain ⟨⟨n, head⟩, hmem, rfl⟩ := List.mem_map.1 h
    obtain ⟨hhead, hP⟩ := List.mem_filter.1 hmem
    exact ⟨_, Shelf.find_of_mem coll.distinct hhead, hP⟩
  · rintro ⟨d, hd, hP⟩
    exact List.mem_map.2 ⟨(name, d.head), List.mem_filter.2 ⟨Shelf.mem_of_find hd, hP⟩, rfl⟩

/-- The owners of a tag. -/
theorem mem_owners {tag name : Text} :
    name ∈ (coll.shelf.tags.filter fun t : Text × Text => t.2 = tag).map Prod.fst ↔
      ∃ d, coll.shelf.find name = some d ∧ tag ∈ d.tags := by
  simp only [List.mem_map, List.mem_filter, decide_eq_true_eq]
  constructor
  · rintro ⟨⟨n, t⟩, ⟨hmem, rfl⟩, rfl⟩
    obtain ⟨d, hd⟩ := Option.isSome_iff_exists.1 (Shelf.find_isSome.2 (coll.parented.tags _ hmem))
    exact ⟨d, hd, (Shelf.mem_tags_of_find hd).2 hmem⟩
  · rintro ⟨d, hd, htag⟩
    exact ⟨(name, tag), ⟨(Shelf.mem_tags_of_find hd).1 htag, rfl⟩, rfl⟩

/-- **What is found**: the names of the entries that the query, as DuckDB reads it, asks for. -/
theorem searched_eq {lower : Char → Char} (hlower : KeepsWildcards lower) {query : Text} (hq : trim query ≠ []) :
    ∃ names, coll.searched lower query = .ok names ∧ ∀ name, name ∈ names ↔ ∃ d, coll.shelf.find name = some d ∧
      d.AskedFor (Matches globAsLike (trim query)) (Finds lower (trim query)) (trim query) := by
  refine ⟨coll.shelf.names (duckdb lower) query, by rw [searched, search, select_clear], fun name => ?_⟩
  unfold Shelf.names
  rw [(List.perm_insertionSort _ _).mem_iff]
  generalize trim query = q at hq
  split
  · exact absurd rfl hq
  · exact coll.mem_owners
  · next hhead =>
    have hne : q.head? ≠ some '#' := by
      intro heq
      obtain ⟨tag, rfl⟩ := List.head?_eq_some_iff.1 heq
      exact hhead tag rfl
    simp only [Entry.askedFor_of_head hne]
    by_cases hstar : '*' ∈ q
    · simp only [if_pos hstar]
      rw [coll.mem_names]
      refine exists_congr fun d => and_congr_right fun hd => ?_
      rw [Shelf.find_name hd, ← matches_ofGlob]
      exact Wildcard.matchesList_iff
    · simp only [if_neg hstar]
      rw [coll.mem_names]
      refine exists_congr fun d => and_congr_right fun hd => ?_
      simp only [Bool.or_eq_true, List.any_eq_true, Bool.and_eq_true, decide_eq_true_eq, ilike_iff hlower, or_assoc]
      rw [Shelf.find_name hd]
      refine or_congr_right (or_congr_right ⟨?_, ?_⟩)
      · rintro ⟨⟨n, t⟩, hmem, rfl, ht⟩
        exact ⟨t, (Shelf.mem_tags_of_find hd).2 hmem, ht⟩
      · rintro ⟨t, hmem, ht⟩
        exact ⟨(name, t), (Shelf.mem_tags_of_find hd).1 hmem, rfl, ht⟩

/-- A search is exact where DuckDB's reading of the query asks for the same entries. -/
theorem exact_iff {lower : Char → Char} (hlower : KeepsWildcards lower) {query : Text} (hq : trim query ≠ []) :
    coll.Exact lower query ↔ ∀ name d, coll.shelf.find name = some d →
      (d.AskedFor (Matches globAsLike (trim query)) (Finds lower (trim query)) (trim query) ↔
        d.Answers lower (trim query)) := by
  obtain ⟨names, hnames, hmem⟩ := coll.searched_eq hlower hq
  constructor
  · rintro ⟨names', hnames', hanswers⟩ name d hd
    obtain rfl : names = names' := Ended.ok.inj (hnames.symm.trans hnames')
    have hboth := (hmem name).symm.trans (hanswers name)
    simpa only [hd, Option.some.injEq, exists_eq_left'] using hboth
  · intro h
    refine ⟨names, hnames, fun name => (hmem name).trans ?_⟩
    exact exists_congr fun d => and_congr_right fun hd => h name d hd

end Collection

/-! ### Queries that mean what they say -/

theorem Entry.isIdent_of_check {d : Entry k} (h : d.check = none) : isIdent d.name = true := by
  cases k with
  | dataset =>
    unfold Entry.check at h
    dsimp only at h
    split_ifs at h with h₁ h₂ h₃
    simpa using h₂
  | catalog =>
    unfold Entry.check at h
    dsimp only at h
    split_ifs at h with h₁ h₂
    simpa using h₂

theorem ne_nil_of_isIdent {n : Text} (h : isIdent n = true) : n ≠ [] := by
  rintro rfl
  cases h

theorem Entry.check_dataset {d : Entry .dataset} (hn : isIdent d.name = true) (ht : d.tables ≠ []) : d.check = none := by
  unfold Entry.check
  dsimp only
  rw [if_neg (ne_nil_of_isIdent hn), hn, if_neg (by decide), if_neg ht]

theorem Entry.check_catalog {ca : Entry .catalog} (hn : isIdent ca.name = true)
    (ht : (ca.head : CatalogHead).type_ ≠ []) : ca.check = none := by
  unfold Entry.check
  dsimp only
  rw [if_neg (not_or.2 ⟨ne_nil_of_isIdent hn, ht⟩), hn, if_neg (by decide)]

theorem isAsciiWord_of_isIdent {n : Text} (h : isIdent n = true) : ∀ c ∈ n, isAsciiWord c = true := by
  cases n with
  | nil => nofun
  | cons c cs =>
    obtain ⟨hc, hcs⟩ := Bool.and_eq_true_iff.1 h
    intro d hd
    obtain rfl | hd := List.mem_cons.1 hd
    · unfold isAsciiWord Char.isAlphanum
      obtain hc | hc := Bool.or_eq_true_iff.1 hc <;> simp [hc]
    · exact List.all_eq_true.1 hcs d hd

theorem blank_cases (c : Char) : blank c = '_' ∨ blank c = c ∧ globAsLike c = .itself := by
  by_cases hc : c = '*' ∨ c = '%'
  · exact .inl (if_pos hc)
  · have hblank : blank c = c := if_neg hc
    by_cases hunder : c = '_'
    · exact .inl (hblank.trans hunder)
    · obtain ⟨hstar, hpercent⟩ := not_or.1 hc
      refine .inr ⟨hblank, ?_⟩
      rw [globAsLike, ofGlob, if_neg hstar]
      exact likeRole_eq_itself.2 ⟨hpercent, hunder⟩

/-- A glob with which `LIKE` finds a name is a name, but for its wildcards. -/
theorem isIdent_blank {q n : Text} (hq : q ≠ []) (h : Matches globAsLike q n) (hn : isIdent n = true) :
    isIdent (q.map blank) = true := by
  have hword : ∀ c ∈ q, isAsciiWord (blank c) = true := by
    intro c hc
    obtain hblank | ⟨hblank, hrole⟩ := blank_cases c
    · rw [hblank]
      rfl
    · rw [hblank]
      exact isAsciiWord_of_isIdent hn c (h.mem hc hrole)
  cases q with
  | nil => exact absurd rfl hq
  | cons c q =>
    have htail : (q.map blank).all isAsciiWord = true := by
      rw [List.all_map, List.all_eq_true]
      exact fun d hd => hword d (List.mem_cons_of_mem c hd)
    rw [List.map_cons, isIdent, htail, Bool.and_true]
    obtain hblank | ⟨hblank, hrole⟩ := blank_cases c
    · rw [hblank]
      rfl
    · obtain ⟨u, t, hu, -, rfl⟩ := Wildcard.matches_cons.1 h
      have hu : u = [c] := by simpa only [Stands, hrole] using hu
      subst hu
      rw [hblank]
      exact (Bool.and_eq_true_iff.1 hn).1

/-- Where the query is literal, DuckDB reads it as it is meant. -/
theorem askedFor_iff_answers {lower : Char → Char} (hlower : KeepsWildcards lower) {q : Text} (hq : Literal q)
    {d : Entry k} (hd : isIdent d.name = true) :
    d.AskedFor (Matches globAsLike q) (Finds lower q) q ↔ d.Answers lower q := by
  by_cases hhead : q.head? = some '#'
  · obtain ⟨tag, rfl⟩ := List.head?_eq_some_iff.1 hhead
    rfl
  · unfold Entry.Answers
    rw [Entry.askedFor_of_head hhead, Entry.askedFor_of_head hhead]
    by_cases hplain : '%' ∉ q ∧ '_' ∉ q
    · have hrole : ∀ c ∈ q, globAsLike c = globRole c := fun c hc =>
        globAsLike_eq ⟨fun heq => hplain.1 (heq ▸ hc), fun heq => hplain.2 (heq ▸ hc)⟩
      have hstands : ∀ c ∈ q, ∀ u, Stands globAsLike c u ↔ Stands globRole c u := fun c hc u => by
        rw [Stands, Stands, hrole c hc]
      have hglob : Matches globAsLike q d.name ↔ Matches globRole q d.name :=
        ⟨fun h => h.mono fun c hc u => (hstands c hc u).1, fun h => h.mono fun c hc u => (hstands c hc u).2⟩
      simp only [hglob, finds_iff hlower hplain]
    · obtain ⟨hstar, hident⟩ := (hq.resolve_left hhead).resolve_left hplain
      have hlike : ¬Matches globAsLike q d.name := fun h => by
        rw [isIdent_blank (List.ne_nil_of_mem hstar) h hd] at hident
        exact Bool.noConfusion hident
      have hglob : ¬Matches globRole q d.name := fun h => hlike (h.mono fun c _ u => globAsLike_of_glob)
      rw [if_pos hstar, if_pos hstar]
      exact iff_of_false hlike hglob

/-! ### Queries that do not -/

/-- A row of `datasets` or `catalogs`. -/
def Kind.described : (k : Kind) → Text → k.Head
  | .dataset, description => (⟨description, [], []⟩ : DatasetHead)
  | .catalog, description => (⟨"iceberg".toList, "\x7b\x7d".toList, description, [], []⟩ : CatalogHead)

/-- A table, where one is needed. -/
def Kind.oneRow (name : Text) : (k : Kind) → List (Text × k.Row)
  | .dataset => [(name, (⟨"t".toList, "s3://b/t.parquet".toList, "parquet".toList⟩ : DatasetTableRow))]
  | .catalog => []

/-- One entry, without tags. -/
def Collection.single (k : Kind) (name description : Text) (h : isIdent name = true) : Collection k where
  shelf := ⟨[(name, k.described description)], k.oneRow name, []⟩
  parented := by
    constructor
    · intro r hr
      cases k with
      | dataset =>
        obtain rfl := List.mem_singleton.1 hr
        exact List.mem_cons_self
      | catalog => cases hr
    · nofun
  distinct := List.nodup_singleton name
  checked := by
    intro n d hd
    obtain ⟨rfl, hhead⟩ := Prod.mk.inj (List.mem_singleton.1 (Shelf.mem_of_find hd))
    obtain ⟨head, -, rfl⟩ := Option.map_eq_some_iff.1 hd
    obtain rfl : head = k.described description := hhead
    cases k with
    | dataset =>
      exact Entry.check_dataset h (Shelf.selectRows_ne_nil List.mem_cons_self)
    | catalog => exact Entry.check_catalog h (List.cons_ne_nil _ _)

theorem Collection.find_single (name description : Text) (h : isIdent name = true) :
    ∃ d : Entry k, (Collection.single k name description h).shelf.find name = some d ∧ d.name = name ∧ d.tags = [] ∧
      k.description d.head = description := by
  refine ⟨_, Shelf.find_of_mem (Collection.single k name description h).distinct List.mem_cons_self, rfl, rfl, ?_⟩
  cases k <;> rfl

/-- An ordinary character in the place of each wildcard. -/
def fill (c : Char) : Char := if c = '*' ∨ c = '%' ∨ c = '_' then 'a' else c

theorem fill_ne (c : Char) : fill c ≠ '%' ∧ fill c ≠ '_' := by
  unfold fill
  split_ifs with h
  · decide
  · exact ⟨fun heq => h (.inr (.inl heq)), fun heq => h (.inr (.inr heq))⟩

theorem stands_fill (c : Char) : Stands likeRole (ofGlob c) [fill c] := by
  unfold Stands likeRole ofGlob fill
  split_ifs <;> simp_all

theorem stands_lower_fill {lower : Char → Char} (hlower : KeepsWildcards lower) {c : Char} (hc : c ≠ '*') :
    Stands likeRole (lower c) [lower (fill c)] := by
  unfold Stands likeRole fill
  simp only [hlower.percent, hlower.underscore]
  split_ifs <;> simp_all

/-- A wildcard of DuckDB's, as what is meant, is in no text that has it filled. -/
theorem not_contains_fill {lower : Char → Char} (hlower : KeepsWildcards lower) {q s : Text}
    (hq : ¬('%' ∉ q ∧ '_' ∉ q)) (hs : '%' ∉ s ∧ '_' ∉ s) : ¬Contains lower s q := by
  intro h
  refine hq ⟨fun hmem => hs.1 ?_, fun hmem => hs.2 ?_⟩
  · obtain ⟨c, hc, heq⟩ := List.mem_map.1 (h.subset (List.mem_map_of_mem hmem))
    rw [(hlower.percent '%').2 rfl, hlower.percent] at heq
    exact heq ▸ hc
  · obtain ⟨c, hc, heq⟩ := List.mem_map.1 (h.subset (List.mem_map_of_mem hmem))
    rw [(hlower.underscore '_').2 rfl, hlower.underscore] at heq
    exact heq ▸ hc

theorem fill_cases (c : Char) : fill c = 'a' ∨ fill c = blank c := by
  unfold fill blank
  split_ifs with h₁ h₂ h₂
  · exact .inl rfl
  · exact .inl rfl
  · exact absurd (h₂.imp_right .inl) h₁
  · exact .inr rfl

/-- A glob that is a name but for its wildcards is one with them filled. -/
theorem isIdent_fill {q : Text} (h : isIdent (q.map blank) = true) : isIdent (q.map fill) = true := by
  cases q with
  | nil => cases h
  | cons c q =>
    rw [List.map_cons, isIdent, Bool.and_eq_true] at h ⊢
    obtain ⟨hc, hq⟩ := h
    constructor
    · obtain hfill | hfill := fill_cases c
      · rw [hfill]
        rfl
      · rw [hfill]
        exact hc
    · rw [List.all_map, List.all_eq_true] at hq ⊢
      intro d hd
      obtain hfill | hfill := fill_cases d
      · rw [Function.comp_apply, hfill]
        rfl
      · rw [Function.comp_apply, hfill]
        exact hq d hd

theorem not_mem_map_fill (q : Text) : '%' ∉ q.map fill ∧ '_' ∉ q.map fill := by
  simp only [List.mem_map, not_exists, not_and]
  exact ⟨fun c _ => (fill_ne c).1, fun c _ => (fill_ne c).2⟩

/-- A glob is not exact where it is a name, but for its wildcards, and one of these is DuckDB's. -/
theorem exists_glob_not_exact {lower : Char → Char} (hlower : KeepsWildcards lower) {query : Text}
    (hhead : (trim query).head? ≠ some '#') (hplain : ¬('%' ∉ trim query ∧ '_' ∉ trim query)) (hstar : '*' ∈ trim query)
    (hident : isIdent ((trim query).map blank) = true) : ∃ coll : Collection k, ¬coll.Exact lower query := by
  have hname := isIdent_fill hident
  obtain ⟨d, hd, hdname, -⟩ := Collection.find_single (k := k) _ [] hname
  refine ⟨Collection.single k _ [] hname, fun hexact => ?_⟩
  have hboth := (Collection.exact_iff _ hlower (List.ne_nil_of_mem hstar)).1 hexact _ d hd
  rw [Entry.Answers, Entry.askedFor_of_head hhead, Entry.askedFor_of_head hhead, if_pos hstar, if_pos hstar,
    hdname] at hboth
  have hlike : Matches globAsLike (trim query) ((trim query).map fill) :=
    matches_ofGlob.1 (Wildcard.matches_map ofGlob fill likeRole fun c _ => stands_fill c)
  have hglob := hboth.1 hlike
  refine hplain ⟨fun hmem => ?_, fun hmem => ?_⟩
  · exact (not_mem_map_fill _).1 (hglob.mem hmem rfl)
  · exact (not_mem_map_fill _).2 (hglob.mem hmem rfl)

/-- A text with a wildcard of DuckDB's is not exact. -/
theorem exists_text_not_exact {lower : Char → Char} (hlower : KeepsWildcards lower) {query : Text}
    (hq : trim query ≠ []) (hhead : (trim query).head? ≠ some '#') (hplain : ¬('%' ∉ trim query ∧ '_' ∉ trim query))
    (hstar : '*' ∉ trim query) : ∃ coll : Collection k, ¬coll.Exact lower query := by
  have hname : isIdent ['a'] = true := rfl
  -- the query, with its wildcards filled, is a description
  obtain ⟨d, hd, hdname, hdtags, hddescription⟩ := Collection.find_single (k := k) ['a']
    ((trim query).map fill) hname
  refine ⟨Collection.single k _ ((trim query).map fill) hname, fun hexact => ?_⟩
  have hboth := (Collection.exact_iff _ hlower hq).1 hexact _ d hd
  rw [Entry.Answers, Entry.askedFor_of_head hhead, Entry.askedFor_of_head hhead, if_neg hstar, if_neg hstar, hdname,
    hdtags, hddescription] at hboth
  have hfinds : Finds lower (trim query) ((trim query).map fill) := by
    refine ⟨((trim query).map fill).map lower, ?_, List.infix_refl _⟩
    rw [List.map_map]
    exact Wildcard.matches_map lower (lower ∘ fill) likeRole fun c hc =>
      stands_lower_fill hlower fun heq => hstar (heq ▸ hc)
  obtain hn | hdesc | ⟨t, ht, -⟩ := hboth.1 (.inr (.inl hfinds))
  · exact not_contains_fill hlower hplain (by decide) hn
  · exact not_contains_fill hlower hplain (not_mem_map_fill _) hdesc
  · cases ht

end

/-- **A search is exact** for every collection where, and only where, its query is of a tag, or has neither of DuckDB's
wildcards `%` and `_`, or is a glob that no name can match. -/
theorem search_exact_iff (lower : Char → Char) (hlower : KeepsWildcards lower) (k : Kind) (query : Text)
    (hq : trim query ≠ []) : (∀ coll : Collection k, coll.Exact lower query) ↔ Literal (trim query) := by
  constructor
  · intro h
    by_contra hnot
    obtain ⟨hhead, hnot⟩ := not_or.1 hnot
    obtain ⟨hplain, hnot⟩ := not_or.1 hnot
    by_cases hstar : '*' ∈ trim query
    · have hident : isIdent ((trim query).map blank) = true := by simpa [hstar] using hnot
      obtain ⟨coll, hcoll⟩ := exists_glob_not_exact (k := k) hlower hhead hplain hstar hident
      exact hcoll (h coll)
    · obtain ⟨coll, hcoll⟩ := exists_text_not_exact (k := k) hlower hq hhead hplain hstar
      exact hcoll (h coll)
  · intro h coll
    exact (coll.exact_iff hlower hq).2 fun name d hd =>
      askedFor_iff_answers hlower h (Entry.isIdent_of_check (coll.checked name d hd))

theorem toLower_eq_iff {c d : Char} (h : d.isAlpha = false) : c.toLower = d ↔ c = d := by
  obtain ⟨hupper, hlower⟩ := Bool.or_eq_false_iff.1 h
  unfold Char.toLower
  split
  · next hc =>
    have hlow : 65 ≤ c.val.toNat := UInt32.le_iff_toNat_le.1 hc.1
    have hhigh : c.val.toNat ≤ 90 := UInt32.le_iff_toNat_le.1 hc.2
    constructor
    · intro heq
      have hval : d.val.toNat = c.val.toNat + 32 := by
        rw [← heq]
        show (c.val.toNat + 32) % 4294967296 = _
        omega
      have hd : d.isLower = true := by
        refine Bool.and_eq_true_iff.2 ⟨decide_eq_true ?_, decide_eq_true ?_⟩
        · show 97 ≤ d.val.toNat
          omega
        · show d.val.toNat ≤ 122
          omega
      rw [hd] at hlower
      cases hlower
    · rintro rfl
      have hd : c.isUpper = true := decide_eq_true hc
      rw [hd] at hupper
      cases hupper
  · rfl

/-- The lowercase of ASCII. -/
theorem toLower_keepsWildcards : KeepsWildcards Char.toLower :=
  ⟨fun _ => toLower_eq_iff rfl, fun _ => toLower_eq_iff rfl⟩

/-- A name glob is exact, and so is one that no name can match. -/
theorem globs_exact :
    (∀ coll : Collection .dataset, coll.Exact Char.toLower "sal*".toList) ∧
      ∀ coll : Collection .dataset, coll.Exact Char.toLower "100%*".toList :=
  ⟨(search_exact_iff Char.toLower toLower_keepsWildcards .dataset "sal*".toList (by decide)).2 (by decide),
    (search_exact_iff Char.toLower toLower_keepsWildcards .dataset "100%*".toList (by decide)).2 (by decide)⟩

/-- **The underscore of a name**: a glob of the datasets that begin with `sales_` finds another one. -/
theorem underscore_not_exact :
    ¬(Collection.single .dataset "sales2024".toList [] rfl).Exact Char.toLower "sales_*".toList := by
  have htrim : trim "sales_*".toList = "sales_*".toList := by decide
  obtain ⟨d, hd, hname, -⟩ := Collection.find_single (k := .dataset) "sales2024".toList [] rfl
  intro h
  have hboth := (Collection.exact_iff _ toLower_keepsWildcards (by decide)).1 h _ d hd
  rw [htrim, Entry.Answers, Entry.askedFor_of_head (by decide), Entry.askedFor_of_head (by decide), if_pos (by decide),
    if_pos (by decide), hname, ← Wildcard.matchesList_iff, ← Wildcard.matchesList_iff] at hboth
  exact absurd (hboth.1 (by decide)) (by decide)

end Latiq.ControlPlane.Datasets
