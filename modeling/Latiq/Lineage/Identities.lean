import Latiq.Common.Meta
import Latiq.Lineage.Event

/-!
# The identities of datasets and jobs

A consumer of lineage joins datasets on their namespace and name, and runs on the name of their job. The names are put
together from parts with separators that the parts may have in them.

* `NamesItself` — the URIs, `Plain` the tables, `Merged` the targets, by what is in them.

## What is proved

* `identified_iff` — a URI has a name, and one of its own, exactly where it names itself.
* `tableOwn_iff` — a table's name is its own exactly where no dot is in its parts.
* `jobName_apart_iff` — two targets have two jobs exactly where one is not the other in the pond's own catalog.
* `faithful_iff` — the three together.
-/

namespace Latiq.Lineage

open RustStr
open Latiq.Common

/-- `://`. -/
def schemeSep : Text := "://".toList

/-! ### Files and objects -/

/-- One is a bare path, and the other the same path as the URI of a file. -/
def Twins (u u' : Text) : Prop :=
  splitOnce schemeSep u = none ∧ u' = "file://".toList ++ u ∨ splitOnce schemeSep u' = none ∧ u = "file://".toList ++ u'

/-- The dataset of a URI has a namespace and a name, and no other URI has the same two, but for a file's. -/
structure Identified (u : Text) : Prop where
  ns_ne : ∃ ns, (DatasetRef.external u).ns = some ns ∧ ns ≠ []
  name_ne : (DatasetRef.external u).name ≠ []
  own : ∀ u', u' ≠ [] → (DatasetRef.external u').ns = (DatasetRef.external u).ns →
    (DatasetRef.external u').name = (DatasetRef.external u).name → u' = u ∨ Twins u u'

/-- A bare path, the URI of a file with a path, or one of an object: with a path that is not the URI again up to it. -/
def NamesItself (u : Text) : Prop :=
  match splitOnce schemeSep u with
  | none => True
  | some (scheme, rest) =>
    if scheme = "file".toList then rest ≠ []
    else
      match splitOnce ['/'] rest with
      | none => False
      | some (authority, path) => path ≠ [] ∧ path ≠ scheme ++ schemeSep ++ authority

/-- What a URI is: a bare path, a file, an object in a bucket, or a bucket without a path. -/
inductive Form (u : Text) : Prop where
  | bare (h : splitOnce schemeSep u = none)
  | file (rest : Text) (h : splitOnce schemeSep u = some ("file".toList, rest))
  | object (scheme authority path : Text) (hs : scheme ≠ "file".toList)
      (h : splitOnce schemeSep u = some (scheme, authority ++ '/' :: path)) (ha : '/' ∉ authority)
  | bucket (scheme authority : Text) (hs : scheme ≠ "file".toList)
      (h : splitOnce schemeSep u = some (scheme, authority)) (ha : '/' ∉ authority)

theorem form (u : Text) : Form u := by
  cases h : splitOnce schemeSep u with
  | none => exact .bare h
  | some parts =>
    obtain ⟨scheme, rest⟩ := parts
    by_cases hs : scheme = "file".toList
    · subst hs
      exact .file rest h
    · cases hr : splitOnce ['/'] rest with
      | none => exact .bucket scheme rest hs h (splitOnce_eq_none.1 hr)
      | some parts =>
        obtain ⟨authority, path⟩ := parts
        obtain ⟨rfl, ha⟩ := splitOnce_eq_some.1 hr
        exact .object scheme authority path hs h ha

theorem schemeSep_ne_nil : schemeSep ≠ [] := by decide

section

variable {u scheme authority path rest : Text}

theorem external_bare (h : splitOnce schemeSep u = none) : DatasetRef.external u = ⟨some "file".toList, u, none, []⟩ := by
  change splitOnce "://".toList u = none at h
  rw [DatasetRef.external, h]

theorem external_file (h : splitOnce schemeSep u = some ("file".toList, rest)) :
    DatasetRef.external u = ⟨some "file".toList, rest, none, []⟩ := by
  change splitOnce "://".toList u = _ at h
  rw [DatasetRef.external, h]
  rfl

theorem external_object (hs : scheme ≠ "file".toList) (h : splitOnce schemeSep u = some (scheme, authority ++ '/' :: path))
    (ha : '/' ∉ authority) : DatasetRef.external u = ⟨some (scheme ++ schemeSep ++ authority), path, none, []⟩ := by
  change splitOnce "://".toList u = _ at h
  rw [DatasetRef.external, h]
  simp only [if_neg hs, splitOnce_of_not_mem ha]
  rfl

theorem external_bucket (hs : scheme ≠ "file".toList) (h : splitOnce schemeSep u = some (scheme, authority))
    (ha : '/' ∉ authority) : DatasetRef.external u = ⟨some u, u, none, []⟩ := by
  have hu : scheme ++ "://".toList ++ authority = u := (eq_of_splitOnce h).symm
  change splitOnce "://".toList u = _ at h
  rw [DatasetRef.external, h]
  simp only [if_neg hs, splitOnce_eq_none.2 ha, hu]

end

/-- What is split at `://` is no twin of a text that is. -/
theorem not_twins {u u' : Text} {p p' : Text × Text} (h : splitOnce schemeSep u = some p)
    (h' : splitOnce schemeSep u' = some p') : ¬Twins u u' := by
  rintro (⟨hnone, -⟩ | ⟨hnone, -⟩)
  · cases h.symm.trans hnone
  · cases h'.symm.trans hnone

/-- The namespace of an object, as a URI, is its bucket. -/
theorem bucket_of_object {u scheme authority path : Text}
    (h : splitOnce schemeSep u = some (scheme, authority ++ '/' :: path)) :
    splitOnce schemeSep (scheme ++ schemeSep ++ authority) = some (scheme, authority) :=
  splitOnce_behind schemeSep_ne_nil h authority

/-- An object in the bucket whose path is the bucket's own URI. -/
theorem object_of_bucket {u scheme authority : Text} (h : splitOnce schemeSep u = some (scheme, authority)) :
    splitOnce schemeSep (u ++ '/' :: u) = some (scheme, authority ++ '/' :: u) := by
  have hu := eq_of_splitOnce h
  have hsplit := splitOnce_behind schemeSep_ne_nil h (authority ++ '/' :: u)
  rwa [← List.append_assoc, ← hu] at hsplit

/-- The namespace of a file is that of no object and no bucket. -/
theorem file_ne_of_split {u : Text} {p : Text × Text} (h : splitOnce schemeSep u = some p) : "file".toList ≠ u := by
  rintro rfl
  have hnone : splitOnce schemeSep "file".toList = none := by decide
  cases h.symm.trans hnone

theorem eq_object {u scheme authority path : Text}
    (h : splitOnce schemeSep u = some (scheme, authority ++ '/' :: path)) :
    u = scheme ++ schemeSep ++ authority ++ '/' :: path := by
  rw [eq_of_splitOnce h, List.append_assoc, List.append_assoc, List.append_assoc]

/-- A URI that names itself has its namespace and name for itself. -/
theorem own_of_namesItself {u u' : Text} (h : NamesItself u)
    (hns : (DatasetRef.external u').ns = (DatasetRef.external u).ns)
    (hname : (DatasetRef.external u').name = (DatasetRef.external u).name) : u' = u ∨ Twins u u' := by
  cases form u with
  | bare hu =>
    rw [external_bare hu] at hns hname
    cases form u' with
    | bare hu' =>
      rw [external_bare hu'] at hname
      exact .inl hname
    | file rest' hu' =>
      rw [external_file hu'] at hname
      obtain rfl : rest' = u := hname
      exact .inr (.inl ⟨hu, eq_of_splitOnce hu'⟩)
    | object scheme' authority' path' hs' hu' ha' =>
      rw [external_object hs' hu' ha'] at hns
      exact absurd (Option.some.inj hns).symm (file_ne_of_split (bucket_of_object hu'))
    | bucket scheme' authority' hs' hu' ha' =>
      rw [external_bucket hs' hu' ha'] at hns
      exact absurd (Option.some.inj hns).symm (file_ne_of_split hu')
  | file rest hu =>
    rw [external_file hu] at hns hname
    cases form u' with
    | bare hu' =>
      rw [external_bare hu'] at hname
      obtain rfl : u' = rest := hname
      exact .inr (.inr ⟨hu', eq_of_splitOnce hu⟩)
    | file rest' hu' =>
      rw [external_file hu'] at hname
      obtain rfl : rest' = rest := hname
      exact .inl ((eq_of_splitOnce hu').trans (eq_of_splitOnce hu).symm)
    | object scheme' authority' path' hs' hu' ha' =>
      rw [external_object hs' hu' ha'] at hns
      exact absurd (Option.some.inj hns).symm (file_ne_of_split (bucket_of_object hu'))
    | bucket scheme' authority' hs' hu' ha' =>
      rw [external_bucket hs' hu' ha'] at hns
      exact absurd (Option.some.inj hns).symm (file_ne_of_split hu')
  | object scheme authority path hs hu ha =>
    rw [external_object hs hu ha] at hns hname
    cases form u' with
    | bare hu' =>
      rw [external_bare hu'] at hns
      exact absurd (Option.some.inj hns) (file_ne_of_split (bucket_of_object hu))
    | file rest' hu' =>
      rw [external_file hu'] at hns
      exact absurd (Option.some.inj hns) (file_ne_of_split (bucket_of_object hu))
    | object scheme' authority' path' hs' hu' ha' =>
      rw [external_object hs' hu' ha'] at hns hname
      obtain rfl : path' = path := hname
      exact .inl (by rw [eq_object hu', eq_object hu, Option.some.inj hns])
    | bucket scheme' authority' hs' hu' ha' =>
      -- the bucket of the object, whose name is its URI
      rw [external_bucket hs' hu' ha'] at hns hname
      have hpath : path = scheme ++ schemeSep ++ authority := hname.symm.trans (Option.some.inj hns)
      rw [NamesItself, hu] at h
      simp only [if_neg hs, splitOnce_of_not_mem ha] at h
      exact absurd hpath h.2
  | bucket scheme authority hs hu ha =>
    rw [NamesItself, hu] at h
    simp only [if_neg hs, splitOnce_eq_none.2 ha] at h

/-- **The identity of a URI**: it has a name, and one of its own, exactly where it names itself. -/
theorem identified_iff {u : Text} (hne : u ≠ []) : Identified u ↔ NamesItself u := by
  constructor
  · intro h
    cases form u with
    | bare hu =>
      rw [NamesItself, hu]
      trivial
    | file rest hu =>
      have hname := h.name_ne
      rw [external_file hu] at hname
      rw [NamesItself, hu]
      exact hname
    | object scheme authority path hs hu ha =>
      have hname := h.name_ne
      rw [external_object hs hu ha] at hname
      rw [NamesItself, hu]
      simp only [if_neg hs, splitOnce_of_not_mem ha]
      refine ⟨hname, ?_⟩
      -- an object whose path is the URI of its bucket has the identity of the bucket
      rintro rfl
      have hbucket := bucket_of_object hu
      have hown := h.own (scheme ++ schemeSep ++ authority) hname
      rw [external_object hs hu ha, external_bucket hs hbucket ha] at hown
      rcases hown rfl rfl with heq | htwins
      · have hlen := congrArg List.length (heq.trans (eq_object hu))
        simp at hlen
      · exact not_twins hu hbucket htwins
    | bucket scheme authority hs hu ha =>
      have hobject := object_of_bucket hu
      have hown := h.own (u ++ '/' :: u) (List.append_ne_nil_of_left_ne_nil hne _)
      rw [external_bucket hs hu ha, external_object hs hobject ha] at hown
      rcases hown (congrArg some (eq_of_splitOnce hu).symm) rfl with heq | htwins
      · have hlen := congrArg List.length heq
        simp at hlen
      · exact absurd htwins (not_twins hu hobject)
  · intro h
    refine ⟨?_, ?_, fun u' _ hns hname => own_of_namesItself h hns hname⟩
    · cases form u with
      | bare hu => exact ⟨_, by rw [external_bare hu], by decide⟩
      | file rest hu => exact ⟨_, by rw [external_file hu], by decide⟩
      | object scheme authority path hs hu ha =>
        refine ⟨_, by rw [external_object hs hu ha], ?_⟩
        simp [schemeSep]
      | bucket scheme authority hs hu ha => exact ⟨_, by rw [external_bucket hs hu ha], hne⟩
    · cases form u with
      | bare hu =>
        rw [external_bare hu]
        exact hne
      | file rest hu =>
        rw [NamesItself, hu] at h
        rw [external_file hu]
        exact h
      | object scheme authority path hs hu ha =>
        rw [NamesItself, hu] at h
        simp only [if_neg hs, splitOnce_of_not_mem ha] at h
        rw [external_object hs hu ha]
        exact h.1
      | bucket scheme authority hs hu ha =>
        rw [external_bucket hs hu ha]
        exact hne

/-! ### Tables -/

/-- No dot is in the parts of a table's name. -/
def Plain (catalog schema table : Text) : Prop := '.' ∉ catalog ∧ '.' ∉ schema ∧ '.' ∉ table

/-- No other table has this one's reference. -/
def TableOwn (catalog schema table : Text) : Prop :=
  ∀ catalog' schema' table', DatasetRef.table catalog' schema' table' = DatasetRef.table catalog schema table →
    catalog' = catalog ∧ schema' = schema ∧ table' = table

theorem table_eq_iff {c s t c' s' t' : Text} :
    DatasetRef.table c' s' t' = DatasetRef.table c s t ↔ c' ++ '.' :: (s' ++ '.' :: t') = c ++ '.' :: (s ++ '.' :: t) := by
  simp only [DatasetRef.table, DatasetRef.mk.injEq, true_and, and_true]

/-- The two texts with two dots, and none but these in the first: they have one split. -/
theorem parts_eq {c s t c' s' t' : Text} (h : Plain c s t)
    (heq : c' ++ '.' :: (s' ++ '.' :: t') = c ++ '.' :: (s ++ '.' :: t)) : c' = c ∧ s' = s ∧ t' = t := by
  obtain ⟨hc, hs, ht⟩ := h
  have hdots := congrArg (List.count '.') heq
  simp only [List.count_append, List.count_cons_self, List.count_eq_zero_of_not_mem hc, List.count_eq_zero_of_not_mem hs,
    List.count_eq_zero_of_not_mem ht] at hdots
  have hc' : '.' ∉ c' := List.count_eq_zero.1 (by omega)
  have hs' : '.' ∉ s' := List.count_eq_zero.1 (by omega)
  have hfirst := splitOnce_of_not_mem hc' (s' ++ '.' :: t')
  rw [heq, splitOnce_of_not_mem hc] at hfirst
  obtain ⟨rfl, hrest⟩ := Prod.mk.inj (Option.some.inj hfirst)
  have hsecond := splitOnce_of_not_mem hs' t'
  rw [← hrest, splitOnce_of_not_mem hs] at hsecond
  obtain ⟨rfl, rfl⟩ := Prod.mk.inj (Option.some.inj hsecond)
  exact ⟨rfl, rfl, rfl⟩

/-- **The identity of a table**: its reference is its own exactly where no dot is in the parts. -/
theorem tableOwn_iff {c s t : Text} : TableOwn c s t ↔ Plain c s t := by
  constructor
  · intro h
    -- a dot in a part is where the text can be taken apart in another way
    refine ⟨fun hc => ?_, fun hs => ?_, fun ht => ?_⟩
    · obtain ⟨a, b, rfl⟩ := List.append_of_mem hc
      have heq := (h a (b ++ '.' :: s) t (table_eq_iff.2 (by simp))).1
      have hlen := congrArg List.length heq
      simp at hlen
    · obtain ⟨a, b, rfl⟩ := List.append_of_mem hs
      have heq := (h c a (b ++ '.' :: t) (table_eq_iff.2 (by simp))).2.1
      have hlen := congrArg List.length heq
      simp at hlen
    · obtain ⟨a, b, rfl⟩ := List.append_of_mem ht
      have heq := (h c (s ++ '.' :: a) b (table_eq_iff.2 (by simp))).2.2
      have hlen := congrArg List.length heq
      simp at hlen
      omega
  · intro h c' s' t' heq
    exact parts_eq h (table_eq_iff.1 heq)

/-! ### Jobs -/

/-- One target is the other in the catalog with the pond's name, and the other is not in it itself. -/
def Merged (pondName t t' : Text) : Prop :=
  ¬pondName ++ ['.'] <+: t ∧ t' = pondName ++ ['.'] ++ t ∨ ¬pondName ++ ['.'] <+: t' ∧ t = pondName ++ ['.'] ++ t'

theorem stripPond_append (pondName r : Text) : stripPond pondName (pondName ++ ['.'] ++ r) = r := by
  have hlen : pondName.length + 1 = (pondName ++ ['.']).length := by rw [List.length_append, List.length_singleton]
  rw [stripPond, if_pos (List.prefix_append _ r), hlen, List.drop_left]

theorem stripPond_of_not {pondName t : Text} (h : ¬pondName ++ ['.'] <+: t) : stripPond pondName t = t := if_neg h

/-- Two different targets are one behind the pond's name exactly where they are merged. -/
theorem stripPond_eq_iff {pondName t t' : Text} (hne : t ≠ t') :
    stripPond pondName t = stripPond pondName t' ↔ Merged pondName t t' := by
  by_cases h : pondName ++ ['.'] <+: t
  · obtain ⟨r, rfl⟩ := h
    rw [stripPond_append]
    by_cases h' : pondName ++ ['.'] <+: t'
    · obtain ⟨r', rfl⟩ := h'
      rw [stripPond_append]
      constructor
      · rintro rfl
        exact absurd rfl hne
      · rintro (⟨hnot, -⟩ | ⟨hnot, -⟩)
        · exact absurd (List.prefix_append _ _) hnot
        · exact absurd (List.prefix_append _ _) hnot
    · rw [stripPond_of_not h']
      constructor
      · rintro rfl
        exact .inr ⟨h', rfl⟩
      · rintro (⟨hnot, -⟩ | ⟨-, heq⟩)
        · exact absurd (List.prefix_append _ _) hnot
        · exact List.append_cancel_left heq
  · rw [stripPond_of_not h]
    by_cases h' : pondName ++ ['.'] <+: t'
    · obtain ⟨r', rfl⟩ := h'
      rw [stripPond_append]
      constructor
      · rintro rfl
        exact .inl ⟨h, rfl⟩
      · rintro (⟨-, heq⟩ | ⟨hnot, -⟩)
        · exact (List.append_cancel_left heq).symm
        · exact absurd (List.prefix_append _ _) hnot
    · rw [stripPond_of_not h']
      constructor
      · exact fun heq => absurd heq hne
      · rintro (⟨-, rfl⟩ | ⟨-, rfl⟩)
        · exact absurd (List.prefix_append _ _) h'
        · exact absurd (List.prefix_append _ _) h

/-- Two targets of one operation, of which one may be missing, are merged into one job. -/
def MergedTargets (pondName : Text) : Option Text → Option Text → Prop
  | some t, some t' => Merged pondName t t'
  | _, _ => False

/-- **The identity of a job**: two different targets have two jobs exactly where they are not merged. -/
theorem jobName_apart_iff (pondName : Text) (op : String) {t t' : Option Text} (hne : t ≠ t') :
    jobName pondName op t ≠ jobName pondName op t' ↔ ¬MergedTargets pondName t t' := by
  cases t with
  | none =>
    cases t' with
    | none => exact absurd rfl hne
    | some t' =>
      refine ⟨fun _ => id, fun _ heq => ?_⟩
      have hlen := congrArg List.length heq
      simp [jobName] at hlen
  | some t =>
    cases t' with
    | none =>
      refine ⟨fun _ => id, fun _ heq => ?_⟩
      have hlen := congrArg List.length heq
      simp [jobName] at hlen
    | some t' =>
      rw [Ne, jobName_eq_iff, stripPond_eq_iff fun heq => hne (congrArg some heq)]
      rfl

/-- **Identities are faithful** exactly where a URI names itself, no dot is in the parts of a table's name, and no target
is another in the pond's own catalog. -/
theorem faithful_iff {uri : Text} (hne : uri ≠ []) (catalog schema table pondName : Text) (op : String)
    {t t' : Option Text} (ht : t ≠ t') :
    (Identified uri ↔ NamesItself uri) ∧ (TableOwn catalog schema table ↔ Plain catalog schema table) ∧
      (jobName pondName op t ≠ jobName pondName op t' ↔ ¬MergedTargets pondName t t') :=
  ⟨identified_iff hne, tableOwn_iff, jobName_apart_iff pondName op ht⟩

/-- An object, a table, and two targets. -/
theorem sales_faithful :
    Identified "s3://warehouse/raw/events.parquet".toList ∧ TableOwn "pond".toList "main".toList "orders".toList ∧
      jobName "shop".toList "write_query" (some "shop.main.orders".toList) ≠
        jobName "shop".toList "write_query" (some "warehouse.main.orders".toList) := by
  have hsplit : splitOnce schemeSep "s3://warehouse/raw/events.parquet".toList =
      some ("s3".toList, "warehouse/raw/events.parquet".toList) := by decide
  have hrest : splitOnce ['/'] "warehouse/raw/events.parquet".toList =
      some ("warehouse".toList, "raw/events.parquet".toList) := by decide
  have hobject : NamesItself "s3://warehouse/raw/events.parquet".toList := by
    rw [NamesItself, hsplit]
    simp only [hrest]
    decide
  have htable : Plain "pond".toList "main".toList "orders".toList := by
    unfold Plain
    decide
  have htargets : ¬MergedTargets "shop".toList (some "shop.main.orders".toList) (some "warehouse.main.orders".toList) := by
    unfold MergedTargets Merged
    decide
  have h := faithful_iff (by decide : "s3://warehouse/raw/events.parquet".toList ≠ []) "pond".toList "main".toList
    "orders".toList "shop".toList "write_query"
    (by decide : some "shop.main.orders".toList ≠ some "warehouse.main.orders".toList)
  exact ⟨h.1.2 hobject, h.2.1.2 htable, h.2.2.2 htargets⟩

/-- A directory of a bucket has no name; a quoted name with a dot is taken for another table; and a file is taken for a
table of the pond. -/
theorem not_faithful :
    ¬Identified "s3://warehouse/".toList ∧ ¬TableOwn "a.b".toList "c".toList "d".toList ∧
      jobName "shop".toList "write_query" (some "shop.main.orders".toList) =
        jobName "shop".toList "write_query" (some "main.orders".toList) := by
  refine ⟨fun h => h.name_ne (by decide), fun h => ?_, by decide⟩
  have heq := (h "a".toList "b.c".toList "d".toList (by decide)).1
  revert heq
  decide

end Latiq.Lineage
