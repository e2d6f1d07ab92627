import Latiq.Library.Collect
import Latiq.Library.RustStr
import Mathlib.Data.List.Sort

/-!
# External catalogs

The types of catalogs, and the params that each may keep: where the catalog is, and nothing that opens it.

* `filterParams` — what of the params of a new catalog is kept, and the keys of what is not.
* `mergeParams` — the params of a pull: those that were kept, under those of the call.
* `lookup_kept`, `mem_dropped`, `sorted_kept` — what is kept, and that the rest is reported.
-/

namespace Latiq.Common.Catalog

open RustStr (Text)
open Serde (insert collect Sorted)

/-- `CatalogTypeSpec`; what it says of extensions is in `Attachers.catalogTypes`. -/
structure CatalogTypeSpec where
  name : Text
  allowedParams : List String
  deriving DecidableEq, Repr

/-- `TYPES`. -/
def TYPES : List CatalogTypeSpec :=
  [⟨"iceberg".toList, ["endpoint", "warehouse", "s3_endpoint", "s3_region"]⟩,
    ⟨"ducklake".toList, ["metadata_path", "data_path", "s3_endpoint", "s3_region"]⟩]

/-- `lookup`. -/
def lookup (type_ : Text) : Option CatalogTypeSpec := TYPES.find? fun t => t.name = type_

/-- `is_known_type`. -/
def isKnownType (type_ : Text) : Bool := (lookup type_).isSome

/-- Params of a catalog, in the order of their keys. -/
abbrev Params : Type := List (String × Text)

/-- The loop of `filter_params`: a param is kept, or its key is dropped. -/
def filterFrom (spec : CatalogTypeSpec) : Params × List String → Params → Params × List String
  | out, [] => out
  | (kept, dropped), (k, v) :: params =>
    if k ∈ spec.allowedParams then filterFrom spec (insert k v kept, dropped) params
    else filterFrom spec (kept, dropped ++ [k]) params

/-- `filter_params`. -/
def filterParams (type_ : Text) (params : Params) : Params × List String :=
  match lookup type_ with
  | some spec =>
    let (kept, dropped) := filterFrom spec ([], []) params
    (kept, dropped.insertionSort (· ≤ ·))
  | none => (params, [])

/-- The params of `prepare_pull`: `merged.extend(params)`. -/
def mergeParams (stored params : Params) : Params := params.foldl (fun m e => insert e.1 e.2 m) stored

/-- What a type may keep. -/
def Allowed (type_ : Text) (k : String) : Prop := ∃ spec, lookup type_ = some spec ∧ k ∈ spec.allowedParams

instance (type_ : Text) (k : String) : Decidable (Allowed type_ k) :=
  decidable_of_iff (∃ spec ∈ lookup type_, k ∈ spec.allowedParams) Iff.rfl

theorem filterFrom_eq (spec : CatalogTypeSpec) (params : Params) (kept : Params) (dropped : List String) :
    filterFrom spec (kept, dropped) params =
      ((params.filter (·.1 ∈ spec.allowedParams)).foldl (fun m e => insert e.1 e.2 m) kept,
        dropped ++ (params.filter (·.1 ∉ spec.allowedParams)).map Prod.fst) := by
  induction params generalizing kept dropped with
  | nil => simp [filterFrom]
  | cons e params ih =>
    obtain ⟨k, v⟩ := e
    by_cases hk : k ∈ spec.allowedParams <;> simp [filterFrom, hk, ih]

/-- The params are a map already. -/
theorem collect_of_sorted {m : Params} (h : Sorted m) : collect m = m := by
  refine (Serde.sorted_collect m).ext h fun k => ?_
  cases hk : m.lookup k with
  | none =>
    rw [List.lookup_eq_none_iff] at hk ⊢
    exact fun e he => hk e (Serde.collect_subset m he)
  | some v => exact Serde.lookup_collect h.nodup (Serde.mem_of_lookup hk)

theorem filterParams_of_lookup {type_ : Text} {spec : CatalogTypeSpec} (hspec : lookup type_ = some spec)
    {params : Params} (h : Sorted params) : filterParams type_ params =
      (params.filter (·.1 ∈ spec.allowedParams),
        ((params.filter (·.1 ∉ spec.allowedParams)).map Prod.fst).insertionSort (· ≤ ·)) := by
  have hkept := collect_of_sorted (h.filter (·.1 ∈ spec.allowedParams))
  simp only [filterParams, hspec, filterFrom_eq, List.nil_append]
  rw [← collect, hkept]

theorem sorted_kept (type_ : Text) {params : Params} (h : Sorted params) : Sorted (filterParams type_ params).1 := by
  cases hspec : lookup type_ with
  | none => simpa [filterParams, hspec] using h
  | some spec =>
    rw [filterParams_of_lookup hspec h]
    exact h.filter _

theorem lookup_filter {m : Params} (p : String → Bool) (k : String) :
    (m.filter (p ·.1)).lookup k = if p k then m.lookup k else none := by
  induction m with
  | nil => simp
  | cons e m ih =>
    obtain ⟨j, v⟩ := e
    rw [List.filter_cons]
    by_cases hj : p j = true
    · rw [if_pos hj, Serde.lookup_cons_ite, Serde.lookup_cons_ite, ih]
      by_cases hk : k = j
      · simp [hk, hj]
      · simp [hk]
    · rw [if_neg hj, ih, Serde.lookup_cons_ite]
      by_cases hk : k = j
      · simp [hk, hj]
      · simp [hk]

/-- **What is kept** of a type that is known: what it may keep. -/
theorem lookup_kept {type_ : Text} (hknown : isKnownType type_ = true) {params : Params} (h : Sorted params) (k : String) :
    (filterParams type_ params).1.lookup k = if Allowed type_ k then params.lookup k else none := by
  obtain ⟨spec, hspec⟩ := Option.isSome_iff_exists.1 hknown
  have hallowed : Allowed type_ k ↔ k ∈ spec.allowedParams := by
    constructor
    · rintro ⟨s, hs, hk⟩
      cases hspec.symm.trans hs
      exact hk
    · exact fun hk => ⟨spec, hspec, hk⟩
  rw [filterParams_of_lookup hspec h]
  simp only [hallowed]
  have hlookup := lookup_filter (m := params) (fun j => decide (j ∈ spec.allowedParams)) k
  simpa using hlookup

/-- **What is not kept** is reported. -/
theorem mem_dropped {type_ : Text} (hknown : isKnownType type_ = true) {params : Params} (h : Sorted params) {k : String} :
    k ∈ (filterParams type_ params).2 ↔ k ∈ params.map Prod.fst ∧ ¬Allowed type_ k := by
  obtain ⟨spec, hspec⟩ := Option.isSome_iff_exists.1 hknown
  rw [filterParams_of_lookup hspec h]
  simp only [List.mem_insertionSort, List.mem_map, List.mem_filter, decide_eq_true_eq, Allowed, hspec, Option.some.injEq]
  constructor
  · rintro ⟨e, ⟨he, hk⟩, rfl⟩
    refine ⟨⟨e, he, rfl⟩, ?_⟩
    rintro ⟨s, rfl, hmem⟩
    exact hk hmem
  · rintro ⟨⟨e, he, rfl⟩, hk⟩
    exact ⟨e, ⟨he, fun hmem => hk ⟨spec, rfl, hmem⟩⟩, rfl⟩

/-- **The call's params** win. -/
theorem lookup_mergeParams {stored params : Params} (h : Sorted params) (k : String) :
    (mergeParams stored params).lookup k = (params.lookup k).or (stored.lookup k) := by
  have hgeneral : ∀ (params stored : Params), (params.map Prod.fst).Nodup →
      (mergeParams stored params).lookup k = (params.lookup k).or (stored.lookup k) := by
    intro params
    induction params with
    | nil => intro stored _; rfl
    | cons e params ih =>
      obtain ⟨j, v⟩ := e
      intro stored hnodup
      rw [List.map_cons, List.nodup_cons] at hnodup
      have hstep : mergeParams stored ((j, v) :: params) = mergeParams (insert j v stored) params := rfl
      rw [hstep, ih _ hnodup.2, Serde.lookup_insert, Serde.lookup_cons_ite]
      by_cases hk : k = j
      · subst hk
        have hnone : params.lookup k = none :=
          List.lookup_eq_none_iff.2 fun e he => by
            have hmem : e.1 ∈ params.map Prod.fst := List.mem_map_of_mem he
            have hne : k ≠ e.1 := fun heq => hnodup.1 (heq ▸ hmem)
            simpa using hne
        simp [hnone]
      · simp [hk]
  exact hgeneral params stored h.nodup

end Latiq.Common.Catalog
