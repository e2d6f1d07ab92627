import Mathlib.Data.List.Nodup
import Mathlib.Logic.Function.Basic

/-!
# Joining by a map

Two lists are joined in memory: one is put in a map by key, and each member of the other takes what the map has for its
key out of it.

* `group_apply` — the group of a key is the rows that have it, in their order.
* `takeEach_eq_iff` — each takes its own exactly when the first of each key finds it and the others' is the default.
* `firsts` — the first row of each key: `nodup_firsts`, `mem_firsts_key`.
-/

namespace Grouping

variable {κ α β γ ν : Type} [DecidableEq κ]

/-- A value is put behind those of its key. -/
def push (m : κ → List ν) (k : κ) (v : ν) : κ → List ν := Function.update m k (m k ++ [v])

/-- The rows, grouped by key. -/
def groupFrom (key : β → κ) (val : β → ν) (m : κ → List ν) (rows : List β) : κ → List ν :=
  rows.foldl (fun m r => push m (key r) (val r)) m

/-- The rows, grouped by key, in a map that was empty. -/
def group (key : β → κ) (val : β → ν) (rows : List β) : κ → List ν := groupFrom key val (fun _ => []) rows

theorem groupFrom_apply (key : β → κ) (val : β → ν) (m : κ → List ν) (rows : List β) (k : κ) :
    groupFrom key val m rows k = m k ++ (rows.filter fun r => key r = k).map val := by
  induction rows generalizing m with
  | nil => simp [groupFrom]
  | cons r rows ih =>
    have hstep : groupFrom key val m (r :: rows) k = groupFrom key val (push m (key r) (val r)) rows k := rfl
    rw [hstep, ih]
    by_cases hk : key r = k
    · subst hk
      simp [push]
    · simp [push, hk, Function.update_of_ne (Ne.symm hk)]

theorem group_apply (key : β → κ) (val : β → ν) (rows : List β) (k : κ) :
    group key val rows k = (rows.filter fun r => key r = k).map val := by
  rw [group, groupFrom_apply, List.nil_append]

/-- Each row takes what the map has for its key out of it, and leaves the default. -/
def takeEach (key : α → κ) (d : γ) (m : κ → γ) : List α → List γ
  | [] => []
  | a :: as => m (key a) :: takeEach key d (Function.update m (key a) d) as

theorem length_takeEach (key : α → κ) (d : γ) (m : κ → γ) (as : List α) : (takeEach key d m as).length = as.length := by
  induction as generalizing m with
  | nil => rfl
  | cons a as ih => rw [takeEach, List.length_cons, List.length_cons, ih]

/-- Only the keys are looked up. -/
theorem takeEach_map (key : α → κ) (d : γ) (m : κ → γ) (as : List α) :
    takeEach id d m (as.map key) = takeEach key d m as := by
  induction as generalizing m with
  | nil => rfl
  | cons a as ih => rw [List.map_cons, takeEach, takeEach, ih, id_eq]

/-- **Each row takes its own** exactly when the first row of each key finds its own in the map, and the default is the
own of every other. -/
theorem takeEach_eq_iff {key : α → κ} {d : γ} {own : α → γ} {m : κ → γ} {as : List α} :
    takeEach key d m as = as.map own ↔ (as.Pairwise fun a b => key a = key b → own b = d) ∧
      ∀ k a, as.find? (fun b => key b = k) = some a → m k = own a := by
  induction as generalizing m with
  | nil => simp [takeEach]
  | cons a as ih =>
    rw [takeEach, List.map_cons, List.cons_eq_cons, ih, List.pairwise_cons]
    constructor
    · rintro ⟨ha, hpair, hfirst⟩
      refine ⟨⟨fun b hb hkey => ?_, hpair⟩, fun k b hfind => ?_⟩
      · -- the first row behind `a` with its key finds the default, and so do those behind it
        have hsome : (as.find? fun c => key c = key a).isSome :=
          List.find?_isSome.2 ⟨b, hb, decide_eq_true hkey.symm⟩
        obtain ⟨c, hc⟩ := Option.isSome_iff_exists.1 hsome
        have hown : own c = d := by
          have hupdate := hfirst (key a) c hc
          rwa [Function.update_self, eq_comm] at hupdate
        obtain ⟨hkeyc, front, back, rfl, hfront⟩ := List.find?_eq_some_iff_append.1 hc
        rcases List.mem_append.1 hb with hb | hb
        · exact absurd hkey.symm (by simpa using hfront b hb)
        · rcases List.mem_cons.1 hb with rfl | hb
          · exact hown
          · have hbehind := List.rel_of_pairwise_cons (List.pairwise_append.1 hpair).2.1 hb
            exact hbehind ((of_decide_eq_true hkeyc).trans hkey)
      · by_cases hk : key a = k
        · simp only [List.find?_cons, hk, decide_true, Option.some.injEq] at hfind
          subst hfind
          exact hk ▸ ha
        · simp only [List.find?_cons, hk, decide_false] at hfind
          rw [← hfirst k b hfind, Function.update_of_ne (Ne.symm hk)]
    · rintro ⟨⟨hbehind, hpair⟩, hfirst⟩
      refine ⟨hfirst (key a) a (by simp), hpair, fun k b hfind => ?_⟩
      by_cases hk : k = key a
      · subst hk
        rw [Function.update_self]
        have hkey := List.find?_some hfind
        exact (hbehind b (List.mem_of_find?_eq_some hfind) (of_decide_eq_true hkey).symm).symm
      · rw [Function.update_of_ne hk]
        refine hfirst k b ?_
        simpa only [List.find?_cons, Ne.symm hk, decide_false] using hfind

/-- Where no row's own is the default, no key may come twice. -/
theorem takeEach_eq_iff_of_ne {key : α → κ} {d : γ} {own : α → γ} {m : κ → γ} {as : List α} (hne : ∀ a ∈ as, own a ≠ d) :
    takeEach key d m as = as.map own ↔ (as.map key).Nodup ∧ ∀ a ∈ as, m (key a) = own a := by
  have hpair : (as.Pairwise fun a b => key a = key b → own b = d) ↔ (as.map key).Nodup := by
    rw [List.nodup_iff_pairwise_ne, List.pairwise_map]
    refine List.Pairwise.iff_of_mem fun {a b} _ hb => ?_
    exact ⟨fun h heq => hne b hb (h heq), fun h heq => absurd heq h⟩
  rw [takeEach_eq_iff, hpair]
  refine and_congr_right fun hnodup => ?_
  constructor
  · intro h a ha
    refine h (key a) a ?_
    obtain ⟨b, hb⟩ := Option.isSome_iff_exists.1
      (List.find?_isSome.2 ⟨a, ha, decide_eq_true rfl⟩ : (as.find? fun b => key b = key a).isSome)
    have hkey := List.find?_some hb
    rw [hb, List.inj_on_of_nodup_map hnodup (List.mem_of_find?_eq_some hb) ha (of_decide_eq_true hkey)]
  · intro h k a hfind
    have hkey := List.find?_some hfind
    rw [← of_decide_eq_true hkey]
    exact h a (List.mem_of_find?_eq_some hfind)

/-! ### The first of each key -/

/-- The first row of each key, but those whose key was seen. -/
def firstsFrom (key : α → κ) : List κ → List α → List α
  | _, [] => []
  | seen, a :: as => if key a ∈ seen then firstsFrom key seen as else a :: firstsFrom key (key a :: seen) as

/-- The first row of each key. -/
def firsts (key : α → κ) (as : List α) : List α := firstsFrom key [] as

theorem firstsFrom_sublist (key : α → κ) (seen : List κ) (as : List α) : (firstsFrom key seen as).Sublist as := by
  induction as generalizing seen with
  | nil => exact .slnil
  | cons a as ih =>
    rw [firstsFrom]
    split
    · exact (ih seen).cons a
    · exact (ih _).cons_cons a

theorem mem_firstsFrom_key {key : α → κ} {seen : List κ} {as : List α} {k : κ} :
    k ∈ (firstsFrom key seen as).map key ↔ k ∈ as.map key ∧ k ∉ seen := by
  induction as generalizing seen with
  | nil => simp [firstsFrom]
  | cons a as ih =>
    rw [firstsFrom]
    split
    · rename_i hseen
      rw [ih, List.map_cons, List.mem_cons]
      refine ⟨fun h => ⟨.inr h.1, h.2⟩, fun h => ⟨h.1.resolve_left ?_, h.2⟩⟩
      rintro rfl
      exact h.2 hseen
    · rename_i hseen
      rw [List.map_cons, List.mem_cons, ih, List.map_cons, List.mem_cons, List.mem_cons, not_or]
      constructor
      · rintro (rfl | ⟨h, -, hk⟩)
        · exact ⟨.inl rfl, hseen⟩
        · exact ⟨.inr h, hk⟩
      · rintro ⟨h, hk⟩
        by_cases heq : k = key a
        · exact .inl heq
        · exact .inr ⟨h.resolve_left heq, heq, hk⟩

theorem nodup_firstsFrom (key : α → κ) (seen : List κ) (as : List α) : ((firstsFrom key seen as).map key).Nodup := by
  induction as generalizing seen with
  | nil => exact List.nodup_nil
  | cons a as ih =>
    rw [firstsFrom]
    split
    · exact ih seen
    · rw [List.map_cons, List.nodup_cons]
      exact ⟨fun h => (mem_firstsFrom_key.1 h).2 List.mem_cons_self, ih _⟩

theorem firsts_sublist (key : α → κ) (as : List α) : (firsts key as).Sublist as := firstsFrom_sublist key [] as

/-- **No key comes twice.** -/
theorem nodup_firsts (key : α → κ) (as : List α) : ((firsts key as).map key).Nodup := nodup_firstsFrom key [] as

/-- **No key is left out.** -/
theorem mem_firsts_key {key : α → κ} {as : List α} {k : κ} : k ∈ (firsts key as).map key ↔ k ∈ as.map key := by
  rw [firsts, mem_firstsFrom_key]
  exact and_iff_left (List.not_mem_nil)

/-- Where a key says all of a row, no row is left out. -/
theorem mem_firsts {key : α → κ} {as : List α} (h : ∀ a ∈ as, ∀ b ∈ as, key a = key b → a = b) {a : α} :
    a ∈ firsts key as ↔ a ∈ as := by
  refine ⟨fun ha => (firsts_sublist key as).subset ha, fun ha => ?_⟩
  obtain ⟨b, hb, hkey⟩ := List.mem_map.1 (mem_firsts_key.2 (List.mem_map_of_mem (f := key) ha))
  exact h b ((firsts_sublist key as).subset hb) a ha hkey ▸ hb

end Grouping
