import Mathlib.Data.List.Infix
import Mathlib.Data.List.TakeWhile
import Mathlib.Data.List.Sort
import Mathlib.Algebra.BigOperators.Group.List.Basic
import Mathlib.Algebra.GroupWithZero.Nat

/-!
# Windows on a list

What of a list is within bounds, taken from its start without a look at the rest, and the greatest members of a
list, kept without a sort of the whole.

* `fill P p l` — the members of `l` put behind `p` as long as `P` holds, and the first that is left out.
* `ring Q l` — a ring on the end of `l`: each member is put in at the back, and members are dropped at the front
  until `Q` holds; with the last that was dropped.
* `Fits n cap` — no longer than `n`, and no heavier than `cap` where there is more than one member.
* `keepGreatest k l` — a heap that never grows over `k`.

## What is proved

* `fill_longest` — the first part of `l` that `fill` takes is the longest with `P`.
* `ring_cut`, `fill_ring_none`, `fill_ring_some` — filling from the ring's content is filling from the whole list.
* `keepGreatest_eq` — the heap holds the greatest members of the list, in order.
-/

namespace Window

variable {α : Type}

/-! ### Filling -/

/-- The members of `l` put behind `p` as long as `P` holds, and the first that does not fit. -/
def fill (P : List α → Prop) [DecidablePred P] : List α → List α → List α × Option α
  | p, [] => (p, none)
  | p, x :: l => if P (p ++ [x]) then fill P (p ++ [x]) l else (p, some x)

/-- `p` has `P` and is followed by `r` in `l`, and the first member of `r` cannot be put to it. -/
structure Cut (P : List α → Prop) (l p r : List α) : Prop where
  eq : l = p ++ r
  holds : P p
  stops : ∀ x ∈ r.head?, ¬P (p ++ [x])

/-- What holds of a list holds of each first part of it. -/
def PrefixClosed (P : List α → Prop) : Prop := ∀ p q, P (p ++ q) → P p

theorem Cut.longest {P : List α → Prop} (hP : PrefixClosed P) {l p r q : List α} (h : Cut P l p r) (hq : q <+: l)
    (hPq : P q) : q <+: p := by
  have hp : p <+: l := ⟨r, h.eq.symm⟩
  rcases List.prefix_or_prefix_of_prefix hq hp with hle | ⟨t, rfl⟩
  · exact hle
  · cases t with
    | nil => simp
    | cons x t =>
      obtain ⟨u, hu⟩ := hq
      have hr : r = x :: (t ++ u) := by
        have := hu.trans h.eq
        rw [List.append_assoc] at this
        exact (List.append_cancel_left this).symm
      refine absurd (hP (p ++ [x]) t ?_) (h.stops x (by rw [hr]; rfl))
      rwa [List.append_assoc, List.singleton_append]

theorem Cut.unique {P : List α → Prop} (hP : PrefixClosed P) {l p p' r r' : List α} (h : Cut P l p r)
    (h' : Cut P l p' r') : p = p' ∧ r = r' := by
  have hle : p <+: p' := h'.longest hP ⟨r, h.eq.symm⟩ h.holds
  have hge : p' <+: p := h.longest hP ⟨r', h'.eq.symm⟩ h'.holds
  obtain rfl : p = p' := hle.eq_of_length_le hge.length_le
  exact ⟨rfl, List.append_cancel_left (h.eq.symm.trans h'.eq)⟩

section

variable (P : List α → Prop) [DecidablePred P]

@[simp] theorem fill_nil (p : List α) : fill P p [] = (p, none) := rfl

theorem fill_cut {p : List α} (h : P p) (l : List α) :
    ∃ r, Cut P (p ++ l) (fill P p l).1 r ∧ (fill P p l).2 = r.head? := by
  induction l generalizing p with
  | nil => exact ⟨[], ⟨rfl, h, nofun⟩, rfl⟩
  | cons x l ih =>
    unfold fill
    split_ifs with hx
    · obtain ⟨r, hcut, hr⟩ := ih hx
      rw [List.append_assoc] at hcut
      exact ⟨r, hcut, hr⟩
    · refine ⟨x :: l, ⟨rfl, h, ?_⟩, rfl⟩
      rintro y hy
      cases hy
      exact hx

/-- What is taken from the start is the longest part with `P`. -/
theorem fill_longest (hP : PrefixClosed P) (h : P []) {l q : List α} (hq : q <+: l) (hPq : P q) :
    q <+: (fill P [] l).1 := by
  obtain ⟨r, hcut, -⟩ := fill_cut P h l
  exact hcut.longest hP hq hPq

/-- Where nothing is left out, everything is taken. -/
theorem fill_fst_of_none {p l : List α} (h : (fill P p l).2 = none) : (fill P p l).1 = p ++ l := by
  induction l generalizing p with
  | nil => simp
  | cons x l ih =>
    unfold fill at h ⊢
    split_ifs at h ⊢
    rw [ih h, List.append_assoc, List.singleton_append]

/-- What is left out stands behind what is taken. -/
theorem fill_of_some {p l : List α} {x : α} (h : (fill P p l).2 = some x) :
    ∃ r, p ++ l = (fill P p l).1 ++ x :: r := by
  induction l generalizing p with
  | nil => simp at h
  | cons y l ih =>
    unfold fill at h ⊢
    split_ifs at h ⊢
    · obtain ⟨r, hr⟩ := ih h
      exact ⟨r, by rw [← hr, List.append_assoc, List.singleton_append]⟩
    · cases h
      exact ⟨l, rfl⟩

theorem fill_append_of_none {p l : List α} (l' : List α) (h : (fill P p l).2 = none) :
    fill P p (l ++ l') = fill P (p ++ l) l' := by
  induction l generalizing p with
  | nil => simp
  | cons x l ih =>
    by_cases hx : P (p ++ [x])
    · rw [fill, if_pos hx] at h
      rw [List.cons_append, fill, if_pos hx, ih h, List.append_assoc, List.singleton_append]
    · rw [fill, if_neg hx] at h
      cases h

theorem fill_append_of_some {p l : List α} (l' : List α) {x : α} (h : (fill P p l).2 = some x) :
    fill P p (l ++ l') = fill P p l := by
  induction l generalizing p with
  | nil => simp at h
  | cons y l ih =>
    rw [List.cons_append]
    unfold fill at h ⊢
    split_ifs at h ⊢
    · exact ih h
    · rfl

/-- **Filling from the first part** of a list that has been cut by a weaker bound: where all of it is taken, what stands
behind it is left out. -/
theorem fill_of_cut_none {Q : List α → Prop} {p m k r : List α} (hQ : ∀ q, P (p ++ q) → Q q) (h : Cut Q m k r)
    (hk : (fill P p k).2 = none) : fill P p m = (p ++ k, r.head?) := by
  rw [h.eq, fill_append_of_none P r hk]
  cases r with
  | nil => rfl
  | cons d r =>
    have hd : ¬P (p ++ k ++ [d]) := by
      intro hP
      rw [List.append_assoc] at hP
      exact h.stops d rfl (hQ _ hP)
    rw [fill, if_neg hd, List.head?_cons]

theorem fill_of_cut_some {Q : List α → Prop} {p m k r : List α} {x : α} (h : Cut Q m k r)
    (hk : (fill P p k).2 = some x) : fill P p m = fill P p k := by
  rw [h.eq, fill_append_of_some P r hk]

end

/-! ### A ring on the end -/

section

variable (Q : List α → Prop) [DecidablePred Q]

/-- Members dropped at the front until `Q` holds, and the last that was dropped. -/
def shrink : List α → Option α → List α × Option α
  | [], d => ([], d)
  | x :: r, d => if Q (x :: r) then (x :: r, d) else shrink r (some x)

/-- The ring behind the members of a list. -/
def ring (l : List α) : List α × Option α := l.foldl (fun s x => shrink Q (s.1 ++ [x]) s.2) ([], none)

variable {Q}

theorem shrink_cut (h : Q []) {t r : List α} {d : Option α} (hd : d = r.head?) :
    ∃ r', t.reverse ++ r = (shrink Q t d).1.reverse ++ r' ∧ (shrink Q t d).2 = r'.head? ∧ Q (shrink Q t d).1 ∧
      ((shrink Q t d).1 = t ∧ r' = r ∨ ∃ y, r'.head? = some y ∧ ¬Q (y :: (shrink Q t d).1)) := by
  induction t generalizing d r with
  | nil => exact ⟨r, rfl, hd, h, .inl ⟨rfl, rfl⟩⟩
  | cons x t ih =>
    unfold shrink
    split_ifs with hx
    · exact ⟨r, rfl, hd, hx, .inl ⟨rfl, rfl⟩⟩
    · obtain ⟨r', heq, hhead, hQ, hstop⟩ := ih (r := x :: r) (d := some x) rfl
      refine ⟨r', ?_, hhead, hQ, .inr ?_⟩
      · rw [← heq, List.reverse_cons, List.append_assoc, List.singleton_append]
      · rcases hstop with ⟨hsame, rfl⟩ | hstop
        · rw [hsame]
          exact ⟨x, rfl, hx⟩
        · exact hstop

/-- **The ring**: what it holds is the longest last part of the list with `Q`, and the last that it dropped is what
stands before that. -/
theorem ring_cut (h : Q []) (hQ : ∀ a b, a.Sublist b → Q b → Q a) (l : List α) :
    ∃ r, Cut (fun p => Q p.reverse) l.reverse (ring Q l).1.reverse r ∧ (ring Q l).2 = r.head? := by
  induction l using List.reverseRecOn with
  | nil => exact ⟨[], ⟨rfl, h, nofun⟩, rfl⟩
  | append_singleton l x ih =>
    obtain ⟨r, hcut, hr⟩ := ih
    have hring : ring Q (l ++ [x]) = shrink Q ((ring Q l).1 ++ [x]) (ring Q l).2 := by
      simp [ring]
    rw [hring]
    obtain ⟨r', heq, hhead, hholds, hstop⟩ := shrink_cut (t := (ring Q l).1 ++ [x]) h hr
    refine ⟨r', ⟨?_, by simpa using hholds, ?_⟩, hhead⟩
    · rw [← heq, List.reverse_append, List.reverse_append, hcut.eq, List.append_assoc]
    · intro y hy
      simp only [List.reverse_append, List.reverse_reverse, List.reverse_singleton, List.singleton_append]
      rcases hstop with ⟨hsame, rfl⟩ | ⟨z, hz, hnot⟩
      · intro hbad
        refine hcut.stops y hy ?_
        simp only [List.reverse_append, List.reverse_reverse, List.reverse_singleton, List.singleton_append]
        refine hQ _ _ ?_ hbad
        rw [hsame]
        exact (List.sublist_append_left _ _).cons_cons y
      · rw [hz] at hy
        cases hy
        exact hnot

end

/-! ### Bounds on length and weight -/

/-- How much a list of weighed members weighs. -/
def weight (l : List (α × ℕ)) : ℕ := (l.map Prod.snd).sum

/-- No longer than `n`, and no heavier than `cap` where there is more than one member. -/
def Fits (n cap : ℕ) (l : List (α × ℕ)) : Prop := l.length ≤ n ∧ (l.length ≤ 1 ∨ weight l ≤ cap)

instance (n cap : ℕ) : DecidablePred (Fits (α := α) n cap) := fun l =>
  inferInstanceAs (Decidable (l.length ≤ n ∧ (l.length ≤ 1 ∨ weight l ≤ cap)))

@[simp] theorem weight_nil : weight ([] : List (α × ℕ)) = 0 := rfl

@[simp] theorem weight_cons (x : α × ℕ) (l : List (α × ℕ)) : weight (x :: l) = x.2 + weight l := List.sum_cons

@[simp] theorem weight_append (l l' : List (α × ℕ)) : weight (l ++ l') = weight l + weight l' := by
  simp [weight]

@[simp] theorem weight_reverse (l : List (α × ℕ)) : weight l.reverse = weight l := by
  simp [weight, List.sum_reverse]

theorem weight_le_of_sublist {l l' : List (α × ℕ)} (h : l.Sublist l') : weight l ≤ weight l' := by
  induction h with
  | slnil => exact le_rfl
  | cons x _ ih =>
    rw [weight_cons]
    omega
  | cons_cons x _ ih =>
    rw [weight_cons, weight_cons]
    omega

namespace Fits

variable {n n' cap : ℕ} {l l' p q : List (α × ℕ)}

theorem nil : Fits n cap ([] : List (α × ℕ)) := ⟨Nat.zero_le _, .inl (Nat.zero_le _)⟩

theorem of_sublist (h : l.Sublist l') (hl : Fits n cap l') : Fits n cap l := by
  have hlen := h.length_le
  have hweight := weight_le_of_sublist h
  obtain ⟨hn, hcap⟩ := hl
  exact ⟨hlen.trans hn, hcap.imp hlen.trans hweight.trans⟩

theorem prefixClosed : PrefixClosed (Fits (α := α) n cap) := fun _ _ h => h.of_sublist (List.sublist_append_left _ _)

@[simp] theorem reverse_iff : Fits n cap l.reverse ↔ Fits n cap l := by
  simp [Fits]

/-- What fits behind `p` fits where there is as much room as is left behind `p`. -/
theorem of_append (h : Fits n cap (p ++ q)) (hn : n - p.length ≤ n') : Fits n' cap q := by
  obtain ⟨hlen, hcap⟩ := h
  rw [List.length_append] at hlen hcap
  rw [weight_append] at hcap
  refine ⟨by omega, ?_⟩
  omega

end Fits

/-- Where something is left out, something is taken. -/
theorem fill_ne_nil {n cap : ℕ} (hn : 1 ≤ n) {l : List (α × ℕ)} {e : α × ℕ} (h : (fill (Fits n cap) [] l).2 = some e) :
    (fill (Fits n cap) [] l).1 ≠ [] := by
  intro hnil
  obtain ⟨r, hr⟩ := fill_of_some _ h
  rw [hnil, List.nil_append, List.nil_append] at hr
  have hfirst : [e] <+: (fill (Fits n cap) [] l).1 :=
    fill_longest _ Fits.prefixClosed Fits.nil ⟨r, hr.symm⟩ ⟨hn, .inl le_rfl⟩
  rw [hnil] at hfirst
  exact absurd hfirst.length_le (by simp)

/-- **Filling from a ring** of the room that is left: all that it holds, and then what it dropped last. -/
theorem fill_ring_none {n need : ℕ} (cap : ℕ) {p : List (α × ℕ)} (hneed : n - p.length ≤ need) (l : List (α × ℕ))
    (h : (fill (Fits n cap) p (ring (Fits need cap) l).1.reverse).2 = none) :
    fill (Fits n cap) p l.reverse = (p ++ (ring (Fits need cap) l).1.reverse, (ring (Fits need cap) l).2) := by
  obtain ⟨r, hcut, hr⟩ := ring_cut (Q := Fits need cap) Fits.nil (fun a b => Fits.of_sublist) l
  rw [hr]
  exact fill_of_cut_none (Fits n cap) (fun q hq => Fits.reverse_iff.2 (hq.of_append hneed)) hcut h

theorem fill_ring_some (n need cap : ℕ) (p l : List (α × ℕ)) {x : α × ℕ}
    (h : (fill (Fits n cap) p (ring (Fits need cap) l).1.reverse).2 = some x) :
    fill (Fits n cap) p l.reverse = fill (Fits n cap) p (ring (Fits need cap) l).1.reverse := by
  obtain ⟨r, hcut, -⟩ := ring_cut (Q := Fits need cap) Fits.nil (fun a b => Fits.of_sublist) l
  exact fill_of_cut_some (Fits n cap) hcut h

/-! ### The greatest members -/

section

variable [LinearOrder α]

/-- A new member put into a heap of at most `k`, out of which the least falls, with the count of those that fell out. -/
def pushBounded (k : ℕ) (s : List α × ℕ) (x : α) : List α × ℕ :=
  let heap := s.1.orderedInsert (· ≤ ·) x
  if k < heap.length then (heap.tail, s.2 + 1) else (heap, s.2)

/-- The heap behind the members of a list, from its least member on. -/
def keepGreatest (k : ℕ) (l : List α) : List α × ℕ := l.foldl (pushBounded k) ([], 0)

theorem orderedInsert_drop {s : List α} (hs : s.Pairwise (· ≤ ·)) (x : α) {j : ℕ} (hj : j < s.length + 1) :
    (s.orderedInsert (· ≤ ·) x).drop (j + 1) = ((s.drop j).orderedInsert (· ≤ ·) x).tail := by
  induction s generalizing j with
  | nil =>
    obtain rfl : j = 0 := by simpa using hj
    rfl
  | cons y s ih =>
    rw [List.pairwise_cons] at hs
    by_cases hxy : x ≤ y
    · rw [List.orderedInsert_cons_of_le _ _ hxy, List.drop_succ_cons]
      cases hd : (y :: s).drop j with
      | nil => rfl
      | cons z t =>
        have hz : z ∈ y :: s := List.mem_of_mem_drop (hd ▸ List.mem_cons_self)
        have hxz : x ≤ z := by
          rcases List.mem_cons.1 hz with rfl | hz
          · exact hxy
          · exact hxy.trans (hs.1 z hz)
        rw [List.orderedInsert_cons_of_le _ _ hxz, List.tail_cons]
    · rw [List.orderedInsert_of_not_le _ _ hxy, List.drop_succ_cons]
      cases j with
      | zero => rw [List.drop_zero, List.drop_zero, List.orderedInsert_of_not_le _ _ hxy, List.tail_cons]
      | succ j =>
        rw [List.drop_succ_cons]
        exact ih hs.2 (by simpa using hj)

/-- **The heap** holds the greatest members, and has counted the others. -/
theorem keepGreatest_eq (k : ℕ) (l : List α) :
    keepGreatest k l = ((l.insertionSort (· ≤ ·)).drop (l.length - k), l.length - k) := by
  have hgen : ∀ (l s : List α), s.Pairwise (· ≤ ·) →
      l.foldl (pushBounded k) (s.drop (s.length - k), s.length - k) =
        ((l.foldl (fun s x => s.orderedInsert (· ≤ ·) x) s).drop (s.length + l.length - k), s.length + l.length - k) := by
    intro l
    induction l with
    | nil => simp
    | cons x l ih =>
      intro s hs
      have hpush : pushBounded k (s.drop (s.length - k), s.length - k) x =
          ((s.orderedInsert (· ≤ ·) x).drop (s.length + 1 - k), s.length + 1 - k) := by
        unfold pushBounded
        simp only [List.orderedInsert_length, List.length_drop]
        split_ifs with hk
        · rw [show s.length + 1 - k = s.length - k + 1 by omega, orderedInsert_drop hs x (by omega)]
        · rw [show s.length - k = 0 by omega, show s.length + 1 - k = 0 by omega, List.drop_zero, List.drop_zero]
      have hrest := ih (s.orderedInsert (· ≤ ·) x) (hs.orderedInsert x s)
      rw [List.orderedInsert_length] at hrest
      rw [List.foldl_cons, List.foldl_cons, hpush, hrest, List.length_cons, Nat.add_right_comm, Nat.add_assoc]
  have hfold : l.foldl (fun s x => s.orderedInsert (· ≤ ·) x) [] = l.insertionSort (· ≤ ·) := by
    rw [← List.foldr_reverse]
    have hperm : (l.reverse.insertionSort (· ≤ ·)).Perm (l.insertionSort (· ≤ ·)) :=
      (List.perm_insertionSort _ _).trans ((List.reverse_perm l).trans (List.perm_insertionSort _ _).symm)
    exact hperm.eq_of_pairwise' (List.pairwise_insertionSort _ _) (List.pairwise_insertionSort _ _)
  have h := hgen l [] .nil
  rw [hfold] at h
  simpa [keepGreatest] using h

end

/-! ### Cutting at a member -/

/-- Cutting a list at its first member without `q`, and leaving out all such members: the same exactly when there are
only such members from the first on. -/
theorem takeWhile_eq_filter_iff (q : α → Bool) {l : List α} (hl : l ≠ []) :
    (if 0 < (l.takeWhile q).length then l.takeWhile q else l) = (if (l.filter q).isEmpty then l else l.filter q) ↔
      ∀ x ∈ l.dropWhile q, q x = false := by
  have hfilter : l.filter q = l.takeWhile q ++ (l.dropWhile q).filter q := by
    conv_lhs => rw [← List.takeWhile_append_dropWhile (p := q) (l := l)]
    rw [List.filter_append, List.filter_eq_self.2 fun x hx => List.mem_takeWhile_imp hx]
  have hnone : (∀ x ∈ l.dropWhile q, q x = false) ↔ (l.dropWhile q).filter q = [] := by
    simp [List.filter_eq_nil_iff]
  rw [hnone, hfilter]
  cases htake : l.takeWhile q with
  | cons x t =>
    simp
  | nil =>
    have hdrop : l.dropWhile q = l := by
      have := List.takeWhile_append_dropWhile (p := q) (l := l)
      rwa [htake, List.nil_append] at this
    rw [hdrop]
    simp only [List.length_nil, Nat.lt_irrefl, if_false, List.nil_append]
    constructor
    · intro h
      split_ifs at h with hempty
      · exact List.isEmpty_iff.1 hempty
      · -- the head of the list has been left out
        obtain ⟨x, t, rfl⟩ := List.exists_cons_of_ne_nil hl
        have hx : q x = true := List.of_mem_filter (h ▸ List.mem_cons_self : x ∈ (x :: t).filter q)
        simp [hx] at htake
    · intro h
      rw [h]
      rfl

end Window
