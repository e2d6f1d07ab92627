import Latiq.Library.Window

/-!
# Paging with a cursor

A list is read in pages, each cut out of its start by bounds (`Window.Fits`); where members are left out, the page is cut
at the first of its members with the key of the first that is left out, unless nothing would remain of it, and the next
page is read from the members with a lesser key than all those received.

* `page` — a page, and whether something is left out.
* `walk k l` — what `k` pages come to.

## What is proved

* `walk_eq` — on a list in descending order whose ties fit, all members are received, in order.
* `walkShown_eq_iff` — where the pages are cut by another key than they are continued by, exactly those walks receive all
  members whose pages are cut clean.
* `descending_of_walk` — pages of one member come to all members on strictly descending lists only.
-/

namespace Paging

open Window

variable {α τ : Type} [LinearOrder τ] (key : α → τ) (n cap : ℕ)

/-- The members of the page before the first with the key `t`, unless there are none. -/
def cutTie (t : τ) (p : List (α × ℕ)) : List (α × ℕ) :=
  if (p.takeWhile fun x => key x.1 ≠ t) = [] then p else p.takeWhile fun x => key x.1 ≠ t

/-- A page, and whether something is left out. -/
def page (l : List (α × ℕ)) : List (α × ℕ) × Bool :=
  match fill (Fits n cap) [] l with
  | (p, none) => (p, false)
  | (p, some e) => (cutTie key (key e.1) p, true)

/-- The members with a lesser key than all of the page. -/
def below (p l : List (α × ℕ)) : List (α × ℕ) := l.filter fun x => ∀ y ∈ p, key x.1 < key y.1

/-- What `k` pages come to. -/
def walk : ℕ → List (α × ℕ) → List (α × ℕ)
  | 0, _ => []
  | k + 1, l =>
    match page key n cap l with
    | (p, false) => p
    | (p, true) => p ++ walk k (below key p l)

variable {key n cap}

theorem page_of_none {l : List (α × ℕ)} (h : (fill (Fits n cap) [] l).2 = none) : page key n cap l = (l, false) := by
  have hfst := fill_fst_of_none _ h
  unfold page
  generalize fill (Fits n cap) [] l = filled at h hfst
  obtain ⟨p, left⟩ := filled
  subst h
  exact Prod.ext hfst rfl

theorem page_of_some {l : List (α × ℕ)} {e : α × ℕ} (h : (fill (Fits n cap) [] l).2 = some e) :
    page key n cap l = (cutTie key (key e.1) (fill (Fits n cap) [] l).1, true) := by
  unfold page
  generalize fill (Fits n cap) [] l = filled at h
  obtain ⟨p, left⟩ := filled
  subst h
  rfl

theorem cutTie_isInitial (t : τ) (p : List (α × ℕ)) : cutTie key t p <+: p := by
  unfold cutTie
  split_ifs
  · exact List.prefix_rfl
  · exact List.takeWhile_prefix _

theorem cutTie_ne_nil {t : τ} {p : List (α × ℕ)} (h : p ≠ []) : cutTie key t p ≠ [] := by
  unfold cutTie
  split_ifs with hnil
  · exact h
  · exact hnil

/-- In descending order. -/
def Descending (key : α → τ) (l : List (α × ℕ)) : Prop := l.Pairwise fun x y => key y.1 ≤ key x.1

/-- All members with one key fit on a page. -/
def TiesFit (key : α → τ) (n cap : ℕ) (l : List (α × ℕ)) : Prop := ∀ t, Fits n cap (l.filter fun x => key x.1 = t)

theorem TiesFit.of_sublist {l l' : List (α × ℕ)} (h : l.Sublist l') (hl : TiesFit key n cap l') : TiesFit key n cap l :=
  fun t => (hl t).of_sublist (h.filter _)

/-- The ties that are to fit are those of members. -/
theorem tiesFit_of_mem {l : List (α × ℕ)} (h : ∀ y ∈ l, Fits n cap (l.filter fun x => key x.1 = key y.1)) :
    TiesFit key n cap l := by
  intro t
  by_cases ht : ∃ y ∈ l, key y.1 = t
  · obtain ⟨y, hy, rfl⟩ := ht
    exact h y hy
  · have hnil : (l.filter fun x => key x.1 = t) = [] :=
      List.filter_eq_nil_iff.2 fun y hy hbad => ht ⟨y, hy, of_decide_eq_true hbad⟩
    rw [hnil]
    exact ⟨Nat.zero_le _, .inl (Nat.zero_le _)⟩

/-- Where no two members have one key, the ties fit. -/
theorem tiesFit_of_strict (hn : 1 ≤ n) {l : List (α × ℕ)} (h : l.Pairwise fun x y => key y.1 < key x.1) :
    TiesFit key n cap l := by
  intro t
  have hle : (l.filter fun x => key x.1 = t).length ≤ 1 := by
    have hpair := h.filter fun x => decide (key x.1 = t)
    have hkey : ∀ x ∈ l.filter fun x => key x.1 = t, key x.1 = t := fun x hx => by simpa using (List.mem_filter.1 hx).2
    generalize l.filter (fun x => decide (key x.1 = t)) = m at hpair hkey
    match m with
    | [] => exact Nat.zero_le 1
    | [_] => exact le_rfl
    | x :: y :: m =>
      have hlt := (List.pairwise_cons.1 hpair).1 y List.mem_cons_self
      rw [hkey x List.mem_cons_self, hkey y (List.mem_cons_of_mem _ List.mem_cons_self)] at hlt
      exact absurd hlt (lt_irrefl t)
  exact ⟨hle.trans hn, .inl hle⟩

/-- In a list in descending order, what stands before a member with another key has a greater one. -/
theorem lt_of_mem_takeWhile {p r : List (α × ℕ)} {e x : α × ℕ} (h : Descending key (p ++ e :: r))
    (hx : x ∈ p.takeWhile fun y => key y.1 ≠ key e.1) : key e.1 < key x.1 := by
  have hp : x ∈ p := (List.takeWhile_prefix _).subset hx
  have hle : key e.1 ≤ key x.1 := (List.pairwise_append.1 h).2.2 x hp e List.mem_cons_self
  have hne : key x.1 ≠ key e.1 := by simpa using List.mem_takeWhile_imp hx
  exact lt_of_le_of_ne hle hne.symm

/-- Where the ties fit, a member that does not share the key of what is left out stands at the start of the page. -/
theorem takeWhile_ne_nil {l : List (α × ℕ)} {e : α × ℕ} (hn : 1 ≤ n) (hd : Descending key l) (hties : TiesFit key n cap l)
    (h : (fill (Fits n cap) [] l).2 = some e) :
    ((fill (Fits n cap) [] l).1.takeWhile fun y => key y.1 ≠ key e.1) ≠ [] := by
  intro hnil
  obtain ⟨r, hr⟩ := fill_of_some _ h
  have hne := fill_ne_nil hn h
  rw [List.nil_append] at hr
  generalize hp : (fill (Fits n cap) [] l).1 = p at hnil hr hne
  -- the page and what is left out share a key, and so fit together
  have hall : ∀ x ∈ p ++ [e], key x.1 = key e.1 := by
    obtain ⟨y, q, rfl⟩ := List.exists_cons_of_ne_nil hne
    have hy : key y.1 = key e.1 := by
      by_contra hbad
      simp [hbad] at hnil
    intro x hx
    rcases List.mem_append.1 hx with hx | hx
    · have hle : key e.1 ≤ key x.1 := by
        rw [hr] at hd
        exact (List.pairwise_append.1 hd).2.2 x hx e List.mem_cons_self
      have hge : key x.1 ≤ key y.1 := by
        rcases List.mem_cons.1 hx with rfl | hx
        · exact le_rfl
        · rw [hr] at hd
          exact (List.pairwise_cons.1 (List.pairwise_append.1 hd).1).1 x hx
      exact le_antisymm (hge.trans hy.le) hle
    · rw [List.mem_singleton.1 hx]
  have hprefix : p ++ [e] <+: l := ⟨r, by rw [hr, List.append_assoc, List.singleton_append]⟩
  have hfits : Fits n cap (p ++ [e]) := by
    refine (hties (key e.1)).of_sublist ?_
    have hsub := hprefix.sublist.filter fun x => decide (key x.1 = key e.1)
    rwa [List.filter_eq_self.2 fun x hx => decide_eq_true (hall x hx)] at hsub
  have hlong : p ++ [e] <+: (fill (Fits n cap) [] l).1 := fill_longest _ Fits.prefixClosed Fits.nil hprefix hfits
  rw [hp] at hlong
  exact absurd hlong.length_le (by simp)

/-- From the first member with the key of `e` on, no key is greater. -/
theorem le_of_mem_dropWhile {p r : List (α × ℕ)} {e x : α × ℕ} (h : Descending key (p ++ e :: r))
    (hx : x ∈ p.dropWhile fun y => key y.1 ≠ key e.1) : key x.1 ≤ key e.1 := by
  induction p with
  | nil => cases hx
  | cons y p ih =>
    rw [List.cons_append] at h
    by_cases hy : key y.1 = key e.1
    · rw [List.dropWhile_cons_of_neg (by simpa using hy)] at hx
      rcases List.mem_cons.1 hx with rfl | hx
      · exact hy.le
      · exact ((List.pairwise_cons.1 h).1 x (List.mem_append_left _ hx)).trans hy.le
    · rw [List.dropWhile_cons_of_pos (by simpa using hy)] at hx
      exact ih (List.pairwise_cons.1 h).2 hx

theorem below_sublist (p l : List (α × ℕ)) : (below key p l).Sublist l := List.filter_sublist

@[simp] theorem below_nil (l : List (α × ℕ)) : below key [] l = l :=
  List.filter_eq_self.2 fun _ _ => decide_eq_true nofun

/-- What is below two parts is below the one of what is below the other. -/
theorem below_append_left (p q l : List (α × ℕ)) : below key (p ++ q) l = below key q (below key p l) := by
  unfold below
  rw [List.filter_filter]
  refine List.filter_congr fun x _ => ?_
  rw [Bool.eq_iff_iff, Bool.and_eq_true, decide_eq_true_iff, decide_eq_true_iff, decide_eq_true_iff]
  exact ⟨fun h => ⟨fun y hy => h y (List.mem_append_right _ hy), fun y hy => h y (List.mem_append_left _ hy)⟩,
    fun h y hy => (List.mem_append.1 hy).elim (h.2 y) (h.1 y)⟩

/-- A page is of the list. -/
theorem page_subset (l : List (α × ℕ)) : ∀ x ∈ (page key n cap l).1, x ∈ l := by
  intro x hx
  cases hleft : (fill (Fits n cap) [] l).2 with
  | none =>
    rw [page_of_none hleft] at hx
    exact hx
  | some e =>
    rw [page_of_some hleft] at hx
    obtain ⟨r, hr⟩ := fill_of_some _ hleft
    rw [List.nil_append] at hr
    exact hr ▸ List.mem_append_left _ ((cutTie_isInitial _ _).subset hx)

/-- What is below a part is less, where the part has something of it. -/
theorem below_length_lt {p l : List (α × ℕ)} (hne : p ≠ []) (h : ∀ x ∈ p, x ∈ l) : (below key p l).length < l.length := by
  obtain ⟨x, q, rfl⟩ := List.exists_cons_of_ne_nil hne
  refine List.length_filter_lt_length_iff_exists.2 ⟨x, h x List.mem_cons_self, ?_⟩
  simp

/-- What is below a first part with greater keys is the rest. -/
theorem below_append {p r : List (α × ℕ)} (h : ∀ y ∈ p, ∀ x ∈ r, key x.1 < key y.1) :
    below key p (p ++ r) = r := by
  unfold below
  rw [List.filter_append, List.filter_eq_nil_iff.2, List.nil_append, List.filter_eq_self.2]
  · intro x hx
    exact decide_eq_true fun y hy => h y hy x hx
  · intro x hx hbad
    exact lt_irrefl _ (of_decide_eq_true hbad x hx)

/-- **A page and what is below it** are the list, where it is in descending order and its ties fit. -/
theorem page_append_below (hn : 1 ≤ n) {l : List (α × ℕ)} (hd : Descending key l) (hties : TiesFit key n cap l) {e : α × ℕ}
    (hleft : (fill (Fits n cap) [] l).2 = some e) :
    (page key n cap l).1 ++ below key (page key n cap l).1 l = l := by
  rw [page_of_some hleft]
  obtain ⟨r, hr⟩ := fill_of_some _ hleft
  have hne := takeWhile_ne_nil hn hd hties hleft
  rw [List.nil_append] at hr
  generalize (fill (Fits n cap) [] l).1 = p at hne hr
  have hd' : Descending key (p ++ e :: r) := hr ▸ hd
  have hsplit : l = p.takeWhile (fun y => key y.1 ≠ key e.1) ++
      (p.dropWhile (fun y => key y.1 ≠ key e.1) ++ e :: r) := by
    rw [← List.append_assoc, List.takeWhile_append_dropWhile, hr]
  have hrest : ∀ x ∈ p.dropWhile (fun y => key y.1 ≠ key e.1) ++ e :: r, key x.1 ≤ key e.1 := by
    intro x hx
    rcases List.mem_append.1 hx with hx | hx
    · exact le_of_mem_dropWhile hd' hx
    · rcases List.mem_cons.1 hx with rfl | hx
      · exact le_rfl
      · exact (List.pairwise_cons.1 (List.pairwise_append.1 hd').2.1).1 x hx
  have hbelow := below_append (r := p.dropWhile (fun y => key y.1 ≠ key e.1) ++ e :: r)
    fun y hy x hx => lt_of_le_of_lt (hrest x hx) (lt_of_mem_takeWhile hd' hy)
  rw [← hsplit] at hbelow
  unfold cutTie
  rw [if_neg hne]
  dsimp only
  rw [hbelow]
  exact hsplit.symm

/-- Something is on a page, if anything is left out. -/
theorem page_ne_nil (hn : 1 ≤ n) {l : List (α × ℕ)} {e : α × ℕ} (hleft : (fill (Fits n cap) [] l).2 = some e) :
    (page key n cap l).1 ≠ [] := by
  rw [page_of_some hleft]
  exact cutTie_ne_nil (fill_ne_nil hn hleft)

/-- **All members are received, in order**, from a list in descending order whose ties fit. -/
theorem walk_eq (hn : 1 ≤ n) {l : List (α × ℕ)} (hd : Descending key l) (hties : TiesFit key n cap l) {k : ℕ}
    (hk : l.length < k) : walk key n cap k l = l := by
  induction k generalizing l with
  | zero => exact absurd hk (Nat.not_lt_zero _)
  | succ k ih =>
    unfold walk
    cases hleft : (fill (Fits n cap) [] l).2 with
    | none => rw [page_of_none hleft]
    | some e =>
      have hsplit := page_append_below hn hd hties hleft
      have hlen : (below key (page key n cap l).1 l).length < l.length :=
        below_length_lt (page_ne_nil hn hleft) (page_subset l)
      rw [page_of_some hleft] at hsplit hlen ⊢
      dsimp only at hsplit hlen ⊢
      have hsub : (below key (cutTie key (key e.1) (fill (Fits n cap) [] l).1) l).Sublist l := below_sublist _ l
      rw [ih (hd.sublist hsub) (hties.of_sublist hsub) (by omega), hsplit]

/-! ### Pages that are cut by another key -/

section

variable {σ : Type} [LinearOrder σ] (shown : α → σ) (key n cap)

/-- What `k` pages come to, each cut by the key that is shown, and the next read below it by the other. -/
def walkShown : ℕ → List (α × ℕ) → List (α × ℕ)
  | 0, _ => []
  | k + 1, l =>
    match page shown n cap l with
    | (p, false) => p
    | (p, true) => p ++ walkShown k (below key p l)

/-- On each of `k` pages that leaves something out, the first member with the key of what is left out shows what that
shows. -/
def CutsClean : ℕ → List (α × ℕ) → Prop
  | 0, _ => True
  | k + 1, l =>
    match fill (Fits n cap) [] l with
    | (_, none) => True
    | (p, some e) => (∀ x ∈ p.find? fun x => key x.1 = key e.1, shown x.1 = shown e.1) ∧
        CutsClean k (below key (page key n cap l).1 l)

variable {shown key n cap} {l : List (α × ℕ)}

theorem walkShown_of_none (k : ℕ) (h : (fill (Fits n cap) [] l).2 = none) : walkShown key n cap shown (k + 1) l = l := by
  rw [walkShown, page_of_none h]

theorem walkShown_of_some (k : ℕ) {e : α × ℕ} (h : (fill (Fits n cap) [] l).2 = some e) :
    walkShown key n cap shown (k + 1) l =
      (page shown n cap l).1 ++ walkShown key n cap shown k (below key (page shown n cap l).1 l) := by
  rw [walkShown, page_of_some h]

omit [LinearOrder σ] in
theorem cutsClean_of_none (k : ℕ) (h : (fill (Fits n cap) [] l).2 = none) : CutsClean key n cap shown (k + 1) l := by
  rw [CutsClean]
  generalize fill (Fits n cap) [] l = filled at h
  obtain ⟨p, left⟩ := filled
  subst h
  trivial

omit [LinearOrder σ] in
theorem cutsClean_of_some (k : ℕ) {e : α × ℕ} (h : (fill (Fits n cap) [] l).2 = some e) :
    CutsClean key n cap shown (k + 1) l ↔
      (∀ x ∈ (fill (Fits n cap) [] l).1.find? fun x => key x.1 = key e.1, shown x.1 = shown e.1) ∧
        CutsClean key n cap shown k (below key (page key n cap l).1 l) := by
  rw [CutsClean]
  generalize fill (Fits n cap) [] l = filled at h
  obtain ⟨p, left⟩ := filled
  subst h
  rfl

/-- Whether pages are cut clean can be computed. -/
instance decidableCutsClean [DecidableEq σ] : ∀ (k : ℕ) (l : List (α × ℕ)), Decidable (CutsClean key n cap shown k l)
  | 0, _ => isTrue trivial
  | k + 1, l =>
    match h : (fill (Fits n cap) [] l).2 with
    | none => isTrue (cutsClean_of_none k h)
    | some e =>
      have := decidableCutsClean k (below key (page key n cap l).1 l)
      decidable_of_iff _ (cutsClean_of_some k h).symm

theorem page_isPrefix (l : List (α × ℕ)) : (page shown n cap l).1 <+: l := by
  cases hleft : (fill (Fits n cap) [] l).2 with
  | none =>
    rw [page_of_none hleft]
  | some e =>
    rw [page_of_some hleft]
    obtain ⟨r, hr⟩ := fill_of_some _ hleft
    rw [List.nil_append] at hr
    exact (cutTie_isInitial _ _).trans ⟨e :: r, hr.symm⟩

/-- Nothing of a first part is below it. -/
theorem below_eq_below_rest {p : List (α × ℕ)} (r : List (α × ℕ)) : below key p (p ++ r) = below key p r := by
  have hp : below key p p = [] := List.filter_eq_nil_iff.2 fun x hx hbad => lt_irrefl _ (of_decide_eq_true hbad x hx)
  unfold below at hp ⊢
  rw [List.filter_append, hp, List.nil_append]

/-- A page and what is below it are no more than the list. -/
theorem page_below_length (l : List (α × ℕ)) :
    (page shown n cap l).1.length + (below key (page shown n cap l).1 l).length ≤ l.length := by
  have hprefix : (page shown n cap l).1 <+: l := page_isPrefix l
  obtain ⟨r, hr⟩ := hprefix
  generalize (page shown n cap l).1 = p at hr
  subst hr
  rw [below_eq_below_rest, List.length_append]
  exact Nat.add_le_add_left (below_sublist p r).length_le _

theorem walkShown_length_le (k : ℕ) (l : List (α × ℕ)) : (walkShown key n cap shown k l).length ≤ l.length := by
  induction k generalizing l with
  | zero => exact Nat.zero_le _
  | succ k ih =>
    cases hleft : (fill (Fits n cap) [] l).2 with
    | none => rw [walkShown_of_none k hleft]
    | some e =>
      rw [walkShown_of_some k hleft, List.length_append]
      have hle : (page shown n cap l).1.length + (below key (page shown n cap l).1 l).length ≤ l.length :=
        page_below_length l
      have hrest := ih (below key (page shown n cap l).1 l)
      omega

/-- What is received is of the list, in its order. -/
theorem walkShown_sublist (k : ℕ) (l : List (α × ℕ)) : (walkShown key n cap shown k l).Sublist l := by
  induction k generalizing l with
  | zero => exact List.nil_sublist l
  | succ k ih =>
    cases hleft : (fill (Fits n cap) [] l).2 with
    | none =>
      rw [walkShown_of_none k hleft]
    | some e =>
      rw [walkShown_of_some k hleft]
      have hprefix : (page shown n cap l).1 <+: l := page_isPrefix l
      obtain ⟨r, hr⟩ := hprefix
      have hbelow : below key (page shown n cap l).1 ((page shown n cap l).1 ++ r) = _ := below_eq_below_rest r
      rw [hr] at hbelow
      rw [hbelow]
      have hrest := (ih (below key (page shown n cap l).1 r)).trans (below_sublist _ r)
      conv_rhs => rw [← hr]
      exact List.Sublist.append (List.Sublist.refl _) hrest

/-- More pages than members come to the same. -/
theorem walkShown_stable (hn : 1 ≤ n) {k k' : ℕ} (hk : l.length < k) (hk' : l.length < k') :
    walkShown key n cap shown k l = walkShown key n cap shown k' l := by
  induction k generalizing k' l with
  | zero => exact absurd hk (Nat.not_lt_zero _)
  | succ k ih =>
    obtain ⟨j, rfl⟩ := Nat.exists_eq_add_one_of_ne_zero (Nat.ne_of_gt (Nat.zero_lt_of_lt hk'))
    cases hleft : (fill (Fits n cap) [] l).2 with
    | none => rw [walkShown_of_none k hleft, walkShown_of_none j hleft]
    | some e =>
      have hlen : (below key (page shown n cap l).1 l).length < l.length :=
        below_length_lt (page_ne_nil hn hleft) (page_subset l)
      rw [walkShown_of_some k hleft, walkShown_of_some j hleft, ih (by omega) (show _ < j by omega)]

/-- Where the cut is clean, the page is the one that the other key cuts. -/
theorem page_shown_eq {e : α × ℕ} (hdet : ∀ x ∈ l, shown x.1 = shown e.1 → key x.1 = key e.1)
    (hleft : (fill (Fits n cap) [] l).2 = some e)
    (hclean : ∀ x ∈ (fill (Fits n cap) [] l).1.find? fun x => key x.1 = key e.1, shown x.1 = shown e.1) :
    page shown n cap l = page key n cap l := by
  rw [page_of_some hleft, page_of_some hleft]
  obtain ⟨r, hr⟩ := fill_of_some _ hleft
  rw [List.nil_append] at hr
  have hdet : ∀ x ∈ (fill (Fits n cap) [] l).1, shown x.1 = shown e.1 → key x.1 = key e.1 := fun x hx =>
    hdet x (hr ▸ List.mem_append_left _ hx)
  generalize (fill (Fits n cap) [] l).1 = p at hclean hdet
  have htake : (p.takeWhile fun x => shown x.1 ≠ shown e.1) = p.takeWhile fun x => key x.1 ≠ key e.1 := by
    induction p with
    | nil => rfl
    | cons x p ih =>
      by_cases hkey : key x.1 = key e.1
      · have hshown : shown x.1 = shown e.1 := hclean x (by simp [hkey])
        rw [List.takeWhile_cons_of_neg (by simpa using hshown), List.takeWhile_cons_of_neg (by simpa using hkey)]
      · have hshown : shown x.1 ≠ shown e.1 := fun h => hkey (hdet x List.mem_cons_self h)
        rw [List.takeWhile_cons_of_pos (by simpa using hshown), List.takeWhile_cons_of_pos (by simpa using hkey)]
        congr 1
        refine ih (fun y hy => hclean y ?_) fun y hy => hdet y (List.mem_cons_of_mem _ hy)
        simpa [List.find?_cons, hkey] using hy
  unfold cutTie
  rw [htake]

/-- Where it is not, members are lost. -/
theorem walkShown_lost {e x : α × ℕ} (k : ℕ) (hd : Descending key l)
    (hdet : ∀ x ∈ l, shown x.1 = shown e.1 → key x.1 = key e.1) (hleft : (fill (Fits n cap) [] l).2 = some e)
    (hfind : (fill (Fits n cap) [] l).1.find? (fun x => key x.1 = key e.1) = some x) (hne : shown x.1 ≠ shown e.1) :
    (walkShown key n cap shown (k + 1) l).length < l.length := by
  rw [walkShown_of_some k hleft, page_of_some hleft, List.length_append]
  obtain ⟨r, hr⟩ := fill_of_some _ hleft
  rw [List.nil_append] at hr
  generalize (fill (Fits n cap) [] l).1 = p at hr hfind
  obtain ⟨hkey, front, back, hp, hfront⟩ := List.find?_eq_some_iff_append.1 hfind
  have hkey : key x.1 = key e.1 := of_decide_eq_true hkey
  -- the page goes on behind `x`
  have hx : x ∈ cutTie shown (shown e.1) p := by
    have hpre : ∀ y ∈ front ++ [x], shown y.1 ≠ shown e.1 := by
      intro y hy
      rcases List.mem_append.1 hy with hy | hy
      · have hykey : key y.1 ≠ key e.1 := by simpa using hfront y hy
        have hyl : y ∈ l := by
          rw [hr, hp]
          simp [hy]
        exact fun h => hykey (hdet y hyl h)
      · exact (List.mem_singleton.1 hy).symm ▸ hne
    have htake : x ∈ p.takeWhile fun y => shown y.1 ≠ shown e.1 := by
      have hp' : p = (front ++ [x]) ++ back := by simp [hp]
      rw [hp', List.takeWhile_append_of_pos fun y hy => by simpa using hpre y hy]
      simp
    unfold cutTie
    split_ifs
    · rw [hp]
      simp
    · exact htake
  have hbelow : (below key (cutTie shown (shown e.1) p) l).length ≤ r.length := by
    have hd' : Descending key (p ++ e :: r) := hr ▸ hd
    have hnil : (p ++ [e]).filter (fun y => ∀ z ∈ cutTie shown (shown e.1) p, key y.1 < key z.1) = [] := by
      refine List.filter_eq_nil_iff.2 fun y hy hbad => ?_
      have hlt : key y.1 < key e.1 := hkey ▸ of_decide_eq_true hbad x hx
      rcases List.mem_append.1 hy with hy | hy
      · exact absurd ((List.pairwise_append.1 hd').2.2 y hy e List.mem_cons_self) (not_le.2 hlt)
      · rw [List.mem_singleton.1 hy] at hlt
        exact lt_irrefl _ hlt
    have hsplit : l = (p ++ [e]) ++ r := by simp [hr]
    unfold below
    rw [hsplit, List.filter_append, hnil, List.nil_append]
    exact List.length_filter_le _ _
  have hpage : (cutTie shown (shown e.1) p).length ≤ p.length := (cutTie_isInitial _ _).length_le
  have hwalk : (walkShown key n cap shown k (below key (cutTie shown (shown e.1) p) l)).length ≤ _ :=
    walkShown_length_le k _
  have hlen := congrArg List.length hr
  rw [List.length_append, List.length_cons] at hlen
  dsimp only
  omega

/-- **All members are received, in order**, exactly where each page is cut clean. -/
theorem walkShown_eq_iff (hn : 1 ≤ n) (hd : Descending key l) (hties : TiesFit key n cap l)
    (hdet : ∀ x ∈ l, ∀ y ∈ l, shown x.1 = shown y.1 → key x.1 = key y.1) {k : ℕ} (hk : l.length < k) :
    walkShown key n cap shown k l = l ↔ CutsClean key n cap shown k l := by
  induction k generalizing l with
  | zero => exact absurd hk (Nat.not_lt_zero _)
  | succ k ih =>
    cases hleft : (fill (Fits n cap) [] l).2 with
    | none =>
      exact iff_of_true (walkShown_of_none k hleft) (cutsClean_of_none k hleft)
    | some e =>
      have he : e ∈ l := by
        obtain ⟨r, hr⟩ := fill_of_some _ hleft
        rw [List.nil_append] at hr
        exact hr ▸ List.mem_append_right _ List.mem_cons_self
      have hdet' : ∀ x ∈ l, shown x.1 = shown e.1 → key x.1 = key e.1 := fun x hx => hdet x hx e he
      rw [cutsClean_of_some k hleft]
      by_cases hclean : ∀ x ∈ (fill (Fits n cap) [] l).1.find? fun x => key x.1 = key e.1, shown x.1 = shown e.1
      · have hsplit := page_append_below hn hd hties hleft
        have hlen : (below key (page key n cap l).1 l).length < l.length :=
          below_length_lt (page_ne_nil hn hleft) (page_subset l)
        rw [walkShown_of_some k hleft, page_shown_eq hdet' hleft hclean, and_iff_right hclean]
        generalize (page key n cap l).1 = p at hsplit hlen
        have hsub : (below key p l).Sublist l := below_sublist p l
        rw [← ih (hd.sublist hsub) (hties.of_sublist hsub)
          (fun x hx y hy => hdet x (hsub.subset hx) y (hsub.subset hy)) (by omega)]
        constructor
        · intro h
          exact List.append_cancel_left (h.trans hsplit.symm)
        · intro h
          rw [h]
          exact hsplit
      · refine iff_of_false ?_ fun h => hclean h.1
        simp only [Option.mem_def, not_forall] at hclean
        obtain ⟨x, hfind, hne⟩ := hclean
        intro heq
        exact absurd (congrArg List.length heq) (Nat.ne_of_lt (walkShown_lost k hd hdet' hleft hfind hne))

end

/-! ### Pages of one member -/

theorem fill_one (cap : ℕ) (x : α × ℕ) (l : List (α × ℕ)) :
    fill (Fits 1 cap) [] (x :: l) = ([x], l.head?) := by
  have hx : Fits 1 cap ([] ++ [x]) := ⟨le_rfl, .inl le_rfl⟩
  rw [fill, if_pos hx]
  cases l with
  | nil => rfl
  | cons y l =>
    have hy : ¬Fits 1 cap ([] ++ [x] ++ [y]) := fun h => absurd h.1 (by simp)
    rw [fill, if_neg hy]
    rfl

theorem page_one (cap : ℕ) (x : α × ℕ) (l : List (α × ℕ)) : page key 1 cap (x :: l) = ([x], !l.isEmpty) := by
  unfold page
  rw [fill_one]
  cases l with
  | nil => rfl
  | cons y l =>
    dsimp only [List.head?_cons]
    unfold cutTie
    by_cases h : key x.1 = key y.1 <;> simp [h]

theorem below_cons_sublist (x : α × ℕ) (l : List (α × ℕ)) : (below key [x] (x :: l)).Sublist l := by
  unfold below
  rw [List.filter_cons_of_neg (by simp)]
  exact List.filter_sublist

theorem walk_one_sublist (cap k : ℕ) (l : List (α × ℕ)) : (walk key 1 cap k l).Sublist l := by
  induction k generalizing l with
  | zero => exact List.nil_sublist l
  | succ k ih =>
    unfold walk
    cases l with
    | nil => exact List.Sublist.refl []
    | cons x l =>
      rw [page_one]
      cases l with
      | nil => exact List.Sublist.refl [x]
      | cons y l =>
        exact ((ih _).trans (below_cons_sublist x (y :: l))).cons_cons x

/-- **Strictly descending lists only**: where pages of one member come to as many members as there are, the keys descend
strictly. -/
theorem descending_of_walk {cap k : ℕ} {l : List (α × ℕ)} (h : (walk key 1 cap k l).length = l.length) :
    l.Pairwise fun x y => key y.1 < key x.1 := by
  have heq : walk key 1 cap k l = l := (walk_one_sublist cap k l).eq_of_length h
  clear h
  induction k generalizing l with
  | zero =>
    rw [← heq]
    exact .nil
  | succ k ih =>
    unfold walk at heq
    cases l with
    | nil => exact .nil
    | cons x l =>
      rw [page_one] at heq
      cases l with
      | nil => exact List.pairwise_singleton _ x
      | cons y l =>
        have hrest : walk key 1 cap k (below key [x] (x :: y :: l)) = y :: l := (List.cons.inj heq).2
        have hbelow : (below key [x] (x :: y :: l)).Sublist (y :: l) := below_cons_sublist x (y :: l)
        have hall : below key [x] (x :: y :: l) = y :: l := by
          have hwalk : (walk key 1 cap k (below key [x] (x :: y :: l))).Sublist (below key [x] (x :: y :: l)) :=
            walk_one_sublist cap k _
          have hlong := hwalk.length_le
          rw [hrest] at hlong
          exact hbelow.eq_of_length (le_antisymm hbelow.length_le hlong)
        rw [hall] at hrest
        refine List.pairwise_cons.2 ⟨fun z hz => ?_, ih hrest⟩
        have hz' : z ∈ below key [x] (x :: y :: l) := by rwa [hall]
        have hlt := (List.mem_filter.1 hz').2
        simpa using hlt

end Paging
