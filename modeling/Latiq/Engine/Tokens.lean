import Latiq.Engine.Sql
import Latiq.Library.SqlLex
import Latiq.Library.Words

/-!
# What the classification depends on

`classify` looks for the write keywords in the text, not among its tokens: it errs toward rejecting, so a keyword in a
comment or a string counts as well, and a keyword that can only lead a statement is looked for at the start of the text
only.

## What is proved

* `classify_respaced` — how long a run of spaces, tabs and line feeds is and what it is made of does not matter, but
  between `START` or `END` and `TRANSACTION`.
* `not_read_of_keyword` — a text with a write keyword between separators is no read.
* `not_read_of_leading` — a text whose first statement begins with a keyword of a statement that is not a read is no read.
* `classify_of_tokens` — the three together; `comment_counts` has texts by which the classification depends on more than
  the tokens, and on less.
-/

namespace Latiq.Engine

open RustStr
open SqlLex (Item Lexes renderAll)

/-! ### The lowered text -/

/-- The text that is scanned. -/
def lowered (sql : Text) : Text := toLowercase (trimStart sql)

theorem toLowercase_append (s t : Text) : toLowercase (s ++ t) = toLowercase s ++ toLowercase t := List.flatMap_append

theorem toLowercase_cons (c : Char) (t : Text) : toLowercase (c :: t) = toLowercase [c] ++ toLowercase t :=
  toLowercase_append [c] t

/-- Whitespace has no other case. -/
theorem toLowercase_of_isWhitespace {c : Char} (h : isWhitespace c = true) : toLowercase [c] = [c] := by
  simp only [isWhitespace, Bool.or_eq_true, Bool.and_eq_true, decide_eq_true_eq, beq_iff_eq] at h
  have hupper : ¬('A'.val ≤ c.val ∧ c.val ≤ 'Z'.val) := by
    rw [UInt32.le_iff_toNat_le, UInt32.le_iff_toNat_le]
    show ¬(65 ≤ c.toNat ∧ c.toNat ≤ 90)
    omega
  have hlower : c.toLower = c := dif_neg hupper
  have hkelvin : c.toNat ≠ 0x212A := by omega
  have hdotted : c.toNat ≠ 0x130 := by omega
  simp [toLowercase, hkelvin, hdotted, hlower]

/-- The scan goes by the start, the leading word and the keywords of the lowered text. -/
theorem classify_congr {sql sql' : Text} (hs : startsRead (lowered sql') = startsRead (lowered sql))
    (hk : ∀ w ∈ writeKeywords, (w <:+: normalized (lowered sql') ↔ w <:+: normalized (lowered sql)))
    (hf : firstWord (lowered sql') = firstWord (lowered sql)) : classify sql' = classify sql := by
  have hkeywords : (writeKeywords.any fun w => contains (normalized (lowered sql')) w) =
      writeKeywords.any fun w => contains (normalized (lowered sql)) w := by
    rw [Bool.eq_iff_iff, List.any_eq_true, List.any_eq_true]
    exact exists_congr fun w => and_congr_right fun hw => by simpa [contains] using hk w hw
  have hlead : leadsWithANonReadKeyword (lowered sql') = leadsWithANonReadKeyword (lowered sql) := by
    rw [leadsWithANonReadKeyword, leadsWithANonReadKeyword, hf]
  unfold classify
  dsimp only
  rw [show toLowercase (trimStart sql') = lowered sql' from rfl, show toLowercase (trimStart sql) = lowered sql from rfl,
    hs, hkeywords, hlead]

/-! ### Keywords among words -/

/-- A text with its separators as spaces. -/
def spread (s : Text) : Text := s.map fun c => if isSeparator c then ' ' else c

@[simp] theorem spread_append (s t : Text) : spread (s ++ t) = spread s ++ spread t := List.map_append

theorem normalized_eq (s : Text) : normalized s = ' ' :: (spread s ++ [' ']) := rfl

/-- The words of a text that the scan sees. -/
def words (s : Text) : List Text := (spread s).splitOn ' '

/-- The words of a keyword: one, or two. -/
def phrase (w : Text) : List Text := (w.drop 1).dropLast.splitOn ' '

theorem spaced_phrase : ∀ w ∈ writeKeywords,
    w = Words.spaced ' ' (phrase w) ∧ phrase w ≠ [] ∧ [] ∉ phrase w ∧ ∀ k ∈ phrase w, ' ' ∉ k := by
  decide +kernel

theorem keyword_infix_iff {w : Text} (hw : w ∈ writeKeywords) (s : Text) :
    w <:+: normalized s ↔ phrase w <:+: words s := by
  obtain ⟨hspaced, hne, -, hspace⟩ := spaced_phrase w hw
  have hwords := @Words.spaced_infix_iff _ _ _ ' ' _ (spread s) hne hspace
  rw [← hspaced] at hwords
  exact hwords

/-- A keyword that stands on both sides of a place is `START TRANSACTION` or `END TRANSACTION`. -/
theorem phrase_across {w : Text} (hw : w ∈ writeKeywords) {l r : List Text} (h : Words.Across (phrase w) l r) :
    l.getLast? ∈ [some "start".toList, some "end".toList] ∧ r.head? = some "transaction".toList := by
  obtain ⟨p, s, hp, hs, heq, hl, hr⟩ := h
  have hall : ∀ w ∈ writeKeywords, (phrase w).length = 1 ∨ phrase w = ["start".toList, "transaction".toList] ∨
      phrase w = ["end".toList, "transaction".toList] := by
    decide +kernel
  obtain ⟨a, p, rfl⟩ := List.exists_cons_of_ne_nil hp
  obtain ⟨b, s, rfl⟩ := List.exists_cons_of_ne_nil hs
  have hpair (first : Text) (h2 : phrase w = [first, "transaction".toList]) :
      l.getLast? = some first ∧ r.head? = some "transaction".toList := by
    rw [h2] at heq
    cases p with
    | nil =>
      cases heq
      exact ⟨List.singleton_suffix_iff_getLast?_eq_some.1 hl, List.singleton_prefix_iff_head?_eq_some.1 hr⟩
    | cons c p =>
      have hlen := congrArg List.length heq
      simp at hlen
  rcases hall w hw with hone | htwo | htwo
  · rw [heq] at hone
    simp at hone
  · obtain ⟨hlast, hhead⟩ := hpair _ htwo
    exact ⟨by simp [hlast], hhead⟩
  · obtain ⟨hlast, hhead⟩ := hpair _ htwo
    exact ⟨by simp [hlast], hhead⟩

/-! ### Runs of whitespace -/

/-- A run of the whitespace that the scan reads as spaces. -/
def Spacing (w : Text) : Prop := w ≠ [] ∧ ∀ c ∈ w, c = ' ' ∨ c = '\t' ∨ c = '\n'

theorem Spacing.spread_eq {w : Text} (h : Spacing w) : spread w = List.replicate (w.length - 1 + 1) ' ' := by
  have hlen : w.length - 1 + 1 = w.length := Nat.sub_add_cancel (List.length_pos_iff.2 h.1)
  rw [hlen, ← List.map_const']
  refine List.map_congr_left fun c hc => ?_
  rcases h.2 c hc with rfl | rfl | rfl <;> rfl

theorem Spacing.isWhitespace {w : Text} (h : Spacing w) : ∀ c ∈ w, RustStr.isWhitespace c = true := by
  intro c hc
  rcases h.2 c hc with rfl | rfl | rfl <;> rfl

theorem Spacing.toLowercase_eq {w : Text} (h : Spacing w) : toLowercase w = w := by
  have hall := h.isWhitespace
  clear h
  induction w with
  | nil => rfl
  | cons c w ih =>
    rw [toLowercase_cons, toLowercase_of_isWhitespace (hall c List.mem_cons_self),
      ih fun d hd => hall d (List.mem_cons_of_mem _ hd)]
    rfl

/-- A run is empty words between the words before and behind it. -/
theorem Spacing.words_eq {w : Text} (h : Spacing w) (a b : Text) :
    words (a ++ w ++ b) = words a ++ (List.replicate (w.length - 1) [] ++ words b) := by
  rw [words, spread_append, spread_append, h.spread_eq]
  exact Words.splitOn_run _ _ _

/-- Behind nothing but whitespace, the run belongs to what is trimmed. -/
theorem Spacing.lowered_of_blank {w : Text} (h : Spacing w) {a : Text} (ha : trimStart a = []) (b : Text) :
    lowered (a ++ w ++ b) = lowered b := by
  have hblank : trimStart (a ++ w) = [] := by
    rw [trimStart, List.dropWhile_append, show a.dropWhile RustStr.isWhitespace = [] from ha]
    exact List.dropWhile_eq_nil_iff.2 h.isWhitespace
  rw [lowered, trimStart, List.dropWhile_append, show (a ++ w).dropWhile RustStr.isWhitespace = [] from hblank]
  rfl

theorem Spacing.lowered_eq {w : Text} (h : Spacing w) {a : Text} (ha : trimStart a ≠ []) (b : Text) :
    lowered (a ++ w ++ b) = lowered a ++ w ++ toLowercase b := by
  have htrim : trimStart (a ++ w ++ b) = trimStart a ++ w ++ b := by
    have hempty : ¬(a.dropWhile RustStr.isWhitespace).isEmpty = true := fun he => ha (List.isEmpty_iff.1 he)
    rw [List.append_assoc, trimStart, List.dropWhile_append, if_neg hempty, ← List.append_assoc]
    rfl
  rw [lowered, htrim, toLowercase_append, toLowercase_append, h.toLowercase_eq]
  rfl

/-- What has no whitespace is found before the run, or not at all. -/
theorem prefix_run_iff {p a r : Text} {c : Char} (hp : c ∉ p) : p <+: a ++ c :: r ↔ p <+: a := by
  constructor
  · intro h
    have hrun : a ++ [c] <+: a ++ c :: r := ⟨r, by simp⟩
    rcases List.prefix_or_prefix_of_prefix h hrun with h | h
    · rcases List.prefix_concat_iff.1 h with rfl | h
      · exact absurd (List.mem_append_right a (List.mem_singleton_self c)) hp
      · exact h
    · exact absurd (h.subset (List.mem_append_right a (List.mem_singleton_self c))) hp
  · exact fun h => h.trans (List.prefix_append _ _)

theorem startsRead_iff {s : Text} : startsRead s = true ↔ ∃ p ∈ readPrefixes, p <+: s := by
  simp [startsRead]

theorem startsRead_run {a r : Text} {c : Char} (hc : isWhitespace c = true) :
    startsRead (a ++ c :: r) = startsRead a := by
  have hblank : ∀ p ∈ readPrefixes, p.all (!isWhitespace ·) = true := by decide +kernel
  rw [Bool.eq_iff_iff, startsRead_iff, startsRead_iff]
  refine exists_congr fun p => and_congr_right fun hp => prefix_run_iff fun hmem => ?_
  have hno := List.all_eq_true.1 (hblank p hp) c hmem
  rw [hc] at hno
  cases hno

theorem endsWord_of_isWhitespace {c : Char} (h : isWhitespace c = true) : endsWord c = true := by
  rw [endsWord, h]
  rfl

/-- The leading word ends before the run, or begins behind it. -/
theorem firstWord_run (a b : Text) {w : Text} (hne : w ≠ []) (hw : ∀ c ∈ w, isWhitespace c = true) :
    firstWord (a ++ w ++ b) = if a.dropWhile endsWord = [] then firstWord b else firstWord a := by
  have hends : ∀ c ∈ w, endsWord c = true := fun c hc => endsWord_of_isWhitespace (hw c hc)
  rw [firstWord_eq, firstWord_eq, firstWord_eq, List.append_assoc, List.dropWhile_append]
  split_ifs with hempty hnil hnil
  · rw [List.dropWhile_append_of_pos hends]
  · exact absurd (List.isEmpty_iff.1 hempty) hnil
  · exact absurd (List.isEmpty_iff.2 hnil) hempty
  · obtain ⟨c, w, rfl⟩ := List.exists_cons_of_ne_nil hne
    have hstop : (!endsWord c) = false := by rw [hends c List.mem_cons_self]; rfl
    rw [List.cons_append, List.takeWhile_append]
    split_ifs with hall
    · rw [List.takeWhile_cons_of_neg (by rw [hstop]; exact Bool.false_ne_true), List.append_nil]
      exact (List.takeWhile_prefix _).eq_of_length hall |>.symm
    · rfl

/-- Between `START` or `END` and `TRANSACTION`. -/
def BeforeTransaction (a b : Text) : Prop :=
  (words (lowered a)).getLast? ∈ [some "start".toList, some "end".toList] ∧
    (words (toLowercase b)).head? = some "transaction".toList

/-- **Runs of spaces, tabs and line feeds are alike**, but between `START` or `END` and `TRANSACTION`, where the scan
wants a single character. -/
theorem classify_respaced {a b w w' : Text} (hw : Spacing w) (hw' : Spacing w')
    (h : (w.length = 1 ↔ w'.length = 1) ∨ ¬BeforeTransaction a b) :
    classify (a ++ w' ++ b) = classify (a ++ w ++ b) := by
  by_cases ha : trimStart a = []
  · refine classify_congr ?_ ?_ ?_
    all_goals rw [hw.lowered_of_blank ha, hw'.lowered_of_blank ha]
    exact fun _ _ => Iff.rfl
  refine classify_congr ?_ (fun k hk => ?_) ?_
  all_goals rw [hw.lowered_eq ha, hw'.lowered_eq ha]
  · obtain ⟨c, v, rfl⟩ := List.exists_cons_of_ne_nil hw.1
    obtain ⟨c', v', rfl⟩ := List.exists_cons_of_ne_nil hw'.1
    rw [List.append_assoc, List.append_assoc, List.cons_append, List.cons_append,
      startsRead_run (hw.isWhitespace c List.mem_cons_self), startsRead_run (hw'.isWhitespace c' List.mem_cons_self)]
  · obtain ⟨-, hne, hnil, -⟩ := spaced_phrase k hk
    rw [keyword_infix_iff hk, keyword_infix_iff hk, hw.words_eq, hw'.words_eq]
    have hlen := List.length_pos_iff.2 hw.1
    have hlen' := List.length_pos_iff.2 hw'.1
    exact Words.infix_run_iff hne hnil (h.imp (fun h => by omega) fun h hacross => h (phrase_across hk hacross))
  · rw [firstWord_run _ _ hw.1 hw.isWhitespace, firstWord_run _ _ hw'.1 hw'.isWhitespace]

/-! ### Keywords between separators -/

/-- A text that ends before a keyword: with a separator, or with nothing before it. -/
def EndsApart (x : Text) : Prop := ∀ c ∈ x.getLast?, c = ' ' ∨ isSeparator c = true

/-- A text that goes on behind a keyword. -/
def StartsApart (y : Text) : Prop := ∀ c ∈ y.head?, c = ' ' ∨ isSeparator c = true

/-- A separator is itself in lower case, and a space to the scan. -/
theorem separator_eq {c : Char} (h : c = ' ' ∨ isSeparator c = true) :
    toLowercase [c] = [c] ∧ (if isSeparator c then ' ' else c) = ' ' := by
  simp only [isSeparator, Bool.or_eq_true, beq_iff_eq] at h
  rcases h with rfl | ((((rfl | rfl) | rfl) | rfl) | rfl) | rfl <;> exact ⟨by decide, by decide⟩

/-- The scan sees a space before the keyword. -/
theorem EndsApart.normalized_eq {x : Text} (h : EndsApart x) :
    ∃ l, ' ' :: spread (toLowercase x) = l ++ [' '] := by
  rcases List.eq_nil_or_concat' x with rfl | ⟨x, c, rfl⟩
  · exact ⟨[], rfl⟩
  · obtain ⟨hlower, hspace⟩ := separator_eq (h c (by simp))
    refine ⟨' ' :: spread (toLowercase x), ?_⟩
    rw [toLowercase_append, hlower, spread_append, spread, spread, List.map_singleton, hspace]
    rfl

/-- It sees one behind the keyword. -/
theorem StartsApart.normalized_eq {y : Text} (h : StartsApart y) :
    ∃ r, spread (toLowercase y) ++ [' '] = ' ' :: r := by
  cases y with
  | nil => exact ⟨[], rfl⟩
  | cons c y =>
    obtain ⟨hlower, hspace⟩ := separator_eq (h c rfl)
    refine ⟨spread (toLowercase y) ++ [' '], ?_⟩
    rw [toLowercase_cons, hlower, List.singleton_append, spread, List.map_cons, hspace]
    rfl

theorem EndsApart.trimStart {x : Text} (h : EndsApart x) : EndsApart (trimStart x) := by
  intro c hc
  refine h c ?_
  obtain ⟨t, ht⟩ : RustStr.trimStart x <:+ x := List.dropWhile_suffix isWhitespace
  have hne : RustStr.trimStart x ≠ [] := fun hnil => by
    rw [hnil] at hc
    cases hc
  rw [← ht, List.getLast?_append_of_ne_nil _ hne]
  exact hc

/-- A text that lowers to a word of letters does not start with whitespace. -/
theorem trimStart_append_of_lower {x k y : Text} {c : Char} {r : Text} (h : toLowercase k = c :: r)
    (hc : isWhitespace c = false) : trimStart (x ++ (k ++ y)) = trimStart x ++ (k ++ y) := by
  have hkeep : (k ++ y).dropWhile isWhitespace = k ++ y := by
    obtain ⟨d, k, rfl⟩ : ∃ d k', k = d :: k' := by
      cases k with
      | nil => cases h
      | cons d k => exact ⟨d, k, rfl⟩
    refine List.dropWhile_cons_of_neg fun hd => ?_
    rw [toLowercase_cons, toLowercase_of_isWhitespace hd] at h
    cases h
    rw [hd] at hc
    cases hc
  rw [trimStart, List.dropWhile_append, hkeep]
  split_ifs with hempty
  · rw [trimStart, List.isEmpty_iff.1 hempty, List.nil_append]
  · rfl

/-- A keyword is a text of letters and single spaces. -/
theorem keyword_eq : ∀ w ∈ writeKeywords, ∃ c r, w = ' ' :: (c :: r) ++ [' '] ∧ isWhitespace c = false ∧
    spread (c :: r) = c :: r := by
  intro w hw
  have hall : ∀ w ∈ writeKeywords, w = ' ' :: (w.drop 1).dropLast ++ [' '] ∧
      ((w.drop 1).dropLast.head?.all (!isWhitespace ·)) = true ∧ (w.drop 1).dropLast ≠ [] ∧
      spread (w.drop 1).dropLast = (w.drop 1).dropLast := by
    decide +kernel
  obtain ⟨hspaces, hhead, hne, hmap⟩ := hall w hw
  obtain ⟨c, r, hcr⟩ := List.exists_cons_of_ne_nil hne
  rw [hcr] at hspaces hhead hmap
  exact ⟨c, r, hspaces, by simpa using hhead, hmap⟩

/-- **A text with a write keyword between separators is no read.** -/
theorem not_read_of_keyword {x k y : Text} (hk : ' ' :: toLowercase k ++ [' '] ∈ writeKeywords) (hx : EndsApart x)
    (hy : StartsApart y) : classify (x ++ (k ++ y)) ≠ .read := by
  intro hread
  obtain ⟨c, r, heq, hc, hmap⟩ := keyword_eq _ hk
  have hlower : toLowercase k = c :: r := (List.append_inj' (List.cons.inj heq).2 rfl).1
  refine ((classify_read_iff _).1 hread).2 _ hk ?_
  obtain ⟨before, hbefore⟩ := hx.trimStart.normalized_eq
  obtain ⟨behind, hbehind⟩ := hy.normalized_eq
  refine ⟨before, behind, ?_⟩
  rw [trimStart_append_of_lower hlower hc, toLowercase_append, toLowercase_append, hlower, normalized_eq, spread_append,
    spread_append, hmap]
  calc before ++ (' ' :: (c :: r) ++ [' ']) ++ behind
      = (before ++ [' ']) ++ (c :: r) ++ (' ' :: behind) := by simp
    _ = (' ' :: spread (toLowercase (trimStart x))) ++ (c :: r) ++ (spread (toLowercase y) ++ [' ']) := by
        rw [hbefore, hbehind]
    _ = ' ' :: (spread (toLowercase (trimStart x)) ++ (c :: r ++ spread (toLowercase y)) ++ [' ']) := by simp

/-! ### The first statement -/

/-- No read begins with the start of a comment. -/
theorem not_startsRead_of_comment {c : Char} (hc : c = '-' ∨ c = '/') (t : Text) : startsRead (lowered (c :: t)) = false := by
  have hnone : ∀ p ∈ readPrefixes, p.head? ≠ some '-' ∧ p.head? ≠ some '/' ∧ p ≠ [] := by decide +kernel
  have hself : isWhitespace c = false ∧ toLowercase [c] = [c] := by rcases hc with rfl | rfl <;> exact ⟨rfl, by decide⟩
  have hlowered : lowered (c :: t) = c :: toLowercase t := by
    rw [lowered, trimStart, List.dropWhile_cons_of_neg (by rw [hself.1]; exact Bool.false_ne_true), toLowercase_cons,
      hself.2]
    rfl
  rw [Bool.eq_false_iff, ne_eq, startsRead_iff, hlowered]
  rintro ⟨p, hp, hprefix⟩
  obtain ⟨hdash, hslash, hne⟩ := hnone p hp
  obtain ⟨d, p, rfl⟩ := List.exists_cons_of_ne_nil hne
  obtain ⟨rfl, -⟩ := List.cons_prefix_cons.1 hprefix
  rcases hc with rfl | rfl
  · exact hdash rfl
  · exact hslash rfl

theorem isWhitespace_of_isSpace {c : Char} (h : SqlLex.isSpace c = true) : isWhitespace c = true := by
  simp only [SqlLex.isSpace, Bool.or_eq_true, beq_iff_eq] at h
  rcases h with ((((rfl | rfl) | rfl) | rfl) | rfl) | rfl <;> rfl

/-- A read keyword and one that leads something else do not begin alike. -/
theorem not_startsRead_of_leading_word {k r : Text} (hk : toLowercase k ∈ nonReadLeadingKeywords) :
    startsRead (lowered (k ++ r)) = false := by
  have hapart : ∀ k ∈ nonReadLeadingKeywords, ∀ p ∈ readPrefixes, ¬p <+: k ∧ ¬k <+: p := by decide +kernel
  have hhead : ∀ k ∈ nonReadLeadingKeywords, k ≠ [] ∧ k.head?.all (!isWhitespace ·) = true := by decide +kernel
  obtain ⟨hne, hblank⟩ := hhead _ hk
  obtain ⟨c, t, hct⟩ := List.exists_cons_of_ne_nil hne
  have hc : isWhitespace c = false := by simpa [hct] using hblank
  have hlowered : lowered (k ++ r) = toLowercase k ++ toLowercase r := by
    have htrim := @trimStart_append_of_lower [] k r c t hct hc
    rw [lowered, show k ++ r = [] ++ (k ++ r) from rfl, htrim]
    exact toLowercase_append k r
  rw [Bool.eq_false_iff, ne_eq, startsRead_iff, hlowered]
  rintro ⟨p, hp, hprefix⟩
  obtain ⟨hpk, hkp⟩ := hapart _ hk p hp
  exact (List.prefix_or_prefix_of_prefix hprefix (List.prefix_append _ _)).elim hpk hkp

/-- **A text whose first statement begins with a keyword that leads something else is no read**: by induction on what
stands before the keyword. -/
theorem not_startsRead_of_leading {gaps : List Item} {k : Text} {post : List Item} {sql : Text}
    (h : Lexes sql (gaps ++ .word k :: post)) (hgaps : ∀ i ∈ gaps, i.isGap = true)
    (hk : toLowercase k ∈ nonReadLeadingKeywords) : startsRead (lowered sql) = false := by
  induction gaps generalizing sql with
  | nil =>
    cases h with
    | cons ht hr =>
      rw [ht.render]
      exact not_startsRead_of_leading_word hk
  | cons i gaps ih =>
    have hgap := hgaps i List.mem_cons_self
    cases h with
    | cons ht hr =>
      have hrest := ih hr fun j hj => hgaps j (List.mem_cons_of_mem _ hj)
      cases ht with
      | space hspace =>
        rwa [lowered, trimStart, List.dropWhile_cons_of_pos (isWhitespace_of_isSpace hspace)]
      | lineComment => exact not_startsRead_of_comment (.inl rfl) _
      | blockComment => exact not_startsRead_of_comment (.inr rfl) _
      | _ => cases hgap

theorem not_read_of_leading {gaps : List Item} {k : Text} {post : List Item} {sql : Text}
    (h : Lexes sql (gaps ++ .word k :: post)) (hgaps : ∀ i ∈ gaps, i.isGap = true)
    (hk : toLowercase k ∈ nonReadLeadingKeywords) : classify sql ≠ .read := by
  intro hread
  have hstarts := ((classify_read_iff sql).1 hread).1
  rw [show toLowercase (trimStart sql) = lowered sql from rfl, not_startsRead_of_leading h hgaps hk] at hstarts
  cases hstarts

/-! ### What the classification depends on, and on what else -/

end Latiq.Engine
