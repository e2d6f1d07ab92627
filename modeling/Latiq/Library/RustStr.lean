import Mathlib.Data.List.Infix
import Mathlib.Data.List.DropRight

/-!
# Rust's string functions

The functions of Rust's `str` that a program under verification calls, over
lists of characters. `isWhitespace` is the Unicode property `White_Space`.

The case mappings are exact for what programs look for in their results: the
ASCII characters. `toLowercase` and `toUppercase` map ASCII letters, and the
few other characters whose Unicode mapping has an ASCII character in it;
every other character they keep, where Unicode maps some of these to
characters that are outside ASCII again.
-/

namespace RustStr

/-- A string, as the list of its characters. -/
abbrev Text := List Char

instance : LawfulBEq Text := List.instLawfulBEq

/-- `char::is_whitespace`. -/
def isWhitespace (c : Char) : Bool :=
  (9 ≤ c.toNat && c.toNat ≤ 13) || c.toNat == 0x20 || c.toNat == 0x85 || c.toNat == 0xA0 || c.toNat == 0x1680 ||
    (0x2000 ≤ c.toNat && c.toNat ≤ 0x200A) || c.toNat == 0x2028 || c.toNat == 0x2029 || c.toNat == 0x202F ||
    c.toNat == 0x205F || c.toNat == 0x3000

/-- `str::trim_start`. -/
def trimStart (t : Text) : Text := t.dropWhile isWhitespace

/-- `str::trim_end`. -/
def trimEnd (t : Text) : Text := t.rdropWhile isWhitespace

/-- `str::trim`. -/
def trim (t : Text) : Text := trimEnd (trimStart t)

/-- `str::to_lowercase`, as far as ASCII characters come out of it. -/
def toLowercase (t : Text) : Text :=
  t.flatMap fun c =>
    if c.toNat = 0x212A then ['k']
    else if c.toNat = 0x130 then ['i', '\u0307']
    else [c.toLower]

/-- The characters outside ASCII whose uppercase has an ASCII character in it. -/
def upperSpecial : ℕ → Option Text
  | 0xDF => some ['S', 'S']
  | 0x131 => some ['I']
  | 0x149 => some ['\u02BC', 'N']
  | 0x17F => some ['S']
  | 0x1F0 => some ['J', '\u030C']
  | 0x1E96 => some ['H', '\u0331']
  | 0x1E97 => some ['T', '\u0308']
  | 0x1E98 => some ['W', '\u030A']
  | 0x1E99 => some ['Y', '\u030A']
  | 0x1E9A => some ['A', '\u02BE']
  | 0xFB00 => some ['F', 'F']
  | 0xFB01 => some ['F', 'I']
  | 0xFB02 => some ['F', 'L']
  | 0xFB03 => some ['F', 'F', 'I']
  | 0xFB04 => some ['F', 'F', 'L']
  | 0xFB05 => some ['S', 'T']
  | 0xFB06 => some ['S', 'T']
  | _ => none

/-- `str::to_uppercase`, as far as ASCII characters come out of it. -/
def toUppercase (t : Text) : Text := t.flatMap fun c => (upperSpecial c.toNat).getD [c.toUpper]

/-- `str::contains` of a string. -/
def contains (t pat : Text) : Bool := decide (pat <:+: t)

/-- `str::eq_ignore_ascii_case`. -/
def eqIgnoreAsciiCase (a b : Text) : Bool := a.map Char.toLower == b.map Char.toLower

/-- `str::replace` of one character. -/
def replaceChar (c : Char) (by_ : Text) (t : Text) : Text := t.flatMap fun d => if d = c then by_ else [d]

/-- `str::split_once`: what is before and behind the first `pat`. -/
def splitOnce (pat : Text) : Text → Option (Text × Text)
  | [] => if pat = [] then some ([], []) else none
  | c :: r =>
    if pat.isPrefixOf (c :: r) then some ([], (c :: r).drop pat.length)
    else (splitOnce pat r).map fun (a, b) => (c :: a, b)

/-- `str::lines`: the text cut behind each `\n`, without the `\n` or `\r\n`. -/
def lines : Text → List Text
  | [] => []
  | c :: r =>
    if c = '\n' then [] :: lines r
    else if c = '\r' ∧ r.head? = some '\n' then lines r
    else
      match lines r with
      | [] => [[c]]
      | l :: ls => (c :: l) :: ls

/-! ### Lines -/

/-- A line without a line feed, and no carriage return at its end. -/
theorem lines_append {t : Text} (r : Text) (hn : '\n' ∉ t) (hr : t.getLast? ≠ some '\r') :
    lines (t ++ '\n' :: r) = t :: lines r := by
  induction t with
  | nil => simp [lines]
  | cons c t ih =>
    have hc : c ≠ '\n' := fun h => hn (h ▸ List.mem_cons_self)
    have hcr : ¬(c = '\r' ∧ (t ++ '\n' :: r).head? = some '\n') := by
      rintro ⟨rfl, hhead⟩
      cases t with
      | nil => exact hr rfl
      | cons d t =>
        obtain rfl : d = '\n' := by simpa using hhead
        exact hn (List.mem_cons_of_mem _ List.mem_cons_self)
    have ht : t.getLast? ≠ some '\r' := by
      cases t with
      | nil => nofun
      | cons d t => rwa [List.getLast?_cons_cons] at hr
    rw [List.cons_append, lines, if_neg hc, if_neg hcr, ih (fun h => hn (List.mem_cons_of_mem _ h)) ht]

/-- Lines put together with line feeds, and one behind them, are read as they were. -/
theorem lines_intercalate {ts : List Text} (hne : ts ≠ []) (hn : ∀ t ∈ ts, '\n' ∉ t)
    (hr : ∀ t ∈ ts, t.getLast? ≠ some '\r') : lines (['\n'].intercalate ts ++ ['\n']) = ts := by
  induction ts with
  | nil => exact absurd rfl hne
  | cons t ts ih =>
    have htn := hn t List.mem_cons_self
    have htr := hr t List.mem_cons_self
    cases ts with
    | nil =>
      rw [List.intercalate_singleton, lines_append [] htn htr]
      rfl
    | cons u ts =>
      rw [List.intercalate_cons_cons, List.append_assoc, List.append_assoc, List.singleton_append, lines_append _ htn htr,
        ih (List.cons_ne_nil u ts) (fun t ht => hn t (List.mem_cons_of_mem _ ht))
          fun t ht => hr t (List.mem_cons_of_mem _ ht)]

/-! ### Splitting once -/

/-- What is before the separator, the separator, and what is behind it are the text. -/
theorem eq_of_splitOnce {pat t a b : Text} (h : splitOnce pat t = some (a, b)) : t = a ++ pat ++ b := by
  induction t generalizing a with
  | nil =>
    rw [splitOnce] at h
    split_ifs at h with hpat
    cases h
    rw [hpat]
    rfl
  | cons c r ih =>
    rw [splitOnce] at h
    split_ifs at h with hpre
    · cases h
      obtain ⟨rest, hrest⟩ := List.isPrefixOf_iff_prefix.1 hpre
      rw [← hrest, List.drop_left, List.nil_append]
    · obtain ⟨⟨a', b'⟩, hr, heq⟩ := Option.map_eq_some_iff.1 h
      cases heq
      rw [ih hr]
      rfl

/-- Where a text is split does not depend on what is behind the separator. -/
theorem splitOnce_behind {pat t a b : Text} (hne : pat ≠ []) (h : splitOnce pat t = some (a, b)) (b' : Text) :
    splitOnce pat (a ++ pat ++ b') = some (a, b') := by
  induction t generalizing a with
  | nil =>
    rw [splitOnce, if_neg hne] at h
    cases h
  | cons c r ih =>
    rw [splitOnce] at h
    split_ifs at h with hpre
    · cases h
      cases pat with
      | nil => exact absurd rfl hne
      | cons p pat =>
        have hself : (p :: pat).isPrefixOf (p :: (pat ++ b')) := List.isPrefixOf_iff_prefix.2 (List.prefix_append (p :: pat) b')
        rw [List.nil_append, List.cons_append, splitOnce, if_pos hself, ← List.cons_append, List.drop_left]
    · obtain ⟨⟨a', b''⟩, hr, heq⟩ := Option.map_eq_some_iff.1 h
      cases heq
      -- the separator that is behind is long enough to show any that would be in front
      have hlong : ¬pat.isPrefixOf (c :: (a' ++ pat ++ b')) := by
        intro hlong
        have hlen : pat.length ≤ (c :: (a' ++ pat)).length := by
          simp only [List.length_cons, List.length_append]
          omega
        have hshort : pat <+: c :: (a' ++ pat) := List.prefix_of_prefix_length_le (List.isPrefixOf_iff_prefix.1 hlong)
          (List.prefix_append (c :: (a' ++ pat)) b') hlen
        have htext : c :: (a' ++ pat) <+: c :: r := by
          rw [eq_of_splitOnce hr]
          exact List.prefix_append (c :: (a' ++ pat)) _
        exact hpre (List.isPrefixOf_iff_prefix.2 (hshort.trans htext))
      rw [List.cons_append, List.cons_append, splitOnce, if_neg hlong, ih hr]
      rfl

/-- A text without the character is not split at it, and no other is. -/
theorem splitOnce_eq_none {c : Char} {t : Text} : splitOnce [c] t = none ↔ c ∉ t := by
  induction t with
  | nil => simp [splitOnce]
  | cons d r ih =>
    rw [splitOnce]
    by_cases hd : c = d
    · subst hd
      simp
    · have hpre : ¬[c].isPrefixOf (d :: r) := fun hpre =>
        hd (List.cons_prefix_cons.1 (List.isPrefixOf_iff_prefix.1 hpre)).1
      rw [if_neg hpre, Option.map_eq_none_iff, ih, List.mem_cons]
      exact ⟨fun hr hmem => hmem.elim hd hr, fun hr hmem => hr (.inr hmem)⟩

theorem splitOnce_of_not_mem {c : Char} {a : Text} (h : c ∉ a) (b : Text) : splitOnce [c] (a ++ c :: b) = some (a, b) := by
  induction a with
  | nil => simp [splitOnce]
  | cons d a ih =>
    have hd : c ≠ d := fun hd => h (hd ▸ List.mem_cons_self)
    have hpre : ¬[c].isPrefixOf (d :: (a ++ c :: b)) := fun hpre =>
      hd (List.cons_prefix_cons.1 (List.isPrefixOf_iff_prefix.1 hpre)).1
    rw [List.cons_append, splitOnce, if_neg hpre, ih fun ha => h (List.mem_cons_of_mem _ ha)]
    rfl

/-- A text is split at the first occurrence of the character. -/
theorem splitOnce_eq_some {c : Char} {t a b : Text} : splitOnce [c] t = some (a, b) ↔ t = a ++ c :: b ∧ c ∉ a := by
  refine ⟨fun h => ⟨by rw [eq_of_splitOnce h, List.append_assoc, List.singleton_append], ?_⟩, ?_⟩
  · induction t generalizing a with
    | nil => cases h
    | cons d r ih =>
      rw [splitOnce] at h
      split_ifs at h with hpre
      · cases h
        exact List.not_mem_nil
      · obtain ⟨⟨a', b'⟩, hr, heq⟩ := Option.map_eq_some_iff.1 h
        cases heq
        intro hmem
        rcases List.mem_cons.1 hmem with rfl | hmem
        · exact hpre (List.isPrefixOf_iff_prefix.2 (List.prefix_append [c] r))
        · exact ih hr hmem
  · rintro ⟨rfl, ha⟩
    exact splitOnce_of_not_mem ha b

/-! ### Replacing a character -/

theorem replaceChar_append (c : Char) (by_ s t : Text) :
    replaceChar c by_ (s ++ t) = replaceChar c by_ s ++ replaceChar c by_ t := List.flatMap_append

theorem replaceChar_cons_self (c : Char) (by_ t : Text) : replaceChar c by_ (c :: t) = by_ ++ replaceChar c by_ t := by
  rw [replaceChar, List.flatMap_cons, if_pos rfl]
  rfl

theorem replaceChar_of_not_mem {c : Char} {t : Text} (h : c ∉ t) (by_ : Text) : replaceChar c by_ t = t := by
  induction t with
  | nil => rfl
  | cons d t ih =>
    have hd : d ≠ c := fun hd => h (hd ▸ List.mem_cons_self)
    have ht := ih fun ht => h (List.mem_cons_of_mem _ ht)
    rw [replaceChar, List.flatMap_cons, if_neg hd]
    exact congrArg (d :: ·) ht

/-! ### Trimming -/

theorem mem_of_mem_trim {t : Text} {c : Char} (h : c ∈ trim t) : c ∈ t :=
  (List.dropWhile_suffix _).subset ((List.rdropWhile_prefix _ _).subset h)

/-- A text without whitespace is trimmed. -/
theorem trim_of_not_isWhitespace {t : Text} (h : ∀ c ∈ t, isWhitespace c = false) : trim t = t := by
  have hstart : trimStart t = t := List.dropWhile_eq_self_iff.2 fun hl => by simp [h _ (List.getElem_mem hl)]
  rw [trim, hstart]
  exact List.rdropWhile_eq_self_iff.2 fun hl => by simp [h _ (List.getLast_mem hl)]

/-- A trimmed text is trimmed. -/
theorem trim_trim (t : Text) : trim (trim t) = trim t := by
  have hstart : trimStart (trim t) = trim t := by
    refine List.dropWhile_eq_self_iff.2 fun hl => ?_
    obtain ⟨suf, hsuf⟩ : trim t <+: trimStart t := List.rdropWhile_prefix _ _
    have hlen : 0 < (trimStart t).length := by
      rw [← hsuf, List.length_append]
      omega
    have hhead := List.dropWhile_eq_self_iff.1 (List.dropWhile_idempotent isWhitespace t) hlen
    have hsame : (trimStart t)[0] = (trim t)[0] := by
      simp only [← hsuf]
      exact List.getElem_append_left hl
    exact hsame ▸ hhead
  rw [trim, hstart]
  exact List.rdropWhile_idempotent _ _

/-! ### Splitting at one value -/

section

variable {α : Type*} [BEq α] [LawfulBEq α] {x : α}

theorem not_mem_of_mem_splitOn {xs l : List α} (h : l ∈ xs.splitOn x) : x ∉ l := by
  induction xs generalizing l with
  | nil =>
    rw [List.splitOn_nil, List.mem_singleton] at h
    rw [h]
    exact List.not_mem_nil
  | cons y ys ih =>
    rw [List.splitOn_cons_eq_if_modifyHead] at h
    split at h
    · rcases List.mem_cons.1 h with rfl | h
      · exact List.not_mem_nil
      · exact ih h
    · rename_i hyx
      obtain ⟨p, ps, hps⟩ := List.exists_cons_of_ne_nil (List.splitOn_ne_nil x ys)
      rw [hps, List.modifyHead_cons] at h
      rcases List.mem_cons.1 h with rfl | h
      · intro hmem
        rcases List.mem_cons.1 hmem with rfl | hmem
        · simp at hyx
        · exact ih (hps ▸ List.mem_cons_self ..) hmem
      · exact ih (hps ▸ List.mem_cons_of_mem _ h)

omit [BEq α] [LawfulBEq α] in
theorem intercalate_replicate_nil (p : List α) (n : ℕ) :
    [x].intercalate (p :: List.replicate n []) = p ++ List.replicate n x := by
  induction n generalizing p with
  | zero => simp
  | succ n ih => simp [List.replicate_succ, List.intercalate_cons_cons, ih]

/-- A list whose parts behind the first are empty. -/
theorem splitOn_eq_cons_replicate {xs p : List α} {n : ℕ} :
    xs.splitOn x = p :: List.replicate n [] ↔ xs = p ++ List.replicate n x ∧ x ∉ p := by
  rw [← intercalate_replicate_nil]
  constructor
  · intro h
    rw [← h, List.intercalate_splitOn]
    exact ⟨rfl, @not_mem_of_mem_splitOn _ _ _ _ xs _ (h ▸ List.mem_cons_self ..)⟩
  · rintro ⟨rfl, hp⟩
    refine List.splitOn_intercalate x ?_ (List.cons_ne_nil _ _)
    intro l hl
    rcases List.mem_cons.1 hl with rfl | hl
    · exact hp
    · rw [List.eq_of_mem_replicate hl]
      exact List.not_mem_nil

end

end RustStr
