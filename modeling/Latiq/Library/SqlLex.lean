import Mathlib.Data.List.TakeWhile
import Mathlib.Tactic.Common

/-!
# Lexing SQL

The lexical grammar of a SQL dialect of the PostgreSQL family, over lists of
characters. An `Item` is one lexeme as it is written, with the whitespace and
the comments kept as items of their own, so that rendering the items of a text
gives the text back:

* whitespace: space, tab, line feed, vertical tab, form feed, carriage return;
* `-- …` to the end of the line, and `/* … */`, which nests;
* `'…'` with `''` for a quote, `E'…'` with backslash escapes as well,
  `$tag$ … $tag$`, and `"…"` with `""` for a quote;
* numbers with `_` between digits, a fraction and an exponent;
* words, and every other character by itself.

`lexItem` takes the first lexeme off a text, and fails where a literal or a
comment is not closed. `lex` repeats it to the end of the text.

## What is proved

* `lexItem_eq_some` — `lexItem` computes the relation `Takes`, which has one
  constructor for each kind of lexeme and says what the lexer looked at.
* `lex_eq_some` — `lex` computes the relation `Lexes`, whose induction is the
  one that proofs about the items of a text go by.
* `Takes.render` and `Lexes.render` — a lexed text is its items written out.
* `not_mem_of_undouble_eq` — a text that is put between quotes as it is.
-/

namespace SqlLex

/-- A text, as the list of its characters. -/
abbrev Text := List Char

/-- One lexeme, with its characters as written. -/
inductive Item where
  /-- A whitespace character. -/
  | space (c : Char)
  /-- `--` and what follows it on the line. -/
  | lineComment (body : Text)
  /-- `/*`, the body and `*/`. -/
  | blockComment (body : Text)
  /-- `'`, the body with its quotes doubled, and `'`. -/
  | str (body : Text)
  /-- `e` or `E` directly before a string in which a backslash escapes. -/
  | estr (e : Char) (body : Text)
  /-- `$tag$`, the body and `$tag$`. -/
  | dollar (tag body : Text)
  /-- `"`, the body with its quotes doubled, and `"`. -/
  | quoted (body : Text)
  /-- A numeric literal. -/
  | number (raw : Text)
  /-- An identifier or a keyword. -/
  | word (raw : Text)
  /-- Any other character. -/
  | punct (c : Char)
  deriving DecidableEq, Repr

namespace Item

/-- The item as it is written. -/
def render : Item → Text
  | space c => [c]
  | lineComment b => '-' :: '-' :: b
  | blockComment b => '/' :: '*' :: (b ++ ['*', '/'])
  | str b => '\'' :: (b ++ ['\''])
  | estr e b => e :: '\'' :: (b ++ ['\''])
  | dollar t b => '$' :: (t ++ '$' :: (b ++ '$' :: (t ++ ['$'])))
  | quoted b => '"' :: (b ++ ['"'])
  | number r => r
  | word r => r
  | punct c => [c]

/-- Whitespace and comments separate tokens and are none themselves. -/
def isGap : Item → Bool
  | space _ | lineComment _ | blockComment _ => true
  | _ => false

end Item

/-! ### Characters -/

/-- The whitespace of the grammar. -/
def isSpace (c : Char) : Bool :=
  c == ' ' || c == '\t' || c == '\n' || c == '\x0b' || c == '\x0c' || c == '\r'

/-- The characters a line comment stops before. -/
def isNewline (c : Char) : Bool := c == '\n' || c == '\r'

/-- A word starts with a letter, an underscore or a character outside ASCII. -/
def isWordStart (c : Char) : Bool := c.isAlpha || c == '_' || decide (128 ≤ c.toNat)

/-- A word goes on with these, digits and `$`. -/
def isWordChar (c : Char) : Bool := isWordStart c || c.isDigit || c == '$'

/-- The tag of a dollar quote is a word without `$`. -/
def isTagChar (c : Char) : Bool := isWordStart c || c.isDigit

/-- Whether a text starts with a character of the class. -/
def startsWith (p : Char → Bool) : Text → Bool
  | [] => false
  | c :: _ => p c

/-! ### Scanners, each from behind its opening delimiter

Each gives the body of the lexeme and what follows its closing delimiter. -/

/-- Up to the closing quote `q`, a doubled quote being part of the body. -/
def scanQuote (q : Char) : Text → Option (Text × Text)
  | [] => none
  | [c] => if c = q then some ([], []) else none
  | c :: d :: r =>
    if c = q then
      if d = q then (scanQuote q r).map fun (b, t) => (c :: d :: b, t) else some ([], d :: r)
    else (scanQuote q (d :: r)).map fun (b, t) => (c :: b, t)

/-- Up to the closing quote, a backslash taking the character after it along. -/
def scanEscape : Text → Option (Text × Text)
  | [] => none
  | [c] => if c = '\'' then some ([], []) else none
  | c :: d :: r =>
    if c = '\\' then (scanEscape r).map fun (b, t) => (c :: d :: b, t)
    else if c = '\'' then
      if d = '\'' then (scanEscape r).map fun (b, t) => (c :: d :: b, t) else some ([], d :: r)
    else (scanEscape (d :: r)).map fun (b, t) => (c :: b, t)

/-- Up to the `*/` that closes the comment, with `depth` comments open inside it. -/
def scanBlock (depth : ℕ) : Text → Option (Text × Text)
  | [] => none
  | [_] => none
  | c :: d :: r =>
    if c = '*' ∧ d = '/' then
      match depth with
      | 0 => some ([], r)
      | n + 1 => (scanBlock n r).map fun (b, t) => (c :: d :: b, t)
    else if c = '/' ∧ d = '*' then (scanBlock (depth + 1) r).map fun (b, t) => (c :: d :: b, t)
    else (scanBlock depth (d :: r)).map fun (b, t) => (c :: b, t)

/-- `dropPrefix? p t`: what follows `p` in `t`, if `t` starts with it. -/
def dropPrefix? : Text → Text → Option Text
  | [], t => some t
  | _ :: _, [] => none
  | a :: p, b :: t => if a = b then dropPrefix? p t else none

/-- Up to the first occurrence of `close`. -/
def scanUntil (close : Text) : Text → Option (Text × Text)
  | [] => (dropPrefix? close []).map fun t => ([], t)
  | c :: r =>
    match dropPrefix? close (c :: r) with
    | some t => some ([], t)
    | none => (scanUntil close r).map fun (b, t) => (c :: b, t)

/-- The tag of a dollar quote and what follows the `$` that ends it. -/
def scanTag (t : Text) : Option (Text × Text) :=
  match t.dropWhile isTagChar with
  | '$' :: r =>
    if startsWith Char.isDigit (t.takeWhile isTagChar) then none else some (t.takeWhile isTagChar, r)
  | _ => none

/-- The digits at the start of a text, with the underscores that a digit follows. -/
def scanDigits : Text → Text × Text
  | [] => ([], [])
  | c :: r =>
    if c.isDigit ∨ (c = '_' ∧ startsWith Char.isDigit r) then (c :: (scanDigits r).1, (scanDigits r).2)
    else ([], c :: r)

/-- The fraction of a number: a point, and the digits after it if there are any. -/
def scanFraction : Text → Text × Text
  | [] => ([], [])
  | c :: r =>
    if c = '.' then
      if startsWith Char.isDigit r then ('.' :: (scanDigits r).1, (scanDigits r).2) else (['.'], r)
    else ([], c :: r)

/-- The exponent of a number; `e` without digits behind it is none. -/
def scanExponent : Text → Text × Text
  | e :: s :: r =>
    if (e = 'e' ∨ e = 'E') ∧ s.isDigit then (e :: (scanDigits (s :: r)).1, (scanDigits (s :: r)).2)
    else if (e = 'e' ∨ e = 'E') ∧ (s = '+' ∨ s = '-') ∧ startsWith Char.isDigit r then
      (e :: s :: (scanDigits r).1, (scanDigits r).2)
    else ([], e :: s :: r)
  | t => ([], t)

/-- A number, from its first digit or the point before its first digit. -/
def scanNumber (t : Text) : Text × Text :=
  let (i, t₁) := scanDigits t
  let (f, t₂) := scanFraction t₁
  let (e, t₃) := scanExponent t₂
  (i ++ f ++ e, t₃)

/-- Whether a number starts here. -/
def startsNumber : Text → Bool
  | [] => false
  | c :: r => c.isDigit || (c == '.' && startsWith Char.isDigit r)

/-! ### The lexer -/

/-- The first lexeme of a text and the rest of the text. It fails at the end of the text and
where the first lexeme is not closed. -/
def lexItem : Text → Option (Item × Text)
  | [] => none
  | c :: r =>
    if isSpace c then some (.space c, r)
    else if c = '-' ∧ startsWith (· == '-') r then
      some (.lineComment (r.tail.takeWhile (!isNewline ·)), r.tail.dropWhile (!isNewline ·))
    else if c = '/' ∧ startsWith (· == '*') r then
      (scanBlock 0 r.tail).map fun (b, t) => (.blockComment b, t)
    else if c = '\'' then (scanQuote '\'' r).map fun (b, t) => (.str b, t)
    else if c = '"' then (scanQuote '"' r).map fun (b, t) => (.quoted b, t)
    else if (c = 'e' ∨ c = 'E') ∧ startsWith (· == '\'') r then
      (scanEscape r.tail).map fun (b, t) => (.estr c b, t)
    else if c = '$' then
      match scanTag r with
      | some (tag, r') => (scanUntil ('$' :: (tag ++ ['$'])) r').map fun (b, t) => (.dollar tag b, t)
      | none => some (.punct c, r)
    else if startsNumber (c :: r) then
      some (.number (scanNumber (c :: r)).1, (scanNumber (c :: r)).2)
    else if isWordStart c then
      some (.word ((c :: r).takeWhile isWordChar), (c :: r).dropWhile isWordChar)
    else some (.punct c, r)

/-- The items of a text, with fuel for that many. -/
def lexFuel : ℕ → Text → Option (List Item)
  | _, [] => some []
  | 0, _ :: _ => none
  | n + 1, c :: r => do
    let (i, t) ← lexItem (c :: r)
    let is ← lexFuel n t
    return i :: is

/-- The items of a text, or nothing where a literal or a comment is not closed. -/
def lex (t : Text) : Option (List Item) := lexFuel t.length t

/-- The items written out. -/
def renderAll (is : List Item) : Text := is.flatMap Item.render

@[simp] theorem renderAll_nil : renderAll [] = [] := rfl

@[simp] theorem renderAll_cons (i : Item) (is : List Item) : renderAll (i :: is) = i.render ++ renderAll is := rfl

@[simp] theorem renderAll_append (is js : List Item) : renderAll (is ++ js) = renderAll is ++ renderAll js :=
  List.flatMap_append

/-! ### A scanned lexeme, written out, is what was scanned -/

theorem scanQuote_eq {q : Char} {t b r : Text} (h : scanQuote q t = some (b, r)) : t = b ++ q :: r := by
  induction t using scanQuote.induct q generalizing b r with
  | case1 => simp [scanQuote] at h
  | case2 => simp_all [scanQuote]
  | case3 c hc => simp [scanQuote, hc] at h
  | case4 r' ih =>
    simp only [scanQuote, if_pos, Option.map_eq_some_iff, Prod.mk.injEq, Prod.exists] at h
    obtain ⟨b', t', h', rfl, rfl⟩ := h
    simp [ih h']
  | case5 d r' hd => simp_all [scanQuote]
  | case6 c d r' hc ih =>
    simp only [scanQuote, if_neg hc, Option.map_eq_some_iff, Prod.mk.injEq, Prod.exists] at h
    obtain ⟨b', t', h', rfl, rfl⟩ := h
    simp [ih h']

theorem scanEscape_eq {t b r : Text} (h : scanEscape t = some (b, r)) : t = b ++ '\'' :: r := by
  induction t using scanEscape.induct generalizing b r with
  | case1 => simp [scanEscape] at h
  | case2 => simp_all [scanEscape]
  | case3 c hc => simp [scanEscape, hc] at h
  | case4 d r' ih =>
    simp only [scanEscape, if_pos, Option.map_eq_some_iff, Prod.mk.injEq, Prod.exists] at h
    obtain ⟨b', t', h', rfl, rfl⟩ := h
    simp [ih h']
  | case5 r' hc ih =>
    simp only [scanEscape, if_neg hc, if_pos, Option.map_eq_some_iff, Prod.mk.injEq, Prod.exists] at h
    obtain ⟨b', t', h', rfl, rfl⟩ := h
    simp [ih h']
  | case6 d r' hc hd => simp_all [scanEscape]
  | case7 c d r' hc hc' ih =>
    simp only [scanEscape, if_neg hc, if_neg hc', Option.map_eq_some_iff, Prod.mk.injEq, Prod.exists] at h
    obtain ⟨b', t', h', rfl, rfl⟩ := h
    simp [ih h']

theorem scanBlock_eq {n : ℕ} {t b r : Text} (h : scanBlock n t = some (b, r)) : t = b ++ '*' :: '/' :: r := by
  induction n, t using scanBlock.induct generalizing b r with
  | case1 | case2 => simp [scanBlock] at h
  | case3 c d r' hc => simp_all [scanBlock]
  | case4 c d r' hc n ih =>
    simp only [scanBlock, if_pos hc, Option.map_eq_some_iff, Prod.mk.injEq, Prod.exists] at h
    obtain ⟨b', t', h', rfl, rfl⟩ := h
    simp [ih h']
  | case5 n c d r' hc hc' ih =>
    simp only [scanBlock, if_neg hc, if_pos hc', Option.map_eq_some_iff, Prod.mk.injEq, Prod.exists] at h
    obtain ⟨b', t', h', rfl, rfl⟩ := h
    simp [ih h']
  | case6 n c d r' hc hc' ih =>
    simp only [scanBlock, if_neg hc, if_neg hc', Option.map_eq_some_iff, Prod.mk.injEq, Prod.exists] at h
    obtain ⟨b', t', h', rfl, rfl⟩ := h
    simp [ih h']

theorem dropPrefix?_eq {p t r : Text} : dropPrefix? p t = some r ↔ t = p ++ r := by
  induction p generalizing t with
  | nil => simp [dropPrefix?]
  | cons a p ih =>
    cases t with
    | nil => simp [dropPrefix?]
    | cons b t =>
      by_cases hab : a = b
      · simp [dropPrefix?, hab, ih]
      · simp [dropPrefix?, hab, Ne.symm hab]

theorem scanUntil_eq {close t b r : Text} (h : scanUntil close t = some (b, r)) : t = b ++ close ++ r := by
  induction t generalizing b r with
  | nil =>
    simp only [scanUntil, Option.map_eq_some_iff, Prod.mk.injEq] at h
    obtain ⟨t', h', rfl, rfl⟩ := h
    simpa using dropPrefix?_eq.1 h'
  | cons c t ih =>
    rw [scanUntil] at h
    split at h
    · rename_i t' h'
      simp only [Option.some.injEq, Prod.mk.injEq] at h
      obtain ⟨rfl, rfl⟩ := h
      simpa using dropPrefix?_eq.1 h'
    · simp only [Option.map_eq_some_iff, Prod.mk.injEq, Prod.exists] at h
      obtain ⟨b', t', h', rfl, rfl⟩ := h
      simp [ih h']

theorem scanTag_eq {t tag r : Text} (h : scanTag t = some (tag, r)) : t = tag ++ '$' :: r := by
  unfold scanTag at h
  split at h
  · rename_i r' hr
    split at h
    · simp at h
    · simp only [Option.some.injEq, Prod.mk.injEq] at h
      obtain ⟨rfl, rfl⟩ := h
      rw [← hr, List.takeWhile_append_dropWhile]
  · simp at h

theorem scanDigits_eq (t : Text) : t = (scanDigits t).1 ++ (scanDigits t).2 := by
  induction t with
  | nil => rfl
  | cons c r ih =>
    unfold scanDigits
    split
    · simpa using ih
    · rfl

theorem scanFraction_eq (t : Text) : t = (scanFraction t).1 ++ (scanFraction t).2 := by
  unfold scanFraction
  split
  · rfl
  · split
    · split
      · simpa [*] using scanDigits_eq _
      · simp [*]
    · rfl

theorem scanExponent_eq (t : Text) : t = (scanExponent t).1 ++ (scanExponent t).2 := by
  unfold scanExponent
  split
  · split
    · simpa using scanDigits_eq _
    · split
      · simpa using scanDigits_eq _
      · rfl
  · rfl

theorem scanNumber_eq (t : Text) : t = (scanNumber t).1 ++ (scanNumber t).2 := by
  simp only [scanNumber, List.append_assoc]
  rw [← scanExponent_eq, ← scanFraction_eq, ← scanDigits_eq]

/-! ### The first lexeme, by its kind -/

/-- `Takes t i r`: the first lexeme of `t` is `i` and `r` is the rest, with what the lexer looked
at to decide so. -/
inductive Takes : Text → Item → Text → Prop where
  /-- A whitespace character. -/
  | space {c : Char} {r : Text} : isSpace c → Takes (c :: r) (.space c) r
  /-- A line comment goes on to the end of the line. -/
  | lineComment {b r : Text} : (∀ c ∈ b, isNewline c = false) → (r = [] ∨ startsWith isNewline r) →
      Takes ('-' :: '-' :: (b ++ r)) (.lineComment b) r
  /-- A block comment that is closed. -/
  | blockComment {t b r : Text} : scanBlock 0 t = some (b, r) → Takes ('/' :: '*' :: t) (.blockComment b) r
  /-- A string that is closed. -/
  | str {t b r : Text} : scanQuote '\'' t = some (b, r) → Takes ('\'' :: t) (.str b) r
  /-- A quoted identifier that is closed. -/
  | quoted {t b r : Text} : scanQuote '"' t = some (b, r) → Takes ('"' :: t) (.quoted b) r
  /-- A string with escapes that is closed. -/
  | estr {e : Char} {t b r : Text} : e = 'e' ∨ e = 'E' → scanEscape t = some (b, r) →
      Takes (e :: '\'' :: t) (.estr e b) r
  /-- A dollar quote that is closed. -/
  | dollar {t tag t' b r : Text} : scanTag t = some (tag, t') → scanUntil ('$' :: (tag ++ ['$'])) t' = some (b, r) →
      Takes ('$' :: t) (.dollar tag b) r
  /-- A number. -/
  | number {t n r : Text} : startsNumber t → scanNumber t = (n, r) → Takes t (.number n) r
  /-- A word goes on for as long as there are characters of words. -/
  | word {c : Char} {w r : Text} : isWordStart c → (∀ d ∈ w, isWordChar d) → startsWith isWordChar r = false →
      ¬((c = 'e' ∨ c = 'E') ∧ startsWith (· == '\'') (w ++ r)) → Takes (c :: (w ++ r)) (.word (c :: w)) r
  /-- Another character, if no lexeme of another kind starts with it. -/
  | punct {c : Char} {r : Text} : isSpace c = false → isWordStart c = false → c ≠ '\'' → c ≠ '"' →
      startsNumber (c :: r) = false → ¬(c = '-' ∧ startsWith (· == '-') r) → ¬(c = '/' ∧ startsWith (· == '*') r) →
      ¬(c = '$' ∧ (scanTag r).isSome) → Takes (c :: r) (.punct c) r

theorem exists_of_startsWith {p : Char → Bool} {t : Text} (h : startsWith p t) : ∃ c r, t = c :: r ∧ p c := by
  cases t with
  | nil => simp [startsWith] at h
  | cons c r => exact ⟨c, r, rfl, h⟩

theorem startsWith_dropWhile (p : Char → Bool) (t : Text) : startsWith p (t.dropWhile p) = false := by
  induction t with
  | nil => rfl
  | cons c r ih =>
    rw [List.dropWhile_cons]
    split
    · exact ih
    · simpa [startsWith] using ‹¬p c›

theorem eq_nil_or_startsWith_not {p : Char → Bool} {t : Text} (h : startsWith p t = false) :
    t = [] ∨ startsWith (!p ·) t := by
  cases t with
  | nil => exact .inl rfl
  | cons c r => exact .inr (by simpa [startsWith] using h)

/-- What the lexer does, read off its answer. -/
theorem takes_of_lexItem {t r : Text} {i : Item} (h : lexItem t = some (i, r)) : Takes t i r := by
  cases t with
  | nil => simp [lexItem] at h
  | cons c t =>
    rw [lexItem] at h
    split_ifs at h with h₁ h₂ h₃ h₄ h₅ h₆ h₇ h₈ h₉
    · simp only [Option.some.injEq, Prod.mk.injEq] at h
      obtain ⟨rfl, rfl⟩ := h
      exact .space h₁
    · obtain ⟨rfl, h₂⟩ := h₂
      obtain ⟨d, t, rfl, hd⟩ := exists_of_startsWith h₂
      simp only [beq_iff_eq] at hd
      simp only [List.tail_cons, Option.some.injEq, Prod.mk.injEq] at h
      obtain ⟨rfl, rfl⟩ := h
      subst hd
      have hr := eq_nil_or_startsWith_not (startsWith_dropWhile (!isNewline ·) t)
      simp only [Bool.not_not] at hr
      have := @Takes.lineComment (t.takeWhile (!isNewline ·)) (t.dropWhile (!isNewline ·))
        (fun c hc => by simpa using List.mem_takeWhile_imp hc) hr
      rwa [List.takeWhile_append_dropWhile] at this
    · obtain ⟨rfl, h₃⟩ := h₃
      obtain ⟨d, t, rfl, hd⟩ := exists_of_startsWith h₃
      simp only [beq_iff_eq] at hd
      simp only [List.tail_cons, Option.map_eq_some_iff, Prod.mk.injEq, Prod.exists] at h
      obtain ⟨b, t', h, rfl, rfl⟩ := h
      subst hd
      exact .blockComment h
    · simp only [Option.map_eq_some_iff, Prod.mk.injEq, Prod.exists] at h
      obtain ⟨b, t', h, rfl, rfl⟩ := h
      subst h₄
      exact .str h
    · simp only [Option.map_eq_some_iff, Prod.mk.injEq, Prod.exists] at h
      obtain ⟨b, t', h, rfl, rfl⟩ := h
      subst h₅
      exact .quoted h
    · obtain ⟨he, h₆⟩ := h₆
      obtain ⟨d, t, rfl, hd⟩ := exists_of_startsWith h₆
      simp only [beq_iff_eq] at hd
      simp only [List.tail_cons, Option.map_eq_some_iff, Prod.mk.injEq, Prod.exists] at h
      obtain ⟨b, t', h, rfl, rfl⟩ := h
      subst hd
      exact .estr he h
    · subst h₇
      split at h
      · rename_i tag t' htag
        simp only [Option.map_eq_some_iff, Prod.mk.injEq, Prod.exists] at h
        obtain ⟨b, t', h, rfl, rfl⟩ := h
        exact .dollar htag h
      · rename_i htag
        simp only [Option.some.injEq, Prod.mk.injEq] at h
        obtain ⟨rfl, rfl⟩ := h
        exact .punct (by decide) (by decide) (by decide) (by decide) (by simp [startsNumber]) (by simp) (by simp)
          (by simp [htag])
    · simp only [Option.some.injEq, Prod.mk.injEq] at h
      obtain ⟨rfl, rfl⟩ := h
      exact .number h₈ rfl
    · simp only [Option.some.injEq, Prod.mk.injEq] at h
      obtain ⟨rfl, rfl⟩ := h
      have hc : isWordChar c := by simp [isWordChar, h₉]
      have := @Takes.word c (t.takeWhile isWordChar) (t.dropWhile isWordChar) h₉
        (fun d hd => List.mem_takeWhile_imp hd) (startsWith_dropWhile _ t)
      simp only [List.takeWhile_append_dropWhile] at this
      simpa [hc] using this h₆
    · simp only [Option.some.injEq, Prod.mk.injEq] at h
      obtain ⟨rfl, rfl⟩ := h
      exact .punct (by simpa using h₁) (by simpa using h₉) h₄ h₅ (by simpa using h₈) h₂ h₃ (fun hc => h₇ hc.1)

/-- The first lexeme of a text, written out, and the rest are the text. -/
theorem Takes.render {t r : Text} {i : Item} (h : Takes t i r) : t = i.render ++ r := by
  cases h with
  | space h => rfl
  | lineComment => rfl
  | blockComment h => simp [Item.render, scanBlock_eq h]
  | str h => simp [Item.render, scanQuote_eq h]
  | quoted h => simp [Item.render, scanQuote_eq h]
  | estr he h => simp [Item.render, scanEscape_eq h]
  | dollar htag h => simp [Item.render, scanTag_eq htag, scanUntil_eq h]
  | number hs h =>
    have := scanNumber_eq t
    rwa [h] at this
  | word => rfl
  | punct => rfl

theorem scanNumber_ne_nil {t : Text} (h : startsNumber t) : (scanNumber t).1 ≠ [] := by
  cases t with
  | nil => simp [startsNumber] at h
  | cons c r =>
    simp only [startsNumber, Bool.or_eq_true, Bool.and_eq_true, beq_iff_eq] at h
    rcases h with hd | ⟨rfl, hr⟩
    · simp [scanNumber, scanDigits, hd]
    · simp [scanNumber, scanDigits, scanFraction, hr]

/-- The characters of a number. -/
def isNumberChar (c : Char) : Bool := c.isDigit || c == '_' || c == '.' || c == 'e' || c == 'E' || c == '+' || c == '-'

theorem isNumberChar_of_mem_scanDigits {t : Text} {c : Char} (h : c ∈ (scanDigits t).1) : isNumberChar c := by
  induction t with
  | nil => cases h
  | cons d r ih =>
    rw [scanDigits] at h
    split at h
    · rename_i hd
      rcases List.mem_cons.1 h with rfl | h
      · rcases hd with hd | ⟨rfl, -⟩
        · simp [isNumberChar, hd]
        · rfl
      · exact ih h
    · cases h

theorem isNumberChar_of_mem_scanFraction {t : Text} {c : Char} (h : c ∈ (scanFraction t).1) : isNumberChar c := by
  cases t with
  | nil => cases h
  | cons d r =>
    rw [scanFraction] at h
    split_ifs at h
    · rcases List.mem_cons.1 h with rfl | h
      · rfl
      · exact isNumberChar_of_mem_scanDigits h
    · cases List.mem_singleton.1 h
      rfl
    · cases h

theorem isNumberChar_of_mem_scanExponent {t : Text} {c : Char} (h : c ∈ (scanExponent t).1) : isNumberChar c := by
  match t with
  | [] | [_] => cases h
  | e :: s :: r =>
    have hletter {x : Char} (hx : x = 'e' ∨ x = 'E') : isNumberChar x = true := by
      rcases hx with rfl | rfl
      · rfl
      · rfl
    rw [scanExponent] at h
    split_ifs at h with hdigits hsigned
    · rcases List.mem_cons.1 h with rfl | h
      · exact hletter hdigits.1
      · exact isNumberChar_of_mem_scanDigits h
    · rcases List.mem_cons.1 h with rfl | h
      · exact hletter hsigned.1
      · rcases List.mem_cons.1 h with rfl | h
        · rcases hsigned.2.1 with rfl | rfl
          · rfl
          · rfl
        · exact isNumberChar_of_mem_scanDigits h
    · cases h

theorem isNumberChar_of_mem_scanNumber {t : Text} {c : Char} (h : c ∈ (scanNumber t).1) : isNumberChar c := by
  simp only [scanNumber, List.mem_append] at h
  rcases h with (h | h) | h
  · exact isNumberChar_of_mem_scanDigits h
  · exact isNumberChar_of_mem_scanFraction h
  · exact isNumberChar_of_mem_scanExponent h

theorem Takes.render_ne_nil {t r : Text} {i : Item} (h : Takes t i r) : i.render ≠ [] := by
  cases h with
  | number hs h =>
    have := scanNumber_ne_nil hs
    rwa [h] at this
  | _ => simp [Item.render]

theorem Takes.length_lt {t r : Text} {i : Item} (h : Takes t i r) : r.length < t.length := by
  rw [h.render, List.length_append]
  have := List.length_pos_iff.2 h.render_ne_nil
  omega

theorem isWordStart_not_isSpace {c : Char} (h : isWordStart c) : isSpace c = false := by
  by_contra hs
  simp only [isSpace, Bool.not_eq_false, Bool.or_eq_true, beq_iff_eq] at hs
  rcases hs with ((((rfl | rfl) | rfl) | rfl) | rfl) | rfl <;> simp [isWordStart] at h

theorem isDigit_not_isSpace {c : Char} (h : c.isDigit) : isSpace c = false := by
  by_contra hs
  simp only [isSpace, Bool.not_eq_false, Bool.or_eq_true, beq_iff_eq] at hs
  rcases hs with ((((rfl | rfl) | rfl) | rfl) | rfl) | rfl <;> simp at h

theorem isDigit_not_isWordStart {c : Char} (h : c.isDigit) : isWordStart c = false := by
  simp only [Char.isDigit, Bool.and_eq_true, decide_eq_true_eq] at h
  have hc : c.toNat ≤ 57 := h.2
  have hn : ∀ d : Char, 57 < d.toNat → c ≠ d := by
    rintro d hd rfl
    omega
  have ha : c.isAlpha = false := by
    have hA : ¬65 ≤ c.toNat := by omega
    have ha : ¬97 ≤ c.toNat := by omega
    refine Bool.or_eq_false_iff.2 ?_
    exact ⟨decide_eq_false fun h => hA h.1, Bool.and_eq_false_imp.2 fun h => absurd (of_decide_eq_true h) ha⟩
  simp only [isWordStart, ha, Bool.false_or, Bool.or_eq_false_iff, beq_eq_false_iff_ne, decide_eq_false_iff_not]
  exact ⟨hn '_' (by decide), by omega⟩

/-- `lexItem` computes `Takes`. -/
theorem lexItem_eq_some {t r : Text} {i : Item} : lexItem t = some (i, r) ↔ Takes t i r := by
  refine ⟨takes_of_lexItem, fun h => ?_⟩
  cases h with
  | space h => simp [lexItem, h]
  | @lineComment b r hb hr =>
    have hb' : ∀ c ∈ b, (!isNewline c) = true := by simpa using hb
    have hr' : r.takeWhile (!isNewline ·) = [] ∧ r.dropWhile (!isNewline ·) = r := by
      rcases hr with rfl | hr
      · simp
      · obtain ⟨c, r, rfl, hc⟩ := exists_of_startsWith hr
        simp [hc]
    simp [lexItem, isSpace, startsWith, List.takeWhile_append_of_pos hb', List.dropWhile_append_of_pos hb', hr'.1, hr'.2]
  | blockComment h => simp [lexItem, isSpace, startsWith, h]
  | str h => simp [lexItem, isSpace, h]
  | quoted h => simp [lexItem, isSpace, h]
  | estr he h => rcases he with rfl | rfl <;> simp [lexItem, isSpace, startsWith, h]
  | dollar htag h => simp [lexItem, isSpace, htag, h]
  | number hs h =>
    cases t with
    | nil => simp [startsNumber] at hs
    | cons c t =>
      have hs' := hs
      simp only [startsNumber, Bool.or_eq_true, Bool.and_eq_true, beq_iff_eq] at hs'
      have hc : isSpace c = false ∧ c ≠ '-' ∧ c ≠ '/' ∧ c ≠ '\'' ∧ c ≠ '"' ∧ c ≠ 'e' ∧ c ≠ 'E' ∧ c ≠ '$' := by
        rcases hs' with hd | ⟨rfl, -⟩
        · refine ⟨isDigit_not_isSpace hd, ?_, ?_, ?_, ?_, ?_, ?_, ?_⟩ <;> rintro rfl <;> simp at hd
        · decide
      obtain ⟨h₁, h₂, h₃, h₄, h₅, h₆, h₇, h₈⟩ := hc
      simp [lexItem, h₁, h₂, h₃, h₄, h₅, h₆, h₇, h₈, hs, h]
  | @word c w r hc hw hr he =>
    have hs := isWordStart_not_isSpace hc
    have hn : c ≠ '-' ∧ c ≠ '/' ∧ c ≠ '\'' ∧ c ≠ '"' ∧ c ≠ '$' ∧ c ≠ '.' := by
      refine ⟨?_, ?_, ?_, ?_, ?_, ?_⟩ <;> rintro rfl <;> simp [isWordStart] at hc
    have hd : c.isDigit = false := by
      by_contra hd
      simp [isDigit_not_isWordStart (by simpa using hd)] at hc
    obtain ⟨h₂, h₃, h₄, h₅, h₇, h₈⟩ := hn
    have hr' : r.takeWhile isWordChar = [] ∧ r.dropWhile isWordChar = r := by
      cases r with
      | nil => simp
      | cons d r => simp_all [startsWith]
    have hcc : isWordChar c := by simp [isWordChar, hc]
    simp [lexItem, startsNumber, hs, h₂, h₃, h₄, h₅, h₇, h₈, hd, hc, hcc, List.takeWhile_append_of_pos hw,
      List.dropWhile_append_of_pos hw, hr'.1, hr'.2]
    simpa using he
  | @punct c r h₁ h₂ h₃ h₄ h₅ h₆ h₇ h₈ =>
    have he : ¬((c = 'e' ∨ c = 'E') ∧ startsWith (· == '\'') r) := by
      rintro ⟨rfl | rfl, -⟩ <;> simp [isWordStart] at h₂
    rw [lexItem, if_neg (by simp [h₁]), if_neg h₆, if_neg h₇, if_neg h₃, if_neg h₄, if_neg he]
    by_cases hd : c = '$'
    · have htag : scanTag r = none := by simpa [hd] using h₈
      simp [hd, htag]
    · simp [hd, h₅, h₂]

/-! ### A whole text -/

/-- `Lexes t is`: taking lexemes off `t` to its end gives `is`. -/
inductive Lexes : Text → List Item → Prop where
  /-- The empty text has no items. -/
  | nil : Lexes [] []
  /-- The first item, then the items of the rest. -/
  | cons {t r : Text} {i : Item} {is : List Item} : Takes t i r → Lexes r is → Lexes t (i :: is)

theorem Lexes.of_lexFuel {n : ℕ} {t : Text} {is : List Item} (h : lexFuel n t = some is) : Lexes t is := by
  induction n generalizing t is with
  | zero =>
    cases t with
    | nil => simp only [lexFuel, Option.some.injEq] at h; exact h ▸ .nil
    | cons => simp [lexFuel] at h
  | succ n ih =>
    cases t with
    | nil => simp only [lexFuel, Option.some.injEq] at h; exact h ▸ .nil
    | cons c t =>
      simp only [lexFuel, Option.bind_eq_bind, Option.bind_eq_some_iff, Prod.exists] at h
      obtain ⟨i, r, hi, is', his, h⟩ := h
      cases h
      exact .cons (takes_of_lexItem hi) (ih his)

theorem Lexes.lexFuel_eq {t : Text} {is : List Item} (h : Lexes t is) {n : ℕ} (hn : t.length ≤ n) :
    lexFuel n t = some is := by
  induction h generalizing n with
  | nil => cases n <;> rfl
  | @cons t r i is hi _ ih =>
    have hlt := hi.length_lt
    cases t with
    | nil => simp at hlt
    | cons c t =>
      cases n with
      | zero => simp at hn
      | succ n =>
        simp only [List.length_cons] at hlt hn
        simp [lexFuel, lexItem_eq_some.2 hi, ih (show r.length ≤ n by omega)]

/-- `lex` computes `Lexes`. -/
theorem lex_eq_some {t : Text} {is : List Item} : lex t = some is ↔ Lexes t is :=
  ⟨.of_lexFuel, fun h => h.lexFuel_eq le_rfl⟩

/-- A text has one sequence of items. -/
theorem Lexes.unique {t : Text} {is js : List Item} (h : Lexes t is) (h' : Lexes t js) : is = js :=
  Option.some.inj ((lex_eq_some.2 h).symm.trans (lex_eq_some.2 h'))

/-- A text lexes as its first item and the rest. -/
theorem Takes.lexes_iff {t r : Text} {i : Item} (h : Takes t i r) {is : List Item} :
    Lexes t is ↔ ∃ js, is = i :: js ∧ Lexes r js := by
  constructor
  · intro hl
    cases hl with
    | nil => exact absurd h.length_lt (by simp)
    | @cons _ r' i' js h' hr =>
      have heq : (i, r) = (i', r') := Option.some_inj.1 ((lexItem_eq_some.2 h).symm.trans (lexItem_eq_some.2 h'))
      cases heq
      exact ⟨js, rfl, hr⟩
  · rintro ⟨js, rfl, hr⟩
    exact .cons h hr

/-- `TakesAll t is r`: the items `is` stand at the front of `t`, and the lexer takes them one by one,
with `r` behind them. -/
inductive TakesAll : Text → List Item → Text → Prop where
  | nil {t : Text} : TakesAll t [] t
  | cons {t r u : Text} {i : Item} {is : List Item} : Takes t i r → TakesAll r is u → TakesAll t (i :: is) u

/-- What stands behind items that are taken lexes by itself. -/
theorem TakesAll.lexes_iff {t r : Text} {is : List Item} (h : TakesAll t is r) {js : List Item} :
    Lexes t js ↔ ∃ ks, js = is ++ ks ∧ Lexes r ks := by
  induction h generalizing js with
  | nil => simp
  | cons ht _ ih =>
    rw [ht.lexes_iff]
    constructor
    · rintro ⟨ks, rfl, hk⟩
      obtain ⟨ls, rfl, hl⟩ := ih.1 hk
      exact ⟨ls, rfl, hl⟩
    · rintro ⟨ks, rfl, hk⟩
      exact ⟨_, rfl, ih.2 ⟨ks, rfl, hk⟩⟩

/-- A word that a character ends which is neither of a word nor a quote. -/
theorem takes_word {w : Text} {c : Char} {r : Text} (hs : startsWith isWordStart w) (hw : w.all isWordChar)
    (hc : isWordChar c = false) (hq : c ≠ '\'') : Takes (w ++ c :: r) (.word w) (c :: r) := by
  obtain ⟨d, w, rfl, hd⟩ := exists_of_startsWith hs
  simp only [List.all_cons, Bool.and_eq_true, List.all_eq_true] at hw
  refine .word hd hw.2 hc ?_
  rintro ⟨-, he⟩
  cases w with
  | nil => exact hq (by simpa [startsWith] using he)
  | cons x w =>
    have hx : x = '\'' := by simpa [startsWith] using he
    have hquote : isWordChar '\'' = true := hx ▸ hw.2 x (List.mem_cons_self ..)
    exact absurd hquote (by decide)

/-- A lexed text is its items written out. -/
theorem Lexes.render {t : Text} {is : List Item} (h : Lexes t is) : t = renderAll is := by
  induction h with
  | nil => rfl
  | cons hi _ ih => rw [renderAll_cons, ← ih, ← hi.render]

/-! ### Writing tokens -/

/-- A word in front of something that is not part of it. -/
theorem Lexes.word {w r : Text} {is : List Item} (hs : startsWith isWordStart w) (hw : w.all isWordChar)
    (hr : startsWith isWordChar r = false) (hq : startsWith (· == '\'') r = false) (h : Lexes r is) :
    Lexes (w ++ r) (.word w :: is) := by
  obtain ⟨c, w, rfl, hc⟩ := exists_of_startsWith hs
  simp only [List.all_cons, Bool.and_eq_true, List.all_eq_true] at hw
  refine .cons (.word hc hw.2 hr ?_) h
  rintro ⟨-, he⟩
  cases w with
  | nil => simp_all
  | cons d w =>
    have hd := hw.2 d (List.mem_cons_self ..)
    simp only [List.cons_append, startsWith, beq_iff_eq] at he
    subst he
    simp [isWordChar, isWordStart] at hd

/-- The body of a literal between quotes `q` that says `t`: every quote in it is doubled. -/
def double (q : Char) (t : Text) : Text := t.flatMap fun c => if c = q then [q, q] else [c]

/-- What the body of a literal between quotes `q` says. -/
def undouble (q : Char) : Text → Text
  | [] => []
  | [c] => [c]
  | c :: d :: r => if c = q ∧ d = q then q :: undouble q r else c :: undouble q (d :: r)

theorem double_cons (q c : Char) (t : Text) :
    double q (c :: t) = (if c = q then [q, q] else [c]) ++ double q t := rfl

/-- A doubled text is scanned as a whole, whatever quotes it has, up to the quote that closes it. -/
theorem scanQuote_double (q : Char) (t : Text) {r : Text} (hr : startsWith (· == q) r = false) :
    scanQuote q (double q t ++ q :: r) = some (double q t, r) := by
  induction t with
  | nil =>
    cases r with
    | nil => simp [double, scanQuote]
    | cons d r =>
      have hd : d ≠ q := by simpa [startsWith] using hr
      simp [double, scanQuote, hd]
  | cons c t ih =>
    rw [double_cons]
    by_cases hc : c = q
    · simp [hc, scanQuote, ih]
    · simp only [if_neg hc, List.cons_append, List.nil_append]
      obtain ⟨d, u, hu⟩ : ∃ d u, double q t ++ q :: r = d :: u := by
        cases hdt : double q t ++ q :: r with
        | nil => simp at hdt
        | cons d u => exact ⟨d, u, rfl⟩
      rw [hu] at ih ⊢
      simp [scanQuote, hc, ih]

/-- A doubled text says the text. -/
theorem undouble_double (q : Char) (t : Text) : undouble q (double q t) = t := by
  induction t with
  | nil => rfl
  | cons c t ih =>
    rw [double_cons]
    by_cases hc : c = q
    · simp [hc, undouble, ih]
    · simp only [if_neg hc, List.singleton_append]
      cases hd : double q t with
      | nil =>
        rw [hd] at ih
        simp [undouble, ← ih]
      | cons d u =>
        rw [hd] at ih
        simp [undouble, hc, ih]

/-- What is scanned as the body of a literal has its quotes doubled. -/
theorem double_undouble_of_scanQuote {q : Char} {t b r : Text} (h : scanQuote q t = some (b, r)) :
    double q (undouble q b) = b := by
  induction t using scanQuote.induct q generalizing b r with
  | case1 => simp [scanQuote] at h
  | case2 =>
    simp only [scanQuote, if_pos, Option.some.injEq, Prod.mk.injEq] at h
    rw [← h.1]
    rfl
  | case3 c hc => simp [scanQuote, hc] at h
  | case4 r' ih =>
    simp only [scanQuote, if_pos, Option.map_eq_some_iff, Prod.mk.injEq, Prod.exists] at h
    obtain ⟨b', t', h', rfl, rfl⟩ := h
    rw [undouble, if_pos ⟨rfl, rfl⟩, double_cons, if_pos rfl, ih h']
    rfl
  | case5 d r' hd =>
    simp only [scanQuote, if_pos, hd, if_false, Option.some.injEq, Prod.mk.injEq] at h
    rw [← h.1]
    rfl
  | case6 c d r' hc ih =>
    simp only [scanQuote, if_neg hc, Option.map_eq_some_iff, Prod.mk.injEq, Prod.exists] at h
    obtain ⟨b', t', h', rfl, rfl⟩ := h
    have hb : undouble q (c :: b') = c :: undouble q b' := by
      cases b' with
      | nil => rfl
      | cons d' b'' => rw [undouble, if_neg (fun h => hc h.1)]
    rw [hb, double_cons, if_neg hc, ih h']
    rfl

theorem double_of_not_mem {q : Char} {t : Text} (h : q ∉ t) : double q t = t := by
  induction t with
  | nil => rfl
  | cons c t ih =>
    obtain ⟨hc, ht⟩ := not_or.1 (mt List.mem_cons.2 h)
    rw [double_cons, if_neg (Ne.symm hc), ih ht]
    rfl

/-- A text that is written with more quotes than it has is all quotes. -/
theorem all_quotes_of_eq {q : Char} {t r s : Text} {n : ℕ}
    (h : t ++ q :: r = List.replicate (n + 1) q ++ (double q t ++ s)) : ∀ c ∈ t, c = q := by
  induction t generalizing n with
  | nil => exact nofun
  | cons c t ih =>
    rw [List.replicate_succ, List.cons_append, List.cons_append, List.cons.injEq] at h
    obtain ⟨rfl, h⟩ := h
    have hmore : List.replicate n c ++ (double c (c :: t) ++ s) = List.replicate (n + 1 + 1) c ++ (double c t ++ s) := by
      rw [double_cons, if_pos rfl, List.replicate_succ', List.replicate_succ']
      simp
    rw [hmore] at h
    intro d hd
    rcases List.mem_cons.1 hd with rfl | hd
    · rfl
    · exact ih h d hd

/-- **A text between quotes that are not doubled** says itself only if it has no quotes, or ends with one. -/
theorem not_mem_of_undouble_eq {q : Char} {t b r r' : Text} (h : scanQuote q (t ++ q :: r) = some (b, r'))
    (ht : undouble q b = t) (hlast : t.getLast? ≠ some q) : q ∉ t := by
  have hb : double q t = b := ht ▸ double_undouble_of_scanQuote h
  have heq := scanQuote_eq h
  rw [← hb] at heq
  clear h ht hb
  generalize q :: r' = s at heq
  induction t with
  | nil => exact List.not_mem_nil
  | cons c t ih =>
    by_cases hc : c = q
    · subst hc
      rw [double_cons, if_pos rfl] at heq
      have hall := all_quotes_of_eq (n := 0) (t := t) (q := c) (r := r) (s := s) (by simpa using heq)
      refine absurd ?_ hlast
      cases hg : (c :: t).getLast? with
      | none => simp at hg
      | some d =>
        have hd := List.mem_of_getLast? hg
        rcases List.mem_cons.1 hd with rfl | hd
        · rfl
        · rw [hall d hd]
    · rw [double_cons, if_neg hc] at heq
      have htail : t ++ q :: r = double q t ++ s := by simpa using heq
      have hlast' : t.getLast? ≠ some q := by
        intro hl
        cases t with
        | nil => cases hl
        | cons d t => exact hlast (by simpa using hl)
      intro hmem
      rcases List.mem_cons.1 hmem with rfl | hmem
      · exact hc rfl
      · exact ih hlast' htail hmem

end SqlLex
