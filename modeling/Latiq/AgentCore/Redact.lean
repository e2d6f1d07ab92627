import Latiq.Library.RustStr
import Latiq.Library.Scanner
import Latiq.Library.SqlRewrite

/-!
# Redaction of SQL

`redact_sql` writes a SQL text for the records of the node: `strip_sql_comments` drops the
comments, and a second loop writes a `?` for each string and each number, and keeps the
numbers in the parentheses of a type. Both are loops over characters with loops inside.

## What is proved

* `redactSql_eq` — the two loops, one behind the other, are one scanner over the text,
  whose state says where each of them stands.
-/

namespace Latiq.AgentCore

open RustStr (eqIgnoreAsciiCase isWhitespace)
open SqlLex

/-! ### `strip_sql_comments` -/

/-- The inner loop over a string: what it copies, and the rest. -/
def copyString : Text → Text × Text
  | [] => ([], [])
  | [c] => ([c], [])
  | c :: d :: r =>
    if c = '\'' then if d = '\'' then (c :: d :: (copyString r).1, (copyString r).2) else ([c], d :: r)
    else (c :: (copyString (d :: r)).1, (copyString (d :: r)).2)

/-- The inner loop over a line comment: the newline, which is kept, and the rest. -/
def skipLine : Text → Text × Text
  | [] => ([], [])
  | c :: r => if c = '\n' then ([c], r) else skipLine r

/-- The inner loop over a block comment, `prev` being the character before: what is left of it. -/
def skipBlock (prev : Char) : Text → Text
  | [] => []
  | c :: r => if prev = '*' ∧ c = '/' then r else skipBlock c r

theorem copyString_length (t : Text) : (copyString t).2.length ≤ t.length := by
  induction t using copyString.induct with
  | case1 | case2 => simp [copyString]
  | case3 r ih => simpa [copyString] using ih.trans (by omega)
  | case4 d r hd => simp [copyString, hd]
  | case5 c d r hc ih => simpa [copyString, hc] using ih.trans (by simp)

theorem skipLine_length (t : Text) : (skipLine t).2.length ≤ t.length := by
  induction t with
  | nil => simp [skipLine]
  | cons c r ih =>
    rw [skipLine]
    split
    · simp
    · exact ih.trans (by simp)

theorem skipBlock_length (prev : Char) (t : Text) : (skipBlock prev t).length ≤ t.length := by
  induction t generalizing prev with
  | nil => simp [skipBlock]
  | cons c r ih =>
    rw [skipBlock]
    split
    · simp
    · exact (ih c).trans (by simp)

/-- `strip_sql_comments`. -/
def stripSqlComments : Text → Text
  | [] => []
  | c :: r =>
    if c = '\'' then c :: ((copyString r).1 ++ stripSqlComments (copyString r).2)
    else if c = '-' ∧ startsWith (· == '-') r then (skipLine r).1 ++ stripSqlComments (skipLine r).2
    else if c = '/' ∧ startsWith (· == '*') r then ' ' :: stripSqlComments (skipBlock '\x00' r.tail)
    else c :: stripSqlComments r
termination_by t => t.length
decreasing_by
  · exact Nat.lt_of_le_of_lt (copyString_length r) (Nat.lt_succ_self _)
  · exact Nat.lt_of_le_of_lt (skipLine_length r) (Nat.lt_succ_self _)
  · have htail : r.tail.length ≤ r.length := by
      rw [List.length_tail]
      omega
    exact Nat.lt_of_le_of_lt ((skipBlock_length '\x00' r.tail).trans htail) (Nat.lt_succ_self _)
  · exact Nat.lt_succ_self _

/-! ### `redact_sql` -/

/-- `PARAMETERISED_TYPES`. -/
def parameterisedTypes : List Text :=
  ["DECIMAL".toList, "DEC".toList, "NUMERIC".toList, "VARCHAR".toList, "NVARCHAR".toList, "CHAR".toList,
    "CHARACTER".toList, "VARYING".toList, "BPCHAR".toList, "TEXT".toList, "STRING".toList, "TIMESTAMP".toList,
    "DATETIME".toList, "BIT".toList, "BITSTRING".toList, "FLOAT".toList]

/-- `is_parameterised_type`. -/
def isParameterisedType (word : Text) : Bool := parameterisedTypes.any (eqIgnoreAsciiCase word)

/-- The variables of the loop of `redact_sql`. -/
structure Reading where
  /-- The last character written was part of an identifier. -/
  prevIdent : Bool
  /-- The identifier that is being written. -/
  word : Text
  /-- The identifier before was a parameterised type. -/
  typeWordPending : Bool
  /-- Inside the parentheses of a type. -/
  inTypeParams : Bool
  deriving DecidableEq

/-- Before the first character. -/
def Reading.start : Reading := ⟨false, [], false, false⟩

/-- Behind a literal. -/
def Reading.literal (s : Reading) : Reading := { s with prevIdent := false, word := [], typeWordPending := false }

/-- Behind any other character. -/
def Reading.other (s : Reading) (c : Char) : Reading :=
  if c.isAlphanum || c == '_' then { s with prevIdent := true, word := s.word ++ [c] }
  else
    let pending := if s.word ≠ [] then isParameterisedType s.word else s.typeWordPending
    if c = '(' then ⟨false, [], false, pending⟩
    else if c = ')' then ⟨false, [], false, false⟩
    -- Whitespace between the keyword and its parenthesis is allowed.
    else ⟨false, [], pending && isWhitespace c, s.inTypeParams⟩

/-- The inner loop over a string: the rest of the text behind it. -/
def skipString : Text → Text
  | [] => []
  | [_] => []
  | c :: d :: r => if c = '\'' then if d = '\'' then skipString r else d :: r else skipString (d :: r)

/-- What goes on with a numeric literal. -/
def inNumber (c : Char) : Bool := c.isDigit || c == '.'

theorem skipString_length (t : Text) : (skipString t).length ≤ t.length := by
  induction t using skipString.induct with
  | case1 | case2 => simp [skipString]
  | case3 r ih => simpa [skipString] using ih.trans (by omega)
  | case4 d r hd => simp [skipString, hd]
  | case5 c d r hc ih => simpa [skipString, hc] using ih.trans (by simp)

/-- The loop of `redact_sql`. -/
def redactFrom (s : Reading) : Text → Text
  | [] => []
  | c :: r =>
    if c = '\'' then '?' :: redactFrom s.literal (skipString r)
    else if c.isDigit && !s.prevIdent && !s.inTypeParams then '?' :: redactFrom s.literal (r.dropWhile inNumber)
    else c :: redactFrom (s.other c) r
termination_by t => t.length
decreasing_by
  · exact Nat.lt_of_le_of_lt (skipString_length r) (Nat.lt_succ_self _)
  · exact Nat.lt_of_le_of_lt (List.length_dropWhile_le _ _) (Nat.lt_succ_self _)
  · exact Nat.lt_succ_self _

/-- `redact_sql`. -/
def redactSql (sql : Text) : Text := redactFrom .start (stripSqlComments sql)

/-! ### The two loops as scanners -/

/-- Where `strip_sql_comments` stands. -/
inductive Stripping where
  /-- In the outer loop. -/
  | code
  /-- In a string. -/
  | string
  /-- Before the second quote of a pair in a string. -/
  | pair
  /-- In a line comment. -/
  | line
  /-- Before the `*` that opens a block comment. -/
  | opening
  /-- In a block comment, behind a `*` or another character. -/
  | block (star : Bool)
  deriving DecidableEq

/-- Where it stands behind a character `c` that `p` follows. -/
def Stripping.step : Stripping → Char → Option Char → Stripping
  | code, c, p =>
    if c = '\'' then string
    else if c = '-' ∧ p = some '-' then line
    else if c = '/' ∧ p = some '*' then opening
    else code
  | string, c, p => if c = '\'' then if p = some '\'' then pair else code else string
  | pair, _, _ => string
  | line, c, _ => if c = '\n' then code else line
  | opening, _, _ => block false
  | block star, c, _ => if star ∧ c = '/' then code else block (c == '*')

/-- What it writes on a character. -/
def Stripping.out : Stripping → Char → Option Char → Text
  | code, c, p => if (c = '-' ∧ p = some '-') ∨ (c = '/' ∧ p = some '*') then [] else [c]
  | string, c, _ | pair, c, _ => [c]
  | line, c, _ => if c = '\n' then [c] else []
  | opening, _, _ => []
  | block star, c, _ => if star ∧ c = '/' then [' '] else []

/-- What it writes at the end. -/
def Stripping.flush : Stripping → Text
  | opening | block _ => [' ']
  | _ => []

/-- `strip_sql_comments`, with its inner loops as states. -/
def stripper : Scanner Stripping Char Char := ⟨Stripping.step, Stripping.out, Stripping.flush⟩

@[simp] theorem stripper_step (s : Stripping) (c : Char) (p : Option Char) : stripper.step s c p = s.step c p := rfl

@[simp] theorem stripper_out (s : Stripping) (c : Char) (p : Option Char) : stripper.out s c p = s.out c p := rfl

@[simp] theorem stripper_flush (s : Stripping) : stripper.flush s = s.flush := rfl

/-- Where `redact_sql` stands. -/
inductive Redacting where
  /-- In the outer loop. -/
  | code (s : Reading)
  /-- In a numeric literal. -/
  | number (s : Reading)
  /-- In a string. -/
  | string (s : Reading)
  /-- In a string, behind a quote. -/
  | quote (s : Reading)
  deriving DecidableEq

/-- The variables of the loop, if the next character is for the outer loop. -/
def Redacting.reading : Redacting → Reading
  | .code s => s
  | .number s | .string s | .quote s => s.literal

/-- A round of the outer loop. -/
def Reading.round (s : Reading) (c : Char) : Redacting × Text :=
  if c = '\'' then (.string s, ['?'])
  else if c.isDigit && !s.prevIdent && !s.inTypeParams then (.number s, ['?'])
  else (.code (s.other c), [c])

/-- A character, read. -/
def Redacting.read : Redacting → Char → Redacting × Text
  | .string s, c => if c = '\'' then (.quote s, []) else (.string s, [])
  | .quote s, c => if c = '\'' then (.string s, []) else s.literal.round c
  | .number s, c => if inNumber c then (.number s, []) else s.literal.round c
  | .code s, c => s.round c

/-- `redact_sql` over a text without comments. The `?` of a literal is written when the literal starts. -/
def redactor : Scanner Redacting Char Char where
  step q c _ := (q.read c).1
  out q c _ := (q.read c).2
  flush _ := []

@[simp] theorem redactor_step (q : Redacting) (c : Char) (p : Option Char) : redactor.step q c p = (q.read c).1 := rfl

@[simp] theorem redactor_out (q : Redacting) (c : Char) (p : Option Char) : redactor.out q c p = (q.read c).2 := rfl

@[simp] theorem redactor_flush (q : Redacting) : redactor.flush q = [] := rfl

/-- `redact_sql`, as one scanner. -/
def scanner : Scanner (Stripping × Redacting) Char Char := stripper.comp redactor

theorem redactor_blind : redactor.Blind := fun _ _ _ _ => ⟨rfl, rfl⟩

/-! ### The scanners compute the loops -/

theorem stripper_string (t : Text) :
    stripper.run .string t = (copyString t).1 ++ stripper.run .code (copyString t).2 := by
  induction t using copyString.induct with
  | case1 => rfl
  | case2 c =>
    by_cases hc : c = '\''
    · simp [copyString, Scanner.run_cons, Stripping.step, Stripping.out, Stripping.flush, hc]
    · simp [copyString, Scanner.run_cons, Stripping.step, Stripping.out, Stripping.flush, hc]
  | case3 r ih =>
    rw [Scanner.run_cons, Scanner.run_cons]
    simpa [copyString, Stripping.step, Stripping.out] using ih
  | case4 d r hd =>
    rw [Scanner.run_cons]
    simp [copyString, Stripping.step, Stripping.out, hd]
  | case5 c d r hc ih =>
    rw [Scanner.run_cons]
    simpa [copyString, Stripping.step, Stripping.out, hc] using ih

theorem stripper_line (t : Text) :
    stripper.run .line t = (skipLine t).1 ++ stripper.run .code (skipLine t).2 := by
  induction t with
  | nil => rfl
  | cons c r ih =>
    rw [Scanner.run_cons, skipLine]
    by_cases hc : c = '\n'
    · simp [Stripping.step, Stripping.out, hc]
    · simpa [Stripping.step, Stripping.out, hc] using ih

theorem stripper_block (prev : Char) (t : Text) :
    stripper.run (.block (prev == '*')) t = ' ' :: stripper.run .code (skipBlock prev t) := by
  induction t generalizing prev with
  | nil => rfl
  | cons c r ih =>
    rw [Scanner.run_cons, skipBlock]
    by_cases hc : prev = '*' ∧ c = '/'
    · simp [Stripping.step, Stripping.out, hc]
    · simpa [Stripping.step, Stripping.out, hc] using ih c

theorem head_eq_iff {c : Char} {r : Text} : r.head? = some c ↔ startsWith (· == c) r := by
  cases r with
  | nil => simp [startsWith]
  | cons d r => simp [startsWith]

theorem stripSqlComments_eq (t : Text) : stripSqlComments t = stripper.run .code t := by
  induction t using stripSqlComments.induct with
  | case1 =>
    rw [stripSqlComments]
    rfl
  | case2 r ih =>
    rw [stripSqlComments, if_pos rfl, ih, Scanner.run_cons]
    simp [Stripping.step, Stripping.out, stripper_string]
  | case3 c r hc hline ih =>
    rw [stripSqlComments, if_neg hc, if_pos hline, ih, Scanner.run_cons, ← stripper_line]
    simp only [← head_eq_iff] at hline
    simp [Stripping.step, Stripping.out, hline]
  | case4 c r hc hline hblock ih =>
    obtain ⟨rfl, hstar⟩ := hblock
    obtain ⟨d, r, rfl, hd⟩ := exists_of_startsWith hstar
    cases beq_iff_eq.1 hd
    rw [stripSqlComments, if_neg hc, if_neg hline, if_pos ⟨rfl, hstar⟩, ih, Scanner.run_cons, Scanner.run_cons]
    simpa [Stripping.step, Stripping.out] using (stripper_block '\x00' r).symm
  | case5 c r hc hline hblock ih =>
    rw [stripSqlComments, if_neg hc, if_neg hline, if_neg hblock, ih, Scanner.run_cons]
    simp only [← head_eq_iff] at hline hblock
    simp [Stripping.step, Stripping.out, hc, hline, hblock]

theorem redactor_string (s : Reading) (t : Text) :
    redactor.run (.string s) t = redactor.run (.code s.literal) (skipString t) := by
  induction t using skipString.induct with
  | case1 => rfl
  | case2 c =>
    by_cases hc : c = '\''
    · simp [skipString, Scanner.run_cons, Redacting.read, hc]
    · simp [skipString, Scanner.run_cons, Redacting.read, hc]
  | case3 r ih =>
    rw [Scanner.run_cons, Scanner.run_cons]
    simpa [skipString, Redacting.read] using ih
  | case4 d r hd =>
    rw [Scanner.run_cons]
    simp [skipString, Redacting.read, hd, Scanner.run_cons]
  | case5 c d r hc ih =>
    rw [Scanner.run_cons]
    simpa [skipString, Redacting.read, hc] using ih

theorem redactor_number (s : Reading) (t : Text) :
    redactor.run (.number s) t = redactor.run (.code s.literal) (t.dropWhile inNumber) := by
  induction t with
  | nil => rfl
  | cons c r ih =>
    by_cases hc : inNumber c = true
    · rw [Scanner.run_cons, List.dropWhile_cons_of_pos hc]
      simpa [Redacting.read, hc] using ih
    · rw [List.dropWhile_cons_of_neg hc, Scanner.run_cons, Scanner.run_cons]
      simp [Redacting.read, hc]

theorem redactFrom_eq (s : Reading) (t : Text) : redactFrom s t = redactor.run (.code s) t := by
  induction s, t using redactFrom.induct with
  | case1 s =>
    rw [redactFrom]
    rfl
  | case2 s r ih =>
    rw [redactFrom, if_pos rfl, ih, Scanner.run_cons, ← redactor_string]
    simp [Redacting.read, Reading.round]
  | case3 s c r hc hd ih =>
    rw [redactFrom, if_neg hc, if_pos hd, ih, Scanner.run_cons, ← redactor_number]
    simp [Redacting.read, Reading.round, hc, hd]
  | case4 s c r hc hd ih =>
    rw [redactFrom, if_neg hc, if_neg hd, ih, Scanner.run_cons]
    simp [Redacting.read, Reading.round, hc, hd]

/-- `redact_sql` is one scanner. -/
theorem redactSql_eq (t : Text) : redactSql t = scanner.run (.code, .code .start) t := by
  rw [redactSql, redactFrom_eq, stripSqlComments_eq, scanner, Scanner.run_comp redactor_blind]

end Latiq.AgentCore
