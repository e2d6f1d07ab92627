import Latiq.Library.RustStr

/-!
# Engine-neutral SQL classification

`sql.rs` tells a read from a write by the text of a statement: a read starts
with a read keyword and contains no write keyword, a write starts with a keyword
that is none of a read's, and everything else is left to the parser.

## What is proved

* `classify_read_iff`, `classify_write_iff` — the three answers, each by the two
  scans it comes from.
* `firstWord_eq` — the leading word is what stands between the first run of
  separators and the next.
-/

namespace Latiq.Engine

open RustStr

/-- What a text looks like to the read/write routing. -/
inductive SqlShape where
  /-- Starts with a read keyword and contains no data-modifying one. -/
  | read
  /-- Recognisably a statement that is not a read. -/
  | write
  /-- Not recognisable as any statement we know. -/
  | unrecognized
  deriving DecidableEq, Repr

/-- What a text must start with to be a read. -/
def readPrefixes : List Text :=
  ["select".toList, "with".toList, "describe".toList, "show".toList, "explain".toList, "pragma".toList,
    "from".toList, "table".toList, "values".toList]

/-- `starts_read`: the lowered text starts as a read does. -/
def startsRead (s : Text) : Bool := readPrefixes.any fun p => p.isPrefixOf s

/-- `WRITE_KEYWORDS`, each between the two spaces it is looked for with. -/
def writeKeywords : List Text :=
  [" insert ".toList, " update ".toList, " delete ".toList, " create ".toList, " drop ".toList, " alter ".toList,
    " truncate ".toList, " attach ".toList, " detach ".toList, " copy ".toList, " call ".toList,
    " install ".toList, " load ".toList, " replace ".toList, " analyze ".toList, " vacuum ".toList,
    " checkpoint ".toList, " begin ".toList, " commit ".toList, " rollback ".toList, " abort ".toList,
    " start transaction ".toList, " end transaction ".toList]

/-- `NON_READ_LEADING_KEYWORDS`. -/
def nonReadLeadingKeywords : List Text :=
  ["insert".toList, "update".toList, "delete".toList, "create".toList, "drop".toList, "alter".toList,
    "truncate".toList, "attach".toList, "detach".toList, "copy".toList, "call".toList, "install".toList,
    "load".toList, "replace".toList, "analyze".toList, "vacuum".toList, "checkpoint".toList, "begin".toList,
    "commit".toList, "rollback".toList, "abort".toList, "start".toList, "end".toList, "set".toList,
    "reset".toList, "use".toList, "comment".toList, "export".toList, "import".toList, "merge".toList,
    "grant".toList, "revoke".toList]

/-- The characters the scan for write keywords reads as spaces. -/
def isSeparator (c : Char) : Bool :=
  c == '\n' || c == '\t' || c == '(' || c == ')' || c == ',' || c == ';'

/-- `normalized`: separators as spaces, and one space around the text. -/
def normalized (s : Text) : Text := ' ' :: (s.map fun c => if isSeparator c then ' ' else c) ++ [' ']

/-- The characters that end the leading word. -/
def endsWord (c : Char) : Bool := isWhitespace c || c == '(' || c == ';'

/-- The first word of a lowered text, or nothing. -/
def firstWord (lowered : Text) : Text := ((lowered.splitOnP endsWord).find? (· ≠ [])).getD []

/-- `leads_with_a_non_read_keyword`. -/
def leadsWithANonReadKeyword (lowered : Text) : Bool := decide (firstWord lowered ∈ nonReadLeadingKeywords)

/-- Classify a statement for the read path. -/
def classify (sql : Text) : SqlShape :=
  let s := toLowercase (trimStart sql)
  if startsRead s then
    if writeKeywords.any fun w => contains (normalized s) w then .write else .read
  else if leadsWithANonReadKeyword s then .write
  else .unrecognized

/-- `is_read_only`. -/
def isReadOnly (sql : Text) : Bool := classify sql == .read

theorem classify_read_iff (sql : Text) :
    classify sql = .read ↔
      startsRead (toLowercase (trimStart sql)) ∧
        ∀ w ∈ writeKeywords, ¬w <:+: normalized (toLowercase (trimStart sql)) := by
  unfold classify
  dsimp only
  split_ifs with hs hw hl
  · simp only [List.any_eq_true, contains, decide_eq_true_eq] at hw
    obtain ⟨w, hw, hin⟩ := hw
    simp only [false_iff, not_and, not_forall]
    exact fun _ => ⟨w, hw, not_not.2 hin⟩
  · simpa [hs, contains] using hw
  · simp [hs]
  · simp [hs]

theorem classify_write_iff (sql : Text) :
    classify sql = .write ↔
      (startsRead (toLowercase (trimStart sql)) ∧ ∃ w ∈ writeKeywords, w <:+: normalized (toLowercase (trimStart sql))) ∨
        (startsRead (toLowercase (trimStart sql)) = false ∧
          firstWord (toLowercase (trimStart sql)) ∈ nonReadLeadingKeywords) := by
  unfold classify
  dsimp only
  split_ifs with hs hw hl
  · simpa [hs, contains] using hw
  · simp only [List.any_eq_true, contains, decide_eq_true_eq] at hw
    simpa [hs] using hw
  · simpa [hs, leadsWithANonReadKeyword] using hl
  · simpa [hs, leadsWithANonReadKeyword] using hl

/-- The first piece of a text cut at separators goes up to the first of them. -/
theorem splitOnP_head (p : Char → Bool) (s : Text) : ∃ ps, s.splitOnP p = s.takeWhile (!p ·) :: ps := by
  induction s with
  | nil => exact ⟨[], rfl⟩
  | cons c s ih =>
    obtain ⟨ps, hps⟩ := ih
    rw [List.splitOnP_cons_eq_if_modifyHead, hps]
    by_cases hc : p c
    · exact ⟨s.takeWhile (!p ·) :: ps, by simp [hc]⟩
    · exact ⟨ps, by simp [hc]⟩

/-- The leading word stands between the first run of separators and the next. -/
theorem firstWord_eq (s : Text) : firstWord s = (s.dropWhile endsWord).takeWhile (!endsWord ·) := by
  induction s with
  | nil => rfl
  | cons c s ih =>
    by_cases hc : endsWord c
    · rw [List.dropWhile_cons_of_pos hc, ← ih, firstWord, List.splitOnP_cons_eq_if_modifyHead, if_pos hc]
      simp [firstWord]
    · obtain ⟨ps, hps⟩ := splitOnP_head endsWord (c :: s)
      rw [firstWord, hps, List.dropWhile_cons_of_neg hc]
      simp [hc]

end Latiq.Engine
