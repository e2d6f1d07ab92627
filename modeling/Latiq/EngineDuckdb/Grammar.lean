import Latiq.EngineDuckdb.Duckdb
import Latiq.Library.RustStr

/-!
# From texts to statements

DuckDB lexes a whole text, splits it at its semicolons and runs the statements
in order. What a statement is depends on its tokens alone, so comments and
whitespace do not count. A `Grammar` names the statement that a sequence of
tokens is, or fails; of DuckDB's grammar it fixes only the statements the
adapter writes itself.

## What is proved

* `parse_begin`, `parse_beginReadOnly`, `parse_commit`, `parse_rollback` — the
  adapter's transaction control, through the lexer.
* `parse_callText` — the adapter's call of `set_commit_message` is that call with
  exactly the author, the message and the extra info it was built from, whatever
  characters are in them: no value can end its literal.
-/

namespace Latiq.EngineDuckdb

open SqlLex

/-! ### The texts the adapter writes -/

/-- `quote_ident`. -/
def quoteIdent (name : Text) : Text := '"' :: (double '"' name ++ ['"'])

/-- `'{v}'`, with the quotes in `v` doubled. -/
def literal (v : Text) : Text := '\'' :: (double '\'' v ++ ['\''])

/-- What is fixed in the call of `set_commit_message`, up to the catalog. -/
def callHead : Text := "CALL ".toList

/-- From the catalog to the first argument. -/
def callMethod : Text := ".set_commit_message(".toList

/-- From the second argument to the third. -/
def callExtra : Text := ", extra_info => ".toList

/-- `CALL {cat}.set_commit_message('{author}', '{op}', extra_info => '{extra}')`, the values escaped. -/
def callText (catalog author op extra : Text) : Text :=
  callHead ++ quoteIdent catalog ++ callMethod ++ literal author ++ [',', ' '] ++ literal op ++ callExtra ++
    literal extra ++ [')']

/-- A keyword. -/
def kw (w : String) : Item := .word w.toList

/-- The tokens of a call of `set_commit_message`, with the bodies of its literals. -/
def callTokens (catalog author op extra : Text) : List Item :=
  [kw "CALL", .quoted catalog, .punct '.', kw "set_commit_message", .punct '(', .str author, .punct ',', .str op,
    .punct ',', kw "extra_info", .punct '=', .punct '>', .str extra, .punct ')']

/-- What the tokens of one statement are. The laws are the statements the adapter relies on. -/
structure Grammar where
  kind : List Item → Except Text Stmt
  begin_ : kind [kw "BEGIN"] = .ok (.beginTxn false)
  beginReadOnly : kind [kw "BEGIN", kw "TRANSACTION", kw "READ", kw "ONLY"] = .ok (.beginTxn true)
  commit : kind [kw "COMMIT"] = .ok .commit
  rollback : kind [kw "ROLLBACK"] = .ok .rollback
  call : ∀ c a m x, kind (callTokens c a m x) =
    .ok (.setCommitMessage ⟨undouble '\'' a, undouble '\'' m, undouble '\'' x⟩)

/-! ### Parsing a text -/

/-- The tokens of the statements of a text: without what separates tokens, cut at the semicolons, and
without the empty ones. -/
def segments (items : List Item) : List (List Item) :=
  ((items.filter fun i => !i.isGap).splitOn (.punct ';')).filter (· ≠ [])

def unterminatedMessage : Text := "Parser Error: unterminated quoted string or comment".toList

/-- The statements of a text. -/
def Grammar.parse (g : Grammar) (sql : Text) : Except Text (List Stmt) :=
  match lex sql with
  | none => .error unterminatedMessage
  | some items => (segments items).mapM g.kind

/-- `st` is a statement of the text. -/
def Grammar.Has (g : Grammar) (sql : Text) (st : Stmt) : Prop := ∃ sts, g.parse sql = .ok sts ∧ st ∈ sts

variable (g : Grammar)

theorem Grammar.parse_of_lex {sql : Text} {items : List Item} (h : Lexes sql items) :
    g.parse sql = (segments items).mapM g.kind := by
  rw [parse, lex_eq_some.2 h]

/-- A text that is one statement. -/
theorem Grammar.parse_single {sql : Text} (items ts : List Item) {st : Stmt} (h : Lexes sql items)
    (hs : segments items = [ts]) (hk : g.kind ts = .ok st) : g.parse sql = .ok [st] := by
  rw [g.parse_of_lex h, hs, List.mapM_cons, hk]
  rfl

theorem Grammar.parse_begin : g.parse "BEGIN".toList = .ok [.beginTxn false] :=
  g.parse_single [kw "BEGIN"] _ (lex_eq_some.1 (by decide +kernel)) (by decide) g.begin_

theorem Grammar.parse_beginReadOnly : g.parse "BEGIN TRANSACTION READ ONLY".toList = .ok [.beginTxn true] :=
  g.parse_single [kw "BEGIN", .space ' ', kw "TRANSACTION", .space ' ', kw "READ", .space ' ', kw "ONLY"] _
    (lex_eq_some.1 (by decide +kernel)) (by decide) g.beginReadOnly

theorem Grammar.parse_commit : g.parse "COMMIT".toList = .ok [.commit] :=
  g.parse_single [kw "COMMIT"] _ (lex_eq_some.1 (by decide +kernel)) (by decide) g.commit

theorem Grammar.parse_rollback : g.parse "ROLLBACK".toList = .ok [.rollback] :=
  g.parse_single [kw "ROLLBACK"] _ (lex_eq_some.1 (by decide +kernel)) (by decide) g.rollback

/-- A token in front goes to the first statement. -/
theorem segments_lead {t : Item} (hgap : t.isGap = false) (hsemi : t ≠ .punct ';') (is : List Item) :
    ∃ p ps, (is.filter (!·.isGap)).splitOn (.punct ';') = p :: ps ∧ segments (t :: is) = (t :: p) :: ps.filter (· ≠ []) := by
  obtain ⟨p, ps, hps⟩ := List.exists_cons_of_ne_nil (List.splitOn_ne_nil (Item.punct ';') (is.filter (!·.isGap)))
  refine ⟨p, ps, hps, ?_⟩
  have hkeep : (t :: is).filter (!·.isGap) = t :: is.filter (!·.isGap) := by simp [hgap]
  rw [segments, hkeep, List.splitOn_cons_eq_if_modifyHead, if_neg (by simpa using hsemi), hps]
  simp

/-- A token in front makes a single statement with what is up to the semicolons, if there is nothing behind them. -/
theorem segments_lead_eq {t : Item} (hgap : t.isGap = false) (hsemi : t ≠ .punct ';') {is q : List Item} :
    segments (t :: is) = [t :: q] ↔
      ∃ n, is.filter (!·.isGap) = q ++ List.replicate n (.punct ';') ∧ .punct ';' ∉ q := by
  obtain ⟨p, ps, hps, hseg⟩ := segments_lead hgap hsemi is
  rw [hseg]
  constructor
  · intro h
    simp only [List.cons.injEq, true_and, List.filter_eq_nil_iff, decide_eq_true_eq, not_not] at h
    obtain ⟨rfl, hnil⟩ := h
    rw [List.eq_replicate_of_mem hnil] at hps
    exact ⟨ps.length, RustStr.splitOn_eq_cons_replicate.1 hps⟩
  · rintro ⟨n, hn⟩
    rw [RustStr.splitOn_eq_cons_replicate.2 hn, List.cons.injEq] at hps
    obtain ⟨rfl, rfl⟩ := hps
    simp

/-- A literal written with its quotes doubled is one string token. -/
theorem lexes_literal (v : Text) {r : Text} {is : List Item} (hr : startsWith (· == '\'') r = false)
    (h : Lexes r is) : Lexes (literal v ++ r) (.str (double '\'' v) :: is) := by
  have := Lexes.cons (.str (scanQuote_double '\'' v hr)) h
  simpa [literal] using this

theorem lexes_quoteIdent (v : Text) {r : Text} {is : List Item} (hr : startsWith (· == '"') r = false)
    (h : Lexes r is) : Lexes (quoteIdent v ++ r) (.quoted (double '"' v) :: is) := by
  have := Lexes.cons (.quoted (scanQuote_double '"' v hr)) h
  simpa [quoteIdent] using this

theorem lexes_callText (catalog author op extra : Text) :
    Lexes (callText catalog author op extra)
      [kw "CALL", .space ' ', .quoted (double '"' catalog), .punct '.', kw "set_commit_message", .punct '(',
        .str (double '\'' author), .punct ',', .space ' ', .str (double '\'' op), .punct ',', .space ' ',
        kw "extra_info", .space ' ', .punct '=', .punct '>', .space ' ', .str (double '\'' extra), .punct ')'] := by
  have h₁ : callHead = "CALL".toList ++ [' '] := by decide
  have h₂ : callMethod = '.' :: ("set_commit_message".toList ++ ['(']) := by decide
  have h₃ : callExtra = ',' :: ' ' :: ("extra_info".toList ++ [' ', '=', '>', ' ']) := by decide
  simp only [callText, h₁, h₂, h₃, List.append_assoc, List.cons_append, List.nil_append]
  have hspace {r : Text} {is : List Item} (h : Lexes r is) : Lexes (' ' :: r) (.space ' ' :: is) :=
    .cons (.space rfl) h
  -- Each word and each literal ends where the fixed character behind it stands.
  refine .word (by decide) (by decide) rfl rfl (hspace (lexes_quoteIdent catalog rfl ?_))
  refine .cons (lexItem_eq_some.1 rfl)
    (.word (by decide) (by decide) rfl rfl (.cons (lexItem_eq_some.1 rfl) ?_))
  refine lexes_literal author rfl (.cons (lexItem_eq_some.1 rfl) (hspace ?_))
  refine lexes_literal op rfl (.cons (lexItem_eq_some.1 rfl) (hspace ?_))
  refine .word (by decide) (by decide) rfl rfl (hspace (.cons (lexItem_eq_some.1 rfl) ?_))
  refine .cons (lexItem_eq_some.1 rfl) (hspace ?_)
  exact lexes_literal extra rfl (.cons (lexItem_eq_some.1 rfl) .nil)

/-- **The attribution statement cannot be broken out of**: it sets exactly the author, the message
and the extra info it was built from. -/
theorem Grammar.parse_callText (catalog author op extra : Text) :
    g.parse (callText catalog author op extra) = .ok [.setCommitMessage ⟨author, op, extra⟩] := by
  refine g.parse_single _ (callTokens (double '"' catalog) (double '\'' author) (double '\'' op) (double '\'' extra))
    (lexes_callText catalog author op extra) ?_ ?_
  · rfl
  · rw [g.call, undouble_double, undouble_double, undouble_double]

/-! ### A grammar by keywords

A statement by its leading keyword: a `Grammar` small enough to run. -/

/-- Whether a token is the keyword, in any case. -/
def isKw (w : String) : Item → Bool
  | .word raw => raw.map Char.toUpper == w.toList
  | _ => false

/-- The bodies of the strings among the tokens. -/
def strBodies (ts : List Item) : List Text :=
  ts.filterMap fun
    | .str b => some b
    | _ => none

def syntaxMessage : Text := "Parser Error: syntax error".toList

/-- A statement without `EXPLAIN`, by its leading keyword. -/
def keywordKind₀ (ts : List Item) : Except Text Stmt :=
  match ts with
  | [] => .error syntaxMessage
  | t :: rest =>
    let is (w : String) := isKw w t
    if is "SELECT" || is "WITH" || is "FROM" || is "SHOW" || is "VALUES" then .ok .select
    else if is "CREATE" && rest.any (isKw "TEMP") then .ok (.temp (renderAll ts))
    else if is "INSERT" || is "UPDATE" || is "DELETE" || is "CREATE" || is "DROP" || is "ALTER" then
      .ok (.write (renderAll ts))
    else if is "SET" || is "RESET" || is "USE" then .ok (.session (renderAll ts))
    else if is "ATTACH" || is "DETACH" then .ok (.attach (renderAll ts))
    else if is "BEGIN" then .ok (.beginTxn (rest.any (isKw "READ")))
    else if is "COMMIT" || is "END" then .ok .commit
    else if is "ROLLBACK" || is "ABORT" then .ok .rollback
    else if is "CALL" then
      match strBodies rest with
      | [a, m, x] => .ok (.setCommitMessage ⟨undouble '\'' a, undouble '\'' m, undouble '\'' x⟩)
      | _ => .error syntaxMessage
    else .error syntaxMessage

/-- A statement by its leading keyword, an `EXPLAIN` by the statement under it. -/
def keywordKind (ts : List Item) : Except Text Stmt :=
  match ts with
  | [] => .error syntaxMessage
  | t :: rest =>
    if isKw "EXPLAIN" t then
      match rest with
      | .punct '(' :: rest =>
        let options := rest.takeWhile (· ≠ .punct ')')
        (keywordKind₀ (rest.dropWhile (· ≠ .punct ')')).tail).map (.explain (options.any (isKw "ANALYZE")))
      | t :: rest =>
        if isKw "ANALYZE" t || isKw "ANALYSE" t then (keywordKind₀ rest).map (.explain true)
        else (keywordKind₀ (t :: rest)).map (.explain false)
      | [] => .error syntaxMessage
    else keywordKind₀ (t :: rest)

/-- The grammar by keywords. -/
def keywordGrammar : Grammar where
  kind := keywordKind
  begin_ := by decide
  beginReadOnly := by decide
  commit := by decide
  rollback := by decide
  call _ _ _ _ := rfl

end Latiq.EngineDuckdb
