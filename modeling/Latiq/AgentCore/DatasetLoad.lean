import Latiq.AgentCore.Deadline
import Latiq.AgentCore.Literals

/-!
# The statements of a dataset load

`load_dataset` writes its statements itself: the names of a dataset are quoted identifiers in them, and the URI of a
table is a string.

## What is proved

* `lexes_datasetLoad` — a statement of a load, whatever its names and its URI are, lexes to its parts.
* `exists_table` — a text of the shape of such a statement is such a statement, of another URI.
* `Load.says_same_iff` — loads of the same shape that turn out alike say the same exactly where each write is silent.
* `trail_says_same_iff` — calls and loads.
-/

namespace Latiq.AgentCore

open SqlLex hiding Text
open RustStr (Text)
open Unwind
open Latiq.Common

/-! ### Their items -/

/-- Words with a space behind each. -/
def wordItems (ws : List String) : List SqlLex.Item := ws.flatMap fun w => [.word w.toList, .space ' ']

/-- The items of `create_schema_sql`. -/
def createSchemaItems (schema : Text) : List SqlLex.Item :=
  wordItems ["CREATE", "SCHEMA", "IF", "NOT", "EXISTS"] ++ [.quoted (double '"' schema)]

/-- The items of `dataset_load_sql` in front of the URI. -/
def loadItems (schema table reader : Text) : List SqlLex.Item :=
  wordItems ["CREATE", "OR", "REPLACE", "TABLE"] ++ [.quoted (double '"' schema), .punct '.', .quoted (double '"' table),
    .space ' '] ++ wordItems ["AS", "SELECT"] ++ [.punct '*', .space ' '] ++ wordItems ["FROM"] ++ [.word reader, .punct '(']

/-- The items of `dataset_load_sql`. -/
def datasetLoadItems (schema table reader uri : Text) : List SqlLex.Item :=
  loadItems schema table reader ++ [.str (double '\'' uri), .punct ')']

theorem lexes_words (ws : List String) (hws : ∀ w ∈ ws, startsWith isWordStart w.toList ∧ w.toList.all isWordChar)
    {r : Text} {is : List SqlLex.Item} (h : Lexes r is) :
    Lexes (renderAll (wordItems ws) ++ r) (wordItems ws ++ is) := by
  induction ws with
  | nil => exact h
  | cons w ws ih =>
    obtain ⟨hs, hw⟩ := hws w (List.mem_cons_self ..)
    have hrest := ih fun v hv => hws v (List.mem_cons_of_mem _ hv)
    have happend : renderAll (wordItems (w :: ws)) ++ r = w.toList ++ ' ' :: (renderAll (wordItems ws) ++ r) := by
      simp [wordItems, SqlLex.Item.render]
    rw [happend]
    exact .cons (takes_word hs hw (by decide) (by decide)) (.cons (.space rfl) hrest)

theorem lexes_quoted (name : Text) {r : Text} {is : List SqlLex.Item} (hr : startsWith (· == '"') r = false) (h : Lexes r is) :
    Lexes ((SqlLex.Item.quoted (double '"' name)).render ++ r) (.quoted (double '"' name) :: is) := by
  refine .cons (r := r) ?_ h
  simpa [SqlLex.Item.render] using Takes.quoted (scanQuote_double '"' name hr)

theorem lexes_str (uri : Text) {r : Text} {is : List SqlLex.Item} (hr : startsWith (· == '\'') r = false) (h : Lexes r is) :
    Lexes ((SqlLex.Item.str (double '\'' uri)).render ++ r) (.str (double '\'' uri) :: is) := by
  refine .cons (r := r) ?_ h
  simpa [SqlLex.Item.render] using Takes.str (scanQuote_double '\'' uri hr)

theorem quoteIdent_eq (name : Text) : quoteIdent name = (SqlLex.Item.quoted (double '"' name)).render := rfl

theorem createSchemaSql_eq (schema : Text) : createSchemaSql schema = renderAll (createSchemaItems schema) := by
  have hwords : renderAll (wordItems ["CREATE", "SCHEMA", "IF", "NOT", "EXISTS"]) = "CREATE SCHEMA IF NOT EXISTS ".toList := by
    decide +kernel
  rw [createSchemaItems, renderAll_append, hwords, renderAll_cons, renderAll_nil, List.append_nil]
  rfl

theorem datasetLoadSql_eq (schema : Text) (t : DatasetTableInfo) : datasetLoadSql schema t =
    renderAll (datasetLoadItems schema t.tableName (readerOf t.sourceUri t.format) t.sourceUri) := by
  have hcreate : renderAll (wordItems ["CREATE", "OR", "REPLACE", "TABLE"]) = "CREATE OR REPLACE TABLE ".toList := by
    decide +kernel
  have hselect : [' '] ++ (renderAll (wordItems ["AS", "SELECT"]) ++ (['*', ' '] ++ renderAll (wordItems ["FROM"]))) =
      " AS SELECT * FROM ".toList := by
    decide +kernel
  unfold datasetLoadSql
  rw [← hcreate, ← hselect, quoteIdent_eq, quoteIdent_eq]
  generalize readerOf t.sourceUri t.format = reader
  show _ ++ double '\'' t.sourceUri ++ ['\'', ')'] = _
  simp only [datasetLoadItems, loadItems, renderAll_append, renderAll_cons, renderAll_nil, SqlLex.Item.render, List.append_assoc,
    List.cons_append, List.nil_append, List.append_nil]

theorem lexes_createSchemaSql (schema : Text) : Lexes (createSchemaSql schema) (createSchemaItems schema) := by
  rw [createSchemaSql_eq, createSchemaItems, renderAll_append]
  refine lexes_words _ (by decide) ?_
  simpa using lexes_quoted schema rfl .nil

theorem readerOf_mem (uri format : Text) :
    readerOf uri format ∈ ["read_csv_auto".toList, "read_json_auto".toList, "read_parquet".toList] := by
  unfold readerOf
  dsimp only
  split_ifs <;> simp

/-- **A statement of a load lexes to its parts**, whatever its names and its URI are. -/
theorem lexes_datasetLoad (schema table uri : Text) {reader : Text}
    (hreader : reader ∈ ["read_csv_auto".toList, "read_json_auto".toList, "read_parquet".toList]) :
    Lexes (renderAll (datasetLoadItems schema table reader uri)) (datasetLoadItems schema table reader uri) := by
  have hword : startsWith isWordStart reader ∧ reader.all isWordChar := by
    simp only [List.mem_cons, List.not_mem_nil, or_false] at hreader
    rcases hreader with rfl | rfl | rfl <;> decide
  have hpunct {c : Char} (hc : c = '.' ∨ c = '*' ∨ c = '(' ∨ c = ')') {r : Text} {is : List SqlLex.Item}
      (hr : startsWith Char.isDigit r = false) (h : Lexes r is) : Lexes (c :: r) (.punct c :: is) := by
    obtain ⟨hspace, hstart, hquote, hident, hdigit, hdash, hslash, hdollar⟩ : isSpace c = false ∧ isWordStart c = false ∧
        c ≠ '\'' ∧ c ≠ '"' ∧ c.isDigit = false ∧ c ≠ '-' ∧ c ≠ '/' ∧ c ≠ '$' := by
      rcases hc with rfl | rfl | rfl | rfl <;> decide
    exact .cons (.punct hspace hstart hquote hident (by simp [startsNumber, hdigit, hr]) (fun h => hdash h.1)
      (fun h => hslash h.1) fun h => hdollar h.1) h
  have huri := lexes_str uri (r := [')']) rfl (hpunct (by simp) rfl .nil)
  have hread := Lexes.cons (takes_word hword.1 hword.2 (c := '(') (by decide) (by decide)) (hpunct (by simp) rfl huri)
  have hfrom := lexes_words ["FROM"] (by decide) hread
  have hstar := hpunct (c := '*') (by simp) rfl (.cons (.space (c := ' ') rfl) hfrom)
  have has := Lexes.cons (.space (c := ' ') rfl) (lexes_words ["AS", "SELECT"] (by decide) hstar)
  have htable := hpunct (c := '.') (by simp) rfl (lexes_quoted table rfl has)
  have hcreate := lexes_words ["CREATE", "OR", "REPLACE", "TABLE"] (by decide) (lexes_quoted schema rfl htable)
  simpa only [datasetLoadItems, loadItems, renderAll_append, renderAll_cons, renderAll_nil, SqlLex.Item.render, List.append_assoc,
    List.cons_append, List.nil_append, List.append_nil] using hcreate

theorem lexes_datasetLoadSql (schema : Text) (t : DatasetTableInfo) : Lexes (datasetLoadSql schema t)
    (datasetLoadItems schema t.tableName (readerOf t.sourceUri t.format) t.sourceUri) := by
  rw [datasetLoadSql_eq]
  exact lexes_datasetLoad schema t.tableName t.sourceUri (readerOf_mem t.sourceUri t.format)

/-! ### Texts of the same shape -/

/-- Two texts that differ in the contents of literals and comments at most. -/
def SameShape (t t' : Text) : Prop :=
  ∃ is js, Lexes t is ∧ Lexes t' js ∧ Parens.start.shape js = Parens.start.shape is

theorem SameShape.refl_of_lexes {t : Text} {is : List SqlLex.Item} (h : Lexes t is) : SameShape t t := ⟨is, is, h, h, rfl⟩

theorem sameShape_datasetLoadSql (schema : Text) (t : DatasetTableInfo) :
    SameShape (datasetLoadSql schema t) (datasetLoadSql schema t) := .refl_of_lexes (lexes_datasetLoadSql schema t)

namespace Parens

/-- What has a part in front without literals keeps it. -/
theorem eq_append_of_plain {p : Parens} {is js ks : List SqlLex.Item} (h : p.plain is)
    (hshape : p.shape js = p.shape (is ++ ks)) : ∃ ls, js = is ++ ls ∧ (p.after is).shape ls = (p.after is).shape ks := by
  induction is generalizing p js with
  | nil => exact ⟨js, rfl, hshape⟩
  | cons i is ih =>
    cases js with
    | nil => cases hshape
    | cons j js =>
      rw [plain, Bool.and_eq_true, Bool.not_eq_true'] at h
      obtain ⟨hhide, hrest⟩ := List.cons.inj hshape
      obtain rfl := eq_of_hide h.1 hhide
      obtain ⟨ls, rfl, hls⟩ := ih h.2 hrest
      exact ⟨ls, rfl, hls⟩

/-- What has the shape of a string and a token is a string and the token. -/
theorem eq_str_of_shape {p : Parens} {js : List SqlLex.Item} {b : Text} {c : Char}
    (h : p.shape js = p.shape [.str b, .punct c]) : ∃ b', js = [.str b', .punct c] := by
  cases js with
  | nil => cases h
  | cons i js =>
    obtain ⟨hi, hjs⟩ := List.cons.inj h
    have hstr : ∃ b', i = .str b' := by
      cases twins_of_hide hi with
      | same => exact ⟨b, rfl⟩
      | str b' => exact ⟨b', rfl⟩
    obtain ⟨b', rfl⟩ := hstr
    have hplain : (p.next (.str b)).plain [.punct c] = true := rfl
    have hrest : js = [.punct c] := eq_of_plain hplain hjs
    subst hrest
    exact ⟨b', rfl⟩

end Parens

/-- What is behind a part of the items lexes to the others. -/
theorem lexes_behind {t : Text} {is js : List SqlLex.Item} (h : Lexes t (is ++ js)) : ∃ r, Lexes r js := by
  induction is generalizing t with
  | nil => exact ⟨t, h⟩
  | cons i is ih =>
    cases h with
    | cons _ hrest => exact ih hrest

theorem plain_createSchemaItems (schema : Text) : Parens.start.plain (createSchemaItems schema) = true := rfl

theorem plain_loadItems (schema table reader : Text) : Parens.start.plain (loadItems schema table reader) = true := rfl

/-- Each reader has a format that asks for it. -/
theorem exists_format {reader : Text}
    (h : reader ∈ ["read_csv_auto".toList, "read_json_auto".toList, "read_parquet".toList]) :
    ∃ format, ∀ uri, readerOf uri format = reader := by
  simp only [List.mem_cons, List.not_mem_nil, or_false] at h
  rcases h with rfl | rfl | rfl
  · exact ⟨"csv".toList, fun _ => rfl⟩
  · exact ⟨"json".toList, fun _ => rfl⟩
  · exact ⟨"parquet".toList, fun _ => rfl⟩

/-- **A text of the shape of a load's statement** is the statement of another URI. -/
theorem exists_table (schema : Text) (t : DatasetTableInfo) {t' : Text} (h : SameShape (datasetLoadSql schema t) t') :
    ∃ table : DatasetTableInfo, datasetLoadSql schema table = t' := by
  obtain ⟨is, js, his, hjs, hshape⟩ := h
  have hreader := readerOf_mem t.sourceUri t.format
  rw [his.unique (lexes_datasetLoadSql schema t), datasetLoadItems] at hshape
  obtain ⟨ls, rfl, hls⟩ := Parens.eq_append_of_plain (plain_loadItems schema t.tableName _) hshape
  obtain ⟨b, rfl⟩ := Parens.eq_str_of_shape hls
  obtain ⟨r, hr⟩ := lexes_behind hjs
  obtain ⟨uri, rfl⟩ : ∃ uri, double '\'' uri = b := by
    cases hr with
    | cons hstr _ =>
      cases hstr with
      | str hscan => exact ⟨_, double_undouble_of_scanQuote hscan⟩
  obtain ⟨format, hformat⟩ := exists_format hreader
  refine ⟨⟨t.tableName, uri, format⟩, ?_⟩
  rw [datasetLoadSql_eq, hformat, hjs.render]
  rfl

/-! ### What turns out alike -/

/-- How a call ends, but for its error. -/
def outcome {ε : Type} (r : Ended ε Unit) : Ended Unit Unit := r.mapErr fun _ => ()

theorem isOk_of_outcome {ε : Type} {r r' : Ended ε Unit} (h : outcome r' = outcome r) : r'.isOk = r.isOk := by
  cases r <;> cases r' <;> first | rfl | cases h

theorem Ending.Alike.outcome {x x' : Ending} (h : x.Alike x') : outcome x'.ended = outcome x.ended := by
  cases h <;> rfl

theorem Ending.Alike.recorded {x x' : Ending} (h : x.Alike x') : x'.recorded.isSome = x.recorded.isSome := by
  cases h <;> rfl

namespace SqlCall

/-- Calls that turn out alike end alike. -/
theorem Alike.outcome {op : SqlOp} {c c' : SqlCall op} (h : c.Alike c') :
    AgentCore.outcome c'.result = AgentCore.outcome c.result := by
  induction h with
  | here site m m' lookup owner prep h =>
    obtain ((e | info) | _) := lookup
    · rfl
    · cases owner with
      | false => rfl
      | true => exact h.outcome
    · rfl
  | forwarded site m m' lookup hop u u' _ ih =>
    obtain ((e | info) | _) := lookup
    · rfl
    · cases hop with
      | relayed => exact ih
      | undelivered | lost | abandoned => rfl
    · rfl

/-- How many records an operation leaves at its end. -/
theorem records_length (op : SqlOp) (site : Site) (m : Moment) (pondRef sql : Text) (info : RecordedPond)
    (recorded : Option (Option ErrorEnvelope × Option QueryMeta)) :
    (op.records site m pondRef sql info recorded).1.length = (if recorded.isSome then 1 else 0) ∧
      (op.records site m pondRef sql info recorded).2.length =
        (if recorded.isSome ∧ op ≠ .explainQuery ∧ info.lineage = true then 2 else 0) := by
  cases recorded with
  | none => exact ⟨rfl, by simp [SqlOp.records]⟩
  | some r =>
    refine ⟨rfl, ?_⟩
    simp only [SqlOp.records, SqlOp.lineage, emitLineage, SqlOp.queryRecord]
    split_ifs <;> simp_all [record]

/-- Calls that turn out alike leave as many records. -/
theorem Alike.length {op : SqlOp} {c c' : SqlCall op} (h : c.Alike c') (pondRef t t' : Text) :
    (c'.leaves pondRef t').said.1.length = (c.leaves pondRef t).said.1.length ∧
      (c'.leaves pondRef t').said.2.length = (c.leaves pondRef t).said.2.length := by
  simp only [Trail.said, List.length_map]
  induction h with
  | @here op site m m' lookup owner prep run run' h =>
    rw [here_leaves, here_leaves]
    obtain ((e | info) | _) := lookup
    · exact ⟨rfl, rfl⟩
    · cases owner with
      | false =>
        simp only [Bool.false_eq_true, if_false]
        exact ⟨rfl, rfl⟩
      | true =>
        simp only [if_true]
        have hold := records_length op site m pondRef t info (run.ending site prep).1.recorded
        have hnew := records_length op site m' pondRef t' info (run'.ending site prep).1.recorded
        rw [h.recorded] at hnew
        exact ⟨hnew.1.trans hold.1.symm, hnew.2.trans hold.2.symm⟩
    · exact ⟨rfl, rfl⟩
  | forwarded site m m' lookup hop u u' _ ih =>
    rw [forwarded_leaves, forwarded_leaves]
    obtain ((e | info) | _) := lookup
    · exact ⟨rfl, rfl⟩
    · by_cases hr : hop.reaches = true
      · simp only [hr, if_true]
        exact ih
      · simp only [if_neg hr, and_self]
    · exact ⟨rfl, rfl⟩

end SqlCall

/-! ### Loads -/

section

variable (pondRef : Text) (writes : ℕ → SqlCall .writeQuery)

/-- Every write that begins is silent. -/
def SilentWrites : ℕ → List Text → Prop
  | _, [] => True
  | k, sql :: rest =>
    (∀ is, Lexes sql is → (writes k).Silent is) ∧ ((writes k).result.isOk → SilentWrites (k + 1) rest)

variable {pondRef writes} {writes' : ℕ → SqlCall .writeQuery}

/-- Writes that turn out alike end alike. -/
theorem writesResult_alike (hw : ∀ k, (writes k).Alike (writes' k)) {texts texts' : List Text} {k : ℕ}
    (h : List.Forall₂ SameShape texts texts') :
    outcome (writesResult writes' k texts') = outcome (writesResult writes k texts) := by
  induction h generalizing k with
  | nil => rfl
  | cons _ _ ih =>
    have hk := (hw k).outcome
    rw [writesResult, writesResult, isOk_of_outcome hk]
    split
    · exact ih
    · exact hk

/-- **Silent writes** that turn out alike say the same of statements of one shape. -/
theorem writesTrail_said_eq (hw : ∀ k, (writes k).Alike (writes' k)) {texts texts' : List Text} {k : ℕ}
    (h : List.Forall₂ SameShape texts texts') (hsilent : SilentWrites writes k texts) :
    (writesTrail pondRef writes' k texts').said = (writesTrail pondRef writes k texts).said := by
  induction h generalizing k with
  | nil => rfl
  | cons hsame _ ih =>
    obtain ⟨is, js, his, hjs, hshape⟩ := hsame
    have hsaid := SqlCall.said_eq (hw k) his hjs hshape (hsilent.1 is his) pondRef
    rw [writesTrail, writesTrail, Trail.said_append, Trail.said_append, hsaid, isOk_of_outcome (hw k).outcome]
    cases hok : (writes k).result.isOk with
    | false => rfl
    | true => rw [if_pos rfl, if_pos rfl, ih (hsilent.2 hok)]

/-- A write that is not silent has another one that says something else. -/
theorem exists_loud {sql : Text} {is : List SqlLex.Item} (h : Lexes sql is) {c : SqlCall .writeQuery}
    (hloud : ¬∀ js, Lexes sql js → c.Silent js) (pondRef : Text) :
    ∃ sql' c', SameShape sql sql' ∧ c.Alike c' ∧ (c'.leaves pondRef sql').said ≠ (c.leaves pondRef sql).said := by
  have hnot : ¬c.Silent is := fun hsilent => hloud fun js hjs => h.unique hjs ▸ hsilent
  rw [← c.says_same_iff pondRef h] at hnot
  push Not at hnot
  obtain ⟨sql', js, c', hjs, hshape, halike, hne⟩ := hnot
  exact ⟨sql', c', ⟨is, js, h, hjs, hshape⟩, halike, hne⟩

/-- Trails that begin with parts of one length begin with the same parts. -/
theorem said_append_left {t t' u u' : Trail} (haccess : t'.said.1.length = t.said.1.length)
    (hevents : t'.said.2.length = t.said.2.length) (h : (t'.append u').said = (t.append u).said) : t'.said = t.said := by
  rw [Trail.said_append, Trail.said_append] at h
  obtain ⟨h₁, h₂⟩ := Prod.mk.inj h
  exact Prod.ext (List.append_inj h₁ haccess).1 (List.append_inj h₂ hevents).1

theorem alike_update {k : ℕ} {c : SqlCall .writeQuery} (h : (writes k).Alike c) :
    ∀ j, (writes j).Alike (Function.update writes k c j) := by
  intro j
  by_cases hj : j = k
  · subst hj
    rwa [Function.update_self]
  · rw [Function.update_of_ne hj]
    exact .refl _

/-- The tables of a load, one of whose writes is not silent, have others that are written alike and say something
else. -/
theorem exists_loud_tables (schema pondRef : Text) {tables : List DatasetTableInfo} {k : ℕ}
    (hloud : ¬SilentWrites writes k (tables.map (datasetLoadSql schema))) :
    ∃ (tables' : List DatasetTableInfo) (writes' : ℕ → SqlCall .writeQuery),
      List.Forall₂ SameShape (tables.map (datasetLoadSql schema)) (tables'.map (datasetLoadSql schema)) ∧
      (∀ j, (writes j).Alike (writes' j)) ∧ (∀ j < k, writes' j = writes j) ∧
      (writesTrail pondRef writes' k (tables'.map (datasetLoadSql schema))).said ≠
        (writesTrail pondRef writes k (tables.map (datasetLoadSql schema))).said := by
  induction tables generalizing k with
  | nil => exact absurd trivial hloud
  | cons table tables ih =>
    have hlex := lexes_datasetLoadSql schema table
    by_cases hfirst : ∀ is, Lexes (datasetLoadSql schema table) is → (writes k).Silent is
    · have hrest : (writes k).result.isOk ∧ ¬SilentWrites writes (k + 1) (tables.map (datasetLoadSql schema)) := by
        by_contra hnot
        exact hloud ⟨hfirst, fun hok => not_not.1 fun h => hnot ⟨hok, h⟩⟩
      obtain ⟨hok, hrest⟩ := hrest
      obtain ⟨tables', writes', hshape, halike, hsame, hne⟩ := ih hrest
      refine ⟨table :: tables', writes', .cons (sameShape_datasetLoadSql schema table) hshape, halike,
        fun j hj => hsame j (by omega), ?_⟩
      rw [List.map_cons, List.map_cons, writesTrail, writesTrail, hsame k (Nat.lt_succ_self k), hok, if_pos rfl, if_pos rfl,
        Trail.said_append, Trail.said_append]
      intro h
      obtain ⟨h₁, h₂⟩ := Prod.mk.inj h
      exact hne (Prod.ext (List.append_cancel_left h₁) (List.append_cancel_left h₂))
    · obtain ⟨sql', c', hshape, halike, hne⟩ := exists_loud hlex hfirst pondRef
      obtain ⟨table', rfl⟩ := exists_table schema table hshape
      refine ⟨table' :: tables, Function.update writes k c', .cons hshape ?_, ?_, ?_, ?_⟩
      · rw [List.forall₂_same]
        intro sql hsql
        obtain ⟨t, -, rfl⟩ := List.mem_map.1 hsql
        exact sameShape_datasetLoadSql schema t
      · exact alike_update halike
      · intro j hj
        exact Function.update_of_ne (Nat.ne_of_lt hj) ..
      · rw [List.map_cons, List.map_cons, writesTrail, writesTrail, Function.update_self]
        intro h
        have hlen := halike.length pondRef (datasetLoadSql schema table) (datasetLoadSql schema table')
        exact hne (said_append_left hlen.1 hlen.2 h)

end

namespace Load

/-- Two lookups of a dataset that turn out alike: with statements of the same shapes. -/
inductive Found : Awaited (Except ErrorEnvelope DatasetInfo) → Awaited (Except ErrorEnvelope DatasetInfo) → Prop where
  | same (d : Awaited (Except ErrorEnvelope DatasetInfo)) : Found d d
  | loaded {ds ds' : DatasetInfo} (h : List.Forall₂ SameShape (loadStatements ds) (loadStatements ds')) :
    Found (.done (.ok ds)) (.done (.ok ds'))

/-- Two loads whose lookups and whose writes turn out alike. -/
structure Alike (load load' : Load) : Prop where
  site : load'.site = load.site
  dataset : Found load.dataset load'.dataset
  writes : ∀ k, (load.writes k).Alike (load'.writes k)

/-- **Where a load is silent**: every write that begins is. -/
def Silent (load : Load) : Prop :=
  match load.dataset with
  | .done (.ok ds) => SilentWrites load.writes 0 (loadStatements ds)
  | _ => True

theorem sameShape_createSchemaSql (schema : Text) {t : Text} (h : SameShape (createSchemaSql schema) t) :
    t = createSchemaSql schema := by
  obtain ⟨is, js, his, hjs, hshape⟩ := h
  have hschema := lexes_createSchemaSql schema
  rw [his.unique hschema] at hshape
  rw [Parens.eq_of_plain (plain_createSchemaItems schema) hshape] at hjs
  rw [hjs.render, ← hschema.render]

theorem sameShape_loadStatements (ds : DatasetInfo) : List.Forall₂ SameShape (loadStatements ds) (loadStatements ds) := by
  refine .cons (.refl_of_lexes (lexes_createSchemaSql ds.name)) (List.forall₂_same.2 fun sql hsql => ?_)
  obtain ⟨t, -, rfl⟩ := List.mem_map.1 hsql
  exact sameShape_datasetLoadSql ds.name t

/-- What the record of a load says is up to how the load ends. -/
theorem record_said {load load' : Load} (hsite : load'.site = load.site) {r r' : Ended ErrorEnvelope Unit}
    (h : outcome r' = outcome r) (pondRef dataset : Text) :
    (load'.record pondRef dataset r').map accessSaid = (load.record pondRef dataset r).map accessSaid := by
  cases r <;> cases r' <;> cases h <;> simp [record, accessRecord, accessSaid, hsite, Ended.isOk]

theorem leaves_said (load : Load) (pondRef dataset : Text) : (load.leaves pondRef dataset).said =
    ((load.innerEnd pondRef).2.said.1 ++ (load.record pondRef dataset (load.innerEnd pondRef).1).map accessSaid,
      (load.innerEnd pondRef).2.said.2) := by
  rw [leaves_eq, Trail.said_append]
  simp [Trail.said]

/-- Loads that turn out alike end alike. -/
theorem Alike.outcome {load load' : Load} (h : load.Alike load') (pondRef : Text) :
    AgentCore.outcome (load'.innerEnd pondRef).1 = AgentCore.outcome (load.innerEnd pondRef).1 := by
  obtain ⟨site, m, dataset, writes⟩ := load
  obtain ⟨site', m', dataset', writes'⟩ := load'
  obtain ⟨-, hdataset, hwrites⟩ := h
  cases hdataset with
  | same =>
    obtain ((e | ds) | _) := dataset
    · rfl
    · exact writesResult_alike hwrites (sameShape_loadStatements ds)
    · rfl
  | loaded hshape => exact writesResult_alike hwrites hshape

/-- What a load says is what its writes say. -/
theorem Alike.said_iff {load load' : Load} (h : load.Alike load') (pondRef dataset : Text) :
    (load'.leaves pondRef dataset).said = (load.leaves pondRef dataset).said ↔
      (load'.innerEnd pondRef).2.said = (load.innerEnd pondRef).2.said := by
  rw [leaves_said, leaves_said, record_said h.site (h.outcome pondRef)]
  constructor
  · intro heq
    obtain ⟨haccess, hevents⟩ := Prod.mk.inj heq
    exact Prod.ext (List.append_cancel_right haccess) hevents
  · intro heq
    rw [heq]

/-- **No literals on the trail** of a load. -/
theorem says_same_iff (load : Load) (pondRef dataset : Text) :
    (∀ load', load.Alike load' → (load'.leaves pondRef dataset).said = (load.leaves pondRef dataset).said) ↔
      load.Silent := by
  obtain ⟨site, m, lookup, writes⟩ := load
  constructor
  · intro hsame
    obtain ((e | ds) | _) := lookup
    · trivial
    · by_contra hloud
      have hloud : ¬SilentWrites writes 0 (loadStatements ds) := hloud
      have hlex := lexes_createSchemaSql ds.name
      by_cases hfirst : ∀ is, Lexes (createSchemaSql ds.name) is → (writes 0).Silent is
      · have hrest : (writes 0).result.isOk ∧ ¬SilentWrites writes 1 (ds.tables.map (datasetLoadSql ds.name)) := by
          by_contra hnot
          exact hloud ⟨hfirst, fun hok => not_not.1 fun h => hnot ⟨hok, h⟩⟩
        obtain ⟨hok, hrest⟩ := hrest
        obtain ⟨tables', writes', hshape, halike, hkept, hne⟩ := exists_loud_tables ds.name pondRef hrest
        have hload : Alike ⟨site, m, .done (.ok ds), writes⟩ ⟨site, m, .done (.ok ⟨ds.name, tables'⟩), writes'⟩ :=
          ⟨rfl, .loaded (.cons (.refl_of_lexes hlex) hshape), halike⟩
        have heq := (hload.said_iff pondRef dataset).1 (hsame _ hload)
        change (writesTrail pondRef writes' 0 (_ :: _)).said = (writesTrail pondRef writes 0 (_ :: _)).said at heq
        rw [writesTrail, writesTrail, hkept 0 Nat.one_pos, hok, if_pos rfl, if_pos rfl, Trail.said_append,
          Trail.said_append] at heq
        obtain ⟨h₁, h₂⟩ := Prod.mk.inj heq
        exact hne (Prod.ext (List.append_cancel_left h₁) (List.append_cancel_left h₂))
      · obtain ⟨sql', c', hshape, halike, hne⟩ := exists_loud hlex hfirst pondRef
        obtain rfl := sameShape_createSchemaSql ds.name hshape
        have hload : Alike ⟨site, m, .done (.ok ds), writes⟩ ⟨site, m, .done (.ok ds), Function.update writes 0 c'⟩ :=
          ⟨rfl, .same _, alike_update halike⟩
        have heq := (hload.said_iff pondRef dataset).1 (hsame _ hload)
        change (writesTrail pondRef (Function.update writes 0 c') 0 (_ :: _)).said =
          (writesTrail pondRef writes 0 (_ :: _)).said at heq
        rw [writesTrail, writesTrail, Function.update_self] at heq
        have hlen := halike.length pondRef (createSchemaSql ds.name) (createSchemaSql ds.name)
        exact hne (said_append_left hlen.1 hlen.2 heq)
    · trivial
  · intro hsilent load' h
    rw [h.said_iff]
    obtain ⟨site', m', lookup', writes'⟩ := load'
    obtain ⟨-, hdataset, hwrites⟩ := h
    cases hdataset with
    | same =>
      obtain ((e | ds) | _) := lookup
      · rfl
      · exact writesTrail_said_eq hwrites (sameShape_loadStatements ds) hsilent
      · rfl
    | loaded hshape => exact writesTrail_said_eq hwrites hshape hsilent

end Load

/-- **No literals on the trail**: of every call of an operation that runs a caller's SQL, and of every load of a dataset,
the trail says the same of all texts of one shape exactly where the call is silent. -/
theorem trail_says_same_iff {op : SqlOp} (c : SqlCall op) (load : Load) (pondRef dataset : Text) {t : Text}
    {is : List SqlLex.Item} (h : Lexes t is) :
    ((∀ (t' : Text) (js : List SqlLex.Item) (c' : SqlCall op), Lexes t' js →
      Parens.start.shape js = Parens.start.shape is → c.Alike c' →
        (c'.leaves pondRef t').said = (c.leaves pondRef t).said) ↔ c.Silent is) ∧
    ((∀ load', load.Alike load' → (load'.leaves pondRef dataset).said = (load.leaves pondRef dataset).said) ↔
      load.Silent) :=
  ⟨c.says_same_iff pondRef h, load.says_same_iff pondRef dataset⟩

/-! ### A pull -/

/-- A pond with lineage, and an instant. -/
def sales : RecordedPond := ⟨"p".toList, "sales".toList, true⟩

def instant : Moment := ⟨⟨[], none, fun _ => [], []⟩, 0⟩

/-- A pull that succeeds, on the pond's node. -/
def pull : SqlCall .catalogPull :=
  .here Armed.oneNode instant (.done (.ok sales)) true (.ok ()) (.catalogPull ⟨.done (.ok ()), .done (.ok (.ok {})), 1⟩)

/-- A read that succeeds, on the pond's node. -/
def plainRead : SqlCall .readQuery :=
  .here Armed.oneNode instant (.done (.ok sales)) true (.ok ()) (.readQuery ⟨.done (.ok (.ok ⟨1, {}⟩)), false, none, 0⟩)

/-- A load whose dataset is still being looked up when its caller goes. -/
def abandonedLoad : Load where
  site := Armed.oneNode
  m := instant
  dataset := .dropped
  writes _ := .here Armed.oneNode instant .dropped true (.ok ()) (.writeQuery ⟨.dropped, false, none, 0⟩)

def ana : Text := "SELECT 'ana'".toList

def bob : Text := "SELECT 'bob'".toList

def anaItems : List SqlLex.Item := [.word "SELECT".toList, .space ' ', .str "ana".toList]

def bobItems : List SqlLex.Item := [.word "SELECT".toList, .space ' ', .str "bob".toList]

theorem lexes_ana : Lexes ana anaItems := lex_eq_some.1 (by decide +kernel)

theorem lexes_bob : Lexes bob bobItems := lex_eq_some.1 (by decide +kernel)

/-- What is in the string of a read is not on the trail. -/
theorem read_says_same : (plainRead.leaves "sales".toList bob).said = (plainRead.leaves "sales".toList ana).said := by
  refine (trail_says_same_iff plainRead abandonedLoad "sales".toList "taxi".toList lexes_ana).1.2 ?_ bob bobItems plainRead
    lexes_bob (by decide +kernel) (.refl _)
  rintro x ⟨⟩ -
  refine ⟨?_, fun e p hfailed => nomatch hfailed⟩
  rw [Hides, if_neg (by decide)]
  decide +kernel

/-- What is in the string of a pull is. -/
theorem pull_says_other : ¬∀ (t' : Text) (js : List SqlLex.Item) (c' : SqlCall .catalogPull), Lexes t' js →
    Parens.start.shape js = Parens.start.shape anaItems → pull.Alike c' →
      (c'.leaves "sales".toList t').said = (pull.leaves "sales".toList ana).said := by
  intro hsame
  have hsaid := hsame bob bobItems pull lexes_bob (by decide +kernel) (.refl _)
  have hsummary := congrArg (fun t => t.1.map AccessRecord.summary) hsaid
  revert hsummary
  decide +kernel

end Latiq.AgentCore
