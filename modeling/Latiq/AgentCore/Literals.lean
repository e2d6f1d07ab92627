import Latiq.AgentCore.Noninterference
import Latiq.AgentCore.Ops

/-!
# Literals on the trail

The access record and the lineage of an operation are meant to say what ran and not the values it ran on: the SQL in them
is redacted. Two ways go past `redact_sql`. `catalog_pull` puts its query into the access record as it was sent, and a
failed operation puts the engine's sentence into the `errorMessage` facet.

* `Trail.said` — what the trail of an operation says, ids and times apart.
* `SqlCall.Alike` — two calls that turn out alike, whatever the sentence of an error is.
* `SqlCall.Silent` — where the text and the sentence do not show.

## What is proved

* `plain_iff` — a text without literals and comments has no other text of its shape.
* `message_of_same`, `exists_other_message` — the kinds of error whose sentence is always the same, and the others.
* `SqlCall.says_same_iff` — calls of texts of one shape that turn out alike say the same exactly where the call is silent.
-/

namespace Latiq.AgentCore

open SqlLex hiding Text
open RustStr (Text)
open Unwind
open Serde (Value)
open Latiq.Common
open Latiq.EngineDuckdb (EngineError)
open Latiq.Lineage

/-! ### Texts without literals -/

namespace Parens

/-- Whether an item has contents that its shape leaves out. -/
def isLiteral (p : Parens) : SqlLex.Item → Bool
  | .str _ | .estr _ _ | .dollar _ _ | .lineComment _ | .blockComment _ => true
  | .number _ => !p.inType
  | _ => false

/-- Whether no item has. -/
def plain : Parens → List SqlLex.Item → Bool
  | _, [] => true
  | p, i :: is => !p.isLiteral i && plain (p.next i) is

theorem eq_of_hide {p : Parens} {i j : SqlLex.Item} (hi : p.isLiteral i = false) (h : p.hide j = p.hide i) : j = i := by
  cases twins_of_hide h with
  | same => rfl
  | number n n' htype => simp [isLiteral, htype] at hi
  | _ => cases hi

theorem eq_of_plain {p : Parens} {is js : List SqlLex.Item} (h : p.plain is) (hshape : p.shape js = p.shape is) : js = is := by
  induction is generalizing p js with
  | nil =>
    cases js with
    | nil => rfl
    | cons j js => cases hshape
  | cons i is ih =>
    cases js with
    | nil => cases hshape
    | cons j js =>
      rw [plain, Bool.and_eq_true, Bool.not_eq_true'] at h
      obtain ⟨hhide, hrest⟩ := List.cons.inj hshape
      obtain rfl := eq_of_hide h.1 hhide
      rw [ih h.2 hrest]

theorem exists_of_not_plain {p : Parens} {is : List SqlLex.Item} (h : p.plain is = false) :
    ∃ pre i post, is = pre ++ i :: post ∧ (p.after pre).isLiteral i = true := by
  induction is generalizing p with
  | nil => cases h
  | cons i is ih =>
    rw [plain, Bool.and_eq_false_iff] at h
    rcases h with h | h
    · exact ⟨[], i, is, rfl, (Bool.not_eq_false' _).mp h⟩
    · obtain ⟨pre, j, post, rfl, hj⟩ := ih h
      exact ⟨i :: pre, j, post, rfl, hj⟩

end Parens

/-- An item with contents can be written with others in its place. -/
theorem exists_twin {p : Parens} {i : SqlLex.Item} {r : Text} (hi : Takes (i.render ++ r) i r) (hlit : p.isLiteral i) :
    ∃ j, j ≠ i ∧ p.hide j = p.hide i ∧ Takes (j.render ++ r) j r ∧ LooksLike (i.render ++ r) (j.render ++ r) ∧
      j.render.head? = i.render.head? := by
  -- one of two bodies is not the one that is there
  have hbody {f : Text → SqlLex.Item} (hf : Function.Injective f) (b : Text)
      (hhide : ∀ b', p.hide (f b') = p.hide (f b)) (htakes : ∀ b' ∈ [[], ['e']], Takes ((f b').render ++ r) (f b') r)
      (hlike : ∀ b', LooksLike ((f b).render ++ r) ((f b').render ++ r))
      (hhead : ∀ b', (f b').render.head? = (f b).render.head?) :
      ∃ j, j ≠ f b ∧ p.hide j = p.hide (f b) ∧ Takes (j.render ++ r) j r ∧ LooksLike ((f b).render ++ r) (j.render ++ r) ∧
        j.render.head? = (f b).render.head? := by
    obtain ⟨b', hb', hne⟩ : ∃ b' ∈ [[], ['e']], b' ≠ b := by
      by_cases hb : b = []
      · exact ⟨['e'], by simp, by simp [hb]⟩
      · exact ⟨[], by simp, fun h => hb h.symm⟩
    exact ⟨f b', fun h => hne (hf h), hhide b', htakes b' hb', hlike b', hhead b'⟩
  cases i with
  | str b =>
    refine hbody (f := .str) (fun _ _ h => SqlLex.Item.str.inj h) b (fun _ => rfl) (fun b' hb' => hi.str_body ?_)
      (fun _ => .of_barrier (by decide) _ _) fun _ => rfl
    simp only [List.mem_cons, List.not_mem_nil, or_false] at hb'
    rcases hb' with rfl | rfl <;> rfl
  | estr e b =>
    refine hbody (f := .estr e) (fun _ _ h => (SqlLex.Item.estr.inj h).2) b (fun _ => rfl) (fun b' hb' => hi.estr_body ?_)
      (fun _ => .of_alike fun _ => .cons e (.stop (by decide))) fun _ => rfl
    simp only [List.mem_cons, List.not_mem_nil, or_false] at hb'
    rcases hb' with rfl | rfl <;> rfl
  | dollar tag b =>
    refine hbody (f := .dollar tag) (fun _ _ h => (SqlLex.Item.dollar.inj h).2) b (fun _ => rfl) (fun b' hb' => hi.dollar_body ?_)
      (fun _ => .of_barrier (by decide) _ _) fun _ => rfl
    simp only [List.mem_cons, List.not_mem_nil, or_false] at hb'
    rcases hb' with rfl | rfl <;> simp
  | lineComment b =>
    refine hbody (f := .lineComment) (fun _ _ h => SqlLex.Item.lineComment.inj h) b (fun _ => rfl)
      (fun b' hb' => hi.lineComment_body ?_) (fun _ => .of_alike fun _ => .dashes) fun _ => rfl
    simp only [List.mem_cons, List.not_mem_nil, or_false] at hb'
    rcases hb' with rfl | rfl <;> simp [isNewline]
  | blockComment b =>
    refine hbody (f := .blockComment) (fun _ _ h => SqlLex.Item.blockComment.inj h) b (fun _ => rfl)
      (fun b' hb' => hi.blockComment_body ?_) (fun _ => .of_barrier (by decide) _ _) fun _ => rfl
    simp only [List.mem_cons, List.not_mem_nil, or_false] at hb'
    rcases hb' with rfl | rfl <;> rfl
  | number n =>
    have htype : p.inType = false := by simpa [Parens.isLiteral] using hlit
    have hhide (n' : Text) : p.hide (.number n') = p.hide (.number n) := by simp [Parens.hide, htype]
    rcases hi.number_start with ⟨d, D, rfl, hd⟩ | ⟨d, D, rfl, hd⟩
    · refine ⟨.number (d :: '_' :: '0' :: D), fun h => ?_, hhide _, hi.number_digit hd rfl, fun q hq => ?_, rfl⟩
      · have hlen := congrArg List.length (SqlLex.Item.number.inj h)
        simp only [List.length_cons] at hlen
        omega
      · cases q with
        | false => exact .digit hd
        | true =>
          have hnot : Char.isDigit d = false := hq rfl
          rw [hd] at hnot
          cases hnot
    · refine ⟨.number ('.' :: d :: '_' :: '0' :: D), fun h => ?_, hhide _, hi.number_point hd rfl,
        .of_barrier (by decide) _ _, rfl⟩
      have hlen := congrArg List.length (SqlLex.Item.number.inj h)
      simp only [List.length_cons] at hlen
      omega
  | space | quoted | word | punct => cases hlit

/-- **A text without literals** has no other text of its shape, and every other text has one. -/
theorem plain_iff {t : Text} {is : List SqlLex.Item} (h : Lexes t is) :
    (∀ t' js, Lexes t' js → Parens.start.shape js = Parens.start.shape is → t' = t) ↔ Parens.start.plain is := by
  obtain ⟨rfl, his⟩ := lexes_iff_placed.1 h
  constructor
  · intro hsame
    by_contra hnot
    obtain ⟨pre, i, post, rfl, hlit⟩ := Parens.exists_of_not_plain (by simpa using hnot)
    have hi : Takes (i.render ++ renderAll post) i (renderAll post) := his.of_append.1
    obtain ⟨j, hne, hhide, hj, hlike, hhead⟩ := exists_twin hi hlit
    have hplaced : Placed (pre ++ j :: post) := by
      refine his.splice ⟨hj, his.of_append.2⟩ hlike fun hline => ?_
      rw [renderAll_cons] at hline ⊢
      obtain ⟨c, u, hc⟩ := List.exists_cons_of_ne_nil hi.render_ne_nil
      obtain ⟨d, v, hd⟩ := List.exists_cons_of_ne_nil hj.render_ne_nil
      rw [hc, hd] at hhead
      rw [hc] at hline
      rw [hd]
      cases hhead
      exact hline
    have htext := hsame _ _ hplaced.lexes (Parens.shape_exchange hhide)
    have hitems := hplaced.lexes.unique (htext ▸ his.lexes)
    exact hne (List.cons.inj (List.append_cancel_left hitems)).1
  · intro hplain t' js hjs hshape
    obtain rfl := Parens.eq_of_plain hplain hshape
    exact hjs.render

/-! ### What a trail says -/

/-- An access record without its ids and times. -/
def accessSaid (r : AccessRecord) : AccessRecord := { r with traceId := [], durationMs := 0 }

/-- A facet's body without its ids and times. -/
def bodySaid : Value → Value
  | .obj members => .obj (members.filter fun m => m.1 ≠ "durationMs" ∧ m.1 ≠ "traceId")
  | v => v

/-- The facets of a run without their ids and times. -/
def facetsSaid (fs : Facets) : Facets := fs.map fun f => (f.1, bodySaid f.2)

/-- A dataset without its version, which is the id of a snapshot. -/
def datasetSaid (d : Dataset) : Dataset := { d with facets := d.facets.filter fun f => f.1 ≠ "version" }

/-- An event without its ids and times. -/
def eventSaid (e : RunEvent) : RunEvent :=
  { e with
    eventTime := []
    run := ⟨[], facetsSaid e.run.facets⟩
    inputs := e.inputs.map datasetSaid
    outputs := e.outputs.map datasetSaid }

/-- **What a trail says**, ids and times apart. -/
def Trail.said (t : Trail) : List AccessRecord × List RunEvent := (t.access.map accessSaid, t.events.map eventSaid)

@[simp] theorem Trail.said_append (t u : Trail) :
    (t.append u).said = ((t.said.1 ++ u.said.1), (t.said.2 ++ u.said.2)) := by
  simp [Trail.said, Trail.append]

/-- A dataset that is named, without its version. -/
def unversioned (d : DatasetRef) : DatasetRef := { d with version := none }

/-- What a plan names: its datasets, with their versions apart. -/
def named (m : Option QueryMeta) : List DatasetRef × List DatasetRef :=
  (((m.map QueryMeta.inputs).getD []).map unversioned, ((m.map QueryMeta.outputs).getD []).map unversioned)

theorem toDataset_said (info : RecordedPond) (fallback : Option ℤ) (d : DatasetRef) :
    datasetSaid (toDataset info fallback d) = datasetSaid (toDataset info none (unversioned d)) := by
  unfold toDataset datasetSaid unversioned
  cases d.version.or fallback <;> by_cases hf : d.fields.isEmpty <;>
    simp only [hf, Dataset.with, Facets.with, Facet.datasetVersion, Facet.schema, Facet.stamp, Serde.insert,
      Bool.false_eq_true, ↓reduceIte, String.reduceEq, String.reduceLT, Option.or_self, ne_eq, decide_not, decide_true,
      decide_false, Bool.not_true, Bool.not_false, not_false_eq_true, List.filter_cons_of_pos, List.filter_cons_of_neg,
      List.filter_nil]

theorem map_toDataset_said (info : RecordedPond) (fallback fallback' : Option ℤ) {ds ds' : List DatasetRef}
    (h : ds.map unversioned = ds'.map unversioned) :
    (ds.map (toDataset info fallback)).map datasetSaid = (ds'.map (toDataset info fallback')).map datasetSaid := by
  have hmap (fb : Option ℤ) (l : List DatasetRef) : (l.map (toDataset info fb)).map datasetSaid =
      (l.map unversioned).map fun d => datasetSaid (toDataset info none d) := by
    simp only [List.map_map]
    exact List.map_congr_left fun d _ => toDataset_said info fb d
  rw [hmap, hmap, h]

theorem head_name {ds ds' : List DatasetRef} (h : ds.map unversioned = ds'.map unversioned) :
    ds.head?.map DatasetRef.name = ds'.head?.map DatasetRef.name := by
  have hname (l : List DatasetRef) : l.head?.map DatasetRef.name = (l.map unversioned).head?.map DatasetRef.name := by
    cases l <;> rfl
  rw [hname ds, h, ← hname ds']

theorem bodySaid_query (op : String) (outcome : Outcome) (d d' : ℕ) (meaning : DurationMeaning) (tr tr' : Option Text) :
    bodySaid (Facet.query op outcome d meaning tr).body = bodySaid (Facet.query op outcome d' meaning tr').body := by
  simp only [bodySaid, Facet.query, Facet.stamp, Lineage.object, List.foldl_cons, List.foldl_nil, Serde.insert,
    String.reduceEq, String.reduceLT, ↓reduceIte, ne_eq, Bool.decide_and, decide_not, decide_true, decide_false,
    Bool.not_true, Bool.not_false, Bool.and_self, Bool.and_true, Bool.and_false, Bool.false_eq_true, not_false_eq_true,
    List.filter_cons_of_pos, List.filter_cons_of_neg, List.filter_nil]

theorem facetsSaid_with (fs : Facets) (f : Facet) :
    facetsSaid (fs.with f) = Serde.insert f.key (bodySaid f.body) (facetsSaid fs) := Serde.map_insert ..

/-- The run of a terminal event, as far as it is said. -/
theorem terminalRun_said (around : Surroundings) (r : QueryRecord) :
    facetsSaid (terminalRun around r).facets =
      let fs := Serde.insert "latiq_query" (bodySaid (Facet.query r.op (terminal r.error).2 0 r.meaning none).body)
        (facetsSaid (baseRun around r).facets)
      match r.error with
      | some e => Serde.insert "errorMessage" (bodySaid (Facet.errorMessage e.message).body) fs
      | none => fs := by
  have hquery (outcome : Outcome) (tr : Option Text) := bodySaid_query r.op outcome r.durationMs 0 r.meaning tr none
  unfold terminalRun
  cases r.error with
  | none =>
    dsimp only [Run.with]
    rw [facetsSaid_with, hquery]
    rfl
  | some e =>
    dsimp only [Run.with]
    rw [facetsSaid_with, facetsSaid_with, hquery]
    rfl

/-- The kind and the sentence of an error, which is what lineage tells of it. -/
def told (error : Option ErrorEnvelope) : Option (ErrorKind × Text) := error.map fun e => (e.kind, e.message)

theorem terminal_told {error error' : Option ErrorEnvelope} (h : told error = told error') :
    terminal error = terminal error' := by
  cases error with
  | none =>
    cases error' with
    | none => rfl
    | some e' => cases h
  | some e =>
    cases error' with
    | none => cases h
    | some e' =>
      have hkind : e.kind = e'.kind := (Prod.mk.inj (Option.some.inj h)).1
      simp only [terminal, hkind]

/-- **What lineage says** of an operation: what redaction leaves of its text, the kind and the sentence of its error, and
the datasets that were named. -/
theorem lineage_said (op : SqlOp) (site : Site) (m m' : Moment) {sql sql' : Text} (info : RecordedPond)
    {error error' : Option ErrorEnvelope} {result result' : Option QueryMeta} (hred : redactSql sql = redactSql sql')
    (htold : told error = told error') (hnamed : named result = named result') :
    (op.lineage site m sql info error result).map eventSaid = (op.lineage site m' sql' info error' result').map eventSaid := by
  obtain ⟨hin, hout⟩ := Prod.mk.inj hnamed
  have htarget : (((result.map QueryMeta.outputs).getD []).head?.or ((result.map QueryMeta.inputs).getD []).head?).map
      DatasetRef.name = (((result'.map QueryMeta.outputs).getD []).head?.or
        ((result'.map QueryMeta.inputs).getD []).head?).map DatasetRef.name := by
    rw [Option.map_or, Option.map_or, head_name hin, head_name hout]
  have hjob : jobOf site.servingName (op.queryRecord site m sql info error result) =
      jobOf site.servingName (op.queryRecord site m' sql' info error' result') := by
    funext target
    simp only [jobOf, SqlOp.queryRecord, hred]
  have hrun : facetsSaid (terminalRun m.toSurroundings (op.queryRecord site m sql info error result)).facets =
      facetsSaid (terminalRun m'.toSurroundings (op.queryRecord site m' sql' info error' result')).facets := by
    rw [terminalRun_said, terminalRun_said]
    cases error with
    | none =>
      cases error' with
      | none => rfl
      | some e' => cases htold
    | some e =>
      cases error' with
      | none => cases htold
      | some e' =>
        have hmessage : e.message = e'.message := (Prod.mk.inj (Option.some.inj htold)).2
        simp only [SqlOp.queryRecord, terminal_told htold, hmessage]
        rfl
  have hinputs (fb : Option ℤ) := map_toDataset_said info fb fb hin
  have houtputs := map_toDataset_said info (result.bind QueryMeta.snapshotId) (result'.bind QueryMeta.snapshotId) hout
  unfold SqlOp.lineage
  split
  · rfl
  · by_cases hl : info.lineage = true
    · simp only [emitLineage, SqlOp.queryRecord, hl, if_true, record, List.map_cons, List.map_nil, eventSaid] at hjob hrun ⊢
      rw [hjob, hrun, htarget, hinputs, houtputs, terminal_told htold]
      rfl
    · simp [emitLineage, SqlOp.queryRecord, hl]

/-! ### The sentence of an error -/

/-- Whether an error of this kind always has the same sentence, for an operation. -/
def SaysTheSame (op : SqlOp) : ErrorKind → Prop
  | .readOnlyViolation | .queryCancelled | .queryTimeout => True
  | .resultCapExceeded => op = .readCollected
  | _ => False

/-- The errors with which the part of an operation fails that has the engine. -/
inductive Fails (site : Site) (op : SqlOp) : ErrorEnvelope → Prop where
  | ours (message : Text) : Fails site op (internalError message)
  | raised (e : Raised) : Fails site op (agentError e.error)
  | expired : Fails site op (queryTimeout site.limits.effectiveMs site.limits.maxMs)
  | overCap (rows : ℕ) (h : op = .readQuery) : Fails site op (resultCapExceeded rows site.limits.inlineRowCap)
  | overCapUnknown (h : op = .readCollected) : Fails site op (resultCapExceededUnknown site.limits.inlineRowCap)

theorem fails_classify (site : Site) (op : SqlOp) (expired : Bool) (e : Raised) :
    Fails site op (site.classify expired e) := by
  unfold Site.classify Deadline.classify
  split_ifs
  · exact .expired
  · exact .raised e

theorem fails_task {α : Type} {site : Site} {op : SqlOp} {classify : Raised → ErrorEnvelope} {planned : Option QueryMeta}
    {answered : α → Ending} {task : Task α} {e : ErrorEnvelope} {p : Option QueryMeta}
    (hclassify : ∀ e, Fails site op (classify e)) (hanswered : ∀ a, answered a = .failed e p → Fails site op e)
    (h : task.ending classify planned answered = .failed e p) : Fails site op e := by
  obtain ((what | (x | a)) | _) := task
  · cases h
    exact .ours _
  · cases h
    exact hclassify x
  · exact hanswered a h
  · cases h

theorem fails_stream {site : Site} {op : SqlOp} {run : StreamRun} {established : Ending} {e : ErrorEnvelope}
    {p : Option QueryMeta} (hest : established = .failed e p → Fails site op e)
    (h : run.ending site established = .failed e p) : Fails site op e := by
  obtain ⟨((_ | (x | _)) | _), expired, published⟩ := run
  · cases h
    exact .ours _
  · cases h
    exact fails_classify site op expired x
  · exact hest h
  · cases h

theorem fails_of_failed {op : SqlOp} {site : Site} {run : SqlRun op} {e : ErrorEnvelope} {p : Option QueryMeta}
    (h : run.engineEnding site = .failed e p) : Fails site op e := by
  cases run with
  | readQuery run =>
    refine fails_task (fails_classify site _ _) (fun answered ha => ?_) h
    split_ifs at ha
    · cases ha
      exact .overCap _ rfl
  | writeQuery run =>
    refine fails_task (fails_classify site _ _) (fun _ ha => ?_) h
    cases ha
  | readArrow run =>
    refine fails_stream (fun ha => ?_) h
    cases ha
  | readCollected run collected =>
    refine fails_stream (fun ha => ?_) h
    obtain ((x | meta_) | _) := collected
    · cases ha
      cases x with
      | raised x expired => exact fails_classify site _ expired x
      | unreadable message => exact .ours message
      | overCap => exact .overCapUnknown rfl
    · cases ha
    · cases ha
  | explainQuery run =>
    refine fails_task (fun e => .raised e) (fun _ ha => ?_) h
    cases ha
  | catalogPull run =>
    refine fails_task (fun e => .raised e) (fun _ ha => ?_) h
    cases ha

/-- The sentence of a kind that has one. -/
def sentenceOf (site : Site) : ErrorKind → Text
  | .readOnlyViolation => (agentError .readOnlyViolation).message
  | .queryCancelled => (agentError .cancelled).message
  | .queryTimeout => (queryTimeout site.limits.effectiveMs site.limits.maxMs).message
  | .resultCapExceeded => (resultCapExceededUnknown site.limits.inlineRowCap).message
  | _ => []

/-- **One sentence** for a kind that has one. -/
theorem message_of_same {site : Site} {op : SqlOp} {e : ErrorEnvelope} (h : Fails site op e) (hsame : SaysTheSame op e.kind) :
    e.message = sentenceOf site e.kind := by
  cases h with
  | ours message => cases hsame
  | raised x =>
    obtain ⟨x, hx⟩ := x
    cases x with
    | timeout => exact absurd rfl hx
    | readOnlyViolation | cancelled => rfl
    | unsupported m feature => cases feature <;> cases hsame
    | _ => cases hsame
  | expired => rfl
  | overCap rows hop =>
    subst hop
    cases hsame
  | overCapUnknown hop => rfl

/-- The errors of the engine that pass its words on, by their kind. -/
def engineErrorOf : ErrorKind → Option (Text → EngineError)
  | .parseError => some .parse
  | .catalogError => some .catalog
  | .invalidValue => some .invalidInput
  | .sourceUnavailable => some .sourceIo
  | .unsupportedFeature => some fun m => .unsupported m none
  | .capabilityUnavailable => some fun m => .capabilityUnavailable m []
  | .missingArgument => some .missingParameter
  | .internal => some .engine
  | _ => none

theorem engineErrorOf_eq_some {kind : ErrorKind} {f : Text → EngineError} (h : engineErrorOf kind = some f) :
    (∀ m, f m ≠ .timeout ∧ f m ≠ .cancelled ∧ (agentError (f m)).kind = kind) ∧
      ∃ lead : Text, ∀ m, (agentError (f m)).message = lead ++ m := by
  cases kind with
  | internal =>
    cases h
    exact ⟨fun m => ⟨nofun, nofun, rfl⟩, "engine error: ".toList, fun m => rfl⟩
  | parseError | catalogError | invalidValue | sourceUnavailable | unsupportedFeature | capabilityUnavailable
  | missingArgument =>
    cases h
    exact ⟨fun m => ⟨nofun, nofun, rfl⟩, [], fun m => rfl⟩
  | _ => cases h

/-- The kinds of the errors that an operation fails with. -/
theorem engineErrorOf_of_fails {site : Site} {op : SqlOp} {e : ErrorEnvelope} (h : Fails site op e)
    (hsame : ¬SaysTheSame op e.kind) :
    (∃ f, engineErrorOf e.kind = some f) ∨ (op = .readQuery ∧ ∃ rows, e = resultCapExceeded rows site.limits.inlineRowCap) := by
  cases h with
  | ours message => exact .inl ⟨_, rfl⟩
  | raised x =>
    obtain ⟨x, hx⟩ := x
    cases x with
    | timeout => exact absurd rfl hx
    | readOnlyViolation | cancelled => exact absurd trivial hsame
    | unsupported m feature => cases feature <;> exact .inl ⟨_, rfl⟩
    | _ => exact .inl ⟨_, rfl⟩
  | expired => exact absurd trivial hsame
  | overCap rows hop => exact .inr ⟨hop, rows, rfl⟩
  | overCapUnknown hop => exact absurd hop hsame

theorem resultCapExceeded_message (rows cap : ℕ) : (resultCapExceeded rows cap).message =
    "Result has ".toList ++ Nat.toDigits 10 rows ++
      (" rows, over the inline cap of ".toList ++ Nat.toDigits 10 cap ++ ".".toList) := by
  simp only [resultCapExceeded, ErrorEnvelope.rendered, ErrorEnvelope.renderedWith, ErrorEnvelope.new, renderFacts, facts,
    List.foldl_cons, List.foldl_nil, Serde.insert, String.reduceEq, String.reduceLT, ↓reduceIte, String.reduceToList,
    renderFrom, ↓Char.isValue, Char.reduceEq, fillPlaceholder, List.lookup_cons, List.nil_append, List.cons_append,
    String.ofList_cons, String.ofList_nil, String.reduceSingleton, String.append_empty, String.reduceAppend,
    String.reduceBEq, BEq.rfl, Fact.display]

theorem resultCapExceeded_kind (rows cap : ℕ) : (resultCapExceeded rows cap).kind = .resultCapExceeded := rfl

theorem resultCapExceeded_inj {rows rows' cap : ℕ}
    (h : (resultCapExceeded rows cap).message = (resultCapExceeded rows' cap).message) : rows = rows' := by
  rw [resultCapExceeded_message, resultCapExceeded_message, List.append_left_inj, List.append_right_inj] at h
  simpa using congrArg (Nat.ofDigitChars 10 · 0) h

theorem task_planned {α : Type} {classify : Raised → ErrorEnvelope} {answered : α → Ending} {task : Task α}
    {e : ErrorEnvelope} {p : Option QueryMeta} (h : task.ending classify none answered = .failed e p)
    (hanswered : ∀ a, answered a = .failed e p → p = none) : p = none := by
  obtain ((what | (x | a)) | _) := task
  · cases h
    rfl
  · cases h
    rfl
  · exact hanswered a h
  · cases h

theorem stream_planned {site : Site} {run : StreamRun} {established : Ending} {e : ErrorEnvelope} {p : Option QueryMeta}
    (h : run.ending site established = .failed e p) (hest : established = .failed e p → p = none) : p = none := by
  obtain ⟨((_ | (x | _)) | _), expired, published⟩ := run
  · cases h
    rfl
  · cases h
    rfl
  · exact hest h
  · cases h

/-- Only a write that failed has what its plan named. -/
theorem planned_of_failed {op : SqlOp} {site : Site} {run : SqlRun op} {e : ErrorEnvelope} {p : Option QueryMeta}
    (h : run.engineEnding site = .failed e p) (hop : op ≠ .writeQuery) : p = none := by
  cases run with
  | readQuery run =>
    refine task_planned h fun answered ha => ?_
    split_ifs at ha
    cases ha
    rfl
  | writeQuery run => exact absurd rfl hop
  | readArrow run => exact stream_planned h nofun
  | readCollected run collected =>
    refine stream_planned h fun ha => ?_
    obtain ((x | meta_) | _) := collected
    · cases ha
      rfl
    · cases ha
    · cases ha
  | explainQuery run => exact task_planned h nofun
  | catalogPull run => exact task_planned h nofun

theorem classify_of_ne {site : Site} {x : Raised} (h : x.error ≠ .cancelled) (expired : Bool) :
    site.classify expired x = agentError x.error := by
  unfold Site.classify Deadline.classify
  rw [if_neg fun hc => h hc.1]

/-- An operation that fails can fail with any other error of the engine. -/
theorem exists_raising {op : SqlOp} {site : Site} {run : SqlRun op} {e : ErrorEnvelope} {p : Option QueryMeta}
    (h : run.engineEnding site = .failed e p) {x : Raised} (hx : x.error ≠ .cancelled) :
    ∃ r : SqlRun op, r.catalog = run.catalog ∧ r.engineEnding site = .failed (agentError x.error) p := by
  have hp := planned_of_failed h
  cases run with
  | readQuery run =>
    rw [hp (by decide)]
    exact ⟨.readQuery { run with task := .done (.ok (.error x)) }, rfl,
      congrArg (Ending.failed · none) (classify_of_ne hx run.expired)⟩
  | writeQuery run =>
    exact ⟨.writeQuery { run with task := .done (.ok (.error x)), planned := p }, rfl,
      congrArg (Ending.failed · p) (classify_of_ne hx run.expired)⟩
  | readArrow run =>
    rw [hp (by decide)]
    exact ⟨.readArrow { run with schema := .done (some (.error x)) }, rfl,
      congrArg (Ending.failed · none) (classify_of_ne hx run.expired)⟩
  | readCollected run collected =>
    rw [hp (by decide)]
    exact ⟨.readCollected { run with schema := .done (some (.error x)) } collected, rfl,
      congrArg (Ending.failed · none) (classify_of_ne hx run.expired)⟩
  | explainQuery run =>
    rw [hp (by decide)]
    exact ⟨.explainQuery { run with task := .done (.ok (.error x)) }, rfl, rfl⟩
  | catalogPull run =>
    rw [hp (by decide)]
    exact ⟨.catalogPull { run with task := .done (.ok (.error x)) }, rfl, rfl⟩

/-- **Another sentence** for a kind that has more than one. -/
theorem exists_other_message {op : SqlOp} {site : Site} {run : SqlRun op} {e : ErrorEnvelope} {p : Option QueryMeta}
    (h : run.engineEnding site = .failed e p) (hsame : ¬SaysTheSame op e.kind) :
    ∃ (r : SqlRun op) (e' : ErrorEnvelope), r.catalog = run.catalog ∧ r.engineEnding site = .failed e' p ∧ e'.kind = e.kind ∧
      e'.message ≠ e.message := by
  rcases engineErrorOf_of_fails (fails_of_failed h) hsame with ⟨f, hf⟩ | ⟨rfl, rows, rfl⟩
  · obtain ⟨hkind, lead, hmessage⟩ := engineErrorOf_eq_some hf
    obtain ⟨htimeout, hcancelled, hkind⟩ := hkind (' ' :: e.message)
    obtain ⟨r, hcatalog, hr⟩ := exists_raising h (x := ⟨_, htimeout⟩) hcancelled
    refine ⟨r, _, hcatalog, hr, hkind, fun heq => ?_⟩
    have hlen := congrArg List.length ((hmessage _).symm.trans heq)
    simp only [List.length_append, List.length_cons] at hlen
    omega
  · -- a result of another size that is over the cap too
    obtain ⟨rows', hcap, hne⟩ : ∃ rows', site.limits.inlineRowCap < rows' ∧ rows' ≠ rows := by
      by_cases hrows : rows = site.limits.inlineRowCap + 1
      · exact ⟨site.limits.inlineRowCap + 2, by omega, by omega⟩
      · exact ⟨site.limits.inlineRowCap + 1, by omega, fun h => hrows h.symm⟩
    rw [planned_of_failed h (by decide)]
    cases run with
    | readQuery run =>
      refine ⟨.readQuery { run with task := .done (.ok (.ok ⟨rows', {}⟩)) }, resultCapExceeded rows' site.limits.inlineRowCap,
        rfl, ?_, ?_, fun heq => hne (resultCapExceeded_inj heq)⟩
      · exact if_pos hcap
      · rw [resultCapExceeded_kind, resultCapExceeded_kind]

/-! ### Calls that turn out alike -/

/-- Two endings that are alike: a result, or an error of one kind, with the same datasets. What fails before the engine
has the statement fails in the same way, whatever the statement is. -/
inductive Ending.Alike : Ending → Ending → Prop where
  | dropped : Alike .dropped .dropped
  | refused (e : ErrorEnvelope) : Alike (.refused e) (.refused e)
  | failed {e e' : ErrorEnvelope} {p p' : Option QueryMeta} (hkind : e'.kind = e.kind) (hnamed : named p' = named p) :
    Alike (.failed e p) (.failed e' p')
  | ok {r r' : Option QueryMeta} (hnamed : named r' = named r) : Alike (.ok r) (.ok r')

theorem Ending.Alike.refl (x : Ending) : x.Alike x := by
  cases x with
  | dropped => exact .dropped
  | refused e => exact .refused e
  | failed e p => exact .failed rfl rfl
  | ok r => exact .ok rfl

/-- Two calls that take the same way and turn out alike. -/
inductive SqlCall.Alike : {op : SqlOp} → SqlCall op → SqlCall op → Prop where
  | here {op : SqlOp} (site : Site) (m m' : Moment) (lookup : PondLookup) (owner : Bool) (prep : Except ErrorEnvelope Unit)
      {run run' : SqlRun op} (h : (run.ending site prep).1.Alike (run'.ending site prep).1) :
    Alike (.here site m lookup owner prep run) (.here site m' lookup owner prep run')
  | forwarded {op : SqlOp} (site : Site) (m m' : Moment) (lookup : PondLookup) (hop : Hop) (unreachable unreachable' : ErrorEnvelope)
      {peer peer' : SqlCall op.forwarded} (h : Alike peer peer') :
    Alike (.forwarded site m lookup hop unreachable peer) (.forwarded site m' lookup hop unreachable' peer')

theorem SqlCall.Alike.refl {op : SqlOp} (c : SqlCall op) : c.Alike c := by
  induction c with
  | here => exact .here _ _ _ _ _ _ (.refl _)
  | forwarded _ _ _ _ _ _ ih => exact .forwarded _ _ _ _ _ _ _ ih

/-- An operation on the node that records it. -/
structure Telling where
  op : SqlOp
  info : RecordedPond
  ending : Ending

/-- The operation on the node that records it, if it gets to one. -/
def SqlCall.telling : {op : SqlOp} → SqlCall op → Option Telling
  | op, .here site _ (.done (.ok info)) true prep run => some ⟨op, info, (run.ending site prep).1⟩
  | _, .forwarded _ _ (.done (.ok _)) hop _ peer => if hop.reaches then peer.telling else none
  | _, _ => none

/-- Whether the contents of the literals and comments of a text are left out of the access record. -/
def Hides (op : SqlOp) (is : List SqlLex.Item) : Prop :=
  if op = .catalogPull then Parens.start.plain is = true else covered .code .start is = true

/-- The text and the sentence of an error do not show in what is recorded. -/
structure Telling.Silent (x : Telling) (is : List SqlLex.Item) : Prop where
  text : Hides x.op is
  sentence : ∀ e p, x.ending = .failed e p → x.info.lineage = true → x.op ≠ .explainQuery → SaysTheSame x.op e.kind

/-- **Where a call is silent**: if it gets to a node that records it. -/
def SqlCall.Silent {op : SqlOp} (c : SqlCall op) (is : List SqlLex.Item) : Prop :=
  ∀ x ∈ c.telling, x.ending.recorded.isSome → x.Silent is

/-! ### What shows of a call -/

section

variable (op : SqlOp) (site : Site) (m m' : Moment) (pondRef : Text) {sql sql' : Text} (info : RecordedPond)

/-- What an operation records, as far as it is said. -/
def recordsSaid (sql : Text) (recorded : Option (Option ErrorEnvelope × Option QueryMeta)) :
    List AccessRecord × List RunEvent :=
  ((op.records site m pondRef sql info recorded).1.map accessSaid, (op.records site m pondRef sql info recorded).2.map eventSaid)

theorem lineage_of_not (hnot : info.lineage = false ∨ op = .explainQuery) (sql : Text) (error : Option ErrorEnvelope)
    (result : Option QueryMeta) : op.lineage site m sql info error result = [] := by
  unfold SqlOp.lineage
  rcases hnot with hl | rfl
  · simp [emitLineage, SqlOp.queryRecord, hl]
  · rfl

theorem redact_of_summary (h : (op.summary pondRef sql' info).2 = (op.summary pondRef sql info).2) :
    redactSql sql' = redactSql sql := by
  unfold SqlOp.summary at h
  split_ifs at h
  · exact congrArg redactSql h
  · exact h

variable {op site m m' pondRef info}

/-- **Alike calls of texts that are summed up alike** say the same, where the sentence of an error is the same. -/
theorem recordsSaid_eq {x x' : Ending} (halike : x.Alike x')
    (hsummary : (op.summary pondRef sql' info).2 = (op.summary pondRef sql info).2)
    (hsentence : ∀ e p e' p', x = .failed e p → x' = .failed e' p' → info.lineage = true → op ≠ .explainQuery →
      e'.message = e.message) :
    recordsSaid op site m' pondRef info sql' x'.recorded = recordsSaid op site m pondRef info sql x.recorded := by
  have hred := redact_of_summary op pondRef info hsummary
  have hpond : (op.summary pondRef sql' info).1 = (op.summary pondRef sql info).1 := by
    unfold SqlOp.summary
    split <;> rfl
  have hrecorded {error error' : Option ErrorEnvelope} {result result' : Option QueryMeta}
      (hok : error'.isNone = error.isNone)
      (htold : info.lineage = true → op ≠ .explainQuery → told error' = told error) (hnamed : named result' = named result) :
      recordsSaid op site m' pondRef info sql' (some (error', result')) =
        recordsSaid op site m pondRef info sql (some (error, result)) := by
    refine Prod.ext ?_ ?_
    · simp [recordsSaid, SqlOp.records, accessSaid, accessRecord, hsummary, hpond, hok]
    · show (op.lineage site m' sql' info error' result').map eventSaid = (op.lineage site m sql info error result).map eventSaid
      by_cases hl : info.lineage = true ∧ op ≠ .explainQuery
      · exact lineage_said op site m' m info hred (htold hl.1 hl.2) hnamed
      · have hnot : info.lineage = false ∨ op = .explainQuery := by
          by_cases h : info.lineage = true
          · exact .inr (by_contra fun hop => hl ⟨h, hop⟩)
          · exact .inl (by simpa using h)
        rw [lineage_of_not op site m' info hnot, lineage_of_not op site m info hnot]
  cases halike with
  | dropped => rfl
  | refused e => exact hrecorded rfl (fun _ _ => rfl) rfl
  | failed hkind hnamed =>
    refine hrecorded rfl (fun hl hop => ?_) hnamed
    rw [told, told, Option.map_some, Option.map_some, hkind, hsentence _ _ _ _ rfl rfl hl hop]
  | ok hnamed => exact hrecorded rfl (fun _ _ => rfl) hnamed

/-- Alike calls that record nothing. -/
theorem recordsSaid_of_unrecorded {x x' : Ending} (halike : x.Alike x') (hx : ¬x.recorded.isSome) :
    recordsSaid op site m' pondRef info sql' x'.recorded = recordsSaid op site m pondRef info sql x.recorded := by
  cases halike with
  | dropped => rfl
  | refused e | failed hkind hnamed | ok hnamed => exact absurd rfl hx

/-- The summary is in the access record. -/
theorem summary_of_recordsSaid {x : Ending} (hx : x.recorded.isSome)
    (h : recordsSaid op site m' pondRef info sql' x.recorded = recordsSaid op site m pondRef info sql x.recorded) :
    (op.summary pondRef sql' info).2 = (op.summary pondRef sql info).2 := by
  obtain ⟨⟨error, result⟩, hx⟩ := Option.isSome_iff_exists.1 hx
  rw [hx] at h
  have haccess := (List.cons.inj (Prod.mk.inj h).1).1
  exact congrArg AccessRecord.summary haccess

/-- The sentence of an error is in the lineage. -/
theorem message_of_recordsSaid {e e' : ErrorEnvelope} {p p' : Option QueryMeta} (hl : info.lineage = true)
    (hop : op ≠ .explainQuery)
    (h : recordsSaid op site m' pondRef info sql' (some (some e', p')) =
      recordsSaid op site m pondRef info sql (some (some e, p))) :
    e'.message = e.message := by
  have hevents := (Prod.mk.inj h).2
  simp only [SqlOp.records, SqlOp.lineage, if_neg hop, emitLineage, SqlOp.queryRecord, hl, if_true, record, List.map_cons,
    List.map_nil] at hevents
  have hterminal := (List.cons.inj (List.cons.inj hevents).2).1
  have hfacets : facetsSaid (terminalRun _ _).facets = facetsSaid (terminalRun _ _).facets :=
    congrArg (fun v : RunEvent => v.run.facets) hterminal
  rw [terminalRun_said, terminalRun_said] at hfacets
  have hbody := congrArg (List.lookup "errorMessage") hfacets
  dsimp only at hbody
  rw [Serde.lookup_insert, if_pos rfl, Serde.lookup_insert, if_pos rfl, Option.some.injEq] at hbody
  simp only [bodySaid, Facet.errorMessage, Facet.stamp, Lineage.object, List.foldl_cons, List.foldl_nil, Serde.insert,
    String.reduceEq, String.reduceLT, ↓reduceIte, ne_eq, Bool.decide_and, decide_not, decide_false, Bool.not_false,
    Bool.and_self, List.filter_cons_of_pos, List.filter_nil, Value.obj.injEq, List.cons.injEq, Prod.mk.injEq,
    Value.str.injEq, true_and, and_true] at hbody
  exact hbody

end

/-! ### Calls -/

theorem SqlRun.trail_said {op : SqlOp} (site : Site) (m : Moment) (pondRef sql : Text) (info : RecordedPond)
    (prep : Except ErrorEnvelope Unit) (run : SqlRun op) :
    (run.trail site m pondRef sql info prep).said =
      recordsSaid op site m pondRef info sql (run.ending site prep).1.recorded := rfl

theorem rejection_said (site : Site) (m m' : Moment) (op : String) (pond : Text) :
    (rejection site m op pond).said = (rejection site m' op pond).said := rfl

/-- What the texts of one shape are summed up as. -/
theorem summary_of_hides {op : SqlOp} {t t' : Text} {is js : List SqlLex.Item} (his : Lexes t is) (hjs : Lexes t' js)
    (hshape : Parens.start.shape js = Parens.start.shape is) (h : Hides op is) (pondRef : Text) (info : RecordedPond) :
    (op.summary pondRef t' info).2 = (op.summary pondRef t info).2 := by
  unfold Hides at h
  unfold SqlOp.summary
  split_ifs at h ⊢
  · exact (plain_iff his).2 h t' js hjs hshape
  · exact (redaction_hides_iff his).2 h t' js hjs hshape

/-- What fails with the engine has got to it. -/
theorem ending_eq_failed {op : SqlOp} {site : Site} {prep : Except ErrorEnvelope Unit} {run : SqlRun op} {e : ErrorEnvelope}
    {p : Option QueryMeta} : (run.ending site prep).1 = .failed e p ↔
      run.catalog = .done (.ok ()) ∧ prep = .ok () ∧ run.engineEnding site = .failed e p := by
  unfold SqlRun.ending
  obtain ((x | _) | _) := run.catalog
  · simp
  · cases prep <;> simp
  · simp

namespace SqlCall

/-- **Silent calls** that turn out alike say the same of two texts of one shape. -/
theorem said_eq {op : SqlOp} {c c' : SqlCall op} (halike : c.Alike c') {t t' : Text} {is js : List SqlLex.Item}
    (his : Lexes t is) (hjs : Lexes t' js) (hshape : Parens.start.shape js = Parens.start.shape is) (hsilent : c.Silent is)
    (pondRef : Text) : (c'.leaves pondRef t').said = (c.leaves pondRef t).said := by
  induction halike with
  | @here op site m m' lookup owner prep run run' h =>
    rw [here_leaves, here_leaves]
    obtain ((e | info) | _) := lookup
    · exact rejection_said site m' m _ _
    · cases owner with
      | false =>
        simp only [Bool.false_eq_true, if_false]
        exact rejection_said site m' m _ _
      | true =>
        show (run'.trail site m' pondRef t' info prep).said = (run.trail site m pondRef t info prep).said
        rw [SqlRun.trail_said, SqlRun.trail_said]
        by_cases hrec : (run.ending site prep).1.recorded.isSome
        · obtain ⟨htext, hsentence⟩ := hsilent _ rfl hrec
          refine recordsSaid_eq h (summary_of_hides his hjs hshape htext pondRef info) fun e p e' p' he he' hl hop => ?_
          have hsame := hsentence e p he hl hop
          rw [he, he'] at h
          cases h with
          | failed hkind hnamed =>
            rw [message_of_same (fails_of_failed (ending_eq_failed.1 he).2.2) hsame,
              message_of_same (fails_of_failed (ending_eq_failed.1 he').2.2) (hkind ▸ hsame), hkind]
        · exact recordsSaid_of_unrecorded h hrec
    · rfl
  | forwarded site m m' lookup hop u u' h ih =>
    rw [forwarded_leaves, forwarded_leaves]
    obtain ((e | info) | _) := lookup
    · exact rejection_said site m' m _ _
    · by_cases hr : hop.reaches = true
      · simp only [hr, if_true]
        exact ih fun x hx => hsilent x (by simpa [telling, hr] using hx)
      · simp only [if_neg hr]
    · rfl

/-- What the record of a call has for its text shows. -/
theorem text_shows {op : SqlOp} {c : SqlCall op} {x : Telling} (hx : x ∈ c.telling) (hrec : x.ending.recorded.isSome)
    {t t' pondRef : Text} (h : (c.leaves pondRef t').said = (c.leaves pondRef t).said) :
    (x.op.summary pondRef t' x.info).2 = (x.op.summary pondRef t x.info).2 := by
  induction c with
  | here site m lookup owner prep run =>
    obtain ((e | info) | _) := lookup
    · cases hx
    · cases owner with
      | false => cases hx
      | true =>
        cases hx
        rw [here_leaves, here_leaves] at h
        exact summary_of_recordsSaid hrec h
    · cases hx
  | forwarded site m lookup hop unreachable peer ih =>
    obtain ((e | info) | _) := lookup
    · cases hx
    · cases hr : hop.reaches with
      | false => simp [telling, hr] at hx
      | true =>
        rw [forwarded_leaves, forwarded_leaves] at h
        simp only [hr, if_true] at h
        exact ih (by simpa [telling, hr] using hx) h
    · cases hx

/-- The sentence of an error shows, where it is not always the same: the call can turn out alike with another one. -/
theorem sentence_shows {op : SqlOp} {c : SqlCall op} {x : Telling} (hx : x ∈ c.telling) {e : ErrorEnvelope}
    {p : Option QueryMeta} (hfailed : x.ending = .failed e p) (hl : x.info.lineage = true) (hop : x.op ≠ .explainQuery)
    (hsame : ¬SaysTheSame x.op e.kind) (pondRef t : Text) :
    ∃ c', c.Alike c' ∧ (c'.leaves pondRef t).said ≠ (c.leaves pondRef t).said := by
  induction c with
  | here site m lookup owner prep run =>
    obtain ((_ | info) | _) := lookup
    · cases hx
    · cases owner with
      | false => cases hx
      | true =>
        cases hx
        obtain ⟨hcatalog, rfl, hengine⟩ := ending_eq_failed.1 hfailed
        obtain ⟨run', e', hcatalog', hengine', hkind, hmessage⟩ := exists_other_message hengine hsame
        have hfailed' : (run'.ending site (.ok ())).1 = .failed e' p :=
          ending_eq_failed.2 ⟨hcatalog'.trans hcatalog, rfl, hengine'⟩
        refine ⟨.here site m _ true (.ok ()) run', .here site m m _ true _ ?_, fun h => hmessage ?_⟩
        · rw [show (run.ending site (.ok ())).1 = _ from hfailed, hfailed']
          exact .failed hkind rfl
        · rw [here_leaves, here_leaves] at h
          change (run'.trail site m pondRef t info (.ok ())).said = (run.trail site m pondRef t info (.ok ())).said at h
          rw [SqlRun.trail_said, SqlRun.trail_said, hfailed', show (run.ending site (.ok ())).1 = _ from hfailed] at h
          exact message_of_recordsSaid hl hop h
    · cases hx
  | forwarded site m lookup hop unreachable peer ih =>
    obtain ((_ | info) | _) := lookup
    · cases hx
    · cases hr : hop.reaches with
      | false => simp [telling, hr] at hx
      | true =>
        obtain ⟨peer', halike, hne⟩ := ih (by simpa [telling, hr] using hx)
        refine ⟨.forwarded site m (.done (.ok info)) hop unreachable peer', .forwarded site m m _ hop _ _ halike, ?_⟩
        rw [forwarded_leaves, forwarded_leaves]
        simpa only [hr, if_true] using hne
    · cases hx

/-- **No literals on the trail** of a call: texts of the shape of its text, and calls that turn out alike, are recorded
the same, exactly where the call is silent. -/
theorem says_same_iff {op : SqlOp} (c : SqlCall op) (pondRef : Text) {t : Text} {is : List SqlLex.Item} (h : Lexes t is) :
    (∀ (t' : Text) (js : List SqlLex.Item) (c' : SqlCall op), Lexes t' js → Parens.start.shape js = Parens.start.shape is →
        c.Alike c' → (c'.leaves pondRef t').said = (c.leaves pondRef t).said) ↔ c.Silent is := by
  constructor
  · intro hsame x hx hrec
    refine ⟨?_, fun e p he hl hop => ?_⟩
    · have htext : ∀ t' js, Lexes t' js → Parens.start.shape js = Parens.start.shape is →
          (x.op.summary pondRef t' x.info).2 = (x.op.summary pondRef t x.info).2 :=
        fun t' js hjs hshape => text_shows hx hrec (hsame t' js c hjs hshape (.refl c))
      unfold Hides
      unfold SqlOp.summary at htext
      split_ifs at htext ⊢
      · exact (plain_iff h).1 htext
      · exact (redaction_hides_iff h).1 htext
    · by_contra hkind
      obtain ⟨c', halike, hne⟩ := sentence_shows hx he hl hop hkind pondRef t
      exact hne (hsame t is c' h rfl halike)
  · intro hsilent t' js c' hjs hshape halike
    exact said_eq halike h hjs hshape hsilent pondRef

end SqlCall

end Latiq.AgentCore
