import Latiq.ControlPlane.AdminService
import Latiq.EngineDuckdb.Attachers

/-!
# Who wrote what is registered

The datasets and the catalogs are written through the operators' surface only. Each row says who created it, and a
catalog keeps of its params those that its type may keep: what opens a catalog is in the call that pulls from it.

## What is proved

* `rows_written` — behind every run of calls, whatever fails, each row was there before or is what a call that was let in
  wrote; and with a verifier its creator is the subject that was verified.
* `credentials_not_kept` — a run keeps no param that a type may not keep, and what a pull attaches with is the call's
  own but for those that it may.
-/

namespace Latiq.ControlPlane.Service

open RustStr (Text trim)
open Serde Latiq.Common Unwind
open Latiq.Auth (adminIdentity)
open Latiq.EngineDuckdb (Identity)
open Latiq.EngineDuckdb.Attachers (NamedPlan plan s3SecretLine)
open Latiq.ControlPlane.Datasets (Conn Entry Kind Op Shelf CatalogHead DatasetHead Patterns)

/-! ### Operations -/

/-- The connection stays idle, and has the rows that it had, and those. -/
def ConnKept {k : Kind} (W : Text × k.Head → Prop) (c c' : Conn k) : Prop :=
  c.txn = none → c'.txn = none ∧ ∀ row ∈ c'.shelf.heads, row ∈ c.shelf.heads ∨ W row

section

variable {k : Kind} {α : Type} {W : Text × k.Head → Prop}

instance : Std.Refl (ConnKept W) := ⟨fun _ h => ⟨h, fun _ => .inl⟩⟩

instance : IsTrans (Conn k) (ConnKept W) where
  trans := fun _ _ _ h h' hidle =>
    ⟨(h' (h hidle).1).1, fun row hrow => ((h' (h hidle).1).2 row hrow).elim ((h hidle).2 row) .inr⟩

theorem connKept_of_eq {c c' : Conn k} (hshelf : c'.shelf = c.shelf) (htxn : c'.txn = c.txn) : ConnKept W c c' :=
  fun hidle => ⟨htxn.trans hidle, fun _ hrow => .inl (hshelf ▸ hrow)⟩

/-- An `add` writes its own row. -/
theorem add_kept {now : Text} {d : Entry k} (h : W (d.name, k.stamp now d.head)) :
    Act.Keeps (ConnKept W) (Datasets.add now d) := by
  intro c hidle
  rcases Datasets.add_cases now d hidle with ⟨e, -, hback⟩ | ⟨sh, -, hback, hstored⟩
  · exact ⟨hback.txn, fun row hrow => .inl (hback.shelf ▸ hrow)⟩
  · refine ⟨hback.txn, fun row hrow => ?_⟩
    rw [hback.shelf, hstored.heads] at hrow
    rcases List.mem_append.1 hrow with hold | hnew
    · exact .inl (List.mem_of_mem_filter hold)
    · rw [List.mem_singleton.1 hnew]
      exact .inr h

theorem exec_kept {f : Conn k → Except Text (α × Conn k)}
    (h : ∀ c a c', f c = .ok (a, c') → c'.txn = c.txn ∧ c'.shelf.heads ⊆ c.shelf.heads) :
    Act.Keeps (ConnKept W) (Datasets.exec f) := by
  intro c hidle
  rw [Datasets.exec_apply]
  split
  · exact ⟨hidle, fun _ => .inl⟩
  · split
    · rename_i a c' hf
      obtain ⟨htxn, hheads⟩ := h _ _ _ hf
      exact ⟨htxn.trans hidle, fun row hrow => .inl (hheads hrow)⟩
    · exact ⟨hidle, fun _ => .inl⟩

theorem write_kept {f : Shelf k → Shelf k} (h : ∀ sh, (f sh).heads = sh.heads) :
    Act.Keeps (ConnKept W) (Datasets.write fun sh => .ok (f sh)) := by
  refine exec_kept fun c a c' hc => ?_
  cases hc
  exact ⟨rfl, by rw [h]; exact List.Subset.refl _⟩

/-- A `remove` writes no row. -/
theorem remove_kept (name : Text) : Act.Keeps (ConnKept W) (Datasets.remove name) := by
  refine Act.Keeps.bind ?_ fun n => ?_
  · refine exec_kept fun c a c' hc => ?_
    cases hc
    exact ⟨rfl, fun _ => List.mem_of_mem_filter⟩
  · split
    · exact Act.keeps_fail _
    · refine Act.Keeps.bind ?_ fun _ => write_kept fun _ => rfl
      cases k with
      | dataset => exact write_kept fun _ => rfl
      | catalog => exact Act.keeps_pure ()

theorem get_kept (name : Text) : Act.Keeps (ConnKept W) (Datasets.get name : Op k (Entry k)) := fun c =>
  connKept_of_eq (Datasets.get_idle name c).1 (Datasets.get_idle name c).2

theorem getAll_kept : ∀ names : List Text, Act.Keeps (ConnKept W) (getAll names : Op k (List (Entry k)))
  | [] => Act.keeps_pure _
  | n :: ns => (get_kept n).bind fun _ => (getAll_kept ns).bind fun _ => Act.keeps_pure _

theorem listed_kept (pt : Patterns) (q : Text) :
    Act.Keeps (ConnKept W) (Datasets.search pt q >>= getAll : Op k (List (Entry k))) := by
  have hreads := Datasets.select_reads fun sh : Shelf k => sh.names pt q
  exact Act.Keeps.bind (fun c => connKept_of_eq (hreads.shelf c) (hreads.txn c)) getAll_kept

end

/-! ### Methods -/

section

variable {ρ α : Type}

/-- The connection of a kind. -/
def Store.conn (s : Store ρ) : (k : Kind) → Conn k
  | .dataset => s.datasets
  | .catalog => s.catalogs

/-- Both connections. -/
def Kept (W : (k : Kind) → Text × k.Head → Prop) (s s' : Store ρ) : Prop := ∀ k, ConnKept (W k) (s.conn k) (s'.conn k)

variable {W : (k : Kind) → Text × k.Head → Prop}

instance : Std.Refl (Kept (ρ := ρ) W) := ⟨fun _ _ => Std.Refl.refl (r := ConnKept _) _⟩

instance : IsTrans (Store ρ) (Kept W) :=
  ⟨fun _ _ _ h h' k => IsTrans.trans (r := ConnKept (W k)) _ _ _ (h k) (h' k)⟩

theorem queryOr_kept (e : Text → ControlPlaneError) (q : Query ρ α) : Act.Keeps (Kept W) (queryOr e q) := fun _ k => by
  cases k <;> exact Std.Refl.refl (r := ConnKept _) _

theorem onDatasets_kept {op : Op .dataset α} (h : Act.Keeps (ConnKept (W .dataset)) op) :
    Act.Keeps (Kept W) (onDatasets op : Method ρ α) := fun s k => by
  cases k with
  | dataset => exact h s.datasets
  | catalog => exact Std.Refl.refl (r := ConnKept _) _

theorem onCatalogs_kept {op : Op .catalog α} (h : Act.Keeps (ConnKept (W .catalog)) op) :
    Act.Keeps (Kept W) (onCatalogs op : Method ρ α) := fun s k => by
  cases k with
  | dataset => exact Std.Refl.refl (r := ConnKept _) _
  | catalog => exact h s.catalogs

variable (sql : Sql ρ)

theorem describeNode_kept (nodeId : Text) : Act.Keeps (Kept W) (describeNode sql nodeId) := by
  refine (queryOr_kept _ _).bind fun nodes => ?_
  split
  · exact Act.keeps_pure _
  · exact Act.keeps_fail _

theorem setPondTier_kept (pondRef tier : Text) : Act.Keeps (Kept W) (setPondTier sql pondRef tier) := by
  unfold setPondTier
  split
  · exact Act.keeps_fail _
  · refine (queryOr_kept _ _).bind fun n => ?_
    split
    · exact Act.keeps_fail _
    · exact Act.keeps_pure _

theorem forgetPond_kept (pondRef : Text) : Act.Keeps (Kept W) (forgetPond sql pondRef) := by
  refine (queryOr_kept _ _).bind fun r => ?_
  obtain ⟨p, state, endpoint⟩ := r
  dsimp only
  split
  · exact Act.keeps_fail _
  · exact (queryOr_kept _ _).bind fun _ => Act.keeps_pure _

/-! ### Calls -/

/-- What is kept of the registry in a world. -/
def WorldKept (W : (k : Kind) → Text × k.Head → Prop) (w w' : World ρ) : Prop := Kept W w.store w'.store

instance : Std.Refl (WorldKept (ρ := ρ) W) := ⟨fun _ => Std.Refl.refl (r := Kept _) _⟩

instance : IsTrans (World ρ) (WorldKept W) := ⟨fun _ _ _ h h' => IsTrans.trans (r := Kept W) _ _ _ h h'⟩

theorem call_kept {m : Method ρ α} (h : Act.Keeps (Kept W) m) : Act.Keeps (WorldKept W) (call m) := by
  intro w
  have hw := h w.store
  unfold call
  rcases hs : m w.store with ⟨a | e | _, s⟩ <;> rw [hs] at hw <;> exact hw

theorem rejected_kept (who : Identity × Text) (op : Text) (pond : Option Text) (summary : Text) (e : Refusal) :
    Act.Keeps (WorldKept W) (rejected who op pond summary e : Handler ρ Reply) := fun _ =>
  Std.Refl.refl (r := Kept W) _

theorem concluded_kept {who : Identity × Text} {op : Text} {pond : Option Text} {m : Method ρ α}
    {summary : Except Refusal α → Text} {reply : α → Handler ρ Reply} (hm : Act.Keeps (Kept W) m)
    (hreply : ∀ a, Act.Keeps (WorldKept W) (reply a)) :
    Act.Keeps (WorldKept W) (concluded who op pond m summary reply) := by
  refine (call_kept hm).bind fun r => Act.Keeps.bind (fun w => Std.Refl.refl (r := Kept W) _) fun _ => ?_
  refine Act.Keeps.bind ?_ hreply
  cases r with
  | ok a => exact Act.keeps_pure _
  | error e => exact Act.keeps_fail _

theorem pondSummaries_kept (trace : Text) : ∀ rows, Act.Keeps (WorldKept W) (pondSummaries sql trace rows)
  | [] => Act.keeps_pure _
  | row :: rows => by
    have hrest := pondSummaries_kept trace rows
    have hinfo : Act.Keeps (Kept W) (pondInfo sql row.pondId) := (queryOr_kept _ _).bind fun _ => Act.keeps_pure _
    refine (call_kept hinfo).bind fun r => ?_
    rcases r with e | ⟨row', createdAt, policy, endpoint⟩
    · cases e with
      | pondNotFound _ => exact hrest
      | _ => exact Act.keeps_fail _
    · exact hrest.bind fun _ => Act.keeps_pure _

namespace AdminService

variable (svc : AdminService ρ)

/-- The row that a call writes. -/
def Wrote (c : Call) : (k : Kind) → Text × k.Head → Prop
  | .dataset, row => ∃ d, svc.LetsIn c ∧ c.rpc = .datasetAdd (some d) ∧
      row = (d.name, (⟨d.description, createdBy (svc.who c) d.createdBy, c.now⟩ : DatasetHead))
  | .catalog, row => ∃ ca, svc.LetsIn c ∧ c.rpc = .catalogAdd (some ca) ∧ Catalog.isKnownType ca.type_ = true ∧
      row = (ca.name, (⟨ca.type_, Json.print ((map text).encode (catalogParams ca).1), ca.description,
        createdBy (svc.who c) ca.createdBy, c.now⟩ : CatalogHead))

/-- **One call** writes its own row, if any. -/
theorem serve_kept (c : Call) : Act.Keeps (WorldKept (svc.Wrote c)) (svc.serve c) := by
  by_cases hin : svc.LetsIn c
  case neg =>
    intro w
    show Kept _ w.store (svc.serve c w).2.store
    rw [(svc.serve_of_not_letsIn c hin w).1]
    exact Std.Refl.refl (r := Kept _) _
  obtain ⟨identity, hid⟩ := hin
  have hwho : svc.who c = identity := by
    rw [who, hid]
  have hbegin {op : Text} {body : Identity × Text → Handler ρ Reply}
      (h : Act.Keeps (WorldKept (svc.Wrote c)) (body (identity, traceIdOf c))) :
      Act.Keeps (WorldKept (svc.Wrote c)) (svc.identityOf c op >>= body) := by
    unfold identityOf
    rw [hid]
    exact h
  unfold serve
  cases hrpc : c.rpc with
  | listNodes => exact hbegin (concluded_kept (queryOr_kept _ _) fun _ => Act.keeps_pure _)
  | describeNode nodeId => exact hbegin (concluded_kept (describeNode_kept _ _) fun _ => Act.keeps_pure _)
  | policyGet =>
    exact hbegin (concluded_kept ((queryOr_kept _ _).bind fun _ => Act.keeps_pure _) fun _ => Act.keeps_pure _)
  | policySet key value => exact hbegin (concluded_kept (queryOr_kept _ _) fun _ => Act.keeps_pure _)
  | pondList =>
    exact hbegin (concluded_kept ((queryOr_kept _ _).bind fun _ => Act.keeps_pure _) fun rows =>
      (pondSummaries_kept _ _ rows).bind fun _ => Act.keeps_pure _)
  | pondSetTier pond tier =>
    refine hbegin ?_
    split_ifs
    · exact rejected_kept _ _ _ _ _
    · exact concluded_kept (setPondTier_kept _ _ _) fun _ => Act.keeps_pure _
  | pondForget pond confirm =>
    refine hbegin ?_
    split_ifs
    · exact rejected_kept _ _ _ _ _
    · exact rejected_kept _ _ _ _ _
    · exact concluded_kept (forgetPond_kept _ _) fun _ => Act.keeps_pure _
  | datasetAdd dataset =>
    cases dataset with
    | none => exact hbegin (rejected_kept _ _ _ _ _)
    | some d =>
      refine hbegin (concluded_kept (onDatasets_kept (add_kept ?_)) fun _ => Act.keeps_pure _)
      exact ⟨d, ⟨identity, hid⟩, hrpc, by rw [hwho]; rfl⟩
  | datasetRemove name => exact hbegin (concluded_kept (onDatasets_kept (remove_kept _)) fun _ => Act.keeps_pure _)
  | datasetList query => exact hbegin (concluded_kept (onDatasets_kept (listed_kept _ _)) fun _ => Act.keeps_pure _)
  | catalogAdd catalog =>
    cases catalog with
    | none => exact hbegin (rejected_kept _ _ _ _ _)
    | some ca =>
      refine hbegin ?_
      split_ifs with hknown
      · exact rejected_kept _ _ _ _ _
      · refine concluded_kept (onCatalogs_kept (add_kept ?_)) fun _ => Act.keeps_pure _
        exact ⟨ca, ⟨identity, hid⟩, hrpc, by simpa using hknown, by rw [hwho]; rfl⟩
  | catalogRemove name => exact hbegin (concluded_kept (onCatalogs_kept (remove_kept _)) fun _ => Act.keeps_pure _)
  | catalogList query =>
    exact hbegin (concluded_kept ((onCatalogs_kept (listed_kept _ _)).bind fun _ => Act.keeps_pure _) fun _ =>
      Act.keeps_pure _)

/-- A run writes the rows of its calls. -/
theorem run_kept (cs : List Call) (w : World ρ) :
    WorldKept (fun k row => ∃ c ∈ cs, svc.Wrote c k row) w (svc.run cs w).2 := by
  have hmono {W W' : (k : Kind) → Text × k.Head → Prop} (h : ∀ k row, W k row → W' k row) {v v' : World ρ}
      (hv : WorldKept W v v') : WorldKept W' v v' := fun k hidle =>
    ⟨(hv k hidle).1, fun row hrow => ((hv k hidle).2 row hrow).imp_right (h k row)⟩
  induction cs generalizing w with
  | nil => exact Std.Refl.refl (r := WorldKept _) _
  | cons c cs ih =>
    have hfirst : WorldKept (fun k row => ∃ c' ∈ c :: cs, svc.Wrote c' k row) w (svc.serve c w).2 :=
      hmono (fun k row h => ⟨c, List.mem_cons_self, h⟩) (svc.serve_kept c w)
    have hrest : WorldKept (fun k row => ∃ c' ∈ c :: cs, svc.Wrote c' k row) (svc.serve c w).2 (svc.run (c :: cs) w).2 :=
      hmono (fun k row ⟨c', hc', h⟩ => ⟨c', List.mem_cons_of_mem _ hc', h⟩) (ih (svc.serve c w).2)
    exact IsTrans.trans (r := WorldKept _) _ _ _ hfirst hrest

/-! ### Rows -/

/-- The creator on a row. -/
def creator : (k : Kind) → k.Head → Text
  | .dataset, h => DatasetHead.createdBy h
  | .catalog, h => CatalogHead.createdBy h

theorem createdBy_of_verified {identity : Identity} (hverified : identity.verified = true) (hname : identity.subject ≠ [])
    (claimed : Text) : createdBy identity claimed = identity.subject :=
  if_pos ⟨hverified, hname⟩

/-- With a verifier the creator of a row that a call writes is who is verified. -/
theorem creator_of_wrote (hverifier : svc.verifier.isSome) {c : Call} {k : Kind} {row : Text × k.Head}
    (h : svc.Wrote c k row) : (svc.who c).verified = true ∧ creator k row.2 = (svc.who c).subject := by
  cases k with
  | dataset =>
    obtain ⟨d, hin, -, rfl⟩ := h
    obtain ⟨hverified, hname⟩ := svc.verified_of_letsIn c hverifier hin
    exact ⟨hverified, createdBy_of_verified hverified hname _⟩
  | catalog =>
    obtain ⟨ca, hin, -, -, rfl⟩ := h
    obtain ⟨hverified, hname⟩ := svc.verified_of_letsIn c hverifier hin
    exact ⟨hverified, createdBy_of_verified hverified hname _⟩

/-- **Who wrote a row**: behind a run of calls, whatever fails, each row was there before, or is the one that a call
that was let in asks for; with a verifier its creator is the subject that was verified, whoever the message names. -/
theorem rows_written (cs : List Call) (w : World ρ) (hidle : ∀ k, (w.store.conn k).txn = none) (k : Kind)
    {row : Text × k.Head} (hrow : row ∈ ((svc.run cs w).2.store.conn k).shelf.heads) :
    row ∈ (w.store.conn k).shelf.heads ∨ ∃ c ∈ cs, svc.Wrote c k row ∧
      (svc.verifier.isSome → (svc.who c).verified = true ∧ creator k row.2 = (svc.who c).subject) :=
  ((svc.run_kept cs w k (hidle k)).2 row hrow).imp_right fun ⟨c, hc, hwrote⟩ =>
    ⟨c, hc, hwrote, fun hverifier => svc.creator_of_wrote hverifier hwrote⟩

end AdminService

/-- A registry whose other tables cannot be read. -/
def closedTables : Sql Unit :=
  let closed := "closed".toList
  ⟨fun _ => (.error closed, ()), fun _ => (.error closed, ()), fun _ _ => (.error closed, ()),
    fun _ _ => (.error closed, ()), fun _ _ => (.error closed, ()), fun _ _ _ => (.error closed, ()),
    fun _ _ => (.error closed, ()), fun _ _ => (.error closed, ()), fun _ => (.error closed, ()),
    fun _ _ _ => (.error closed, ())⟩

/-- A service with a verifier. -/
def guarded : AdminService Unit := ⟨closedTables, Datasets.verbatim, some fun _ => Auth.oneToken, none⟩

/-- Nothing is registered. -/
def nothing : World Unit :=
  ⟨⟨(), ⟨Datasets.bare .dataset, none, [], false⟩, ⟨Datasets.bare .catalog, none, [], false⟩⟩, []⟩

/-- A call of the caller that is known. -/
def byAlice (rpc : Rpc) : Call :=
  ⟨⟨some "bot".toList, some "bearer t".toList, none⟩, rpc, 0, "now".toList,
    ⟨List.replicate 32 'a', List.replicate 16 'b', true, by decide, by decide⟩⟩

/-- A dataset that names another creator. -/
def addTaxi : Call := byAlice (.datasetAdd (some ⟨"taxi".toList, [], [], [⟨"trips".toList, "s3://a".toList, []⟩],
  "mallory".toList, []⟩))

theorem rows_written_taxi : ∃ c ∈ [addTaxi], guarded.Wrote c .dataset ("taxi".toList, ⟨[], "alice".toList, "now".toList⟩) :=
  ((guarded.rows_written [addTaxi] nothing (fun k => by cases k <;> rfl) .dataset (by decide +kernel)).resolve_left
    nofun).imp fun _ h => ⟨h.1, h.2.1⟩

/-! ### Credentials -/

/-- The params of a catalog are what its type, which is known, may keep. -/
def Located (row : Text × CatalogHead) : Prop :=
  Catalog.isKnownType row.2.type_ = true ∧ ∃ params : Catalog.Params, Sorted params ∧
    (∀ k, ¬Catalog.Allowed row.2.type_ k → params.lookup k = none) ∧
    row.2.paramsJson = Json.print ((map text).encode params)

theorem located_of_wrote {svc : AdminService ρ} {c : Call} {row : Text × CatalogHead} (h : svc.Wrote c .catalog row) :
    Located row := by
  obtain ⟨ca, -, -, hknown, rfl⟩ := h
  have hsorted : Sorted (collect ca.params) := Serde.sorted_collect _
  refine ⟨hknown, (AdminService.catalogParams ca).1, Catalog.sorted_kept _ hsorted, fun k hk => ?_, rfl⟩
  rw [AdminService.catalogParams, Catalog.lookup_kept hknown hsorted, if_neg hk]

/-- The params of such a catalog, as they are read. -/
theorem Located.lookup {e : Entry .catalog} (h : Located (e.name, e.head)) {k : String}
    (hk : ¬Catalog.Allowed (CatalogRow.ofEntry e).type_ k) : (CatalogRow.ofEntry e).params.lookup k = none := by
  obtain ⟨-, params, hsorted, hnone, hjson⟩ := h
  have hread : (Json.read (Json.print ((map text).encode params))).bind (map text).decode = some params := by
    rw [Codec.read_print (writes_map writes_text), map_kept]
    exact congrArg some (List.map_id params)
  have hparams : (CatalogRow.ofEntry e).params = params := by
    show collect (((Json.read (CatalogHead.paramsJson e.head)).bind (map text).decode).getD []) = _
    rw [show CatalogHead.paramsJson e.head = _ from hjson, hread, Option.getD_some, Catalog.collect_of_sorted hsorted]
  rw [hparams]
  exact hnone k hk

/-- No type may keep these. -/
theorem not_allowed {k : String} (h : k = "token" ∨ k = "s3_secret_key") (type_ : Text) : ¬Catalog.Allowed type_ k := by
  rintro ⟨spec, hspec, hk⟩
  have hnone : ∀ spec ∈ Catalog.TYPES, "token" ∉ spec.allowedParams ∧ "s3_secret_key" ∉ spec.allowedParams := by
    decide
  obtain ⟨htoken, hsecret⟩ := hnone spec (List.mem_of_find?_eq_some hspec)
  rcases h with rfl | rfl
  · exact htoken hk
  · exact hsecret hk

/-- Without a token and a key there is no secret in a plan. -/
theorem secrets_eq_nil {type_ alias_ : Text} {params : EngineDuckdb.Attachers.Params} {p : NamedPlan}
    (htoken : params.given "token" = none) (hsecret : params.given "s3_secret_key" = none)
    (h : plan type_ alias_ params = .ok p) : p.secrets = [] := by
  have hline : s3SecretLine alias_ params = none := by
    unfold s3SecretLine
    rw [hsecret]
    cases params.given "s3_access_key" <;> rfl
  unfold plan at h
  split_ifs at h
  · unfold EngineDuckdb.Attachers.iceberg at h
    split at h
    · cases h
    · rw [htoken, hline] at h
      cases h
      rfl
  · unfold EngineDuckdb.Attachers.ducklake at h
    split at h
    · cases h
    · split at h
      · cases h
      · rw [hline] at h
        cases h
        rfl

/-- The registry's part of `prepare_pull`. -/
def preparePull (catalog : Text) (params : Catalog.Params) : Method ρ (CatalogRow × Catalog.Params) := do
  let cat ← getCatalog catalog
  pure (cat, Catalog.mergeParams cat.params params)

/-- The params as the attachers take them. -/
def attachParams (params : Catalog.Params) : EngineDuckdb.Attachers.Params := fun k => params.lookup (String.ofList k)

theorem attachParams_given (params : Catalog.Params) (k : String) :
    (attachParams params).given k = (params.lookup k).filter (· ≠ []) := by
  rw [EngineDuckdb.Attachers.Params.given, attachParams, String.ofList_toList]

/-- A catalog that is found is on the shelf. -/
theorem mem_of_preparePull {catalog : Text} {params merged : Catalog.Params} {cat : CatalogRow} {s s' : Store ρ}
    (h : preparePull catalog params s = (.ok (cat, merged), s')) : ∃ e : Entry .catalog,
      (e.name, e.head) ∈ s.catalogs.shelf.heads ∧ cat = .ofEntry e ∧ merged = Catalog.mergeParams cat.params params := by
  obtain ⟨cat', s₁, hget, hpure⟩ := Act.bind_eq_ok.1 h
  obtain ⟨e, s₂, hfound, hpure'⟩ := Act.bind_eq_ok.1 hget
  cases hpure
  cases hpure'
  refine ⟨e, ?_, rfl, rfl⟩
  have hget : (Datasets.get catalog s.catalogs).1.mapErr (ControlPlaneError.ofStore .catalog) = .ok e :=
    congrArg Prod.fst hfound
  rcases Datasets.get_cases catalog s.catalogs with ⟨d, hd, hfind⟩ | ⟨⟨err, herr⟩, -⟩
  · rw [hd] at hget
    cases hget
    obtain ⟨head, hhead, rfl⟩ := Option.map_eq_some_iff.1 hfind
    obtain ⟨before, behind, hheads, -⟩ := List.lookup_eq_some_iff.1 hhead
    rw [hheads]
    exact List.mem_append_right _ List.mem_cons_self
  · rw [herr] at hget
    cases hget

/-- **Credentials are not kept**: behind a run of calls, whatever fails, a pull has from the registry only what the type
of its catalog may keep, and the rest from its own params; if they have no token and no key, it attaches without a
secret. -/
theorem credentials_not_kept (svc : AdminService ρ) (cs : List Call) (w : World ρ)
    (hidle : w.store.catalogs.txn = none) (hlocated : ∀ row ∈ w.store.catalogs.shelf.heads, Located row)
    {catalog : Text} {params merged : Catalog.Params} (hsorted : Sorted params) {cat : CatalogRow} {s : Store ρ}
    (h : preparePull catalog params (svc.run cs w).2.store = (.ok (cat, merged), s)) :
    (∀ k, ¬Catalog.Allowed cat.type_ k → merged.lookup k = params.lookup k) ∧
      ∀ p, plan cat.type_ cat.name (attachParams merged) = .ok p →
        (attachParams params).given "token" = none → (attachParams params).given "s3_secret_key" = none →
        p.secrets = [] := by
  obtain ⟨e, hmem, rfl, rfl⟩ := mem_of_preparePull h
  have hrow : Located (e.name, e.head) := by
    rcases (svc.run_kept cs w .catalog hidle).2 _ hmem with hold | ⟨c, -, hwrote⟩
    · exact hlocated _ hold
    · exact located_of_wrote hwrote
  have hmerged : ∀ k, ¬Catalog.Allowed (CatalogRow.ofEntry e).type_ k →
      (Catalog.mergeParams (CatalogRow.ofEntry e).params params).lookup k = params.lookup k := fun k hk => by
    rw [Catalog.lookup_mergeParams hsorted, hrow.lookup hk, Option.or_none]
  refine ⟨hmerged, fun p hp htoken hsecret => secrets_eq_nil ?_ ?_ hp⟩
  · rwa [attachParams_given, hmerged _ (not_allowed (.inl rfl) _), ← attachParams_given]
  · rwa [attachParams_given, hmerged _ (not_allowed (.inr rfl) _), ← attachParams_given]

/-- A catalog that comes with a token. -/
def addLake : Call := byAlice (.catalogAdd (some ⟨"lake".toList, "iceberg".toList,
  [("endpoint", "http://e".toList), ("token", "secret".toList)], [], [], [], []⟩))

theorem credentials_not_kept_lake :
    List.lookup "token" (Catalog.mergeParams [("endpoint", "http://e".toList)] []) = none :=
  (credentials_not_kept guarded [addLake] nothing rfl nofun .nil
    (show preparePull "lake".toList [] (guarded.run [addLake] nothing).2.store = _ from rfl)).1 "token" (by decide)

end

end Latiq.ControlPlane.Service
