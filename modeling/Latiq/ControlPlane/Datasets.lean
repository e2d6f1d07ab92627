import Latiq.Library.RustStr
import Latiq.Library.Runs
import Latiq.Library.Unwind
import Mathlib.Data.List.Sort
import Mathlib.Data.List.Lex
import Mathlib.Data.Char
import Mathlib.Logic.Function.Basic

/-!
# Datasets and catalogs

A dataset is a row of `datasets` with its rows of `dataset_tables` and `dataset_tags`, and a catalog one of `catalogs`
with its rows of `catalog_tags`; no table refers to another. Each operation holds the registry's lock over its
statements; a listing takes it for its search, and then again for each name that it found.

## The model

* `Shelf` — the tables of the datasets, or of the catalogs, with the statements on them.
* `Conn` — the connection: an open transaction, and which of the next statements fail. A `COMMIT` or a `ROLLBACK` has
  ended its transaction, whether it fails or not.
* `add`, `remove`, `get`, `search` — the operations, of both kinds.
* `Shelving.turn` — an operation, or one hold of the lock of a listing.

## What is proved

* `inTxn_cases`, `add_cases`, `remove_cases` — what is left of an operation.
* `remove_not_whole` — what is left of half a removal.
* `Shelves.kept_consistent` — every state of a run is consistent where no `remove` fails behind its first statement, and no
  listing reads a name that has changed since its search.
* `half_removed` — a removal whose second statement fails.
* `removed_while_listed` — a removal between a listing's search and its read.
-/

namespace Latiq.ControlPlane.Datasets

open RustStr (Text trim)
open Unwind

/-! ### Rows -/

/-- Datasets and catalogs. -/
inductive Kind where
  | dataset
  | catalog
  deriving DecidableEq, Repr

/-- A row of `datasets`, without its name. -/
structure DatasetHead where
  description : Text
  createdBy : Text
  createdAt : Text
  deriving DecidableEq, Repr

/-- A row of `catalogs`, without its name. -/
structure CatalogHead where
  type_ : Text
  paramsJson : Text
  description : Text
  createdBy : Text
  createdAt : Text
  deriving DecidableEq, Repr

/-- A row of `dataset_tables`, without its dataset. -/
structure DatasetTableRow where
  tableName : Text
  sourceUri : Text
  format : Text
  deriving DecidableEq, Repr

namespace Kind

def Head : Kind → Type
  | dataset => DatasetHead
  | catalog => CatalogHead

/-- A catalog has no tables. -/
def Row : Kind → Type
  | dataset => DatasetTableRow
  | catalog => Empty

instance (k : Kind) : DecidableEq k.Row :=
  match k with
  | dataset => inferInstanceAs (DecidableEq DatasetTableRow)
  | catalog => inferInstanceAs (DecidableEq Empty)

instance (k : Kind) : DecidableEq k.Head :=
  match k with
  | dataset => inferInstanceAs (DecidableEq DatasetHead)
  | catalog => inferInstanceAs (DecidableEq CatalogHead)

def tableName : (k : Kind) → k.Row → Text
  | dataset, r => DatasetTableRow.tableName r
  | catalog, r => nomatch r

def description : (k : Kind) → k.Head → Text
  | dataset, h => DatasetHead.description h
  | catalog, h => CatalogHead.description h

/-- What an `INSERT` makes of it: `created_at` has its default. -/
def stamp (now : Text) : (k : Kind) → k.Head → k.Head
  | dataset, h => { (h : DatasetHead) with createdAt := now }
  | catalog, h => { (h : CatalogHead) with createdAt := now }

end Kind

/-- `DatasetRow`, `CatalogRow`. -/
structure Entry (k : Kind) where
  name : Text
  head : k.Head
  tables : List k.Row
  tags : List Text
  deriving DecidableEq

/-- `ControlPlaneError`, as far as these operations have it. -/
inductive StoreError where
  | notFound (name : Text)
  | invalid (message : Text)
  | storage (message : Text)
  deriving DecidableEq, Repr

/-! ### Statements -/

/-- The tables of a kind. -/
structure Shelf (k : Kind) where
  heads : List (Text × k.Head)
  rows : List (Text × k.Row)
  tags : List (Text × Text)

namespace Shelf

variable {k : Kind} (sh : Shelf k) (name : Text)

/-- `DELETE FROM datasets`, with the number of rows. -/
def deleteHead : ℕ × Shelf k :=
  ((sh.heads.filter fun h => h.1 = name).length, { sh with heads := sh.heads.filter fun h => h.1 ≠ name })

/-- `DELETE FROM dataset_tables`. -/
def deleteRows : Shelf k := { sh with rows := sh.rows.filter fun r => r.1 ≠ name }

/-- `DELETE FROM dataset_tags`. -/
def deleteTags : Shelf k := { sh with tags := sh.tags.filter fun t => t.1 ≠ name }

def duplicateKey : Text := "Constraint Error: Duplicate key violates primary key constraint".toList

/-- `INSERT INTO datasets`. -/
def insertHead (head : k.Head) : Except Text (Shelf k) :=
  if name ∈ sh.heads.map Prod.fst then .error duplicateKey else .ok { sh with heads := sh.heads ++ [(name, head)] }

/-- `INSERT INTO dataset_tables`. -/
def insertRow (row : k.Row) : Except Text (Shelf k) :=
  if (name, k.tableName row) ∈ sh.rows.map fun r => (r.1, k.tableName r.2) then .error duplicateKey
  else .ok { sh with rows := sh.rows ++ [(name, row)] }

/-- `INSERT OR IGNORE INTO dataset_tags`. -/
def insertTag (tag : Text) : Shelf k :=
  if (name, tag) ∈ sh.tags then sh else { sh with tags := sh.tags ++ [(name, tag)] }

def selectHead : Option k.Head := sh.heads.lookup name

/-- In order of the names of the tables. -/
def selectRows : List k.Row :=
  ((sh.rows.filter fun r => r.1 = name).map Prod.snd).insertionSort fun a b => k.tableName a ≤ k.tableName b

/-- `tags_for`. -/
def selectTags : List Text := ((sh.tags.filter fun t => t.1 = name).map Prod.snd).insertionSort (· ≤ ·)

end Shelf

/-- The connection: what it sees, what it saw when the open transaction began, and which of its next statements fail. -/
structure Conn (k : Kind) where
  shelf : Shelf k
  txn : Option (Shelf k)
  fates : List (Option Text)
  /-- A statement has failed as these say. -/
  faulted : Bool

/-- An operation on the connection. -/
abbrev Op (k : Kind) (α : Type) : Type := Act (Conn k) StoreError α

section

variable {k : Kind} {α : Type}

/-- One statement. -/
def exec (f : Conn k → Except Text (α × Conn k)) : Op k α := fun c =>
  match c.fates with
  | some message :: fates => (.err (.storage message), { c with fates, faulted := true })
  | fates =>
    match f { c with fates := fates.tail } with
    | .ok (a, c') => (.ok a, c')
    | .error message => (.err (.storage message), { c with fates := fates.tail })

/-- A statement that changes the tables. -/
def write (f : Shelf k → Except Text (Shelf k)) : Op k Unit :=
  exec fun c => (f c.shelf).map fun shelf => ((), { c with shelf })

/-- A `SELECT`. -/
def select (f : Shelf k → α) : Op k α := exec fun c => .ok (f c.shelf, c)

def beginTxn : Op k Unit :=
  exec fun c =>
    match c.txn with
    | none => .ok ((), { c with txn := some c.shelf })
    | some _ => .error "TransactionContext Error: cannot start a transaction within a transaction".toList

/-- The transaction is over, and undone. -/
def Conn.undone (c : Conn k) : Conn k := { c with shelf := c.txn.getD c.shelf, txn := none }

def commit : Op k Unit := fun c =>
  match (exec fun c => .ok ((), { c with txn := none }) : Op k Unit) c with
  | (.err e, c') => (.err e, c'.undone)
  | done => done

/-- `ROLLBACK`, whose error nobody looks at. -/
def rollback : Op k Unit := fun c => (.ok (), Conn.undone { c with fates := c.fates.tail })

/-- `in_txn`. -/
def inTxn (body : Op k Unit) : Op k Unit := do
  beginTxn
  match ← (Act.attempt body : Op k (Except StoreError Unit)) with
  | .ok () => commit
  | .error e => do
    rollback
    Act.fail e

/-! ### Operations -/

def isAsciiWord (c : Char) : Bool := c.isAlphanum || c == '_'

/-- `is_ident`. -/
def isIdent : Text → Bool
  | [] => false
  | c :: cs => (c.isAlpha || c == '_') && cs.all isAsciiWord

/-- What `add_dataset` and `add_catalog` check. -/
def Entry.check : {k : Kind} → Entry k → Option StoreError
  | .dataset, d =>
    if d.name = [] then some (.invalid "dataset name is required".toList)
    else if !isIdent d.name then
      some (.invalid "dataset name must be a bare identifier (letters/digits/underscore)".toList)
    else if d.tables = [] then some (.invalid "a dataset needs at least one table".toList)
    else none
  | .catalog, ca =>
    if ca.name = [] ∨ (ca.head : CatalogHead).type_ = [] then
      some (.invalid "catalog name and type are required".toList)
    else if !isIdent ca.name then
      some (.invalid "catalog name must be a bare identifier (letters/digits/underscore)".toList)
    else none

/-- A loop over statements. -/
def forAll {β : Type} (f : β → Op k Unit) : List β → Op k Unit
  | [] => pure ()
  | b :: bs => do
    f b
    forAll f bs

/-- `DELETE FROM dataset_tables`, where there is such a table. -/
def deleteRows (name : Text) : {k : Kind} → Op k Unit
  | .dataset => write fun sh => .ok (sh.deleteRows name)
  | .catalog => pure ()

/-- The transaction of an `add`. -/
def replace (now : Text) (d : Entry k) : Op k Unit := do
  deleteRows d.name
  write fun sh => .ok (sh.deleteTags d.name)
  write fun sh => .ok (sh.deleteHead d.name).2
  write fun sh => sh.insertHead d.name (k.stamp now d.head)
  forAll (fun t => write fun sh => sh.insertRow d.name t) d.tables
  forAll (fun tag => write fun sh => .ok (sh.insertTag d.name tag)) d.tags

/-- Add (or replace). -/
def add (now : Text) (d : Entry k) : Op k Text :=
  match d.check with
  | some e => Act.fail e
  | none => do
    inTxn (replace now d)
    pure d.name

def remove (name : Text) : Op k Unit := do
  let n ← exec fun c => .ok ((c.shelf.deleteHead name).1, { c with shelf := (c.shelf.deleteHead name).2 })
  if n = 0 then Act.fail (.notFound name)
  else do
    deleteRows name
    write fun sh => .ok (sh.deleteTags name)

/-- The tables of an entry, where there are any. -/
def selectRows (name : Text) : {k : Kind} → Op k (List k.Row)
  | .dataset => select fun sh => sh.selectRows name
  | .catalog => pure []

/-- Whatever is wrong with the first `SELECT`, the entry is not found. -/
def get (name : Text) : Op k (Entry k) := do
  match ← (Act.attempt (select fun sh => sh.selectHead name) : Op k (Except StoreError (Option k.Head))) with
  | .ok (some head) => do
    let tables ← selectRows name
    let tags ← select fun sh => sh.selectTags name
    pure ⟨name, head, tables, tags⟩
  | _ => Act.fail (.notFound name)

/-- `LIKE` and `ILIKE`. -/
structure Patterns where
  like : Text → Text → Bool
  ilike : Text → Text → Bool

/-- The names that a query finds. -/
def Shelf.names (pt : Patterns) (query : Text) (sh : Shelf k) : List Text :=
  let q := trim query
  let found : List Text :=
    match q with
    | [] => sh.heads.map Prod.fst
    | '#' :: tag => (sh.tags.filter fun t : Text × Text => t.2 = tag).map Prod.fst
    | _ =>
      if '*' ∈ q then
        let like := q.map fun c => if c = '*' then '%' else c
        (sh.heads.filter fun h : Text × k.Head => pt.like h.1 like).map Prod.fst
      else
        let like := '%' :: q ++ ['%']
        (sh.heads.filter fun h : Text × k.Head => pt.ilike h.1 like || pt.ilike (k.description h.2) like ||
          sh.tags.any fun t : Text × Text => t.1 = h.1 && pt.ilike t.2 like).map Prod.fst
  found.insertionSort (· ≤ ·)

/-- `search`. -/
def search (pt : Patterns) (query : Text) : Op k (List Text) := select fun sh => sh.names pt query

end

/-- `add_dataset`. -/
def addDataset (now : Text) (d : Entry .dataset) : Op .dataset Text := add now d

/-- `add_catalog`. -/
def addCatalog (now : Text) (ca : Entry .catalog) : Op .catalog Text := add now ca

/-- `remove_dataset`. -/
def removeDataset (name : Text) : Op .dataset Unit := remove name

/-- `remove_catalog`. -/
def removeCatalog (name : Text) : Op .catalog Unit := remove name

/-- `get_dataset`. -/
def getDataset (name : Text) : Op .dataset (Entry .dataset) := get name

/-- `get_catalog`. -/
def getCatalog (name : Text) : Op .catalog (Entry .catalog) := get name

/-! ### What a statement leaves -/

section

variable {k : Kind} {α : Type}

/-- How the next statement fails, if it does. -/
def Conn.fate (c : Conn k) : Option Text := c.fates.head?.join

/-- The statement has been run. -/
def Conn.past (c : Conn k) : Conn k := { c with fates := c.fates.tail }

theorem exec_apply (f : Conn k → Except Text (α × Conn k)) (c : Conn k) :
    exec f c = match c.fate with
      | some message => (.err (.storage message), { c.past with faulted := true })
      | none =>
        match f c.past with
        | .ok (a, c') => (.ok a, c')
        | .error message => (.err (.storage message), c.past) := by
  obtain ⟨shelf, txn, fates, faulted⟩ := c
  rcases fates with _ | ⟨_ | message, fates⟩ <;> rfl

theorem select_apply (f : Shelf k → α) (c : Conn k) :
    select f c = match c.fate with
      | some message => (.err (.storage message), { c.past with faulted := true })
      | none => (.ok (f c.shelf), c.past) := exec_apply _ c

theorem write_apply (f : Shelf k → Except Text (Shelf k)) (c : Conn k) :
    write f c = match c.fate with
      | some message => (.err (.storage message), { c.past with faulted := true })
      | none =>
        match f c.shelf with
        | .ok shelf => (.ok (), { c.past with shelf })
        | .error message => (.err (.storage message), c.past) := by
  rw [write, exec_apply]
  cases c.fate with
  | some message => rfl
  | none => cases h : f c.shelf <;> simp [Conn.past, h, Except.map]

theorem write_ok {f : Shelf k → Except Text (Shelf k)} {c c' : Conn k} (h : write f c = (.ok (), c')) :
    f c.shelf = .ok c'.shelf := by
  rw [write_apply] at h
  split at h
  · cases h
  · split at h
    · next hf =>
      cases h
      exact hf
    · cases h

theorem write_put {g : Shelf k → Shelf k} {c c' : Conn k} (h : write (fun sh => .ok (g sh)) c = (.ok (), c')) :
    c'.shelf = g c.shelf := by
  have hw := write_ok h
  exact (Except.ok.inj hw).symm

/-- The statement leaves an open transaction open. -/
def SameTxn (c c' : Conn k) : Prop := c'.txn = c.txn

instance : Std.Refl (SameTxn (k := k)) := ⟨fun _ => rfl⟩

instance : IsTrans (Conn k) SameTxn := ⟨fun _ _ _ h h' => h'.trans h⟩

theorem write_sameTxn (f : Shelf k → Except Text (Shelf k)) : Act.Keeps SameTxn (write f) := by
  intro c
  rw [write_apply]
  split
  · rfl
  · split <;> rfl

theorem write_noUnwind (f : Shelf k → Except Text (Shelf k)) : Act.NoUnwind (write f) := by
  intro c
  rw [write_apply]
  split
  · simp
  · split <;> simp

end

theorem Shelf.rows_of_catalog (sh : Shelf .catalog) : sh.rows = [] :=
  List.eq_nil_iff_forall_not_mem.2 fun r _ => nomatch r.2

theorem Shelf.deleteRows_of_catalog (sh : Shelf .catalog) (name : Text) : sh.deleteRows name = sh := by
  have h := sh.rows_of_catalog
  obtain ⟨heads, rows, tags⟩ := sh
  cases h
  rfl

section

variable {k : Kind}

theorem deleteRows_ok {name : Text} {c c' : Conn k} (h : deleteRows name c = (.ok (), c')) :
    c'.shelf = c.shelf.deleteRows name := by
  cases k with
  | dataset => exact write_put (g := fun sh => sh.deleteRows name) h
  | catalog =>
    cases h
    exact (c.shelf.deleteRows_of_catalog name).symm

theorem deleteRows_sameTxn (name : Text) : Act.Keeps SameTxn (deleteRows name : Op k Unit) := by
  cases k with
  | dataset => exact write_sameTxn _
  | catalog => exact Act.keeps_pure ()

theorem deleteRows_noUnwind (name : Text) : Act.NoUnwind (deleteRows name : Op k Unit) := by
  cases k with
  | dataset => exact write_noUnwind _
  | catalog => exact Act.noUnwind_pure ()

variable {β : Type}

theorem forAll_sameTxn {f : β → Op k Unit} (hf : ∀ b, Act.Keeps SameTxn (f b)) :
    ∀ bs, Act.Keeps SameTxn (forAll f bs)
  | [] => Act.keeps_pure ()
  | b :: bs => (hf b).bind fun _ => forAll_sameTxn hf bs

theorem forAll_noUnwind {f : β → Op k Unit} (hf : ∀ b, Act.NoUnwind (f b)) : ∀ bs, Act.NoUnwind (forAll f bs)
  | [] => Act.noUnwind_pure ()
  | b :: bs => (hf b).bind fun _ => forAll_noUnwind hf bs

/-- A loop that returns has put all its values in, one after the other. -/
theorem forAll_ok {R : Shelf k → List β → Shelf k → Prop} {f : β → Op k Unit}
    (hnil : ∀ sh, R sh [] sh)
    (hcons : ∀ b bs (c c' : Conn k) sh, f b c = (.ok (), c') → R c'.shelf bs sh → R c.shelf (b :: bs) sh) {bs : List β}
    {c c' : Conn k} (h : forAll f bs c = (.ok (), c')) : R c.shelf bs c'.shelf := by
  induction bs generalizing c with
  | nil =>
    cases h
    exact hnil _
  | cons b bs ih =>
    obtain ⟨_, t, hb, hbs⟩ := Act.bind_eq_ok.1 h
    exact hcons b bs c t c'.shelf hb (ih hbs)

theorem insertRows_ok {name : Text} {ts : List k.Row} {c c' : Conn k}
    (h : forAll (fun t => write fun sh => sh.insertRow name t) ts c = (.ok (), c')) :
    c'.shelf = { c.shelf with rows := c.shelf.rows ++ ts.map fun t => (name, t) } := by
  refine forAll_ok (R := fun sh ts sh' => sh' = { sh with rows := sh.rows ++ ts.map fun t => (name, t) }) ?_ ?_ h
  · intro sh
    simp
  · intro t ts c c' sh ht hsh
    have hrow := write_ok ht
    rw [Shelf.insertRow] at hrow
    split at hrow
    · cases hrow
    · rw [hsh, ← Except.ok.inj hrow]
      simp

theorem insertTags_ok {name : Text} {tags : List Text} {c c' : Conn k}
    (h : forAll (fun tag => write fun sh => .ok (sh.insertTag name tag)) tags c = (.ok (), c')) :
    c'.shelf.heads = c.shelf.heads ∧ c'.shelf.rows = c.shelf.rows ∧
      ∀ p, p ∈ c'.shelf.tags ↔ p ∈ c.shelf.tags ∨ p.1 = name ∧ p.2 ∈ tags := by
  refine forAll_ok (R := fun sh tags sh' => sh'.heads = sh.heads ∧ sh'.rows = sh.rows ∧
    ∀ p, p ∈ sh'.tags ↔ p ∈ sh.tags ∨ p.1 = name ∧ p.2 ∈ tags) ?_ ?_ h
  · intro sh
    simp
  · rintro tag tags c c' sh htag ⟨hheads, hrows, hmem⟩
    rw [write_put htag] at hheads hrows hmem
    unfold Shelf.insertTag at hheads hrows hmem
    split at hmem
    · next hin =>
      rw [if_pos hin] at hheads hrows
      refine ⟨hheads, hrows, ?_⟩
      rintro ⟨n, t⟩
      rw [hmem, List.mem_cons]
      constructor
      · rintro (h | ⟨h, ht⟩)
        · exact .inl h
        · exact .inr ⟨h, .inr ht⟩
      · rintro (h | ⟨rfl, rfl | ht⟩)
        · exact .inl h
        · exact .inl hin
        · exact .inr ⟨rfl, ht⟩
    · next hin =>
      rw [if_neg hin] at hheads hrows
      refine ⟨hheads, hrows, ?_⟩
      rintro ⟨n, t⟩
      rw [hmem, List.mem_append, List.mem_singleton, Prod.mk.injEq, List.mem_cons]
      tauto

end

/-! ### What an operation leaves -/

/-- What an `add` stores, where the table of tags is a set. -/
structure Shelf.Stored {k : Kind} (now : Text) (d : Entry k) (sh sh' : Shelf k) : Prop where
  heads : sh'.heads = (sh.heads.filter fun h => h.1 ≠ d.name) ++ [(d.name, k.stamp now d.head)]
  rows : sh'.rows = (sh.rows.filter fun r => r.1 ≠ d.name) ++ d.tables.map fun t => (d.name, t)
  tags : ∀ p, p ∈ sh'.tags ↔ p ∈ sh.tags ∧ p.1 ≠ d.name ∨ p.1 = d.name ∧ p.2 ∈ d.tags

section

variable {k : Kind}

theorem replace_ok {now : Text} {d : Entry k} {c c' : Conn k} (h : replace now d c = (.ok (), c')) :
    Shelf.Stored now d c.shelf c'.shelf := by
  obtain ⟨_, c₁, h₁, h⟩ := Act.bind_eq_ok.1 h
  obtain ⟨_, c₂, h₂, h⟩ := Act.bind_eq_ok.1 h
  obtain ⟨_, c₃, h₃, h⟩ := Act.bind_eq_ok.1 h
  obtain ⟨_, c₄, h₄, h⟩ := Act.bind_eq_ok.1 h
  obtain ⟨_, c₅, h₅, h⟩ := Act.bind_eq_ok.1 h
  obtain ⟨hheads, hrows, htags⟩ := insertTags_ok h
  have hrow := insertRows_ok h₅
  have hhead := write_ok h₄
  rw [write_put h₃, write_put h₂, deleteRows_ok h₁, Shelf.insertHead] at hhead
  split at hhead
  · cases hhead
  · have hhead := Except.ok.inj hhead
    rw [hrow, ← hhead] at hheads hrows htags
    refine ⟨hheads, hrows, ?_⟩
    intro p
    rw [htags]
    simp [Shelf.deleteHead, Shelf.deleteTags, Shelf.deleteRows]

theorem replace_sameTxn (now : Text) (d : Entry k) : Act.Keeps SameTxn (replace now d) := by
  refine (deleteRows_sameTxn _).bind fun _ => (write_sameTxn _).bind fun _ => (write_sameTxn _).bind fun _ =>
    (write_sameTxn _).bind fun _ => ?_
  exact (forAll_sameTxn (fun _ => write_sameTxn _) _).bind fun _ => forAll_sameTxn (fun _ => write_sameTxn _) _

theorem replace_noUnwind (now : Text) (d : Entry k) : Act.NoUnwind (replace now d) := by
  refine (deleteRows_noUnwind _).bind fun _ => (write_noUnwind _).bind fun _ => (write_noUnwind _).bind fun _ =>
    (write_noUnwind _).bind fun _ => ?_
  exact (forAll_noUnwind (fun _ => write_noUnwind _) _).bind fun _ => forAll_noUnwind (fun _ => write_noUnwind _) _

/-- The connection is idle, with the tables of `sh`. -/
structure Conn.Idle (sh : Shelf k) (c : Conn k) : Prop where
  shelf : c.shelf = sh
  txn : c.txn = none

theorem beginTxn_apply {c : Conn k} (hc : c.txn = none) :
    (∃ e, beginTxn c = (.err e, { c.past with faulted := true })) ∨
      beginTxn c = (.ok (), { c.past with txn := some c.shelf }) := by
  rw [beginTxn, exec_apply]
  split
  · exact .inl ⟨_, rfl⟩
  · refine .inr ?_
    simp [Conn.past, hc]

theorem commit_apply {sh : Shelf k} {c : Conn k} (hc : c.txn = some sh) :
    (∃ e, (commit c).1 = .err e ∧ Conn.Idle sh (commit c).2) ∨
      (commit c).1 = .ok () ∧ Conn.Idle c.shelf (commit c).2 := by
  rw [commit, exec_apply]
  cases c.fate with
  | some message => exact .inl ⟨_, rfl, ⟨by simp [Conn.undone, Conn.past, hc], rfl⟩⟩
  | none => exact .inr ⟨rfl, ⟨rfl, rfl⟩⟩

/-- **All or nothing**: a transaction has left what its body has left, or what there was. -/
theorem inTxn_cases {body : Op k Unit} (htxn : Act.Keeps SameTxn body) (hbody : Act.NoUnwind body) {c : Conn k}
    (hc : c.txn = none) :
    (∃ e, (inTxn body c).1 = .err e ∧ Conn.Idle c.shelf (inTxn body c).2) ∨
      ∃ b b', b.shelf = c.shelf ∧ body b = (.ok (), b') ∧ (inTxn body c).1 = .ok () ∧
        Conn.Idle b'.shelf (inTxn body c).2 := by
  rcases beginTxn_apply hc with ⟨e, hbegin⟩ | hbegin
  · rw [inTxn, Act.bind_of_err hbegin]
    exact .inl ⟨e, rfl, rfl, hc⟩
  · rw [inTxn, Act.bind_of_ok hbegin]
    generalize hb : ({ c.past with txn := some c.shelf } : Conn k) = b
    have hshelf : b.shelf = c.shelf := by rw [← hb]; rfl
    have hopen : b.txn = some c.shelf := by rw [← hb]
    have hkept : (body b).2.txn = some c.shelf := (htxn b).trans hopen
    rcases hrun : body b with ⟨⟨⟩ | e | _, b'⟩
    · rw [Act.bind_of_ok (Act.attempt_of_ok hrun)]
      rw [hrun] at hkept
      rcases commit_apply hkept with ⟨e, he, hidle⟩ | ⟨hok, hidle⟩
      · exact .inl ⟨e, he, hidle⟩
      · exact .inr ⟨b, b', hshelf, hrun, hok, hidle⟩
    · rw [Act.bind_of_ok (Act.attempt_of_err hrun)]
      rw [hrun] at hkept
      refine .inl ⟨e, rfl, ?_, rfl⟩
      show b'.txn.getD b'.shelf = c.shelf
      rw [hkept]
      rfl
    · exact absurd (congrArg Prod.fst hrun) (hbody b)

theorem add_of_invalid {now : Text} {d : Entry k} {e : StoreError} (h : d.check = some e) :
    add now d = Act.fail e := by
  rw [add, h]

theorem add_of_valid {now : Text} {d : Entry k} (h : d.check = none) :
    add now d = inTxn (replace now d) >>= fun _ => pure d.name := by
  rw [add, h]

/-- An `add` has stored its entry, or has left the tables as they were. -/
theorem add_cases (now : Text) (d : Entry k) {c : Conn k} (hc : c.txn = none) :
    (∃ e, (add now d c).1 = .err e ∧ Conn.Idle c.shelf (add now d c).2) ∨
      ∃ sh, (add now d c).1 = .ok d.name ∧ Conn.Idle sh (add now d c).2 ∧ Shelf.Stored now d c.shelf sh := by
  cases hd : d.check with
  | some e =>
    rw [add_of_invalid hd]
    exact .inl ⟨e, rfl, rfl, hc⟩
  | none =>
    rw [add_of_valid hd]
    rcases inTxn_cases (replace_sameTxn now d) (replace_noUnwind now d) hc with
      ⟨e, he, hidle⟩ | ⟨b, b', hb, hrun, hok, hidle⟩
    · rw [Act.bind_of_err (Prod.ext he rfl)]
      exact .inl ⟨e, rfl, hidle⟩
    · rw [Act.bind_of_ok (Prod.ext hok rfl)]
      exact .inr ⟨b'.shelf, rfl, hidle, hb ▸ replace_ok hrun⟩

end

/-- The statements of a removal behind its first. -/
def Kind.behind : Kind → ℕ
  | dataset => 2
  | catalog => 1

section

variable {k : Kind}

/-- Without the entry. -/
def Shelf.drop (sh : Shelf k) (name : Text) : Shelf k := ((sh.deleteHead name).2.deleteRows name).deleteTags name

/-- No statement of a removal that finds its row fails behind its first. -/
def Conn.Whole (c : Conn k) (name : Text) : Prop :=
  c.fate ≠ none ∨ name ∉ c.shelf.heads.map Prod.fst ∨ ∀ f ∈ c.fates.tail.take k.behind, f = none

instance (c : Conn k) (name : Text) : Decidable (c.Whole name) := by
  unfold Conn.Whole
  infer_instance

theorem Shelf.deleteHead_eq_zero {sh : Shelf k} {name : Text} :
    (sh.deleteHead name).1 = 0 ↔ name ∉ sh.heads.map Prod.fst := by
  rw [Shelf.deleteHead, List.length_eq_zero_iff, List.filter_eq_nil_iff, List.mem_map]
  simp only [decide_eq_true_eq]
  exact ⟨fun h ⟨p, hp, hn⟩ => h p hp hn, fun h p hp hn => h ⟨p, hp, hn⟩⟩

theorem Shelf.deleteHead_of_not_mem {sh : Shelf k} {name : Text} (h : name ∉ sh.heads.map Prod.fst) :
    (sh.deleteHead name).2 = sh := by
  obtain ⟨heads, rows, tags⟩ := sh
  simp only [Shelf.deleteHead, Shelf.mk.injEq, and_true]
  refine List.filter_eq_self.2 fun p hp => ?_
  exact decide_eq_true fun hn => h (List.mem_map.2 ⟨p, hp, hn⟩)

/-- Where the first statement of a removal finds the row. -/
theorem remove_of_found {c : Conn k} {name : Text} (hc : c.fate = none) (hn : name ∈ c.shelf.heads.map Prod.fst) :
    remove name c = (do
      deleteRows name
      write fun sh => .ok (sh.deleteTags name) : Op k Unit) { c.past with shelf := (c.shelf.deleteHead name).2 } := by
  have hzero : (c.shelf.deleteHead name).1 ≠ 0 := fun h => Shelf.deleteHead_eq_zero.1 h hn
  rw [remove, Act.bind_apply, exec_apply, hc]
  exact congrFun (if_neg hzero) _

/-- Where it does not, or fails, nothing has changed. -/
theorem remove_of_not_found {c : Conn k} {name : Text} (h : c.fate ≠ none ∨ name ∉ c.shelf.heads.map Prod.fst)
    (hc : c.txn = none) : ∃ e, (remove name c).1 = .err e ∧ Conn.Idle c.shelf (remove name c).2 := by
  cases hfate : c.fate with
  | some message =>
    rw [remove, Act.bind_apply, exec_apply, hfate]
    exact ⟨_, rfl, rfl, hc⟩
  | none =>
    have hn := h.resolve_left (absurd hfate)
    have hzero : (c.shelf.deleteHead name).1 = 0 := Shelf.deleteHead_eq_zero.2 hn
    have hfail : remove name c = (.err (.notFound name), { c.past with shelf := (c.shelf.deleteHead name).2 }) := by
      rw [remove, Act.bind_apply, exec_apply, hfate]
      exact congrFun (if_pos hzero) _
    rw [hfail]
    exact ⟨_, rfl, Shelf.deleteHead_of_not_mem hn, hc⟩

theorem write_of_fate {f : Shelf k → Except Text (Shelf k)} {c : Conn k} {message : Text} (h : c.fate = some message) :
    write f c = (.err (.storage message), { c.past with faulted := true }) := by
  rw [write_apply, h]

theorem write_of_none (g : Shelf k → Shelf k) {c : Conn k} (h : c.fate = none) :
    ∃ c', write (fun sh => .ok (g sh)) c = (.ok (), c') ∧ c'.shelf = g c.shelf ∧ c'.txn = c.txn ∧
      c'.fates = c.fates.tail := by
  rw [write_apply, h]
  exact ⟨_, rfl, rfl, rfl, rfl⟩

theorem Conn.fate_of_fates {c : Conn k} {n : ℕ} (h : ∀ f ∈ c.fates.take (n + 1), f = none) :
    c.fate = none ∧ ∀ f ∈ c.fates.tail.take n, f = none := by
  rw [Conn.fate]
  cases hc : c.fates with
  | nil => simp
  | cons f fates =>
    rw [hc, List.take_succ_cons, List.forall_mem_cons] at h
    rw [h.1]
    exact ⟨rfl, h.2⟩

theorem Conn.fate_of_not_fates {c : Conn k} {n : ℕ} (h : ∃ f ∈ c.fates.take (n + 1), f ≠ none) (hc : c.fate = none) :
    ∃ f ∈ c.fates.tail.take n, f ≠ none := by
  rw [Conn.fate] at hc
  cases hf : c.fates with
  | nil => simp [hf] at h
  | cons f fates =>
    have hnone : f = none := by simpa [hf] using hc
    rw [hf, List.take_succ_cons, List.exists_mem_cons_iff] at h
    exact h.resolve_left fun hne => hne hnone

/-- A removal that is whole has removed the entry, or has left the tables as they were. -/
theorem remove_cases {c : Conn k} {name : Text} (h : c.Whole name) (hc : c.txn = none) :
    (∃ e, (remove name c).1 = .err e ∧ Conn.Idle c.shelf (remove name c).2) ∨
      (remove name c).1 = .ok () ∧ Conn.Idle (c.shelf.drop name) (remove name c).2 := by
  by_cases hfound : c.fate = none ∧ name ∈ c.shelf.heads.map Prod.fst
  · obtain ⟨hfate, hn⟩ := hfound
    have htail : ∀ f ∈ c.past.fates.take k.behind, f = none :=
      (h.resolve_left fun hne => hne hfate).resolve_left fun hnot => hnot hn
    rw [remove_of_found hfate hn]
    generalize hd : ({ c.past with shelf := (c.shelf.deleteHead name).2 } : Conn k) = d
    have hfates : d.fates = c.past.fates := by rw [← hd]
    have hshelf : d.shelf = (c.shelf.deleteHead name).2 := by rw [← hd]
    have htxn : d.txn = none := by rw [← hd]; exact hc
    rw [← hfates] at htail
    refine .inr ?_
    rw [Shelf.drop, ← hshelf]
    cases k with
    | dataset =>
      obtain ⟨hd₁, hrest⟩ := Conn.fate_of_fates htail
      obtain ⟨e, hrows, hshelf₁, htxn₁, hfates₁⟩ := write_of_none (fun sh => sh.deleteRows name) hd₁
      rw [← hfates₁] at hrest
      obtain ⟨f, htags, hshelf₂, htxn₂, -⟩ :=
        write_of_none (fun sh => sh.deleteTags name) (Conn.fate_of_fates hrest).1
      rw [deleteRows, Act.bind_of_ok hrows, htags]
      exact ⟨rfl, by rw [hshelf₂, hshelf₁], htxn₂.trans (htxn₁.trans htxn)⟩
    | catalog =>
      obtain ⟨e, htags, hshelf₁, htxn₁, -⟩ :=
        write_of_none (fun sh => sh.deleteTags name) (Conn.fate_of_fates htail).1
      rw [deleteRows, Act.pure_bind, htags, d.shelf.deleteRows_of_catalog]
      exact ⟨rfl, hshelf₁, htxn₁.trans htxn⟩
  · refine .inl (remove_of_not_found ?_ hc)
    by_contra hnot
    push Not at hnot
    exact hfound hnot

/-- **Half a removal**: one that is not whole has failed, and its row is gone. -/
theorem remove_not_whole {c : Conn k} {name : Text} (h : ¬c.Whole name) :
    (∃ e, (remove name c).1 = .err e) ∧ (remove name c).2.shelf.heads = (c.shelf.deleteHead name).2.heads ∧
      name ∈ c.shelf.heads.map Prod.fst := by
  unfold Conn.Whole at h
  push Not at h
  obtain ⟨hfate, hn, htail⟩ := h
  rw [remove_of_found hfate hn]
  generalize hd : ({ c.past with shelf := (c.shelf.deleteHead name).2 } : Conn k) = d
  have hfates : d.fates = c.fates.tail := by rw [← hd]; rfl
  have hheads : d.shelf.heads = (c.shelf.deleteHead name).2.heads := by rw [← hd]
  rw [← hfates] at htail
  rw [← hheads]
  cases hd₁ : d.fate with
  | some message =>
    cases k with
    | dataset =>
      have h₁ : write (fun sh => .ok (sh.deleteRows name)) d = _ := write_of_fate hd₁
      rw [deleteRows, Act.bind_of_err h₁]
      exact ⟨⟨_, rfl⟩, rfl, hn⟩
    | catalog =>
      rw [deleteRows, Act.pure_bind, write_of_fate hd₁]
      exact ⟨⟨_, rfl⟩, rfl, hn⟩
  | none =>
    cases k with
    | dataset =>
      obtain ⟨e, hrows, hshelf₁, -, hfates₁⟩ := write_of_none (fun sh => sh.deleteRows name) hd₁
      have hrest := Conn.fate_of_not_fates htail hd₁
      rw [← hfates₁] at hrest
      have he : e.fate ≠ none := by
        intro he
        obtain ⟨f, hf, -⟩ := Conn.fate_of_not_fates hrest he
        cases hf
      obtain ⟨message, he⟩ := Option.ne_none_iff_exists'.1 he
      rw [deleteRows, Act.bind_of_ok hrows, write_of_fate he]
      refine ⟨⟨_, rfl⟩, ?_, hn⟩
      show e.shelf.heads = d.shelf.heads
      rw [hshelf₁]
      rfl
    | catalog =>
      obtain ⟨f, hf, -⟩ := Conn.fate_of_not_fates htail hd₁
      cases hf

end

/-! ### What is read -/

section

variable {k : Kind} {α : Type}

/-- The entry of a name. -/
def Shelf.find (sh : Shelf k) (name : Text) : Option (Entry k) :=
  (sh.selectHead name).map fun head => ⟨name, head, sh.selectRows name, sh.selectTags name⟩

/-- An operation that reads `a`, where it is let. -/
structure Reads (p : Op k α) (a : Shelf k → α) : Prop where
  shelf (c : Conn k) : (p c).2.shelf = c.shelf
  txn (c : Conn k) : (p c).2.txn = c.txn
  result (c : Conn k) : (p c).1 = .ok (a c.shelf) ∧ (p c).2.faulted = c.faulted ∨
    (∃ e, (p c).1 = .err e) ∧ (p c).2.faulted = true

theorem pure_reads (a : α) : Reads (pure a : Op k α) fun _ => a :=
  ⟨fun _ => rfl, fun _ => rfl, fun _ => .inl ⟨rfl, rfl⟩⟩

theorem select_reads (f : Shelf k → α) : Reads (select f) f := by
  constructor
  all_goals intro c; rw [select_apply]
  · split <;> rfl
  · split <;> rfl
  · split
    · exact .inr ⟨⟨_, rfl⟩, rfl⟩
    · exact .inl ⟨rfl, rfl⟩

theorem selectRows_reads (name : Text) : Reads (selectRows name : Op k _) fun sh => sh.selectRows name := by
  cases k with
  | dataset => exact select_reads fun sh => sh.selectRows name
  | catalog =>
    have hrows : (fun sh : Shelf .catalog => sh.selectRows name) = fun _ => [] := by
      funext sh
      rw [Shelf.selectRows, sh.rows_of_catalog]
      rfl
    rw [hrows]
    exact pure_reads []

theorem Reads.bind {β : Type} {p : Op k α} {a : Shelf k → α} {f : α → Op k β} {b : α → Shelf k → β} (hp : Reads p a)
    (hf : ∀ x, Reads (f x) (b x)) : Reads (p >>= f) fun sh => b (a sh) sh := by
  have hcases (c : Conn k) : (∃ x, (p >>= f) c = f x (p c).2 ∧ x = a c.shelf ∧ (p c).2.faulted = c.faulted) ∨
      ∃ e, (p >>= f) c = (.err e, (p c).2) ∧ (p c).2.faulted = true := by
    rcases hp.result c with ⟨hok, hfaulted⟩ | ⟨⟨e, he⟩, hfaulted⟩
    · exact .inl ⟨_, Act.bind_of_ok (Prod.ext hok rfl) f, rfl, hfaulted⟩
    · exact .inr ⟨e, Act.bind_of_err (Prod.ext he rfl) f, hfaulted⟩
  constructor
  · intro c
    rcases hcases c with ⟨x, h, -⟩ | ⟨e, h, -⟩
    · rw [h, (hf x).shelf, hp.shelf]
    · rw [h, hp.shelf]
  · intro c
    rcases hcases c with ⟨x, h, -⟩ | ⟨e, h, -⟩
    · rw [h, (hf x).txn, hp.txn]
    · rw [h, hp.txn]
  · intro c
    rcases hcases c with ⟨x, h, hx, hfaulted⟩ | ⟨e, h, hfaulted⟩
    · have hresult := (hf x).result (p c).2
      rw [hp.shelf, hfaulted, hx] at hresult
      rw [h, hx]
      exact hresult
    · rw [h]
      exact .inr ⟨⟨e, rfl⟩, hfaulted⟩

/-- What is read behind the row of the entry. -/
theorem rest_reads (name : Text) (head : k.Head) :
    Reads (selectRows name >>= fun tables => (select fun sh => sh.selectTags name : Op k (List Text)) >>= fun tags =>
      (pure ⟨name, head, tables, tags⟩ : Op k (Entry k)))
      fun sh => ⟨name, head, sh.selectRows name, sh.selectTags name⟩ :=
  (selectRows_reads name).bind fun _ => (select_reads _).bind fun _ => pure_reads _

/-- What a `get` has read. -/
theorem get_cases (name : Text) (c : Conn k) :
    (∃ d, (get name c).1 = .ok d ∧ c.shelf.find name = some d) ∨
      (∃ e, (get name c).1 = .err e) ∧
        ((get name c).2.faulted = true ∨ (get name c).2.faulted = c.faulted ∧ c.shelf.find name = none) := by
  have hhead := select_reads (fun sh : Shelf k => sh.selectHead name)
  rcases hhead.result c with ⟨hok, hfaulted⟩ | ⟨⟨e, he⟩, hfaulted⟩
  · rw [get, Act.bind_of_ok (Act.attempt_of_ok (Prod.ext hok rfl)), Shelf.find]
    cases c.shelf.selectHead name with
    | none => exact .inr ⟨⟨_, rfl⟩, .inr ⟨hfaulted, rfl⟩⟩
    | some head =>
      have hrest := (rest_reads name head).result (select (fun sh : Shelf k => sh.selectHead name) c).2
      rw [hhead.shelf] at hrest
      rcases hrest with ⟨hok, -⟩ | ⟨herr, hfaulted⟩
      · exact .inl ⟨_, hok, rfl⟩
      · exact .inr ⟨herr, .inl hfaulted⟩
  · rw [get, Act.bind_of_ok (Act.attempt_of_err (Prod.ext he rfl))]
    exact .inr ⟨⟨_, rfl⟩, .inl hfaulted⟩

/-- A `get` changes nothing. -/
theorem get_idle (name : Text) (c : Conn k) : (get name c).2.shelf = c.shelf ∧ (get name c).2.txn = c.txn := by
  have hhead := select_reads (fun sh : Shelf k => sh.selectHead name)
  rcases hhead.result c with ⟨hok, -⟩ | ⟨⟨e, he⟩, -⟩
  · rw [get, Act.bind_of_ok (Act.attempt_of_ok (Prod.ext hok rfl))]
    cases c.shelf.selectHead name with
    | none => exact ⟨hhead.shelf c, hhead.txn c⟩
    | some head =>
      have hrest := rest_reads name head
      exact ⟨(hrest.shelf _).trans (hhead.shelf c), (hrest.txn _).trans (hhead.txn c)⟩
  · rw [get, Act.bind_of_ok (Act.attempt_of_err (Prod.ext he rfl))]
    exact ⟨hhead.shelf c, hhead.txn c⟩

end

/-! ### The tables, entry by entry -/

section

variable {k : Kind}

/-- Every row has its parent. -/
structure Shelf.Parented (sh : Shelf k) : Prop where
  rows : ∀ r ∈ sh.rows, r.1 ∈ sh.heads.map Prod.fst
  tags : ∀ t ∈ sh.tags, t.1 ∈ sh.heads.map Prod.fst

/-- The entry is there, with its tables and its tags. -/
structure Shelf.Holds (sh : Shelf k) (d : Entry k) : Prop where
  head : d.name ∈ sh.heads.map Prod.fst
  tables : ∀ t, (d.name, t) ∈ sh.rows ↔ t ∈ d.tables
  tags : ∀ t, (d.name, t) ∈ sh.tags ↔ t ∈ d.tags

theorem Shelf.Stored.names {now : Text} {d : Entry k} {sh sh' : Shelf k} (h : Stored now d sh sh') {n : Text} :
    n ∈ sh'.heads.map Prod.fst ↔ n ∈ sh.heads.map Prod.fst ∧ n ≠ d.name ∨ n = d.name := by
  rw [h.heads, List.map_append, List.mem_append, List.map_singleton, List.mem_singleton]
  simp only [List.mem_map, List.mem_filter, decide_eq_true_eq]
  constructor
  · rintro (⟨p, ⟨hp, hne⟩, rfl⟩ | heq)
    · exact .inl ⟨⟨p, hp, rfl⟩, hne⟩
    · exact .inr heq
  · rintro (⟨⟨p, hp, rfl⟩, hne⟩ | heq)
    · exact .inl ⟨p, ⟨hp, hne⟩, rfl⟩
    · exact .inr heq

theorem Shelf.Stored.mem_rows {now : Text} {d : Entry k} {sh sh' : Shelf k} (h : Stored now d sh sh')
    {r : Text × k.Row} : r ∈ sh'.rows ↔ r ∈ sh.rows ∧ r.1 ≠ d.name ∨ r.1 = d.name ∧ r.2 ∈ d.tables := by
  obtain ⟨n, t⟩ := r
  rw [h.rows, List.mem_append, List.mem_filter, decide_eq_true_eq, List.mem_map]
  simp [and_comm, eq_comm]

theorem Shelf.Stored.parented {now : Text} {d : Entry k} {sh sh' : Shelf k} (h : Stored now d sh sh')
    (hp : sh.Parented) : sh'.Parented := by
  constructor
  · intro r hr
    rw [h.names]
    rcases h.mem_rows.1 hr with ⟨hr, hne⟩ | ⟨heq, -⟩
    · exact .inl ⟨hp.rows r hr, hne⟩
    · exact .inr heq
  · intro t ht
    rw [h.names]
    rcases (h.tags t).1 ht with ⟨ht, hne⟩ | ⟨heq, -⟩
    · exact .inl ⟨hp.tags t ht, hne⟩
    · exact .inr heq

/-- The entry is there. -/
theorem Shelf.Stored.holds {now : Text} {d : Entry k} {sh sh' : Shelf k} (h : Stored now d sh sh') : sh'.Holds d := by
  refine ⟨h.names.2 (.inr rfl), ?_, ?_⟩
  · intro t
    rw [h.mem_rows]
    simp
  · intro t
    rw [h.tags]
    simp

/-- The others are as they were. -/
theorem Shelf.Stored.holds_of_ne {now : Text} {d d' : Entry k} {sh sh' : Shelf k} (h : Stored now d sh sh')
    (hne : d'.name ≠ d.name) (hd : sh.Holds d') : sh'.Holds d' := by
  refine ⟨h.names.2 (.inl ⟨hd.head, hne⟩), ?_, ?_⟩
  · intro t
    rw [h.mem_rows, ← hd.tables]
    simp [hne]
  · intro t
    rw [h.tags, ← hd.tags]
    simp [hne]

theorem Shelf.names_drop {sh : Shelf k} {name n : Text} :
    n ∈ (sh.drop name).heads.map Prod.fst ↔ n ∈ sh.heads.map Prod.fst ∧ n ≠ name := by
  simp only [Shelf.drop, Shelf.deleteTags, Shelf.deleteRows, Shelf.deleteHead, List.mem_map, List.mem_filter,
    decide_eq_true_eq]
  constructor
  · rintro ⟨p, ⟨hp, hne⟩, rfl⟩
    exact ⟨⟨p, hp, rfl⟩, hne⟩
  · rintro ⟨⟨p, hp, rfl⟩, hne⟩
    exact ⟨p, ⟨hp, hne⟩, rfl⟩

theorem Shelf.mem_rows_drop {sh : Shelf k} {name : Text} {r : Text × k.Row} :
    r ∈ (sh.drop name).rows ↔ r ∈ sh.rows ∧ r.1 ≠ name := by
  simp [Shelf.drop, Shelf.deleteTags, Shelf.deleteRows, Shelf.deleteHead]

theorem Shelf.mem_tags_drop {sh : Shelf k} {name : Text} {t : Text × Text} :
    t ∈ (sh.drop name).tags ↔ t ∈ sh.tags ∧ t.1 ≠ name := by
  simp [Shelf.drop, Shelf.deleteTags, Shelf.deleteRows, Shelf.deleteHead]

theorem Shelf.Parented.drop {sh : Shelf k} (h : sh.Parented) (name : Text) : (sh.drop name).Parented := by
  constructor
  · intro r hr
    obtain ⟨hr, hne⟩ := Shelf.mem_rows_drop.1 hr
    exact Shelf.names_drop.2 ⟨h.rows r hr, hne⟩
  · intro t ht
    obtain ⟨ht, hne⟩ := Shelf.mem_tags_drop.1 ht
    exact Shelf.names_drop.2 ⟨h.tags t ht, hne⟩

theorem Shelf.Holds.drop {sh : Shelf k} {d : Entry k} (h : sh.Holds d) {name : Text} (hne : d.name ≠ name) :
    (sh.drop name).Holds d := by
  refine ⟨Shelf.names_drop.2 ⟨h.head, hne⟩, ?_, ?_⟩
  · intro t
    rw [Shelf.mem_rows_drop, ← h.tables]
    simp [hne]
  · intro t
    rw [Shelf.mem_tags_drop, ← h.tags]
    simp [hne]

theorem Shelf.find_isSome {sh : Shelf k} {name : Text} : (sh.find name).isSome ↔ name ∈ sh.heads.map Prod.fst := by
  rw [Shelf.find, Option.isSome_map, Shelf.selectHead, List.lookup_isSome_iff]
  simp

theorem Shelf.find_name {sh : Shelf k} {name : Text} {d : Entry k} (h : sh.find name = some d) : d.name = name := by
  obtain ⟨head, -, rfl⟩ := Option.map_eq_some_iff.1 h
  rfl

/-- What is there is found. -/
theorem Shelf.Holds.find {sh : Shelf k} {d : Entry k} (h : sh.Holds d) :
    ∃ e, sh.find d.name = some e ∧ (∀ t, t ∈ e.tables ↔ t ∈ d.tables) ∧ ∀ t, t ∈ e.tags ↔ t ∈ d.tags := by
  obtain ⟨e, he⟩ := Option.isSome_iff_exists.1 (Shelf.find_isSome.2 h.head)
  refine ⟨e, he, ?_, ?_⟩
  all_goals
    obtain ⟨head, -, rfl⟩ := Option.map_eq_some_iff.1 he
    intro t
  · rw [← h.tables, Shelf.selectRows, (List.perm_insertionSort _ _).mem_iff]
    simp
  · rw [← h.tags, Shelf.selectTags, (List.perm_insertionSort _ _).mem_iff]
    simp

/-- What a search finds is there, the owner of a tag with it. -/
theorem Shelf.Parented.found {sh : Shelf k} (h : sh.Parented) {pt : Patterns} {query n : Text}
    (hn : n ∈ sh.names pt query) : (sh.find n).isSome := by
  rw [Shelf.find_isSome]
  rw [Shelf.names, (List.perm_insertionSort _ _).mem_iff] at hn
  split at hn
  · exact hn
  · obtain ⟨t, ht, rfl⟩ := List.mem_map.1 hn
    exact h.tags t (List.mem_of_mem_filter ht)
  · split at hn
    · obtain ⟨p, hp, rfl⟩ := List.mem_map.1 hn
      exact List.mem_map_of_mem (List.mem_of_mem_filter hp)
    · obtain ⟨p, hp, rfl⟩ := List.mem_map.1 hn
      exact List.mem_map_of_mem (List.mem_of_mem_filter hp)

end

/-! ### Runs -/

section

variable {k : Kind}

/-- A connection between two operations, of whose statements some are to fail. -/
def Shelf.conn (sh : Shelf k) (fates : List (Option Text)) : Conn k := ⟨sh, none, fates, false⟩

/-- What a `get` returns. -/
def Shelf.got (sh : Shelf k) (name : Text) : Ended StoreError (Entry k) := (get name (sh.conn [])).1

/-- A listing: what it has found and not yet read, and the tables as they have been since its search. -/
structure Listing (k : Kind) where
  searched : Shelf k
  later : List (Shelf k)
  found : List Text
  read : List (Entry k)
  result : Option (Except StoreError (List (Entry k)))
  /-- One of its own statements has failed. -/
  faulty : Bool

namespace Listing

variable (l : Listing k)

/-- The moments of its run. -/
def moments : List (Shelf k) := l.searched :: l.later

def sees (sh : Shelf k) : Listing k := if l.result.isSome then l else { l with later := l.later ++ [sh] }

/-- Behind its search. -/
def searching (sh : Shelf k) : Ended StoreError (List Text) × Conn k → Listing k
  | (.ok found, _) => ⟨sh, [], found, [], none, false⟩
  | (.err e, c) => ⟨sh, [], [], [], some (.error e), c.faulted⟩
  | (.unwound, _) => ⟨sh, [], [], [], none, false⟩

/-- Behind the next `get`. -/
def getting (found : List Text) : Ended StoreError (Entry k) × Conn k → Listing k
  | (.ok d, _) => { l with found, read := l.read ++ [d] }
  | (.err e, c) => { l with found, result := some (.error e), faulty := c.faulted }
  | (.unwound, _) => l

end Listing

/-- The tables, and what was there before the last operation, its error, what has been added, and the listings. -/
structure Shelving (k : Kind) where
  shelf : Shelf k
  prior : Shelf k
  reply : Option StoreError
  stored : Text → Option (Entry k)
  listings : List (Listing k)

/-- Whose turn it is to have the lock. -/
inductive Turn (k : Kind) where
  | add (now : Text) (d : Entry k)
  | remove (name : Text)
  | get (name : Text)
  | list (query : Text)
  | next (i : ℕ)

/-- The error of an operation. -/
def errorOf {α : Type} : Ended StoreError α → Option StoreError
  | .err e => some e
  | _ => none

namespace Shelving

variable (pt : Patterns) (s : Shelving k)

/-- Behind an operation. -/
def behind {α : Type} (r : Ended StoreError α × Conn k) : Shelving k :=
  { s with
    shelf := r.2.shelf
    prior := s.shelf
    reply := errorOf r.1
    listings := s.listings.map fun l => l.sees r.2.shelf }

def turn (fates : List (Option Text)) : Turn k → Option (Shelving k)
  | .add now d =>
    let r := add now d (s.shelf.conn fates)
    some { s.behind r with stored := if r.1.isOk then Function.update s.stored d.name (some d) else s.stored }
  | .remove name =>
    let r := remove name (s.shelf.conn fates)
    some { s.behind r with stored := if r.1.isOk then Function.update s.stored name none else s.stored }
  | .get name => some (s.behind (get name (s.shelf.conn fates)))
  | .list query =>
    let r := search pt query (s.shelf.conn fates)
    some { s.behind r with listings := (s.behind r).listings ++ [Listing.searching s.shelf r] }
  | .next i =>
    match s.listings[i]? with
    | none => none
    | some l =>
      match l.result, l.found with
      | some _, _ => none
      | none, [] =>
        some { s with
          prior := s.shelf
          reply := none
          listings := s.listings.set i { l with result := some (.ok l.read) } }
      | none, name :: found =>
        let r := get name (s.shelf.conn fates)
        some { s.behind r with listings := (s.behind r).listings.set i ((l.sees r.2.shelf).getting found r) }

/-- Every row has its parent; an operation with an error has left the tables as they were; what has been added and not
been removed is returned; a listing none of whose statements has failed has returned what was there at one of its
moments. -/
structure Consistent : Prop where
  parented : s.shelf.Parented
  atomic : s.reply.isSome → s.shelf = s.prior
  kept : ∀ name d, s.stored name = some d →
    ∃ e, s.shelf.got name = .ok e ∧ (∀ t, t ∈ e.tables ↔ t ∈ d.tables) ∧ ∀ t, t ∈ e.tags ↔ t ∈ d.tags
  listed : ∀ l ∈ s.listings, l.faulty = false → ∀ r, l.result = some r →
    ∃ ds, r = .ok ds ∧ ∃ sh ∈ l.moments, ∀ d ∈ ds, sh.got d.name = .ok d

/-- A removal is whole, and a listing reads what it has found as that was at its search. -/
def Good (fates : List (Option Text)) : Turn k → Prop
  | .remove name => (s.shelf.conn fates).Whole name
  | .next i => ∀ l ∈ s.listings[i]?, ∀ name ∈ l.found.head?, s.shelf.find name = l.searched.find name
  | _ => True

instance (fates : List (Option Text)) (t : Turn k) : Decidable (s.Good fates t) := by
  cases t <;> unfold Good <;> infer_instance

end Shelving

end

/-- The datasets and the catalogs. -/
abbrev Shelves : Type := (k : Kind) → Shelving k

/-- A turn, and how its statements are to fail. -/
structure Label where
  kind : Kind
  turn : Turn kind
  fates : List (Option Text)

namespace Shelves

def step (pt : Patterns) (s : Shelves) (l : Label) : Option Shelves :=
  ((s l.kind).turn pt l.fates l.turn).map (Function.update s l.kind)

/-- With nothing under way. -/
def start (sh : (k : Kind) → Shelf k) : Shelves := fun k => ⟨sh k, sh k, none, fun _ => none, []⟩

def Consistent (s : Shelves) : Prop := ∀ k, (s k).Consistent

def Good (s : Shelves) (l : Label) : Prop := (s l.kind).Good l.fates l.turn

instance (s : Shelves) (l : Label) : Decidable (s.Good l) := inferInstanceAs (Decidable ((s l.kind).Good _ _))

end Shelves

/-! ### The invariant -/

section

variable {k : Kind}

theorem select_clear {α : Type} (f : Shelf k → α) (sh : Shelf k) :
    select f (sh.conn []) = (.ok (f sh), sh.conn []) := rfl

theorem selectRows_clear (name : Text) (sh : Shelf k) :
    selectRows name (sh.conn []) = (.ok (sh.selectRows name), sh.conn []) := by
  cases k with
  | dataset => rfl
  | catalog =>
    rw [Shelf.selectRows, sh.rows_of_catalog]
    rfl

theorem Shelf.got_of_find {sh : Shelf k} {name : Text} {d : Entry k} (h : sh.find name = some d) :
    sh.got name = .ok d := by
  obtain ⟨head, hhead, rfl⟩ := Option.map_eq_some_iff.1 h
  rw [Shelf.got, get, Act.bind_of_ok (Act.attempt_of_ok (select_clear _ sh)), hhead]
  show ((Datasets.selectRows name >>= fun tables => _ : Op k (Entry k)) (sh.conn [])).1 = _
  rw [Act.bind_of_ok (selectRows_clear name sh), Act.bind_of_ok (select_clear _ sh)]
  rfl

/-- What a listing has read, and what it is to read, is as it was at its search. -/
structure Listing.Sound (l : Listing k) : Prop where
  found : ∀ name ∈ l.found, (l.searched.find name).isSome
  read : ∀ d ∈ l.read, l.searched.find d.name = some d
  result : l.faulty = false → ∀ r, l.result = some r → ∃ ds, r = .ok ds ∧ ∀ d ∈ ds, l.searched.find d.name = some d

theorem Listing.Sound.sees {l : Listing k} (h : l.Sound) (sh : Shelf k) : (l.sees sh).Sound := by
  unfold Listing.sees
  split
  · exact h
  · exact ⟨h.found, h.read, h.result⟩

/-- A listing begins. -/
theorem Listing.searching_sound {sh : Shelf k} (hp : sh.Parented) (pt : Patterns) (query : Text)
    (fates : List (Option Text)) : (Listing.searching sh (search pt query (sh.conn fates))).Sound := by
  rcases (select_reads (fun sh : Shelf k => sh.names pt query)).result (sh.conn fates) with ⟨hok, -⟩ | ⟨⟨e, he⟩, hf⟩
  · rw [search, ← Prod.mk.eta (p := select _ _), hok]
    refine ⟨fun name hn => hp.found hn, by simp [Listing.searching], by simp [Listing.searching]⟩
  · rw [search, ← Prod.mk.eta (p := select _ _), he]
    simp only [Listing.searching]
    exact ⟨by simp, by simp, fun hnot => absurd (hf.symm.trans hnot) (by simp)⟩

/-- A listing reads a name that is as it was at its search. -/
theorem Listing.Sound.getting {l : Listing k} (h : l.Sound) (hl : l.result = none) {sh : Shelf k} {name : Text}
    {found : List Text} (hfound : l.found = name :: found) (hgood : sh.find name = l.searched.find name)
    (fates : List (Option Text)) : (l.getting found (get name (sh.conn fates))).Sound := by
  have hname := h.found name (by rw [hfound]; exact List.mem_cons_self)
  have hrest : ∀ n ∈ found, (l.searched.find n).isSome := fun n hn =>
    h.found n (by rw [hfound]; exact List.mem_cons_of_mem _ hn)
  rcases get_cases name (sh.conn fates) with ⟨d, hok, hfind⟩ | ⟨⟨e, he⟩, hfaulted | ⟨-, hnone⟩⟩
  · rw [← Prod.mk.eta (p := get _ _), hok]
    refine ⟨hrest, ?_, by simp [Listing.getting, hl]⟩
    intro d' hd'
    rcases List.mem_append.1 hd' with hd' | hd'
    · exact h.read d' hd'
    · rw [List.mem_singleton.1 hd', Shelf.find_name hfind]
      exact hgood.symm.trans hfind
  · rw [← Prod.mk.eta (p := get _ _), he]
    refine ⟨hrest, h.read, fun hnot => ?_⟩
    exact absurd (hfaulted.symm.trans hnot) (by simp)
  · rw [← hgood] at hname
    have hnone : sh.find name = none := hnone
    rw [hnone] at hname
    cases hname

namespace Shelving

/-- What the good turns keep. -/
structure Inv (s : Shelving k) : Prop where
  parented : s.shelf.Parented
  atomic : s.reply.isSome → s.shelf = s.prior
  kept : ∀ name d, s.stored name = some d → d.name = name ∧ s.shelf.Holds d
  listed : ∀ l ∈ s.listings, l.Sound

variable {pt : Patterns} {s : Shelving k}

theorem Inv.consistent (h : s.Inv) : s.Consistent := by
  refine ⟨h.parented, h.atomic, ?_, ?_⟩
  · intro name d hd
    obtain ⟨rfl, hholds⟩ := h.kept name d hd
    obtain ⟨e, he, hsame⟩ := hholds.find
    exact ⟨e, Shelf.got_of_find he, hsame⟩
  · intro l hl hfaulty r hr
    obtain ⟨ds, rfl, hds⟩ := (h.listed l hl).result hfaulty r hr
    exact ⟨ds, rfl, l.searched, List.mem_cons_self, fun d hd => Shelf.got_of_find (hds d hd)⟩

/-- What an operation does to the listings under way. -/
theorem Inv.behind_listed (h : s.Inv) {α : Type} (r : Ended StoreError α × Conn k) :
    ∀ l ∈ (s.behind r).listings, l.Sound := by
  intro l hl
  obtain ⟨l', hl', rfl⟩ := List.mem_map.1 hl
  exact (h.listed l' hl').sees _

/-- An operation that leaves the tables alone. -/
theorem Inv.behind_idle (h : s.Inv) {α : Type} {r : Ended StoreError α × Conn k} (hr : r.2.shelf = s.shelf) :
    (s.behind r).Inv := by
  have hshelf : (s.behind r).shelf = s.shelf := hr
  refine ⟨?_, fun _ => hr, ?_, h.behind_listed r⟩
  · rw [hshelf]
    exact h.parented
  · rw [hshelf]
    exact h.kept

/-- An operation that has changed an entry. -/
theorem Inv.behind_ok (h : s.Inv) {α : Type} {a : α} {r : Ended StoreError α × Conn k} (hok : r.1 = .ok a)
    (hp : r.2.shelf.Parented) {stored : Text → Option (Entry k)}
    (hkept : ∀ name d, stored name = some d → d.name = name ∧ r.2.shelf.Holds d) :
    ({ s.behind r with stored } : Shelving k).Inv := by
  refine ⟨hp, ?_, hkept, h.behind_listed r⟩
  show (errorOf r.1).isSome → _
  rw [hok]
  intro hnot
  cases hnot

theorem Inv.add (h : s.Inv) (now : Text) (d : Entry k) (fates : List (Option Text)) :
    ∀ s' ∈ s.turn pt fates (.add now d), s'.Inv := by
  rintro s' ⟨⟩
  rcases add_cases now d (c := s.shelf.conn fates) rfl with ⟨e, he, hidle⟩ | ⟨sh, hok, hidle, hstored⟩
  · rw [he]
    exact h.behind_idle hidle.shelf
  · rw [hok]
    refine h.behind_ok hok ?_ ?_
    · rw [hidle.shelf]
      exact hstored.parented h.parented
    · intro name d' hd'
      rw [hidle.shelf]
      rw [Ended.isOk, if_pos rfl] at hd'
      by_cases hname : name = d.name
      · subst hname
        rw [Function.update_self] at hd'
        cases hd'
        exact ⟨rfl, hstored.holds⟩
      · rw [Function.update_of_ne hname] at hd'
        obtain ⟨rfl, hholds⟩ := h.kept name d' hd'
        exact ⟨rfl, hstored.holds_of_ne hname hholds⟩

theorem Inv.remove (h : s.Inv) {name : Text} {fates : List (Option Text)} (hgood : s.Good fates (.remove name)) :
    ∀ s' ∈ s.turn pt fates (.remove name), s'.Inv := by
  rintro s' ⟨⟩
  rcases remove_cases hgood rfl with ⟨e, he, hidle⟩ | ⟨hok, hidle⟩
  · rw [he]
    exact h.behind_idle hidle.shelf
  · rw [hok]
    refine h.behind_ok hok ?_ ?_
    · rw [hidle.shelf]
      exact h.parented.drop name
    · intro name' d hd
      rw [hidle.shelf]
      rw [Ended.isOk, if_pos rfl] at hd
      by_cases hname : name' = name
      · subst hname
        rw [Function.update_self] at hd
        cases hd
      · rw [Function.update_of_ne hname] at hd
        obtain ⟨rfl, hholds⟩ := h.kept name' d hd
        exact ⟨rfl, hholds.drop hname⟩

theorem Inv.list (h : s.Inv) (query : Text) (fates : List (Option Text)) :
    ∀ s' ∈ s.turn pt fates (.list query), s'.Inv := by
  rintro s' ⟨⟩
  have hshelf := (select_reads fun sh : Shelf k => sh.names pt query).shelf (s.shelf.conn fates)
  have hbehind := h.behind_idle (r := search pt query (s.shelf.conn fates)) hshelf
  refine ⟨hbehind.parented, hbehind.atomic, hbehind.kept, ?_⟩
  intro l hl
  rcases List.mem_append.1 hl with hl | hl
  · exact hbehind.listed l hl
  · rw [List.mem_singleton.1 hl]
    exact Listing.searching_sound h.parented pt query fates

theorem Inv.next (h : s.Inv) {i : ℕ} {fates : List (Option Text)} (hgood : s.Good fates (.next i)) :
    ∀ s' ∈ s.turn pt fates (.next i), s'.Inv := by
  intro s' hs
  rw [turn] at hs
  split at hs
  · cases hs
  · next l hl =>
    have hmem := List.mem_of_getElem? hl
    have hsound := h.listed l hmem
    split at hs
    · cases hs
    · next hresult hfound =>
      cases hs
      refine ⟨h.parented, fun _ => rfl, h.kept, ?_⟩
      intro l' hl'
      rcases List.mem_or_eq_of_mem_set hl' with hl' | rfl
      · exact h.listed l' hl'
      · refine ⟨hsound.found, hsound.read, ?_⟩
        rintro - r ⟨⟩
        exact ⟨l.read, rfl, hsound.read⟩
    · next name found hresult hfound =>
      cases hs
      have hidle := (get_idle name (s.shelf.conn fates)).1
      have hbehind := h.behind_idle hidle
      refine ⟨hbehind.parented, hbehind.atomic, hbehind.kept, ?_⟩
      intro l' hl'
      rcases List.mem_or_eq_of_mem_set hl' with hl' | rfl
      · exact hbehind.listed l' hl'
      · have hread : s.shelf.find name = l.searched.find name := by
          refine hgood l hl name ?_
          rw [hfound]
          rfl
        have hsees : l.sees (get name (s.shelf.conn fates)).2.shelf =
            { l with later := l.later ++ [(get name (s.shelf.conn fates)).2.shelf] } := by
          rw [Listing.sees, hresult]
          rfl
        have hsound' := hsound.sees (get name (s.shelf.conn fates)).2.shelf
        rw [hsees] at hsound' ⊢
        exact hsound'.getting hresult hfound hread fates

/-- **The step lemma**: one good turn. -/
theorem Inv.turn (h : s.Inv) {fates : List (Option Text)} {t : Turn k} (hgood : s.Good fates t) :
    ∀ s' ∈ s.turn pt fates t, s'.Inv := by
  cases t with
  | add now d => exact h.add now d fates
  | remove name => exact h.remove hgood
  | get name =>
    rintro s' ⟨⟩
    exact h.behind_idle (get_idle name _).1
  | list query => exact h.list query fates
  | next i => exact h.next hgood

end Shelving

end

namespace Shelves

variable {pt : Patterns}

theorem inv_step (s : Shelves) (l : Label) (s' : Shelves) (h : ∀ k, (s k).Inv) (hgood : s.Good l)
    (hs : step pt s l = some s') : ∀ k, (s' k).Inv := by
  obtain ⟨t, ht, rfl⟩ := Option.map_eq_some_iff.1 hs
  intro k
  by_cases hk : k = l.kind
  · subst hk
    rw [Function.update_self]
    exact (h l.kind).turn hgood t ht
  · rw [Function.update_of_ne hk]
    exact h k

theorem inv_start {sh : (k : Kind) → Shelf k} (h : ∀ k, (sh k).Parented) : ∀ k, (start sh k).Inv := by
  intro k
  refine ⟨h k, fun _ => rfl, ?_, ?_⟩
  · rintro name d ⟨⟩
  · intro l hl
    cases hl

/-- **Consistent**: in a run whose removals are whole, and whose listings read what they have found as it was at
their search, everything stays consistent, whatever else fails. -/
theorem kept_consistent (pt : Patterns) (sh : (k : Kind) → Shelf k) (hp : ∀ k, (sh k).Parented) (ls : List Label)
    (h : Runs.Careful (step pt) Good (start sh) ls) : Runs.Always (step pt) Consistent (start sh) ls :=
  Runs.always_of_careful (I := fun s => ∀ k, (s k).Inv) (inv_step)
    (fun _ hs k => (hs k).consistent) (inv_start hp) h

end Shelves

/-! ### What goes wrong -/

/-- A dataset of one table. -/
def taxi (uri : String) : Entry .dataset :=
  ⟨"taxi".toList, (⟨"".toList, "ana".toList, [] ⟩ : DatasetHead),
    [(⟨"trips".toList, uri.toList, "parquet".toList⟩ : DatasetTableRow)], ["nyc".toList]⟩

/-- A catalog. -/
def lake : Entry .catalog :=
  ⟨"lake".toList, (⟨"iceberg".toList, "".toList, "".toList, "ana".toList, []⟩ : CatalogHead), [], ["raw".toList]⟩

/-- Patterns that match the same text only. -/
def verbatim : Patterns := ⟨fun s p => s == p, fun s p => s == p⟩

/-- No tables. -/
def bare : (k : Kind) → Shelf k := fun _ => ⟨[], [], []⟩

theorem bare_parented (k : Kind) : (bare k).Parented := by
  constructor
  · rintro _ ⟨⟩
  · rintro _ ⟨⟩

def failing : Option Text := some "disk full".toList

/-- Added, replaced while it is listed but for the last statement, listed, and removed. -/
def carefulRun : List Label :=
  [⟨.dataset, .add [] (taxi "s3://a"), []⟩, ⟨.catalog, .add [] lake, []⟩, ⟨.dataset, .list [], []⟩,
    ⟨.dataset, .add [] (taxi "s3://b"), [none, none, none, none, none, failing]⟩, ⟨.dataset, .next 0, []⟩,
    ⟨.dataset, .next 0, []⟩, ⟨.dataset, .remove "taxi".toList, [failing]⟩, ⟨.dataset, .remove "taxi".toList, []⟩,
    ⟨.catalog, .remove "lake".toList, []⟩]

theorem consistent_careful : Runs.Always (Shelves.step verbatim) Shelves.Consistent (Shelves.start bare) carefulRun :=
  Shelves.kept_consistent verbatim bare bare_parented carefulRun (by decide +kernel)

/-- A removal whose second statement fails. -/
def halfRemoval : List Label :=
  [⟨.dataset, .add [] (taxi "s3://a"), []⟩, ⟨.dataset, .remove "taxi".toList, [none, failing]⟩]

/-- **Half removed**: the removal has failed, its row is gone, and its tables are without a parent. -/
theorem half_removed :
    ¬Runs.Always (Shelves.step verbatim) Shelves.Consistent (Shelves.start bare) halfRemoval := by
  have hrun : (Runs.run (Shelves.step verbatim) (Shelves.start bare) halfRemoval).map
      (fun s => ((s .dataset).shelf.heads.map Prod.fst, (s .dataset).shelf.rows.map Prod.fst)) =
      some ([], ["taxi".toList]) := by
    decide +kernel
  obtain ⟨s, hs, heq⟩ := Option.map_eq_some_iff.1 hrun
  obtain ⟨hheads, hrows⟩ := Prod.mk.inj heq
  intro h
  have hparented := (h.last hs .dataset).parented
  obtain ⟨r, hr, -⟩ := List.mem_map.1 (hrows ▸ List.mem_cons_self)
  have hmem := hparented.rows r hr
  rw [hheads] at hmem
  cases hmem

/-- A removal between a listing's search and its read. -/
def removalWhileListed : List Label :=
  [⟨.dataset, .add [] (taxi "s3://a"), []⟩, ⟨.dataset, .list [], []⟩, ⟨.dataset, .remove "taxi".toList, []⟩,
    ⟨.dataset, .next 0, []⟩]

/-- **Removed while listed**: no statement has failed, and the listing has. -/
theorem removed_while_listed :
    ¬Runs.Always (Shelves.step verbatim) Shelves.Consistent (Shelves.start bare) removalWhileListed := by
  have hrun : (Runs.run (Shelves.step verbatim) (Shelves.start bare) removalWhileListed).map
      (fun s => (s .dataset).listings.map fun l => (l.result.map Except.isOk, l.faulty)) =
      some [(some false, false)] := by
    decide +kernel
  obtain ⟨s, hs, heq⟩ := Option.map_eq_some_iff.1 hrun
  intro h
  obtain ⟨l, hl, hboth⟩ := List.mem_map.1 (heq ▸ List.mem_cons_self)
  obtain ⟨hresult, hfaulty⟩ := Prod.mk.inj hboth
  obtain ⟨r, hr, hnot⟩ := Option.map_eq_some_iff.1 hresult
  obtain ⟨ds, rfl, -⟩ := (h.last hs .dataset).listed l hl hfaulty r hr
  cases hnot

end Latiq.ControlPlane.Datasets
