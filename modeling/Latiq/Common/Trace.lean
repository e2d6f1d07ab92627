import Latiq.Common.Id

/-!
# Trace contexts

A request's place in a trace: the id that everything the request touches shares, and the span that the node is.
A node that takes a request from another reads the trace id from the `traceparent` header and mints a span of
its own under it.

## What is proved

* `TraceContext.new` — the ids that are minted are ids: a UUID of version 4 has a digit that is not zero, also among
  its first sixteen.
* `parse_eq_some_iff` — a header is read just where it is in the grammar of the standard (`Traceparent`), and as what
  the grammar says; `traceparent_grammar` adds that our own headers are read as the traces they were written for.
* `inbound_traceparent` — the id survives the hop.
-/

namespace Latiq.Common

open RustStr

/-- `is_lower_hex`. -/
def isLowerHex (s : Text) (len : ℕ) : Bool := s.length == len && s.all fun c => c.isDigit || ('a' ≤ c && c ≤ 'f')

/-- A hexadecimal id of this length, that is not all zeros. -/
def isId (s : Text) (len : ℕ) : Bool := isLowerHex s len && !s.all (· == '0')

/-- `TraceContext`, with ids that are ids. -/
structure TraceContext where
  traceId : Text
  spanId : Text
  sampled : Bool
  traceId_ok : isId traceId 32 = true
  spanId_ok : isId spanId 16 = true

namespace TraceContext

/-- `traceparent`. -/
def traceparent (t : TraceContext) : Text :=
  "00".toList ++ '-' :: (t.traceId ++ '-' :: (t.spanId ++ '-' :: if t.sampled then "01".toList else "00".toList))

/-- The value of a hexadecimal digit. -/
def hexValue (c : Char) : ℕ := if c.isDigit then c.toNat - '0'.toNat else c.toNat - 'a'.toNat + 10

/-- `parse`: the trace id of a header, under a span of our own. -/
def parse (fresh : TraceContext) (header : Text) : Option TraceContext :=
  match (trim header).splitOn '-' with
  | version :: traceId :: parentId :: flags :: more =>
    if version = "00".toList ∧ more ≠ [] then none
    else if isLowerHex version 2 = false ∨ version = "ff".toList then none
    else if h : isId traceId 32 = true then
      if isId parentId 16 = false then none
      else if isLowerHex flags 2 = false then none
      -- The low bit of the flags is the low bit of their last digit.
      else some ⟨traceId, fresh.spanId, (flags.map hexValue).getLast?.any (· % 2 == 1), h, fresh.spanId_ok⟩
    else none
  | _ => none

/-- `inbound`: a header that cannot be honoured means a new trace. -/
def inbound (fresh : TraceContext) (header : Option Text) : TraceContext := (header.bind (parse fresh)).getD fresh

/-! ### Ids that are minted -/

/-- `hex32`. -/
def hex32 (id : PondId) : Text := replaceChar '-' [] id.toText

theorem isLowerHex_digits (id : PondId) (start count : ℕ) : isLowerHex (id.digits start count) count = true := by
  have hdigit : ∀ d < 16, ((Nat.digitChar d).isDigit || ('a' ≤ Nat.digitChar d && Nat.digitChar d ≤ 'f')) = true := by
    decide
  simp only [isLowerHex, Bool.and_eq_true, beq_iff_eq, List.all_eq_true]
  refine ⟨by simp [PondId.digits], fun c hc => ?_⟩
  obtain ⟨i, -, rfl⟩ := List.mem_map.1 hc
  exact hdigit _ (Nat.mod_lt _ (by omega))

theorem isLowerHex_append {s t : Text} {m n : ℕ} (hs : isLowerHex s m = true) (ht : isLowerHex t n = true) :
    isLowerHex (s ++ t) (m + n) = true := by
  simp only [isLowerHex, Bool.and_eq_true, beq_iff_eq, List.all_append, List.length_append] at hs ht ⊢
  exact ⟨by rw [hs.1, ht.1], hs.2, ht.2⟩

theorem not_dash_of_isLowerHex {s : Text} {len : ℕ} (h : isLowerHex s len = true) : '-' ∉ s := by
  intro hmem
  simp only [isLowerHex, Bool.and_eq_true, List.all_eq_true] at h
  exact absurd (h.2 _ hmem) (by decide)

/-- Without its hyphens an id is its digits; the first sixteen end with those of the version. -/
theorem hex32_eq (id : PondId) :
    hex32 id = (id.digits 128 8 ++ (id.digits 96 4 ++ id.digits 80 4)) ++ (id.digits 64 4 ++ id.digits 48 12) := by
  have hdigits (start count : ℕ) : replaceChar '-' [] (id.digits start count) = id.digits start count :=
    replaceChar_of_not_mem (not_dash_of_isLowerHex (isLowerHex_digits id start count)) []
  rw [hex32, PondId.toText]
  simp only [replaceChar_append, replaceChar_cons_self, hdigits, List.nil_append, List.append_assoc]

/-- The first of the digits of the version is a four. -/
theorem four_mem_digits (id : PondId) : '4' ∈ id.digits 80 4 := by
  have hbits : (id.bits >>> 76).toNat % 16 = 4 := by
    have hversion := congrArg BitVec.toNat id.version
    simpa [BitVec.extractLsb'_toNat] using hversion
  refine List.mem_map.2 ⟨0, by simp, ?_⟩
  rw [show 80 - 4 * (0 + 1) = 76 from rfl, hbits]
  rfl

theorem isId_of_four_mem {s : Text} {len : ℕ} (hs : isLowerHex s len = true) (hfour : '4' ∈ s) : isId s len = true := by
  have hall : (s.all fun c => c == '0') = false := List.all_eq_false.2 ⟨'4', hfour, by decide⟩
  rw [isId, hs, hall]
  rfl

/-- The first half of them. -/
theorem isLowerHex_firstHalf (id : PondId) :
    isLowerHex (id.digits 128 8 ++ (id.digits 96 4 ++ id.digits 80 4)) 16 = true :=
  isLowerHex_append (isLowerHex_digits id 128 8) <|
    isLowerHex_append (isLowerHex_digits id 96 4) (isLowerHex_digits id 80 4)

theorem isId_hex32 (id : PondId) : isId (hex32 id) 32 = true := by
  have hlast : isLowerHex (id.digits 64 4 ++ id.digits 48 12) 16 = true :=
    isLowerHex_append (isLowerHex_digits id 64 4) (isLowerHex_digits id 48 12)
  rw [hex32_eq]
  exact isId_of_four_mem (isLowerHex_append (isLowerHex_firstHalf id) hlast) (by simp [four_mem_digits])

theorem isId_take_hex32 (id : PondId) : isId ((hex32 id).take 16) 16 = true := by
  have htake : (hex32 id).take 16 = id.digits 128 8 ++ (id.digits 96 4 ++ id.digits 80 4) := by
    rw [hex32_eq]
    refine List.take_left' ?_
    simp [PondId.digits]
  rw [htake]
  exact isId_of_four_mem (isLowerHex_firstHalf id) (by simp [four_mem_digits])

/-- `new`, from two UUIDs. -/
def new (trace span : PondId) : TraceContext :=
  ⟨hex32 trace, (hex32 span).take 16, true, isId_hex32 trace, isId_take_hex32 span⟩

end TraceContext

/-! ### The grammar of the standard -/

/-- `HEXDIGLC`: a digit, or a letter from `a` to `f` in lower case. -/
def HexDigLc (c : Char) : Prop := ('0' ≤ c ∧ c ≤ '9') ∨ ('a' ≤ c ∧ c ≤ 'f')

/-- So many of them. -/
def HexField (s : Text) (len : ℕ) : Prop := s.length = len ∧ ∀ c ∈ s, HexDigLc c

/-- The fields of a `traceparent` in the grammar of W3C Trace Context. Version `ff` and ids of zeros are invalid, and
only a version to come has more behind the flags. -/
structure Traceparent where
  version : Text
  traceId : Text
  parentId : Text
  flags : Text
  more : Option Text
  version_ok : HexField version 2
  version_ne : version ≠ "ff".toList
  traceId_ok : HexField traceId 32
  traceId_ne : traceId ≠ List.replicate 32 '0'
  parentId_ok : HexField parentId 16
  parentId_ne : parentId ≠ List.replicate 16 '0'
  flags_ok : HexField flags 2
  more_ok : version = "00".toList → more = none

namespace Traceparent

/-- What a version to come has behind the flags. -/
def behind : Option Text → Text
  | none => []
  | some more => '-' :: more

/-- The header with these fields. -/
def text (p : Traceparent) : Text :=
  p.version ++ '-' :: (p.traceId ++ '-' :: (p.parentId ++ '-' :: (p.flags ++ behind p.more)))

/-- The number the flags are. -/
def flagBits (p : Traceparent) : ℕ := p.flags.foldl (fun n c => 16 * n + TraceContext.hexValue c) 0

/-- The `sampled` flag is the lowest of them. -/
def sampled (p : Traceparent) : Bool := p.flagBits % 2 == 1

end Traceparent

theorem isLowerHex_iff {s : Text} {len : ℕ} : isLowerHex s len = true ↔ HexField s len := by
  simp only [isLowerHex, HexField, HexDigLc, Char.isDigit, Bool.and_eq_true, beq_iff_eq, List.all_eq_true,
    Bool.or_eq_true, decide_eq_true_eq, ge_iff_le]
  rfl

theorem isId_iff {s : Text} {len : ℕ} : isId s len = true ↔ HexField s len ∧ s ≠ List.replicate len '0' := by
  rw [isId, Bool.and_eq_true, isLowerHex_iff, Bool.not_eq_true', List.all_eq_false]
  refine and_congr_right fun h => ?_
  rw [ne_eq, List.eq_replicate_iff]
  simp [h.1]

theorem HexField.dash_not_mem {s : Text} {len : ℕ} (h : HexField s len) : '-' ∉ s :=
  TraceContext.not_dash_of_isLowerHex (isLowerHex_iff.2 h)

namespace Traceparent

/-- The fields are what is between the dashes. -/
theorem splitOn_text (p : Traceparent) : ∃ more, (more = [] ↔ p.more = none) ∧
    p.text.splitOn '-' = p.version :: p.traceId :: p.parentId :: p.flags :: more := by
  rw [text, List.splitOn_append_cons_self_of_not_mem p.version_ok.dash_not_mem,
    List.splitOn_append_cons_self_of_not_mem p.traceId_ok.dash_not_mem,
    List.splitOn_append_cons_self_of_not_mem p.parentId_ok.dash_not_mem]
  cases p.more with
  | none =>
    rw [behind, List.append_nil, List.splitOn_eq_singleton p.flags_ok.dash_not_mem]
    exact ⟨[], by simp, rfl⟩
  | some more =>
    rw [behind, List.splitOn_append_cons_self_of_not_mem p.flags_ok.dash_not_mem]
    exact ⟨more.splitOn '-', by simp [List.splitOn_ne_nil], rfl⟩

/-- The lowest flag is in the last digit. -/
theorem sampled_eq (p : Traceparent) : (p.flags.map TraceContext.hexValue).getLast?.any (· % 2 == 1) = p.sampled := by
  obtain ⟨a, b, hflags⟩ := List.length_eq_two.1 p.flags_ok.1
  rw [sampled, flagBits, hflags]
  have hlow : (16 * (16 * 0 + TraceContext.hexValue a) + TraceContext.hexValue b) % 2 = TraceContext.hexValue b % 2 := by
    omega
  simp only [List.foldl_cons, List.foldl_nil, hlow]
  rfl

end Traceparent

namespace TraceContext

/-- What a header in the grammar says, under a span of our own. -/
def ofHeader (fresh : TraceContext) (p : Traceparent) : TraceContext :=
  ⟨p.traceId, fresh.spanId, p.sampled, isId_iff.2 ⟨p.traceId_ok, p.traceId_ne⟩, fresh.spanId_ok⟩

/-- What is in the grammar is read. -/
theorem parse_text (fresh : TraceContext) {header : Text} {p : Traceparent} (h : trim header = p.text) :
    parse fresh header = some (ofHeader fresh p) := by
  obtain ⟨more, hmore, hsplit⟩ := p.splitOn_text
  have hversion : ¬(p.version = "00".toList ∧ more ≠ []) := fun hv => hv.2 (hmore.2 (p.more_ok hv.1))
  have hhex : ¬(isLowerHex p.version 2 = false ∨ p.version = "ff".toList) := by
    rw [isLowerHex_iff.2 p.version_ok]
    simpa using p.version_ne
  have hparent : ¬isId p.parentId 16 = false := by simp [isId_iff.2 ⟨p.parentId_ok, p.parentId_ne⟩]
  have hflags : ¬isLowerHex p.flags 2 = false := by simp [isLowerHex_iff.2 p.flags_ok]
  simp only [parse, h, hsplit]
  rw [if_neg hversion, if_neg hhex, dif_pos (isId_iff.2 ⟨p.traceId_ok, p.traceId_ne⟩), if_neg hparent, if_neg hflags]
  simp only [p.sampled_eq, ofHeader]

/-- What is read is in the grammar. -/
theorem exists_of_parse {fresh u : TraceContext} {header : Text} (h : parse fresh header = some u) :
    ∃ p : Traceparent, trim header = p.text := by
  unfold parse at h
  split at h
  next version traceId parentId flags more hsplit =>
    split_ifs at h with hversion hhex htrace hparent hflags
    rw [not_or, Bool.not_eq_false] at hhex
    rw [Bool.not_eq_false] at hparent hflags
    obtain ⟨htraceField, htraceNe⟩ := isId_iff.1 htrace
    obtain ⟨hparentField, hparentNe⟩ := isId_iff.1 hparent
    obtain ⟨rest, hrest, hbehind⟩ : ∃ rest : Option Text, (version = "00".toList → rest = none) ∧
        ['-'].intercalate (flags :: more) = flags ++ Traceparent.behind rest := by
      cases more with
      | nil => exact ⟨none, fun _ => rfl, by simp [Traceparent.behind]⟩
      | cons m ms =>
        refine ⟨some (['-'].intercalate (m :: ms)), fun hv => absurd ⟨hv, by simp⟩ hversion, ?_⟩
        simp [List.intercalate_cons_cons, Traceparent.behind]
    refine ⟨⟨version, traceId, parentId, flags, rest, isLowerHex_iff.1 hhex.1, hhex.2, htraceField, htraceNe,
      hparentField, hparentNe, isLowerHex_iff.1 hflags, hrest⟩, ?_⟩
    have hjoin : ['-'].intercalate ((trim header).splitOn '-') = trim header := List.intercalate_splitOn '-'
    rw [← hjoin, hsplit]
    simp only [Traceparent.text, List.intercalate_cons_cons, hbehind]
    simp
  next => cases h

/-- **A header is read just where it is in the grammar**, and as what it says. -/
theorem parse_eq_some_iff {fresh u : TraceContext} {header : Text} :
    parse fresh header = some u ↔ ∃ p : Traceparent, trim header = p.text ∧ u = ofHeader fresh p := by
  constructor
  · intro h
    obtain ⟨p, hp⟩ := exists_of_parse h
    rw [parse_text fresh hp, Option.some.injEq] at h
    exact ⟨p, hp, h.symm⟩
  · rintro ⟨p, hp, rfl⟩
    exact parse_text fresh hp

/-- The header of a trace, by its fields. -/
def header (t : TraceContext) : Traceparent where
  version := "00".toList
  traceId := t.traceId
  parentId := t.spanId
  flags := if t.sampled then "01".toList else "00".toList
  more := none
  version_ok := isLowerHex_iff.1 (by decide)
  version_ne := by decide
  traceId_ok := (isId_iff.1 t.traceId_ok).1
  traceId_ne := (isId_iff.1 t.traceId_ok).2
  parentId_ok := (isId_iff.1 t.spanId_ok).1
  parentId_ne := (isId_iff.1 t.spanId_ok).2
  flags_ok := isLowerHex_iff.1 (by cases t.sampled <;> decide)
  more_ok _ := rfl

theorem text_header (t : TraceContext) : t.header.text = t.traceparent := by
  simp only [header, Traceparent.text, Traceparent.behind, traceparent, List.append_nil]

theorem sampled_header (t : TraceContext) : t.header.sampled = t.sampled := by
  have hflags : t.header.flags = if t.sampled then "01".toList else "00".toList := rfl
  rw [Traceparent.sampled, Traceparent.flagBits, hflags]
  cases t.sampled <;> rfl

theorem isWhitespace_of_hexDigLc {c : Char} (h : HexDigLc c) : isWhitespace c = false := by
  have hlow : 48 ≤ c.toNat ∧ c.toNat ≤ 102 := by
    simp only [HexDigLc, Char.le_def, UInt32.le_iff_toNat_le] at h
    rcases h with ⟨h1, h2⟩ | ⟨h1, h2⟩
    · exact ⟨h1, h2.trans (by decide)⟩
    · exact ⟨le_trans (by decide) h1, h2⟩
  simp [isWhitespace]
  omega

theorem trim_traceparent (t : TraceContext) : trim t.traceparent = t.traceparent := by
  rw [← text_header]
  refine trim_of_not_isWhitespace fun c hc => ?_
  simp only [Traceparent.text, header, Traceparent.behind, List.append_nil, List.mem_append, List.mem_cons] at hc
  rcases hc with hc | rfl | hc | rfl | hc | rfl | hc
  · exact isWhitespace_of_hexDigLc (t.header.version_ok.2 c hc)
  · rfl
  · exact isWhitespace_of_hexDigLc (t.header.traceId_ok.2 c hc)
  · rfl
  · exact isWhitespace_of_hexDigLc (t.header.parentId_ok.2 c hc)
  · rfl
  · exact isWhitespace_of_hexDigLc (t.header.flags_ok.2 c hc)

/-- A header of ours is read as the trace it was written for. -/
theorem parse_traceparent (fresh t : TraceContext) :
    parse fresh t.traceparent = some ⟨t.traceId, fresh.spanId, t.sampled, t.traceId_ok, fresh.spanId_ok⟩ := by
  rw [parse_text fresh ((trim_traceparent t).trans t.text_header.symm)]
  simp only [ofHeader, sampled_header]
  rfl

/-- **Round trip and grammar**: our own headers are read with their trace id and flag, and a header is read just where
it is in the grammar. -/
theorem traceparent_grammar (fresh : TraceContext) :
    (∀ t : TraceContext, ∃ u, parse fresh t.traceparent = some u ∧ u.traceId = t.traceId ∧ u.sampled = t.sampled) ∧
      ∀ header, (parse fresh header).isSome = true ↔ ∃ p : Traceparent, trim header = p.text := by
  refine ⟨fun t => ⟨_, parse_traceparent fresh t, rfl, rfl⟩, fun header => ?_⟩
  rw [Option.isSome_iff_exists]
  constructor
  · rintro ⟨u, hu⟩
    exact exists_of_parse hu
  · rintro ⟨p, hp⟩
    exact ⟨_, parse_text fresh hp⟩

theorem inbound_traceparent (fresh t : TraceContext) : (inbound fresh (some t.traceparent)).traceId = t.traceId := by
  simp [inbound, parse_traceparent]

end TraceContext

end Latiq.Common
