import Latiq.Library.RustStr
import Mathlib.Data.List.Induction

/-!
# The host of a URL

The WHATWG URL parser, without a base URL, for the schemes `http` and `https`, as far as it finds the host: control
characters and spaces around the text go, tabs and line ends go wherever they are, a backslash is a slash, and whatever
slashes stand in front of the authority are skipped. What a host is, and URLs of other schemes, are parameters.

* `parse_eq_ok` — what is behind a URL that is parsed.
* `hostPart_plain` — the part of an authority that is the host is the same with and without what the parser drops, if
  none of that is in it.
* `authority_written` — the authority of a text with two slashes in front is what is written up to the next delimiter,
  where that is not dropped altogether.
-/

namespace Whatwg

open RustStr (Text)

/-- C0 controls and spaces, which are dropped around a text. -/
def isC0OrSpace (c : Char) : Bool := decide (c.toNat ≤ 32)

/-- Tabs and line ends, which are dropped anywhere. -/
def isTabOrNewline (c : Char) : Bool := c == '\t' || c == '\n' || c == '\r'

def isSlash (c : Char) : Bool := c == '/' || c == '\\'

/-- What ends an authority. -/
def isDelimiter (c : Char) : Bool := isSlash c || c == '?' || c == '#'

/-- A text without its tabs and line ends. -/
def joined (t : Text) : Text := t.filter fun c => !isTabOrNewline c

/-- What of an input is parsed. -/
def clean (t : Text) : Text := joined ((t.dropWhile isC0OrSpace).rdropWhile isC0OrSpace)

def isSchemeChar (c : Char) : Bool := c.isAlphanum || c == '+' || c == '-' || c == '.'

/-- The scheme, and what is behind its colon. -/
def schemeOf (t : Text) : Option (Text × Text) :=
  match t.takeWhile isSchemeChar, t.dropWhile isSchemeChar with
  | c :: s, ':' :: rest => if c.isAlpha then some ((c :: s).map Char.toLower, rest) else none
  | _, _ => none

/-- The authority of a URL with one of the two schemes, behind its colon. -/
def authority (rest : Text) : Text := (rest.dropWhile isSlash).takeWhile fun c => !isDelimiter c

/-- Whether it is in brackets, behind a character. -/
def insideBehind (inside : Bool) (c : Char) : Bool := if c = '[' then true else if c = ']' then false else inside

/-- Up to the first colon, and what is behind it; a colon in brackets is none. -/
def splitPort : Bool → Text → Text × Option Text
  | _, [] => ([], none)
  | inside, c :: t =>
    if c = ':' ∧ inside = false then ([], some t)
    else
      let r := splitPort (insideBehind inside c) t
      (c :: r.1, r.2)

/-- The host and the port of an authority, behind its last `@`. -/
def hostAndPort (a : Text) : Text × Option Text := splitPort false (a.rtakeWhile fun c => c != '@')

/-- The part of an authority that is the host. -/
def hostPart (a : Text) : Text := (hostAndPort a).1

def validPort (p : Text) : Bool := p.all Char.isDigit && decide (Nat.ofDigitChars 10 p 0 ≤ 65535)

/-- A URL, as far as its host. -/
structure Url (H : Type) where
  scheme : Text
  host : Option H
  deriving DecidableEq, Repr

/-- What is a parameter: hosts, and URLs of other schemes. The errors are their texts. -/
structure Hosts (H : Type) where
  parseHost : Text → Except Text H
  parseOther : Text → Text → Except Text (Option H)

variable {H : Type} (p : Hosts H)

def parseAuthority (a : Text) : Except Text H :=
  if hostPart a = [] then .error "empty host".toList
  else
    match p.parseHost (hostPart a) with
    | .error e => .error e
    | .ok h => if (hostAndPort a).2.all validPort then .ok h else .error "invalid port number".toList

def parse (t : Text) : Except Text (Url H) :=
  match schemeOf (clean t) with
  | none => .error "relative URL without a base".toList
  | some (scheme, rest) =>
    if scheme = "http".toList ∨ scheme = "https".toList then (parseAuthority p (authority rest)).map fun h => ⟨scheme, some h⟩
    else (p.parseOther scheme rest).map fun h => ⟨scheme, h⟩

variable {p}

theorem parseAuthority_eq_ok {a : Text} {h : H} (hp : parseAuthority p a = .ok h) :
    hostPart a ≠ [] ∧ p.parseHost (hostPart a) = .ok h := by
  unfold parseAuthority at hp
  split_ifs at hp with hempty hport
  · cases hhost : p.parseHost (hostPart a) with
    | error e =>
      rw [hhost] at hp
      cases hp
    | ok h' =>
      rw [hhost] at hp
      cases hp
      exact ⟨hempty, rfl⟩
  · cases hhost : p.parseHost (hostPart a) with
    | error e =>
      rw [hhost] at hp
      cases hp
    | ok h' =>
      rw [hhost] at hp
      cases hp

/-- A URL of one of the two schemes has the host that is in its authority. -/
theorem parse_eq_ok {t : Text} {u : Url H} (h : parse p t = .ok u)
    (hs : u.scheme = "http".toList ∨ u.scheme = "https".toList) :
    ∃ rest host, schemeOf (clean t) = some (u.scheme, rest) ∧ u.host = some host ∧
      p.parseHost (hostPart (authority rest)) = .ok host := by
  unfold parse at h
  cases hscheme : schemeOf (clean t) with
  | none =>
    rw [hscheme] at h
    cases h
  | some r =>
    obtain ⟨scheme, rest⟩ := r
    rw [hscheme] at h
    dsimp only at h
    split_ifs at h with hspecial
    · cases hauth : parseAuthority p (authority rest) with
      | error e =>
        rw [hauth] at h
        cases h
      | ok host =>
        rw [hauth] at h
        cases h
        exact ⟨rest, host, rfl, rfl, (parseAuthority_eq_ok hauth).2⟩
    · cases hother : p.parseOther scheme rest with
      | error e =>
        rw [hother] at h
        cases h
      | ok host =>
        rw [hother] at h
        cases h
        exact absurd hs hspecial

/-! ### What is dropped -/

theorem isTabOrNewline_of {c : Char} (h : isC0OrSpace c = false) : isTabOrNewline c = false := by
  by_contra htab
  rw [Bool.not_eq_false] at htab
  simp only [isTabOrNewline, Bool.or_eq_true, beq_iff_eq] at htab
  obtain (rfl | rfl) | rfl := htab <;> cases h

theorem joined_append (s t : Text) : joined (s ++ t) = joined s ++ joined t := List.filter_append ..

theorem joined_cons {c : Char} (h : isC0OrSpace c = false) (t : Text) : joined (c :: t) = c :: joined t :=
  List.filter_cons_of_pos (by rw [isTabOrNewline_of h]; rfl)

theorem joined_of_plain {t : Text} (h : ∀ c ∈ t, isC0OrSpace c = false) : joined t = t :=
  List.filter_eq_self.2 fun c hc => by rw [isTabOrNewline_of (h c hc)]; rfl

/-- Behind a text, without the controls and spaces at its end. -/
def cleanEnd (t : Text) : Text := joined (t.rdropWhile isC0OrSpace)

theorem rdropWhile_append_cons {f : Char → Bool} {c : Char} (h : f c = false) (s t : Text) :
    (s ++ c :: t).rdropWhile f = s ++ c :: t.rdropWhile f := by
  induction t using List.reverseRecOn with
  | nil => rw [List.rdropWhile_concat_neg _ _ _ (by rw [h]; exact Bool.false_ne_true), List.rdropWhile_nil]
  | append_singleton t d ih =>
    rw [← List.cons_append, ← List.append_assoc, List.rdropWhile_concat, List.rdropWhile_concat]
    split_ifs
    · exact ih
    · rw [List.append_assoc, List.cons_append]

theorem clean_append_cons {c : Char} (h : isC0OrSpace c = false) (s t : Text) :
    clean (s ++ c :: t) = joined (s.dropWhile isC0OrSpace) ++ c :: cleanEnd t := by
  have hleft : (s ++ c :: t).dropWhile isC0OrSpace = s.dropWhile isC0OrSpace ++ c :: t := by
    induction s with
    | nil => exact List.dropWhile_cons_of_neg (by rw [h]; exact Bool.false_ne_true)
    | cons d s ih =>
      rw [List.cons_append, List.dropWhile_cons, List.dropWhile_cons]
      split_ifs
      · exact ih
      · rfl
  rw [clean, hleft, rdropWhile_append_cons h, joined_append, joined_cons h, cleanEnd]

theorem cleanEnd_append_cons {c : Char} (h : isC0OrSpace c = false) (s t : Text) :
    cleanEnd (s ++ c :: t) = joined s ++ c :: cleanEnd t := by
  rw [cleanEnd, rdropWhile_append_cons h, joined_append, joined_cons h, cleanEnd]

theorem cleanEnd_cons {c : Char} (h : isC0OrSpace c = false) (t : Text) : cleanEnd (c :: t) = c :: cleanEnd t :=
  cleanEnd_append_cons h [] t

/-! ### The host in an authority -/

theorem rtakeWhile_filter {f keep : Char → Bool} (h : ∀ c, f c = false → keep c = true) (t : Text) :
    (t.filter keep).rtakeWhile f = (t.rtakeWhile f).filter keep := by
  induction t using List.reverseRecOn with
  | nil => rfl
  | append_singleton t c ih =>
    rw [List.filter_append, List.filter_singleton]
    cases hf : f c with
    | false =>
      rw [h c hf, Bool.cond_true, List.rtakeWhile_concat_neg _ _ _ (by rw [hf]; exact Bool.false_ne_true),
        List.rtakeWhile_concat_neg _ _ _ (by rw [hf]; exact Bool.false_ne_true)]
      rfl
    | true =>
      rw [List.rtakeWhile_concat_pos _ _ _ hf, List.filter_append, List.filter_singleton]
      cases hk : keep c with
      | false => rw [Bool.cond_false, List.append_nil, ih, List.append_nil]
      | true => rw [Bool.cond_true, List.rtakeWhile_concat_pos _ _ _ hf, ih]

/-- What has a meaning in an authority is kept. -/
def KeepsMarks (keep : Char → Bool) : Prop := keep '@' = true ∧ keep ':' = true ∧ keep '[' = true ∧ keep ']' = true

theorem splitPort_filter {keep : Char → Bool} (h : KeepsMarks keep) (inside : Bool) (t : Text) :
    (splitPort inside (t.filter keep)).1 = (splitPort inside t).1.filter keep := by
  induction t generalizing inside with
  | nil => rfl
  | cons c t ih =>
    rw [List.filter_cons, splitPort]
    split_ifs with hk hport hport
    · rw [splitPort, if_pos hport]
      rfl
    · rw [splitPort, if_neg hport]
      dsimp only
      rw [List.filter_cons, if_pos hk, ih]
    · exact absurd (hport.1 ▸ h.2.1) hk
    · -- it is none of the brackets
      have hopen : c ≠ '[' := fun hc => hk (hc ▸ h.2.2.1)
      have hclose : c ≠ ']' := fun hc => hk (hc ▸ h.2.2.2)
      dsimp only
      rw [insideBehind, if_neg hopen, if_neg hclose, List.filter_cons, if_neg hk, ih]

theorem hostPart_filter {keep : Char → Bool} (h : KeepsMarks keep) (t : Text) :
    hostPart (t.filter keep) = (hostPart t).filter keep := by
  have hmark : ∀ c, (c != '@') = false → keep c = true := by
    intro c hc
    rw [bne_eq_false_iff_eq.1 hc]
    exact h.1
  rw [hostPart, hostAndPort, rtakeWhile_filter hmark, splitPort_filter h]
  rfl

theorem keepsMarks_joined : KeepsMarks fun c => !isTabOrNewline c := ⟨rfl, rfl, rfl, rfl⟩

theorem splitPort_spaces {s : Text} (h : ∀ c ∈ s, isC0OrSpace c = true) (inside : Bool) : (splitPort inside s).1 = s := by
  induction s generalizing inside with
  | nil => rfl
  | cons c s ih =>
    have hc : c ≠ ':' := by
      rintro rfl
      cases h ':' List.mem_cons_self
    rw [splitPort, if_neg (fun hport => hc hport.1)]
    dsimp only
    rw [ih fun d hd => h d (List.mem_cons_of_mem _ hd)]

theorem splitPort_append {s : Text} (h : ∀ c ∈ s, isC0OrSpace c = true) (inside : Bool) (t : Text) :
    (splitPort inside (t ++ s)).1 = (splitPort inside t).1 ∨
      (splitPort inside (t ++ s)).1 = (splitPort inside t).1 ++ s := by
  induction t generalizing inside with
  | nil => exact .inr (splitPort_spaces h inside)
  | cons c t ih =>
    rw [List.cons_append, splitPort, splitPort]
    split_ifs with hport
    · exact .inl rfl
    · exact (ih _).imp (congrArg (c :: ·)) (congrArg (c :: ·))

theorem ne_at_of_space {c : Char} (h : isC0OrSpace c = true) : (c != '@') = true := by
  refine bne_iff_ne.2 ?_
  rintro rfl
  cases h

theorem hostPart_spaces {s : Text} (h : ∀ c ∈ s, isC0OrSpace c = true) : hostPart s = s := by
  rw [hostPart, hostAndPort, List.rtakeWhile_eq_self_iff.2 fun c hc => ne_at_of_space (h c hc)]
  exact splitPort_spaces h false

/-- The controls and spaces at its end are in the host, or behind it. -/
theorem hostPart_append {s : Text} (h : ∀ c ∈ s, isC0OrSpace c = true) (t : Text) :
    hostPart (t ++ s) = hostPart t ∨ hostPart (t ++ s) = hostPart t ++ s := by
  have htake : (t ++ s).rtakeWhile (fun c => c != '@') = t.rtakeWhile (fun c => c != '@') ++ s := by
    induction s using List.reverseRecOn with
    | nil => rw [List.append_nil, List.append_nil]
    | append_singleton s c ih =>
      have hc := ne_at_of_space (h c (List.mem_append_right _ (List.mem_singleton_self _)))
      rw [← List.append_assoc, List.rtakeWhile_concat_pos (fun c => c != '@') _ _ hc,
        ih fun d hd => h d (List.mem_append_left _ hd), List.append_assoc]
  rw [hostPart, hostAndPort, htake]
  exact splitPort_append h false _

/-- **A host without controls and spaces** is the same without those that are around it. -/
theorem hostPart_plain {t : Text} (h : ∀ c ∈ hostPart t, isC0OrSpace c = false) :
    hostPart (joined t) = hostPart t ∧ hostPart (cleanEnd t) = hostPart t := by
  have hjoined (t : Text) (h : ∀ c ∈ hostPart t, isC0OrSpace c = false) : hostPart (joined t) = hostPart t :=
    (hostPart_filter keepsMarks_joined t).trans (joined_of_plain h)
  refine ⟨hjoined t h, ?_⟩
  have hsplit : t.rdropWhile isC0OrSpace ++ t.rtakeWhile isC0OrSpace = t := List.rdropWhile_append_rtakeWhile
  have hspaces : ∀ c ∈ t.rtakeWhile isC0OrSpace, isC0OrSpace c = true := fun c hc => List.mem_rtakeWhile_imp hc
  have hsame : hostPart (t.rdropWhile isC0OrSpace) = hostPart t := by
    rcases hostPart_append hspaces (t.rdropWhile isC0OrSpace) with heq | heq
    · rw [← heq, hsplit]
    · -- they would be in the host, so there are none
      rw [hsplit] at heq
      have hnone : t.rtakeWhile isC0OrSpace = [] := by
        refine List.eq_nil_iff_forall_not_mem.2 fun c hc => ?_
        have hplain := h c (heq ▸ List.mem_append_right _ hc)
        rw [hspaces c hc] at hplain
        cases hplain
      rw [heq, hnone, List.append_nil]
  rw [cleanEnd, hjoined _ (by rwa [hsame]), hsame]

/-! ### What is written between the slashes and the next delimiter -/

theorem isC0OrSpace_of_isDelimiter {c : Char} (h : isDelimiter c = true) : isC0OrSpace c = false := by
  simp only [isDelimiter, isSlash, Bool.or_eq_true, beq_iff_eq] at h
  obtain ((rfl | rfl) | rfl) | rfl := h <;> rfl

theorem joined_subset (t : Text) : joined t ⊆ t := List.filter_subset_self _

theorem cleanEnd_subset (t : Text) : cleanEnd t ⊆ t :=
  fun _ hc => (List.rdropWhile_prefix _ _).subset (joined_subset _ hc)

/-- Where nothing is left of a text, it is made of controls and spaces. -/
theorem spaces_of_joined_eq_nil {t : Text} (h : joined t = []) : ∀ c ∈ t, isC0OrSpace c = true := by
  intro c hc
  by_contra hplain
  rw [Bool.not_eq_true] at hplain
  have hmem : c ∈ joined t := List.mem_filter.2 ⟨hc, by rw [isTabOrNewline_of hplain]; rfl⟩
  rw [h] at hmem
  cases hmem

theorem spaces_of_cleanEnd_eq_nil {t : Text} (h : cleanEnd t = []) : ∀ c ∈ t, isC0OrSpace c = true := by
  intro c hc
  rw [← @List.rdropWhile_append_rtakeWhile _ isC0OrSpace t] at hc
  rcases List.mem_append.1 hc with hfront | hend
  · exact spaces_of_joined_eq_nil h c hfront
  · exact List.mem_rtakeWhile_imp hend

theorem authority_append {t d : Text} (ht : ∀ c ∈ t, isDelimiter c = false) (hd : ∀ c ∈ d.head?, isDelimiter c = true)
    (hne : t ≠ []) : authority ('/' :: '/' :: (t ++ d)) = t := by
  obtain ⟨c, s, rfl⟩ := List.exists_cons_of_ne_nil hne
  have hslash : isSlash c = false := by
    have hc := ht c List.mem_cons_self
    simp only [isDelimiter, Bool.or_eq_false_iff] at hc
    exact hc.1.1
  have hdrop : ('/' :: '/' :: (c :: s ++ d)).dropWhile isSlash = c :: s ++ d := by
    rw [List.dropWhile_cons_of_pos rfl, List.dropWhile_cons_of_pos rfl, List.cons_append,
      List.dropWhile_cons_of_neg (by rw [hslash]; exact Bool.false_ne_true)]
  rw [authority, hdrop, List.takeWhile_append_of_pos fun c hc => by rw [ht c hc]; rfl]
  cases d with
  | nil => exact List.append_nil _
  | cons δ d =>
    rw [List.takeWhile_cons_of_neg (by rw [hd δ rfl]; exact Bool.false_ne_true), List.append_nil]

/-- **The host of a URL is the one that is written** between two slashes and the next delimiter, where something is written
there, and the part of it that is the host has no control character and no space. -/
theorem authority_written {t d : Text} (ht : ∀ c ∈ t, isDelimiter c = false) (hd : ∀ c ∈ d.head?, isDelimiter c = true)
    (hne : t ≠ []) (hplain : ∀ c ∈ hostPart t, isC0OrSpace c = false) :
    hostPart (authority (cleanEnd ('/' :: '/' :: (t ++ d)))) = hostPart t := by
  have hsomething : ¬∀ c ∈ t, isC0OrSpace c = true := by
    intro hspaces
    obtain ⟨c, s, rfl⟩ := List.exists_cons_of_ne_nil hne
    have hc := hplain c (by rw [hostPart_spaces hspaces]; exact List.mem_cons_self)
    rw [hspaces c List.mem_cons_self] at hc
    cases hc
  rw [cleanEnd_cons rfl, cleanEnd_cons rfl]
  cases d with
  | nil =>
    have hleft : cleanEnd t ≠ [] := fun h => hsomething (spaces_of_cleanEnd_eq_nil h)
    have hauth := authority_append (fun c hc => ht c (cleanEnd_subset t hc)) hd hleft
    rw [List.append_nil] at hauth ⊢
    rw [hauth, (hostPart_plain hplain).2]
  | cons δ d =>
    have hleft : joined t ≠ [] := fun h => hsomething (spaces_of_joined_eq_nil h)
    have hδ := hd δ rfl
    rw [cleanEnd_append_cons (isC0OrSpace_of_isDelimiter hδ), authority_append (fun c hc => ht c (joined_subset t hc))
      (by rintro _ ⟨⟩; exact hδ) hleft, (hostPart_plain hplain).1]

/-! ### The scheme -/

theorem dropWhile_colon {front t rest : Text} (hcolon : ':' ∉ front)
    (h : (front ++ ':' :: t).dropWhile isSchemeChar = ':' :: rest) : rest = t ∧ ∀ c ∈ front, isSchemeChar c = true := by
  induction front with
  | nil => exact ⟨(List.cons.inj h).2.symm, nofun⟩
  | cons c front ih =>
    rw [List.mem_cons, not_or] at hcolon
    rw [List.cons_append, List.dropWhile_cons] at h
    split_ifs at h with hc
    · obtain ⟨hrest, hfront⟩ := ih hcolon.2 h
      exact ⟨hrest, List.forall_mem_cons.2 ⟨hc, hfront⟩⟩
    · exact absurd (List.cons.inj h).1.symm hcolon.1

theorem colon_mem_of_schemeOf {t scheme rest : Text} (h : schemeOf t = some (scheme, rest)) : ':' ∈ t := by
  unfold schemeOf at h
  split at h
  · next hrest => exact (List.dropWhile_suffix _).subset (hrest ▸ List.mem_cons_self)
  · cases h

theorem clean_subset (t : Text) : clean t ⊆ t := fun _ hc =>
  (List.dropWhile_suffix _).subset ((List.rdropWhile_prefix _ _).subset (joined_subset _ hc))

/-- In front of the first colon stands the scheme, with nothing but what is dropped besides. -/
theorem schemeOf_append {s t scheme rest : Text} (hs : ':' ∉ s)
    (h : schemeOf (clean (s ++ ':' :: t)) = some (scheme, rest)) : rest = cleanEnd t ∧ '/' ∉ s := by
  have hcolon : ':' ∉ joined (s.dropWhile isC0OrSpace) :=
    fun hmem => hs ((List.dropWhile_suffix _).subset (joined_subset _ hmem))
  have hdrop : (joined (s.dropWhile isC0OrSpace) ++ ':' :: cleanEnd t).dropWhile isSchemeChar = ':' :: rest := by
    rw [clean_append_cons rfl] at h
    unfold schemeOf at h
    split at h
    · next hrest =>
      split_ifs at h
      cases h
      exact hrest
    · cases h
  obtain ⟨rfl, hfront⟩ := dropWhile_colon hcolon hdrop
  refine ⟨rfl, fun hslash => ?_⟩
  -- a slash is neither dropped nor of a scheme
  have hbehind : '/' ∈ s.dropWhile isC0OrSpace := by
    rw [← @List.takeWhile_append_dropWhile _ isC0OrSpace s] at hslash
    rcases List.mem_append.1 hslash with hdropped | hkept
    · cases List.mem_takeWhile_imp hdropped
    · exact hkept
  cases hfront '/' (List.mem_filter.2 ⟨hbehind, rfl⟩)

end Whatwg
