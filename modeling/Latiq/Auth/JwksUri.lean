import Latiq.Auth.Verify
import Latiq.Library.Whatwg

/-!
# Where signing keys are fetched from

`checked_jwks_uri` decides on the address of an issuer's keys when a verifier is built, and `fetch` gets them from there,
with the redirects that its HTTP client follows. A first check is made on the text, the others on the URL it parses to.

## The model

* `Hosts` (a parameter) — what the `url` crate takes for a host, and URLs of other schemes. The client dials the URL that
  was parsed.
* `Response`, `followed`, `requests` — the redirects that are followed: two at most, to whatever `http` or `https` URL.
  `join` (a parameter) is what a `Location` resolves to.

## What is proved

* `secure_of_checked` — a URL that is accepted is `https` or of a loopback host.
* `hostIsWritten_iff` — its host is the one that is written in the text just where something is written between the slashes
  and the next delimiter, and the host in it has no control character and no space.
* `fetched_as_written_iff` — both, with all requests of a fetch.
* `addresses_checked` — the addresses of a verifier are checked ones.
-/

namespace Latiq.Auth

open RustStr (Text splitOnce eqIgnoreAsciiCase)
open Whatwg

/-! ### The check -/

/-- `url::Host`. -/
inductive Host where
  | domain (name : Text)
  | ipv4 (ip : BitVec 32)
  | ipv6 (ip : BitVec 128)
  deriving DecidableEq, Repr

/-- `Ipv4Addr::is_loopback`. -/
def isLoopbackV4 (ip : BitVec 32) : Bool := ip >>> 24 == 127

/-- `is_loopback`. -/
def isLoopback (u : Url Host) : Bool :=
  match u.host with
  | some (.domain name) => eqIgnoreAsciiCase name "localhost".toList
  | some (.ipv4 ip) => isLoopbackV4 ip
  | some (.ipv6 ip) => ip == 1 || (ip >>> 32 == 0xffff && isLoopbackV4 (ip.setWidth 32))
  | none => false

/-- The check on the text: a colon with no host behind it. -/
def emptyHost (uri : Text) : Bool :=
  match splitOnce [':'] uri with
  | none => false
  | some (_, '/' :: '/' :: authority) => authority.head? == some '/'
  | some _ => true

/-- `checked_jwks_uri`, with the URL whose text is fetched. -/
def checkedJwksUri (p : Hosts Host) (uri : Text) (allowInsecure : Bool) : Except AuthError (Url Host) :=
  if emptyHost uri then
    .error (.invalid ("jwks uri '".toList ++ uri ++ "' has no host; expected scheme://host/path".toList))
  else
    match parse p uri with
    | .error e => .error (.invalid ("jwks uri '".toList ++ uri ++ "' is not a valid URL: ".toList ++ e))
    | .ok u =>
      if u.scheme = "https".toList then .ok u
      else if u.scheme = "http".toList then
        if isLoopback u ∨ allowInsecure then .ok u
        else
          .error (.invalid ("jwks uri '".toList ++ uri ++
            "' is plaintext http to a non-loopback host: signing keys must be fetched over https".toList))
      else
        .error (.invalid ("jwks uri scheme '".toList ++ u.scheme ++ "' is not supported; use https".toList))

/-! ### A fetch -/

/-- What a request is answered with, as far as redirects go. -/
inductive Response where
  | redirect (location : Text)
  | final
  deriving DecidableEq, Repr

/-- `Policy::limited`. -/
def maxRedirects : ℕ := 2

/-- The URLs that redirects are followed to. -/
def followed (join : Url Host → Text → Option (Url Host)) : ℕ → Url Host → List Response → List (Url Host)
  | hops + 1, u, .redirect location :: responses =>
    match join u location with
    | none => []
    | some next =>
      if next.scheme = "http".toList ∨ next.scheme = "https".toList then next :: followed join hops next responses else []
  | _, _, _ => []

/-- The requests of `fetch`. -/
def requests (join : Url Host → Text → Option (Url Host)) (u : Url Host) (responses : List Response) : List (Url Host) :=
  u :: followed join maxRedirects u responses

/-! ### What is asked of it -/

/-- Over TLS, or to this machine. -/
def Secure (u : Url Host) : Prop := u.scheme = "https".toList ∨ isLoopback u = true

/-- What is behind the first two slashes. -/
def behindSlashes : Text → Option Text
  | '/' :: '/' :: t => some t
  | _ :: t => behindSlashes t
  | [] => none

/-- What is written between the first two slashes and the next delimiter. -/
def written (uri : Text) : Option Text := (behindSlashes uri).map fun t => t.takeWhile fun c => !isDelimiter c

/-- The host of a URL is the host part of what is written, and something is. -/
def HostIsWritten (p : Hosts Host) (uri : Text) (u : Url Host) : Prop :=
  ∃ t, written uri = some t ∧ t ≠ [] ∧ ∃ host, p.parseHost (hostPart t) = .ok host ∧ u.host = some host

/-- Something is written, and the host part of it has no control character and no space. -/
def PlainlyWritten (uri : Text) : Prop :=
  ∃ t, written uri = some t ∧ t ≠ [] ∧ ∀ c ∈ hostPart t, isC0OrSpace c = false

variable {p : Hosts Host} {uri : Text} {u : Url Host}

theorem checkedJwksUri_eq_ok {allowInsecure : Bool} (h : checkedJwksUri p uri allowInsecure = .ok u) :
    emptyHost uri = false ∧ parse p uri = .ok u ∧
      (u.scheme = "https".toList ∨ u.scheme = "http".toList ∧ (isLoopback u = true ∨ allowInsecure = true)) := by
  unfold checkedJwksUri at h
  by_cases hempty : emptyHost uri = true
  · rw [if_pos hempty] at h
    cases h
  rw [if_neg hempty] at h
  cases hparse : parse p uri with
  | error e =>
    rw [hparse] at h
    cases h
  | ok v =>
    rw [hparse] at h
    dsimp only at h
    split_ifs at h with hhttps hhttp hloop
    · cases h
      exact ⟨Bool.not_eq_true _ ▸ hempty, rfl, .inl hhttps⟩
    · cases h
      exact ⟨Bool.not_eq_true _ ▸ hempty, rfl, .inr ⟨hhttp, hloop⟩⟩

/-- **A URL that is accepted is `https`, or of a loopback host.** -/
theorem secure_of_checked (h : checkedJwksUri p uri false = .ok u) : Secure u := by
  obtain ⟨_, _, hhttps | ⟨_, hloop⟩⟩ := checkedJwksUri_eq_ok h
  · exact .inl hhttps
  · exact .inr (hloop.resolve_right Bool.false_ne_true)

/-- What is accepted has two slashes behind its first colon, and no slash in front of it. -/
theorem eq_append_of_not_emptyHost {scheme rest : Text} (h : emptyHost uri = false)
    (hscheme : schemeOf (clean uri) = some (scheme, rest)) :
    ∃ s a, uri = s ++ ':' :: '/' :: '/' :: a ∧ '/' ∉ s ∧ rest = cleanEnd ('/' :: '/' :: a) := by
  obtain ⟨s, r, rfl, hs⟩ := List.eq_append_cons_of_mem (clean_subset uri (colon_mem_of_schemeOf hscheme))
  obtain ⟨hrest, hslash⟩ := schemeOf_append hs hscheme
  unfold emptyHost at h
  rw [RustStr.splitOnce_of_not_mem hs] at h
  split at h
  · next heq => cases heq
  · next authority heq =>
    cases heq
    exact ⟨s, authority, rfl, hslash, hrest⟩
  · cases h

theorem behindSlashes_append {s a : Text} (h : '/' ∉ s) : behindSlashes (s ++ ':' :: '/' :: '/' :: a) = some a := by
  induction s with
  | nil => rfl
  | cons c s ih =>
    rw [List.mem_cons, not_or] at h
    rw [List.cons_append, behindSlashes, ih h.2]
    exact fun t hc _ => h.1 hc.symm

/-- **The host is the one that is written**, where it is written plainly. -/
theorem hostIsWritten_iff (hhost : ∀ t host, p.parseHost t = .ok host → ∀ c ∈ t, isC0OrSpace c = false)
    (h : checkedJwksUri p uri false = .ok u) : HostIsWritten p uri u ↔ PlainlyWritten uri := by
  constructor
  · rintro ⟨t, ht, hne, host, hp, _⟩
    exact ⟨t, ht, hne, hhost _ host hp⟩
  · rintro ⟨t, ht, hne, hplain⟩
    obtain ⟨hempty, hparse, hscheme⟩ := checkedJwksUri_eq_ok h
    obtain ⟨rest, host, hrest, hu, hp⟩ := parse_eq_ok hparse (hscheme.symm.imp_left And.left)
    obtain ⟨s, a, rfl, hslash, rfl⟩ := eq_append_of_not_emptyHost hempty hrest
    rw [written, behindSlashes_append hslash, Option.map_some, Option.some.injEq] at ht
    have hsplit : a = t ++ a.dropWhile fun c => !isDelimiter c := by
      rw [← ht, List.takeWhile_append_dropWhile]
    have hmem : ∀ c ∈ t, isDelimiter c = false := by
      intro c hc
      rw [← ht] at hc
      have hnot := List.mem_takeWhile_imp (p := fun c => !isDelimiter c) hc
      simpa using hnot
    have hend : ∀ c ∈ (a.dropWhile fun c => !isDelimiter c).head?, isDelimiter c = true := by
      intro c hc
      have hnot := List.head?_dropWhile_not (fun c => !isDelimiter c) a
      rw [hc] at hnot
      simpa using hnot
    rw [hsplit, authority_written hmem hend hne hplain] at hp
    exact ⟨t, by rw [written, behindSlashes_append hslash, Option.map_some, ht], hne, host, hp, hu⟩

/-- **Keys are fetched from where the text says, over TLS or on this machine**, just where the text is plainly written and
each redirect that is followed is over TLS or to this machine. -/
theorem fetched_as_written_iff (hhost : ∀ t host, p.parseHost t = .ok host → ∀ c ∈ t, isC0OrSpace c = false)
    (join : Url Host → Text → Option (Url Host)) (h : checkedJwksUri p uri false = .ok u) (responses : List Response) :
    (HostIsWritten p uri u ∧ ∀ r ∈ requests join u responses, Secure r) ↔
      PlainlyWritten uri ∧ ∀ r ∈ followed join maxRedirects u responses, Secure r := by
  rw [hostIsWritten_iff hhost h, requests, List.forall_mem_cons]
  exact and_congr_right fun _ => and_iff_right (secure_of_checked h)

/-! ### Two addresses -/

/-- Domain names, in lower case; no other hosts, and no other schemes. -/
def domains : Hosts Host where
  parseHost t := if t.any isC0OrSpace then .error "invalid international domain name".toList
    else .ok (.domain (t.map Char.toLower))
  parseOther _ _ := .error "relative URL without a base".toList

/-- A location that is a URL. -/
def absolute (_ : Url Host) (location : Text) : Option (Url Host) := (parse domains location).toOption

theorem domains_plain (t : Text) (host : Host) (h : domains.parseHost t = .ok host) : ∀ c ∈ t, isC0OrSpace c = false := by
  change (if t.any isC0OrSpace then _ else _) = _ at h
  split_ifs at h with hany
  intro c hc
  exact Bool.eq_false_iff.2 (List.any_eq_false.1 (Bool.eq_false_iff.2 hany) c hc)

/-- A redirect to another host, over TLS. -/
theorem fetched_from_idp :
    HostIsWritten domains "https://idp.example/jwks".toList ⟨"https".toList, some (.domain "idp.example".toList)⟩ ∧
      ∀ r ∈ requests absolute ⟨"https".toList, some (.domain "idp.example".toList)⟩
        [.redirect "https://www.idp.example/keys".toList], Secure r := by
  refine (fetched_as_written_iff domains_plain absolute (by decide +kernel) _).2
    ⟨⟨"idp.example".toList, by decide +kernel, by decide, ?_⟩, ?_⟩
  · intro c hc
    have hall : (hostPart "idp.example".toList).all (fun c => !isC0OrSpace c) = true := by decide +kernel
    simpa using List.all_eq_true.1 hall c hc
  · intro r hr
    have hall : (followed absolute maxRedirects ⟨"https".toList, some (.domain "idp.example".toList)⟩
        [.redirect "https://www.idp.example/keys".toList]).all (fun r => r.scheme == "https".toList) = true := by
      decide +kernel
    exact .inl (beq_iff_eq.1 (List.all_eq_true.1 hall r hr))

/-- With a backslash behind the slashes, nothing is written where the host stands, and what is behind it is dialled; and a
redirect takes a fetch from `https` to `http`. -/
theorem fetched_elsewhere :
    (checkedJwksUri domains "https://\\keys.example/jwks".toList false =
        .ok ⟨"https".toList, some (.domain "keys.example".toList)⟩ ∧
      ¬HostIsWritten domains "https://\\keys.example/jwks".toList
        ⟨"https".toList, some (.domain "keys.example".toList)⟩) ∧
    checkedJwksUri domains "https://idp.example/jwks".toList false =
        .ok ⟨"https".toList, some (.domain "idp.example".toList)⟩ ∧
      ¬∀ r ∈ requests absolute ⟨"https".toList, some (.domain "idp.example".toList)⟩
        [.redirect "http://idp.example/jwks".toList], Secure r := by
  refine ⟨⟨by decide +kernel, ?_⟩, by decide +kernel, ?_⟩
  · rintro ⟨t, ht, hne, _⟩
    have hnothing : written "https://\\keys.example/jwks".toList = some [] := by decide +kernel
    rw [hnothing] at ht
    exact hne (Option.some.inj ht).symm
  · intro h
    have hsent : (⟨"http".toList, some (.domain "idp.example".toList)⟩ : Url Host) ∈
        requests absolute ⟨"https".toList, some (.domain "idp.example".toList)⟩
          [.redirect "http://idp.example/jwks".toList] := by
      decide +kernel
    rcases h _ hsent with hscheme | hloop
    · exact absurd hscheme (by decide)
    · exact absurd hloop (by decide +kernel)

/-! ### The addresses of a verifier -/

/-- `checked_jwks_uri`, with the text of the URL: `href` is how the `url` crate writes what it parsed. -/
def checkedAddress (p : Hosts Host) (href : Text → Text) (uri : Text) (allowInsecure : Bool) : Except AuthError Text :=
  (checkedJwksUri p uri allowInsecure).map fun _ => href uri

/-- An address that is the text of a URL that was accepted. -/
def Checked (p : Hosts Host) (href : Text → Text) (allowInsecure : Bool) (address : Text) : Prop :=
  ∃ uri u, checkedJwksUri p uri allowInsecure = .ok u ∧ address = href uri

theorem newIssuer_checked {href : Text → Text} {allowInsecure : Bool} {known issuers : List (Text × Text)}
    {cfg : IssuerConfig} (hk : ∀ i ∈ known, Checked p href allowInsecure i.2)
    (h : newIssuer (checkedAddress p href) allowInsecure known cfg = .ok issuers) :
    ∀ i ∈ issuers, Checked p href allowInsecure i.2 := by
  unfold newIssuer at h
  dsimp only at h
  split_ifs at h
  obtain ⟨address, haddress, rfl⟩ := map_ok h
  obtain ⟨u, hu, rfl⟩ := map_ok haddress
  intro i hi
  rcases List.mem_append.1 hi with hold | hnew
  · exact hk i hold
  · rw [List.mem_singleton.1 hnew]
    exact ⟨_, u, hu, rfl⟩

/-- **Every address of a verifier is a checked one.** -/
theorem addresses_checked {href : Text → Text} {cfg : AuthConfig} {v : Verifier}
    (h : Verifier.new (checkedAddress p href) cfg = .ok v) :
    ∀ i ∈ v.issuers, Checked p href cfg.allowInsecureJwks i.2 := by
  have hloop : ∀ (cfgs : List IssuerConfig) (known issuers : List (Text × Text)),
      (∀ i ∈ known, Checked p href cfg.allowInsecureJwks i.2) →
      cfgs.foldlM (newIssuer (checkedAddress p href) cfg.allowInsecureJwks) known = .ok issuers →
      ∀ i ∈ issuers, Checked p href cfg.allowInsecureJwks i.2 := by
    intro cfgs
    induction cfgs with
    | nil =>
      intro known issuers hk h
      cases h
      exact hk
    | cons c cfgs ih =>
      intro known issuers hk h
      rw [List.foldlM_cons] at h
      obtain ⟨next, hnext, h⟩ := bind_ok h
      exact ih next issuers (newIssuer_checked hk hnext) h
  unfold Verifier.new at h
  split_ifs at h
  split at h
  · cases h
  · next issuers hnew =>
    cases h
    exact hloop _ [] issuers nofun hnew

end Latiq.Auth
