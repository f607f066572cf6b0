import Mathlib.Data.List.TakeWhile
import Multisite.Http.Server
import Multisite.Lib.Escapes

/-!
How a key is addressed: the URL that `S3Transport` and `LanTransport` make of it
(`s3_transport.cpp`, `lan_transport.cpp`), how it is split again to be signed
(`aws_sigv4.cpp`), and how the LAN server reads it.

The key is put into the URL as it is.  Keys, names and URLs are bytes here.  Of libcurl the code
relies on what `Sends` says: it asks for the URL's path and query, without the fragment, refuses
blanks and control characters, and takes dot segments out of the path.

* `names_iff`: a request names its key, under the bucket and at the LAN server, exactly when
  there is nothing in it that a URL, or the server's decoding, reads otherwise.
-/

namespace Multisite

open Lib Http

/-! ### Building the URL -/

/-- The fields of `S3Config` that the URL is made of. -/
structure S3Place where
  endpointHost : Bytes := []
  r2AccountId : Bytes := []
  bucket : Bytes := []
  useHttps : Bool := true
  deriving DecidableEq, Repr

/-- `" \t\r\n"`. -/
def isBlank (c : UInt8) : Bool := c = 32 || c = 9 || c = 13 || c = 10

/-- `find_first_not_of` and `find_last_not_of`: what is between. -/
def stripped (p : UInt8 → Bool) (s : Bytes) : Bytes :=
  ((s.dropWhile p).reverse.dropWhile p).reverse

/-- A scheme in front of something is taken off, the first of the two that is there. -/
def stripScheme (v : Bytes) : Bytes :=
  if (bytesOf "https://").length < v.length ∧ (bytesOf "https://").isPrefixOf v then
    v.drop (bytesOf "https://").length
  else if (bytesOf "http://").length < v.length ∧ (bytesOf "http://").isPrefixOf v then
    v.drop (bytesOf "http://").length
  else v

/-- `clean_host`. -/
def cleanHost (v : Bytes) : Bytes := (stripScheme (stripped isBlank v)).takeWhile (· ≠ 47)

/-- `clean_segment`. -/
def cleanSegment (v : Bytes) : Bytes := stripped (fun c => isBlank c || c = 47) v

namespace S3Place

/-- `host`. -/
def host (c : S3Place) : Bytes :=
  let ep := cleanHost c.endpointHost
  if ep ≠ [] then ep
  else
    let acct := cleanHost c.r2AccountId
    if acct = [] then []
    else if 46 ∈ acct then acct
    else acct ++ bytesOf ".r2.cloudflarestorage.com"

/-- The scheme. -/
def scheme (c : S3Place) : Bytes := if c.useHttps then bytesOf "https" else bytesOf "http"

/-- `bucket_url`. -/
def bucketUrl (c : S3Place) : Bytes :=
  c.scheme ++ (bytesOf "://" ++ (c.host ++ 47 :: cleanSegment c.bucket))

/-- `url_for`. -/
def urlFor (c : S3Place) (key : Bytes) : Bytes := c.bucketUrl ++ 47 :: key

/-- The path a request for the key should name. -/
def pathFor (c : S3Place) (key : Bytes) : Bytes := 47 :: (cleanSegment c.bucket ++ 47 :: key)

end S3Place

/-- The fields of `LanTransportConfig` that the URL is made of. -/
structure LanPlace where
  host : Bytes := []
  port : ℤ := 9080
  deriving DecidableEq, Repr

namespace LanPlace

/-- The host and the port. -/
def authority (c : LanPlace) : Bytes := c.host ++ 58 :: bytesOf (toString c.port)

/-- `url_for`. -/
def urlFor (c : LanPlace) (key : Bytes) : Bytes :=
  bytesOf "http" ++ (bytesOf "://" ++ (c.authority ++ 47 :: key))

end LanPlace

/-! ### Signing it -/

/-- What `uri_encode` leaves as it is. -/
def isUnreserved (c : UInt8) : Bool :=
  (65 ≤ c && c ≤ 90) || (97 ≤ c && c ≤ 122) || (48 ≤ c && c ≤ 57) || c = 45 || c = 95 || c = 46 ||
    c = 126

/-- A digit of `"0123456789ABCDEF"`. -/
def upperHex (n : UInt8) : UInt8 := if n < 10 then 48 + n else 55 + n

/-- `uri_encode`. -/
def uriEncode (encodeSlash : Bool) (s : Bytes) : Bytes :=
  s.flatMap fun c =>
    if isUnreserved c || (c = 47 && !encodeSlash) then [c]
    else [37, upperHex (c / 16), upperHex (c % 16)]

/-- `ParsedUrl`. -/
structure ParsedUrl where
  host : Bytes
  path : Bytes
  query : Bytes := []
  deriving DecidableEq, Repr

/-- What stands after `"://"`, or all of it. -/
def afterScheme (url : Bytes) : Bytes :=
  match firstIn (bytesOf "://") url with
  | some i => url.drop (i + 3)
  | none => url

/-- `parse_url`. -/
def parseUrl (url : Bytes) : ParsedUrl :=
  let rest := afterScheme url
  if 47 ∈ rest then
    let pathStart := rest.idxOf 47
    let queryStart := rest.idxOf 63
    if 63 ∈ rest then
      { host := rest.take pathStart
        -- a query that begins before the path leaves a length that wraps, so all of it
        path := if queryStart < pathStart then rest.drop pathStart
          else (rest.drop pathStart).take (queryStart - pathStart)
        query := rest.drop (queryStart + 1) }
    else { host := rest.take pathStart, path := rest.drop pathStart }
  else { host := rest, path := [47] }

/-- The canonical URI that `sign` puts under the signature. -/
def canonicalUri (url : Bytes) : Bytes := uriEncode false (parseUrl url).path

/-- `percent_decode`. -/
def percentDecode (s : Bytes) : Bytes := unescape 37 hexPair s

/-! ### Sending it -/

/-- The authority of a URL ends where the path, the query or the fragment begins. -/
def endsAuthority (c : UInt8) : Bool := c = 47 || c = 63 || c = 35

/-- The path ends where the query or the fragment begins. -/
def endsPath (c : UInt8) : Bool := c = 63 || c = 35

/-- The parts of a URL. -/
def urlAuthority (url : Bytes) : Bytes := (afterScheme url).takeWhile (!endsAuthority ·)

@[inherit_doc urlAuthority]
def urlPath (url : Bytes) : Bytes :=
  ((afterScheme url).dropWhile (!endsAuthority ·)).takeWhile (!endsPath ·)

@[inherit_doc urlAuthority]
def urlQuery (url : Bytes) : Bytes :=
  (((afterScheme url).takeWhile (· ≠ 35)).dropWhile (· ≠ 63)).drop 1

/-- What libcurl sees of a text. -/
def cStr (s : Bytes) : Bytes := s.takeWhile (· ≠ 0)

/-- A segment of the path is one dot or two. -/
def HasDots (path : Bytes) : Prop := ∃ seg ∈ path.splitOn 47, seg = [46] ∨ seg = [46, 46]

instance (path : Bytes) : Decidable (HasDots path) :=
  inferInstanceAs (Decidable (∃ seg ∈ path.splitOn 47, seg = [46] ∨ seg = [46, 46]))

/-- Neither a blank nor a control character. -/
def isGraphic (c : UInt8) : Bool := 32 < c && c != 127

/-- What is relied on of libcurl: `takes` are the hosts it connects to, and `send` is the path and
the query it asks the server for, if it sends a request at all. -/
structure Sends (takes : Bytes → Prop) (send : Bytes → Option (Bytes × Bytes)) : Prop where
  /-- It takes no URL with another host, a blank or a control character. -/
  refuses : ∀ url, send url ≠ none → takes (urlAuthority url) ∧ url.all isGraphic
  /-- The path and the query are the URL's, but for dot segments, whose removal shortens the path;
  an empty path is a slash. -/
  asks : ∀ url path query, send url = some (path, query) → query = urlQuery url ∧
    (path = urlPath url ∨ path.length < (urlPath url).length ∨ urlPath url = [] ∧ path = [47])
  graphic : ∀ url path query, send url = some (path, query) → path ≠ [] ∧ path.all isGraphic
  /-- A path without dot segments, and with nothing escaped, is asked for as it is. -/
  plain : ∀ url, takes (urlAuthority url) → url.all isGraphic → urlPath url ≠ [] →
    hasEscape 37 hexPair (urlPath url) = false → ¬ HasDots (urlPath url) →
    send url = some (urlPath url, urlQuery url)
  /-- One with a dot segment is not. -/
  dots : ∀ url path query, send url = some (path, query) → HasDots (urlPath url) →
    path ≠ urlPath url

/-- The first line of the request that arrives, and the header lines after it. -/
def requestHead (path query headers : Bytes) : Bytes :=
  bytesOf "GET " ++ (path ++ (if query = [] then [] else 63 :: query)) ++ bytesOf " HTTP/1.1" ++
    13 :: 10 :: headers

variable (takes : Bytes → Prop) (send : Bytes → Option (Bytes × Bytes))

/-- The request `S3Transport` sends for the key names it: the path is that of the key in the
bucket, there is no query, and what is signed is the encoding of that path. -/
def S3Place.Names (c : S3Place) (key : Bytes) : Prop :=
  (∃ path, send (cStr (c.urlFor key)) = some (path, []) ∧ percentDecode path = c.pathFor key) ∧
    canonicalUri (c.urlFor key) = uriEncode false (c.pathFor key)

/-- The request `LanTransport` sends for the key goes to the LAN server, which reads it as one for
the key. -/
def LanPlace.Names (c : LanPlace) (key : Bytes) : Prop :=
  urlAuthority (cStr (c.urlFor key)) = c.authority ∧
    ∃ path query, send (cStr (c.urlFor key)) = some (path, query) ∧
      ∀ headers, ∃ req, readRequest (requestHead path query headers) = some req ∧
        req.method = bytesOf "GET" ∧ req.path = 47 :: key

/-- There is nothing in the host and the path that a URL reads otherwise. -/
structure PlainIn (host path : Bytes) : Prop where
  takes : takes host
  graphic : (host ++ path).all isGraphic
  uncut : ∀ c ∈ host ++ path, endsPath c = false
  unescaped : hasEscape 37 hexPair path = false
  undotted : ¬ HasDots path

/-! ### The parts of a URL with a key in it -/

section Parts

variable {takes send} {scheme host path query key t : Bytes} {c : UInt8}

lemma endsPath_of_endsAuthority (h : endsAuthority c = true) (hc : c ≠ 47) :
    endsPath c = true := by
  rw [endsAuthority, decide_eq_false hc, Bool.false_or] at h
  exact h

lemma endsAuthority_of_endsPath (h : endsPath c = true) : endsAuthority c = true := by
  rw [endsPath] at h
  rw [endsAuthority, Bool.or_assoc, h, Bool.or_true]

/-- A URL, with the place where the path should begin. -/
abbrev urlOf (scheme host t : Bytes) : Bytes :=
  scheme ++ (bytesOf "://" ++ (host ++ 47 :: t))

lemma afterScheme_of_scheme (h : 58 ∉ scheme) (t : Bytes) :
    afterScheme (scheme ++ (bytesOf "://" ++ t)) = t := by
  have hfirst : firstIn (bytesOf "://") (scheme ++ (bytesOf "://" ++ t)) = some scheme.length :=
    firstIn_of_notMem rfl h _
  rw [afterScheme, hfirst]
  show (scheme ++ (bytesOf "://" ++ t)).drop (scheme.length + 3) = _
  rw [← List.drop_drop, List.drop_left]
  rfl

lemma mem_of_mem_afterScheme {url : Bytes} (h : c ∈ afterScheme url) : c ∈ url := by
  rw [afterScheme] at h
  split at h
  · exact List.mem_of_mem_drop h
  · exact h

lemma urlAuthority_eq_iff (h : 58 ∉ scheme) :
    urlAuthority (urlOf scheme host t) = host ↔ ∀ c ∈ host, endsAuthority c = false := by
  rw [urlAuthority, afterScheme_of_scheme h]
  constructor
  · intro heq c hc
    rw [← heq] at hc
    simpa using List.mem_takeWhile_imp hc
  · intro hall
    rw [List.takeWhile_append_of_pos (by simpa using hall)]
    simp [endsAuthority]

lemma urlPath_of_authority (h : 58 ∉ scheme) (hall : ∀ c ∈ host, endsAuthority c = false) :
    urlPath (urlOf scheme host t) = (47 :: t).takeWhile (!endsPath ·) := by
  rw [urlPath, afterScheme_of_scheme h, List.dropWhile_append_of_pos (by simpa using hall)]
  simp [endsAuthority]

/-- There is no path where no slash comes before the end of the authority. -/
lemma path_eq_nil (hslash : 47 ∉ host) (hend : t = [] ∨ ¬ ∀ c ∈ host, endsAuthority c = false) :
    ((host ++ t).dropWhile (!endsAuthority ·)).takeWhile (!endsPath ·) = [] := by
  cases hdrop : host.dropWhile (!endsAuthority ·) with
  | nil =>
      rcases hend with rfl | hno
      · rw [List.append_nil, hdrop]
        rfl
      · refine absurd (fun c hc => ?_) hno
        simpa using List.dropWhile_eq_nil_iff.mp hdrop c hc
  | cons c l =>
      have hc : endsAuthority c = true := by
        have := List.head_dropWhile_not (!endsAuthority ·) (l := host) (by rw [hdrop]; simp)
        simpa [hdrop] using this
      have hmem : c ∈ host := (List.dropWhile_sublist _).subset (hdrop ▸ List.mem_cons_self)
      have hpath : endsPath c = true :=
        endsPath_of_endsAuthority hc fun heq => hslash (heq ▸ hmem)
      rw [List.dropWhile_append, if_neg (by simp [hdrop]), hdrop, List.cons_append,
        List.takeWhile_cons_of_neg (by simp [hpath])]

lemma cStr_append (h : 0 ∉ host) (t : Bytes) : cStr (host ++ t) = host ++ cStr t := by
  rw [cStr, List.takeWhile_append_of_pos]
  · rfl
  · intro c hc
    simpa using fun heq : c = 0 => h (heq ▸ hc)

lemma cStr_append_of_mem (h : 0 ∈ host) (t : Bytes) : cStr (host ++ t) = cStr host := by
  rw [cStr, List.takeWhile_append, if_neg]
  · rfl
  · intro hlen
    have hself := (List.takeWhile_prefix (· ≠ (0 : UInt8)) (l := host)).eq_of_length hlen
    rw [← hself] at h
    simpa using List.mem_takeWhile_imp h

lemma cStr_urlOf (h0 : 0 ∉ scheme) (hhost : 0 ∉ host) :
    cStr (urlOf scheme host t) = urlOf scheme host (cStr t) := by
  rw [urlOf, cStr_append h0, cStr_append (by decide), cStr_append hhost]
  rfl

/-- A URL with a path keeps its host whole. -/
lemma authority_of_path (h : 58 ∉ scheme) (h0 : 0 ∉ scheme) (hslash : 47 ∉ host)
    (hne : urlPath (cStr (urlOf scheme host t)) ≠ []) :
    0 ∉ host ∧ ∀ c ∈ host, endsAuthority c = false := by
  have hhost : 0 ∉ host := by
    intro hmem
    refine hne ?_
    rw [urlOf, cStr_append h0, cStr_append (by decide), cStr_append_of_mem hmem, urlPath,
      afterScheme_of_scheme h, ← List.append_nil (cStr host)]
    exact path_eq_nil (fun hin => hslash ((List.takeWhile_prefix _).subset hin)) (Or.inl rfl)
  refine ⟨hhost, ?_⟩
  by_contra hno
  refine hne ?_
  rw [cStr_urlOf h0 hhost, urlPath, afterScheme_of_scheme h]
  exact path_eq_nil hslash (Or.inr hno)

/-- So does one whose authority is the host. -/
lemma authority_of_urlAuthority (h : 58 ∉ scheme) (h0 : 0 ∉ scheme)
    (heq : urlAuthority (cStr (urlOf scheme host t)) = host) :
    0 ∉ host ∧ ∀ c ∈ host, endsAuthority c = false := by
  have hhost : 0 ∉ host := by
    intro hmem
    rw [urlOf, cStr_append h0, cStr_append (by decide), cStr_append_of_mem hmem, urlAuthority,
      afterScheme_of_scheme h] at heq
    rw [← heq] at hmem
    simpa using List.mem_takeWhile_imp ((List.takeWhile_prefix _).subset hmem)
  refine ⟨hhost, ?_⟩
  rw [cStr_urlOf h0 hhost] at heq
  exact (urlAuthority_eq_iff h).mp heq

/-- What is asked for is no longer than the path; if it is as long, it is the path, as it is. -/
lemma plain_of_send (hs : Sends takes send) (h : 58 ∉ scheme) (h0 : 0 ∉ scheme) (hhost : 0 ∉ host)
    (hall : ∀ c ∈ host, endsAuthority c = false)
    (hsend : send (cStr (urlOf scheme host t)) = some (path, query))
    (hlen : (47 :: t).length ≤ path.length) :
    path = 47 :: t ∧ takes host ∧ (host ++ 47 :: t).all isGraphic ∧
      (∀ c ∈ host ++ 47 :: t, endsPath c = false) ∧ ¬ HasDots (47 :: t) := by
  rw [cStr_urlOf h0 hhost] at hsend
  have hpath := urlPath_of_authority (t := cStr t) h hall
  obtain ⟨htakes, hgraphic⟩ := hs.refuses (urlOf scheme host (cStr t)) (by rw [hsend]; simp)
  rw [(urlAuthority_eq_iff h).mpr hall] at htakes
  have hpre : (47 :: cStr t).takeWhile (!endsPath ·) <+: 47 :: cStr t := List.takeWhile_prefix _
  have hcut : cStr t <+: t := List.takeWhile_prefix _
  have hle := hpre.length_le
  have hle' := hcut.length_le
  simp only [List.length_cons] at hle hlen
  have heq : path = urlPath (urlOf scheme host (cStr t)) := by
    rcases (hs.asks _ _ _ hsend).2 with heq | hlt | ⟨hnil, -⟩
    · exact heq
    · rw [hpath] at hlt
      omega
    · rw [hpath] at hnil
      exact absurd hnil (by simp [endsPath])
  rw [heq, hpath] at hlen
  have ht : cStr t = t := hcut.eq_of_length (by omega)
  have hwhole : (47 :: t).takeWhile (!endsPath ·) = 47 :: t := by
    rw [ht] at hpre hlen hle
    exact hpre.eq_of_length (by rw [List.length_cons]; omega)
  rw [ht] at hgraphic hpath heq hsend
  refine ⟨by rw [heq, hpath, hwhole], htakes, ?_, fun c hc => ?_, fun hd => ?_⟩
  · simp only [urlOf, List.all_append, Bool.and_eq_true] at hgraphic ⊢
    exact hgraphic.2.2
  · rcases List.mem_append.mp hc with hc | hc
    · by_contra hend
      have := endsAuthority_of_endsPath (Bool.not_eq_false _ ▸ hend)
      rw [hall c hc] at this
      exact absurd this (by simp)
    · rw [← hwhole] at hc
      simpa using List.mem_takeWhile_imp hc
  · exact hs.dots _ _ _ hsend (by rwa [hpath, hwhole]) heq

lemma graphic_of_plain (hscheme : scheme.all isGraphic) (hp : PlainIn takes host (47 :: t)) :
    (urlOf scheme host t).all isGraphic := by
  have hg := hp.graphic
  simp only [urlOf, List.all_append, Bool.and_eq_true] at hg ⊢
  exact ⟨hscheme, by decide, hg⟩

lemma cStr_of_plain (hscheme : scheme.all isGraphic) (hp : PlainIn takes host (47 :: t)) :
    cStr (urlOf scheme host t) = urlOf scheme host t := by
  refine List.takeWhile_eq_self_iff.mpr fun c hc => ?_
  have := List.all_eq_true.mp (graphic_of_plain hscheme hp) c hc
  simpa using fun heq : c = 0 => absurd (heq ▸ this) (by decide)

/-- A plain path is asked for as it is, without a query. -/
lemma send_of_plain (hs : Sends takes send) (h : 58 ∉ scheme) (hscheme : scheme.all isGraphic)
    (hall : ∀ c ∈ host, endsAuthority c = false) (hp : PlainIn takes host (47 :: t)) :
    send (cStr (urlOf scheme host t)) = some (47 :: t, []) := by
  rw [cStr_of_plain hscheme hp]
  have hwhole : (47 :: t).takeWhile (!endsPath ·) = 47 :: t := by
    refine List.takeWhile_eq_self_iff.mpr fun c hc => ?_
    rw [hp.uncut c (List.mem_append_right _ hc)]
    rfl
  have hpath : urlPath (urlOf scheme host t) = 47 :: t :=
    (urlPath_of_authority h hall).trans hwhole
  have hquery : urlQuery (urlOf scheme host t) = [] := by
    rw [urlQuery, afterScheme_of_scheme h, List.takeWhile_eq_self_iff.mpr,
      List.dropWhile_eq_nil_iff.mpr]
    · rfl
    · intro c hc
      have := hp.uncut c hc
      rw [endsPath, Bool.or_eq_false_iff] at this
      simpa using this.1
    · intro c hc
      have := hp.uncut c hc
      rw [endsPath, Bool.or_eq_false_iff] at this
      simpa using this.2
  have hsend := hs.plain (urlOf scheme host t) ?_ (graphic_of_plain hscheme hp) ?_ ?_ ?_
  · rwa [hpath, hquery] at hsend
  · rw [(urlAuthority_eq_iff h).mpr hall]
    exact hp.takes
  · rw [hpath]
    simp
  · rw [hpath]
    exact hp.unescaped
  · rw [hpath]
    exact hp.undotted

end Parts

/-! ### The server's side -/

section Server

variable {path query s : Bytes} {c : UInt8}

/-- `'+'` is read as a blank. -/
def plusAsBlank (c : UInt8) : UInt8 := if c = 43 then 32 else c

lemma hexValue_plusAsBlank (c : UInt8) : hexValue (plusAsBlank c) = hexValue c := by
  rw [plusAsBlank]
  split
  · rename_i h
    rw [h]
    decide
  · rfl

lemma hexPair_plusAsBlank (a b : UInt8) :
    hexPair (plusAsBlank a) (plusAsBlank b) = hexPair a b := by
  rw [hexPair, hexPair, hexValue_plusAsBlank, hexValue_plusAsBlank]

-- their equations are made here, once, and not by the first lemmas that ask for them
section
attribute [local simp] urlDecode
end

lemma urlDecode_cons_of_ne (h : c ≠ 37) (l : Bytes) :
    urlDecode (c :: l) = plusAsBlank c :: urlDecode l := by
  rw [plusAsBlank]
  cases l with
  | nil => split <;> simp_all [urlDecode]
  | cons a l => cases l <;> split <;> simp_all [urlDecode]

lemma urlDecode_escape {a b x : UInt8} (h : hexPair a b = some x) (l : Bytes) :
    urlDecode (37 :: a :: b :: l) = x :: urlDecode l := by
  rw [urlDecode, if_neg (by decide), if_pos rfl]
  revert h
  rw [hexPair]
  cases hexValue a <;> cases hexValue b <;> simp_all

lemma urlDecode_noEscape {a b : UInt8} (h : hexPair a b = none) (l : Bytes) :
    urlDecode (37 :: a :: b :: l) = 37 :: urlDecode (a :: b :: l) := by
  rw [urlDecode, if_neg (by decide), if_pos rfl]
  revert h
  rw [hexPair]
  cases hexValue a <;> cases hexValue b <;> simp_all

/-- The server reads the escapes, and the blanks that stand for blanks. -/
lemma urlDecode_eq (s : Bytes) : urlDecode s = percentDecode (s.map plusAsBlank) := by
  rw [percentDecode]
  induction s using unescape.induct 37 hexPair with
  | case1 a b rest x hx ih =>
      rw [urlDecode_escape hx, ih, List.map_cons, List.map_cons, List.map_cons]
      exact (unescape_of_some (by rw [hexPair_plusAsBlank, hx]) _).symm
  | case2 a b rest hx ih =>
      rw [urlDecode_noEscape hx, ih, List.map_cons, List.map_cons, List.map_cons]
      exact (unescape_of_none (by rw [hexPair_plusAsBlank, hx]) _).symm
  | case3 c a b rest hc ih =>
      rw [urlDecode_cons_of_ne hc, ih, List.map_cons (l := a :: b :: rest), unescape_cons_of_ne]
      rw [plusAsBlank]
      split <;> simp_all
  | case4 l hl =>
      cases l with
      | nil => rfl
      | cons c l =>
          cases l with
          | nil => by_cases hc : c = 37 <;> by_cases hp : c = 43 <;>
              simp_all [urlDecode, unescape, plusAsBlank]
          | cons a l =>
              cases l with
              | nil => by_cases hc : c = 37 <;> by_cases hp : c = 43 <;> by_cases ha : a = 37 <;>
                  by_cases hq : a = 43 <;> simp_all [urlDecode, unescape, plusAsBlank]
              | cons b rest => exact absurd rfl (hl c a b rest)

lemma length_urlDecode_le (s : Bytes) : (urlDecode s).length ≤ s.length := by
  rw [urlDecode_eq, percentDecode]
  exact (length_unescape_le _).trans (List.length_map _).le

/-- What the server reads as it stands holds neither a plus nor an escape. -/
lemma urlDecode_eq_self_iff :
    urlDecode s = s ↔ 43 ∉ s ∧ hasEscape 37 hexPair s = false := by
  constructor
  · intro h
    have hmap : s.map plusAsBlank = s := by
      rw [urlDecode_eq, percentDecode] at h
      have hno : hasEscape 37 hexPair (s.map plusAsBlank) = false := by
        by_contra hesc
        have := length_unescape_lt (Bool.not_eq_false _ ▸ hesc)
        rw [h, List.length_map] at this
        exact lt_irrefl _ this
      rwa [unescape_of_noEscape hno] at h
    rw [urlDecode_eq, hmap, percentDecode, unescape_eq_self_iff] at h
    refine ⟨fun hmem => ?_, h⟩
    rw [← hmap, List.mem_map] at hmem
    obtain ⟨c, -, hc⟩ := hmem
    rw [plusAsBlank] at hc
    split at hc <;> simp_all
  · rintro ⟨hplus, hno⟩
    have hmap : s.map plusAsBlank = s := by
      conv_rhs => rw [← List.map_id s]
      refine List.map_congr_left fun c hc => ?_
      rw [plusAsBlank, if_neg fun heq : c = 43 => hplus (heq ▸ hc)]
      rfl
    rw [urlDecode_eq, hmap, percentDecode, unescape_of_noEscape hno]

lemma not_isSpace_of_isGraphic (h : isGraphic c = true) : isSpace c = false := by
  rw [isGraphic, Bool.and_eq_true, decide_eq_true_iff] at h
  have h32 := UInt8.lt_iff_toNat_lt.mp h.1
  rw [isSpace, Bool.or_eq_false_iff, decide_eq_false_iff_not, Bool.and_eq_false_iff,
    decide_eq_false_iff_not, decide_eq_false_iff_not, UInt8.le_iff_toNat_le,
    UInt8.le_iff_toNat_le, ← UInt8.toNat_inj]
  have h32' : (32 : UInt8).toNat = 32 := rfl
  have h9 : (9 : UInt8).toNat = 9 := rfl
  have h13 : (13 : UInt8).toNat = 13 := rfl
  omega

/-- The server reads the path from the request, up to a question mark. -/
lemma readRequest_requestHead (hne : path ≠ []) (hp : path.all isGraphic)
    (hq : query.all isGraphic) (headers : Bytes) :
    ∃ req, readRequest (requestHead path query headers) = some req ∧
      req.method = bytesOf "GET" ∧ req.path = urlDecode (path.takeWhile (· ≠ 63)) := by
  obtain ⟨target, htarget⟩ : ∃ target, target = path ++ (if query = [] then [] else 63 :: query) :=
    ⟨_, rfl⟩
  have hgraphic : ∀ c ∈ target, isSpace c = false := by
    intro c hc
    rw [htarget, List.mem_append] at hc
    refine not_isSpace_of_isGraphic ?_
    rcases hc with hc | hc
    · exact List.all_eq_true.mp hp c hc
    · split at hc
      · exact absurd hc (List.not_mem_nil)
      · rcases List.mem_cons.mp hc with rfl | hc
        · decide
        · exact List.all_eq_true.mp hq c hc
  have hnil : target ≠ [] := by
    rw [htarget]
    exact List.append_ne_nil_of_left_ne_nil hne _
  have hcut : target.takeWhile (· ≠ 63) = path.takeWhile (· ≠ 63) := by
    rw [htarget]
    split
    · rw [List.append_nil]
    · rw [List.takeWhile_append]
      split
      · rename_i hlen
        rw [(List.takeWhile_prefix _).eq_of_length hlen]
        simp
      · rfl
  have hline : 10 ∉ bytesOf "GET " ++ target ++ bytesOf " HTTP/1.1" ++ [13] := by
    have h10 : 10 ∉ target := fun h => absurd (hgraphic 10 h) (by decide)
    have hget : 10 ∉ bytesOf "GET " := by decide
    have hhttp : 10 ∉ bytesOf " HTTP/1.1" := by decide
    simp [h10, hget, hhttp]
  have hhead : requestHead path query headers =
      (bytesOf "GET " ++ target ++ bytesOf " HTTP/1.1" ++ [13]) ++ 10 :: headers := by
    rw [requestHead, ← htarget]
    simp
  have hlines : (requestHead path query headers).splitOn 10 =
      (bytesOf "GET " ++ target ++ bytesOf " HTTP/1.1" ++ [13]) :: headers.splitOn 10 := by
    rw [hhead, List.splitOn_append_cons_self_of_not_mem hline]
  have hchomp : chomp (bytesOf "GET " ++ target ++ bytesOf " HTTP/1.1" ++ [13]) =
      bytesOf "GET" ++ 32 :: (target ++ 32 :: bytesOf "HTTP/1.1") := by
    rw [chomp, if_pos (by simp), List.dropLast_concat, List.append_assoc]
    rfl
  have hwords : (bytesOf "GET" ++ 32 :: (target ++ 32 :: bytesOf "HTTP/1.1")).dropWhile isSpace =
      bytesOf "GET" ++ 32 :: (target ++ 32 :: bytesOf "HTTP/1.1") := rfl
  have hmethod : (bytesOf "GET" ++ 32 :: (target ++ 32 :: bytesOf "HTTP/1.1")).takeWhile
      (!isSpace ·) = bytesOf "GET" := rfl
  have hrest : (bytesOf "GET" ++ 32 :: (target ++ 32 :: bytesOf "HTTP/1.1")).dropWhile
      (!isSpace ·) = 32 :: (target ++ 32 :: bytesOf "HTTP/1.1") := rfl
  have hskip : (32 :: (target ++ 32 :: bytesOf "HTTP/1.1")).dropWhile isSpace =
      target ++ 32 :: bytesOf "HTTP/1.1" := by
    obtain ⟨c, l, hcons⟩ := List.exists_cons_of_ne_nil hnil
    have hc := hgraphic c (hcons ▸ List.mem_cons_self)
    rw [List.dropWhile_cons_of_pos (by decide), hcons, List.cons_append,
      List.dropWhile_cons_of_neg (by rw [hc]; simp)]
  have hword : (target ++ 32 :: bytesOf "HTTP/1.1").takeWhile (!isSpace ·) = target := by
    rw [List.takeWhile_append_of_pos fun c hc => by rw [hgraphic c hc]; rfl]
    simp [isSpace]
  rw [readRequest]
  simp only [hlines, List.headD_cons, hchomp, hwords, hmethod, hrest, hskip, hword]
  rw [if_neg (by simp only [hnil, or_false]; decide)]
  split
  · exact ⟨_, rfl, rfl, by rw [← hcut]⟩
  · rename_i h63
    refine ⟨_, rfl, rfl, ?_⟩
    rw [← hcut, List.takeWhile_eq_self_iff.mpr]
    intro c hc
    simpa using fun heq : c = 63 => h63 (heq ▸ hc)

end Server

/-! ### Which keys are named -/

section Names

variable {takes send} {c : S3Place} {l : LanPlace} {key path : Bytes}

lemma scheme_spec (c : S3Place) :
    58 ∉ c.scheme ∧ 0 ∉ c.scheme ∧ c.scheme.all isGraphic = true := by
  rw [S3Place.scheme]
  split <;> decide

lemma urlFor_eq (c : S3Place) (key : Bytes) :
    c.urlFor key = urlOf c.scheme c.host (cleanSegment c.bucket ++ 47 :: key) := by
  simp [S3Place.urlFor, S3Place.bucketUrl, urlOf]

/-- `clean_host` leaves no slash, and what is put after it holds none. -/
lemma slash_notMem_host (c : S3Place) : 47 ∉ c.host := by
  have hclean (v : Bytes) : 47 ∉ cleanHost v := by
    intro h
    simpa using List.mem_takeWhile_imp h
  rw [S3Place.host]
  dsimp only
  split
  · exact hclean _
  · split
    · exact List.not_mem_nil
    · split
      · exact hclean _
      · rw [List.mem_append, not_or]
        exact ⟨hclean _, by decide⟩

/-- The signer splits a plain URL where the host ends. -/
lemma canonicalUri_of_plain (hp : PlainIn takes c.host (c.pathFor key)) :
    canonicalUri (c.urlFor key) = uriEncode false (c.pathFor key) := by
  obtain ⟨hscheme, -, -⟩ := scheme_spec c
  have h63 : 63 ∉ c.host ++ c.pathFor key := fun h => absurd (hp.uncut 63 h) (by decide)
  have hidx : (c.host ++ c.pathFor key).idxOf 47 = c.host.length := by
    rw [List.idxOf_append_of_notMem (slash_notMem_host c), S3Place.pathFor, List.idxOf_cons_self,
      Nat.add_zero]
  have hmem : 47 ∈ c.host ++ c.pathFor key := by simp [S3Place.pathFor]
  have hrest : afterScheme (c.urlFor key) = c.host ++ c.pathFor key := by
    rw [urlFor_eq, afterScheme_of_scheme hscheme]
    rfl
  rw [canonicalUri, parseUrl]
  simp only [hrest, if_pos hmem, if_neg h63, hidx, List.drop_left]

/-- **The bucket's side.** -/
lemma s3_names_iff (hs : Sends takes send) :
    c.Names send key ↔ PlainIn takes c.host (c.pathFor key) := by
  obtain ⟨hscheme, hzero, hgraphic⟩ := scheme_spec c
  have hslash := slash_notMem_host c
  rw [S3Place.Names, urlFor_eq]
  constructor
  · rintro ⟨⟨path, hsend, hdecode⟩, -⟩
    have hlen : (c.pathFor key).length ≤ path.length := by
      rw [← hdecode]
      exact length_unescape_le _
    have hne :
        urlPath (cStr (urlOf c.scheme c.host (cleanSegment c.bucket ++ 47 :: key))) ≠ [] := by
      intro hnil
      rcases (hs.asks _ _ _ hsend).2 with heq | hlt | ⟨-, heq⟩
      · exact (hs.graphic _ _ _ hsend).1 (heq.trans hnil)
      · rw [hnil] at hlt
        exact absurd hlt (Nat.not_lt_zero _)
      · rw [heq, S3Place.pathFor] at hlen
        simp at hlen
    obtain ⟨hhost, hall⟩ := authority_of_path hscheme hzero hslash hne
    obtain ⟨hpath, htakes, hg, huncut, hdots⟩ :=
      plain_of_send hs hscheme hzero hhost hall hsend hlen
    refine ⟨htakes, hg, huncut, ?_, hdots⟩
    rw [hpath] at hdecode
    exact unescape_eq_self_iff.mp hdecode
  · intro hp
    have hall : ∀ a ∈ c.host, endsAuthority a = false := by
      intro a ha
      have hend := hp.uncut a (List.mem_append_left _ ha)
      by_contra hno
      rw [endsPath_of_endsAuthority (Bool.not_eq_false _ ▸ hno) fun h => hslash (h ▸ ha)] at hend
      exact absurd hend (by simp)
    refine ⟨⟨_, send_of_plain hs hscheme hgraphic hall hp, ?_⟩, ?_⟩
    · exact unescape_of_noEscape hp.unescaped
    · rw [← urlFor_eq]
      exact canonicalUri_of_plain hp

/-- **The LAN server's side.** -/
lemma lan_names_iff (hs : Sends takes send) :
    l.Names send key ↔ PlainIn takes l.authority (47 :: key) ∧ 47 ∉ l.authority ∧ 43 ∉ key := by
  have hscheme : 58 ∉ bytesOf "http" := by decide
  have hzero : 0 ∉ bytesOf "http" := by decide
  have hread {path query : Bytes} (hsend : send (cStr (l.urlFor key)) = some (path, query))
      (headers : Bytes) : ∃ req, readRequest (requestHead path query headers) = some req ∧
        req.method = bytesOf "GET" ∧ req.path = urlDecode (path.takeWhile (· ≠ 63)) := by
    obtain ⟨hne, hg⟩ := hs.graphic _ _ _ hsend
    refine readRequest_requestHead hne hg ?_ headers
    have hurl := (hs.refuses _ (by rw [hsend]; simp)).2
    rw [(hs.asks _ _ _ hsend).1]
    refine List.all_eq_true.mpr fun a ha => List.all_eq_true.mp hurl a ?_
    have h₁ := (List.dropWhile_sublist _).subset (List.mem_of_mem_drop ha)
    exact mem_of_mem_afterScheme ((List.takeWhile_prefix _).subset h₁)
  constructor
  · rintro ⟨hauth, path, query, hsend, hnames⟩
    obtain ⟨hhost, hall⟩ := authority_of_urlAuthority hscheme hzero hauth
    obtain ⟨req, hreq, -, hpath⟩ := hnames []
    obtain ⟨req', hreq', -, hpath'⟩ := hread hsend []
    cases hreq.symm.trans hreq'
    have hdecode := hpath.symm.trans hpath'
    have hlen : (47 :: key).length ≤ path.length := by
      rw [hdecode]
      exact (length_urlDecode_le _).trans (List.takeWhile_prefix _).length_le
    obtain ⟨heq, htakes, hg, huncut, hdots⟩ :=
      plain_of_send hs hscheme hzero hhost hall hsend hlen
    have hself : path.takeWhile (· ≠ 63) = 47 :: key := by
      rw [heq, List.takeWhile_eq_self_iff.mpr fun a ha => ?_]
      have := huncut a (List.mem_append_right _ ha)
      simpa using fun h : a = 63 => absurd (h ▸ this) (by decide)
    rw [hself] at hdecode
    obtain ⟨hplus, hescape⟩ := urlDecode_eq_self_iff.mp hdecode.symm
    refine ⟨⟨htakes, hg, huncut, hescape, hdots⟩, fun h => ?_, fun h => hplus (by simp [h])⟩
    exact absurd (hall 47 h) (by decide)
  · rintro ⟨hp, hslash, hplus⟩
    have hall : ∀ a ∈ l.authority, endsAuthority a = false := by
      intro a ha
      have hend := hp.uncut a (List.mem_append_left _ ha)
      by_contra hno
      rw [endsPath_of_endsAuthority (Bool.not_eq_false _ ▸ hno) fun h => hslash (h ▸ ha)] at hend
      exact absurd hend (by simp)
    have hsend : send (cStr (l.urlFor key)) = some (47 :: key, []) :=
      send_of_plain hs hscheme (by decide) hall hp
    refine ⟨?_, _, _, hsend, fun headers => ?_⟩
    · have hcut : cStr (l.urlFor key) = urlOf (bytesOf "http") l.authority key :=
        cStr_of_plain (by decide) hp
      rw [hcut]
      exact (urlAuthority_eq_iff hscheme).mpr hall
    · obtain ⟨req, hreq, hmethod, hpath⟩ := hread hsend headers
      refine ⟨req, hreq, hmethod, hpath.trans ?_⟩
      rw [List.takeWhile_eq_self_iff.mpr fun a ha => ?_, urlDecode_eq_self_iff]
      · exact ⟨by simp [hplus], hp.unescaped⟩
      · have := hp.uncut a (List.mem_append_right _ ha)
        simpa using fun h : a = 63 => absurd (h ▸ this) (by decide)

end Names

/-- **A key addresses its own object exactly when it is plain.**  Under the bucket its path may hold
nothing that ends a path, no escape, no dot segment, no blank and no control character; at the LAN
server it may hold no plus either. -/
theorem names_iff {takes : Bytes → Prop} {send : Bytes → Option (Bytes × Bytes)}
    (hs : Sends takes send) (c : S3Place) (l : LanPlace) (key : Bytes) :
    (c.Names send key ↔ PlainIn takes c.host (c.pathFor key)) ∧
      (l.Names send key ↔ PlainIn takes l.authority (47 :: key) ∧ 47 ∉ l.authority ∧ 43 ∉ key) :=
  ⟨s3_names_iff hs, lan_names_iff hs⟩

/-! ### A libcurl that connects to any host -/

/-- It refuses a URL with a dot segment instead of taking it out. -/
def sampleSend (url : Bytes) : Option (Bytes × Bytes) :=
  if urlAuthority url ≠ [] ∧ url.all isGraphic ∧ ¬ HasDots (urlPath url) then
    some (if urlPath url = [] then [47] else urlPath url, urlQuery url)
  else none

lemma mem_of_mem_urlPath {url : Bytes} {c : UInt8} (h : c ∈ urlPath url) : c ∈ url := by
  have h₁ := (List.takeWhile_prefix _).subset h
  exact mem_of_mem_afterScheme ((List.dropWhile_sublist _).subset h₁)

lemma sampleSends : Sends (· ≠ []) sampleSend where
  refuses url h := by
    rw [sampleSend] at h
    split at h
    · rename_i hall
      exact ⟨hall.1, hall.2.1⟩
    · exact absurd rfl h
  asks url path query h := by
    rw [sampleSend] at h
    split at h
    · cases h
      refine ⟨rfl, ?_⟩
      split
      · rename_i hnil
        exact Or.inr (Or.inr ⟨hnil, rfl⟩)
      · exact Or.inl rfl
    · exact absurd h (by simp)
  graphic url path query h := by
    rw [sampleSend] at h
    split at h
    · rename_i hall
      cases h
      split
      · exact ⟨by simp, by decide⟩
      · rename_i hne
        refine ⟨hne, List.all_eq_true.mpr fun c hc => ?_⟩
        exact List.all_eq_true.mp hall.2.1 c (mem_of_mem_urlPath hc)
    · exact absurd h (by simp)
  plain url htakes hg hne _ hdots := by
    rw [sampleSend, if_pos ⟨htakes, hg, hdots⟩, if_neg hne]
  dots url path query h hdots := by
    rw [sampleSend, if_neg fun hall => hall.2.2 hdots] at h
    exact absurd h (by simp)

/-- A bucket, and the LAN server of the main site. -/
def samplePlace : S3Place :=
  { endpointHost := bytesOf "https://s3.example.com/", bucket := bytesOf "relay" }

@[inherit_doc samplePlace]
def sampleLan : LanPlace := { host := bytesOf "10.0.0.5" }

theorem names_iff_sample :
    samplePlace.Names sampleSend (bytesOf "rooms/main-hall/live.json") ∧
      sampleLan.Names sampleSend (bytesOf "rooms/main-hall/live.json") := by
  constructor
  · refine (names_iff sampleSends samplePlace sampleLan _).1.mpr ⟨by decide +kernel, by decide +kernel, ?_, ?_, ?_⟩
    · decide +kernel
    · decide +kernel
    · decide +kernel
  · refine (names_iff sampleSends samplePlace sampleLan _).2.mpr
      ⟨⟨by decide +kernel, ?_, ?_, ?_, ?_⟩, ?_, ?_⟩
    · decide +kernel
    · decide +kernel
    · decide +kernel
    · decide +kernel
    · decide +kernel
    · decide +kernel

/-- A room with a question mark in its name is not named under the bucket, nor is one whose name
reads as an escape; one with a plus is named there but not at the LAN server. -/
theorem room_not_named :
    (¬ samplePlace.Names sampleSend (bytesOf "rooms/Q?/live.json") ∧
      ¬ samplePlace.Names sampleSend (bytesOf "rooms/100%25/live.json")) ∧
      samplePlace.Names sampleSend (bytesOf "rooms/a+b/live.json") ∧
      ¬ sampleLan.Names sampleSend (bytesOf "rooms/a+b/live.json") := by
  refine ⟨⟨fun h => ?_, fun h => ?_⟩, ?_, fun h => ?_⟩
  · have := ((s3_names_iff sampleSends).mp h).uncut 63 (by decide +kernel)
    exact absurd this (by decide +kernel)
  · exact absurd ((s3_names_iff sampleSends).mp h).unescaped (by decide +kernel)
  · exact (s3_names_iff sampleSends).mpr ⟨by decide +kernel, by decide +kernel, by decide +kernel, by decide +kernel, by decide +kernel⟩
  · exact absurd ((lan_names_iff sampleSends).mp h).2.2 (by decide +kernel)

end Multisite
