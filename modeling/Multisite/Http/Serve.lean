import Mathlib.Data.List.TakeWhile
import Multisite.Http.Server
import Multisite.Lib.Paths

/-!
What the HTTP server answers a request with (`HttpServer::handle_request`, `serve_static`): the
handler of its exact path, the handler of the longest prefix, or a file of the web interface.

A handler is whatever was registered.  The files are a tree that names are looked up in; a path is
handed to the system as a C string, so a zero byte ends it.

* `prefixHandler_eq_some`: the longest prefix that was registered answers, in whatever order they
  were;
* `files_served`: the files that can be asked for are those below the static root that are
  named without two dots in a row.
-/

namespace Multisite.Http

open Lib

variable {H ι : Type}

/-! ### Routes -/

/-- The routes of a server: `m_routes`, `m_prefix_routes` in the order they were registered, and
`m_static_root`. -/
structure HttpRoutes (H : Type) where
  routes : List (Bytes × H) := []
  prefixRoutes : List (Bytes × H) := []
  staticRoot : Bytes := []

/-- The key of a request: its method, and what of it. -/
def routeKey (method path : Bytes) : Bytes := method ++ [32] ++ path

/-- One turn of the loop over the prefixes: the longest one so far, and its handler. -/
def longerPrefix (method path : Bytes) (best : ℕ × Option H) (pr : Bytes × H) : ℕ × Option H :=
  let key := routeKey method []
  if key.isPrefixOf pr.1 then
    let pathLen := pr.1.length - key.length
    if pathLen ≤ best.1 then best
    else if (pr.1.drop key.length).isPrefixOf path then (pathLen, some pr.2)
    else best
  else best

/-- The handler of the longest prefix. -/
def HttpRoutes.prefixHandler (r : HttpRoutes H) (method path : Bytes) : Option H :=
  (r.prefixRoutes.foldl (longerPrefix method path) (0, none)).2

/-- The handler of a request. -/
def HttpRoutes.handler (r : HttpRoutes H) (req : HttpRequest) : Option H :=
  match (r.routes.find? fun e => e.1 = routeKey req.method req.path).map (·.2) with
  | some h => some h
  | none => r.prefixHandler req.method req.path

/-! ### Files -/

/-- The files of the box: where a path begins that does and that does not with a slash, and what
can be read at a place. -/
structure WebFiles (ι : Type) where
  tree : FileTree ι UInt8
  top : ι
  cwd : ι
  file : ι → Option Bytes
  /-- A directory is not a regular file. -/
  file_of_dir : ∀ n, tree.dir n = true → file n = none

/-- The place of a path, as the system takes it. -/
def WebFiles.place (w : WebFiles ι) (path : Bytes) : Option ι :=
  let p := path.takeWhile (· ≠ 0)
  if p = [] then none
  else w.tree.look 47 46 (if p.head? = some 47 then w.top else w.cwd) p

/-- `content_type_for`. -/
def contentTypeFor (path : Bytes) : String :=
  let ends (ext : String) : Bool := (bytesOf ext).isSuffixOf path
  if ends ".html" then "text/html; charset=utf-8"
  else if ends ".js" then "application/javascript; charset=utf-8"
  else if ends ".css" then "text/css; charset=utf-8"
  else if ends ".json" then "application/json; charset=utf-8"
  else if ends ".svg" then "image/svg+xml"
  else if ends ".png" then "image/png"
  else if ends ".jpg" || ends ".jpeg" then "image/jpeg"
  else if ends ".ico" then "image/x-icon"
  else if ends ".woff2" then "font/woff2"
  else "application/octet-stream"

/-- The path that `serve_static` opens for a request, if it opens any. -/
def staticPath (root path : Bytes) : Option Bytes :=
  let rel := if path = [47] then bytesOf "/index.html" else path
  if root = [] then none
  else if (firstIn [46, 46] rel).isSome then none
  else if rel.head? ≠ some 47 then none
  else some (root ++ rel)

/-- What a request is answered with. -/
inductive HttpAnswer (H ι : Type) where
  | handler (h : H)
  | file (n : ι) (contentType : String) (body : Bytes)
  | text (status : ℕ) (body : String)

/-- `serve_static`: the place, the type and the contents of the file. -/
def serveStatic (w : WebFiles ι) (root path : Bytes) : Option (ι × String × Bytes) :=
  (staticPath root path).bind fun p =>
    (w.place p).bind fun n => (w.file n).map fun body => (n, contentTypeFor p, body)

/-- `handle_request`, up to what is sent. -/
def handleRequest (r : HttpRoutes H) (w : WebFiles ι) (req : HttpRequest) : HttpAnswer H ι :=
  match r.handler req with
  | some h => .handler h
  | none =>
      if req.method = bytesOf "GET" ∨ req.method = bytesOf "HEAD" then
        match serveStatic w r.staticRoot req.path with
        | some (n, type, body) => .file n type body
        | none => .text 404 "not found"
      else .text 405 "method not allowed"

-- their equations are made here, once, and not by the first lemmas that ask for them
section
attribute [local simp] longerPrefix HttpRoutes.handler staticPath handleRequest
end

/-! ### The longest prefix -/

variable {method path p : Bytes} {h : H} {best : ℕ × Option H} {prs : List (Bytes × H)}
  {r : HttpRoutes H}

/-- Prefixes of one method are told apart by their paths. -/
lemma routeKey_inj {q : Bytes} (hkey : routeKey method q = routeKey method p) : q = p :=
  List.append_cancel_left hkey

lemma longerPrefix_key (method path p : Bytes) (h : H) (best : ℕ × Option H) :
    longerPrefix method path best (routeKey method p, h) =
      if best.1 < p.length ∧ p <+: path then (p.length, some h) else best := by
  have hkey : (routeKey method []).isPrefixOf (routeKey method p) = true := by
    rw [List.isPrefixOf_iff_prefix, routeKey, routeKey, List.append_nil]
    exact List.prefix_append _ _
  have hlen : (routeKey method p).length - (routeKey method []).length = p.length := by
    simp only [routeKey, List.length_append, List.length_cons, List.length_nil]
    omega
  have hdrop : (routeKey method p).drop (routeKey method []).length = p := by
    rw [routeKey, routeKey, List.append_nil, List.drop_left]
  simp only [longerPrefix, hkey, hlen, hdrop, if_true, List.isPrefixOf_iff_prefix]
  by_cases hle : p.length ≤ best.1
  · rw [if_pos hle, if_neg (by omega)]
  · rw [if_neg hle]
    by_cases hp : p <+: path
    · rw [if_pos hp, if_pos ⟨by omega, hp⟩]
    · rw [if_neg hp, if_neg fun hc => hp hc.2]

/-- Another method's prefix is passed over. -/
lemma longerPrefix_other {key : Bytes} (hkey : ∀ p, key ≠ routeKey method p) (h : H) :
    longerPrefix method path best (key, h) = best := by
  rw [longerPrefix]
  refine if_neg fun hpre => ?_
  rw [List.isPrefixOf_iff_prefix] at hpre
  obtain ⟨p, hp⟩ := hpre
  refine hkey p ?_
  rw [routeKey, List.append_nil] at hp
  exact hp.symm

/-- The loop over the prefixes: what it has at the end was there, or is one of them, and none is
longer. -/
lemma foldl_longerPrefix (method path : Bytes) (prs : List (Bytes × H)) (best : ℕ × Option H) :
    let r := prs.foldl (longerPrefix method path) best
    (r = best ∨ ∃ p h, (routeKey method p, h) ∈ prs ∧ p <+: path ∧ best.1 < p.length ∧
        r = (p.length, some h)) ∧
      best.1 ≤ r.1 ∧ ∀ p h, (routeKey method p, h) ∈ prs → p <+: path → p.length ≤ r.1 := by
  induction prs generalizing best with
  | nil => simp
  | cons pr prs ih =>
      obtain ⟨hmem, hle, htop⟩ := ih (longerPrefix method path best pr)
      rw [List.foldl_cons]
      obtain ⟨key, h⟩ := pr
      by_cases hkey : ∃ p, key = routeKey method p
      · obtain ⟨p, rfl⟩ := hkey
        rw [longerPrefix_key] at hmem hle htop ⊢
        by_cases hbetter : best.1 < p.length ∧ p <+: path
        · rw [if_pos hbetter] at hmem hle htop ⊢
          refine ⟨Or.inr ?_, by dsimp only at hle; omega, fun q h' hq hpre => ?_⟩
          · rcases hmem with hsame | ⟨q, h', hq, hpre, hlt, heq⟩
            · exact ⟨p, h, List.mem_cons_self, hbetter.2, hbetter.1, hsame⟩
            · exact ⟨q, h', List.mem_cons_of_mem _ hq, hpre, by dsimp only at hlt; omega, heq⟩
          · rcases List.mem_cons.mp hq with heq | hq
            · rw [routeKey_inj (Prod.mk.inj heq).1]
              exact hle
            · exact htop q h' hq hpre
        · rw [if_neg hbetter] at hmem hle htop ⊢
          refine ⟨?_, hle, fun q h' hq hpre => ?_⟩
          · refine hmem.imp_right fun hin => ?_
            obtain ⟨q, h', hq, hrest⟩ := hin
            exact ⟨q, h', List.mem_cons_of_mem _ hq, hrest⟩
          · rcases List.mem_cons.mp hq with heq | hq
            · have hqp := routeKey_inj (Prod.mk.inj heq).1
              rw [not_and_or, not_lt] at hbetter
              rw [hqp] at hpre ⊢
              exact (hbetter.resolve_right (not_not_intro hpre)).trans hle
            · exact htop q h' hq hpre
      · rw [longerPrefix_other (by simpa using hkey)] at hmem hle htop ⊢
        refine ⟨?_, hle, fun q h' hq hpre => ?_⟩
        · refine hmem.imp_right fun hin => ?_
          obtain ⟨q, h', hq, hrest⟩ := hin
          exact ⟨q, h', List.mem_cons_of_mem _ hq, hrest⟩
        · rcases List.mem_cons.mp hq with heq | hq
          · exact absurd ⟨q, (Prod.mk.inj heq).1.symm⟩ hkey
          · exact htop q h' hq hpre

/-- **The longest prefix answers**, in whatever order the prefixes were registered: a handler is
that of a prefix of the path, not empty, than which no other prefix of the path is longer. -/
theorem prefixHandler_eq_some (hdistinct : (r.prefixRoutes.map (·.1)).Nodup) :
    r.prefixHandler method path = some h ↔
      ∃ p, p ≠ [] ∧ (routeKey method p, h) ∈ r.prefixRoutes ∧ p <+: path ∧
        ∀ q h', (routeKey method q, h') ∈ r.prefixRoutes → q <+: path → q.length ≤ p.length := by
  obtain ⟨hmem, -, htop⟩ := foldl_longerPrefix method path r.prefixRoutes (0, none)
  rw [HttpRoutes.prefixHandler]
  constructor
  · intro heq
    rcases hmem with hnone | ⟨p, h', hp, hpre, hlt, hsome⟩
    · rw [hnone] at heq
      exact absurd heq (by simp)
    · rw [hsome] at heq htop
      obtain rfl := Option.some.inj heq
      exact ⟨p, List.ne_nil_of_length_pos hlt, hp, hpre, htop⟩
  · rintro ⟨p, hne, hp, hpre, hmax⟩
    have hlen := htop p h hp hpre
    rcases hmem with hnone | ⟨q, h', hq, hqpre, -, hsome⟩
    · rw [hnone] at hlen
      exact absurd (List.length_pos_iff.mpr hne) (by omega)
    · rw [hsome] at hlen ⊢
      have hqp : q = p :=
        (List.prefix_of_prefix_length_le hqpre hpre (hmax q h' hq hqpre)).eq_of_length
          (le_antisymm (hmax q h' hq hqpre) hlen)
      rw [hqp] at hq
      have := List.inj_on_of_nodup_map hdistinct hq hp rfl
      exact congrArg some (Prod.mk.inj this).2

/-- One prefix within another, the general one first. -/
theorem prefixHandler_eq_some_within :
    ({ prefixRoutes := [(bytesOf "GET /a/", false), (bytesOf "GET /a/b/", true)] } :
      HttpRoutes Bool).prefixHandler (bytesOf "GET") (bytesOf "/a/b/c") = some true := by
  refine (prefixHandler_eq_some (by decide)).mpr ⟨bytesOf "/a/b/", by decide, by decide,
    by decide, fun q h' hq hpre => ?_⟩
  simp only [List.mem_cons, Prod.mk.injEq, List.not_mem_nil, or_false] at hq
  rcases hq with ⟨hq, -⟩ | ⟨hq, -⟩
  · have hqa : q = bytesOf "/a/" := routeKey_inj (hq.trans (by decide))
    rw [hqa]
    decide
  · have hqb : q = bytesOf "/a/b/" := routeKey_inj (hq.trans (by decide))
    rw [hqb]

/-! ### Files below the root -/

variable {w : WebFiles ι} {root : Bytes} {below n : ι} {body : Bytes} {names : List Bytes}

/-- A name that the web interface can ask for. -/
def FileName (c : Bytes) : Prop := FileTree.Plain 47 46 c ∧ (0 : UInt8) ∉ c

/-- The path that is opened is the root, a slash and a path without two dots in a row. -/
lemma staticPath_eq_some (h : staticPath root path = some p) :
    ∃ rel, p = root ++ 47 :: rel ∧ ¬[46, 46] <:+: rel ∧ root ≠ [] := by
  rw [staticPath] at h
  generalize (if path = [47] then bytesOf "/index.html" else path) = rel at h
  split_ifs at h with hroot hdots hslash
  obtain rfl := Option.some.inj h
  rw [Bool.not_eq_true, Option.isSome_eq_false_iff, Option.isNone_iff_eq_none, firstIn_eq_none]
    at hdots
  cases rel with
  | nil => simp at hslash
  | cons c rel =>
      have hc : c = 47 := by simpa using hslash
      rw [hc] at hdots ⊢
      exact ⟨rel, rfl, fun hin => hdots (hin.trans (List.suffix_cons _ _).isInfix), hroot⟩

/-- A place beyond the root is looked up from the root. -/
lemma place_append (hroot : root ≠ []) (hzero : (0 : UInt8) ∉ root)
    (hbelow : w.place root = some below) (rel : Bytes) :
    w.place (root ++ 47 :: rel) = w.tree.look 47 46 below (rel.takeWhile (· ≠ 0)) := by
  have hkept (c : UInt8) (hc : c ∈ root) : decide (c ≠ 0) = true :=
    decide_eq_true fun h0 => hzero (h0 ▸ hc)
  have hall : root.takeWhile (· ≠ 0) = root := List.takeWhile_eq_self_iff.mpr hkept
  have htake : (root ++ 47 :: rel).takeWhile (· ≠ 0) = root ++ 47 :: rel.takeWhile (· ≠ 0) := by
    rw [List.takeWhile_append_of_pos hkept, List.takeWhile_cons_of_pos (by decide)]
  have hhead : (root ++ 47 :: rel.takeWhile (· ≠ 0)).head? = root.head? := by
    obtain ⟨c, l, rfl⟩ := List.exists_cons_of_ne_nil hroot
    rfl
  rw [WebFiles.place] at hbelow ⊢
  rw [hall, if_neg hroot] at hbelow
  rw [htake, if_neg (by simp), hhead, FileTree.look_append_cons, hbelow, Option.bind_some]

lemma serveStatic_names (hzero : (0 : UInt8) ∉ root) (hbelow : w.place root = some below)
    {type : String} (h : serveStatic w root path = some (n, type, body)) :
    w.file n = some body ∧ ∃ names, names ≠ [] ∧ (∀ c ∈ names, FileName c) ∧
      w.tree.names below names = some n := by
  rw [serveStatic, Option.bind_eq_some_iff] at h
  obtain ⟨p, hp, h⟩ := h
  obtain ⟨m, hm, h⟩ := Option.bind_eq_some_iff.mp h
  obtain ⟨b, hb, heq⟩ := Option.map_eq_some_iff.mp h
  obtain ⟨rfl, -, rfl⟩ : m = n ∧ contentTypeFor p = type ∧ b = body := by simpa using heq
  obtain ⟨rel, rfl, hdots, hroot⟩ := staticPath_eq_some hp
  rw [place_append hroot hzero hbelow] at hm
  have hdots' : ¬[46, 46] <:+: rel.takeWhile (· ≠ 0) :=
    fun hin => hdots (hin.trans (List.takeWhile_prefix _).isInfix)
  obtain ⟨names, hplain, hin, hnames⟩ := FileTree.names_of_look hdots' hm
  refine ⟨hb, names, fun hnil => ?_, fun c hc => ⟨hplain c hc, fun h0 => ?_⟩, hnames⟩
  · -- without a name the root itself would be the file
    rw [hnil] at hnames
    obtain rfl := Option.some.inj hnames
    exact absurd ((w.file_of_dir below (FileTree.dir_of_look hm)).symm.trans hb) (by simp)
  · have := List.mem_takeWhile_imp ((hin c hc).subset h0)
    simp at this

lemma serveStatic_of_names (hroot : root ≠ []) (hzero : (0 : UInt8) ∉ root)
    (hbelow : w.place root = some below) (hnames : ∀ c ∈ names, FileName c)
    (hn : w.tree.names below names = some n) (hne : names ≠ []) (hbody : w.file n = some body) :
    ∃ type, serveStatic w root (47 :: [47].intercalate names) = some (n, type, body) := by
  have hdots : ¬[46, 46] <:+: [47].intercalate names := by
    intro hin
    obtain ⟨c, hc, hcin⟩ := FileTree.infix_intercalate (by simp) (by decide) hin
    exact (hnames c hc).1.undotted hcin
  -- a path of one slash would have no name to it
  have hslash : 47 :: [47].intercalate names ≠ [47] := by
    intro h1
    obtain ⟨c, cs, rfl⟩ := List.exists_cons_of_ne_nil hne
    have hc := (hnames c List.mem_cons_self).1.ne_nil
    have h2 := (List.cons.inj h1).2
    cases cs with
    | nil => exact hc (by simpa using h2)
    | cons d cs =>
        rw [List.intercalate_cons_of_ne_nil (by simp)] at h2
        simp at h2
  have hfirst : (firstIn [46, 46] (47 :: [47].intercalate names)).isSome = false := by
    rw [Option.isSome_eq_false_iff, Option.isNone_iff_eq_none, firstIn_eq_none]
    intro hin
    rcases List.infix_cons_iff.mp hin with hpre | hin
    · exact absurd (List.cons_prefix_cons.mp hpre).1 (by decide)
    · exact hdots hin
  have hpath : staticPath root (47 :: [47].intercalate names) =
      some (root ++ 47 :: [47].intercalate names) := by
    rw [staticPath, if_neg hslash, if_neg hroot, hfirst]
    simp
  have hall : ([47].intercalate names).takeWhile (· ≠ 0) = [47].intercalate names := by
    refine List.takeWhile_eq_self_iff.mpr fun c hc => decide_eq_true fun h0 => ?_
    rw [h0, List.mem_iff_append] at hc
    obtain ⟨x, y, hxy⟩ := hc
    have hin : [0] <:+: [47].intercalate names := ⟨x, y, by simp [hxy]⟩
    obtain ⟨d, hd, hin⟩ := FileTree.infix_intercalate (by simp) (by decide) hin
    exact (hnames d hd).2 (hin.subset List.mem_cons_self)
  have hplace : w.place (root ++ 47 :: [47].intercalate names) = some n := by
    rw [place_append hroot hzero hbelow, hall]
    exact FileTree.look_intercalate (fun c hc => (hnames c hc).1) hne hn
  exact ⟨_, by rw [serveStatic, hpath, Option.bind_some, hplace, Option.bind_some, hbody]; rfl⟩

/-- **The files of the static root, and no others**: whatever the request, a file that is answered
is one that names without two dots in a row lead to, from the root downwards, for a `GET` or a
`HEAD` that no route takes; and each such file is answered to one that asks for it by its names. -/
theorem files_served (hroot : r.staticRoot ≠ []) (hzero : (0 : UInt8) ∉ r.staticRoot)
    (hbelow : w.place r.staticRoot = some below) :
    (∀ req n type body, handleRequest r w req = .file n type body →
      r.handler req = none ∧ (req.method = bytesOf "GET" ∨ req.method = bytesOf "HEAD") ∧
        w.file n = some body ∧
        ∃ names, names ≠ [] ∧ (∀ c ∈ names, FileName c) ∧ w.tree.names below names = some n) ∧
    ∀ names n body, names ≠ [] → (∀ c ∈ names, FileName c) → w.tree.names below names = some n →
      w.file n = some body → ∀ req, (req.method = bytesOf "GET" ∨ req.method = bytesOf "HEAD") →
        req.path = 47 :: [47].intercalate names → r.handler req = none →
          ∃ type, handleRequest r w req = .file n type body := by
  refine ⟨fun req n type body h => ?_, fun names n body hne hnames hn hbody req hmethod hpath
    hnone => ?_⟩
  · rw [handleRequest] at h
    cases hh : r.handler req with
    | some x => simp [hh] at h
    | none =>
        simp only [hh] at h
        split_ifs at h with hmethod
        cases hs : serveStatic w r.staticRoot req.path with
        | none => simp [hs] at h
        | some f =>
            obtain ⟨m, ty, b⟩ := f
            simp only [hs, HttpAnswer.file.injEq] at h
            obtain ⟨rfl, rfl, rfl⟩ := h
            exact ⟨rfl, hmethod, serveStatic_names hzero hbelow hs⟩
  · obtain ⟨type, hs⟩ := serveStatic_of_names hroot hzero hbelow hnames hn hne hbody
    refine ⟨type, ?_⟩
    rw [handleRequest, hnone, hpath]
    simp only [hs]
    exact if_pos hmethod

/-- A directory of the root with one file in it. -/
def sampleFiles : WebFiles ℕ where
  tree :=
    { dir := fun n => decide (n < 2)
      child := fun n c =>
        if n = 0 ∧ c = bytesOf "web" then some 1
        else if n = 1 ∧ c = bytesOf "a.js" then some 2
        else none
      parent := fun _ => 0 }
  top := 0
  cwd := 0
  file := fun n => if n < 2 then none else some (bytesOf "a")
  file_of_dir := fun _ hdir => if_pos (of_decide_eq_true hdir)

theorem files_served_named : ∃ type,
    handleRequest ({ staticRoot := bytesOf "/web" } : HttpRoutes Bool) sampleFiles
      { method := bytesOf "GET", path := bytesOf "/a.js" } = .file 2 type (bytesOf "a") := by
  have hbelow : sampleFiles.place (bytesOf "/web") = some 1 := by decide
  have hname : FileName (bytesOf "a.js") :=
    ⟨⟨by decide, by decide, by decide, by decide⟩, by decide⟩
  refine (files_served ?_ ?_ hbelow).2 [bytesOf "a.js"] 2 (bytesOf "a") ?_ ?_ ?_ ?_ _
    (Or.inl rfl) ?_ rfl
  · decide
  · decide
  · decide
  · exact List.forall_mem_singleton.mpr hname
  · decide
  · decide
  · decide

end Multisite.Http
